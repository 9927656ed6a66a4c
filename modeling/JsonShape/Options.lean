import JsonShape.Document.Parse
import JsonShape.Naming.Identifier

/-!
# Options

What the caller decides about a declaration: its name, the package clause before it, and how deep a
document may nest. Names are made legal when they are set.
-/

namespace JsonShape

/-- The name of the declared type unless the caller gives one. -/
def Options.defaultTypeName : String := "JSONToStruct"

/-- The package of the file unless the caller gives one. -/
def Options.defaultPackage : String := "generated"

/-- The choices of a caller. -/
structure Options where
  /-- The name of the declared type. -/
  typeName : String := Options.defaultTypeName
  /-- The package of the file, if it begins with a package clause. -/
  package : Option String := some Options.defaultPackage
  /-- How deep containers may nest in a document. -/
  maxDepth : Nat := Document.defaultMaxDepth
deriving Repr, DecidableEq, Inhabited

namespace Options

/-- The choices of a caller who makes none. -/
def default : Options := {}

/-- Names the type, under the rules for fields. -/
def withTypeName (options : Options) (name : String) : Options :=
  { options with typeName := Naming.identifier name }

/-- Asks for a package clause. -/
def withPackage (options : Options) (name : String) : Options :=
  { options with package := some (Naming.packageName name) }

/-- Asks for no package clause. -/
def withoutPackage (options : Options) : Options := { options with package := none }

/-- Limits how deep containers may nest. -/
def withMaxDepth (options : Options) (limit : Nat) : Options := { options with maxDepth := limit }

end Options

end JsonShape
