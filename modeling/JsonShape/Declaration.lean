import JsonShape.Options
import JsonShape.Shape.Basic

/-!
# Declarations

Writes a shape as the declaration of one Go type, in a file of its own. Each field carries a tag
that names its key in the document, since an identifier cannot always do so.
-/

namespace JsonShape

namespace Declaration

/-! ## Tags -/

/-- The mark around a raw literal, which cannot occur inside it. -/
def backquote : Char := '\x60'

/-- The value of a tag. The key is written as it is in the document, escapes included. -/
def tagValue (key : String) : String := "json:\"" ++ key ++ "\""

/-- A character inside an interpreted literal. -/
def escape (c : Char) : List Char := if c = '"' || c = '\\' then ['\\', c] else [c]

/-- The literal of a tag: a raw one, unless the key holds the mark of a raw literal. -/
def tag (key : String) : String :=
  let value := (tagValue key).toList
  if value.contains backquote then .ofList ('"' :: value.flatMap escape ++ ['"'])
  else .ofList (backquote :: value ++ [backquote])

/-! ## Types -/

/-- The white space at the start of a line. -/
def indent (depth : Nat) : String := .ofList (List.replicate depth '\t')

/-- A shape as a type expression in a line that is indented `depth` deep. -/
def typeExpr (depth : Nat) : Shape → String
  | .any => "interface\x7b\x7d"
  | .bool => "bool"
  | .integer => "int"
  | .float => "float64"
  | .string => "string"
  | .slice element => "[]" ++ typeExpr depth element
  | .struct fields =>
    if fields.isEmpty then "struct\x7b\x7d"
    else "struct \x7b\n" ++ fieldLines (depth + 1) fields ++ indent depth ++ "\x7d"
where
  /-- The fields of a struct, a line for each. -/
  fieldLines (depth : Nat) : List (Field Shape) → String
    | [] => ""
    | ⟨ident, key, shape⟩ :: rest =>
      indent depth ++ ident ++ " " ++ typeExpr depth shape ++ " " ++ tag key ++ "\n" ++
        fieldLines depth rest

/-! ## Files -/

/-- The clause at the head of a file. -/
def packageClause : Option String → String
  | none => ""
  | some name => "package " ++ name ++ "\n\n"

end Declaration

namespace Shape

/-- The file that declares a type of this shape. -/
def declaration (shape : Shape) (options : Options) : String :=
  Declaration.packageClause options.package ++ "type " ++ options.typeName ++ " " ++
    Declaration.typeExpr 0 shape ++ "\n"

end Shape

end JsonShape
