import JsonShape.Document.Node
import JsonShape.Token.Basic

/-!
# Errors

Why a document has no tree, or a tree no declaration, and the one wording of each error. Offsets are
bytes of the text.
-/

namespace JsonShape

/-- The two values that hold others. -/
inductive Container where
  /-- An object. -/
  | object
  /-- An array. -/
  | array
deriving Repr, DecidableEq

namespace Container

/-- The name of a container in messages. -/
def name : Container → String
  | object => "object"
  | array => "array"

/-- The character that closes a container. -/
def closer : Container → Char
  | object => '\x7d'
  | array => ']'

end Container

/-- Everything that can go wrong between a text and its declaration. -/
inductive Error where
  /-- No token could be read. -/
  | lexical (cause : Fault) (offset : Nat)
  /-- The first token opens neither an object nor an array. -/
  | invalidRoot (found : Token)
  /-- A token stands where the grammar has no place for it. -/
  | unexpected (found : Token) (context : Container)
  /-- A comma stands directly before the end of a container. -/
  | trailingComma (context : Container) (offset : Nat)
  /-- The text ended inside a container. -/
  | unexpectedEnd (context : Container)
  /-- A token follows the document. -/
  | trailingContent (found : Token)
  /-- A container is nested deeper than allowed. -/
  | nestingTooDeep (limit offset : Nat)
  /-- A tree of this kind has no type declaration. -/
  | unsupportedRoot (kind : Node.Kind)
deriving Repr, DecidableEq

namespace Error

/-- The wording of an error. -/
def message : Error → String
  | lexical cause offset =>
    "invalid json at byte " ++ offset.repr ++ ": " ++ cause.detail
  | invalidRoot found =>
    "document must start with an object or array, found " ++ found.describe ++
      " at byte " ++ found.start.repr
  | unexpected found context =>
    "unexpected " ++ found.describe ++ " at byte " ++ found.start.repr ++
      " while parsing " ++ context.name
  | trailingComma context offset =>
    "trailing comma before '" ++ context.closer.toString ++ "' at byte " ++ offset.repr
  | unexpectedEnd context =>
    "unexpected end of input while parsing " ++ context.name
  | trailingContent found =>
    "unexpected " ++ found.describe ++ " at byte " ++ found.start.repr ++
      " after the end of the document"
  | nestingTooDeep limit offset =>
    "nesting exceeds the limit of " ++ limit.repr ++ " levels at byte " ++ offset.repr
  | unsupportedRoot kind =>
    "cannot generate a type from a " ++ kind.name ++ " root"

end Error

end JsonShape
