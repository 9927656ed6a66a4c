import JsonShape.Document.Node

/-!
# Shapes

The type of a piece of a document, as far as a declaration can state it.
-/

namespace JsonShape

/-- A field of a struct: the key of the document, the identifier that stands for it, and what
belongs to the key, such as its shape. -/
structure Field (σ : Type) where
  /-- The identifier of the field. -/
  ident : String
  /-- The key exactly as it is written in the document. -/
  key : String
  /-- What belongs to the key. -/
  value : σ
deriving Repr, DecidableEq

namespace Field

/-- The field with another value. -/
def map {σ τ : Type} (f : σ → τ) (field : Field σ) : Field τ :=
  ⟨field.ident, field.key, f field.value⟩

end Field

/-- The type of a piece of a document. -/
inductive Shape where
  /-- No narrower type fits. -/
  | any
  /-- A truth value. -/
  | bool
  /-- A number without fraction and exponent. -/
  | integer
  /-- Any other number. -/
  | float
  /-- A string. -/
  | string
  /-- A list of values of one shape. -/
  | slice (element : Shape)
  /-- An object, a field for each key. -/
  | struct (fields : List (Field Shape))
deriving Repr

namespace Shape

instance : Inhabited Shape := ⟨.any⟩

/-- The shape of a primitive value. A `null` says nothing about what else may stand in its place. -/
def ofPrimitive : Primitive → Shape
  | .string => string
  | .bool => bool
  | .integer => integer
  | .float => float
  | .null => any

end Shape

end JsonShape
