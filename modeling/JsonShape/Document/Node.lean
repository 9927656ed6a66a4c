import JsonShape.Document.Members

/-!
# Document tree

A JSON document without its literal values: of a primitive value only the type is kept, since
nothing else of it bears on the shape of the document.
-/

namespace JsonShape

/-- The type of a primitive value. -/
inductive Primitive where
  /-- A string. -/
  | string
  /-- The word `true` or `false`. -/
  | bool
  /-- A number without fraction and exponent. -/
  | integer
  /-- Any other number. -/
  | float
  /-- The word `null`. -/
  | null
deriving Repr, DecidableEq

/-- A value of a JSON document. -/
inductive Node where
  /-- An object with its members. -/
  | object (members : Members Node)
  /-- An array with its elements. -/
  | array (elements : List Node)
  /-- A primitive value of which the type is known. -/
  | primitive (type : Primitive)
deriving Repr

namespace Node

instance : Inhabited Node := ⟨.primitive .null⟩

/-- The kind of a value. Integers and floats are of different kinds. -/
inductive Kind where
  /-- An object. -/
  | object
  /-- An array. -/
  | array
  /-- A primitive value of the given type. -/
  | primitive (type : Primitive)
deriving Repr, DecidableEq

/-- The name of a kind in messages. -/
def Kind.name : Kind → String
  | object => "object"
  | array => "array"
  | primitive .string => "string"
  | primitive .bool => "bool"
  | primitive .integer => "integer"
  | primitive .float => "float"
  | primitive .null => "null"

/-- The kind of a value. -/
def kind : Node → Kind
  | object _ => .object
  | array _ => .array
  | primitive type => .primitive type

/-- The members of an object. -/
def members? : Node → Option (Members Node)
  | object members => some members
  | _ => none

/-! ## Weight -/

mutual

/-- The number of values in a tree, the whole included. -/
def weight : Node → Nat
  | object ⟨entries⟩ => 1 + weightEntries entries
  | array elements => 1 + weightAll elements
  | primitive _ => 1

/-- The number of values in a list of trees. -/
def weightAll : List Node → Nat
  | [] => 0
  | node :: rest => weight node + weightAll rest

/-- The number of values in the trees under some keys. -/
def weightEntries : List (String × List Node) → Nat
  | [] => 0
  | (_, values) :: rest => weightAll values + weightEntries rest

end

theorem weightAll_append (xs ys : List Node) :
    weightAll (xs ++ ys) = weightAll xs + weightAll ys := by
  induction xs with
  | nil => rw [List.nil_append, weightAll, Nat.zero_add]
  | cons x rest ih => rw [List.cons_append, weightAll, ih, weightAll, Nat.add_assoc]

theorem weightEntries_eq_weigh (entries : List (String × List Node)) :
    weightEntries entries = Members.weigh weightAll entries := by
  induction entries with
  | nil => rfl
  | cons e rest ih => rw [weightEntries, Members.weigh, ih]

theorem weight_object (members : Members Node) :
    (object members).weight = 1 + Members.weigh weightAll members.entries := by
  rw [weight, weightEntries_eq_weigh]

theorem weight_array (elements : List Node) :
    (array elements).weight = 1 + weightAll elements := by
  rw [weight]

theorem weight_pos (node : Node) : 0 < node.weight := by
  cases node <;> rw [weight] <;> omega

end Node

end JsonShape
