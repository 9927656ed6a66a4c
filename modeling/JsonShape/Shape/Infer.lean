import JsonShape.Error
import JsonShape.Naming.Claim
import JsonShape.Unicode.Lower

/-!
# Inferred shapes

Infers one shape for a group of values that share a place in a document: the values of a key, in one
object or in several that were merged, or the elements of an array. Values of one kind share a
shape; objects are merged key by key, where a key without values would have no field; lists that
share a place are not compared with each other, and neither are lists in a list.

A field whose identifier differs from its key by more than case is a rename. Renames are noted in
the order in which fields are named: those inside a field's shape before the field itself.
-/

namespace JsonShape

/-- A key and the identifier that stands for it. -/
structure Rename where
  /-- The key of the document. -/
  key : String
  /-- The identifier of the field. -/
  ident : String
deriving Repr, DecidableEq

namespace Rename

/-- The rename of a field, if its identifier and its key differ in lower case. -/
def ofField {σ : Type} (field : Field σ) : List Rename :=
  if Unicode.lowerText field.ident = Unicode.lowerText field.key then []
  else [⟨field.key, field.ident⟩]

end Rename

namespace Node

/-- The kind of all values of a group. Values of several kinds have none, and no values either. -/
def commonKind? : List Node → Option Kind
  | [] => none
  | node :: rest => if rest.all fun other => other.kind = node.kind then some node.kind else none

/-- The objects of a group as one. -/
def mergeObjects (group : List Node) : Members Node :=
  Members.merge (group.filterMap members?)

/-- Objects weigh more than their members. -/
theorem weighAll_members_le (group : List Node) :
    Members.weighAll weightAll (group.filterMap members?) + (group.filterMap members?).length ≤
      weightAll group := by
  induction group with
  | nil => exact Nat.le_refl _
  | cons node rest ih =>
    rw [weightAll]
    cases node with
    | object members =>
      have : members? (object members) = some members := rfl
      rw [List.filterMap_cons_some this, Members.weighAll, List.length_cons, weight_object]
      omega
    | array elements =>
      have : members? (array elements) = none := rfl
      rw [List.filterMap_cons_none this]
      omega
    | primitive type =>
      have : members? (primitive type) = none := rfl
      rw [List.filterMap_cons_none this]
      omega

/-- The values of a merged key weigh less than the objects that were merged. -/
theorem weightAll_lt_of_mem_mergeObjects {group : List Node} {key : String} {values : List Node}
    (hkind : commonKind? group = some .object)
    (h : (key, values) ∈ (mergeObjects group).inhabited.entries) :
    weightAll values < weightAll group := by
  have h := (Members.mem_inhabited.1 h).1
  have hle := weighAll_members_le group
  have hmem := Members.weight_le_weigh weightAll h
  rw [mergeObjects, Members.weigh_merge weightAll_append] at hmem
  have hpos : 0 < (group.filterMap members?).length := by
    cases group with
    | nil => simp [commonKind?] at hkind
    | cons node rest =>
      have : node.kind = .object := by
        simp only [commonKind?] at hkind
        split at hkind <;> simp_all
      cases node <;> simp_all [kind, members?]
  omega

/-- The elements of an array weigh less than the array. -/
theorem weightAll_elements_lt (elements : List Node) :
    weightAll elements < weightAll [.array elements] := by
  rw [weightAll, weight_array]
  omega

end Node

/-- A shape, and the renames that were noted while it was inferred. -/
structure Inferred where
  /-- The shape. -/
  shape : Shape
  /-- The renames inside the shape, in the order in which they were noted. -/
  renames : List Rename

namespace Inferred

/-- A shape without fields. -/
def plain (shape : Shape) : Inferred := ⟨shape, []⟩

/-- A list of values. -/
def slice (element : Inferred) : Inferred := ⟨.slice element.shape, element.renames⟩

/-- A struct of named fields. -/
def struct (fields : List (Field Inferred)) : Inferred :=
  ⟨.struct (fields.map (Field.map Inferred.shape)),
    fields.flatMap fun field => field.value.renames ++ Rename.ofField field⟩

/-- What is inferred from the values of one place. -/
def ofGroup (group : List Node) : Inferred :=
  match hkind : Node.commonKind? group with
  | none => plain .any
  | some (.primitive type) => plain (.ofPrimitive type)
  | some .array =>
    match group with
    | [.array elements] =>
      have : Node.weightAll elements < Node.weightAll [.array elements] :=
        Node.weightAll_elements_lt elements
      if Node.commonKind? elements = some .array then plain (.slice .any)
      else slice (ofGroup elements)
    | _ => plain (.slice .any)
  | some .object =>
    struct (Naming.fields ((Node.mergeObjects group).inhabited.entries.attach.map fun
      | ⟨(key, values), hmem⟩ =>
        have : Node.weightAll values < Node.weightAll group :=
          Node.weightAll_lt_of_mem_mergeObjects hkind hmem
        (key, ofGroup values)))
termination_by Node.weightAll group

/-! ## What is inferred from a group, kind by kind -/

theorem ofGroup_of_mixed {group : List Node} (h : Node.commonKind? group = none) :
    ofGroup group = plain .any := by
  rw [ofGroup]
  split <;> simp_all only [reduceCtorEq]

theorem ofGroup_of_primitive {group : List Node} {type : Primitive}
    (h : Node.commonKind? group = some (.primitive type)) :
    ofGroup group = plain (.ofPrimitive type) := by
  rw [ofGroup]
  split <;> simp_all

theorem ofGroup_array (elements : List Node) :
    ofGroup [.array elements] =
      if Node.commonKind? elements = some .array then plain (.slice .any)
      else slice (ofGroup elements) := by
  rw [ofGroup]
  split
  next h => simp [Node.commonKind?] at h
  next h => simp [Node.commonKind?, Node.kind] at h
  next => rfl
  next h => simp [Node.commonKind?, Node.kind] at h

theorem ofGroup_arrays {group : List Node} (h : Node.commonKind? group = some .array)
    (hlen : group.length ≠ 1) : ofGroup group = plain (.slice .any) := by
  rw [ofGroup]
  split <;> simp_all
  split
  · simp at hlen
  · rfl

theorem ofGroup_of_object {group : List Node} (h : Node.commonKind? group = some .object) :
    ofGroup group = struct (Naming.fields ((Node.mergeObjects group).inhabited.entries.map fun
      (key, values) => (key, ofGroup values))) := by
  rw [ofGroup]
  split <;> simp_all
  exact congrArg (fun entries => struct (Naming.fields entries))
    (List.attach_map_val (f := fun e : String × List Node => (e.1, ofGroup e.2)))

end Inferred

namespace Shape

/-- The shape of the values of one place. -/
def ofGroup (group : List Node) : Shape := (Inferred.ofGroup group).shape

end Shape

namespace Inferred

/-- What is inferred from a whole document, which is an object or an array. -/
def ofRoot (root : Node) : Except Error Inferred :=
  match root.kind with
  | .object | .array => .ok (ofGroup [root])
  | .primitive type => .error (.unsupportedRoot (.primitive type))

end Inferred

namespace Shape

/-- The shape of a whole document, which is an object or an array. -/
def ofRoot (root : Node) : Except Error Shape := (Inferred.ofRoot root).map Inferred.shape

/-! ## The shape of a group, kind by kind -/

theorem ofGroup_of_mixed {group : List Node} (h : Node.commonKind? group = none) :
    ofGroup group = any := by
  rw [ofGroup, Inferred.ofGroup_of_mixed h, Inferred.plain]

theorem ofGroup_of_primitive {group : List Node} {type : Primitive}
    (h : Node.commonKind? group = some (.primitive type)) : ofGroup group = ofPrimitive type := by
  rw [ofGroup, Inferred.ofGroup_of_primitive h, Inferred.plain]

theorem ofGroup_array (elements : List Node) :
    ofGroup [.array elements] =
      slice (if Node.commonKind? elements = some .array then any else ofGroup elements) := by
  rw [ofGroup, Inferred.ofGroup_array]
  split <;> rfl

theorem ofGroup_arrays {group : List Node} (h : Node.commonKind? group = some .array)
    (hlen : group.length ≠ 1) : ofGroup group = slice any := by
  rw [ofGroup, Inferred.ofGroup_arrays h hlen, Inferred.plain]

theorem ofGroup_of_object {group : List Node} (h : Node.commonKind? group = some .object) :
    ofGroup group = struct (Naming.fields ((Node.mergeObjects group).inhabited.entries.map fun
      (key, values) => (key, ofGroup values))) := by
  rw [ofGroup, Inferred.ofGroup_of_object h, Inferred.struct, Naming.fields, Naming.fields,
    ← Naming.fieldsFrom_map, List.map_map]
  rfl

end Shape

end JsonShape
