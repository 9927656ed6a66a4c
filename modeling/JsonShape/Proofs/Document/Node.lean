import JsonShape.Document.Node
import JsonShape.Proofs.Document.Members

/-!
# Places in a document tree

* `Node.WellFormed` — every object of the tree has well-formed members, as the tree of every
  document does.
* `Node.Within` — the nodes that stand anywhere in a tree.
* `Node.valuesAt` — the values that some objects have under one key, object after object.
* `weightAll_valuesAt_le` — the values that some objects have under a key weigh less than they do.
-/

namespace JsonShape

namespace Node

/-- Every object of the tree has well-formed members. -/
inductive WellFormed : Node → Prop
  /-- An object whose members, and all values in them, are well-formed. -/
  | object {members : Members Node} (own : members.WellFormed)
      (inner : ∀ e ∈ members.entries, ∀ value ∈ e.2, WellFormed value) :
      WellFormed (.object members)
  /-- An array of well-formed elements. -/
  | array {elements : List Node} (inner : ∀ element ∈ elements, WellFormed element) :
      WellFormed (.array elements)
  /-- A primitive value. -/
  | primitive (type : Primitive) : WellFormed (.primitive type)

/-- The nodes of the tree `root`: the whole, and what stands anywhere inside it. -/
inductive Within (root : Node) : Node → Prop
  /-- The whole tree. -/
  | self : Within root root
  /-- An element of an array of the tree. -/
  | element {elements : List Node} {node : Node} (outer : Within root (.array elements))
      (mem : node ∈ elements) : Within root node
  /-- A value under a key of an object of the tree. -/
  | value {members : Members Node} {key : String} {node : Node}
      (outer : Within root (.object members)) (mem : node ∈ members.values key) : Within root node

/-- The values that the objects of a group have under a key, object after object. -/
def valuesAt (group : List Node) (key : String) : List Node :=
  (group.filterMap members?).flatMap (Members.values · key)

theorem valuesAt_append (group other : List Node) (key : String) :
    valuesAt (group ++ other) key = valuesAt group key ++ valuesAt other key := by
  rw [valuesAt, List.filterMap_append, List.flatMap_append]
  rfl

theorem valuesAt_objects (objects : List (Members Node)) (key : String) :
    valuesAt (objects.map object) key = objects.flatMap (Members.values · key) := by
  rw [valuesAt, List.filterMap_map]
  exact congrArg _ List.filterMap_some

theorem valuesAt_object (m : Members Node) (key : String) :
    valuesAt [object m] key = m.values key := by
  have h := valuesAt_objects [m] key
  rwa [List.flatMap_singleton] at h

theorem mem_valuesAt {group : List Node} {key : String} {value : Node} :
    value ∈ valuesAt group key ↔
      ∃ members, Node.object members ∈ group ∧ value ∈ members.values key := by
  rw [valuesAt, List.mem_flatMap]
  constructor
  · rintro ⟨members, hmem, hvalue⟩
    obtain ⟨node, hnode, hm⟩ := List.mem_filterMap.1 hmem
    cases node with
    | object own =>
      cases hm
      exact ⟨members, hnode, hvalue⟩
    | array elements => cases hm
    | primitive type => cases hm
  · rintro ⟨members, hnode, hvalue⟩
    exact ⟨members, List.mem_filterMap.2 ⟨_, hnode, rfl⟩, hvalue⟩

theorem WellFormed.members {members : Members Node} (h : (Node.object members).WellFormed) :
    members.WellFormed := by
  cases h with
  | object own inner => exact own

theorem WellFormed.element {elements : List Node} (h : (Node.array elements).WellFormed) :
    ∀ element ∈ elements, element.WellFormed := by
  cases h with
  | array inner => exact inner

theorem WellFormed.value {members : Members Node} (h : (Node.object members).WellFormed)
    {key : String} {value : Node} (hvalue : value ∈ members.values key) : value.WellFormed := by
  cases h with
  | object own inner =>
    have hne : members.values key ≠ [] := List.ne_nil_of_mem hvalue
    exact inner (key, members.values key) ((Members.mem_entries_iff own).2 ⟨rfl, hne⟩) value hvalue

/-- Members that are collected from keys and well-formed values make a well-formed object. -/
theorem WellFormed.ofPairs {pairs : List (String × Node)}
    (h : ∀ pair ∈ pairs, pair.2.WellFormed) : (Node.object (.ofPairs pairs)).WellFormed := by
  refine .object (Members.wellFormed_ofPairs pairs) fun e he value hvalue => ?_
  obtain ⟨key, -, rfl⟩ := List.mem_map.1 he
  obtain ⟨pair, hpair, hkey⟩ := List.mem_filterMap.1 hvalue
  split at hkey
  · cases hkey
    exact h pair hpair
  · cases hkey

theorem WellFormed.valuesAt {group : List Node} (h : ∀ node ∈ group, node.WellFormed)
    (key : String) : ∀ value ∈ valuesAt group key, value.WellFormed := by
  intro value hvalue
  obtain ⟨members, hnode, hmem⟩ := mem_valuesAt.1 hvalue
  exact (h _ hnode).value hmem

/-! ## Weight of the values under a key -/

theorem weightAll_values_le (members : Members Node) (key : String) :
    weightAll (members.values key) ≤ Members.weigh weightAll members.entries := by
  rw [Members.values, Members.get?]
  cases hl : members.entries.lookup key with
  | none => exact Nat.zero_le _
  | some values => exact Members.weight_le_weigh weightAll (Members.mem_of_lookup hl)

theorem weightAll_valuesAt_le (group : List Node) (key : String) :
    weightAll (valuesAt group key) + (group.filterMap members?).length ≤ weightAll group := by
  induction group with
  | nil => exact Nat.le_refl _
  | cons node rest ih =>
    rw [valuesAt] at ih
    cases node with
    | object members =>
      have hle := weightAll_values_le members key
      have hsome : members? (object members) = some members := rfl
      rw [valuesAt, List.filterMap_cons_some hsome, List.flatMap_cons, weightAll_append,
        List.length_cons, weightAll, weight_object]
      omega
    | array elements =>
      have hnone : members? (array elements) = none := rfl
      rw [valuesAt, List.filterMap_cons_none hnone, weightAll]
      omega
    | primitive type =>
      have hnone : members? (primitive type) = none := rfl
      rw [valuesAt, List.filterMap_cons_none hnone, weightAll]
      omega

end Node

end JsonShape
