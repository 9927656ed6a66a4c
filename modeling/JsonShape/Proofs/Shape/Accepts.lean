import JsonShape.Proofs.Shape.Group

/-!
# Inferred shapes fit

When a shape accepts a node, and that the shape inferred from a group of nodes accepts each of them:
no key and no value of objects that were merged is lost or given a type that it does not fit.

* `Accepts` — the nodes that a shape allows.
* `accepts_ofGroup` — the shape of a group accepts the whole group.
* `exists_ofRoot_accepts` — every object and every array has a shape, which accepts it.
-/

namespace JsonShape

theorem Inferred.ofRoot_eq_ok {root : Node} (hkind : root.kind = .object ∨ root.kind = .array) :
    ofRoot root = .ok (ofGroup [root]) := by
  rw [ofRoot]
  rcases hkind with hkind | hkind <;> rw [hkind]

namespace Shape

/-- The nodes that a shape allows.  A struct allows an object if each key of the object has a field
and each value under the key fits the shape of the field; keys may be missing. -/
inductive Accepts : Shape → Node → Prop
  /-- Anything fits where no narrower type does. -/
  | any (node : Node) : Accepts .any node
  /-- A truth value. -/
  | bool : Accepts .bool (.primitive .bool)
  /-- A number without fraction and exponent. -/
  | integer : Accepts .integer (.primitive .integer)
  /-- Any other number. -/
  | float : Accepts .float (.primitive .float)
  /-- A string. -/
  | string : Accepts .string (.primitive .string)
  /-- An array whose elements all fit. -/
  | slice {element : Shape} {elements : List Node} (fit : ∀ node ∈ elements, Accepts element node) :
      Accepts (.slice element) (.array elements)
  /-- An object whose keys all have fields that fit. -/
  | struct {fields : List (Field Shape)} {members : Members Node}
      (known : ∀ key ∈ members.keys, (Field.valueAt? fields key).isSome)
      (fit : ∀ key shape, Field.valueAt? fields key = some shape →
        ∀ value ∈ members.values key, Accepts shape value) :
      Accepts (.struct fields) (.object members)

theorem accepts_ofPrimitive (type : Primitive) : (ofPrimitive type).Accepts (.primitive type) := by
  cases type with
  | string => exact .string
  | bool => exact .bool
  | integer => exact .integer
  | float => exact .float
  | null => exact .any _

/-- The shape of a group accepts every node of the group. -/
theorem accepts_ofGroup (group : List Node) (h : ∀ node ∈ group, node.WellFormed) :
    ∀ node ∈ group, (ofGroup group).Accepts node := by
  induction group using Node.group_induction with
  | mixed group hkind =>
    intro node _
    rw [ofGroup_of_mixed hkind]
    exact .any node
  | primitive group type hkind =>
    intro node hnode
    have hprim := Node.kind_eq_primitive_iff.1 (Node.kind_of_commonKind? hkind hnode)
    rw [ofGroup_of_primitive hkind, hprim]
    exact accepts_ofPrimitive type
  | array elements ih =>
    intro node hnode
    rw [List.mem_singleton.1 hnode, ofGroup_array]
    refine .slice fun element helement => ?_
    -- Arrays inside an array leave the element type open, anything else is inferred from.
    split
    · exact .any element
    · exact ih (h _ (List.mem_singleton_self _)).element element helement
  | arrays group hkind hlen =>
    intro node hnode
    obtain ⟨elements, rfl⟩ := Node.kind_eq_array_iff.1 (Node.kind_of_commonKind? hkind hnode)
    rw [ofGroup_arrays hkind hlen]
    exact .slice fun element _ => .any element
  | objects group hkind ih =>
    intro node hnode
    obtain ⟨members, rfl⟩ := Node.kind_eq_object_iff.1 (Node.kind_of_commonKind? hkind hnode)
    obtain ⟨fields, hshape, hfields⟩ := ofGroup_objects hkind h
    have hmem : ∀ key, ∀ value ∈ members.values key, value ∈ Node.valuesAt group key :=
      fun key value hvalue => Node.mem_valuesAt.2 ⟨members, hnode, hvalue⟩
    rw [hshape]
    refine .struct (fun key hkey => ?_) (fun key shape hfield value hvalue => ?_)
    · -- A key of one object has a value in the merged objects, hence a field.
      obtain ⟨e, he, rfl⟩ := List.mem_map.1 hkey
      obtain ⟨hvalues, hne⟩ := (Members.mem_entries_iff (h _ hnode).members).1 he
      obtain ⟨value, hvalue⟩ := List.exists_mem_of_ne_nil _ hne
      have hsome := List.ne_nil_of_mem (hmem e.1 value (hvalues ▸ hvalue))
      rw [hfields, if_neg hsome]
      rfl
    · have hvalue := hmem key value hvalue
      rw [hfields, if_neg (List.ne_nil_of_mem hvalue)] at hfield
      cases hfield
      exact ih key (Node.WellFormed.valuesAt h key) value hvalue

theorem ofRoot_eq_ok {root : Node} (hkind : root.kind = .object ∨ root.kind = .array) :
    ofRoot root = .ok (ofGroup [root]) := by
  rw [ofRoot, Inferred.ofRoot_eq_ok hkind]
  rfl

/-- Every object and every array has an inferred shape, and the shape accepts it. -/
theorem exists_ofRoot_accepts {root : Node} (hkind : root.kind = .object ∨ root.kind = .array)
    (h : root.WellFormed) : ∃ shape, ofRoot root = .ok shape ∧ shape.Accepts root :=
  ⟨ofGroup [root], ofRoot_eq_ok hkind,
    accepts_ofGroup [root] (by simpa using h) root (List.mem_singleton_self root)⟩

/-- An array of objects, where a key is repeated with different objects under it. -/
def repeatedKey : Node :=
  .array [
    .object (.ofPairs [
      ("a", .object (.ofPairs [("x", .primitive .integer)])),
      ("a", .object (.ofPairs [("x", .primitive .string), ("y", .array [])]))]),
    .object (.ofPairs [("a", .primitive .null)])]

theorem repeatedKey_wellFormed : repeatedKey.WellFormed := by
  refine .array (List.forall_mem_cons.2 ⟨.ofPairs ?_, List.forall_mem_singleton.2 (.ofPairs ?_)⟩)
  · refine List.forall_mem_cons.2 ⟨.ofPairs ?_, List.forall_mem_singleton.2 (.ofPairs ?_)⟩
    · exact List.forall_mem_singleton.2 (.primitive _)
    · refine List.forall_mem_cons.2 ⟨.primitive _, List.forall_mem_singleton.2 (.array ?_)⟩
      exact fun element helement => absurd helement List.not_mem_nil
  · exact List.forall_mem_singleton.2 (.primitive _)

theorem exists_ofRoot_accepts_repeatedKey :
    repeatedKey.kind = .array ∧ repeatedKey.WellFormed ∧
      ∃ shape, ofRoot repeatedKey = .ok shape ∧ shape.Accepts repeatedKey :=
  ⟨rfl, repeatedKey_wellFormed, exists_ofRoot_accepts (Or.inr rfl) repeatedKey_wellFormed⟩

end Shape

end JsonShape
