import Mathlib.Data.Set.List
import JsonShape.Proofs.Naming.Distinct
import JsonShape.Proofs.Naming.Legality
import JsonShape.Proofs.Shape.Accepts
import JsonShape.Proofs.Shape.Reordering

/-!
# The structs of an inferred shape

Every struct in an inferred shape, at any depth, is made from objects that stand at the same place
in the document, and from nothing else: it has a field for each of their keys, in order, and no two
fields have the same name.

* `Shape.PartAt`, `Node.GroupAt` — what stands at a place: a part of a shape, and the values of a
  document that share the place.
* `ofGroup_eq_slice`, `ofGroup_eq_struct` — from what a list or a struct is inferred.
* `PartAt.exists_groupAt` — a part of an inferred shape is inferred from the values at its place.
* `exists_ofRoot_structs` — the structs of an inferred shape and the objects that they are made
  from.
-/

namespace JsonShape

/-! ## Places -/

/-- A step inwards. -/
inductive Step where
  /-- To the elements of an array. -/
  | elements
  /-- To the values under a key. -/
  | key (key : String)

/-- What stands in a shape at a place, which is given by the steps to it, the last one first. -/
inductive Shape.PartAt (whole : Shape) : List Step → Shape → Prop
  /-- The whole shape. -/
  | whole : PartAt whole [] whole
  /-- The shape of the elements of a list. -/
  | elements {path : List Step} {element : Shape} (outer : PartAt whole path (.slice element)) :
      PartAt whole (.elements :: path) element
  /-- The shape of a field. -/
  | field {path : List Step} {fields : List (Field Shape)} {field : Field Shape}
      (outer : PartAt whole path (.struct fields)) (mem : field ∈ fields) :
      PartAt whole (.key field.key :: path) field.value

/-- The values of a document that share a place: the document itself, the elements of an array that
is alone in its place, or all values that the objects of one place have under a key. -/
inductive Node.GroupAt (root : Node) : List Step → List Node → Prop
  /-- The document. -/
  | root : GroupAt root [] [root]
  /-- The elements of an array. -/
  | elements {path : List Step} {elements : List Node}
      (outer : GroupAt root path [.array elements]) : GroupAt root (.elements :: path) elements
  /-- The values under a key of objects that are merged with each other. -/
  | values {path : List Step} {group : List Node} (outer : GroupAt root path group)
      (objects : ∀ node ∈ group, node.kind = .object) (key : String) :
      GroupAt root (.key key :: path) (valuesAt group key)

namespace Node

variable {root : Node} {path : List Step} {group other : List Node}

/-- No other values share a place. -/
theorem GroupAt.unique (h : root.GroupAt path group) (h' : root.GroupAt path other) :
    group = other := by
  induction h generalizing other with
  | root =>
    cases h'
    rfl
  | elements _ ih =>
    cases h' with
    | elements outer => exact Node.array.inj (List.cons.inj (ih outer)).1
  | values _ _ key ih =>
    cases h' with
    | values outer => rw [ih outer]

theorem GroupAt.wellFormed (hroot : root.WellFormed) (h : root.GroupAt path group) :
    ∀ node ∈ group, node.WellFormed := by
  induction h with
  | root => exact List.forall_mem_singleton.2 hroot
  | elements _ ih => exact (List.forall_mem_singleton.1 ih).element
  | values _ _ key ih => exact WellFormed.valuesAt ih key

/-- A group of objects, as the members of them. -/
theorem exists_objects (h : commonKind? group = some .object) :
    ∃ objects, objects ≠ [] ∧ group = objects.map object := by
  have hrange : group ∈ Set.range (List.map object) := by
    rw [Set.range_list_map]
    intro node hnode
    obtain ⟨members, hmembers⟩ := kind_eq_object_iff.1 (kind_of_commonKind? h hnode)
    exact ⟨members, hmembers.symm⟩
  obtain ⟨objects, rfl⟩ := hrange
  refine ⟨objects, ?_, rfl⟩
  rintro rfl
  cases h

end Node

namespace Shape

open Node (commonKind? mergeObjects valuesAt GroupAt)

variable {root : Node} {path : List Step} {group : List Node} {fields : List (Field Shape)}
  {element part : Shape}

/-! ## From what a shape is inferred -/

/-- A list is inferred from one array, unless it is open what the elements are. -/
theorem ofGroup_eq_slice (h : ofGroup group = .slice element) :
    element = .any ∨ ∃ elements, group = [.array elements] ∧ element = ofGroup elements := by
  induction group using Node.group_induction with
  | mixed group hkind =>
    rw [ofGroup_of_mixed hkind] at h
    cases h
  | primitive group type hkind =>
    rw [ofGroup_of_primitive hkind] at h
    cases type <;> cases h
  | array elements =>
    rw [ofGroup_array] at h
    have helement := (Shape.slice.inj h).symm
    split at helement
    · exact Or.inl helement
    · exact Or.inr ⟨elements, rfl, helement⟩
  | arrays group hkind hlen =>
    rw [ofGroup_arrays hkind hlen] at h
    exact Or.inl (Shape.slice.inj h).symm
  | objects group hkind =>
    rw [ofGroup_of_object hkind] at h
    cases h

/-- A struct is inferred from objects.  Its fields are named for all their keys, and each has the
shape of all values under its key. -/
theorem ofGroup_eq_struct (hwf : ∀ node ∈ group, node.WellFormed)
    (h : ofGroup group = .struct fields) : commonKind? group = some .object ∧
      fields = Naming.fields ((mergeObjects group).keys.map fun key =>
        (key, ofGroup (valuesAt group key))) := by
  induction group using Node.group_induction with
  | mixed group hkind =>
    rw [ofGroup_of_mixed hkind] at h
    cases h
  | primitive group type hkind =>
    rw [ofGroup_of_primitive hkind] at h
    cases type <;> cases h
  | array elements =>
    rw [ofGroup_array] at h
    cases h
  | arrays group hkind hlen =>
    rw [ofGroup_arrays hkind hlen] at h
    cases h
  | objects group hkind =>
    rw [ofGroup_of_object hkind, Inferred.entries_mergeObjects hwf] at h
    exact ⟨hkind, (Shape.struct.inj h).symm⟩

/-- A part of an inferred shape is inferred from the values at its place, unless it is open what
they are. -/
theorem PartAt.exists_groupAt (hroot : root.WellFormed) (h : (ofGroup [root]).PartAt path part) :
    part = .any ∨ ∃ group, root.GroupAt path group ∧ part = ofGroup group := by
  induction h with
  | whole => exact Or.inr ⟨[root], .root, rfl⟩
  | elements _ ih =>
    rcases ih with ih | ⟨group, hgroup, hpart⟩
    · cases ih
    · rcases ofGroup_eq_slice hpart.symm with hany | ⟨elements, rfl, helement⟩
      · exact Or.inl hany
      · exact Or.inr ⟨elements, .elements hgroup, helement⟩
  | field _ mem ih =>
    rcases ih with ih | ⟨group, hgroup, hpart⟩
    · cases ih
    · obtain ⟨hkind, rfl⟩ := ofGroup_eq_struct (hgroup.wellFormed hroot) hpart.symm
      obtain ⟨hentry, -⟩ := Naming.exists_of_mem_fieldsFrom mem
      obtain ⟨key, -, hkey⟩ := List.mem_map.1 hentry
      obtain ⟨rfl, hvalue⟩ := Prod.mk.inj hkey
      have hobjects : ∀ node ∈ group, node.kind = .object := by
        intro node hnode
        exact Node.kind_of_commonKind? hkind hnode
      exact Or.inr ⟨_, .values hgroup hobjects _, hvalue.symm⟩

/-! ## The fields of a struct -/

/-- The fields of a struct that is made from some objects. -/
structure MadeFrom (fields : List (Field Shape)) (objects : List (Members Node)) : Prop where
  /-- The keys ascend, so that none occurs twice. -/
  ascending : (fields.map Field.key).Pairwise (· < ·)
  /-- No two fields have the same name. -/
  distinct : (fields.map Field.ident).Nodup
  /-- The keys are those of the objects. -/
  keys : ∀ key, key ∈ fields.map Field.key ↔ ∃ m ∈ objects, key ∈ m.keys

theorem madeFrom_objects {objects : List (Members Node)}
    (hwf : ∀ m ∈ objects, (Node.object m).WellFormed)
    (h : ofGroup (objects.map .object) = .struct fields) : MadeFrom fields objects := by
  have hgroup : ∀ node ∈ objects.map Node.object, node.WellFormed := List.forall_mem_map.2 hwf
  obtain ⟨-, rfl⟩ := ofGroup_eq_struct hgroup h
  obtain ⟨hmerged, hvalues⟩ := values_mergeObjects hgroup
  have hkeys : (Naming.fields ((mergeObjects (objects.map .object)).keys.map fun key =>
      (key, ofGroup (valuesAt (objects.map .object) key)))).map Field.key =
        (mergeObjects (objects.map .object)).keys := by
    rw [Naming.fields, Naming.keys_fieldsFrom, List.map_map]
    exact List.map_id _
  refine ⟨?_, (Naming.nodup_fieldsFrom [] _).1, fun key => ?_⟩
  · rw [hkeys]
    exact List.pairwise_map.2 hmerged.ascending
  · rw [hkeys, Members.mem_keys_iff hmerged, hvalues, Node.valuesAt_objects, ne_eq,
      List.flatMap_eq_nil_iff]
    push Not
    refine exists_congr fun m => and_congr_right fun hm => ?_
    exact (Members.mem_keys_iff (hwf m hm).members).symm

/-- A document has an inferred shape, and every struct in it is made from the objects that stand at
the same place in the document. -/
theorem exists_ofRoot_structs (hkind : root.kind = .object ∨ root.kind = .array)
    (hroot : root.WellFormed) :
    ∃ shape, ofRoot root = .ok shape ∧ ∀ path fields, shape.PartAt path (.struct fields) →
      ∃ objects, objects ≠ [] ∧ (∀ group, root.GroupAt path group ↔ group = objects.map .object) ∧
        MadeFrom fields objects := by
  refine ⟨ofGroup [root], ofRoot_eq_ok hkind, fun path fields hpart => ?_⟩
  rcases hpart.exists_groupAt hroot with hany | ⟨group, hgroup, hshape⟩
  · cases hany
  · have hwf := hgroup.wellFormed hroot
    obtain ⟨hobject, -⟩ := ofGroup_eq_struct hwf hshape.symm
    obtain ⟨objects, hne, rfl⟩ := Node.exists_objects hobject
    refine ⟨objects, hne, fun other => ⟨fun h => h.unique hgroup, ?_⟩, ?_⟩
    · rintro rfl
      exact hgroup
    · exact madeFrom_objects (List.forall_mem_map.1 hwf) hshape.symm

/-- Two objects with keys that get the same name, one of them with a number, and a key that has the
numbered name from the start. -/
def collidingKeys : Node :=
  .array [
    .object (.ofPairs [
      ("a", .object (.ofPairs [("x", .primitive .integer)])),
      ("A_1", .primitive .null)]),
    .object (.ofPairs [
      ("A", .primitive .bool),
      ("a", .object (.ofPairs [("y", .array []), ("x", .primitive .string)]))])]

theorem collidingKeys_wellFormed : collidingKeys.WellFormed := by
  refine .array (List.forall_mem_cons.2 ⟨.ofPairs ?_, List.forall_mem_singleton.2 (.ofPairs ?_)⟩)
  · refine List.forall_mem_cons.2 ⟨.ofPairs ?_, List.forall_mem_singleton.2 (.primitive _)⟩
    exact List.forall_mem_singleton.2 (.primitive _)
  · refine List.forall_mem_cons.2 ⟨.primitive _, List.forall_mem_singleton.2 (.ofPairs ?_)⟩
    refine List.forall_mem_cons.2 ⟨.array ?_, List.forall_mem_singleton.2 (.primitive _)⟩
    exact fun element helement => absurd helement List.not_mem_nil

theorem exists_ofRoot_structs_collidingKeys :
    collidingKeys.kind = .array ∧ collidingKeys.WellFormed ∧
      ∃ shape, ofRoot collidingKeys = .ok shape ∧
        ∀ path fields, shape.PartAt path (.struct fields) →
          ∃ objects, objects ≠ [] ∧
            (∀ group, collidingKeys.GroupAt path group ↔ group = objects.map .object) ∧
              MadeFrom fields objects :=
  ⟨rfl, collidingKeys_wellFormed, exists_ofRoot_structs (Or.inr rfl) collidingKeys_wellFormed⟩

end Shape

end JsonShape
