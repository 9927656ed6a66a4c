import JsonShape.Proofs.Document.Node
import JsonShape.Shape.Infer

/-!
# The shape of a group of values

What `Shape.ofGroup` says about a group, without its recursion.

* `commonKind?_eq_some_iff`, `commonKind?_eq_none` — when the values of a group are of one kind.
* `group_induction`, `merge_induction` — induction along the groups that inference visits: from an
  array to its elements, from objects to the values that they have under a key.
* `Field.valueAt?` — a struct as a finite map from keys, and `ofGroup_objects`: the struct of some
  objects has a field for each key that one of them has, with the shape of all values under it.
-/

namespace JsonShape

namespace Node

/-! ## The kind of a group -/

theorem commonKind?_eq_some_iff {group : List Node} {kind : Kind} :
    commonKind? group = some kind ↔ group ≠ [] ∧ ∀ node ∈ group, node.kind = kind := by
  cases group with
  | nil => simp [commonKind?]
  | cons first rest =>
    rw [commonKind?]
    constructor
    · intro h
      split at h
      · rename_i hall
        cases h
        refine ⟨List.cons_ne_nil _ _, List.forall_mem_cons.2 ⟨rfl, fun node hnode => ?_⟩⟩
        exact of_decide_eq_true (List.all_eq_true.1 hall node hnode)
      · cases h
    · rintro ⟨-, hkind⟩
      obtain ⟨rfl, hrest⟩ := List.forall_mem_cons.1 hkind
      exact if_pos (List.all_eq_true.2 fun node hnode => decide_eq_true (hrest node hnode))

theorem eq_nil_iff_of_kinds {group other : List Node}
    (h : ∀ k, k ∈ group.map kind ↔ k ∈ other.map kind) : group = [] ↔ other = [] := by
  rw [← List.map_eq_nil_iff (f := kind), ← List.map_eq_nil_iff (f := kind),
    List.eq_nil_iff_forall_not_mem, List.eq_nil_iff_forall_not_mem]
  simp only [h]

/-- The common kind of a group is told by which kinds its values have. -/
theorem commonKind?_congr {group other : List Node}
    (h : ∀ k, k ∈ group.map kind ↔ k ∈ other.map kind) :
    commonKind? group = commonKind? other := by
  have hkinds : ∀ k, (∀ node ∈ group, node.kind = k) ↔ ∀ node ∈ other, node.kind = k := by
    intro k
    rw [← List.forall_mem_map (f := kind) (P := (· = k)),
      ← List.forall_mem_map (f := kind) (P := (· = k))]
    simp only [h]
  refine Option.ext fun k => ?_
  rw [commonKind?_eq_some_iff, commonKind?_eq_some_iff, hkinds, ne_eq, ne_eq,
    eq_nil_iff_of_kinds h]

/-- A group of values without a common kind has two values that differ in kind. -/
theorem commonKind?_eq_none {group : List Node} (h : commonKind? group = none)
    (hne : group ≠ []) : ∃ a ∈ group, ∃ b ∈ group, a.kind ≠ b.kind := by
  cases group with
  | nil => exact absurd rfl hne
  | cons first rest =>
    by_contra hno
    push Not at hno
    have hsome : commonKind? (first :: rest) = some first.kind :=
      commonKind?_eq_some_iff.2 ⟨hne, fun node hnode => hno node hnode first List.mem_cons_self⟩
    rw [h] at hsome
    cases hsome

theorem kind_of_commonKind? {group : List Node} {kind : Kind} (h : commonKind? group = some kind)
    {node : Node} (hnode : node ∈ group) : node.kind = kind :=
  (commonKind?_eq_some_iff.1 h).2 node hnode

/-- A group of one kind has values of that kind and of no other. -/
theorem mem_kinds_iff {group : List Node} {kind k : Kind} (h : commonKind? group = some kind) :
    k ∈ group.map Node.kind ↔ k = kind := by
  obtain ⟨hne, hall⟩ := commonKind?_eq_some_iff.1 h
  obtain ⟨node, hnode⟩ := List.exists_mem_of_ne_nil _ hne
  rw [List.mem_map]
  constructor
  · rintro ⟨other, hother, rfl⟩
    exact hall other hother
  · rintro rfl
    exact ⟨node, hnode, hall node hnode⟩

theorem commonKind?_objects {objects : List (Members Node)} (hne : objects ≠ []) :
    commonKind? (objects.map object) = some .object := by
  refine commonKind?_eq_some_iff.2 ⟨by simpa using hne, fun node hnode => ?_⟩
  obtain ⟨m, -, rfl⟩ := List.mem_map.1 hnode
  rfl

theorem kind_eq_object_iff {node : Node} :
    node.kind = .object ↔ ∃ members, node = .object members := by
  cases node <;> simp [kind]

theorem kind_eq_array_iff {node : Node} :
    node.kind = .array ↔ ∃ elements, node = .array elements := by
  cases node <;> simp [kind]

theorem kind_eq_primitive_iff {node : Node} {type : Primitive} :
    node.kind = .primitive type ↔ node = .primitive type := by
  cases node <;> simp [kind]

/-! ## Induction along the groups -/

theorem weightAll_valuesAt_lt {group : List Node} (h : commonKind? group = some .object)
    (key : String) : weightAll (valuesAt group key) < weightAll group := by
  obtain ⟨hne, hkind⟩ := commonKind?_eq_some_iff.1 h
  obtain ⟨first, rest, rfl⟩ := List.exists_cons_of_ne_nil hne
  obtain ⟨members, rfl⟩ := kind_eq_object_iff.1 (hkind first List.mem_cons_self)
  have hle := weightAll_valuesAt_le (.object members :: rest) key
  have hsome : members? (.object members) = some members := rfl
  rw [List.filterMap_cons_some hsome, List.length_cons] at hle
  omega

/-- Induction along the groups that inference visits, one case for each kind of group.  Only a
single array leads on to its elements, and only objects lead on to groups that weigh less. -/
theorem weight_induction {motive : List Node → Prop}
    (mixed : ∀ group, commonKind? group = none → motive group)
    (primitive : ∀ group type, commonKind? group = some (.primitive type) → motive group)
    (array : ∀ elements, motive elements → motive [.array elements])
    (arrays : ∀ group, commonKind? group = some .array → group.length ≠ 1 → motive group)
    (objects : ∀ group, commonKind? group = some .object →
      (∀ values, weightAll values < weightAll group → motive values) → motive group)
    (group : List Node) : motive group := by
  induction hw : weightAll group using Nat.strong_induction_on generalizing group with
  | _ weight ih =>
    subst hw
    match hkind : commonKind? group with
    | none => exact mixed group hkind
    | some (.primitive type) => exact primitive group type hkind
    | some .object => exact objects group hkind fun values hlt => ih _ hlt values rfl
    | some .array =>
      by_cases hlen : group.length = 1
      · obtain ⟨node, rfl⟩ := List.length_eq_one_iff.1 hlen
        obtain ⟨elements, rfl⟩ :=
          kind_eq_array_iff.1 (kind_of_commonKind? hkind (List.mem_singleton_self node))
        exact array elements (ih _ (weightAll_elements_lt elements) _ rfl)
      · exact arrays group hkind hlen

section

variable {motive : List Node → Prop}
  (mixed : ∀ group, commonKind? group = none → motive group)
  (primitive : ∀ group type, commonKind? group = some (.primitive type) → motive group)
  (array : ∀ elements, motive elements → motive [.array elements])
  (arrays : ∀ group, commonKind? group = some .array → group.length ≠ 1 → motive group)
include mixed primitive array arrays

/-- Objects lead on to the values that they have under their keys. -/
theorem group_induction
    (objects : ∀ group, commonKind? group = some .object →
      (∀ key, motive (valuesAt group key)) → motive group)
    (group : List Node) : motive group :=
  weight_induction mixed primitive array arrays (fun group hkind ih =>
    objects group hkind fun key => ih _ (weightAll_valuesAt_lt hkind key)) group

/-- Objects lead on to the entries that they have when they are merged. -/
theorem merge_induction
    (objects : ∀ group, commonKind? group = some .object →
      (∀ key values, (key, values) ∈ (mergeObjects group).inhabited.entries → motive values) →
        motive group)
    (group : List Node) : motive group :=
  weight_induction mixed primitive array arrays (fun group hkind ih =>
    objects group hkind fun _ _ hmem => ih _ (weightAll_lt_of_mem_mergeObjects hkind hmem)) group

end

end Node

/-! ## Structs as maps from keys -/

namespace Field

variable {σ : Type}

/-- What a struct has for a key: the value of the field with that key. -/
def valueAt? (fields : List (Field σ)) (key : String) : Option σ :=
  (fields.find? fun field => field.key = key).map Field.value

theorem valueAt?_cons (field : Field σ) (rest : List (Field σ)) (key : String) :
    valueAt? (field :: rest) key = if field.key = key then some field.value
      else valueAt? rest key := by
  rw [valueAt?, List.find?_cons]
  by_cases h : field.key = key <;> simp [h, valueAt?]

/-- Naming the fields of a struct does not change what it has for a key. -/
theorem valueAt?_fieldsFrom (taken : List String) (entries : List (String × σ)) (key : String) :
    valueAt? (Naming.fieldsFrom taken entries) key = entries.lookup key := by
  induction entries generalizing taken with
  | nil => rfl
  | cons e rest ih =>
    obtain ⟨k, value⟩ := e
    rw [Naming.fieldsFrom, valueAt?_cons, ih, Members.lookup_entry]
    by_cases h : k = key
    · rw [if_pos h, if_pos h.symm]
    · rw [if_neg h, if_neg (Ne.symm h)]

theorem valueAt?_map {τ : Type} (f : σ → τ) (fields : List (Field σ)) (key : String) :
    valueAt? (fields.map (Field.map f)) key = (valueAt? fields key).map f := by
  induction fields with
  | nil => rfl
  | cons field rest ih =>
    rw [List.map_cons, valueAt?_cons, valueAt?_cons, ih, apply_ite (Option.map f)]
    rfl

theorem valueAt?_fields (entries : List (String × σ)) (key : String) :
    valueAt? (Naming.fields entries) key = entries.lookup key :=
  valueAt?_fieldsFrom [] entries key

end Field

/-! ## The struct of some objects -/

namespace Shape

theorem values_mergeObjects {group : List Node} (h : ∀ node ∈ group, node.WellFormed) :
    (Node.mergeObjects group).WellFormed ∧
      ∀ key, (Node.mergeObjects group).values key = Node.valuesAt group key := by
  have hmembers : ∀ members ∈ group.filterMap Node.members?, members.WellFormed := by
    intro members hmem
    obtain ⟨node, hnode, hm⟩ := List.mem_filterMap.1 hmem
    cases node with
    | object own =>
      cases hm
      exact (h _ hnode).members
    | array elements => cases hm
    | primitive type => cases hm
  exact ⟨Members.wellFormed_merge hmembers, Members.values_merge hmembers⟩

end Shape

/-- The struct of some objects has a field for each key that one of them has, with what is inferred
from all values under that key. -/
theorem Inferred.ofGroup_objects {group : List Node}
    (hkind : Node.commonKind? group = some .object) (h : ∀ node ∈ group, node.WellFormed) :
    ∃ fields, ofGroup group = struct fields ∧ ∀ key, Field.valueAt? fields key =
      if Node.valuesAt group key = [] then none else some (ofGroup (Node.valuesAt group key)) := by
  obtain ⟨hwf, hvalues⟩ := Shape.values_mergeObjects h
  refine ⟨_, ofGroup_of_object hkind, fun key => ?_⟩
  rw [Field.valueAt?_fields, Members.inhabited_eq_self hwf, ← hvalues key, Members.lookup_map]
  by_cases hnil : (Node.mergeObjects group).values key = []
  · have hnone := (Members.get?_eq_none_iff hwf).2 hnil
    rw [Members.get?] at hnone
    rw [if_pos hnil, hnone]
    rfl
  · have hsome := (Members.get?_eq_some_iff hwf).2 ⟨rfl, hnil⟩
    rw [Members.get?] at hsome
    rw [if_neg hnil, hsome]
    rfl

/-- The struct of some objects has a field for each key that one of them has, and gives it the shape
of all values under that key. -/
theorem Shape.ofGroup_objects {group : List Node} (hkind : Node.commonKind? group = some .object)
    (h : ∀ node ∈ group, node.WellFormed) :
    ∃ fields, ofGroup group = .struct fields ∧ ∀ key, Field.valueAt? fields key =
      if Node.valuesAt group key = [] then none else some (ofGroup (Node.valuesAt group key)) := by
  obtain ⟨fields, hfields, hvalues⟩ := Inferred.ofGroup_objects hkind h
  refine ⟨fields.map (Field.map Inferred.shape), ?_, fun key => ?_⟩
  · rw [ofGroup, hfields, Inferred.struct]
  · rw [Field.valueAt?_map, hvalues, apply_ite (Option.map Inferred.shape)]
    rfl

end JsonShape
