import JsonShape.Proofs.Document.Reordering

/-!
# Gathering objects

Several objects made into the one object that has all their members, by themselves or as a part of a
document tree.

* `gather` — the one object, and `gather_eq_merge`: merging makes the same one.
* `Gathered` — the objects left when consecutive ones are gathered, and `Gathered.gather_eq`: they
  are gathered into the one object of all.
* `Node.Replaced` — a group of values in which a part is replaced, at any depth.
-/

namespace JsonShape

namespace Members

variable {α : Type} {m : Members α} {entries : List (String × List α)} {key : String}
  {objects parts : List (Members α)}

/-! ## Members one by one -/

/-- The keys and values of some entries, one by one. -/
def pairsOf (entries : List (String × List α)) : List (String × α) :=
  entries.flatMap fun (key, values) => values.map fun value => (key, value)

/-- The keys of members with their values, key after key, each value by itself. -/
def pairs (m : Members α) : List (String × α) := pairsOf m.entries

/-- The one object that has the members of all: they are pushed into it, object after object. -/
def gather (objects : List (Members α)) : Members α := empty.pushAll (objects.flatMap pairs)

theorem valuesIn_map_key (vs : List α) (k : String) :
    valuesIn (vs.map fun value => (k, value)) key = if k = key then vs else [] := by
  induction vs with
  | nil => simp [valuesIn]
  | cons value rest ih =>
    rw [valuesIn] at ih ⊢
    rw [List.map_cons, List.filterMap_cons, ih]
    by_cases hk : k = key <;> simp [hk]

/-- Taken one by one, the values under a key are those that it has. -/
theorem valuesIn_pairsOf (h : Ascending entries) :
    valuesIn (pairsOf entries) key = (entries.lookup key).getD [] := by
  induction entries with
  | nil => rfl
  | cons e rest ih =>
    obtain ⟨k, vs⟩ := e
    obtain ⟨hlt, hrest⟩ := List.pairwise_cons.1 h
    rw [pairsOf, List.flatMap_cons, ← pairsOf, valuesIn_append, valuesIn_map_key, ih hrest,
      lookup_entry]
    by_cases hk : key = k
    · subst hk
      rw [if_pos rfl, if_pos rfl, lookup_eq_none_of_lt hlt]
      exact List.append_nil _
    · rw [if_neg (Ne.symm hk), if_neg hk, List.nil_append]

theorem valuesIn_pairs (h : m.WellFormed) (key : String) : valuesIn m.pairs key = m.values key :=
  valuesIn_pairsOf h.ascending

/-! ## Gathering -/

theorem gather_eq_ofPairs (objects : List (Members α)) :
    gather objects = ofPairs (objects.flatMap pairs) := by
  have hall := pushAll_ofPairs [] (objects.flatMap pairs)
  rwa [ofPairs_nil, List.nil_append] at hall

theorem wellFormed_gather (objects : List (Members α)) : (gather objects).WellFormed := by
  rw [gather_eq_ofPairs]
  exact wellFormed_ofPairs _

/-- The one object has under a key the values of all, object after object. -/
theorem values_gather (h : ∀ m ∈ objects, m.WellFormed) (key : String) :
    (gather objects).values key = objects.flatMap (values · key) := by
  rw [gather_eq_ofPairs, values_ofPairs, valuesIn, List.filterMap_flatMap]
  exact List.flatMap_congr fun m hm => valuesIn_pairs (h m hm) key

/-- Merging objects makes the one object that their members are pushed into. -/
theorem gather_eq_merge (h : ∀ m ∈ objects, m.WellFormed) : gather objects = merge objects := by
  refine ext_values (wellFormed_gather objects) (wellFormed_merge h) fun key => ?_
  rw [values_gather h, values_merge h]

/-- The objects left when consecutive ones of some objects are gathered. -/
inductive Gathered : List (Members α) → List (Members α) → Prop
  /-- All of them. -/
  | all (objects : List (Members α)) : Gathered objects objects
  /-- One for each of the groups, none of them empty, into which they are cut. -/
  | groups {groups : List (List (Members α))} (hne : ∀ group ∈ groups, group ≠ []) :
      Gathered groups.flatten (groups.map gather)

namespace Gathered

theorem wellFormed (h : Gathered objects parts) (hwf : ∀ m ∈ objects, m.WellFormed) :
    ∀ m ∈ parts, m.WellFormed := by
  cases h with
  | all => exact hwf
  | groups =>
    intro m hm
    obtain ⟨group, -, rfl⟩ := List.mem_map.1 hm
    exact wellFormed_gather group

theorem eq_nil_iff (h : Gathered objects parts) : parts = [] ↔ objects = [] := by
  cases h with
  | all => exact Iff.rfl
  | @groups groups hne =>
    rw [List.map_eq_nil_iff, List.flatten_eq_nil_iff]
    refine ⟨fun hnil => by simp [hnil], fun hnil => ?_⟩
    exact List.eq_nil_iff_forall_not_mem.2 fun group hgroup =>
      hne group hgroup (hnil group hgroup)

/-- The objects that are left have under a key the values of all. -/
theorem flatMap_values (h : Gathered objects parts) (hwf : ∀ m ∈ objects, m.WellFormed)
    (key : String) : parts.flatMap (values · key) = objects.flatMap (values · key) := by
  cases h with
  | all => rfl
  | @groups groups =>
    have hgroup : ∀ group ∈ groups, ∀ m ∈ group, m.WellFormed := fun group hgroup m hm =>
      hwf m (List.mem_flatten.2 ⟨group, hgroup, hm⟩)
    calc (groups.map gather).flatMap (values · key)
        = groups.flatMap fun group => (gather group).values key := List.flatMap_map ..
      _ = groups.flatMap fun group => group.flatMap (values · key) :=
          List.flatMap_congr fun group hmem => values_gather (hgroup group hmem) key
      _ = groups.flatten.flatMap (values · key) := by
          rw [List.flatten_eq_flatMap, List.flatMap_assoc]
          rfl

/-- Objects may be gathered part by part. -/
theorem gather_eq (h : Gathered objects parts) (hwf : ∀ m ∈ objects, m.WellFormed) :
    gather parts = gather objects := by
  refine ext_values (wellFormed_gather parts) (wellFormed_gather objects) fun key => ?_
  rw [values_gather (h.wellFormed hwf), values_gather hwf, h.flatMap_values hwf]

end Gathered

end Members

namespace Node

/-! ## Gathering in a tree -/

variable {xs ys us vs : List Node}

theorem WellFormed.gather {objects : List (Members Node)}
    (h : ∀ m ∈ objects, (Node.object m).WellFormed) :
    (Node.object (.gather objects)).WellFormed := by
  rw [Members.gather_eq_ofPairs]
  refine .ofPairs fun pair hpair => ?_
  obtain ⟨m, hm, hpair⟩ := List.mem_flatMap.1 hpair
  obtain ⟨e, he, hpair⟩ := List.mem_flatMap.1 hpair
  obtain ⟨value, hvalue, rfl⟩ := List.mem_map.1 hpair
  cases h m hm with
  | object own inner => exact inner e he value hvalue

theorem WellFormed.gathered {objects parts : List (Members Node)}
    (h : Members.Gathered objects parts) (hwf : ∀ m ∈ objects, (Node.object m).WellFormed) :
    ∀ m ∈ parts, (Node.object m).WellFormed := by
  cases h with
  | all => exact hwf
  | @groups groups =>
    intro m hm
    obtain ⟨group, hgroup, rfl⟩ := List.mem_map.1 hm
    exact .gather fun m hm => hwf m (List.mem_flatten.2 ⟨group, hgroup, hm⟩)

/-! ## Replacing a part -/

/-- The values of a group, where the values `xs` stand somewhere in it, at any depth, and the same
with `ys` in their place. -/
inductive Replaced (xs ys : List Node) : List Node → List Node → Prop
  /-- The values themselves. -/
  | here : Replaced xs ys xs ys
  /-- Others before and behind them. -/
  | append (before after : List Node) {us vs : List Node} (inner : Replaced xs ys us vs) :
      Replaced xs ys (before ++ (us ++ after)) (before ++ (vs ++ after))
  /-- The array of them. -/
  | array {us vs : List Node} (inner : Replaced xs ys us vs) : Replaced xs ys [array us] [array vs]
  /-- An object that has them under a key. -/
  | object (before after : List (String × List Node)) (key : String) {us vs : List Node}
      (inner : Replaced xs ys us vs) :
      Replaced xs ys [object ⟨before ++ (key, us) :: after⟩] [object ⟨before ++ (key, vs) :: after⟩]

namespace Replaced

theorem eq_nil_iff (h : Replaced xs ys us vs) (hnil : xs = [] ↔ ys = []) : us = [] ↔ vs = [] := by
  induction h with
  | here => exact hnil
  | append before after _ ih => simp [ih]
  | array | object => simp

/-- A group is well-formed with the new values if it is with the old ones. -/
theorem wellFormed (h : Replaced xs ys us vs) (hnil : xs = [] ↔ ys = [])
    (hys : ∀ node ∈ ys, node.WellFormed) (hus : ∀ node ∈ us, node.WellFormed) :
    ∀ node ∈ vs, node.WellFormed := by
  induction h with
  | here => exact hys
  | append before after _ ih =>
    obtain ⟨hbefore, hmiddle⟩ := List.forall_mem_append.1 hus
    obtain ⟨hinner, hafter⟩ := List.forall_mem_append.1 hmiddle
    exact List.forall_mem_append.2 ⟨hbefore, List.forall_mem_append.2 ⟨ih hinner, hafter⟩⟩
  | array _ ih =>
    have hin := (List.forall_mem_singleton.1 hus).element
    exact List.forall_mem_singleton.2 (.array (ih hin))
  | object before after key inner ih =>
    have hobject := List.forall_mem_singleton.1 hus
    have hvs := ih hobject.entry
    exact List.forall_mem_singleton.2 (hobject.replace (inner.eq_nil_iff hnil).symm hvs)

/-- The values under a key of the object that they are replaced in are either those that they are
replaced in, or the same as before. -/
theorem values_cases (us vs : List Node) (before after : List (String × List Node))
    (key k : String) :
    Members.values ⟨before ++ (key, us) :: after⟩ k = us ∧
        Members.values ⟨before ++ (key, vs) :: after⟩ k = vs ∨
      Members.values ⟨before ++ (key, us) :: after⟩ k =
        Members.values ⟨before ++ (key, vs) :: after⟩ k := by
  induction before with
  | nil =>
    simp only [Members.values, Members.get?, List.nil_append, Members.lookup_entry]
    by_cases hk : k = key
    · exact Or.inl ⟨by simp [hk], by simp [hk]⟩
    · exact Or.inr (by simp [hk])
  | cons e before ih =>
    obtain ⟨d, ds⟩ := e
    simp only [Members.values, Members.get?, List.cons_append, Members.lookup_entry] at ih ⊢
    by_cases hk : k = d
    · exact Or.inr (by simp [hk])
    · simpa [hk] using ih

end Replaced

end Node

end JsonShape
