import JsonShape.Document.Members
import Mathlib.Data.Finset.Sort
import Mathlib.Data.String.Basic

/-!
# What members hold

Members as a finite map from keys to lists of values.  A list of entries says it in one way only if
its keys ascend and no key is without values; that is `WellFormed`, and every operation keeps it.

* `values` — the values under a key, none if the key does not occur.
* `values_append`, `values_union`, `values_merge` — an operation, key by key.
* `mem_entries_iff`, `ext_values` — the entries of well-formed members are what `values` says.
* `ofPairs` — the members that a list of keys and values has, and `pushAll_ofPairs`: pushing keys
  and values one after the other adds them to the list.
-/

namespace JsonShape

namespace Members

variable {α : Type} {m other : Members α} {entries : List (String × List α)} {key k : String}
  {vs : List α}

/-! ## Entries in order -/

/-- The keys of the entries ascend, so that no key occurs twice. -/
def Ascending (entries : List (String × List α)) : Prop := entries.Pairwise fun a b => a.1 < b.1

theorem lookup_entry {β : Type} (d : String) (value : β) (rest : List (String × β)) (k : String) :
    ((d, value) :: rest).lookup k = if k = d then some value else rest.lookup k := by
  rw [List.lookup_cons]
  by_cases h : k = d
  · rw [if_pos h, beq_iff_eq.2 h]
  · rw [if_neg h, beq_eq_false_iff_ne.2 h]

theorem lookup_map {β γ : Type} (f : β → γ) (entries : List (String × β)) (key : String) :
    (entries.map fun (k, value) => (k, f value)).lookup key = (entries.lookup key).map f := by
  induction entries with
  | nil => rfl
  | cons e rest ih =>
    rw [List.map_cons, lookup_entry, lookup_entry, ih]
    by_cases h : key = e.1
    · rw [if_pos h, if_pos h]
      rfl
    · rw [if_neg h, if_neg h]

theorem lookup_eq_none_of_lt (h : ∀ e ∈ entries, key < e.1) : entries.lookup key = none := by
  refine List.lookup_eq_none_iff.2 fun e he => ?_
  simpa using (h e he).ne

theorem mem_of_lookup (h : entries.lookup key = some vs) : (key, vs) ∈ entries := by
  obtain ⟨before, after, rfl, -⟩ := List.lookup_eq_some_iff.1 h
  exact List.mem_append_right _ List.mem_cons_self

/-- In ascending entries a key is found where it stands. -/
theorem lookup_of_mem (ha : Ascending entries) (h : (key, vs) ∈ entries) :
    entries.lookup key = some vs := by
  induction entries with
  | nil => exact absurd h List.not_mem_nil
  | cons e rest ih =>
    obtain ⟨hlt, hrest⟩ := List.pairwise_cons.1 ha
    rcases List.mem_cons.1 h with rfl | h
    · exact List.lookup_cons_self
    · rw [lookup_entry, if_neg (hlt _ h).ne']
      exact ih hrest h

theorem mem_insertInto {e : String × List α} (h : e ∈ insertInto key vs entries) :
    e.1 = key ∨ e ∈ entries := by
  induction entries with
  | nil => exact Or.inl (by rw [List.mem_singleton.1 h])
  | cons d rest ih =>
    rw [insertInto] at h
    split at h
    · rename_i hkey
      rcases List.mem_cons.1 h with rfl | h
      · exact Or.inl hkey.symm
      · exact Or.inr (List.mem_cons_of_mem _ h)
    · split at h
      · rcases List.mem_cons.1 h with rfl | h
        · exact Or.inl rfl
        · exact Or.inr h
      · rcases List.mem_cons.1 h with rfl | h
        · exact Or.inr List.mem_cons_self
        · exact (ih h).imp_right (List.mem_cons_of_mem _)

theorem ascending_insertInto (h : Ascending entries) : Ascending (insertInto key vs entries) := by
  induction entries with
  | nil => exact List.pairwise_singleton _ _
  | cons d rest ih =>
    obtain ⟨hlt, hrest⟩ := List.pairwise_cons.1 h
    rw [insertInto]
    split
    · exact List.pairwise_cons.2 ⟨hlt, hrest⟩
    · rename_i hne
      split
      · rename_i hkey
        refine List.pairwise_cons.2 ⟨fun e he => ?_, h⟩
        rcases List.mem_cons.1 he with rfl | he
        · exact hkey
        · exact hkey.trans (hlt e he)
      · rename_i hkey
        refine List.pairwise_cons.2 ⟨fun e he => ?_, ih hrest⟩
        rcases mem_insertInto he with he | he
        · exact he ▸ lt_of_le_of_ne (not_lt.1 hkey) (Ne.symm hne)
        · exact hlt e he

theorem lookup_insertInto (h : Ascending entries) :
    (insertInto key vs entries).lookup k =
      if k = key then some ((entries.lookup key).getD [] ++ vs) else entries.lookup k := by
  induction entries with
  | nil => exact lookup_entry key vs [] k
  | cons d rest ih =>
    obtain ⟨d, ds⟩ := d
    obtain ⟨hlt, hrest⟩ := List.pairwise_cons.1 h
    rw [insertInto]
    split
    · rename_i hd
      subst hd
      rw [lookup_entry, lookup_entry, lookup_entry, if_pos rfl]
      by_cases hk : k = key
      · rw [if_pos hk, if_pos hk]
        rfl
      · simp only [if_neg hk]
    · rename_i hne
      split
      · rename_i hkey
        have hnone : ((d, ds) :: rest).lookup key = none := by
          refine lookup_eq_none_of_lt fun e he => ?_
          rcases List.mem_cons.1 he with rfl | he
          · exact hkey
          · exact hkey.trans (hlt e he)
        rw [hnone, lookup_entry]
        rfl
      · rw [lookup_entry, lookup_entry, lookup_entry, ih hrest, if_neg hne]
        by_cases hk : k = key
        · subst hk
          rw [if_neg hne, if_pos rfl, if_pos rfl]
        · rw [if_neg hk, if_neg hk]

/-! ## Values under a key -/

/-- The values under a key, the first one first. -/
def values (m : Members α) (key : String) : List α := (m.get? key).getD []

/-- Each key has its one place in the order, and at least one value. -/
structure WellFormed (m : Members α) : Prop where
  /-- The keys ascend. -/
  ascending : Ascending m.entries
  /-- No key is without values. -/
  inhabited : ∀ e ∈ m.entries, e.2 ≠ []

@[simp] theorem values_empty (key : String) : (empty : Members α).values key = [] := rfl

theorem wellFormed_empty : (empty : Members α).WellFormed :=
  ⟨List.Pairwise.nil, fun _ he => absurd he List.not_mem_nil⟩

theorem values_append (h : Ascending m.entries) (k : String) :
    (m.append key vs).values k = if k = key then m.values key ++ vs else m.values k := by
  rw [values, get?, append, lookup_insertInto h]
  by_cases hk : k = key
  · rw [if_pos hk, if_pos hk]
    rfl
  · rw [if_neg hk, if_neg hk]
    rfl

theorem inhabited_insertInto (h : ∀ e ∈ entries, e.2 ≠ []) (hvs : vs ≠ []) :
    ∀ e ∈ insertInto key vs entries, e.2 ≠ [] := by
  induction entries with
  | nil => simpa [insertInto] using hvs
  | cons d rest ih =>
    obtain ⟨hd, hrest⟩ := List.forall_mem_cons.1 h
    rw [insertInto]
    split
    · exact List.forall_mem_cons.2 ⟨by simp [hvs], hrest⟩
    · split
      · exact List.forall_mem_cons.2 ⟨hvs, h⟩
      · exact List.forall_mem_cons.2 ⟨hd, ih hrest⟩

theorem WellFormed.append (h : m.WellFormed) (key : String) (hvs : vs ≠ []) :
    (m.append key vs).WellFormed :=
  ⟨ascending_insertInto h.ascending, inhabited_insertInto h.inhabited hvs⟩

/-- The entries of well-formed members are their keys with the values under them. -/
theorem mem_entries_iff (h : m.WellFormed) {e : String × List α} :
    e ∈ m.entries ↔ m.values e.1 = e.2 ∧ e.2 ≠ [] := by
  constructor
  · intro he
    refine ⟨?_, h.inhabited e he⟩
    rw [values, get?, lookup_of_mem h.ascending he]
    rfl
  · rintro ⟨hvalues, hne⟩
    rw [values, get?] at hvalues
    cases hl : m.entries.lookup e.1 with
    | none =>
      rw [hl] at hvalues
      exact absurd hvalues.symm hne
    | some ws =>
      rw [hl] at hvalues
      have hmem := mem_of_lookup hl
      rwa [show ws = e.2 from hvalues] at hmem

theorem get?_eq_none_iff (h : m.WellFormed) : m.get? key = none ↔ m.values key = [] := by
  rw [values, get?]
  cases hl : m.entries.lookup key with
  | none => simp
  | some ws => simpa using h.inhabited _ (mem_of_lookup hl)

/-- A key is found exactly if it has values, and then with all of them. -/
theorem get?_eq_some_iff (h : m.WellFormed) :
    m.get? key = some vs ↔ m.values key = vs ∧ vs ≠ [] := by
  constructor
  · intro hg
    refine ⟨?_, h.inhabited _ (mem_of_lookup hg)⟩
    rw [values, hg]
    rfl
  · rintro ⟨hvalues, hne⟩
    exact lookup_of_mem h.ascending ((mem_entries_iff h).2 ⟨hvalues, hne⟩)

theorem ext_values (h : m.WellFormed) (ho : other.WellFormed)
    (hvalues : ∀ key, m.values key = other.values key) : m = other := by
  have hmem : ∀ e, e ∈ m.entries ↔ e ∈ other.entries := by
    intro e
    rw [mem_entries_iff h, mem_entries_iff ho, hvalues]
  have hperm : m.entries.Perm other.entries :=
    (List.perm_ext_iff_of_nodup (h.ascending.imp fun hab => by rintro rfl; exact lt_irrefl _ hab)
      (ho.ascending.imp fun hab => by rintro rfl; exact lt_irrefl _ hab)).2 hmem
  have heq : m.entries = other.entries :=
    hperm.eq_of_pairwise (fun a b _ _ hab hba => absurd hab (lt_asymm hba)) h.ascending ho.ascending
  cases m
  cases other
  exact congrArg Members.mk heq

/-! ## Several objects as one -/

/-- Adding entries one after the other keeps the keys in order and puts the values of the entries
behind those that were there. -/
theorem foldl_append (h : m.WellFormed) (ha : Ascending entries) (hne : ∀ e ∈ entries, e.2 ≠ []) :
    (entries.foldl (fun acc (key, vs) => acc.append key vs) m).WellFormed ∧
      ∀ k, (entries.foldl (fun acc (key, vs) => acc.append key vs) m).values k =
        m.values k ++ (entries.lookup k).getD [] := by
  induction entries generalizing m with
  | nil => exact ⟨h, fun k => (List.append_nil _).symm⟩
  | cons e rest ih =>
    obtain ⟨key, vs⟩ := e
    obtain ⟨hlt, hrest⟩ := List.pairwise_cons.1 ha
    obtain ⟨hvs, hnrest⟩ := List.forall_mem_cons.1 hne
    obtain ⟨hwf, hvalues⟩ := ih (h.append key hvs) hrest hnrest
    refine ⟨hwf, fun k => ?_⟩
    rw [List.foldl_cons, hvalues k, values_append h.ascending, lookup_entry]
    by_cases hk : k = key
    · subst hk
      rw [if_pos rfl, if_pos rfl, lookup_eq_none_of_lt hlt]
      exact List.append_nil _
    · rw [if_neg hk, if_neg hk]

theorem WellFormed.union (h : m.WellFormed) (ho : other.WellFormed) : (m.union other).WellFormed :=
  (foldl_append h ho.ascending ho.inhabited).1

theorem values_union (h : m.WellFormed) (ho : other.WellFormed) (key : String) :
    (m.union other).values key = m.values key ++ other.values key :=
  (foldl_append h ho.ascending ho.inhabited).2 key

theorem foldl_union {objects : List (Members α)} (h : m.WellFormed)
    (ho : ∀ o ∈ objects, o.WellFormed) :
    (objects.foldl union m).WellFormed ∧
      ∀ k, (objects.foldl union m).values k = m.values k ++ objects.flatMap (values · k) := by
  induction objects generalizing m with
  | nil => exact ⟨h, fun k => (List.append_nil _).symm⟩
  | cons o rest ih =>
    obtain ⟨hfirst, hrest⟩ := List.forall_mem_cons.1 ho
    obtain ⟨hwf, hvalues⟩ := ih (h.union hfirst) hrest
    refine ⟨hwf, fun k => ?_⟩
    rw [List.foldl_cons, hvalues k, values_union h hfirst, List.flatMap_cons, List.append_assoc]

theorem wellFormed_merge {objects : List (Members α)} (ho : ∀ o ∈ objects, o.WellFormed) :
    (merge objects).WellFormed :=
  (foldl_union wellFormed_empty ho).1

/-- Merging loses no value and moves none: under a key are those of all objects, object after
object. -/
theorem values_merge {objects : List (Members α)} (ho : ∀ o ∈ objects, o.WellFormed)
    (key : String) : (merge objects).values key = objects.flatMap (values · key) :=
  (foldl_union wellFormed_empty ho).2 key

theorem inhabited_eq_self (h : m.WellFormed) : m.inhabited = m := by
  have hfilter : (m.entries.filter fun e => !e.2.isEmpty) = m.entries := by
    refine List.filter_eq_self.2 fun e he => ?_
    simpa using h.inhabited e he
  rw [Members.inhabited, hfilter]

/-! ## Members as a list of keys and values -/

/-- The values that a list of keys and values has for one key, in the order of the list. -/
def valuesIn (pairs : List (String × α)) (key : String) : List α :=
  pairs.filterMap fun pair => if pair.1 = key then some pair.2 else none

/-- The members that a list of keys and values has: each key once and in its place, with its values
in the order of the list. -/
def ofPairs (pairs : List (String × α)) : Members α :=
  ⟨((pairs.map Prod.fst).toFinset.sort (· ≤ ·)).map fun key => (key, valuesIn pairs key)⟩

theorem valuesIn_append (xs ys : List (String × α)) (key : String) :
    valuesIn (xs ++ ys) key = valuesIn xs key ++ valuesIn ys key :=
  List.filterMap_append

theorem valuesIn_eq_nil_iff {pairs : List (String × α)} :
    valuesIn pairs key = [] ↔ key ∉ pairs.map Prod.fst := by
  rw [valuesIn, List.filterMap_eq_nil_iff, List.mem_map]
  constructor
  · rintro h ⟨pair, hpair, rfl⟩
    have := h pair hpair
    simp at this
  · intro h pair hpair
    exact if_neg fun hkey => h ⟨pair, hpair, hkey⟩

theorem wellFormed_ofPairs (pairs : List (String × α)) : (ofPairs pairs).WellFormed := by
  constructor
  · exact List.pairwise_map.2 (Finset.sortedLT_sort _).pairwise
  · intro e he
    obtain ⟨key, hkey, rfl⟩ := List.mem_map.1 he
    rw [Finset.mem_sort, List.mem_toFinset] at hkey
    exact fun hnil => valuesIn_eq_nil_iff.1 hnil hkey

theorem values_ofPairs (pairs : List (String × α)) (key : String) :
    (ofPairs pairs).values key = valuesIn pairs key := by
  by_cases hkey : key ∈ pairs.map Prod.fst
  · have hmem : (key, valuesIn pairs key) ∈ (ofPairs pairs).entries :=
      List.mem_map.2 ⟨key, (Finset.mem_sort _).2 (List.mem_toFinset.2 hkey), rfl⟩
    exact ((mem_entries_iff (wellFormed_ofPairs pairs)).1 hmem).1
  · rw [valuesIn_eq_nil_iff.2 hkey]
    refine ((get?_eq_none_iff (wellFormed_ofPairs pairs)).1 ?_)
    refine List.lookup_eq_none_iff.2 fun e he => ?_
    obtain ⟨k, hk, rfl⟩ := List.mem_map.1 he
    rw [Finset.mem_sort, List.mem_toFinset] at hk
    simpa using fun heq : key = k => hkey (heq ▸ hk)

theorem ofPairs_nil : ofPairs ([] : List (String × α)) = empty := by
  refine ext_values (wellFormed_ofPairs []) wellFormed_empty fun key => ?_
  rw [values_ofPairs]
  rfl

theorem push_ofPairs (pairs : List (String × α)) (key : String) (value : α) :
    (ofPairs pairs).push key value = ofPairs (pairs ++ [(key, value)]) := by
  have hwf := wellFormed_ofPairs pairs
  refine ext_values (hwf.append key (List.cons_ne_nil _ _)) (wellFormed_ofPairs _) fun k => ?_
  rw [push, values_append hwf.ascending, values_ofPairs, values_ofPairs, values_ofPairs,
    valuesIn_append]
  by_cases hk : k = key
  · subst hk
    simp [valuesIn]
  · simp [valuesIn, hk, Ne.symm hk]

/-- Collecting values under their keys loses none. -/
theorem weigh_ofPairs {weight : List α → Nat}
    (hadd : ∀ xs ys, weight (xs ++ ys) = weight xs + weight ys)
    (hnil : weight [] = 0) (pairs : List (String × α)) :
    weigh weight (ofPairs pairs).entries = weight (pairs.map Prod.snd) := by
  induction pairs using List.reverseRecOn with
  | nil => rw [ofPairs_nil, empty, weigh, List.map_nil, hnil]
  | append_singleton pairs pair ih =>
    rw [← push_ofPairs, push, append, weigh_insertInto hadd, ih, List.map_append, hadd]
    rfl

/-- Pushes keys and values one after the other. -/
def pushAll (m : Members α) (pairs : List (String × α)) : Members α :=
  pairs.foldl (fun acc pair => acc.push pair.1 pair.2) m

theorem pushAll_ofPairs (before pairs : List (String × α)) :
    (ofPairs before).pushAll pairs = ofPairs (before ++ pairs) := by
  induction pairs generalizing before with
  | nil => rw [List.append_nil]; rfl
  | cons pair rest ih =>
    rw [pushAll, List.foldl_cons, push_ofPairs, ← pushAll, ih, List.append_assoc,
      List.singleton_append]

end Members

end JsonShape
