import JsonShape.Proofs.Document.Members

/-!
# Members and the pushes that made them

An object begins without members, and values are pushed one after the other, each under a key.  What
the object answers is told by the list of these pushes: under a key it has the values that were pushed
there, in that order, however the pushes under other keys are mixed with them.

* `Holds` — all that members answer, told by the pushes.
* `pushAll_empty`, `holds_ofPairs` — pushing makes the members that a list of pushes has.
* `pushAll_eq_iff` — when two lists of pushes make the same members.
* `holds_pushAll` — what members answer at any point of any list of pushes.
-/

namespace JsonShape

namespace Members

variable {α : Type} {m : Members α} {log : List (String × α)}

/-- Members answer as if they had kept a list of pushes. -/
structure Holds (m : Members α) (log : List (String × α)) : Prop where
  /-- A key is not found exactly if nothing was pushed under it. -/
  get?_eq_none_iff : ∀ key, m.get? key = none ↔ key ∉ log.map Prod.fst
  /-- A key that is found has all values pushed under it, and so one at least. -/
  get?_eq_some_iff : ∀ key values,
    m.get? key = some values ↔ values = valuesIn log key ∧ values ≠ []
  /-- The keys ascend, so each of them is listed once. -/
  ascending : Ascending m.entries
  /-- The keys that were pushed are listed, with what was pushed under them. -/
  mem_entries_iff : ∀ key values,
    (key, values) ∈ m.entries ↔ key ∈ log.map Prod.fst ∧ values = valuesIn log key
  /-- Keys are counted once. -/
  size_eq : m.size = (log.map Prod.fst).toFinset.card
  /-- There are no members exactly if nothing was pushed. -/
  isEmpty_iff : m.isEmpty = true ↔ log = []

/-- The entries are the keys that were pushed, each with what was pushed under it. -/
theorem mem_entries_ofPairs_iff {key : String} {vs : List α} :
    (key, vs) ∈ (ofPairs log).entries ↔ key ∈ log.map Prod.fst ∧ vs = valuesIn log key := by
  have hpushed : valuesIn log key ≠ [] ↔ key ∈ log.map Prod.fst := by
    rw [Ne, valuesIn_eq_nil_iff, not_not]
  rw [mem_entries_iff (wellFormed_ofPairs log), values_ofPairs, ← hpushed]
  exact ⟨fun ⟨hvalues, hne⟩ => ⟨hvalues ▸ hne, hvalues.symm⟩,
    fun ⟨hne, hvalues⟩ => ⟨hvalues.symm, hvalues ▸ hne⟩⟩

theorem size_ofPairs (log : List (String × α)) :
    (ofPairs log).size = (log.map Prod.fst).toFinset.card := by
  rw [size, ofPairs, List.length_map, Finset.length_sort]

theorem isEmpty_ofPairs_iff : (ofPairs log).isEmpty = true ↔ log = [] := by
  rw [isEmpty, List.isEmpty_iff, ← List.length_eq_zero_iff, ← size, size_ofPairs,
    Finset.card_eq_zero, List.toFinset_eq_empty_iff, List.map_eq_nil_iff]

theorem holds_ofPairs (log : List (String × α)) : (ofPairs log).Holds log where
  get?_eq_none_iff key := by
    rw [get?_eq_none_iff (wellFormed_ofPairs log), values_ofPairs, valuesIn_eq_nil_iff]
  get?_eq_some_iff key values := by
    rw [get?_eq_some_iff (wellFormed_ofPairs log), values_ofPairs, eq_comm]
  ascending := (wellFormed_ofPairs log).ascending
  mem_entries_iff _ _ := mem_entries_ofPairs_iff
  size_eq := size_ofPairs log
  isEmpty_iff := isEmpty_ofPairs_iff

/-- Pushing makes the members that the list of pushes has. -/
theorem pushAll_empty (log : List (String × α)) : empty.pushAll log = ofPairs log := by
  rw [← ofPairs_nil, pushAll_ofPairs, List.nil_append]

/-- Two lists of pushes make the same members exactly if they agree key by key. -/
theorem pushAll_eq_iff {log other : List (String × α)} :
    empty.pushAll log = empty.pushAll other ↔ ∀ key, valuesIn log key = valuesIn other key := by
  rw [pushAll_empty, pushAll_empty]
  constructor
  · intro h key
    rw [← values_ofPairs, h, values_ofPairs]
  · intro h
    refine ext_values (wellFormed_ofPairs log) (wellFormed_ofPairs other) fun key => ?_
    rw [values_ofPairs, values_ofPairs, h]

/-- Values are pushed on an object without members.  After any number of the pushes it answers as if
it had kept the list of them, and another list of pushes makes the same object exactly if it has the
same values in the same order under each key. -/
theorem holds_pushAll (log : List (String × α)) :
    (∀ n, (empty.pushAll (log.take n)).Holds (log.take n)) ∧
      ∀ other : List (String × α),
        empty.pushAll log = empty.pushAll other ↔ ∀ key, valuesIn log key = valuesIn other key := by
  refine ⟨fun n => ?_, fun other => pushAll_eq_iff⟩
  rw [pushAll_empty]
  exact holds_ofPairs (log.take n)

/-- Pushes under different keys may be made in any order. -/
example : (empty.pushAll [("b", 1), ("a", 2), ("b", 3)]).entries = [("a", [2]), ("b", [1, 3])] ∧
    (empty.pushAll [("b", 1), ("b", 3), ("a", 2)]).entries = [("a", [2]), ("b", [1, 3])] := by
  decide +kernel

end Members

end JsonShape
