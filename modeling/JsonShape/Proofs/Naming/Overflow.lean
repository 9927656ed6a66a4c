import JsonShape.Proofs.Checked.Names
import JsonShape.Proofs.Naming.Reserved

/-!
# Where the numbers overflow

The numbers behind names have 32 bits.  A name with all numbers up to the greatest one leaves none
for another key of that name: its search breaks off if sums are checked, and otherwise goes on with
negative numbers.

* `crowd` — a name, and the same name with the numbers from one on.
* `firstFree_crowd` — the first try that it leaves free.
* `identifier_of_mem_crowd`, `idents_fieldsFrom` — each of its names is its own identifier, and keys
  that are so keep their names.
-/

namespace JsonShape

namespace Naming

variable {σ : Type} {n : Nat} {name : String}

/-- The name `A`, alone and with so many numbers behind it. -/
def crowd (n : Nat) : List String := "A" :: (List.range n).map fun i => numbered "A" (i + 1 : Nat)

/-! ## The names of a crowd -/

/-- As long as the numbers do not overflow, the names are the tries. -/
theorem crowd_eq_map_candidate (h : n < 2 ^ 31) :
    crowd n = (List.range (n + 1)).map (candidate "A") := by
  rw [crowd, List.range_succ_eq_map, List.map_cons, List.map_map]
  refine congrArg (candidate "A" 0 :: ·) (List.map_congr_left fun i hi => ?_)
  have hlt : i + 1 < 2 ^ 31 := by
    have hi := List.mem_range.1 hi
    omega
  exact (candidate_of_lt "A" (Nat.succ_pos i) hlt).symm

theorem mem_crowd_iff (h : n < 2 ^ 31) : name ∈ crowd n ↔ ∃ i ≤ n, candidate "A" i = name := by
  rw [crowd_eq_map_candidate h, List.mem_map]
  simp only [List.mem_range, Nat.lt_succ_iff]

/-- The tries before the last one are taken. -/
theorem firstFree_crowd (h : n < 2 ^ 31) : FirstFree (crowd n) "A" 0 (n + 1) := by
  refine ⟨Nat.zero_le _, fun hmem => ?_, fun j _ hj => ?_⟩
  · obtain ⟨i, hi, heq⟩ := (mem_crowd_iff h).1 hmem
    have hin := candidate_inj (by omega) (by omega) heq
    omega
  · exact (mem_crowd_iff h).2 ⟨j, Nat.le_of_lt_succ hj, rfl⟩

theorem nodup_crowd (h : n < 2 ^ 31) : (crowd n).Nodup := by
  rw [crowd_eq_map_candidate h]
  refine List.Nodup.map_on (fun i hi j hj heq => ?_) List.nodup_range
  have hi := List.mem_range.1 hi
  have hj := List.mem_range.1 hj
  exact candidate_inj (by omega) (by omega) heq

theorem exists_toList_of_mem_crowd (h : n < 2 ^ 31) (hname : name ∈ crowd n) :
    ∃ tail, name.toList = 'A' :: tail ∧ ∀ d ∈ tail, d = '_' ∨ d = '-' ∨ d.isDigit = true := by
  obtain ⟨i, -, rfl⟩ := (mem_crowd_iff h).1 hname
  exact exists_toList_candidate "A" i

/-- Capitals come before small letters. -/
theorem lt_a_of_mem_crowd (h : n < 2 ^ 31) (hname : name ∈ crowd n) : name < "a" := by
  obtain ⟨tail, htail, -⟩ := exists_toList_of_mem_crowd h hname
  rw [String.lt_iff_toList_lt, htail]
  exact List.cons_lt_cons_iff.2 (.inl (by decide))

/-! ## Keys that are their own names -/

/-- An identifier that begins with a capital is its own name. -/
theorem identifier_eq_self {rest : List Char} (hname : name.toList = 'A' :: rest)
    (hlegal : IsIdentifier name) : identifier name = name := by
  have hcapital : capitalize name.toList = name.toList := by
    have hletter : Unicode.isLetter 'A' = true := by decide +kernel
    have hlower : Unicode.isLowercase 'A' ≠ true := by decide +kernel
    rw [hname, capitalize, if_pos hletter, if_neg hlower]
  have hbegins : BeginsNoWord name.toList := by
    rw [hname]
    exact ⟨'A', rfl, .inr (by decide)⟩
  simp [identifier, legalize_eq_self hlegal, hcapital, isReserved_eq_false hbegins]

theorem identifier_of_mem_crowd (h : name ∈ crowd n) : identifier name = name := by
  rcases List.mem_cons.1 h with rfl | hmem
  · decide +kernel
  · obtain ⟨i, -, rfl⟩ := List.mem_map.1 hmem
    have hne : "A".toList ≠ [] := by decide
    refine identifier_eq_self (toList_numbered "A" (i + 1 : Nat)) ?_
    exact (isIdentifier_numbered_iff hne (i + 1 : Nat)).2 ⟨by decide +kernel, by omega⟩

/-- Keys that are their own names keep them, if none of them occurs twice. -/
theorem idents_fieldsFrom {taken keys : List String} (value : String → σ)
    (hself : ∀ key ∈ keys, identifier key = key) (hnodup : keys.Nodup)
    (hfree : ∀ key ∈ keys, key ∉ taken) :
    (fieldsFrom taken (keys.map fun key => (key, value key))).map Field.ident = keys := by
  induction keys generalizing taken with
  | nil => rfl
  | cons key rest ih =>
    obtain ⟨hkey, hrest⟩ := List.forall_mem_cons.1 hself
    obtain ⟨hkeyfree, hrestfree⟩ := List.forall_mem_cons.1 hfree
    obtain ⟨hnew, hnodup⟩ := List.nodup_cons.1 hnodup
    have hclaim : claim taken key = key := by
      rw [claim, hkey, if_neg hkeyfree]
    rw [List.map_cons, fieldsFrom, List.map_cons, hclaim, ih hrest hnodup fun other hother => ?_]
    intro hmem
    rcases List.mem_append.1 hmem with htaken | hsame
    · exact hrestfree other hother htaken
    · rw [List.mem_singleton.1 hsame] at hother
      exact hnew hother

theorem identifier_a : identifier "a" = "A" := by decide +kernel

end Naming

end JsonShape
