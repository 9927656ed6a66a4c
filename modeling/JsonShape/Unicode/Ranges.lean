/-!
# Sets of code points

A property of characters is kept as an ascending list of closed ranges of code points. This file
gives the list its meaning, as a set of numbers and as a predicate on characters.
-/

namespace JsonShape.Unicode

/-- An ascending list of closed ranges of code points. -/
abbrev Ranges := List (Nat × Nat)

namespace Ranges

/-- Whether a range holds `n`. The list is ascending, so the search ends at the first range that
starts above `n`. -/
def contains : Ranges → Nat → Bool
  | [], _ => false
  | (first, last) :: rest, n =>
    if n < first then false else if n ≤ last then true else contains rest n

/-- Whether the ranges are non-empty, start no lower than `low` and lie one above the other. -/
def ascendingFrom (low : Nat) : Ranges → Bool
  | [] => true
  | (first, last) :: rest => low ≤ first && first ≤ last && ascendingFrom (last + 1) rest

/-- Whether the ranges are non-empty and lie one above the other. -/
def ascending (rs : Ranges) : Bool := ascendingFrom 0 rs

theorem le_of_ascendingFrom {low : Nat} {rs : Ranges} (h : rs.ascendingFrom low = true) :
    ∀ r ∈ rs, low ≤ r.1 := by
  induction rs generalizing low with
  | nil => intro r hr; cases hr
  | cons r rs ih =>
    obtain ⟨first, last⟩ := r
    simp only [ascendingFrom, Bool.and_eq_true, decide_eq_true_eq] at h
    intro s hs
    rcases List.mem_cons.1 hs with rfl | hs
    · exact h.1.1
    · exact Nat.le_trans (by omega) (ih h.2 s hs)

/-- The search finds what lies in one of the ranges, wherever it ends. -/
theorem contains_iff {low : Nat} {rs : Ranges} (h : rs.ascendingFrom low = true) (n : Nat) :
    rs.contains n = true ↔ ∃ r ∈ rs, r.1 ≤ n ∧ n ≤ r.2 := by
  induction rs generalizing low with
  | nil => simp [contains]
  | cons r rs ih =>
    obtain ⟨first, last⟩ := r
    simp only [ascendingFrom, Bool.and_eq_true, decide_eq_true_eq] at h
    have hrest := le_of_ascendingFrom h.2
    rw [contains]
    constructor
    · intro hn
      by_cases hlo : n < first
      · rw [if_pos hlo] at hn
        exact absurd hn Bool.false_ne_true
      · rw [if_neg hlo] at hn
        by_cases hhi : n ≤ last
        · exact ⟨(first, last), List.mem_cons_self, Nat.le_of_not_lt hlo, hhi⟩
        · rw [if_neg hhi] at hn
          obtain ⟨s, hs, hsn⟩ := (ih h.2).1 hn
          exact ⟨s, List.mem_cons_of_mem _ hs, hsn⟩
    · rintro ⟨s, hs, hlo, hhi⟩
      rcases List.mem_cons.1 hs with rfl | hs
      · rw [if_neg (Nat.not_lt.2 hlo), if_pos hhi]
      · have := hrest s hs
        rw [if_neg (by omega), if_neg (by omega)]
        exact (ih h.2).2 ⟨s, hs, hlo, hhi⟩

end Ranges

end JsonShape.Unicode
