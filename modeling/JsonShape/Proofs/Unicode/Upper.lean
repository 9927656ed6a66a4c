import Mathlib.Data.List.Basic
import JsonShape.Unicode.Letter
import JsonShape.Unicode.Upper

/-!
# The upper case of letters

The upper case of a letter may have combining marks in it, and the tables of the two properties are
of different Unicode versions.  Yet all letters but a few have an upper case made of letters.

* `Ranges.contains_of_covers`, `Ranges.contains_of_avoids` — what holds of an interval holds of the
  code points in it, so that a run of the table can be looked up as a whole.
* `unletteredUpper` — the letters whose upper case is not made of letters.
* `isLetter_of_mem_upper` — the upper case of any other letter is.
* `outsideSmall_of_mem_upper` — the upper case of a letter holds no small letter of ASCII.
-/

namespace JsonShape.Unicode

/-! ## Intervals -/

namespace Ranges

/-- Whether one of the ranges holds all code points from `a` to `b`. -/
def covers (rs : Ranges) (a b : Nat) : Bool := rs.any fun r => b.ble r.2 && r.1.ble a

/-- Whether no range holds a code point from `a` to `b`. -/
def avoids (rs : Ranges) (a b : Nat) : Bool := rs.all fun r => r.2.blt a || b.blt r.1

variable {rs : Ranges} {a b n : Nat}

theorem contains_of_covers (hrs : rs.ascending = true) (h : rs.covers a b = true) (ha : a ≤ n)
    (hb : n ≤ b) : rs.contains n = true := by
  obtain ⟨r, hr, hcovers⟩ := List.any_eq_true.1 h
  rw [Bool.and_eq_true, Nat.ble_eq, Nat.ble_eq] at hcovers
  exact (contains_iff hrs n).2 ⟨r, hr, by omega, by omega⟩

theorem contains_of_avoids (hrs : rs.ascending = true) (h : rs.avoids a b = true) (ha : a ≤ n)
    (hb : n ≤ b) : rs.contains n = false := by
  rw [← Bool.not_eq_true, contains_iff hrs]
  rintro ⟨r, hr, hfirst, hlast⟩
  have havoids := List.all_eq_true.1 h r hr
  rw [Bool.or_eq_true, Nat.blt_eq, Nat.blt_eq] at havoids
  omega

end Ranges

/-! ## Runs -/

namespace CaseRun

/-- The code points of a run. -/
def members (run : CaseRun) : List Nat :=
  (List.range ((run.last - run.first) / run.step + 1)).map fun i => run.first + run.step * i

theorem image?_eq_some {run : CaseRun} {n m : Nat} (h : run.image? n = some m) :
    run.first ≤ n ∧ n ≤ run.last ∧ n ∈ run.members ∧ m = run.target + (n - run.first) := by
  unfold image? at h
  split at h
  · rename_i hrun
    obtain ⟨hfirst, hlast, hstep⟩ := hrun
    refine ⟨hfirst, hlast, List.mem_map.2 ⟨(n - run.first) / run.step, ?_, ?_⟩,
      (Option.some.inj h).symm⟩
    · rw [List.mem_range, Nat.lt_succ_iff]
      exact Nat.div_le_div_right (by omega)
    · have hmul := Nat.mul_div_cancel' (Nat.dvd_of_mod_eq_zero hstep)
      omega
  · cases h

/-- Whether the letters among the members of a run become letters, but for some that are left out.
Where the images lie in one range of letters, or the members in none, no member is looked at. -/
def keepsLetters (except : List Nat) (run : CaseRun) : Bool :=
  letterRanges.covers run.target (run.target + (run.last - run.first)) ||
    letterRanges.avoids run.first run.last ||
      run.members.all fun n => letterRanges.contains (run.target + (n - run.first)) ||
        except.contains n || !letterRanges.contains n

theorem contains_of_keepsLetters {except : List Nat} {run : CaseRun} {n m : Nat}
    (hrun : run.keepsLetters except = true) (h : run.image? n = some m)
    (hletter : letterRanges.contains n = true) (hn : n ∉ except) :
    letterRanges.contains m = true := by
  obtain ⟨hfirst, hlast, hmem, rfl⟩ := image?_eq_some h
  rw [keepsLetters, Bool.or_eq_true, Bool.or_eq_true] at hrun
  rcases hrun with (hcovers | havoids) | hmembers
  · exact Ranges.contains_of_covers letterRanges_ascending hcovers (by omega) (by omega)
  · rw [Ranges.contains_of_avoids letterRanges_ascending havoids hfirst hlast] at hletter
    cases hletter
  · simpa [hletter, hn] using List.all_eq_true.1 hmembers n hmem

end CaseRun

/-! ## The letters -/

/-- The letters whose upper case is not made of letters.  That of most of them has a combining mark
behind a letter; that of the last two is younger than the table of letters. -/
def unletteredUpper : List Nat :=
  [0x01F0, 0x0390, 0x03B0, 0x1E96, 0x1E97, 0x1E98, 0x1E99, 0x1F50, 0x1F52, 0x1F54, 0x1F56, 0x1FB6,
   0x1FB7, 0x1FC6, 0x1FC7, 0x1FD2, 0x1FD3, 0x1FD6, 0x1FD7, 0x1FE2, 0x1FE3, 0x1FE4, 0x1FE6, 0x1FE7,
   0x1FF6, 0x1FF7, 0xA7D3, 0xA7D5]

theorem upperRuns_keepLetters :
    upperRuns.all (CaseRun.keepsLetters unletteredUpper) = true := by decide +kernel

theorem upperSequences_letters : (upperSequences.all fun (n, codes) =>
    !codes.isEmpty && (codes.all letterRanges.contains || unletteredUpper.contains n)) = true := by
  decide +kernel

theorem letterRanges_valid : (letterRanges.all fun r =>
    r.2.blt 0xD800 || Nat.blt 0xDFFF r.1 && r.2.blt 0x110000) = true := by decide +kernel

theorem isLetter_ofNat {n : Nat} (h : letterRanges.contains n = true) :
    isLetter (Char.ofNat n) = true := by
  obtain ⟨r, hr, hfirst, hlast⟩ := (Ranges.contains_iff letterRanges_ascending n).1 h
  have hvalid := List.all_eq_true.1 letterRanges_valid r hr
  simp only [Bool.or_eq_true, Bool.and_eq_true, Nat.blt_eq] at hvalid
  have hn : n.isValidChar := by
    unfold Nat.isValidChar
    omega
  have htoNat : (Char.ofNat n).toNat = n := by
    unfold Char.ofNat
    rw [dif_pos hn]
    rfl
  rw [isLetter, htoNat]
  exact h

theorem upper_ne_nil (c : Char) : upper c ≠ [] := by
  unfold upper
  cases hlookup : upperSequences.lookup c.toNat with
  | none => exact List.cons_ne_nil _ _
  | some codes =>
    obtain ⟨before, after, hsplit, -⟩ := List.lookup_eq_some_iff.1 hlookup
    have hcodes := List.all_eq_true.1 upperSequences_letters (c.toNat, codes) (by simp [hsplit])
    simp only [Bool.and_eq_true, Bool.not_eq_true', List.isEmpty_eq_false_iff] at hcodes
    simpa using hcodes.1

/-- The upper case of a letter is made of letters, but for a few letters. -/
theorem isLetter_of_mem_upper {c d : Char} (hletter : isLetter c = true)
    (hc : c.toNat ∉ unletteredUpper) (hd : d ∈ upper c) : isLetter d = true := by
  unfold upper at hd
  cases hlookup : upperSequences.lookup c.toNat with
  | some codes =>
    simp only [hlookup, List.mem_map] at hd
    obtain ⟨n, hn, rfl⟩ := hd
    obtain ⟨before, after, hsplit, -⟩ := List.lookup_eq_some_iff.1 hlookup
    have hcodes := List.all_eq_true.1 upperSequences_letters (c.toNat, codes) (by simp [hsplit])
    simp only [hc, Bool.and_eq_true, Bool.or_eq_true, List.contains_iff_mem, or_false] at hcodes
    exact isLetter_ofNat (List.all_eq_true.1 hcodes.2 n hn)
  | none =>
    simp only [hlookup, List.mem_singleton] at hd
    subst hd
    unfold CaseRun.imageIn
    cases himage : upperRuns.findSome? (·.image? c.toNat) with
    | none =>
      rw [Option.getD_none, Char.ofNat_toNat]
      exact hletter
    | some m =>
      obtain ⟨run, hrun, hm⟩ := List.exists_of_findSome?_eq_some himage
      have hkeeps := List.all_eq_true.1 upperRuns_keepLetters run hrun
      exact isLetter_ofNat (CaseRun.contains_of_keepsLetters hkeeps hm hletter hc)

/-! ## Small letters -/

/-- A code point lies outside the interval that ends with the small letters of ASCII and begins with
the bracket behind the capital ones. -/
def OutsideSmall (n : Nat) : Prop := n < 0x5B ∨ 0x7A < n

instance : DecidablePred OutsideSmall := fun n =>
  inferInstanceAs (Decidable (n < 0x5B ∨ 0x7A < n))

theorem outsideSmall_toNat_ofNat {n : Nat} (h : OutsideSmall n) :
    OutsideSmall (Char.ofNat n).toNat := by
  unfold Char.ofNat
  by_cases hn : n.isValidChar
  · rw [dif_pos hn]
    exact h
  · rw [dif_neg hn]
    exact .inl (by decide)

/-- None of the six characters between the capital and the small letters of ASCII is a letter. -/
theorem not_between_of_isLetter {c : Char} (h : isLetter c = true) :
    ¬ (0x5B ≤ c.toNat ∧ c.toNat ≤ 0x60) := by
  rintro ⟨hfirst, hlast⟩
  have havoids : letterRanges.avoids 0x5B 0x60 = true := by decide +kernel
  rw [isLetter, Ranges.contains_of_avoids letterRanges_ascending havoids hfirst hlast] at h
  cases h

/-- A run leads below the interval or above it as a whole. -/
theorem upperRuns_outsideSmall : (upperRuns.all fun run =>
    (run.target + (run.last - run.first)).blt 0x5B || Nat.blt 0x7A run.target) = true := by
  decide +kernel

theorem upperSequences_outsideSmall : (upperSequences.all fun (_, codes) =>
    codes.all fun n => n.blt 0x5B || Nat.blt 0x7A n) = true := by decide +kernel

/-- The small letters of ASCII have an upper case in the table. -/
theorem findSome?_upperRuns_ne_none {n : Nat} (hfirst : 0x61 ≤ n) (hlast : n ≤ 0x7A) :
    upperRuns.findSome? (·.image? n) ≠ none := by
  intro hnone
  have hrun := List.findSome?_eq_none_iff.1 hnone ⟨0x61, 0x7A, 1, 0x41⟩ List.mem_cons_self
  simp [CaseRun.image?, hfirst, hlast, Nat.mod_one] at hrun

/-- The upper case of a letter holds no small letter of ASCII. -/
theorem outsideSmall_of_mem_upper {c d : Char} (hletter : isLetter c = true) (hd : d ∈ upper c) :
    OutsideSmall d.toNat := by
  unfold upper at hd
  cases hlookup : upperSequences.lookup c.toNat with
  | some codes =>
    simp only [hlookup, List.mem_map] at hd
    obtain ⟨n, hn, rfl⟩ := hd
    obtain ⟨before, after, hsplit, -⟩ := List.lookup_eq_some_iff.1 hlookup
    have hcodes := List.all_eq_true.1 upperSequences_outsideSmall (c.toNat, codes) (by simp [hsplit])
    have hcode := List.all_eq_true.1 hcodes n hn
    rw [Bool.or_eq_true, Nat.blt_eq, Nat.blt_eq] at hcode
    exact outsideSmall_toNat_ofNat hcode
  | none =>
    simp only [hlookup, List.mem_singleton] at hd
    subst hd
    apply outsideSmall_toNat_ofNat
    unfold CaseRun.imageIn
    cases himage : upperRuns.findSome? (·.image? c.toNat) with
    | none =>
      -- a letter without an upper case is none of the small ones
      have hsmall : ¬ (0x61 ≤ c.toNat ∧ c.toNat ≤ 0x7A) :=
        fun h => findSome?_upperRuns_ne_none h.1 h.2 himage
      have hbetween := not_between_of_isLetter hletter
      rw [Option.getD_none]
      unfold OutsideSmall
      omega
    | some m =>
      obtain ⟨run, hrun, hm⟩ := List.exists_of_findSome?_eq_some himage
      obtain ⟨hfirst, hlast, -, rfl⟩ := CaseRun.image?_eq_some hm
      have htarget := List.all_eq_true.1 upperRuns_outsideSmall run hrun
      rw [Bool.or_eq_true, Nat.blt_eq, Nat.blt_eq] at htarget
      rw [Option.getD_some]
      unfold OutsideSmall
      omega

end JsonShape.Unicode
