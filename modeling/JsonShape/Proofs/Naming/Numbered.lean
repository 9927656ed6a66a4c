import Mathlib.Algebra.Order.BigOperators.Group.List
import Mathlib.Algebra.Order.Group.Nat
import Mathlib.Data.Finset.Card
import Mathlib.Data.Nat.Find
import JsonShape.Naming.Claim

/-!
# Names with numbers

A name that is taken is tried again with a number behind it.  The numbers have 32 bits: from one they
count up to the greatest, go on with the least, and with zero all of them have been tried.  So there
are finitely many tries, no two of them alike, and the first one that is free ends the search.

* `candidate` — the tries, in order.
* `candidate_inj` — no try is made twice.
* `FirstFree`, `firstFree?_cases`, `claim_cases` — the search ends with the first free try, and it has
  no end only if there is none.
* `FreeBelow`, `exists_free_candidate` — one of the first tries is free if there are more of them than
  names that are taken.
* `claim_not_mem`, `exists_toList_claim` — a claimed name is not taken, and it begins with the name of
  the key.
-/

namespace JsonShape

namespace Naming

variable {taken : List String} {base key name : String} {i k n m limit : Nat}

/-! ## Numbers behind names -/

/-- A number is written in digits, with a dash before them if it is negative. -/
theorem of_mem_repr {n : Int} {d : Char} (h : d ∈ n.repr.toList) : d = '-' ∨ d.isDigit = true := by
  rw [Int.repr_eq_if] at h
  split at h
  · rw [Nat.toList_repr] at h
    exact .inr (Nat.isDigit_of_mem_toDigits (by decide) (by decide) h)
  · rw [String.toList_append, Nat.toList_repr] at h
    rcases List.mem_append.1 h with hdash | hdigit
    · exact .inl (List.mem_singleton.1 hdash)
    · exact .inr (Nat.isDigit_of_mem_toDigits (by decide) (by decide) hdigit)

theorem toDigits_injective : Function.Injective (Nat.toDigits 10) := by
  intro n m h
  simpa using congrArg (Nat.ofDigitChars 10 · 0) h

theorem toDigits_ne_dash (n : Nat) (cs : List Char) : Nat.toDigits 10 n ≠ '-' :: cs := by
  intro h
  have hdash : '-' ∈ Nat.toDigits 10 n := by
    rw [h]
    exact List.mem_cons_self
  exact absurd (Nat.isDigit_of_mem_toDigits (by decide) (by decide) hdash) (by decide)

/-- A number is told by the way it is written. -/
theorem repr_injective : Function.Injective Int.repr := by
  intro n m h
  have hchars := congrArg String.toList h
  cases n with
  | ofNat n =>
    cases m with
    | ofNat m =>
      simp only [Int.repr, Nat.toList_repr] at hchars
      rw [toDigits_injective hchars]
    | negSucc m =>
      simp only [Int.repr, Nat.toList_repr, String.toList_append] at hchars
      exact absurd hchars (toDigits_ne_dash n _)
  | negSucc n =>
    cases m with
    | ofNat m =>
      simp only [Int.repr, Nat.toList_repr, String.toList_append] at hchars
      exact absurd hchars.symm (toDigits_ne_dash m _)
    | negSucc m =>
      simp only [Int.repr, Nat.toList_repr, String.toList_append,
        List.append_cancel_left_eq] at hchars
      rw [Nat.succ_injective (toDigits_injective hchars)]

theorem toList_numbered (name : String) (n : Int) :
    (numbered name n).toList = name.toList ++ '_' :: n.repr.toList := by
  simp [numbered]

/-- Two numbers behind a name make two names. -/
theorem numbered_injective (name : String) : Function.Injective (numbered name) := by
  intro n m h
  have hchars := congrArg String.toList h
  rw [toList_numbered, toList_numbered, List.append_cancel_left_eq, List.cons.injEq] at hchars
  exact repr_injective (String.toList_inj.1 hchars.2)

theorem ne_numbered (name : String) (n : Int) : name ≠ numbered name n := by
  intro h
  have hlength := congrArg (List.length ∘ String.toList) h
  simp [toList_numbered] at hlength

/-! ## Tries -/

/-- The name that is tried after so many renamings. -/
def candidate (base : String) : Nat → String
  | 0 => base
  | n + 1 => numbered base (Int32.ofNat (n + 1)).toInt

theorem candidate_of_pos (base : String) (h : 0 < n) :
    candidate base n = numbered base (Int32.ofNat n).toInt := by
  obtain ⟨m, rfl⟩ := Nat.exists_eq_add_of_le' h
  rfl

/-- As long as the numbers do not overflow, they count the renamings. -/
theorem candidate_of_lt (base : String) (hpos : 0 < n) (h : n < 2 ^ 31) :
    candidate base n = numbered base n := by
  rw [candidate_of_pos base hpos, Int32.toInt_ofNat_of_lt h]

/-- The numbers of one round are all different. -/
theorem ofNat_inj (hn : 0 < n) (hm : 0 < m) (hn' : n ≤ 2 ^ 32) (hm' : m ≤ 2 ^ 32)
    (h : (Int32.ofNat n).toInt = (Int32.ofNat m).toInt) : n = m := by
  rw [Int32.toInt_ofNat', Int32.toInt_ofNat'] at h
  have hmod : (n : Int) % 2 ^ 32 = m % 2 ^ 32 := by
    have hsize : ((Int32.size : Nat) : Int) = 2 ^ 32 := rfl
    rw [← hsize, ← Int.bmod_emod, h, Int.bmod_emod]
  omega

/-- No try is made twice. -/
theorem candidate_inj (hn : n ≤ 2 ^ 32) (hm : m ≤ 2 ^ 32)
    (h : candidate base n = candidate base m) : n = m := by
  rcases Nat.eq_zero_or_pos n with rfl | hn0
  · rcases Nat.eq_zero_or_pos m with rfl | hm0
    · rfl
    · rw [candidate_of_pos base hm0] at h
      exact absurd h (ne_numbered base _)
  · rcases Nat.eq_zero_or_pos m with rfl | hm0
    · rw [candidate_of_pos base hn0] at h
      exact absurd h.symm (ne_numbered base _)
    · rw [candidate_of_pos base hn0, candidate_of_pos base hm0] at h
      exact ofNat_inj hn0 hm0 hn hm (numbered_injective base h)

/-! ## The first free try -/

/-- A try is free, and none is from a given one on to the one before it. -/
structure FirstFree (taken : List String) (base : String) (k i : Nat) : Prop where
  /-- It is not before the given one. -/
  le : k ≤ i
  /-- It is free. -/
  free : candidate base i ∉ taken
  /-- Those before it are taken. -/
  before : ∀ j, k ≤ j → j < i → candidate base j ∈ taken

theorem FirstFree.unique (h : FirstFree taken base k i) (h' : FirstFree taken base k m) : i = m := by
  rcases Nat.lt_trichotomy i m with hlt | heq | hlt
  · exact absurd (h'.before i h.le hlt) h.free
  · exact heq
  · exact absurd (h.before m h'.le hlt) h'.free

/-- A try that is free is the first one from itself on. -/
theorem firstFree_self_iff (h : candidate base k ∉ taken) : FirstFree taken base k i ↔ i = k := by
  have hself : FirstFree taken base k k :=
    ⟨Nat.le_refl k, h, fun j hkj hjk => absurd hjk (Nat.not_lt.2 hkj)⟩
  constructor
  · intro hfirst
    exact hfirst.unique hself
  · rintro rfl
    exact hself

/-- Past a try that is taken the search goes on with the next one. -/
theorem firstFree_succ_iff (h : candidate base k ∈ taken) :
    FirstFree taken base k i ↔ FirstFree taken base (k + 1) i := by
  constructor
  · intro hfirst
    have hne : k ≠ i := fun heq => hfirst.free (heq ▸ h)
    exact ⟨Nat.lt_of_le_of_ne hfirst.le hne, hfirst.free,
      fun j hkj hji => hfirst.before j (Nat.le_of_succ_le hkj) hji⟩
  · intro hfirst
    refine ⟨Nat.le_of_succ_le hfirst.le, hfirst.free, fun j hkj hji => ?_⟩
    rcases Nat.eq_or_lt_of_le hkj with rfl | hlt
    · exact h
    · exact hfirst.before j hlt hji

/-- One of the first tries for a key is free. -/
def FreeBelow (limit : Nat) (taken : List String) (key : String) : Prop :=
  ∃ n < limit, candidate (identifier key) n ∉ taken

theorem FirstFree.freeBelow_iff (h : FirstFree taken (identifier key) 0 i) :
    FreeBelow limit taken key ↔ i < limit := by
  constructor
  · rintro ⟨n, hn, hfree⟩
    by_contra hle
    exact hfree (h.before n (Nat.zero_le n) (by omega))
  · intro hlt
    exact ⟨i, hlt, h.free⟩

theorem exists_firstFree (h : candidate base n ∉ taken) : ∃ i ≤ n, FirstFree taken base 0 i := by
  have hexists : ∃ i, candidate base i ∉ taken := ⟨n, h⟩
  refine ⟨Nat.find hexists, Nat.find_min' hexists h, Nat.zero_le _, Nat.find_spec hexists, ?_⟩
  exact fun j _ hj => not_not.1 (Nat.find_min hexists hj)

/-- The search ends with the first free try, and has no end if there is none. -/
theorem firstFree?_cases (name : String) (taken : List String) (hk : 0 < k) (hk' : k ≤ 2 ^ 32) :
    (∃ i ≤ 2 ^ 32, FirstFree taken name k i ∧
        firstFree? name (.ofNat k) taken = some (candidate name i)) ∨
      (∀ j, k ≤ j → j ≤ 2 ^ 32 → candidate name j ∈ taken) ∧
        firstFree? name (.ofNat k) taken = none := by
  -- The induction is on how many tries are left.
  obtain ⟨left, hleft⟩ := Nat.exists_eq_add_of_le' hk'
  induction left generalizing k with
  | zero =>
    obtain rfl : k = 2 ^ 32 := by omega
    have hzero : Int32.ofNat (2 ^ 32) = 0 := rfl
    rw [firstFree?, ← candidate_of_pos name hk, if_pos hzero]
    by_cases htaken : candidate name (2 ^ 32) ∈ taken
    · refine .inr ⟨fun j hkj hj => ?_, if_pos htaken⟩
      rwa [Nat.le_antisymm hj hkj]
    · exact .inl ⟨2 ^ 32, Nat.le_refl _, (firstFree_self_iff htaken).2 rfl, if_neg htaken⟩
  | succ left ih =>
    have hne : Int32.ofNat k ≠ 0 := by
      intro hzero
      have hfull : k = 2 ^ 32 := ofNat_inj hk (by decide) hk' (Nat.le_refl _) (congrArg _ hzero)
      omega
    have hsucc : Int32.ofNat k + 1 = Int32.ofNat (k + 1) := (Int32.ofNat_add k 1).symm
    rw [firstFree?, ← candidate_of_pos name hk, if_neg hne, hsucc]
    by_cases htaken : candidate name k ∈ taken
    · rw [if_pos htaken]
      rcases ih (Nat.succ_pos k) (by omega) (by omega) with ⟨i, hi, hfirst, heq⟩ | ⟨hall, heq⟩
      · exact .inl ⟨i, hi, (firstFree_succ_iff htaken).2 hfirst, heq⟩
      · refine .inr ⟨fun j hkj hj => ?_, heq⟩
        rcases Nat.eq_or_lt_of_le hkj with rfl | hlt
        · exact htaken
        · exact hall j hlt hj
    · rw [if_neg htaken]
      exact .inl ⟨k, hk', (firstFree_self_iff htaken).2 rfl, rfl⟩

/-! ## Claimed names -/

theorem toList_unending (name : String) (taken : List String) :
    (unending name taken).toList =
      name.toList ++ '_' :: List.replicate ((String.join taken).length + 1) '-' := by
  simp [unending]

/-- What stands for the name that is never found is not taken: it is too long. -/
theorem unending_not_mem (name : String) (taken : List String) : unending name taken ∉ taken := by
  intro hmem
  have hle := List.le_sum_of_mem (List.mem_map_of_mem (f := String.length) hmem)
  have hlength := congrArg List.length (toList_unending name taken)
  rw [String.length_toList, List.length_append, List.length_cons, List.length_replicate,
    String.length_join] at hlength
  omega

/-- A claimed name is the first free try, if there is one. -/
theorem claim_cases (taken : List String) (key : String) :
    (∃ i ≤ 2 ^ 32, FirstFree taken (identifier key) 0 i ∧
        claim taken key = candidate (identifier key) i) ∨
      (∀ j ≤ 2 ^ 32, candidate (identifier key) j ∈ taken) ∧
        claim taken key = unending (identifier key) taken := by
  by_cases htaken : identifier key ∈ taken
  · rw [claim, if_pos htaken]
    have hone : (1 : Int32) = .ofNat 1 := rfl
    rw [hone]
    rcases firstFree?_cases (identifier key) taken Nat.one_pos (by decide) with
      ⟨i, hi, hfirst, heq⟩ | ⟨hall, heq⟩
    · exact .inl ⟨i, hi, (firstFree_succ_iff htaken).2 hfirst, by rw [heq]; rfl⟩
    · refine .inr ⟨fun j hj => ?_, by rw [heq]; rfl⟩
      rcases Nat.eq_zero_or_pos j with rfl | hpos
      · exact htaken
      · exact hall j hpos hj
  · exact .inl ⟨0, Nat.zero_le _, (firstFree_self_iff htaken).2 rfl, if_neg htaken⟩

theorem claim_eq_candidate (h : FirstFree taken (identifier key) 0 i) (hi : i ≤ 2 ^ 32) :
    claim taken key = candidate (identifier key) i := by
  rcases claim_cases taken key with ⟨m, -, hfirst, heq⟩ | ⟨hall, -⟩
  · rw [heq, hfirst.unique h]
  · exact absurd (hall i hi) h.free

/-- A claimed name is not taken. -/
theorem claim_not_mem (taken : List String) (key : String) : claim taken key ∉ taken := by
  rcases claim_cases taken key with ⟨i, -, hfirst, heq⟩ | ⟨-, heq⟩
  · rw [heq]
    exact hfirst.free
  · rw [heq]
    exact unending_not_mem _ _

theorem exists_toList_candidate (base : String) (n : Nat) :
    ∃ tail, (candidate base n).toList = base.toList ++ tail ∧
      ∀ d ∈ tail, d = '_' ∨ d = '-' ∨ d.isDigit = true := by
  cases n with
  | zero => exact ⟨[], (List.append_nil _).symm, nofun⟩
  | succ n =>
    refine ⟨_, toList_numbered base _, List.forall_mem_cons.2 ⟨.inl rfl, fun d hd => ?_⟩⟩
    exact .inr (of_mem_repr hd)

/-- A claimed name is that of the key, with nothing behind it but underscores, dashes and digits. -/
theorem exists_toList_claim (taken : List String) (key : String) :
    ∃ tail, (claim taken key).toList = (identifier key).toList ++ tail ∧
      ∀ d ∈ tail, d = '_' ∨ d = '-' ∨ d.isDigit = true := by
  rcases claim_cases taken key with ⟨i, -, -, heq⟩ | ⟨-, heq⟩
  · rw [heq]
    exact exists_toList_candidate _ i
  · rw [heq]
    refine ⟨_, toList_unending _ _, List.forall_mem_cons.2 ⟨.inl rfl, fun d hd => ?_⟩⟩
    exact .inr (.inl (List.eq_of_mem_replicate hd))

/-! ## Enough tries -/

/-- Among different names one is free if there are more of them than names that are taken. -/
theorem exists_not_mem_of_injOn {names : Finset String} {f : Nat → String}
    (hf : Set.InjOn f (Finset.range (names.card + 1))) : ∃ n ≤ names.card, f n ∉ names := by
  by_contra hall
  push Not at hall
  have hmaps : ∀ n ∈ Finset.range (names.card + 1), f n ∈ names :=
    fun n hn => hall n (Finset.mem_range_succ_iff.1 hn)
  have hcard := Finset.card_le_card_of_injOn f hmaps hf
  rw [Finset.card_range] at hcard
  omega

/-- One of the tries is free, unless more names are taken than there are tries. -/
theorem exists_free_candidate (base : String) (h : taken.toFinset.card ≤ 2 ^ 32) :
    ∃ n ≤ taken.toFinset.card, candidate base n ∉ taken := by
  have hinj : Set.InjOn (candidate base) (Finset.range (taken.toFinset.card + 1)) := by
    intro n hn m hm heq
    have hn' := Finset.mem_range_succ_iff.1 (Finset.mem_coe.1 hn)
    have hm' := Finset.mem_range_succ_iff.1 (Finset.mem_coe.1 hm)
    exact candidate_inj (hn'.trans h) (hm'.trans h) heq
  simpa only [List.mem_toFinset] using exists_not_mem_of_injOn hinj

theorem freeBelow_of_card_lt (key : String) (hlimit : limit ≤ 2 ^ 32)
    (h : taken.toFinset.card < limit) : FreeBelow limit taken key := by
  obtain ⟨n, hn, hfree⟩ := exists_free_candidate (identifier key) (Nat.le_of_lt (h.trans_le hlimit))
  exact ⟨n, Nat.lt_of_le_of_lt hn h, hfree⟩

end Naming

end JsonShape
