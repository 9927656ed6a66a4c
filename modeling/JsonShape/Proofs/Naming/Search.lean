import Mathlib.Order.Bounds.Basic
import JsonShape.Proofs.Naming.Distinct
import JsonShape.Proofs.Naming.Overflow

/-!
# The search for a free name

A name that is taken is tried again with a number behind it, from one on.  The numbers have 32
bits, so the tries are all different for one round of them, and the first try that is free ends the
search.  It is the one with the least number of all, if that does not overflow.

* `Search.Ends` — the search as a loop that renames as long as the name is taken.
* `ends_start_iff` — the search ends with the first free try.
* `FirstFree.le_card` — it ends within as many renamings as names are taken.
* `exists_isLeast` — a taken name has a least number that makes it free.
* `claim_eq_numbered_iff`, `claim?_eq_ite` — how far the numbers go, unchecked and checked.
* `claim_search` — how a claimed name is found, and what a sequence of claims gives.
-/

namespace JsonShape

namespace Naming

variable {σ : Type} {taken : List String} {base key : String} {i n m : Nat}

/-! ## The loop -/

/-- A search for a free name. -/
structure Search where
  /-- The name that is tried. -/
  ident : String
  /-- The number for the next try. -/
  suffix : Int32

namespace Search

/-- A name is tried as it is first. -/
def start (base : String) : Search := ⟨base, 1⟩

/-- The next try.  The greatest number is followed by the least one. -/
def rename (base : String) (search : Search) : Search :=
  ⟨numbered base search.suffix.toInt, search.suffix + 1⟩

/-- A search goes on as long as its name is taken, and ends after so many renamings. -/
inductive Ends (taken : List String) (base : String) : Search → Nat → Search → Prop
  /-- The name is free. -/
  | free {search : Search} (h : search.ident ∉ taken) : Ends taken base search 0 search
  /-- The name is taken. -/
  | taken {search last : Search} {n : Nat} (h : search.ident ∈ taken)
      (hrest : Ends taken base (search.rename base) n last) : Ends taken base search (n + 1) last

end Search

/-- The search after so many renamings. -/
def searchAt (base : String) (i : Nat) : Search := ⟨candidate base i, .ofNat (i + 1)⟩

theorem rename_searchAt (base : String) (i : Nat) :
    (searchAt base i).rename base = searchAt base (i + 1) := by
  rw [searchAt, Search.rename, searchAt, candidate_of_pos base (Nat.succ_pos i)]
  exact congrArg _ (Int32.ofNat_add (i + 1) 1).symm

/-- The loop makes the tries in order, so it ends with the first free one. -/
theorem ends_searchAt_iff {last : Search} :
    Search.Ends taken base (searchAt base i) n last ↔
      FirstFree taken base i (i + n) ∧ last = searchAt base (i + n) := by
  induction n generalizing i with
  | zero =>
    constructor
    · rintro (hfree | _)
      exact ⟨(firstFree_self_iff hfree).2 rfl, rfl⟩
    · rintro ⟨hfirst, rfl⟩
      exact .free hfirst.free
  | succ n ih =>
    have hnext : i + 1 + n = i + (n + 1) := by omega
    have hrest := @ih (i + 1)
    rw [hnext, ← rename_searchAt] at hrest
    constructor
    · rintro (_ | ⟨htaken, hends⟩)
      obtain ⟨hfirst, hlast⟩ := hrest.1 hends
      exact ⟨(firstFree_succ_iff htaken).2 hfirst, hlast⟩
    · rintro ⟨hfirst, hlast⟩
      have htaken : candidate base i ∈ taken := hfirst.before i (Nat.le_refl i) (by omega)
      exact .taken htaken (hrest.2 ⟨(firstFree_succ_iff htaken).1 hfirst, hlast⟩)

theorem ends_start_iff {last : Search} :
    Search.Ends taken base (.start base) n last ↔
      FirstFree taken base 0 n ∧ last = searchAt base n := by
  have h := @ends_searchAt_iff taken base 0 n last
  rwa [Nat.zero_add] at h

/-! ## How many renamings there are -/

/-- After one round of the numbers the tries begin anew. -/
theorem candidate_add_round (base : String) (hn : 0 < n) :
    candidate base (n + 2 ^ 32) = candidate base n := by
  have hround : Int32.ofNat (n + 2 ^ 32) = Int32.ofNat n := by
    rw [Int32.ofNat_add]
    exact Int32.add_zero _
  rw [candidate_of_pos base hn, candidate_of_pos base (by omega), hround]

theorem FirstFree.le_round (h : FirstFree taken base 0 n) : n ≤ 2 ^ 32 := by
  by_contra hlt
  obtain ⟨m, rfl⟩ := Nat.exists_eq_add_of_le' (Nat.le_of_lt (Nat.lt_of_not_le hlt))
  refine h.free ?_
  rw [candidate_add_round base (by omega)]
  exact h.before m (Nat.zero_le m) (by omega)

/-- The search ends within as many renamings as names are taken, if it ends at all. -/
theorem FirstFree.le_card (h : FirstFree taken base 0 n) : n ≤ taken.toFinset.card := by
  rcases Nat.le_total taken.toFinset.card (2 ^ 32) with hcard | hcard
  · obtain ⟨m, hm, hfree⟩ := exists_free_candidate base hcard
    obtain ⟨i, hi, hfirst⟩ := exists_firstFree hfree
    rw [h.unique hfirst]
    exact hi.trans hm
  · exact h.le_round.trans hcard

/-- The search ends unless all numbers are taken. -/
theorem exists_firstFree_iff :
    (∃ n, FirstFree taken (identifier key) 0 n) ↔ FreeBelow (2 ^ 32 + 1) taken key := by
  constructor
  · rintro ⟨n, hfirst⟩
    exact ⟨n, Nat.lt_succ_of_le hfirst.le_round, hfirst.free⟩
  · rintro ⟨n, -, hfree⟩
    obtain ⟨i, -, hfirst⟩ := exists_firstFree hfree
    exact ⟨i, hfirst⟩

/-! ## The least number -/

/-- The numbers that make a name free. -/
def freeNumbers (taken : List String) (base : String) : Set Nat :=
  {n | 1 ≤ n ∧ numbered base n ∉ taken}

/-- A taken name has a least number that makes it free: the taken names run out. -/
theorem exists_isLeast (htaken : base ∈ taken) :
    ∃ n ≤ taken.toFinset.card, IsLeast (freeNumbers taken base) n := by
  have hinj : Set.InjOn (fun n : Nat => numbered base (n + 1 : Nat))
      (Finset.range ((taken.toFinset.erase base).card + 1)) := by
    intro n _ m _ heq
    exact Nat.succ_injective (Int.ofNat_inj.1 (numbered_injective base heq))
  obtain ⟨m, hm, hnot⟩ := exists_not_mem_of_injOn hinj
  have hcard := Finset.card_erase_lt_of_mem (List.mem_toFinset.2 htaken)
  have hfree : m + 1 ∈ freeNumbers taken base := by
    refine ⟨Nat.succ_pos m, fun hmem => hnot ?_⟩
    exact Finset.mem_erase.2 ⟨(ne_numbered base _).symm, List.mem_toFinset.2 hmem⟩
  have hexists : ∃ n, n ∈ freeNumbers taken base := ⟨m + 1, hfree⟩
  classical
  refine ⟨Nat.find hexists, (Nat.find_min' hexists hfree).trans (by omega), Nat.find_spec hexists, ?_⟩
  exact fun j hj => Nat.find_min' hexists hj

/-- All tries with a lower number are taken. -/
theorem candidate_mem_of_lt (htaken : base ∈ taken) (h : IsLeast (freeNumbers taken base) n)
    (hi : i < n) (hlast : i < 2 ^ 31) : candidate base i ∈ taken := by
  rcases Nat.eq_zero_or_pos i with rfl | hpos
  · exact htaken
  · rw [candidate_of_lt base hpos hlast]
    by_contra hfree
    exact absurd (h.2 ⟨hpos, hfree⟩) (Nat.not_le.2 hi)

/-- A number that does not overflow is found. -/
theorem firstFree_of_isLeast (htaken : base ∈ taken) (h : IsLeast (freeNumbers taken base) n)
    (hn : n < 2 ^ 31) : FirstFree taken base 0 n := by
  refine ⟨Nat.zero_le n, ?_, fun j _ hj => candidate_mem_of_lt htaken h hj (by omega)⟩
  rw [candidate_of_lt base h.1.1 hn]
  exact h.1.2

theorem candidate_ne_numbered (hi : 2 ^ 31 ≤ i) (hi' : i ≤ 2 ^ 32) (hn : 1 ≤ n) :
    candidate base i ≠ numbered base n := by
  intro heq
  rw [candidate_of_pos base (by omega)] at heq
  have hvalue := numbered_injective base heq
  have hlt := (toInt_ofNat_nonneg_iff (n := i) (by omega) hi').1 (by omega)
  obtain rfl : i = 2 ^ 32 := by omega
  have hzero : (Int32.ofNat (2 ^ 32)).toInt = 0 := rfl
  omega

theorem unending_ne_numbered (name : String) (taken : List String) (n : Nat) :
    unending name taken ≠ numbered name n := by
  intro heq
  have hchars := congrArg String.toList heq
  rw [toList_unending, toList_numbered, List.append_cancel_left_eq, List.replicate_succ] at hchars
  have hdigits := (List.cons.inj hchars).2
  exact toDigits_ne_dash n _ (by simpa [Int.repr] using hdigits.symm)

/-- The claimed name has the least number if it is one of those that follow on one. -/
theorem claim_eq_numbered_iff (htaken : identifier key ∈ taken)
    (h : IsLeast (freeNumbers taken (identifier key)) n) :
    claim taken key = numbered (identifier key) n ↔ n < 2 ^ 31 := by
  constructor
  · intro hclaim
    by_contra hlast
    rcases claim_cases taken key with ⟨i, hi, hfirst, heq⟩ | ⟨-, heq⟩
    · have hover : 2 ^ 31 ≤ i := by
        by_contra hlt
        exact hfirst.free (candidate_mem_of_lt htaken h (by omega) (by omega))
      exact candidate_ne_numbered hover hi h.1.1 (heq.symm.trans hclaim)
    · exact unending_ne_numbered _ _ n (heq.symm.trans hclaim)
  · intro hn
    rw [claim_eq_candidate (firstFree_of_isLeast htaken h hn) (by omega),
      candidate_of_lt _ h.1.1 hn]

/-- If sums are checked, the greatest number is not reached: it is counted up as soon as it is used. -/
theorem claim?_eq_ite (htaken : identifier key ∈ taken)
    (h : IsLeast (freeNumbers taken (identifier key)) n) :
    claim? true taken key = if n < 2 ^ 31 - 1 then some (numbered (identifier key) n) else none := by
  by_cases hn : n < 2 ^ 31 - 1
  · rw [if_pos hn, claim?_eq_some_iff]
    have hfirst := firstFree_of_isLeast htaken h (by omega)
    exact ⟨((claim_eq_numbered_iff htaken h).2 (by omega)).symm, fun _ => hfirst.freeBelow_iff.2 hn⟩
  · rw [if_neg hn, Option.eq_none_iff_forall_ne_some]
    intro ident hclaim
    obtain ⟨i, hi, hfree⟩ := (claim?_eq_some_iff.1 hclaim).2 rfl
    exact hfree (candidate_mem_of_lt htaken h (by omega) (by omega))

/-! ## Claims -/

/-- Only which names are taken matters. -/
theorem firstFree_congr {other : List String} (h : ∀ name, name ∈ other ↔ name ∈ taken) :
    FirstFree other base i n ↔ FirstFree taken base i n := by
  constructor
  · rintro ⟨hle, hfree, hbefore⟩
    exact ⟨hle, fun hmem => hfree ((h _).2 hmem), fun j hij hj => (h _).1 (hbefore j hij hj)⟩
  · rintro ⟨hle, hfree, hbefore⟩
    exact ⟨hle, fun hmem => hfree ((h _).1 hmem), fun j hij hj => (h _).2 (hbefore j hij hj)⟩

theorem claim?_congr {other : List String} (h : ∀ name, name ∈ other ↔ name ∈ taken) :
    claim? true other key = claim? true taken key := by
  refine Option.ext fun ident => ?_
  rw [claim?_true_eq_some_iff, claim?_true_eq_some_iff]
  simp only [firstFree_congr h]

theorem ends_start_iff_claim {last : Search} :
    Search.Ends taken (identifier key) (.start (identifier key)) n last ↔
      FirstFree taken (identifier key) 0 n ∧ last = ⟨claim taken key, .ofNat (n + 1)⟩ := by
  rw [ends_start_iff, searchAt]
  refine and_congr_right fun hfirst => ?_
  rw [claim_eq_candidate hfirst hfirst.le_round]

/-- The name that a claim gets where other claims follow it. -/
theorem getElem?_fieldsFrom (taken : List String) (before : List (String × σ)) (key : String)
    (value : σ) (after : List (String × σ)) :
    (fieldsFrom taken (before ++ (key, value) :: after))[before.length]? =
      some ⟨claim (taken ++ (fieldsFrom taken before).map Field.ident) key, key, value⟩ := by
  rw [fieldsFrom_append, ← length_fieldsFrom taken before,
    List.getElem?_append_right (Nat.le_refl _), Nat.sub_self]
  rfl

/-- The search for a name ends with the first free try, and within as many renamings as names are
taken; it has no end only if no number of 32 bits is left, which takes more than `2 ^ 32` names.  A
name that is free stays as it is.  For one that is taken there is a least number that makes it free,
and the claimed name has that number exactly if it is below `2 ^ 31`; if sums are checked the number
`2 ^ 31 - 1` is out of reach as well, and nothing is claimed where the least one is not reached.  Of
the taken names only the set matters.  In a sequence of claims no name is given twice, nor one that was
taken before, and each claim gets the name that it would get as the last one. -/
theorem claim_search (taken : List String) (key : String) :
    (∀ m last, Search.Ends taken (identifier key) (.start (identifier key)) m last ↔
      FirstFree taken (identifier key) 0 m ∧ last = ⟨claim taken key, .ofNat (m + 1)⟩) ∧
      (∀ m, FirstFree taken (identifier key) 0 m → m ≤ taken.toFinset.card) ∧
      ((∃ m, FirstFree taken (identifier key) 0 m) ↔ FreeBelow (2 ^ 32 + 1) taken key) ∧
      (taken.toFinset.card ≤ 2 ^ 32 → FreeBelow (2 ^ 32 + 1) taken key) ∧
      (identifier key ∉ taken →
        claim taken key = identifier key ∧ claim? true taken key = some (identifier key)) ∧
      (identifier key ∈ taken → ∃ n ≤ taken.toFinset.card,
        IsLeast (freeNumbers taken (identifier key)) n ∧
          (claim taken key = numbered (identifier key) n ↔ n < 2 ^ 31) ∧
          claim? true taken key =
            if n < 2 ^ 31 - 1 then some (numbered (identifier key) n) else none) ∧
      (∀ other : List String, (∀ name, name ∈ other ↔ name ∈ taken) →
        claim? true other key = claim? true taken key ∧ ∀ m last,
          Search.Ends other (identifier key) (.start (identifier key)) m last ↔
            Search.Ends taken (identifier key) (.start (identifier key)) m last) ∧
      (∀ entries : List (String × σ), ((fieldsFrom taken entries).map Field.ident).Nodup ∧
        ∀ name ∈ (fieldsFrom taken entries).map Field.ident, name ∉ taken) ∧
      ∀ (before : List (String × σ)) (value : σ) (after : List (String × σ)),
        (fieldsFrom taken (before ++ (key, value) :: after))[before.length]? =
          some ⟨claim (taken ++ (fieldsFrom taken before).map Field.ident) key, key, value⟩ := by
  refine ⟨fun m last => ends_start_iff_claim, fun m hfirst => hfirst.le_card, exists_firstFree_iff,
    fun hcard => ?_, fun hfree => ?_, fun htaken => ?_, fun other h => ⟨claim?_congr h, ?_⟩,
    nodup_fieldsFrom taken, fun before value after => getElem?_fieldsFrom taken before key value after⟩
  · obtain ⟨n, hn, hfree⟩ := exists_free_candidate (identifier key) hcard
    exact ⟨n, Nat.lt_succ_of_le (hn.trans hcard), hfree⟩
  · have hname : claim taken key = identifier key := if_neg hfree
    exact ⟨hname, claim?_eq_some_iff.2 ⟨hname.symm, fun _ => ⟨0, by decide, hfree⟩⟩⟩
  · obtain ⟨n, hn, hleast⟩ := exists_isLeast htaken
    exact ⟨n, hn, hleast, claim_eq_numbered_iff htaken hleast, claim?_eq_ite htaken hleast⟩
  · intro m last
    rw [ends_start_iff, ends_start_iff, firstFree_congr h]

/-- Where `A` and `A_1` are taken, `a` gets the name `A_2`, in whatever order they are listed, and `b`
gets the name `B`. -/
theorem claim_search_a :
    (["A", "A_1"] : List String).toFinset.card ≤ 2 ^ 32 ∧ FreeBelow (2 ^ 32 + 1) ["A", "A_1"] "a" ∧
      identifier "a" ∈ ["A", "A_1"] ∧ claim ["A", "A_1"] "a" = "A_2" ∧
      claim? true ["A", "A_1"] "a" = some "A_2" ∧
      (∀ name, name ∈ ["A_1", "A"] ↔ name ∈ ["A", "A_1"]) ∧
      claim? true ["A_1", "A"] "a" = some "A_2" ∧
      identifier "b" ∉ ["A", "A_1"] ∧ claim ["A", "A_1"] "b" = "B" := by
  have hcard : (["A", "A_1"] : List String).toFinset.card ≤ 2 ^ 32 :=
    (List.toFinset_card_le _).trans (by decide)
  have htaken : identifier "a" ∈ ["A", "A_1"] := by decide +kernel
  have hfree : identifier "b" ∉ ["A", "A_1"] := by decide +kernel
  have hsame : ∀ name, name ∈ ["A_1", "A"] ↔ name ∈ ["A", "A_1"] :=
    fun name => (List.Perm.swap "A" "A_1" []).mem_iff
  obtain ⟨-, -, -, hends, -, hnumber, hset, -⟩ := @claim_search Unit ["A", "A_1"] "a"
  have hname : claim ["A", "A_1"] "a" = "A_2" ∧ claim? true ["A", "A_1"] "a" = some "A_2" := by
    obtain ⟨n, -, hleast, hclaim, hchecked⟩ := hnumber htaken
    have hle : n ≤ 2 := hleast.2 ⟨by decide, by decide +kernel⟩
    have hne : n ≠ 1 := by
      rintro rfl
      exact hleast.1.2 (by decide +kernel)
    obtain rfl : n = 2 := by
      have hpos := hleast.1.1
      omega
    have htwo : numbered (identifier "a") (2 : Nat) = "A_2" := by decide +kernel
    rw [hchecked, if_pos (by decide), htwo]
    exact ⟨(hclaim.2 (by decide)).trans htwo, rfl⟩
  refine ⟨hcard, hends hcard, htaken, hname.1, hname.2, hsame, ?_, hfree, ?_⟩
  · rw [(hset _ hsame).1, hname.2]
  · obtain ⟨-, -, -, -, hkept, -⟩ := @claim_search Unit ["A", "A_1"] "b"
    rw [(hkept hfree).1]
    decide +kernel

/-- The next number is the least one that is left, whether it overflows or not. -/
theorem isLeast_crowd (n : Nat) : IsLeast (freeNumbers (crowd n) "A") (n + 1) := by
  constructor
  · refine ⟨Nat.succ_pos n, fun hmem => ?_⟩
    rcases List.mem_cons.1 hmem with heq | hmem
    · exact ne_numbered "A" _ heq.symm
    · obtain ⟨i, hi, heq⟩ := List.mem_map.1 hmem
      have hi := List.mem_range.1 hi
      have hvalue := numbered_injective "A" heq
      omega
  · rintro j ⟨hpos, hfree⟩
    by_contra hlt
    refine hfree (List.mem_cons_of_mem _ (List.mem_map.2 ⟨j - 1, List.mem_range.2 (by omega), ?_⟩))
    exact congrArg _ (by omega)

/-- After keys that have the name `A` and all the numbers up to the greatest one, the next key of
that name gets the least number of 32 bits instead of the next one, and nothing if sums are checked. -/
theorem claim_crowd :
    (fieldsFrom [] ((crowd (2 ^ 31 - 1)).map fun key => (key, ()))).map Field.ident =
        crowd (2 ^ 31 - 1) ∧
      IsLeast (freeNumbers (crowd (2 ^ 31 - 1)) (identifier "a")) (2 ^ 31) ∧
      claim (crowd (2 ^ 31 - 1)) "a" = "A_-2147483648" ∧
      claim? true (crowd (2 ^ 31 - 1)) "a" = none := by
  have hlast : 2 ^ 31 - 1 < 2 ^ 31 := by decide
  have hleast := isLeast_crowd (2 ^ 31 - 1)
  have hfirst := firstFree_crowd hlast
  have hnumber : candidate "A" (2 ^ 31 - 1 + 1) = "A_-2147483648" := by decide +kernel
  rw [← identifier_a] at hleast hfirst hnumber
  refine ⟨?_, hleast, ?_, ?_⟩
  · exact idents_fieldsFrom _ (fun _ => identifier_of_mem_crowd) (nodup_crowd hlast)
      fun _ _ => List.not_mem_nil
  · rw [claim_eq_candidate hfirst (by decide), hnumber]
  · rw [claim?_eq_ite (hfirst.before 0 (Nat.le_refl 0) (by decide)) hleast, if_neg (by decide)]

end Naming

end JsonShape
