import JsonShape.Proofs.Checked.Cursor
import JsonShape.Proofs.Naming.Legality

/-!
# Names by checked access

An identifier is made of a text by replacing one letter of it, which is found by its offset.  The
range that is replaced always begins and ends between two characters.  A number is put behind a name
that is taken; it has 32 bits and is counted up with each try, which is the one sum that can overflow.
Whether sums are checked is a choice: if they are not, the greatest number is followed by the least.

* `replaceRange?` — a text with a part of it replaced, the offsets checked.
* `identifier?_eq` — the names of single keys.
* `search?` — the search for a free name, its sums checked.
* `NumbersFit`, `fieldsFrom?_eq_some_iff` — the names of the fields of a struct, as far as the numbers
  behind them do not overflow.
-/

namespace JsonShape

namespace Naming

open Token

/-! ## Replacing a part of a text -/

/-- A text with another one in the place of what stands between two bytes. -/
def replaceRange? (start stop : Nat) (part cs : List Char) : Option (List Char) := do
  let (before, rest) ← splitBytes? start cs
  let length ← minus? stop start
  let (_, after) ← splitBytes? length rest
  return before ++ part ++ after

theorem replaceRange?_append (before old part after : List Char) :
    replaceRange? (byteLength before) (byteLength before + byteLength old) part
      (before ++ (old ++ after)) = some (before ++ part ++ after) := by
  simp [replaceRange?, splitBytes?_append, minus?_add_left]

/-! ## Identifiers -/

/-- The first letter of a text that begins at byte `offset`, and its offset. -/
def letter? (offset : Nat) : List Char → Option (Nat × Char)
  | [] => none
  | c :: rest =>
    if c ≠ '_' && isStart c then some (offset, c) else letter? (offset + c.utf8Size) rest

/-- Writes the letter at an offset in upper case if it is in lower case. -/
def raise? (cs : List Char) : Option (Nat × Char) → Option (List Char)
  | none => some cs
  | some (offset, c) =>
    if Unicode.isLowercase c then
      replaceRange? offset (offset + c.utf8Size) (Unicode.upper c) cs
    else some cs

/-- The exported identifier for a text. -/
def identifier? (text : String) : Option String :=
  let legal := legalize text.toList
  (raise? legal (letter? 0 legal)).map fun exported =>
    .ofList (if isReserved (.ofList legal) then '_' :: exported else exported)

theorem isLetter_eq (c : Char) : (c ≠ '_' && isStart c) = Unicode.isLetter c := by
  by_cases h : c = '_'
  · subst h
    simp [isLetter_underscore]
  · simp [isStart, h]

/-- The first letter of the second part of a text is raised where it stands. -/
theorem raise?_eq (before cs : List Char) :
    raise? (before ++ cs) (letter? (byteLength before) cs) = some (before ++ capitalize cs) := by
  induction cs generalizing before with
  | nil => simp [letter?, raise?, capitalize]
  | cons c rest ih =>
    rw [letter?, isLetter_eq, capitalize]
    cases hletter : Unicode.isLetter c with
    | true =>
      have hreplace := replaceRange?_append before [c] (Unicode.upper c) rest
      cases hlower : Unicode.isLowercase c with
      | true => simpa [raise?, hlower, byteLength] using hreplace
      | false => simp [raise?, hlower]
    | false =>
      have hrest := ih (before ++ [c])
      simpa [byteLength_append, byteLength] using hrest

/-- A replacement is never out of place, and the identifier is that of the text. -/
theorem identifier?_eq (text : String) : identifier? text = some (identifier text) := by
  have hraise := raise?_eq [] (legalize text.toList)
  simp only [byteLength, List.nil_append] at hraise
  simp [identifier?, identifier, hraise]

/-! ## The search for a free name -/

/-- A name that is not taken: as long as `ident` is, the next number is put behind the name instead.
That number is counted up at once, which must not overflow. -/
def search? (taken : List String) (name ident : String) (suffix : Int32) : Option String :=
  if ident ∈ taken then
    if suffix = Int32.maxValue then none
    else search? taken name (numbered name suffix.toInt) (suffix + 1)
  else some ident
termination_by (Int32.maxValue.toInt - suffix.toInt).toNat
decreasing_by
  rename_i hne
  have hlast : suffix.toInt ≠ 2 ^ 31 - 1 := fun heq => hne (Int32.toInt_inj.1 heq)
  have hlow := suffix.le_toInt
  have hhigh := suffix.toInt_lt
  have hmax : Int32.maxValue.toInt = 2 ^ 31 - 1 := rfl
  have hsucc : (suffix + 1).toInt = suffix.toInt + 1 := by
    rw [Int32.toInt_add, Int32.toInt_one]
    exact Int.bmod_eq_of_le (by omega) (by omega)
  omega

/-- A try that is free is found at once. -/
theorem some_candidate_eq_iff {taken : List String} {name ident : String} {k limit : Nat}
    (hk : k < limit) (hfree : candidate name k ∉ taken) :
    some (candidate name k) = some ident ↔
      ∃ i < limit, FirstFree taken name k i ∧ candidate name i = ident := by
  rw [Option.some.injEq]
  constructor
  · intro hident
    exact ⟨k, hk, (firstFree_self_iff hfree).2 rfl, hident⟩
  · rintro ⟨i, -, hfirst, hident⟩
    obtain rfl := (firstFree_self_iff hfree).1 hfirst
    exact hident

/-- The search comes as far as the numbers go, and breaks off where they overflow. -/
theorem search?_eq_some_iff {taken : List String} {name ident : String} {k : Nat}
    (hk : k < 2 ^ 31 - 1) :
    search? taken name (candidate name k) (.ofNat (k + 1)) = some ident ↔
      ∃ i < 2 ^ 31 - 1, FirstFree taken name k i ∧ candidate name i = ident := by
  -- The induction is on how many numbers are left.
  obtain ⟨left, hleft⟩ := Nat.exists_eq_add_of_lt hk
  induction left generalizing k with
  | zero =>
    obtain rfl : k = 2 ^ 31 - 2 := by omega
    have hmax : Int32.ofNat (2 ^ 31 - 2 + 1) = Int32.maxValue := rfl
    rw [search?, if_pos hmax]
    by_cases htaken : candidate name (2 ^ 31 - 2) ∈ taken
    · rw [if_pos htaken]
      refine iff_of_false nofun ?_
      rintro ⟨i, hi, hfirst, -⟩
      have hle := ((firstFree_succ_iff htaken).1 hfirst).le
      omega
    · rw [if_neg htaken, some_candidate_eq_iff hk htaken]
  | succ left ih =>
    have hne : Int32.ofNat (k + 1) ≠ Int32.maxValue := by
      intro hmax
      have hvalue := congrArg Int32.toInt hmax
      rw [Int32.toInt_ofNat_of_lt (by omega)] at hvalue
      have hlast : Int32.maxValue.toInt = 2 ^ 31 - 1 := rfl
      omega
    have hsucc : Int32.ofNat (k + 1) + 1 = Int32.ofNat (k + 1 + 1) := (Int32.ofNat_add _ 1).symm
    rw [search?, if_neg hne, hsucc, ← candidate_of_pos name (Nat.succ_pos k)]
    by_cases htaken : candidate name k ∈ taken
    · rw [if_pos htaken, ih (by omega) (by omega)]
      simp only [firstFree_succ_iff htaken]
    · rw [if_neg htaken, some_candidate_eq_iff hk htaken]

/-- The identifier for a key where some names are taken.  Sums that are not checked do not break the
search off. -/
def claim? (sums : Bool) (taken : List String) (key : String) : Option String :=
  (identifier? key).bind fun name =>
    if sums then search? taken name name 1 else some (claim taken key)

theorem claim?_false (taken : List String) (key : String) :
    claim? false taken key = some (claim taken key) := by
  rw [claim?, identifier?_eq]
  rfl

theorem claim?_true_eq_some_iff {taken : List String} {key ident : String} :
    claim? true taken key = some ident ↔ ∃ i < 2 ^ 31 - 1,
      FirstFree taken (identifier key) 0 i ∧ candidate (identifier key) i = ident := by
  rw [claim?, identifier?_eq, Option.bind_some, if_pos rfl]
  exact @search?_eq_some_iff taken (identifier key) ident 0 (by decide)

/-- The search does not break off if one of the tries before the overflow is free, and then the
identifier is the one without any check. -/
theorem claim?_eq_some_iff {sums : Bool} {taken : List String} {key ident : String} :
    claim? sums taken key = some ident ↔
      ident = claim taken key ∧ (sums = true → FreeBelow (2 ^ 31 - 1) taken key) := by
  cases sums with
  | false => simp [claim?_false, eq_comm]
  | true =>
    rw [claim?_true_eq_some_iff]
    constructor
    · rintro ⟨i, hi, hfirst, rfl⟩
      exact ⟨(claim_eq_candidate hfirst (by omega)).symm, fun _ => ⟨i, hi, hfirst.free⟩⟩
    · rintro ⟨rfl, hfree⟩
      obtain ⟨n, hn, hfree⟩ := hfree rfl
      obtain ⟨i, hi, hfirst⟩ := exists_firstFree hfree
      exact ⟨i, by omega, hfirst, (claim_eq_candidate hfirst (by omega)).symm⟩

/-! ## The fields of a struct -/

/-- Fields for keys in order, none named like another or like a taken name. -/
def fieldsFrom? {σ : Type} (sums : Bool) (taken : List String) :
    List (String × σ) → Option (List (Field σ))
  | [] => some []
  | (key, value) :: rest => do
    let ident ← claim? sums taken key
    let fields ← fieldsFrom? sums (taken ++ [ident]) rest
    return ⟨ident, key, value⟩ :: fields

/-- The names of some fields are found before the numbers overflow. -/
def NumbersFit {σ : Type} (taken : List String) (fields : List (Field σ)) : Prop :=
  ∀ before field after, fields = before ++ field :: after →
    FreeBelow (2 ^ 31 - 1) (taken ++ before.map Field.ident) field.key

theorem numbersFit_nil {σ : Type} (taken : List String) : NumbersFit taken ([] : List (Field σ)) := by
  intro before field after h
  simp at h

theorem numbersFit_cons_iff {σ : Type} {taken : List String} {field : Field σ}
    {rest : List (Field σ)} :
    NumbersFit taken (field :: rest) ↔
      FreeBelow (2 ^ 31 - 1) taken field.key ∧ NumbersFit (taken ++ [field.ident]) rest := by
  constructor
  · intro h
    refine ⟨by simpa using h [] field rest rfl, fun before other after hrest => ?_⟩
    simpa using h (field :: before) other after (by rw [hrest]; rfl)
  · rintro ⟨hfield, hrest⟩ before other after hcons
    cases before with
    | nil =>
      obtain ⟨rfl, -⟩ := List.cons.inj hcons
      simpa using hfield
    | cons first before =>
      obtain ⟨rfl, hafter⟩ := List.cons.inj hcons
      simpa using hrest before other after hafter

/-- Numbers overflow only in a struct with more fields than there are numbers. -/
theorem numbersFit_of_length {σ : Type} {fields : List (Field σ)} (h : fields.length < 2 ^ 31) :
    NumbersFit [] fields := by
  rintro before field after rfl
  have hcard : ([] ++ before.map Field.ident).toFinset.card ≤ before.length := by
    simpa using List.toFinset_card_le (before.map Field.ident)
  rw [List.length_append, List.length_cons] at h
  exact freeBelow_of_card_lt field.key (by decide) (by omega)

/-- No check is broken while fields are named, unless their numbers overflow. -/
theorem fieldsFrom?_eq_some_iff {σ : Type} {sums : Bool} {taken : List String}
    {entries : List (String × σ)} {fields : List (Field σ)} :
    fieldsFrom? sums taken entries = some fields ↔
      fields = fieldsFrom taken entries ∧
        (sums = true → NumbersFit taken (fieldsFrom taken entries)) := by
  induction entries generalizing taken fields with
  | nil => simp [fieldsFrom?, fieldsFrom, numbersFit_nil, eq_comm]
  | cons e rest ih =>
    obtain ⟨key, value⟩ := e
    rw [fieldsFrom, numbersFit_cons_iff]
    simp only [fieldsFrom?, Option.bind_eq_bind, Option.bind_eq_some_iff, claim?_eq_some_iff, ih,
      Option.pure_def, Option.some.injEq]
    constructor
    · rintro ⟨ident, ⟨rfl, hfree⟩, others, ⟨rfl, hfit⟩, rfl⟩
      exact ⟨rfl, fun hsums => ⟨hfree hsums, hfit hsums⟩⟩
    · rintro ⟨rfl, hfits⟩
      exact ⟨_, ⟨rfl, fun hsums => (hfits hsums).1⟩, _, ⟨rfl, fun hsums => (hfits hsums).2⟩, rfl⟩

end Naming

end JsonShape
