import Mathlib.Data.List.TakeWhile
import JsonShape.Proofs.Token.Spelling

/-!
# How a text is scanned

What the reader of lexemes does, without the reader: it takes a spelling that the text behind it
does not extend, or it meets a text that no spelling begins.

* `readLexeme_eq_ok_iff` — what is read is a spelling, up to where it ends.
* `Broken` — the beginnings of lexemes that cannot go on, and `readLexeme_eq_error_iff`: they are
  what the reader fails at.
* `Scan` — a text laid out as blanks and spellings, up to its end or the first broken lexeme, and
  `exists_scan`: so every text is cut into tokens.
-/

namespace JsonShape

namespace Token

/-! ## What a lexeme is read from -/

theorem stops_dropWhile (p : Char → Bool) (cs : List Char) : Stops p (cs.dropWhile p) := by
  intro c hc
  have hhead := List.head?_dropWhile_not p cs
  rw [Option.mem_def.1 hc] at hhead
  exact hhead

/-- A string ends at the first quote that no backslash takes along. -/
theorem isBody_of_stringBody? {cs body rest : List Char} (h : stringBody? cs = some (body, rest)) :
    IsBody body ∧ cs = body ++ '"' :: rest := by
  fun_induction stringBody? cs generalizing body with
  | case1 => simp at h
  | case2 cs =>
    simp only [Option.some.injEq, Prod.mk.injEq] at h
    obtain ⟨rfl, rfl⟩ := h
    exact ⟨.nil, rfl⟩
  | case3 => simp at h
  | case4 c cs ih =>
    obtain ⟨⟨own, after⟩, hown, heq⟩ := Option.map_eq_some_iff.1 h
    simp only [Prod.mk.injEq] at heq
    obtain ⟨rfl, rfl⟩ := heq
    obtain ⟨hbody, rfl⟩ := ih hown
    exact ⟨.escape c hbody, rfl⟩
  | case5 c cs hquote hlone hescape ih =>
    obtain ⟨⟨own, after⟩, hown, heq⟩ := Option.map_eq_some_iff.1 h
    simp only [Prod.mk.injEq] at heq
    obtain ⟨rfl, rfl⟩ := heq
    obtain ⟨hbody, rfl⟩ := ih hown
    refine ⟨.plain hquote ?_ hbody, rfl⟩
    intro hbackslash
    cases own with
    | nil => exact hescape _ _ hbackslash rfl
    | cons d own => exact hescape _ _ hbackslash rfl

/-- A string that has not ended: a body, or a body and a backslash with nothing to take along. -/
def IsOpenBody (cs : List Char) : Prop := IsBody cs ∨ ∃ body, IsBody body ∧ cs = body ++ ['\\']

theorem IsOpenBody.plain {c : Char} {cs : List Char} (hquote : c ≠ '"') (hbackslash : c ≠ '\\')
    (h : IsOpenBody cs) : IsOpenBody (c :: cs) := by
  rcases h with h | ⟨body, h, rfl⟩
  · exact Or.inl (.plain hquote hbackslash h)
  · exact Or.inr ⟨c :: body, .plain hquote hbackslash h, rfl⟩

theorem IsOpenBody.escape {cs : List Char} (c : Char) (h : IsOpenBody cs) :
    IsOpenBody ('\\' :: c :: cs) := by
  rcases h with h | ⟨body, h, rfl⟩
  · exact Or.inl (.escape c h)
  · exact Or.inr ⟨'\\' :: c :: body, .escape c h, rfl⟩

theorem stringBody?_isBody {body : List Char} (h : IsBody body) (rest : List Char)
    (hrest : stringBody? rest = none) : stringBody? (body ++ rest) = none := by
  induction h with
  | nil => exact hrest
  | @plain c cs quote backslash _ ih =>
    rw [List.cons_append, stringBody?, ih]
    · rfl
    · exact quote
    · exact fun hc _ => backslash hc
    · exact fun _ _ hc _ => backslash hc
  | escape c _ ih =>
    rw [List.cons_append, List.cons_append, stringBody?, ih]
    rfl

/-- A string has no end exactly if it has not ended. -/
theorem stringBody?_eq_none_iff {cs : List Char} : stringBody? cs = none ↔ IsOpenBody cs := by
  constructor
  · intro h
    fun_induction stringBody? cs with
    | case1 => exact Or.inl .nil
    | case2 => cases h
    | case3 => exact Or.inr ⟨[], .nil, rfl⟩
    | case4 c cs ih => exact (ih (Option.map_eq_none_iff.1 h)).escape c
    | case5 c cs hquote hlone hescape ih =>
      refine (ih (Option.map_eq_none_iff.1 h)).plain hquote ?_
      intro hbackslash
      cases cs with
      | nil => exact hlone hbackslash rfl
      | cons d cs => exact hescape d cs hbackslash rfl
  · rintro (h | ⟨body, h, rfl⟩)
    · simpa using stringBody?_isBody h [] rfl
    · exact stringBody?_isBody h ['\\'] rfl

/-- A text begins with a run of a class. -/
theorem exists_run (p : Char → Bool) (cs : List Char) :
    ∃ run rest, cs = run ++ rest ∧ (∀ c ∈ run, p c = true) ∧ Stops p rest :=
  ⟨cs.takeWhile p, cs.dropWhile p, List.takeWhile_append_dropWhile.symm,
    fun _ hc => List.mem_takeWhile_imp hc, stops_dropWhile p cs⟩

/-- Signs, digits and a tail that does not begin with a digit are written as a number. -/
theorem Spelling.number {signs digits tail : List Char} (hsigns : ∀ c ∈ signs, isSign c = true)
    (hdigits : ∀ c ∈ digits, isDigit c = true) (hne : digits ≠ []) (hmark : Stops isDigit tail)
    (htail : ∀ c ∈ tail, isNumberTail c = true) :
    Spelling (if tail.isEmpty then .integer else .float) (signs ++ (digits ++ tail))
      (signs ++ (digits ++ tail)) := by
  cases tail with
  | nil =>
    rw [List.append_nil]
    exact .integer hsigns hdigits hne
  | cons mark tail => exact .float hsigns hdigits hne (hmark mark rfl) htail

theorem readNumber_signs {signs rest : List Char} (hsigns : ∀ c ∈ signs, isSign c = true)
    (hsign : Stops isSign rest) (hdigit : Stops isDigit rest) :
    readNumber (signs ++ rest) = .error ⟨.digitExpected, signs⟩ := by
  have hdigits : rest.takeWhile isDigit = [] := by
    have hnone : ∀ c ∈ ([] : List Char), isDigit c = true := by simp
    have htake := takeWhile_run hnone hdigit
    rwa [List.nil_append] at htake
  simp only [readNumber, takeWhile_run hsigns hsign, dropWhile_run hsigns hsign, hdigits]
  rfl

/-- A number is read up to where its tail ends, and it has digits; or the signs of the text have no
digit behind them. -/
theorem readNumber_cases (cs : List Char) :
    (∃ l whole, readNumber cs = .ok l ∧ cs = whole ++ l.rest ∧ Spelling l.kind l.text whole ∧
      Stops isNumberTail l.rest) ∨
      ∃ signs rest, readNumber cs = .error ⟨.digitExpected, signs⟩ ∧ cs = signs ++ rest ∧
        (∀ c ∈ signs, isSign c = true) ∧ Stops isSign rest ∧ Stops isDigit rest := by
  obtain ⟨signs, unsigned, rfl, hsigns, hunsigned⟩ := exists_run isSign cs
  obtain ⟨digits, others, rfl, hdigits, hothers⟩ := exists_run isDigit unsigned
  obtain ⟨tail, rest, rfl, htail, hrest⟩ := exists_run isNumberTail others
  by_cases hne : digits = []
  · subst hne
    exact Or.inr ⟨signs, tail ++ rest, readNumber_signs hsigns hunsigned hothers, rfl, hsigns,
      hunsigned, hothers⟩
  · have hmark : Stops isDigit tail := by
      intro c hc
      exact hothers c (List.mem_head?_append_of_mem_head? hc)
    refine Or.inl ⟨_, signs ++ (digits ++ tail),
      readNumber_append hsigns hdigits hne hmark htail hrest, ?_, ?_, hrest⟩
    · simp only [List.append_assoc]
    · rw [List.append_assoc]
      exact .number hsigns hdigits hne hmark htail

/-- The common start of a word and a text begins both, and they differ behind it. -/
theorem commonStart_spec (word cs : List Char) :
    ∃ missing, word = (commonStart word cs).1 ++ missing ∧
      cs = (commonStart word cs).1 ++ (commonStart word cs).2 ∧
        ∀ w ∈ missing.head?, ∀ d ∈ (commonStart word cs).2.head?, d ≠ w := by
  fun_induction commonStart word cs with
  | case1 w word cs shared rest hs ih =>
    obtain ⟨missing, hword, hcs, hdiffer⟩ := ih
    rw [hs] at hword hcs hdiffer
    exact ⟨missing, by rw [List.cons_append, ← hword], by rw [List.cons_append, ← hcs], hdiffer⟩
  | case2 w word c cs hne =>
    refine ⟨w :: word, rfl, rfl, ?_⟩
    rintro _ ⟨⟩ _ ⟨⟩
    exact Ne.symm hne
  | case3 word cs hno =>
    refine ⟨word, rfl, rfl, ?_⟩
    intro w hw d hd
    obtain ⟨others, rfl⟩ := List.head?_eq_some_iff.1 hw
    obtain ⟨rest, rfl⟩ := List.head?_eq_some_iff.1 hd
    exact absurd rfl (hno w others d rest rfl)

/-! ## Where no lexeme can be read -/

/-- A beginning of a lexeme, the text behind it, and why the lexeme cannot go on there. -/
inductive Broken : Fault → List Char → List Char → Prop where
  /-- A string in a text that ends before the string does. -/
  | string {cs : List Char} (h : IsOpenBody cs) : Broken .unterminatedString ('"' :: cs) []
  /-- Signs with neither a sign nor a digit behind them. -/
  | signs {signs rest : List Char} (hsigns : ∀ c ∈ signs, isSign c = true) (hne : signs ≠ [])
      (hsign : Stops isSign rest) (hdigit : Stops isDigit rest) : Broken .digitExpected signs rest
  /-- A word in a text that ends before the word does. -/
  | cut {word : Keyword} {shared missing : List Char}
      (hword : word.spelling.toList = shared ++ missing) (hshared : shared ≠ [])
      (hmissing : missing ≠ []) : Broken (.cutWord word) shared []
  /-- A word with another letter than its next one behind it. -/
  | wrong {word : Keyword} {shared missing : List Char} {w d : Char} {rest : List Char}
      (hword : word.spelling.toList = shared ++ w :: missing) (hshared : shared ≠ [])
      (hd : d ≠ w) : Broken (.wrongWord word) shared (d :: rest)
  /-- A character with which no lexeme begins. -/
  | character {c : Char} {rest : List Char} (hpunctuation : Kind.ofPunctuation? c = none)
      (hquote : c ≠ '"') (hnumber : (isSign c || isDigit c) = false)
      (hword : Keyword.ofInitial? c = none) : Broken (.unexpectedCharacter c) [] (c :: rest)

/-- What the character behind a broken lexeme is matters, and nothing after it. -/
theorem Broken.of_cons {cause : Fault} {read rest : List Char} {d : Char}
    (h : Broken cause read (d :: rest)) (more : List Char) : Broken cause read (d :: more) := by
  cases h with
  | signs hsigns hne hsign hdigit =>
    exact .signs hsigns hne (.cons (hsign d rfl) more) (.cons (hdigit d rfl) more)
  | wrong hword hshared hd => exact .wrong hword hshared hd
  | character hpunctuation hquote hnumber hword =>
    exact .character hpunctuation hquote hnumber hword

/-- The first letter of a word announces it, and nothing else. -/
theorem ofInitial?_eq_some {c : Char} {word : Keyword} (h : Keyword.ofInitial? c = some word) :
    ∃ letters, word.spelling.toList = c :: letters ∧ Kind.ofPunctuation? c = none ∧ c ≠ '"' ∧
      (isSign c || isDigit c) = false := by
  unfold Keyword.ofInitial? at h
  split_ifs at h with hn ht hf
  · cases h
    subst hn
    exact ⟨_, spelling_nullWord, by decide⟩
  · cases h
    subst ht
    exact ⟨_, spelling_trueWord, by decide⟩
  · cases h
    subst hf
    exact ⟨_, spelling_falseWord, by decide⟩

theorem readKeyword_cases {word : Keyword} {c : Char} {cs : List Char}
    (hinitial : Keyword.ofInitial? c = some word) :
    (∃ rest, readKeyword word (c :: cs) = .ok ⟨.ofKeyword word, word.spelling.toList, rest⟩ ∧
      c :: cs = word.spelling.toList ++ rest) ∨
      ∃ failure rest, readKeyword word (c :: cs) = .error failure ∧
        c :: cs = failure.read ++ rest ∧ Broken failure.cause failure.read rest := by
  obtain ⟨letters, hletters, -⟩ := ofInitial?_eq_some hinitial
  obtain ⟨missing, hword, hcs, hdiffer⟩ := commonStart_spec word.spelling.toList (c :: cs)
  have hshared : (commonStart word.spelling.toList (c :: cs)).1 ≠ [] := by
    rw [hletters, commonStart, if_pos rfl]
    exact List.cons_ne_nil _ _
  generalize hcommon : commonStart word.spelling.toList (c :: cs) = common at *
  obtain ⟨shared, rest⟩ := common
  simp only at hword hcs hdiffer hshared
  rw [readKeyword, hcommon]
  by_cases hwhole : shared = word.spelling.toList
  · exact Or.inl ⟨rest, by simp [hwhole], by rw [hcs, hwhole]⟩
  · have hmissing : missing ≠ [] := by
      rintro rfl
      rw [List.append_nil] at hword
      exact hwhole hword.symm
    refine Or.inr ?_
    cases rest with
    | nil => exact ⟨⟨.cutWord word, shared⟩, [], by simp [hwhole], hcs, .cut hword hshared hmissing⟩
    | cons d rest =>
      obtain ⟨w, others, rfl⟩ := List.exists_cons_of_ne_nil hmissing
      exact ⟨⟨.wrongWord word, shared⟩, d :: rest, by simp [hwhole], hcs,
        .wrong hword hshared (hdiffer w rfl d rfl)⟩

/-- The reader takes a spelling from the start of a text, or a broken lexeme stands there. -/
theorem readLexeme_cases (c : Char) (cs : List Char) :
    (∃ l whole, readLexeme c cs = .ok l ∧ c :: cs = whole ++ l.rest ∧
      Spelling l.kind l.text whole ∧ l.kind.EndsAt l.rest) ∨
      ∃ failure rest, readLexeme c cs = .error failure ∧ c :: cs = failure.read ++ rest ∧
        Broken failure.cause failure.read rest := by
  rw [readLexeme]
  cases hpunctuation : Kind.ofPunctuation? c with
  | some kind =>
    obtain ⟨-, hinteger, hfloat⟩ := kind_of_ofPunctuation? hpunctuation
    refine Or.inl ⟨_, [c], rfl, rfl, .punctuation hpunctuation, ?_⟩
    rintro (h | h)
    · exact absurd h hinteger
    · exact absurd h hfloat
  | none =>
    simp only
    split_ifs with hquote hnumber
    · subst hquote
      rw [readString]
      cases hbody : stringBody? cs with
      | none =>
        exact Or.inr ⟨_, [], rfl, (List.append_nil _).symm,
          .string (stringBody?_eq_none_iff.1 hbody)⟩
      | some pair =>
        obtain ⟨body, rest⟩ := pair
        obtain ⟨hown, rfl⟩ := isBody_of_stringBody? hbody
        refine Or.inl ⟨_, _, rfl, ?_, .string hown, ?_⟩
        · simp
        · rintro (h | h) <;> cases h
    · rcases readNumber_cases (c :: cs) with
        ⟨l, whole, hread, hsplit, hspelling, hstops⟩ | ⟨signs, rest, hread, hsplit, hsigns, hs, hd⟩
      · exact Or.inl ⟨l, whole, hread, hsplit, hspelling, fun _ => hstops⟩
      · refine Or.inr ⟨_, rest, hread, hsplit, .signs hsigns ?_ hs hd⟩
        -- The first character is a sign, since it is no digit where a digit is missing.
        rintro rfl
        rw [List.nil_append] at hsplit
        rw [← hsplit] at hs hd
        simp [hs c rfl, hd c rfl] at hnumber
    · cases hinitial : Keyword.ofInitial? c with
      | none =>
        exact Or.inr ⟨_, c :: cs, rfl, rfl,
          .character hpunctuation hquote (Bool.eq_false_iff.2 hnumber) hinitial⟩
      | some word =>
        rcases readKeyword_cases hinitial with ⟨rest, hread, hsplit⟩ | hfailure
        · refine Or.inl ⟨_, _, hread, hsplit, .word word, ?_⟩
          rintro (h | h) <;> cases word <;> cases h
        · exact Or.inr hfailure

/-- What is read is a spelling, and the text behind it does not extend it. -/
theorem readLexeme_eq_ok_iff {c : Char} {cs : List Char} {l : Lexeme} :
    readLexeme c cs = .ok l ↔
      ∃ whole, c :: cs = whole ++ l.rest ∧ Spelling l.kind l.text whole ∧ l.kind.EndsAt l.rest := by
  constructor
  · intro h
    rcases readLexeme_cases c cs with ⟨own, whole, hread, hown⟩ | ⟨failure, rest, hread, -⟩
    · obtain rfl := Except.ok.inj (h.symm.trans hread)
      exact ⟨whole, hown⟩
    · rw [h] at hread
      cases hread
  · rintro ⟨whole, hsplit, hspelling, hends⟩
    obtain ⟨d, ds, rfl, -⟩ := hspelling.exists_cons
    obtain ⟨rfl, rfl⟩ := List.cons.inj hsplit
    exact readLexeme_append hspelling hends

theorem commonStart_shared {shared missing rest : List Char}
    (hdiffer : ∀ w ∈ missing.head?, ∀ d ∈ rest.head?, d ≠ w) :
    commonStart (shared ++ missing) (shared ++ rest) = (shared, rest) := by
  induction shared with
  | nil =>
    cases missing with
    | nil =>
      rw [List.nil_append, List.nil_append, commonStart]
      simp
    | cons w missing =>
      cases rest with
      | nil =>
        rw [List.nil_append, List.append_nil, commonStart]
        simp
      | cons d rest =>
        rw [List.nil_append, List.nil_append, commonStart, if_neg (hdiffer w rfl d rfl).symm]
  | cons c shared ih => rw [List.cons_append, List.cons_append, commonStart, if_pos rfl, ih]

theorem readKeyword_shared {word : Keyword} {shared missing rest : List Char}
    (hword : word.spelling.toList = shared ++ missing) (hmissing : missing ≠ [])
    (hdiffer : ∀ w ∈ missing.head?, ∀ d ∈ rest.head?, d ≠ w) :
    readKeyword word (shared ++ rest) =
      .error ⟨if rest.isEmpty then .cutWord word else .wrongWord word, shared⟩ := by
  have hne : shared ≠ shared ++ missing := by
    intro h
    exact hmissing (List.append_right_eq_self.1 h.symm)
  rw [readKeyword, hword, commonStart_shared hdiffer]
  simp only [if_neg hne]
  split <;> rfl

/-- At a broken lexeme nothing is read. -/
theorem Broken.readLexeme_eq {cause : Fault} {read rest cs : List Char} {c : Char}
    (h : Broken cause read rest) (hsplit : c :: cs = read ++ rest) :
    readLexeme c cs = .error ⟨cause, read⟩ := by
  cases h with
  | string h =>
    rw [List.append_nil] at hsplit
    obtain ⟨rfl, rfl⟩ := List.cons.inj hsplit
    rw [readLexeme]
    simp [Kind.ofPunctuation?, readString, stringBody?_eq_none_iff.2 h]
  | signs hsigns hne hsign hdigit =>
    obtain ⟨sign, signs, rfl⟩ := List.exists_cons_of_ne_nil hne
    rw [List.cons_append] at hsplit
    obtain ⟨rfl, rfl⟩ := List.cons.inj hsplit
    have hfirst : (isSign c || isDigit c) = true := by
      rw [hsigns c List.mem_cons_self, Bool.true_or]
    rw [readLexeme_number hfirst, ← List.cons_append]
    exact readNumber_signs hsigns hsign hdigit
  | cut hword hshared hmissing =>
    obtain ⟨letter, shared, rfl⟩ := List.exists_cons_of_ne_nil hshared
    rw [List.cons_append] at hsplit
    obtain ⟨rfl, rfl⟩ := List.cons.inj hsplit
    rw [readLexeme_word hword.symm, ← List.cons_append,
      readKeyword_shared hword hmissing (fun w _ d hd => by cases hd)]
    rfl
  | wrong hword hshared hd =>
    obtain ⟨letter, shared, rfl⟩ := List.exists_cons_of_ne_nil hshared
    rw [List.cons_append] at hsplit
    obtain ⟨rfl, rfl⟩ := List.cons.inj hsplit
    rw [readLexeme_word hword.symm, ← List.cons_append,
      readKeyword_shared hword (List.cons_ne_nil _ _)]
    · rfl
    · rintro _ ⟨⟩ _ ⟨⟩
      exact hd
  | character hpunctuation hquote hnumber hword =>
    obtain ⟨rfl, rfl⟩ := List.cons.inj hsplit
    simp [readLexeme, hpunctuation, hquote, hnumber, hword]

/-- The reader fails exactly at a broken lexeme. -/
theorem readLexeme_eq_error_iff {c : Char} {cs : List Char} {failure : Failure} :
    readLexeme c cs = .error failure ↔
      ∃ rest, c :: cs = failure.read ++ rest ∧ Broken failure.cause failure.read rest := by
  constructor
  · intro h
    rcases readLexeme_cases c cs with ⟨l, whole, hread, -⟩ | ⟨own, rest, hread, hown⟩
    · rw [h] at hread
      cases hread
    · obtain rfl := Except.error.inj (h.symm.trans hread)
      exact ⟨rest, hown⟩
  · rintro ⟨rest, hsplit, hbroken⟩
    exact hbroken.readLexeme_eq hsplit

/-- What a number is written with: signs, digits, and a tail that makes it a float unless empty. -/
theorem Spelling.exists_number {kind : Kind} {text whole : List Char}
    (h : Spelling kind text whole) (hkind : kind = .integer ∨ kind = .float) :
    ∃ signs digits tail, whole = signs ++ (digits ++ tail) ∧ (∀ c ∈ signs, isSign c = true) ∧
      (∀ c ∈ digits, isDigit c = true) ∧ digits ≠ [] ∧ Stops isDigit tail ∧
        (∀ c ∈ tail, isNumberTail c = true) ∧ (kind = .float ↔ tail ≠ []) := by
  cases h with
  | punctuation h =>
    obtain ⟨-, hinteger, hfloat⟩ := kind_of_ofPunctuation? h
    exact (hkind.elim hinteger hfloat).elim
  | word word => cases word <;> simp [Kind.ofKeyword] at hkind
  | string h => simp at hkind
  | @integer signs digits hsigns hdigits hne =>
    exact ⟨signs, digits, [], by rw [List.append_nil], hsigns, hdigits, hne, .nil,
      fun c hc => absurd hc List.not_mem_nil, by simp⟩
  | @float signs digits tail mark hsigns hdigits hne hmark htail =>
    exact ⟨signs, digits, mark :: tail, rfl, hsigns, hdigits, hne, .cons hmark tail, htail, by simp⟩

/-- A spelling is a beginning that can be read, whatever follows. -/
theorem Spelling.exists_readLexeme {kind : Kind} {text cs : List Char} {c : Char}
    (h : Spelling kind text (c :: cs)) (rest : List Char) :
    ∃ l, readLexeme c (cs ++ rest) = .ok l := by
  by_cases hnumber : kind = .integer ∨ kind = .float
  · obtain ⟨signs, digits, tail, heq, hsigns, hdigits, hne, -⟩ := h.exists_number hnumber
    rw [readLexeme_number (isSign_or_isDigit_head hsigns hdigits hne heq), ← List.cons_append, heq]
    rcases readNumber_cases (signs ++ (digits ++ tail) ++ rest) with
      ⟨l, -, hread, -⟩ | ⟨others, behind, -, hsplit, hothers, hsign, hdigit⟩
    · exact ⟨l, hread⟩
    · -- The signs of the text are those of the number, so that a digit stands behind them.
      exfalso
      obtain ⟨d, ds, rfl⟩ := List.exists_cons_of_ne_nil hne
      have hd : isDigit d = true := hdigits d List.mem_cons_self
      have hstops : Stops isSign (d :: (ds ++ (tail ++ rest))) := .cons (isSign_of_isDigit hd) _
      have hdrop := dropWhile_run hothers hsign
      rw [← hsplit, List.append_assoc, List.append_assoc, List.cons_append,
        dropWhile_run hsigns hstops] at hdrop
      rw [← hdrop] at hdigit
      rw [hdigit d rfl] at hd
      cases hd
  · exact ⟨_, readLexeme_append h fun hkind => absurd hkind hnumber⟩

/-! ## The layout of a text -/

/-- A text that begins at byte `offset`, laid out as blanks and spellings, each with its token, up
to the byte `edge`; there the text ends, or a broken lexeme begins.  `last` is the token for it. -/
inductive Scan : Nat → List Char → List Token → Nat → Token → Prop where
  /-- Blanks, and the end of the text. -/
  | finish {offset : Nat} {blank : List Char} (hblank : ∀ c ∈ blank, isBlank c = true) :
      Scan offset blank [] (offset + byteLength blank) (atEnd (offset + byteLength blank))
  /-- Blanks, and a broken lexeme. -/
  | stop {offset : Nat} {blank read rest : List Char} {cause : Fault}
      (hblank : ∀ c ∈ blank, isBlank c = true) (hstart : Stops isBlank (read ++ rest))
      (hbroken : Broken cause read rest) :
      Scan offset (blank ++ (read ++ rest)) [] (offset + byteLength blank)
        (atFault cause (offset + byteLength blank + byteLength read))
  /-- Blanks, a spelling that the text behind it does not extend, and the rest. -/
  | token {offset edge : Nat} {blank text whole rest : List Char} {kind : Kind}
      {front : List Token} {last : Token} (hblank : ∀ c ∈ blank, isBlank c = true)
      (hspelling : Spelling kind text whole) (hends : kind.EndsAt rest)
      (hrest : Scan (offset + byteLength blank + byteLength whole) rest front edge last) :
      Scan offset (blank ++ (whole ++ rest))
        ((⟨kind, text, rest⟩ : Lexeme).token (offset + byteLength blank) :: front) edge last

/-- Every text has a layout, and its tokens are those of the layout. -/
theorem exists_scan (offset : Nat) (cs : List Char) :
    ∃ front edge last, tokensFrom offset cs = front ++ [last] ∧ Scan offset cs front edge last := by
  induction hlength : cs.length using Nat.strong_induction_on generalizing offset cs with
  | _ length ih =>
    obtain ⟨blank, others, rfl, hblank, hstops⟩ := exists_run isBlank cs
    have htake := takeWhile_run hblank hstops
    have hdrop := dropWhile_run hblank hstops
    cases others with
    | nil =>
      refine ⟨[], offset + byteLength blank, atEnd (offset + byteLength blank), ?_, ?_⟩
      · rw [tokensFrom_nil hdrop, htake]
        rfl
      · rw [List.append_nil]
        exact .finish hblank
    | cons c rest =>
      cases hread : readLexeme c rest with
      | error failure =>
        obtain ⟨behind, hsplit, hbroken⟩ := readLexeme_eq_error_iff.1 hread
        refine ⟨[], offset + byteLength blank,
          atFault failure.cause (offset + byteLength blank + byteLength failure.read), ?_, ?_⟩
        · rw [tokensFrom_error hdrop hread, htake]
          rfl
        · rw [hsplit] at hstops ⊢
          exact .stop hblank hstops hbroken
      | ok l =>
        obtain ⟨whole, hsplit, hspelling, hends⟩ := readLexeme_eq_ok_iff.1 hread
        have hshorter : l.rest.length < length := hlength ▸ length_rest_lt hdrop hread
        obtain ⟨front, edge, last, htokens, hscan⟩ :=
          ih _ hshorter (offset + byteLength blank + byteLength whole) l.rest rfl
        have hstop : l.stopFrom (offset + byteLength blank) =
            offset + byteLength blank + byteLength whole := by
          rw [hspelling.byteLength_eq, Lexeme.stopFrom]
          omega
        refine ⟨l.token (offset + byteLength blank) :: front, edge, last, ?_, ?_⟩
        · rw [tokensFrom_ok hdrop hread, htake, hstop, htokens, List.cons_append]
        · rw [hsplit]
          exact .token hblank hspelling hends hscan

end Token

end JsonShape
