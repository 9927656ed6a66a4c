import Mathlib.Data.List.Basic
import JsonShape.Token.Scan

/-!
# How tokens are written

The spellings of a token, said without the reader: what characters a word, a string, a number or a
punctuation mark is written with.  A number is the only token that a text behind it can extend.

* `readLexeme_append` — a spelling is read as what it spells, up to where it ends.
* `cut_blank`, `cut_spelling`, `Cut.append` — a text is cut into the tokens of its parts.
-/

namespace JsonShape

namespace Token

/-! ## Spellings -/

/-- The body of a string: a backslash stands before another character, and a quote only there. -/
inductive IsBody : List Char → Prop where
  /-- Nothing. -/
  | nil : IsBody []
  /-- A character that stands for itself. -/
  | plain {c : Char} {cs : List Char} (quote : c ≠ '"') (backslash : c ≠ '\\') (rest : IsBody cs) :
      IsBody (c :: cs)
  /-- A backslash with the character that it takes along. -/
  | escape (c : Char) {cs : List Char} (rest : IsBody cs) : IsBody ('\\' :: c :: cs)

/-- A kind of token, its text and the characters that it is written with. -/
inductive Spelling : Kind → List Char → List Char → Prop where
  /-- A character that is a token by itself. -/
  | punctuation {c : Char} {kind : Kind} (h : Kind.ofPunctuation? c = some kind) :
      Spelling kind [c] [c]
  /-- A word. -/
  | word (word : Keyword) :
      Spelling (.ofKeyword word) word.spelling.toList word.spelling.toList
  /-- A string between its quotes. -/
  | string {body : List Char} (h : IsBody body) : Spelling .string body ('"' :: (body ++ ['"']))
  /-- Signs and digits. -/
  | integer {signs digits : List Char} (hsigns : ∀ c ∈ signs, isSign c = true)
      (hdigits : ∀ c ∈ digits, isDigit c = true) (hne : digits ≠ []) :
      Spelling .integer (signs ++ digits) (signs ++ digits)
  /-- Signs, digits and a tail that does not begin with a digit. -/
  | float {signs digits tail : List Char} {mark : Char} (hsigns : ∀ c ∈ signs, isSign c = true)
      (hdigits : ∀ c ∈ digits, isDigit c = true) (hne : digits ≠ [])
      (hmark : isDigit mark = false) (htail : ∀ c ∈ mark :: tail, isNumberTail c = true) :
      Spelling .float (signs ++ (digits ++ mark :: tail)) (signs ++ (digits ++ mark :: tail))

/-- A text does not begin with a character of a class. -/
def Stops (p : Char → Bool) (rest : List Char) : Prop := ∀ c ∈ rest.head?, p c = false

/-- A text behind a token of the given kind does not extend it. -/
def Kind.EndsAt (kind : Kind) (rest : List Char) : Prop :=
  kind = .integer ∨ kind = .float → Stops isNumberTail rest

/-! ## Maximal runs -/

variable {p : Char → Bool} {run rest : List Char}

theorem Stops.nil : Stops p [] := by
  intro c hc
  cases hc

theorem Stops.cons {c : Char} (h : p c = false) (cs : List Char) : Stops p (c :: cs) := by
  rintro d ⟨⟩
  exact h

theorem Stops.append (hrun : Stops p run) (hrest : Stops p rest) : Stops p (run ++ rest) := by
  cases run with
  | nil => exact hrest
  | cons c cs => exact hrun

theorem takeWhile_run (hrun : ∀ c ∈ run, p c = true) (hrest : Stops p rest) :
    (run ++ rest).takeWhile p = run := by
  rw [List.takeWhile_append_of_pos hrun]
  cases rest with
  | nil => exact List.append_nil run
  | cons c cs => rw [List.takeWhile_cons_of_neg (by simp [hrest c rfl]), List.append_nil]

theorem dropWhile_run (hrun : ∀ c ∈ run, p c = true) (hrest : Stops p rest) :
    (run ++ rest).dropWhile p = rest := by
  rw [List.dropWhile_append_of_pos hrun]
  cases rest with
  | nil => rfl
  | cons c cs => rw [List.dropWhile_cons_of_neg (by simp [hrest c rfl])]

/-! ## Reading a spelling -/

theorem stringBody?_append {body : List Char} (h : IsBody body) (rest : List Char) :
    stringBody? (body ++ '"' :: rest) = some (body, rest) := by
  induction h with
  | nil => rfl
  | @plain c cs quote backslash _ ih =>
    rw [List.cons_append, stringBody?, ih]
    · rfl
    · exact quote
    · exact fun hc _ => backslash hc
    · exact fun _ _ hc _ => backslash hc
  | escape c _ ih =>
    rw [List.cons_append, List.cons_append, stringBody?, ih]
    rfl

theorem isSign_of_isDigit {c : Char} (h : isDigit c = true) : isSign c = false := by
  rw [Bool.eq_false_iff]
  intro hsign
  rw [isSign, Bool.or_eq_true, decide_eq_true_iff, decide_eq_true_iff] at hsign
  rcases hsign with rfl | rfl <;> exact absurd h (by decide)

theorem isNumberTail_of_isDigit {c : Char} (h : isDigit c = true) : isNumberTail c = true := by
  rw [isNumberTail, h, Bool.or_true]

theorem readNumber_append {signs digits tail rest : List Char}
    (hsigns : ∀ c ∈ signs, isSign c = true) (hdigits : ∀ c ∈ digits, isDigit c = true)
    (hne : digits ≠ []) (hmark : Stops isDigit tail) (htail : ∀ c ∈ tail, isNumberTail c = true)
    (hrest : Stops isNumberTail rest) :
    readNumber (signs ++ (digits ++ (tail ++ rest))) =
      .ok ⟨if tail.isEmpty then .integer else .float, signs ++ digits ++ tail, rest⟩ := by
  have hunsigned : Stops isSign (digits ++ (tail ++ rest)) := by
    cases digits with
    | nil => exact absurd rfl hne
    | cons d ds => exact .cons (isSign_of_isDigit (hdigits d (List.mem_cons_self ..))) _
  have hafter : Stops isDigit (tail ++ rest) := by
    cases tail with
    | nil =>
      intro c hc
      rw [Bool.eq_false_iff]
      intro hdigit
      exact absurd (isNumberTail_of_isDigit hdigit) (by simp [hrest c hc])
    | cons mark tail => exact hmark
  simp only [readNumber, takeWhile_run hsigns hunsigned, dropWhile_run hsigns hunsigned,
    takeWhile_run hdigits hafter, dropWhile_run hdigits hafter, takeWhile_run htail hrest,
    dropWhile_run htail hrest]
  rw [if_neg (by simpa using hne)]

theorem commonStart_append (word rest : List Char) :
    commonStart word (word ++ rest) = (word, rest) := by
  induction word with
  | nil => rw [List.nil_append, commonStart]; simp
  | cons w word ih => rw [List.cons_append, commonStart, if_pos rfl, ih]

theorem readKeyword_append (word : Keyword) (rest : List Char) :
    readKeyword word (word.spelling.toList ++ rest) =
      .ok ⟨.ofKeyword word, word.spelling.toList, rest⟩ := by
  simp only [readKeyword, commonStart_append]
  rw [if_pos trivial]

theorem ne_of_isSign_or_isDigit {c d : Char} (h : (isSign c || isDigit c) = true)
    (hd : (isSign d || isDigit d) = false) : c ≠ d := by
  rintro rfl
  rw [h] at hd
  cases hd

theorem isBlank_of_isSign_or_isDigit {c : Char} (h : (isSign c || isDigit c) = true) :
    isBlank c = false := by
  have hne : ∀ d : Char, (isSign d || isDigit d) = false → c ≠ d :=
    fun d => ne_of_isSign_or_isDigit h
  rw [isBlank, decide_eq_false (hne _ rfl), decide_eq_false (hne _ rfl),
    decide_eq_false (hne _ rfl), decide_eq_false (hne _ rfl)]
  rfl

theorem ofPunctuation?_of_isSign_or_isDigit {c : Char} (h : (isSign c || isDigit c) = true) :
    Kind.ofPunctuation? c = none := by
  have hne : ∀ d : Char, (isSign d || isDigit d) = false → c ≠ d :=
    fun d => ne_of_isSign_or_isDigit h
  rw [Kind.ofPunctuation?, if_neg (hne _ rfl), if_neg (hne _ rfl), if_neg (hne _ rfl),
    if_neg (hne _ rfl), if_neg (hne _ rfl), if_neg (hne _ rfl)]

theorem readLexeme_number {c : Char} (h : (isSign c || isDigit c) = true) (cs : List Char) :
    readLexeme c cs = readNumber (c :: cs) := by
  have hquote : c ≠ '"' := ne_of_isSign_or_isDigit h rfl
  rw [readLexeme, ofPunctuation?_of_isSign_or_isDigit h]
  simp only [if_neg hquote, if_pos h]

theorem spelling_nullWord : Keyword.nullWord.spelling.toList = ['n', 'u', 'l', 'l'] := by decide

theorem spelling_trueWord : Keyword.trueWord.spelling.toList = ['t', 'r', 'u', 'e'] := by decide

theorem spelling_falseWord : Keyword.falseWord.spelling.toList = ['f', 'a', 'l', 's', 'e'] := by
  decide

/-- A word is written with its letters. -/
theorem Spelling.of_letters {word : Keyword} {letters : List Char}
    (h : word.spelling.toList = letters) : Spelling (.ofKeyword word) letters letters := by
  rw [← h]
  exact .word word

theorem readLexeme_word {word : Keyword} {c : Char} {cs : List Char}
    (h : c :: cs = word.spelling.toList) (rest : List Char) :
    readLexeme c rest = readKeyword word (c :: rest) := by
  cases word with
  | nullWord =>
    obtain ⟨rfl, -⟩ := List.cons.inj (h.trans spelling_nullWord)
    rfl
  | trueWord =>
    obtain ⟨rfl, -⟩ := List.cons.inj (h.trans spelling_trueWord)
    rfl
  | falseWord =>
    obtain ⟨rfl, -⟩ := List.cons.inj (h.trans spelling_falseWord)
    rfl

/-- A number begins with a sign or a digit. -/
theorem isSign_or_isDigit_head {signs digits tail cs : List Char} {c : Char}
    (hsigns : ∀ c ∈ signs, isSign c = true) (hdigits : ∀ c ∈ digits, isDigit c = true)
    (hne : digits ≠ []) (h : c :: cs = signs ++ (digits ++ tail)) :
    (isSign c || isDigit c) = true := by
  cases signs with
  | cons sign signs =>
    obtain ⟨rfl, -⟩ := List.cons.inj h
    rw [hsigns c (List.mem_cons_self ..), Bool.true_or]
  | nil =>
    cases digits with
    | nil => exact absurd rfl hne
    | cons digit digits =>
      obtain ⟨rfl, -⟩ := List.cons.inj h
      rw [hdigits c (List.mem_cons_self ..), Bool.or_true]

/-- A spelling is read as what it spells, up to where it ends. -/
theorem readLexeme_append {kind : Kind} {text cs rest : List Char} {c : Char}
    (h : Spelling kind text (c :: cs)) (hrest : kind.EndsAt rest) :
    readLexeme c (cs ++ rest) = .ok ⟨kind, text, rest⟩ := by
  generalize hwhole : c :: cs = whole at h
  cases h with
  | punctuation h =>
    obtain ⟨rfl, rfl⟩ := List.cons.inj hwhole
    rw [readLexeme, h]
    rfl
  | word word =>
    rw [readLexeme_word hwhole, ← List.cons_append, hwhole]
    exact readKeyword_append word rest
  | string h =>
    obtain ⟨rfl, rfl⟩ := List.cons.inj hwhole
    rw [readLexeme]
    simp [Kind.ofPunctuation?, readString, stringBody?_append h]
  | @integer signs digits hsigns hdigits hne =>
    have hstart : c :: cs = signs ++ (digits ++ []) := by rw [List.append_nil, hwhole]
    rw [readLexeme_number (isSign_or_isDigit_head hsigns hdigits hne hstart),
      ← List.cons_append, hstart, List.append_assoc, List.append_assoc,
      readNumber_append hsigns hdigits hne .nil (fun c hc => by cases hc) (hrest (Or.inl rfl)),
      List.append_nil]
    rfl
  | @float signs digits tail mark hsigns hdigits hne hmark htail =>
    rw [readLexeme_number (isSign_or_isDigit_head hsigns hdigits hne hwhole),
      ← List.cons_append, hwhole, List.append_assoc, List.append_assoc,
      readNumber_append hsigns hdigits hne (.cons hmark tail) htail (hrest (Or.inr rfl)),
      List.append_assoc]
    rfl

/-! ## The tokens of a text -/

theorem byteLength_append (xs ys : List Char) :
    byteLength (xs ++ ys) = byteLength xs + byteLength ys := by
  induction xs with
  | nil => exact (Nat.zero_add _).symm
  | cons x xs ih => rw [List.cons_append, byteLength, byteLength, ih, Nat.add_assoc]

theorem tokensFrom_nil {offset : Nat} {cs : List Char} (h : cs.dropWhile isBlank = []) :
    tokensFrom offset cs = [atEnd (offset + byteLength (cs.takeWhile isBlank))] := by
  rw [tokensFrom]
  split
  · rfl
  · rename_i hcons
    rw [h] at hcons
    cases hcons

theorem tokensFrom_ok {offset : Nat} {cs rest : List Char} {c : Char} {l : Lexeme}
    (h : cs.dropWhile isBlank = c :: rest) (hl : readLexeme c rest = .ok l) :
    tokensFrom offset cs =
      l.token (offset + byteLength (cs.takeWhile isBlank)) ::
        tokensFrom (l.stopFrom (offset + byteLength (cs.takeWhile isBlank))) l.rest := by
  rw [tokensFrom]
  split
  · rename_i hnil
    rw [h] at hnil
    cases hnil
  · rename_i d others hcons
    obtain ⟨rfl, rfl⟩ := List.cons.inj (h.symm.trans hcons)
    split
    · rename_i failure herror
      rw [hl] at herror
      cases herror
    · rename_i l' hl'
      obtain rfl := Except.ok.inj (hl.symm.trans hl')
      rfl

theorem tokensFrom_error {offset : Nat} {cs rest : List Char} {c : Char} {failure : Failure}
    (h : cs.dropWhile isBlank = c :: rest) (hl : readLexeme c rest = .error failure) :
    tokensFrom offset cs =
      [atFault failure.cause
        (offset + byteLength (cs.takeWhile isBlank) + byteLength failure.read)] := by
  rw [tokensFrom]
  split
  · rename_i hnil
    rw [h] at hnil
    cases hnil
  · rename_i d others hcons
    obtain ⟨rfl, rfl⟩ := List.cons.inj (h.symm.trans hcons)
    split
    · rename_i failure' herror
      obtain rfl := Except.error.inj (hl.symm.trans herror)
      rfl
    · rename_i l hl'
      rw [hl] at hl'
      cases hl'

/-- A spelling has a first character, and it is no blank. -/
theorem Spelling.exists_cons {kind : Kind} {text whole : List Char}
    (h : Spelling kind text whole) : ∃ c cs, whole = c :: cs ∧ isBlank c = false := by
  cases h with
  | @punctuation c _ h =>
    refine ⟨c, [], rfl, ?_⟩
    rw [Bool.eq_false_iff]
    intro hblank
    rw [isBlank, Bool.or_eq_true, Bool.or_eq_true, Bool.or_eq_true] at hblank
    simp only [decide_eq_true_iff] at hblank
    rcases hblank with ((rfl | rfl) | rfl) | rfl <;> cases h
  | word word =>
    cases word with
    | nullWord => exact ⟨'n', _, spelling_nullWord, rfl⟩
    | trueWord => exact ⟨'t', _, spelling_trueWord, rfl⟩
    | falseWord => exact ⟨'f', _, spelling_falseWord, rfl⟩
  | string h => exact ⟨'"', _, rfl, rfl⟩
  | @integer signs digits hsigns hdigits hne =>
    obtain ⟨c, cs, hcs⟩ : ∃ c cs, signs ++ digits = c :: cs :=
      List.exists_cons_of_ne_nil (List.append_ne_nil_of_right_ne_nil signs hne)
    refine ⟨c, cs, hcs, isBlank_of_isSign_or_isDigit ?_⟩
    exact isSign_or_isDigit_head hsigns hdigits hne (by rw [List.append_nil, hcs])
  | @float signs digits tail mark hsigns hdigits hne _ _ =>
    obtain ⟨c, cs, hcs⟩ : ∃ c cs, signs ++ (digits ++ mark :: tail) = c :: cs :=
      List.exists_cons_of_ne_nil (by simp)
    exact ⟨c, cs, hcs,
      isBlank_of_isSign_or_isDigit (isSign_or_isDigit_head hsigns hdigits hne hcs.symm)⟩

/-- What a punctuation mark is not. -/
theorem kind_of_ofPunctuation? {c : Char} {kind : Kind} (h : Kind.ofPunctuation? c = some kind) :
    kind ≠ .string ∧ kind ≠ .integer ∧ kind ≠ .float := by
  rw [Kind.ofPunctuation?] at h
  split_ifs at h <;> cases h <;> decide

theorem Spelling.byteLength_eq {kind : Kind} {text whole : List Char}
    (h : Spelling kind text whole) :
    byteLength whole = kind.margin + byteLength text + kind.margin := by
  cases h with
  | punctuation h =>
    have hmargin : kind.margin = 0 := by
      cases kind with
      | string => exact absurd rfl (kind_of_ofPunctuation? h).1
      | _ => rfl
    rw [hmargin, Nat.zero_add, Nat.add_zero]
  | word word => cases word <;> exact (Nat.zero_add _).symm
  | string h =>
    rw [byteLength, byteLength_append, ← Nat.add_assoc]
    rfl
  | integer | float => exact (Nat.zero_add _).symm

/-! ## Texts cut into tokens -/

/-- A part of a text that begins at byte `offset` is cut into the tokens `ts`, if `rest` follows. -/
def Cut (offset : Nat) (cs rest : List Char) (ts : List Token) : Prop :=
  tokensFrom offset (cs ++ rest) = ts ++ tokensFrom (offset + byteLength cs) rest

/-- Parts of a text are cut one after the other. -/
theorem Cut.append {offset : Nat} {xs ys rest : List Char} {ts us : List Token}
    (hxs : Cut offset xs (ys ++ rest) ts) (hys : Cut (offset + byteLength xs) ys rest us) :
    Cut offset (xs ++ ys) rest (ts ++ us) := by
  unfold Cut at hxs hys ⊢
  rw [List.append_assoc, hxs, hys, byteLength_append, List.append_assoc, Nat.add_assoc]

/-- Blanks have no tokens and only move those after them. -/
theorem cut_blank {blank : List Char} (h : ∀ c ∈ blank, isBlank c = true) (offset : Nat)
    (rest : List Char) : Cut offset blank rest [] := by
  have hdrop : (blank ++ rest).dropWhile isBlank = rest.dropWhile isBlank :=
    List.dropWhile_append_of_pos h
  have hstart : offset + byteLength ((blank ++ rest).takeWhile isBlank) =
      offset + byteLength blank + byteLength (rest.takeWhile isBlank) := by
    rw [List.takeWhile_append_of_pos h, byteLength_append, Nat.add_assoc]
  rw [Cut, List.nil_append]
  cases hcs : rest.dropWhile isBlank with
  | nil => rw [tokensFrom_nil hcs, tokensFrom_nil (hdrop.trans hcs), hstart]
  | cons c cs =>
    cases hl : readLexeme c cs with
    | error failure =>
      rw [tokensFrom_error hcs hl, tokensFrom_error (hdrop.trans hcs) hl, hstart]
    | ok l => rw [tokensFrom_ok hcs hl, tokensFrom_ok (hdrop.trans hcs) hl, hstart]

/-- A spelling is cut into the token that it spells, if what follows does not extend it. -/
theorem cut_spelling {kind : Kind} {text whole rest : List Char}
    (h : Spelling kind text whole) (hrest : kind.EndsAt rest) (offset : Nat) :
    Cut offset whole rest [(⟨kind, text, rest⟩ : Lexeme).token offset] := by
  obtain ⟨c, cs, rfl, hblank⟩ := h.exists_cons
  have hdrop : (c :: cs ++ rest).dropWhile isBlank = c :: (cs ++ rest) :=
    List.dropWhile_cons_of_neg (by simp [hblank])
  have htake : (c :: cs ++ rest).takeWhile isBlank = [] :=
    List.takeWhile_cons_of_neg (by simp [hblank])
  rw [Cut, tokensFrom_ok hdrop (readLexeme_append h hrest), htake, h.byteLength_eq]
  simp only [byteLength, Lexeme.stopFrom, Nat.add_zero, Nat.add_assoc, List.singleton_append]

end Token

end JsonShape
