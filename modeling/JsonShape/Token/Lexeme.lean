import JsonShape.Token.Basic

/-!
# Lexemes

Reads one token from the start of a text. Each reader takes the longest lexeme of its class and
returns it with the rest of the text; a reader that fails returns the fault with the part of the
text that it had read before it. Offsets are left to whoever knows where the text begins.

What a reader returns is shorter than what it was given (`length_rest_lt`), so that reading one
lexeme after the other comes to an end.
-/

namespace JsonShape

namespace Token

/-! ## Character classes -/

/-- The four characters that may stand between tokens. -/
def isBlank (c : Char) : Bool := c = ' ' || c = '\t' || c = '\n' || c = '\r'

/-- The characters of a number's sign. -/
def isSign (c : Char) : Bool := c = '+' || c = '-'

/-- The ten digits of a number. -/
def isDigit (c : Char) : Bool := '0' ≤ c && c ≤ '9'

/-- The characters that may follow the first run of digits of a number. -/
def isNumberTail (c : Char) : Bool :=
  c = '.' || c = 'e' || c = 'E' || isSign c || isDigit c

/-! ## Lexemes -/

/-- One token without its place, and the text after it. -/
structure Lexeme where
  /-- The lexical class. -/
  kind : Kind
  /-- The text, without the quotes of a string. -/
  text : List Char
  /-- What follows the token. -/
  rest : List Char
deriving Repr, DecidableEq

/-- A fault that ended a lexeme, and the part of the lexeme before it. -/
structure Failure where
  /-- What is wrong. -/
  cause : Fault
  /-- The text that was read, up to the place of the fault. -/
  read : List Char
deriving Repr, DecidableEq

/-- The body of a string whose opening quote has been read, and the text after the closing quote. A
backslash takes the next character with it. There is none if the text ends first. -/
def stringBody? : List Char → Option (List Char × List Char)
  | [] => none
  | '"' :: rest => some ([], rest)
  | ['\\'] => none
  | '\\' :: c :: rest =>
    (stringBody? rest).map fun (body, after) => ('\\' :: c :: body, after)
  | c :: rest => (stringBody? rest).map fun (body, after) => (c :: body, after)

/-- Reads a string, from behind its opening quote on. -/
def readString (cs : List Char) : Except Failure Lexeme :=
  match stringBody? cs with
  | some (body, rest) => .ok ⟨.string, body, rest⟩
  | none => .error ⟨.unterminatedString, '"' :: cs⟩

/-- Reads a number: signs, at least one digit, and a tail, which makes it a float unless empty. -/
def readNumber (cs : List Char) : Except Failure Lexeme :=
  let signs := cs.takeWhile isSign
  let unsigned := cs.dropWhile isSign
  let digits := unsigned.takeWhile isDigit
  let afterDigits := unsigned.dropWhile isDigit
  let tail := afterDigits.takeWhile isNumberTail
  let rest := afterDigits.dropWhile isNumberTail
  if digits.isEmpty then .error ⟨.digitExpected, signs⟩
  else .ok ⟨if tail.isEmpty then .integer else .float, signs ++ digits ++ tail, rest⟩

/-- The longest common start of a word and a text, and what the text has after it. -/
def commonStart : List Char → List Char → List Char × List Char
  | w :: word, c :: cs =>
    if w = c then
      let (shared, rest) := commonStart word cs
      (c :: shared, rest)
    else ([], c :: cs)
  | _, cs => ([], cs)

/-- Reads a given word. -/
def readKeyword (word : Keyword) (cs : List Char) : Except Failure Lexeme :=
  let (shared, rest) := commonStart word.spelling.toList cs
  if shared = word.spelling.toList then .ok ⟨.ofKeyword word, shared, rest⟩
  else if rest.isEmpty then .error ⟨.cutWord word, shared⟩
  else .error ⟨.wrongWord word, shared⟩

/-- Reads the lexeme that begins with `c`. -/
def readLexeme (c : Char) (cs : List Char) : Except Failure Lexeme :=
  match Kind.ofPunctuation? c with
  | some kind => .ok ⟨kind, [c], cs⟩
  | none =>
    if c = '"' then readString cs
    else if isSign c || isDigit c then readNumber (c :: cs)
    else
      match Keyword.ofInitial? c with
      | some word => readKeyword word (c :: cs)
      | none => .error ⟨.unexpectedCharacter c, []⟩

/-! ## A lexeme shortens the text -/

theorem length_dropWhile_le (p : Char → Bool) (cs : List Char) :
    (cs.dropWhile p).length ≤ cs.length :=
  (List.dropWhile_sublist p).length_le

theorem length_of_stringBody? {cs body rest : List Char}
    (h : stringBody? cs = some (body, rest)) : rest.length < cs.length := by
  fun_induction stringBody? cs generalizing body with
  | case1 => simp at h
  | case2 cs => simp at h; simp [h.2]
  | case3 => simp at h
  | case4 c cs ih =>
    obtain ⟨⟨b, r⟩, hb, hr⟩ := Option.map_eq_some_iff.1 h
    simp only [Prod.mk.injEq] at hr
    obtain ⟨-, rfl⟩ := hr
    have := ih hb
    simp only [List.length_cons]
    omega
  | case5 c cs _ _ _ ih =>
    obtain ⟨⟨b, r⟩, hb, hr⟩ := Option.map_eq_some_iff.1 h
    simp only [Prod.mk.injEq] at hr
    obtain ⟨-, rfl⟩ := hr
    have := ih hb
    simp only [List.length_cons]
    omega

theorem length_of_readString {cs : List Char} {l : Lexeme} (h : readString cs = .ok l) :
    l.rest.length < cs.length := by
  unfold readString at h
  split at h
  next body rest hb =>
    simp only [Except.ok.injEq] at h
    subst h
    exact length_of_stringBody? hb
  next => simp at h

theorem length_of_readNumber {c : Char} {cs : List Char} {l : Lexeme}
    (hc : isSign c = true ∨ isDigit c = true) (h : readNumber (c :: cs) = .ok l) :
    l.rest.length ≤ cs.length := by
  simp only [readNumber] at h
  split at h
  · simp at h
  · simp only [Except.ok.injEq] at h
    subst h
    have drop := length_dropWhile_le
    by_cases hs : isSign c = true
    · simp only [List.dropWhile_cons, hs, if_true]
      exact Nat.le_trans (drop ..) (Nat.le_trans (drop ..) (drop ..))
    · have hd : isDigit c = true := hc.resolve_left hs
      have hu : (c :: cs).dropWhile isSign = c :: cs := by simp [hs]
      rw [hu, List.dropWhile_cons, if_pos hd]
      exact Nat.le_trans (drop ..) (drop ..)

theorem length_commonStart (word cs : List Char) :
    (commonStart word cs).1.length + (commonStart word cs).2.length = cs.length := by
  fun_induction commonStart word cs with
  | case1 w word cs shared rest hs ih => simp [hs] at ih ⊢; omega
  | case2 => simp
  | case3 => simp

theorem length_of_readKeyword {word : Keyword} {cs : List Char} {l : Lexeme}
    (h : readKeyword word cs = .ok l) : l.rest.length < cs.length := by
  have hlen := length_commonStart word.spelling.toList cs
  simp only [readKeyword] at h
  split at h
  next hw =>
    simp only [Except.ok.injEq] at h
    subst h
    have : 0 < word.spelling.toList.length := by cases word <;> decide
    rw [hw] at hlen
    simp only
    omega
  next => split at h <;> simp at h

/-- What follows a lexeme is no longer than what follows its first character. -/
theorem length_of_readLexeme {c : Char} {cs : List Char} {l : Lexeme}
    (h : readLexeme c cs = .ok l) : l.rest.length ≤ cs.length := by
  unfold readLexeme at h
  split at h
  · simp only [Except.ok.injEq] at h
    subst h
    exact Nat.le_refl _
  · split at h
    · exact Nat.le_of_lt (length_of_readString h)
    · split at h
      next hc => exact length_of_readNumber (by simpa using hc) h
      next =>
        split at h
        · exact Nat.le_of_lt_succ (length_of_readKeyword h)
        · simp at h

/-- What follows the first lexeme of a text is shorter than the text. -/
theorem length_rest_lt {cs rest : List Char} {c : Char} {l : Lexeme}
    (hc : cs.dropWhile isBlank = c :: rest) (hl : readLexeme c rest = .ok l) :
    l.rest.length < cs.length := by
  have := length_of_readLexeme hl
  have := length_dropWhile_le isBlank cs
  rw [hc, List.length_cons] at this
  omega

end Token

end JsonShape
