import Mathlib.Data.List.Chain
import JsonShape.Proofs.Token.Lexable

/-!
# Printed tokens

Lexemes that are written one behind the other, with any blanks around them, are read back as they
were written.  Only two numbers must not touch each other: no other lexeme goes on with what may
stand behind it.

* `Piece`, `Spaced`, `print` — lexemes to be written, blanks before each, and the text of them.
* `laid` — their tokens, each where it stands in the text.
* `cut_print` — a printed text is cut into these tokens, if what follows does not extend the last.
* `Scan.cut`, `tokensFrom_shift` — the tokens of a text with another text behind it.
* `tokens_print` — printing and reading back, and two texts with blanks between them.
-/

namespace JsonShape

namespace Token

/-! ## Lexemes to be written -/

/-- A lexeme that can be written. -/
inductive Piece where
  /-- The opening brace. -/
  | leftBrace
  /-- The closing brace. -/
  | rightBrace
  /-- The opening bracket. -/
  | leftBracket
  /-- The closing bracket. -/
  | rightBracket
  /-- The comma. -/
  | comma
  /-- The colon. -/
  | colon
  /-- The word `null`. -/
  | null
  /-- The word for a truth value. -/
  | bool (value : Bool)
  /-- A number: any signs, at least one digit, and any of the characters that may stand in one. -/
  | number (signs digits tail : List Char) (hsigns : ∀ c ∈ signs, isSign c = true)
      (hdigits : ∀ c ∈ digits, isDigit c = true) (hne : digits ≠ [])
      (htail : ∀ c ∈ tail, isNumberTail c = true)
  /-- A string with its body, escapes included. -/
  | string (body : List Char) (h : IsBody body)

namespace Piece

/-- The lexical class of a lexeme.  A number is an integer as long as all of its tail are digits. -/
def kind : Piece → Kind
  | leftBrace => .leftBrace
  | rightBrace => .rightBrace
  | leftBracket => .leftBracket
  | rightBracket => .rightBracket
  | comma => .comma
  | colon => .colon
  | null => .null
  | bool _ => .bool
  | number _ _ tail _ _ _ _ => if tail.all isDigit then .integer else .float
  | string _ _ => .string

/-- The text of a lexeme, without the quotes of a string. -/
def text : Piece → List Char
  | leftBrace => ['\x7b']
  | rightBrace => ['\x7d']
  | leftBracket => ['[']
  | rightBracket => [']']
  | comma => [',']
  | colon => [':']
  | null => ['n', 'u', 'l', 'l']
  | bool true => ['t', 'r', 'u', 'e']
  | bool false => ['f', 'a', 'l', 's', 'e']
  | number signs digits tail _ _ _ _ => signs ++ (digits ++ tail)
  | string body _ => body

/-- How a lexeme is written. -/
def print : Piece → List Char
  | string body _ => '"' :: (body ++ ['"'])
  | piece => piece.text

/-- Whether a lexeme is a number. -/
def IsNumber : Piece → Prop
  | number .. => True
  | _ => False

/-- The token of a lexeme that is written at byte `start`.  The span of a string is that of its
body. -/
def token (start : Nat) : Piece → Token
  | string body _ =>
    ⟨.string, start + 1, start + 1 + (String.ofList body).utf8ByteSize, .ofList body⟩
  | piece => ⟨piece.kind, start, start + (String.ofList piece.text).utf8ByteSize, .ofList piece.text⟩

end Piece

/-- A lexeme and the blanks before it. -/
structure Spaced where
  /-- The blanks. -/
  blank : List Char
  /-- There is nothing else among them. -/
  isBlank : ∀ c ∈ blank, isBlank c = true
  /-- The lexeme. -/
  piece : Piece

/-- The text of some lexemes with their blanks. -/
def print (pieces : List Spaced) : List Char :=
  pieces.flatMap fun s => s.blank ++ s.piece.print

/-- Between two numbers that follow each other there is a blank. -/
def Separated (pieces : List Spaced) : Prop :=
  pieces.IsChain fun s next => s.piece.IsNumber → next.piece.IsNumber → next.blank ≠ []

/-- The tokens of some lexemes whose text begins at byte `offset`. -/
def laid (offset : Nat) : List Spaced → List Token
  | [] => []
  | s :: rest =>
    s.piece.token (offset + (String.ofList s.blank).utf8ByteSize) ::
      laid (offset + (String.ofList (s.blank ++ s.piece.print)).utf8ByteSize) rest

/-- A token that stands `n` bytes further on. -/
def shift (n : Nat) (t : Token) : Token := { t with start := t.start + n, stop := t.stop + n }

/-! ## A lexeme is a spelling -/

/-- The kind of a number is told by its tail, also where the tail begins with digits. -/
theorem Spelling.of_number {signs digits tail : List Char}
    (hsigns : ∀ c ∈ signs, isSign c = true) (hdigits : ∀ c ∈ digits, isDigit c = true)
    (hne : digits ≠ []) (htail : ∀ c ∈ tail, isNumberTail c = true) :
    Spelling (if tail.all isDigit then .integer else .float) (signs ++ (digits ++ tail))
      (signs ++ (digits ++ tail)) := by
  obtain ⟨more, rest, rfl, hmore, hstops⟩ := exists_run isDigit tail
  have hall : ∀ c ∈ digits ++ more, isDigit c = true := List.forall_mem_append.2 ⟨hdigits, hmore⟩
  have hspelling := Spelling.number hsigns hall (List.append_ne_nil_of_left_ne_nil hne more) hstops
    (List.forall_mem_append.1 htail).2
  have hkind : (more ++ rest).all isDigit = rest.isEmpty := by
    cases rest with
    | nil => simpa using hmore
    | cons mark rest => simp [hstops mark rfl]
  rwa [hkind, ← List.append_assoc digits]

namespace Piece

theorem spelling (p : Piece) : Spelling p.kind p.text p.print := by
  cases p with
  | leftBrace | rightBrace | leftBracket | rightBracket | comma | colon => exact .punctuation rfl
  | null => exact .of_letters spelling_nullWord
  | bool value =>
    cases value with
    | true => exact .of_letters spelling_trueWord
    | false => exact .of_letters spelling_falseWord
  | number signs digits tail hsigns hdigits hne htail => exact .of_number hsigns hdigits hne htail
  | string body h => exact .string h

theorem isNumber_iff (p : Piece) : p.IsNumber ↔ p.kind = .integer ∨ p.kind = .float := by
  cases p with
  | number signs digits tail => simp only [IsNumber, kind]; split <;> simp
  | _ => simp [IsNumber, kind]

theorem token_eq (p : Piece) (start : Nat) (rest : List Char) :
    (⟨p.kind, p.text, rest⟩ : Lexeme).token start = p.token start := by
  cases p with
  | number signs digits tail =>
    have hmargin : (number signs digits tail ‹_› ‹_› ‹_› ‹_›).kind.margin = 0 := by
      simp only [kind]
      split <;> rfl
    simp [Lexeme.token, token, hmargin, byteLength_eq_utf8ByteSize]
  | _ => simp [Lexeme.token, token, kind, text, Kind.margin, byteLength_eq_utf8ByteSize]

end Piece

/-! ## Printing and reading back -/

theorem isNumberTail_of_isBlank {c : Char} (h : isBlank c = true) : isNumberTail c = false := by
  rw [Bool.eq_false_iff]
  intro htail
  rw [isBlank_of_isNumberTail htail] at h
  cases h

/-- Blanks do not extend a number, where there are any. -/
theorem stops_of_blank {blank : List Char} (h : ∀ c ∈ blank, isBlank c = true) (hne : blank ≠ [])
    (rest : List Char) : Stops isNumberTail (blank ++ rest) := by
  obtain ⟨c, cs, rfl⟩ := List.exists_cons_of_ne_nil hne
  exact .cons (isNumberTail_of_isBlank (h c List.mem_cons_self)) _

/-- Of all lexemes only another number extends a number. -/
theorem Piece.stops_print {p : Piece} (h : ¬ p.IsNumber) (rest : List Char) :
    Stops isNumberTail (p.print ++ rest) := by
  have hspelling := p.spelling
  obtain ⟨c, cs, hprint, -⟩ := hspelling.exists_cons
  rw [hprint] at hspelling ⊢
  refine .cons ?_ _
  rw [Bool.eq_false_iff]
  intro hc
  exact h (p.isNumber_iff.2 (hspelling.isNumber_of_head hc))

/-- What is printed behind a number does not extend it. -/
theorem Separated.endsAt {s : Spaced} {others : List Spaced} {rest : List Char}
    (h : Separated (s :: others)) (hrest : Stops isNumberTail rest) :
    s.piece.kind.EndsAt (print others ++ rest) := by
  intro hkind
  have hnumber : s.piece.IsNumber := s.piece.isNumber_iff.2 hkind
  cases others with
  | nil => exact hrest
  | cons next others =>
    rw [print, List.flatMap_cons, List.append_assoc, List.append_assoc]
    by_cases hblank : next.blank = []
    · rw [hblank, List.nil_append]
      refine Piece.stops_print (fun hnext => ?_) _
      exact (List.isChain_cons_cons.1 h).1 hnumber hnext hblank
    · exact stops_of_blank next.isBlank hblank _

/-- A printed text is cut into the tokens of its lexemes, if what follows does not extend the last
one. -/
theorem cut_print {pieces : List Spaced} {rest : List Char} (h : Separated pieces)
    (hrest : Stops isNumberTail rest) (offset : Nat) :
    Cut offset (print pieces) rest (laid offset pieces) := by
  induction pieces generalizing offset with
  | nil => exact cut_blank (fun c hc => absurd hc List.not_mem_nil) offset rest
  | cons s others ih =>
    have hwhole := (cut_blank s.isBlank offset _).append
      (cut_spelling s.piece.spelling (h.endsAt hrest) (offset + byteLength s.blank))
    have hothers := ih h.tail (offset + byteLength (s.blank ++ s.piece.print))
    have hcut := hwhole.append hothers
    rw [Piece.token_eq, List.nil_append, List.singleton_append, byteLength_eq_utf8ByteSize,
      byteLength_eq_utf8ByteSize] at hcut
    exact hcut

/-- Behind the last token of a text come its blanks and its end. -/
theorem tokensFrom_blank {blank : List Char} (h : ∀ c ∈ blank, isBlank c = true) (offset : Nat) :
    tokensFrom offset blank = [atEnd (offset + byteLength blank)] := by
  have hcut := cut_blank h offset []
  rwa [Cut, List.append_nil, List.nil_append, @tokensFrom_nil _ [] rfl] at hcut

/-! ## One text behind another -/

/-- A text that ends without a fault is cut into its own tokens, if what follows does not extend the
last one. -/
theorem Scan.cut {offset edge : Nat} {cs rest : List Char} {front : List Token} {last : Token}
    (h : Scan offset cs front edge last) (hlast : last.kind = .endOfInput)
    (hrest : Stops isNumberTail rest) : Cut offset cs rest front := by
  induction h with
  | finish hblank => exact cut_blank hblank _ rest
  | stop => cases hlast
  | @token offset edge blank text whole others kind front last hblank hspelling hends hothers ih =>
    have hafter : kind.EndsAt (others ++ rest) := fun hkind => (hends hkind).append hrest
    have hown : Cut (offset + byteLength blank) whole (others ++ rest)
        [(⟨kind, text, others⟩ : Lexeme).token (offset + byteLength blank)] :=
      cut_spelling hspelling hafter _
    exact (cut_blank hblank offset _).append (hown.append (ih hlast))

/-- The tokens of a text that begins further on are those of the text, shifted. -/
theorem tokensFrom_shift (n offset : Nat) (cs : List Char) :
    tokensFrom (offset + n) cs = (tokensFrom offset cs).map (shift n) := by
  induction hlength : cs.length using Nat.strong_induction_on generalizing offset cs with
  | _ length ih =>
    cases hcs : cs.dropWhile isBlank with
    | nil => simp [tokensFrom_nil hcs, shift, atEnd, Nat.add_right_comm]
    | cons c rest =>
      cases hread : readLexeme c rest with
      | error failure => simp [tokensFrom_error hcs hread, shift, atFault, Nat.add_right_comm]
      | ok l =>
        have hshorter : l.rest.length < length := hlength ▸ length_rest_lt hcs hread
        have hstop : ∀ start, l.stopFrom (start + n) = l.stopFrom start + n := by
          intro start
          simp only [Lexeme.stopFrom, Nat.add_right_comm]
        rw [tokensFrom_ok hcs hread, tokensFrom_ok hcs hread, Nat.add_right_comm, hstop,
          ih _ hshorter _ _ rfl]
        simp [shift, Lexeme.token, Nat.add_right_comm]

/-- Lexemes that are written one behind the other, with any blanks before, between and behind them,
but at least one between two numbers, are read back as they were written: the tokens of the text are
theirs, each in its place, and the end.  And where blanks stand between a text that has no fault and
another one, the tokens are those of the first text without its end, and those of the second one,
shifted. -/
theorem tokens_print :
    (∀ (pieces : List Spaced) (closing : List Char), Separated pieces →
      (∀ c ∈ closing, isBlank c = true) →
        tokens (.ofList (print pieces ++ closing)) = laid 0 pieces ++
          [.atEnd (String.ofList (print pieces ++ closing)).utf8ByteSize]) ∧
      ∀ before blank behind : String,
        (∀ t ∈ tokens before, ∀ cause, t.kind ≠ .fault cause) → blank ≠ "" →
          (∀ c ∈ blank.toList, isBlank c = true) →
            tokens (before ++ blank ++ behind) = (tokens before).dropLast ++
              (tokens behind).map (shift (before ++ blank).utf8ByteSize) := by
  constructor
  · intro pieces closing hseparated hclosing
    have hstops : Stops isNumberTail closing := by
      by_cases hne : closing = []
      · exact hne ▸ .nil
      · simpa using stops_of_blank hclosing hne []
    have hcut := cut_print hseparated hstops 0
    rw [Cut, tokensFrom_blank hclosing, Nat.add_assoc, ← byteLength_append, Nat.zero_add,
      byteLength_eq_utf8ByteSize] at hcut
    rw [tokens, String.toList_ofList, hcut]
  · intro before blank behind hclean hne hblank
    obtain ⟨front, edge, last, htokens, hscan⟩ := exists_scan 0 before.toList
    rw [← tokens] at htokens
    have hlast : last.kind = .endOfInput := by
      rcases hscan.last_cases with ⟨-, rfl⟩ | ⟨_, _, _, cause, -, -, -, -, rfl⟩
      · rfl
      · exact absurd rfl (hclean _ (by rw [htokens]; exact List.mem_concat_self) cause)
    have hstops : Stops isNumberTail (blank.toList ++ behind.toList) :=
      stops_of_blank hblank (by simpa using hne) _
    have hcut := (hscan.cut hlast hstops).append (cut_blank hblank _ behind.toList)
    rw [Cut, List.append_nil, Nat.zero_add, ← Nat.zero_add (byteLength _), tokensFrom_shift,
      byteLength_append, byteLength_toList, byteLength_toList, ← String.utf8ByteSize_append] at hcut
    rw [htokens, List.dropLast_concat, tokens, String.toList_append, String.toList_append, hcut]
    rfl

/-- Two numbers with a blank between them, the first of which has a digit in its tail, and a string
that touches the second one and has a quote in it. -/
def touching : List Spaced :=
  have hdigits : ∀ c ∈ ['1'], isDigit c = true := List.all_eq_true.1 rfl
  [⟨[], by simp, .number [] ['1'] ['2'] (by simp) hdigits (by simp) (List.all_eq_true.1 rfl)⟩,
    ⟨['\t'], List.all_eq_true.1 rfl, .number ['-'] ['1'] ['.', '5'] (List.all_eq_true.1 rfl) hdigits
      (by simp) (List.all_eq_true.1 rfl)⟩,
    ⟨[], by simp, .string ['é', '\\', '"'] (.plain (by decide) (by decide) (.escape '"' .nil))⟩]

theorem touching_separated : Separated touching := by
  simp [Separated, touching, Piece.IsNumber]

theorem tokens_print_touching :
    Separated touching ∧ (∀ c ∈ ['\n'], isBlank c = true) ∧
      tokens (.ofList (print touching ++ ['\n'])) =
        [⟨.integer, 0, 2, "12"⟩, ⟨.float, 3, 7, "-1.5"⟩, ⟨.string, 8, 12, "é\\\""⟩, .atEnd 14] ∧
      (∀ t ∈ tokens "1", ∀ cause, t.kind ≠ .fault cause) ∧ "\r\n" ≠ "" ∧
      (∀ c ∈ "\r\n".toList, isBlank c = true) ∧
      tokens ("1" ++ "\r\n" ++ "2 x") =
        [⟨.integer, 0, 1, "1"⟩, ⟨.integer, 3, 4, "2"⟩, .atFault (.unexpectedCharacter 'x') 5] := by
  have hone : tokens "1" = [⟨.integer, 0, 1, "1"⟩, .atEnd 1] := by decide +kernel
  have htwo : tokens "2 x" = [⟨.integer, 0, 1, "2"⟩, .atFault (.unexpectedCharacter 'x') 2] := by
    decide +kernel
  have hclean : ∀ t ∈ tokens "1", ∀ cause, t.kind ≠ .fault cause := by simp [hone, atEnd]
  have hclosing : ∀ c ∈ ['\n'], isBlank c = true := List.all_eq_true.1 rfl
  have hblank : ∀ c ∈ "\r\n".toList, isBlank c = true := List.all_eq_true.1 (by decide)
  have hprinted := tokens_print.1 touching ['\n'] touching_separated hclosing
  have hjoined := tokens_print.2 "1" "\r\n" "2 x" hclean (by decide) hblank
  refine ⟨touching_separated, hclosing, hprinted.trans (by decide), hclean, by decide, hblank, ?_⟩
  rw [hjoined, hone, htwo]
  decide

end Token

end JsonShape
