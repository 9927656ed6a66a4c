import JsonShape.Proofs.Checked.Cursor

/-!
# Tokens by checked access

Cuts a text into tokens with a cursor: it takes one character at a time, gives one back where a
token turns out to have ended, and reads the text of a token off between two offsets.  No access is
ever out of place, and what comes out are the tokens of the text.

* `Cursor.next?` — one token, or nothing once the last one has been given out.
* `lexFrom?_spelling`, `lexFrom?_broken` — a lexeme that can be read, and one that cannot.
* `tokens?_eq` — all tokens of a text.
-/

namespace JsonShape

namespace Cursor

open Token

/-! ## Lexemes -/

/-- Takes a string up to and with its closing quote, and tells whether there was one.  Behind a
backslash any character is taken. -/
def skipString? (json : List Char) (escaped : Bool) (k : Cursor) : Option (Bool × Cursor) :=
  match h : k.advance? json with
  | none => none
  | some (none, next) => some (false, next)
  | some (some c, next) =>
    have : next.ahead json < k.ahead json := ahead_lt_of_advance? h
    if escaped then skipString? json false next
    else if c = '"' then some (true, next)
    else skipString? json (c = '\\') next
termination_by k.ahead json

/-- Reads a string, from behind its opening quote on. -/
def lexString? (json : List Char) (k : Cursor) : Option (Token × Cursor) := do
  let (closed, k) ← k.mark.skipString? json false
  if closed then
    let k ← k.retreat?
    let t ← k.emit? json .string
    let (_, k) ← k.advance? json
    return (t, k)
  else return k.fail .unterminatedString k.pos

/-- Reads a number. -/
def lexNumber? (json : List Char) (k : Cursor) : Option (Token × Cursor) := do
  let (_, k) ← k.runWhile? json isSign
  let (digits, k) ← k.runWhile? json isDigit
  if digits = 0 then return k.fail .digitExpected k.pos
  else
    let (tail, k) ← k.runWhile? json isNumberTail
    let t ← k.emit? json (if tail = 0 then .integer else .float)
    return (t, k)

/-- Reads the remaining letters of a word. -/
def lexWord? (json : List Char) (word : Keyword) : List Char → Cursor → Option (Token × Cursor)
  | [], k => (k.emit? json (.ofKeyword word)).map fun t => (t, k)
  | w :: letters, k =>
    match k.advance? json with
    | none => none
    | some (none, k) => some (k.fail (.cutWord word) k.pos)
    | some (some c, k) =>
      if c = w then lexWord? json word letters k
      else (minus? k.pos c.utf8Size).map fun offset => k.fail (.wrongWord word) offset

/-- Reads the lexeme that begins with `c`, which has been taken already. -/
def lexFrom? (json : List Char) (c : Char) (k : Cursor) : Option (Token × Cursor) :=
  match Kind.ofPunctuation? c with
  | some kind => (k.emit? json kind).map fun t => (t, k)
  | none =>
    if c = '"' then k.lexString? json
    else if isSign c || isDigit c then k.retreat?.bind (lexNumber? json)
    else
      match Keyword.ofInitial? c with
      | some word => k.retreat?.bind (lexWord? json word word.spelling.toList)
      | none => some (k.fail (.unexpectedCharacter c) k.start)

/-- Gives out the next token, and nothing behind the last one. -/
def next? (json : List Char) (k : Cursor) : Option (Option Token × Cursor) :=
  if k.finished then some (none, k)
  else do
    let (_, k) ← k.runWhile? json isBlank
    let (c?, k) ← k.mark.advance? json
    match c? with
    | none => (k.emit? json .endOfInput).map fun t => (some t, { k with finished := true })
    | some c => (k.lexFrom? json c).map fun (t, k) => (some t, k)

/-! ## Lexemes that can be read -/

variable {json before body text whole read rest cs : List Char} {c : Char} {k : Cursor}
  {kind : Kind} {cause : Fault} {t : Token}

/-- A cursor gives out a token and goes on behind it. -/
def Yields (json before rest : List Char) (t : Token) (given : Option (Token × Cursor)) : Prop :=
  ∃ last, given = some (t, last) ∧ last.Splits json before rest ∧ last.finished = false

/-- A cursor gives out a token as its last one. -/
def Ends (t : Token) (given : Option (Token × Cursor)) : Prop :=
  ∃ last, given = some (t, last) ∧ last.finished = true

/-- A cursor that is about to read a token. -/
structure Ready (k : Cursor) (json before rest : List Char) : Prop
    extends k.Splits json before rest where
  /-- The token begins at the cursor. -/
  start : k.start = byteLength before
  /-- It is not behind the last token. -/
  finished : k.finished = false

theorem skipString?_of_none {escaped : Bool} {next : Cursor}
    (h : k.advance? json = some (none, next)) : k.skipString? json escaped = some (false, next) := by
  rw [skipString?]
  split <;> simp_all

theorem skipString?_of_some {escaped : Bool} {next : Cursor}
    (h : k.advance? json = some (some c, next)) : k.skipString? json escaped =
      if escaped then next.skipString? json false
      else if c = '"' then some (true, next)
      else next.skipString? json (c = '\\') := by
  rw [skipString?]
  split <;> simp_all

/-- The body of a string is skipped, character by character. -/
theorem skipString?_body (hbody : IsBody body) (h : k.Splits json before (body ++ rest)) :
    ∃ next : Cursor, k.skipString? json false = next.skipString? json false ∧
      next.Splits json (before ++ body) rest ∧ next.start = k.start ∧
        next.finished = k.finished := by
  induction hbody generalizing k before with
  | nil => exact ⟨k, rfl, by simpa using h, rfl, rfl⟩
  | @plain c cs hquote hbackslash _ ih =>
    obtain ⟨next, hskip, hsplits, hstart, hfinished⟩ := ih h.past
    refine ⟨next, ?_, by simpa using hsplits, hstart, hfinished⟩
    rw [skipString?_of_some (advance?_cons h)]
    simpa [hquote, hbackslash] using hskip
  | @escape c cs _ ih =>
    obtain ⟨next, hskip, hsplits, hstart, hfinished⟩ := ih h.past.past
    refine ⟨next, ?_, by simpa using hsplits, hstart, hfinished⟩
    rw [skipString?_of_some (advance?_cons h), ← hskip]
    simp [skipString?_of_some (advance?_cons h.past)]

/-- A string is read with the quotes around it. -/
theorem lexString?_body (hbody : IsBody body) (h : k.Splits json before (body ++ '"' :: rest))
    (hk : k.finished = false) :
    Yields json (before ++ (body ++ ['"'])) rest
      ⟨.string, k.pos, k.pos + byteLength body, .ofList body⟩ (k.lexString? json) := by
  obtain ⟨next, hskip, hsplits, hstart, hfinished⟩ := skipString?_body hbody h.mark
  have hclosed : next.skipString? json false = some (true, next.past '"') := by
    rw [skipString?_of_some (advance?_cons hsplits)]
    simp
  have hpos : next.pos = k.pos + byteLength body := by
    rw [hsplits.pos, h.pos, byteLength_append]
  have hemit : (next.moved 0).emit? json .string =
      some ⟨.string, k.pos, k.pos + byteLength body, .ofList body⟩ := by
    have hfirst : (next.moved 0).start = byteLength before := hstart.trans h.pos
    rw [emit?_eq hfirst hsplits.moved_zero]
    simp [hstart, hpos]
  refine ⟨(next.moved 0).past '"', ?_, by simpa using hsplits.moved_zero.past, ?_⟩
  · simp [lexString?, hskip, hclosed, retreat?_past, hemit, advance?_cons hsplits.moved_zero]
  · exact hfinished.trans hk

/-- A string that does not end is skipped to the end of the text. -/
theorem skipString?_openBody (hbody : IsOpenBody body) (h : k.Splits json before body) :
    ∃ last : Cursor, k.skipString? json false = some (false, last) ∧
      last.pos = k.pos + byteLength body := by
  rcases hbody with hbody | ⟨inner, hinner, rfl⟩
  · have hend : k.Splits json before (body ++ []) := by simpa using h
    obtain ⟨next, hskip, hsplits, -⟩ := skipString?_body hbody hend
    refine ⟨next.moved 0, ?_, ?_⟩
    · rw [hskip]
      exact skipString?_of_none (advance?_nil hsplits)
    · show next.pos + 0 = _
      rw [Nat.add_zero, hsplits.pos, byteLength_append, h.pos]
  · obtain ⟨next, hskip, hsplits, -⟩ := skipString?_body hinner h
    refine ⟨(next.past '\\').moved 0, ?_, ?_⟩
    · rw [hskip, skipString?_of_some (advance?_cons hsplits)]
      simpa using skipString?_of_none (advance?_nil hsplits.past)
    · show (next.past '\\').pos + 0 = _
      rw [Nat.add_zero, hsplits.past.pos, byteLength_append, byteLength_append, byteLength_append,
        h.pos, Nat.add_assoc]

/-- A string that does not end is read to the end of the text. -/
theorem lexString?_openBody (hbody : IsOpenBody body) (h : k.Splits json before body) :
    Ends (atFault .unterminatedString (k.pos + byteLength body)) (k.lexString? json) := by
  obtain ⟨last, hskip, hpos⟩ := skipString?_openBody hbody h.mark
  refine ⟨{ last with finished := true }, ?_, rfl⟩
  simp [lexString?, hskip, fail, hpos]

theorem stops_isDigit (h : Stops isNumberTail rest) : Stops isDigit rest := by
  intro c hc
  rw [Bool.eq_false_iff]
  intro hdigit
  simpa [h c hc] using isNumberTail_of_isDigit hdigit

/-- A number is read with all of its signs, its digits and its tail. -/
theorem lexNumber?_digits {signs digits tail : List Char} (hsigns : ∀ c ∈ signs, isSign c = true)
    (hdigits : ∀ c ∈ digits, isDigit c = true) (hne : digits ≠ []) (hmark : Stops isDigit tail)
    (htail : ∀ c ∈ tail, isNumberTail c = true) (hrest : Stops isNumberTail rest)
    (hkind : (if tail = [] then .integer else .float) = kind)
    (h : k.Ready json before (signs ++ (digits ++ (tail ++ rest)))) :
    Yields json (before ++ (signs ++ (digits ++ tail))) rest
      ⟨kind, k.pos, k.pos + byteLength (signs ++ (digits ++ tail)),
        .ofList (signs ++ (digits ++ tail))⟩ (k.lexNumber? json) := by
  have hsign : Stops isSign (digits ++ (tail ++ rest)) := by
    obtain ⟨d, ds, rfl⟩ := List.exists_cons_of_ne_nil hne
    exact .cons (isSign_of_isDigit (hdigits d List.mem_cons_self)) _
  have hfirst := runWhile?_run hsigns hsign h.toSplits
  have hsecond := runWhile?_run hdigits (hmark.append (stops_isDigit hrest)) h.moved
  have hthird := runWhile?_run htail hrest h.moved.moved
  generalize hlast : ((k.moved (byteLength signs)).moved (byteLength digits)).moved
    (byteLength tail) = last at hthird
  have hsplits : last.Splits json (before ++ (signs ++ (digits ++ tail))) rest := by
    have hbehind := h.moved.moved.moved
    rw [hlast] at hbehind
    simpa using hbehind
  have hstart : last.start = k.start := by
    rw [← hlast]
    rfl
  have hpos : last.pos = k.pos + byteLength (signs ++ (digits ++ tail)) := by
    rw [hsplits.pos, byteLength_append, h.pos]
  have hemit := emit?_eq (hstart.trans h.start) hsplits kind
  refine ⟨last, ?_, hsplits, ?_⟩
  · simp [lexNumber?, hfirst, hsecond, hthird, hne, hkind, hemit, hstart, h.start,
      h.pos, hsplits.pos, byteLength_append]
  · rw [← hlast]
    exact h.finished

/-- Signs without a digit behind them are read, and then the digit is missed. -/
theorem lexNumber?_signs {signs : List Char} (hsigns : ∀ c ∈ signs, isSign c = true)
    (hsign : Stops isSign rest) (hdigit : Stops isDigit rest)
    (h : k.Splits json before (signs ++ rest)) :
    Ends (atFault .digitExpected (k.pos + byteLength signs)) (k.lexNumber? json) := by
  have hrun := runWhile?_run hsigns hsign h
  have hdigits : (k.moved (byteLength signs)).runWhile? json isDigit =
      some (0, (k.moved (byteLength signs)).moved 0) :=
    @runWhile?_run _ _ _ _ isDigit [] (by simp) hdigit h.moved
  refine ⟨{ (k.moved (byteLength signs)).moved 0 with finished := true }, ?_, rfl⟩
  simp [lexNumber?, hrun, hdigits, fail]

/-- A word is read letter by letter. -/
theorem lexWord?_letters (word : Keyword) {letters : List Char} (missing : List Char)
    (h : k.Splits json before (letters ++ rest)) :
    ∃ next : Cursor, lexWord? json word (letters ++ missing) k = lexWord? json word missing next ∧
      next.Splits json (before ++ letters) rest ∧ next.start = k.start ∧
        next.finished = k.finished := by
  induction letters generalizing k before with
  | nil => exact ⟨k, rfl, by simpa using h, rfl, rfl⟩
  | cons w letters ih =>
    obtain ⟨next, hword, hsplits, hstart, hfinished⟩ := ih h.past
    refine ⟨next, ?_, by simpa using hsplits, hstart, hfinished⟩
    simpa [lexWord?, advance?_cons h] using hword

/-! ## Which lexeme it is -/

theorem lexFrom?_number (h : (isSign c || isDigit c) = true) (k : Cursor) :
    (k.past c).lexFrom? json c = (k.moved 0).lexNumber? json := by
  have hquote : c ≠ '"' := ne_of_isSign_or_isDigit h rfl
  rw [lexFrom?, ofPunctuation?_of_isSign_or_isDigit h]
  simp [hquote, h, retreat?_past]

theorem lexFrom?_word {word : Keyword} (h : word.spelling.toList = c :: cs) (k : Cursor) :
    (k.past c).lexFrom? json c = lexWord? json word word.spelling.toList (k.moved 0) := by
  have hinitial : Keyword.ofInitial? c = some word := by
    cases word with
    | nullWord => obtain ⟨rfl, -⟩ := List.cons.inj (spelling_nullWord.symm.trans h); rfl
    | trueWord => obtain ⟨rfl, -⟩ := List.cons.inj (spelling_trueWord.symm.trans h); rfl
    | falseWord => obtain ⟨rfl, -⟩ := List.cons.inj (spelling_falseWord.symm.trans h); rfl
  obtain ⟨letters, -, hpunctuation, hquote, hnumber⟩ := ofInitial?_eq_some hinitial
  rw [lexFrom?, hpunctuation]
  simp [hquote, hnumber, hinitial, retreat?_past]

theorem Ready.moved_zero (h : k.Ready json before rest) : (k.moved 0).Ready json before rest :=
  ⟨h.toSplits.moved_zero, h.start, h.finished⟩

theorem token_of_margin (hkind : kind.margin = 0) (start : Nat) :
    (⟨kind, text, rest⟩ : Lexeme).token start =
      ⟨kind, start, start + byteLength text, .ofList text⟩ := by
  simp [Lexeme.token, hkind]

/-- A lexeme is read as the token that it spells. -/
theorem lexFrom?_spelling (hspelling : Spelling kind text whole) (hends : kind.EndsAt rest)
    (hwhole : whole = c :: cs) (h : k.Ready json before (whole ++ rest)) :
    Yields json (before ++ whole) rest ((⟨kind, text, rest⟩ : Lexeme).token (byteLength before))
      ((k.past c).lexFrom? json c) := by
  cases hspelling with
  | punctuation hpunctuation =>
    obtain ⟨rfl, rfl⟩ := List.cons.inj hwhole.symm
    have hmargin : kind.margin = 0 := by
      obtain ⟨hstring, -⟩ := kind_of_ofPunctuation? hpunctuation
      cases kind <;> first | rfl | exact absurd rfl hstring
    have hpast : (k.past c).Splits json (before ++ [c]) rest := h.past
    have hemit := emit?_eq (show (k.past c).start = byteLength before from h.start) hpast kind
    rw [token_of_margin hmargin]
    refine ⟨k.past c, ?_, hpast, h.finished⟩
    simp [lexFrom?, hpunctuation, hemit, h.start, h.pos, byteLength]
  | word word =>
    have hmargin : (Kind.ofKeyword word).margin = 0 := by
      cases word <;> rfl
    obtain ⟨next, hword, hsplits, hstart, hfinished⟩ :=
      lexWord?_letters word [] h.moved_zero.toSplits
    have hfirst : next.start = byteLength before := hstart.trans h.start
    have hemit := emit?_eq hfirst hsplits (.ofKeyword word)
    rw [lexFrom?_word hwhole, token_of_margin hmargin]
    refine ⟨next, ?_, hsplits, hfinished.trans h.finished⟩
    rw [List.append_nil] at hword
    simp [hword, lexWord?, hemit, hfirst, hsplits.pos, byteLength_append]
  | string hbody =>
    obtain ⟨rfl, rfl⟩ := List.cons.inj hwhole.symm
    have hpast : (k.past '"').Splits json (before ++ ['"']) (text ++ '"' :: rest) := by
      have hbehind := h.past
      simpa using hbehind
    have hquote : Kind.ofPunctuation? '"' = none := by decide
    have hsize : '"'.utf8Size = 1 := by decide
    obtain ⟨last, hlex, hsplits, hfinished⟩ := lexString?_body hbody hpast h.finished
    refine ⟨last, ?_, by simpa using hsplits, hfinished⟩
    simp [lexFrom?, hquote, hlex, Lexeme.token, Kind.margin, h.pos, hsize]
  | @integer signs digits hsigns hdigits hne =>
    have hfirst : c :: cs = signs ++ (digits ++ []) := by simpa using hwhole.symm
    have hready : (k.moved 0).Ready json before (signs ++ (digits ++ ([] ++ rest))) := by
      simpa using h.moved_zero
    have hinteger : (if ([] : List Char) = [] then Kind.integer else .float) = .integer := rfl
    have hlex := lexNumber?_digits hsigns hdigits hne .nil (by simp) (hends (Or.inl rfl)) hinteger
      hready
    rw [lexFrom?_number (isSign_or_isDigit_head hsigns hdigits hne hfirst), token_of_margin rfl]
    simpa [h.pos] using hlex
  | @float signs digits tail mark hsigns hdigits hne hmark htail =>
    have hready : (k.moved 0).Ready json before (signs ++ (digits ++ (mark :: tail ++ rest))) := by
      simpa using h.moved_zero
    have hfloat : (if mark :: tail = [] then Kind.integer else .float) = .float := by simp
    have hlex := lexNumber?_digits hsigns hdigits hne (.cons hmark tail) htail
      (hends (Or.inr rfl)) hfloat hready
    rw [lexFrom?_number (isSign_or_isDigit_head hsigns hdigits hne hwhole.symm), token_of_margin rfl]
    simpa [h.pos] using hlex

/-- A broken lexeme is read up to where it cannot go on. -/
theorem lexFrom?_broken (hbroken : Broken cause read rest) (hread : read ++ rest = c :: cs)
    (h : k.Ready json before (read ++ rest)) :
    Ends (atFault cause (byteLength before + byteLength read)) ((k.past c).lexFrom? json c) := by
  cases hbroken with
  | @string body hbody =>
    obtain ⟨rfl, -⟩ := List.cons.inj hread.symm
    have hpast : (k.past '"').Splits json (before ++ ['"']) body := by
      have hbehind := h.past
      simpa using hbehind
    have hquote : Kind.ofPunctuation? '"' = none := by decide
    obtain ⟨last, hlex, hfinished⟩ := lexString?_openBody hbody hpast
    refine ⟨last, ?_, hfinished⟩
    simp [lexFrom?, hquote, hlex, h.pos, byteLength, Nat.add_assoc]
  | signs hsigns hne hsign hdigit =>
    obtain ⟨sign, signs, rfl⟩ := List.exists_cons_of_ne_nil hne
    obtain ⟨rfl, -⟩ := List.cons.inj hread.symm
    have hfirst : (isSign c || isDigit c) = true := by simp [hsigns c List.mem_cons_self]
    obtain ⟨last, hlex, hfinished⟩ :=
      lexNumber?_signs hsigns hsign hdigit h.moved_zero.toSplits
    rw [lexFrom?_number hfirst]
    refine ⟨last, ?_, hfinished⟩
    simpa [h.pos] using hlex
  | @cut word shared missing hword hshared hmissing =>
    obtain ⟨d, shared, rfl⟩ := List.exists_cons_of_ne_nil hshared
    obtain ⟨w, missing, rfl⟩ := List.exists_cons_of_ne_nil hmissing
    obtain ⟨rfl, -⟩ := List.cons.inj hread.symm
    obtain ⟨next, hskip, hsplits, -⟩ :=
      lexWord?_letters word (w :: missing) h.moved_zero.toSplits
    rw [lexFrom?_word hword, hword, hskip, lexWord?, advance?_nil hsplits]
    refine ⟨{ next.moved 0 with finished := true }, ?_, rfl⟩
    simp [fail, hsplits.pos, byteLength_append]
  | @wrong word shared missing w d rest hword hshared hd =>
    obtain ⟨e, shared, rfl⟩ := List.exists_cons_of_ne_nil hshared
    obtain ⟨rfl, -⟩ := List.cons.inj hread.symm
    obtain ⟨next, hskip, hsplits, -⟩ :=
      lexWord?_letters word (w :: missing) h.moved_zero.toSplits
    rw [lexFrom?_word hword, hword, hskip, lexWord?, advance?_cons hsplits]
    refine ⟨{ next.past d with finished := true }, ?_, rfl⟩
    simp [hd, fail, minus?_add, hsplits.pos, byteLength_append]
  | character hpunctuation hquote hnumber hword =>
    obtain ⟨rfl, -⟩ := List.cons.inj hread.symm
    refine ⟨{ k.past c with finished := true }, ?_, rfl⟩
    simp [lexFrom?, hpunctuation, hquote, hnumber, hword, fail, h.start, byteLength]

/-! ## All tokens -/

/-- The number of bytes that a cursor has yet to take, and one more for the last token. -/
def left (json : List Char) (k : Cursor) : Nat := if k.finished then 0 else k.ahead json + 1

/-- Gives out all tokens from a cursor on.  A token that leaves as much to be read as there was is a
failure, lest there be no end to them. -/
def allTokens? (json : List Char) (k : Cursor) : Option (List Token) :=
  match k.next? json with
  | none => none
  | some (none, _) => some []
  | some (some t, last) =>
    if last.left json < k.left json then (allTokens? json last).map (t :: ·) else none
termination_by k.left json

theorem next?_finished (h : k.finished = true) : k.next? json = some (none, k) := by
  simp [next?, h]

/-- Blanks are skipped before a token begins. -/
theorem next?_blank {blank : List Char} (hblank : ∀ c ∈ blank, isBlank c = true)
    (hstops : Stops isBlank rest) (hk : k.finished = false)
    (h : k.Splits json before (blank ++ rest)) :
    ∃ ready : Cursor, ready.Ready json (before ++ blank) rest ∧ k.next? json =
      (ready.advance? json).bind fun (c?, last) =>
        match c? with
        | none => (last.emit? json .endOfInput).map fun t => (some t, { last with finished := true })
        | some c => (last.lexFrom? json c).map fun (t, last) => (some t, last) := by
  refine ⟨(k.moved (byteLength blank)).mark, ⟨h.moved.mark, h.moved.pos, hk⟩, ?_⟩
  simp [next?, hk, runWhile?_run hblank hstops h]

/-- After a last token there are no more. -/
theorem allTokens?_ends {last : Cursor} (hnext : k.next? json = some (some t, last))
    (hk : k.finished = false) (hlast : last.finished = true) : k.allTokens? json = some [t] := by
  have hless : last.left json < k.left json := by
    simp [left, hk, hlast]
  rw [allTokens?, hnext]
  simp only [if_pos hless]
  rw [allTokens?, next?_finished hlast]
  rfl

/-- A cursor gives out the tokens of a layout, one after the other. -/
theorem allTokens?_scan {offset edge : Nat} {front : List Token} {last : Token}
    (hscan : Scan offset cs front edge last) (h : k.Splits json before cs)
    (hoffset : offset = byteLength before) (hk : k.finished = false) :
    k.allTokens? json = some (front ++ [last]) := by
  induction hscan generalizing k before with
  | @finish offset blank hblank =>
    have hend : k.Splits json before (blank ++ []) := by simpa using h
    obtain ⟨ready, hready, hnext⟩ := next?_blank hblank .nil hk hend
    have hnone : (ready.moved 0).Splits json (before ++ blank ++ []) [] := by
      simpa using hready.toSplits.moved_zero
    have hemit := emit?_eq (show (ready.moved 0).start = _ from hready.start) hnone .endOfInput
    have hlast : k.next? json = some (some (atEnd (offset + byteLength blank)),
        { ready.moved 0 with finished := true }) := by
      rw [hnext, advance?_nil hready.toSplits]
      simp [hemit, hready.start, hready.pos, hoffset, byteLength_append, atEnd]
    exact allTokens?_ends hlast hk rfl
  | @stop offset blank read rest cause hblank hstart hbroken =>
    obtain ⟨c, cs, hcons⟩ := List.exists_cons_of_ne_nil hbroken.append_ne_nil
    obtain ⟨ready, hready, hnext⟩ := next?_blank hblank hstart hk h
    have hadvance : ready.advance? json = some (some c, ready.past c) :=
      advance?_cons (hcons ▸ hready.toSplits)
    obtain ⟨behind, hlex, hfinished⟩ := lexFrom?_broken hbroken hcons hready
    refine allTokens?_ends ?_ hk hfinished
    rw [hnext, hadvance]
    simp [hlex, hoffset, byteLength_append]
  | @token offset edge blank text whole rest kind front last hblank hspelling hends hrest ih =>
    obtain ⟨c, cs, hwhole, hc⟩ := hspelling.exists_cons
    have hstops : Stops isBlank (whole ++ rest) := by
      rw [hwhole]
      exact .cons hc _
    obtain ⟨ready, hready, hnext⟩ := next?_blank hblank hstops hk h
    have hfirst : ready.Splits json (before ++ blank) (c :: (cs ++ rest)) := by
      have hsplits := hready.toSplits
      rwa [hwhole] at hsplits
    have hadvance : ready.advance? json = some (some c, ready.past c) := advance?_cons hfirst
    obtain ⟨behind, hlex, hsplits, hfinished⟩ := lexFrom?_spelling hspelling hends hwhole hready
    have hpos : offset + byteLength blank + byteLength whole =
        byteLength (before ++ blank ++ whole) := by
      rw [byteLength_append, byteLength_append, hoffset]
    have hless : behind.left json < k.left json := by
      have hsize : 0 < byteLength whole := by
        have hsize := c.utf8Size_pos
        rw [hwhole, byteLength]
        omega
      simp only [left, hfinished, hk, hsplits.ahead, h.ahead, byteLength_append]
      simp
      omega
    rw [allTokens?, hnext, hadvance]
    simp [hlex, hless, ih hsplits hpos hfinished, hoffset, byteLength_append]

end Cursor

/-- The tokens of a text, read with a cursor. -/
def tokens? (json : String) : Option (List Token) := Cursor.atStart.allTokens? json.toList

/-- No access to a text is out of place while its tokens are read, and they are the tokens of the
text. -/
theorem tokens?_eq (json : String) : tokens? json = some (tokens json) := by
  obtain ⟨front, edge, last, htokens, hscan⟩ := Token.exists_scan 0 json.toList
  have hstart : Cursor.atStart.Splits json.toList [] json.toList := ⟨rfl, rfl⟩
  rw [tokens?, tokens, htokens]
  exact Cursor.allTokens?_scan hscan hstart rfl rfl

end JsonShape
