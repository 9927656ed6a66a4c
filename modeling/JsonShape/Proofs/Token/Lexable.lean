import JsonShape.Proofs.Token.Tiling

/-!
# The lexical language

A text is lexable if it can be cut into lexemes and blanks in some way.  The reader cuts it in one
way only, with every number as long as it can be, and loses nothing by that: the tokens of a text
end with the end of input exactly if the text is lexable.  A fault lies at the first character with
which no lexable text can go on.

* `IsLexeme`, `Lexable` — the lexical language; `Spelling.isLexeme`, `IsLexeme.exists_spelling`:
  its lexemes are what tokens are written with.
* `lexable_spelling_append` — a text is lexable behind a token exactly if it is lexable with it.
* `Broken.exists_lexable`, `Broken.not_lexable` — a broken lexeme can go on up to where it breaks,
  and not beyond.
* `tokens_lexable` — the tokens of a text, told by the language.
-/

namespace JsonShape

namespace Token

/-! ## The language -/

/-- Any signs, at least one digit, and any of the characters that may stand in a number. -/
def IsNumber (cs : List Char) : Prop :=
  ∃ signs digits tail, cs = signs ++ (digits ++ tail) ∧ (∀ c ∈ signs, isSign c = true) ∧
    (∀ c ∈ digits, isDigit c = true) ∧ digits ≠ [] ∧ ∀ c ∈ tail, isNumberTail c = true

/-- The lexemes of each kind of token.  A number may be of either kind: where its digits end, and
with that whether it has a tail, is not said here. -/
inductive IsLexeme : Kind → List Char → Prop where
  /-- The opening brace. -/
  | leftBrace : IsLexeme .leftBrace ['\x7b']
  /-- The closing brace. -/
  | rightBrace : IsLexeme .rightBrace ['\x7d']
  /-- The opening bracket. -/
  | leftBracket : IsLexeme .leftBracket ['[']
  /-- The closing bracket. -/
  | rightBracket : IsLexeme .rightBracket [']']
  /-- The comma. -/
  | comma : IsLexeme .comma [',']
  /-- The colon. -/
  | colon : IsLexeme .colon [':']
  /-- The word `null`. -/
  | nullWord : IsLexeme .null "null".toList
  /-- The word `true`. -/
  | trueWord : IsLexeme .bool "true".toList
  /-- The word `false`. -/
  | falseWord : IsLexeme .bool "false".toList
  /-- A string between its quotes. -/
  | string {body : List Char} (h : IsBody body) : IsLexeme .string ('"' :: (body ++ ['"']))
  /-- A number. -/
  | number {kind : Kind} {cs : List Char} (hkind : kind = .integer ∨ kind = .float)
      (h : IsNumber cs) : IsLexeme kind cs

/-- The texts that can be cut into lexemes and blanks. -/
inductive Lexable : List Char → Prop where
  /-- Nothing. -/
  | nil : Lexable []
  /-- A blank, and the rest. -/
  | blank {c : Char} {cs : List Char} (h : isBlank c = true) (rest : Lexable cs) : Lexable (c :: cs)
  /-- A lexeme, and the rest. -/
  | lexeme {kind : Kind} {whole cs : List Char} (h : IsLexeme kind whole) (rest : Lexable cs) :
      Lexable (whole ++ cs)

/-! ## Lexemes are spellings -/

theorem IsNumber.exists_spelling {cs : List Char} (h : IsNumber cs) :
    ∃ kind text, Spelling kind text cs := by
  obtain ⟨signs, digits, tail, rfl, hsigns, hdigits, hne, htail⟩ := h
  -- The digits of the token are all those before the first other character.
  obtain ⟨own, rest, hsplit, hown, hstops⟩ := exists_run isDigit (digits ++ tail)
  have hall : ∀ c ∈ digits ++ tail, isNumberTail c = true :=
    List.forall_mem_append.2 ⟨fun c hc => isNumberTail_of_isDigit (hdigits c hc), htail⟩
  rw [hsplit] at hall ⊢
  refine ⟨_, _, .number hsigns hown ?_ hstops (List.forall_mem_append.1 hall).2⟩
  rintro rfl
  obtain ⟨d, ds, rfl⟩ := List.exists_cons_of_ne_nil hne
  rw [List.nil_append] at hsplit
  rw [← hsplit] at hstops
  have hd := hstops d rfl
  rw [hdigits d List.mem_cons_self] at hd
  cases hd

/-- Every lexeme is a spelling, though a number may be that of the other kind. -/
theorem IsLexeme.exists_spelling {kind : Kind} {whole : List Char} (h : IsLexeme kind whole) :
    ∃ kind text, Spelling kind text whole := by
  cases h with
  | leftBrace | rightBrace | leftBracket | rightBracket | comma | colon =>
    exact ⟨_, _, .punctuation rfl⟩
  | nullWord => exact ⟨_, _, .word .nullWord⟩
  | trueWord => exact ⟨_, _, .word .trueWord⟩
  | falseWord => exact ⟨_, _, .word .falseWord⟩
  | string h => exact ⟨_, _, .string h⟩
  | number hkind h => exact h.exists_spelling

theorem Spelling.isNumber {kind : Kind} {text whole : List Char} (h : Spelling kind text whole)
    (hkind : kind = .integer ∨ kind = .float) : IsNumber whole := by
  obtain ⟨signs, digits, tail, heq, hsigns, hdigits, hne, -, htail, -⟩ := h.exists_number hkind
  exact ⟨signs, digits, tail, heq, hsigns, hdigits, hne, htail⟩

theorem isLexeme_of_ofPunctuation? {c : Char} {kind : Kind}
    (h : Kind.ofPunctuation? c = some kind) : IsLexeme kind [c] := by
  unfold Kind.ofPunctuation? at h
  split_ifs at h with h₁ h₂ h₃ h₄ h₅ h₆ <;> cases h
  · exact h₁ ▸ .leftBrace
  · exact h₂ ▸ .rightBrace
  · exact h₃ ▸ .leftBracket
  · exact h₄ ▸ .rightBracket
  · exact h₅ ▸ .comma
  · exact h₆ ▸ .colon

/-- Every spelling is a lexeme of its kind. -/
theorem Spelling.isLexeme {kind : Kind} {text whole : List Char} (h : Spelling kind text whole) :
    IsLexeme kind whole := by
  by_cases hkind : kind = .integer ∨ kind = .float
  · exact .number hkind (h.isNumber hkind)
  · cases h with
    | punctuation h => exact isLexeme_of_ofPunctuation? h
    | word word =>
      cases word with
      | nullWord => exact .nullWord
      | trueWord => exact .trueWord
      | falseWord => exact .falseWord
    | string h => exact .string h
    | integer => exact absurd (Or.inl rfl) hkind
    | float => exact absurd (Or.inr rfl) hkind

/-! ## Numbers -/

theorem isNumberTail_of_isSign_or_isDigit {c : Char} (h : (isSign c || isDigit c) = true) :
    isNumberTail c = true := by
  rcases Bool.or_eq_true_iff.1 h with h | h <;> simp [isNumberTail, h]

theorem isBlank_of_isNumberTail {c : Char} (h : isNumberTail c = true) : isBlank c = false := by
  rw [Bool.eq_false_iff]
  intro hblank
  rw [isBlank, Bool.or_eq_true, Bool.or_eq_true, Bool.or_eq_true] at hblank
  simp only [decide_eq_true_iff] at hblank
  rcases hblank with ((rfl | rfl) | rfl) | rfl <;> exact absurd h (by decide)

theorem IsNumber.forall_isNumberTail {cs : List Char} (h : IsNumber cs) :
    ∀ c ∈ cs, isNumberTail c = true := by
  obtain ⟨signs, digits, tail, rfl, hsigns, hdigits, -, htail⟩ := h
  refine List.forall_mem_append.2 ⟨fun c hc => ?_, List.forall_mem_append.2 ⟨fun c hc => ?_, htail⟩⟩
  · exact isNumberTail_of_isSign_or_isDigit (by rw [hsigns c hc, Bool.true_or])
  · exact isNumberTail_of_isDigit (hdigits c hc)

/-- No other token begins with a character that may stand in a number. -/
theorem Spelling.isNumber_of_head {kind : Kind} {text cs : List Char} {c : Char}
    (h : Spelling kind text (c :: cs)) (hc : isNumberTail c = true) :
    kind = .integer ∨ kind = .float := by
  generalize hwhole : c :: cs = whole at h
  cases h with
  | punctuation h =>
    obtain ⟨rfl, rfl⟩ := List.cons.inj hwhole
    unfold Kind.ofPunctuation? at h
    split_ifs at h with h₁ h₂ h₃ h₄ h₅ h₆ <;> subst c <;> exact absurd hc (by decide)
  | word word =>
    cases word with
    | nullWord =>
      obtain ⟨rfl, -⟩ := List.cons.inj (hwhole.trans spelling_nullWord)
      exact absurd hc (by decide)
    | trueWord =>
      obtain ⟨rfl, -⟩ := List.cons.inj (hwhole.trans spelling_trueWord)
      exact absurd hc (by decide)
    | falseWord =>
      obtain ⟨rfl, -⟩ := List.cons.inj (hwhole.trans spelling_falseWord)
      exact absurd hc (by decide)
  | string h =>
    obtain ⟨rfl, -⟩ := List.cons.inj hwhole
    exact absurd hc (by decide)
  | integer => exact Or.inl rfl
  | float => exact Or.inr rfl

/-- A run of a class that the text behind it does not continue begins with every other run of the
class with which the text begins. -/
theorem exists_eq_append_of_stops {p : Char → Bool} {run rest own others : List Char}
    (hrest : Stops p rest) (hown : ∀ c ∈ own, p c = true) (h : run ++ rest = own ++ others) :
    ∃ more, run = own ++ more ∧ others = more ++ rest := by
  rcases List.append_eq_append_iff.1 h with ⟨more, rfl, hsplit⟩ | ⟨more, hrun, hothers⟩
  · cases more with
    | nil => exact ⟨[], by simp, by simpa using hsplit.symm⟩
    | cons d more =>
      rw [hsplit] at hrest
      have hd := hrest d rfl
      rw [hown d (by simp)] at hd
      cases hd
  · exact ⟨more, hrun, hothers⟩

/-! ## Cutting a text -/

theorem Lexable.append {xs ys : List Char} (hxs : Lexable xs) (hys : Lexable ys) :
    Lexable (xs ++ ys) := by
  induction hxs with
  | nil => exact hys
  | blank h _ ih => exact .blank h ih
  | lexeme h _ ih =>
    rw [List.append_assoc]
    exact .lexeme h ih

theorem Spelling.lexable {kind : Kind} {text whole : List Char} (h : Spelling kind text whole) :
    Lexable whole := by
  rw [← List.append_nil whole]
  exact .lexeme h.isLexeme .nil

theorem lexable_cons_blank {c : Char} {cs : List Char} (hc : isBlank c = true) :
    Lexable (c :: cs) ↔ Lexable cs := by
  refine ⟨fun h => ?_, .blank hc⟩
  generalize hall : c :: cs = all at h
  cases h with
  | nil => cases hall
  | blank _ rest =>
    obtain ⟨-, rfl⟩ := List.cons.inj hall
    exact rest
  | lexeme h rest =>
    obtain ⟨kind, text, hspelling⟩ := h.exists_spelling
    obtain ⟨d, ds, rfl, hd⟩ := hspelling.exists_cons
    obtain ⟨rfl, -⟩ := List.cons.inj hall
    rw [hc] at hd
    cases hd

theorem lexable_blank_append {blank cs : List Char} (h : ∀ c ∈ blank, isBlank c = true) :
    Lexable (blank ++ cs) ↔ Lexable cs := by
  induction blank with
  | nil => exact Iff.rfl
  | cons c blank ih =>
    obtain ⟨hc, hblank⟩ := List.forall_mem_cons.1 h
    exact (lexable_cons_blank hc).trans (ih hblank)

theorem lexable_of_blank {blank : List Char} (h : ∀ c ∈ blank, isBlank c = true) :
    Lexable blank := by
  rw [← List.append_nil blank]
  exact (lexable_blank_append h).2 .nil

/-- A lexable text that does not begin with a blank begins with a spelling. -/
theorem Lexable.exists_spelling {c : Char} {cs : List Char} (h : Lexable (c :: cs))
    (hc : isBlank c = false) :
    ∃ kind text own rest, Spelling kind text (c :: own) ∧ cs = own ++ rest ∧ Lexable rest := by
  generalize hall : c :: cs = all at h
  cases h with
  | nil => cases hall
  | blank hblank _ =>
    obtain ⟨rfl, -⟩ := List.cons.inj hall
    rw [hc] at hblank
    cases hblank
  | @lexeme _ whole others h rest =>
    obtain ⟨kind, text, hspelling⟩ := h.exists_spelling
    obtain ⟨d, own, rfl, -⟩ := hspelling.exists_cons
    obtain ⟨rfl, rfl⟩ := List.cons.inj hall
    exact ⟨kind, text, own, others, hspelling, rfl, rest⟩

/-- However the characters of a number are cut, what follows them is cut by itself. -/
theorem Lexable.of_run {run rest : List Char} (hrun : ∀ c ∈ run, isNumberTail c = true)
    (hrest : Stops isNumberTail rest) (h : Lexable (run ++ rest)) : Lexable rest := by
  induction hlength : run.length using Nat.strong_induction_on generalizing run with
  | _ length ih =>
    cases run with
    | nil => exact h
    | cons c run =>
      obtain ⟨hc, -⟩ := List.forall_mem_cons.1 hrun
      obtain ⟨kind, text, own, others, hspelling, hsplit, hothers⟩ :=
        h.exists_spelling (isBlank_of_isNumberTail hc)
      have hnumber := (hspelling.isNumber (hspelling.isNumber_of_head hc)).forall_isNumberTail
      obtain ⟨more, rfl, rfl⟩ :=
        exists_eq_append_of_stops hrest (List.forall_mem_cons.1 hnumber).2 hsplit
      refine ih more.length ?_ ?_ hothers rfl
      · rw [← hlength, List.length_cons, List.length_append]
        omega
      · intro d hd
        exact hrun d (List.mem_cons_of_mem _ (List.mem_append_right _ hd))

/-- A text is lexable behind a token exactly if it is lexable with it: where another cut would take
a part of the token, the rest of the token is taken by further lexemes. -/
theorem lexable_spelling_append {kind : Kind} {text whole rest : List Char}
    (h : Spelling kind text whole) (hends : kind.EndsAt rest) :
    Lexable (whole ++ rest) ↔ Lexable rest := by
  refine ⟨fun hlexable => ?_, h.lexable.append⟩
  by_cases hkind : kind = .integer ∨ kind = .float
  · exact hlexable.of_run (h.isNumber hkind).forall_isNumberTail (hends hkind)
  · obtain ⟨c, cs, rfl, hblank⟩ := h.exists_cons
    rw [List.cons_append] at hlexable
    obtain ⟨otherKind, otherText, own, others, hspelling, hsplit, hothers⟩ :=
      hlexable.exists_spelling hblank
    -- The other cut begins with no number either, so that both begin with what the reader takes.
    have hother : ¬ (otherKind = .integer ∨ otherKind = .float) := by
      intro hother
      have hc := (hspelling.isNumber hother).forall_isNumberTail c List.mem_cons_self
      exact hkind (h.isNumber_of_head hc)
    have hread := readLexeme_append h hends
    have hreadOther : readLexeme c (own ++ others) = .ok ⟨otherKind, otherText, others⟩ :=
      readLexeme_append hspelling fun hnumber => absurd hnumber hother
    rw [hsplit, hreadOther] at hread
    cases hread
    exact hothers

/-! ## Broken lexemes -/

/-- No lexable text begins with a broken lexeme and the character at which it breaks. -/
theorem Broken.not_lexable {cause : Fault} {read rest : List Char} (h : Broken cause read rest)
    (hstart : Stops isBlank (read ++ rest)) : ¬ Lexable (read ++ rest) := by
  intro hlexable
  obtain ⟨c, cs, hcons⟩ := List.exists_cons_of_ne_nil h.append_ne_nil
  have hread := h.readLexeme_eq hcons.symm
  rw [hcons] at hlexable hstart
  obtain ⟨kind, text, own, others, hspelling, rfl, -⟩ := hlexable.exists_spelling (hstart c rfl)
  obtain ⟨l, hl⟩ := hspelling.exists_readLexeme others
  rw [hread] at hl
  cases hl

theorem IsBody.append {xs ys : List Char} (hxs : IsBody xs) (hys : IsBody ys) :
    IsBody (xs ++ ys) := by
  induction hxs with
  | nil => exact hys
  | plain hquote hbackslash _ ih => exact .plain hquote hbackslash ih
  | escape c _ ih => exact .escape c ih

/-- A broken lexeme can go on to a lexable text, up to where it breaks. -/
theorem Broken.exists_lexable {cause : Fault} {read rest : List Char}
    (h : Broken cause read rest) : ∃ more, Lexable (read ++ more) := by
  cases h with
  | string h =>
    rcases h with h | ⟨body, h, rfl⟩
    · exact ⟨['"'], (Spelling.string h).lexable⟩
    · -- The lone backslash takes the first quote along.
      refine ⟨['"', '"'], ?_⟩
      have hbody : IsBody (body ++ ['\\', '"']) := h.append (.escape '"' .nil)
      have hlexable := (Spelling.string hbody).lexable
      simpa using hlexable
  | @signs signs _ hsigns =>
    refine ⟨['0'], (Spelling.integer hsigns ?_ (List.cons_ne_nil _ _)).lexable⟩
    simp [isDigit]
  | @cut word shared missing hword =>
    refine ⟨missing, ?_⟩
    rw [← hword]
    exact (Spelling.word word).lexable
  | @wrong word shared missing w _ _ hword =>
    refine ⟨w :: missing, ?_⟩
    rw [← hword]
    exact (Spelling.word word).lexable
  | character => exact ⟨[], .nil⟩

/-! ## The tokens of a text -/

/-- Whether a text extends a token is told by its first character. -/
theorem Kind.EndsAt.of_head? {kind : Kind} {before xs ys : List Char}
    (h : kind.EndsAt (before ++ xs)) (hhead : ys.head? = xs.head?) :
    kind.EndsAt (before ++ ys) := by
  intro hkind c hc
  refine h hkind c ?_
  rwa [List.head?_append, hhead, ← List.head?_append] at hc

/-- A text with a layout is lexable, or it is lexable up to a broken lexeme; and as long as the text
goes on there with the same character, it is lexable with what precedes exactly if it is lexable. -/
theorem Scan.lexable_cases {offset edge : Nat} {cs : List Char} {front : List Token} {last : Token}
    (h : Scan offset cs front edge last) :
    (Lexable cs ∧ last.kind = .endOfInput) ∨
      ∃ before read rest cause, cs = before ++ (read ++ rest) ∧
        last = atFault cause (offset + byteLength (before ++ read)) ∧ Lexable before ∧
          Broken cause read rest ∧ Stops isBlank (read ++ rest) ∧
            ∀ others, others.head? = (read ++ rest).head? →
              (Lexable (before ++ others) ↔ Lexable others) := by
  induction h with
  | finish hblank => exact Or.inl ⟨lexable_of_blank hblank, rfl⟩
  | @stop offset blank read rest cause hblank hstart hbroken =>
    refine Or.inr
      ⟨blank, read, rest, cause, rfl, ?_, lexable_of_blank hblank, hbroken, hstart, ?_⟩
    · rw [byteLength_append, Nat.add_assoc]
    · intro others _
      exact lexable_blank_append hblank
  | @token offset edge blank text whole rest kind front last hblank hspelling hends hrest ih =>
    rcases ih with ⟨hlexable, hlast⟩ |
      ⟨before, read, behind, cause, rfl, hlast, hbefore, hbroken, hstart, hothers⟩
    · refine Or.inl ⟨?_, hlast⟩
      exact (lexable_blank_append hblank).2 ((lexable_spelling_append hspelling hends).2 hlexable)
    · refine Or.inr
        ⟨blank ++ (whole ++ before), read, behind, cause, ?_, ?_, ?_, hbroken, hstart, ?_⟩
      · simp only [List.append_assoc]
      · simp only [hlast, byteLength_append, Nat.add_assoc]
      · exact (lexable_blank_append hblank).2 (hspelling.lexable.append hbefore)
      · intro others hhead
        rw [List.append_assoc, List.append_assoc, lexable_blank_append hblank,
          lexable_spelling_append hspelling (hends.of_head? hhead), hothers others hhead]

/-- A text ceases at the byte `n` to be the beginning of a lexable one: up to there it is, and with
the next character it is not; if there is no next character, the text itself is not lexable. -/
def CeasesAt (cs : List Char) (n : Nat) : Prop :=
  ∃ read rest, cs = read ++ rest ∧ n = byteLength read ∧ (∃ more, Lexable (read ++ more)) ∧
    match rest with
    | [] => ¬ Lexable read
    | c :: _ => ∀ more, ¬ Lexable (read ++ c :: more)

/-- The token `t` stands in the text with a lexeme of its kind.  A number is the longest one that
begins there, and it is a float exactly if it has a tail behind its digits. -/
def IsTaken (cs : List Char) (t : Token) : Prop :=
  ∃ before whole after, cs = before ++ (whole ++ after) ∧ t.outerStart = byteLength before ∧
    t.written.toList = whole ∧ IsLexeme t.kind whole ∧
      (t.kind = .integer ∨ t.kind = .float →
        (∀ longer others, whole ++ after = longer ++ others → IsNumber longer →
          longer.length ≤ whole.length) ∧
          ∃ signs digits tail, whole = signs ++ (digits ++ tail) ∧ (∀ c ∈ signs, isSign c = true) ∧
            (∀ c ∈ digits, isDigit c = true) ∧ digits ≠ [] ∧ Stops isDigit tail ∧
              (∀ c ∈ tail, isNumberTail c = true) ∧ (t.kind = .float ↔ tail ≠ []))

theorem Scan.isTaken {edge : Nat} {cs : List Char} {front : List Token} {last t : Token}
    (h : Scan 0 cs front edge last) (ht : t ∈ front) : IsTaken cs t := by
  obtain ⟨before, whole, after, kind, text, hsplit, hspelling, hends, rfl⟩ := h.exists_spelling ht
  refine ⟨before, whole, after, hsplit, ?_, ?_, hspelling.isLexeme, fun hkind => ⟨?_, ?_⟩⟩
  · rw [outerStart_token, Nat.zero_add]
  · rw [written_token hspelling, String.toList_ofList]
  · intro longer others heq hlonger
    obtain ⟨more, rfl, -⟩ :=
      exists_eq_append_of_stops (hends hkind) hlonger.forall_isNumberTail heq
    rw [List.length_append]
    omega
  · exact hspelling.exists_number hkind

theorem Scan.ceasesAt {edge : Nat} {cs : List Char} {front : List Token} {last : Token}
    (h : Scan 0 cs front edge last) (hlast : last.kind ≠ .endOfInput) :
    ¬ Lexable cs ∧ CeasesAt cs last.start := by
  rcases h.lexable_cases with ⟨-, hend⟩ |
    ⟨before, read, rest, cause, rfl, rfl, hbefore, hbroken, hstart, hothers⟩
  · exact absurd hend hlast
  · have hnot : ¬ Lexable (before ++ (read ++ rest)) := by
      rw [hothers _ rfl]
      exact hbroken.not_lexable hstart
    refine ⟨hnot, before ++ read, rest, (List.append_assoc ..).symm, Nat.zero_add _, ?_, ?_⟩
    · obtain ⟨more, hmore⟩ := hbroken.exists_lexable
      refine ⟨more, ?_⟩
      rw [List.append_assoc]
      exact hbefore.append hmore
    · cases rest with
      | nil => rwa [List.append_nil] at hnot
      | cons c rest =>
        intro more
        have hhead : (read ++ c :: more).head? = (read ++ c :: rest).head? := by
          rw [List.head?_append, List.head?_append]
          rfl
        rw [List.append_assoc, hothers _ hhead]
        refine (hbroken.of_cons more).not_lexable ?_
        intro d hd
        rw [hhead] at hd
        exact hstart d hd

/-- The tokens of a text end with the end of input exactly if the text can be cut, in some way, into
lexemes and blanks.  Those before the last one are lexemes of their kinds, and the last one, if it
is a fault, lies where the text ceases to be the beginning of a lexable one. -/
theorem tokens_lexable (json : String) :
    ∃ front last, tokens json = front ++ [last] ∧ (∀ t ∈ front, ¬ t.IsLast) ∧ last.IsLast ∧
      (last.kind = .endOfInput ↔ Lexable json.toList) ∧ (∀ t ∈ front, IsTaken json.toList t) ∧
        ∀ cause, last.kind = .fault cause → CeasesAt json.toList last.start := by
  obtain ⟨front, edge, last, htokens, hscan⟩ := exists_scan 0 json.toList
  have htiling := hscan.tiling
  refine ⟨front, last, htokens, htiling.inner, htiling.isLast, ⟨?_, ?_⟩, fun t => hscan.isTaken, ?_⟩
  · intro hlast
    rcases hscan.lexable_cases with ⟨hlexable, -⟩ | ⟨before, read, rest, cause, -, rfl, -⟩
    · exact hlexable
    · cases hlast
  · intro hlexable
    by_contra hlast
    exact (hscan.ceasesAt hlast).1 hlexable
  · intro cause hcause
    refine (hscan.ceasesAt ?_).2
    rw [hcause]
    exact nofun

end Token

end JsonShape
