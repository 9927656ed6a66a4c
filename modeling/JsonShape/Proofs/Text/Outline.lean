import JsonShape.Proofs.Text.Completeness
import JsonShape.Proofs.Document.Reachability

/-!
# What of a text matters

Of the tokens of a text only their kinds matter, and the texts of its keys.  Where the tokens stand,
what numbers and strings are values, which truth values occur and why a token could not be read: two
texts that differ in nothing else have the same declaration, or fail in the same way.

* `IsKey` — the strings of a list of tokens that are keys, and `Reaches.awaitsKey_iff`: the reader
  takes those as keys.
* `SameOutline` — lists of tokens that differ in nothing that matters.
* `step_agree`, `result_run_agree` — two readings side by side: one token, and all of them.
* `generate_sameOutline` — texts with the same outline.
-/

namespace JsonShape

/-- Kinds that are the same but for the cause of a fault. -/
def Token.Kind.Alike : Kind → Kind → Prop
  | .fault _, .fault _ => True
  | kind, other => kind = other

/-- Errors that are the same but for the token or the place where they arise, and the cause of a
fault. -/
inductive Error.Alike : Error → Error → Prop
  /-- Faults. -/
  | lexical (cause other : Fault) (offset otherOffset : Nat) :
      Alike (lexical cause offset) (lexical other otherOffset)
  /-- Tokens that open no root. -/
  | invalidRoot (found other : Token) : Alike (invalidRoot found) (invalidRoot other)
  /-- Tokens without a place in containers of the same sort. -/
  | unexpected (found other : Token) (context : Container) :
      Alike (unexpected found context) (unexpected other context)
  /-- Commas before the ends of containers of the same sort. -/
  | trailingComma (context : Container) (offset otherOffset : Nat) :
      Alike (trailingComma context offset) (trailingComma context otherOffset)
  /-- Ends inside containers of the same sort. -/
  | unexpectedEnd (context : Container) : Alike (unexpectedEnd context) (unexpectedEnd context)
  /-- Tokens behind a document. -/
  | trailingContent (found other : Token) : Alike (trailingContent found) (trailingContent other)
  /-- Containers that are too deep under the same limit. -/
  | nestingTooDeep (limit offset otherOffset : Nat) :
      Alike (nestingTooDeep limit offset) (nestingTooDeep limit otherOffset)
  /-- Trees of the same kind. -/
  | unsupportedRoot (kind : Node.Kind) : Alike (unsupportedRoot kind) (unsupportedRoot kind)

theorem Token.Kind.Alike.faults_or_eq {kind other : Kind} (h : kind.Alike other) :
    (∃ cause detail, kind = .fault cause ∧ other = .fault detail) ∨
      kind = other ∧ ∀ cause, kind ≠ .fault cause := by
  cases kind with
  | fault cause =>
    cases other with
    | fault detail => exact Or.inl ⟨cause, detail, rfl, rfl⟩
    | _ => cases h
  | _ => exact Or.inr ⟨h, fun cause => Token.Kind.noConfusion⟩

theorem Error.Alike.refl (e : Error) : e.Alike e := by
  cases e <;> constructor

/-- Two outcomes that do not tell apart what they came of: the same result, or errors alike. -/
inductive Agree {α : Type} : Except Error α → Except Error α → Prop
  /-- The same result. -/
  | ok (a : α) : Agree (.ok a) (.ok a)
  /-- Errors alike. -/
  | error {e other : Error} (h : e.Alike other) : Agree (.error e) (.error other)

namespace Agree

theorem refl {α : Type} (r : Except Error α) : Agree r r := by
  cases r with
  | ok a => exact .ok a
  | error e => exact .error (.refl e)

theorem ok_or_error {α : Type} {r s : Except Error α} (h : Agree r s) :
    (∃ a, r = .ok a ∧ s = .ok a) ∨ ∃ e e', r = .error e ∧ s = .error e' ∧ e.Alike e' := by
  cases h with
  | ok a => exact Or.inl ⟨a, rfl, rfl⟩
  | error h => exact Or.inr ⟨_, _, rfl, rfl, h⟩

/-- What is made of two outcomes in the same way agrees if they do. -/
theorem bind {α β : Type} {r s : Except Error α} (h : Agree r s) (f : α → Except Error β) :
    Agree (r.bind f) (s.bind f) := by
  cases h with
  | ok a => exact .refl (f a)
  | error h => exact .error h

end Agree

namespace Document

variable {limit : Nat} {t u : Token} {p q : Position} {before ts us : List Token}

/-! ## Keys -/

/-- Whether a string would be a key at a position. -/
def Position.AwaitsKey : Position → Prop
  | .inside (.object _ .keyOrClose) _ | .inside (.object _ .key) _ => True
  | _ => False

/-- Whether a token behind some others is a key: they can be read, the innermost container that they
leave open is an object, they end with its opening brace or a comma, and the token is a string. -/
def IsKey (before : List Token) (t : Token) : Prop :=
  (∃ limit p, Reaches limit before p) ∧ (openContainers before).head? = some .object ∧
    (∃ u ∈ before.getLast?, u.kind = .leftBrace ∨ u.kind = .comma) ∧ t.kind = .string

theorem not_awaitsKey_complete (value : Node) (slots : List Slot) :
    ¬ (complete value slots).position.AwaitsKey := by
  match slots with
  | [] => exact id
  | .member members key :: outer => exact id
  | .element elements :: outer => exact id

/-- A key comes next exactly behind the opening brace of an object and behind a comma in one. -/
theorem Moves.awaitsKey_iff (h : Moves limit t p q) : q.AwaitsKey ↔
    q.containers.head? = some .object ∧ (t.kind = .leftBrace ∨ t.kind = .comma) := by
  cases h with
  | openObject hslots hkind => simp [Position.AwaitsKey, Position.containers, Open.container, hkind]
  | openArray hslots hkind => simp [Position.AwaitsKey, Position.containers, Open.container]
  | @primitive current outer slots type hslots hkind =>
    refine iff_of_false (not_awaitsKey_complete _ _) fun hnext => ?_
    rw [hkind] at hnext
    cases type <;> simp [Token.kindOf] at hnext
  | closeObject hstate hkind =>
    exact iff_of_false (not_awaitsKey_complete _ _) fun hnext => by simp [hkind] at hnext
  | closeArray hstate hkind =>
    exact iff_of_false (not_awaitsKey_complete _ _) fun hnext => by simp [hkind] at hnext
  | key hstate hkind => simp [Position.AwaitsKey, hkind]
  | colon hkind => simp [Position.AwaitsKey, hkind]
  | nextMember hkind => simp [Position.AwaitsKey, Position.containers, Open.container, hkind]
  | nextElement hkind => simp [Position.AwaitsKey, Position.containers, Open.container]

/-- The tokens before a position tell whether a key comes next. -/
theorem Reaches.awaitsKey_iff (h : Reaches limit before p) : p.AwaitsKey ↔
    (openContainers before).head? = some .object ∧
      ∃ u ∈ before.getLast?, u.kind = .leftBrace ∨ u.kind = .comma := by
  rw [h.openContainers_eq]
  cases h with
  | start => simp [Position.AwaitsKey, Position.containers]
  | token h hstep => simp [(moves_of_step hstep).awaitsKey_iff]

/-- The reader takes a string as a key where it is one. -/
theorem Reaches.isKey (h : Reaches limit before p) (hkey : p.AwaitsKey) (hkind : t.kind = .string) :
    IsKey before t := by
  obtain ⟨hopen, hlast⟩ := h.awaitsKey_iff.1 hkey
  exact ⟨⟨limit, p, h⟩, hopen, hlast, hkind⟩

/-! ## One token -/

theorem enter_agree (container : Open) (slots : List Slot) :
    Agree (enter limit t container slots) (enter limit u container slots) := by
  unfold enter
  split
  · exact .ok _
  · exact .error (.nestingTooDeep ..)

theorem beginValue?_agree (hkind : t.kind = u.kind) (slots : List Slot) (context : Container) :
    Agree ((beginValue? limit t slots).getD (.error (.unexpected t context)))
      ((beginValue? limit u slots).getD (.error (.unexpected u context))) := by
  cases hstarts : u.kind.startsValue with
  | false =>
    rw [beginValue?_none hstarts, beginValue?_none (by rw [hkind, hstarts])]
    exact .error (.unexpected ..)
  | true =>
    rcases startsValue_iff.1 hstarts with hu | hu | ⟨type, hu⟩
    · rw [beginValue?_leftBrace hu, beginValue?_leftBrace (hkind.trans hu)]
      exact enter_agree _ _
    · rw [beginValue?_leftBracket hu, beginValue?_leftBracket (hkind.trans hu)]
      exact enter_agree _ _
    · rw [beginValue?_primitive hu, beginValue?_primitive (hkind.trans hu)]
      exact .ok _

/-- Two tokens of a kind lead on to the same position, or are refused alike. -/
theorem step_agree (hkind : t.kind = u.kind)
    (hkey : p.AwaitsKey → t.kind = .string → t.text = u.text) :
    Agree (step limit t p) (step limit u p) := by
  match p with
  | .start =>
    simp only [step, hkind]
    split
    · exact enter_agree _ _
    · exact enter_agree _ _
    · exact .error (.invalidRoot ..)
  | .inside (.object members .keyOrClose) outer =>
    simp only [step, stepObject, hkind]
    split
    · rename_i hstring
      rw [hkey trivial (hkind.trans hstring)]
      exact .ok _
    · exact .ok _
    · exact .error (.unexpected ..)
  | .inside (.object members .key) outer =>
    simp only [step, stepObject, hkind]
    split
    · rename_i hstring
      rw [hkey trivial (hkind.trans hstring)]
      exact .ok _
    · exact .error (.trailingComma ..)
    · exact .error (.unexpected ..)
  | .inside (.object members (.colon key)) outer =>
    simp only [step, stepObject, hkind]
    split
    · exact .ok _
    · exact .error (.unexpected ..)
  | .inside (.object members (.value key)) outer => exact beginValue?_agree hkind _ _
  | .inside (.object members .commaOrClose) outer =>
    simp only [step, stepObject, hkind]
    split
    · exact .ok _
    · exact .ok _
    · exact .error (.unexpected ..)
  | .inside (.array elements .valueOrClose) outer =>
    simp only [step, stepArray, hkind]
    split
    · exact .ok _
    · exact beginValue?_agree hkind _ _
  | .inside (.array elements .value) outer =>
    simp only [step, stepArray, hkind]
    split
    · exact .error (.trailingComma ..)
    · exact beginValue?_agree hkind _ _
  | .inside (.array elements .commaOrClose) outer =>
    simp only [step, stepArray, hkind]
    split
    · exact .ok _
    · exact .ok _
    · exact .error (.unexpected ..)
  | .done root => exact .error (.trailingContent ..)

theorem finish_agree (t u : Token) (p : Position) : Agree (finish t p) (finish u p) := by
  cases p with
  | start => exact .error (.invalidRoot ..)
  | inside current outer => exact .error (.unexpectedEnd _)
  | done root => exact .ok root

/-! ## All tokens -/

/-- Lists of tokens that differ in nothing that matters: place by place the tokens are of the same
kind, and where the token is a key they have the same text. -/
structure SameOutline (items others : List Token) : Prop where
  /-- The kinds are the same. -/
  kinds : List.Forall₂ (fun t u => t.kind.Alike u.kind) items others
  /-- The keys are the same. -/
  keys : ∀ (i : Nat) (t u : Token), items[i]? = some t → others[i]? = some u →
    IsKey (items.take i) t → t.text = u.text

/-- Readings of tokens with the same outline agree, from any position that the tokens before them
lead to. -/
theorem result_run_agree (hreach : Reaches limit before p)
    (hkinds : List.Forall₂ (fun t u => t.kind.Alike u.kind) ts us)
    (hkeys : ∀ (i : Nat) (t u : Token), ts[i]? = some t → us[i]? = some u →
      IsKey (before ++ ts.take i) t → t.text = u.text) (stop other : Nat) :
    Agree (run limit p stop ts).result (run limit p other us).result := by
  induction hkinds generalizing before p stop other with
  | nil => exact finish_agree _ _ p
  | @cons t u ts us halike _ ih =>
    rcases halike.faults_or_eq with ⟨cause, detail, ht, hu⟩ | ⟨hkind, hfault⟩
    · rw [result_run_fault ht, result_run_fault hu]
      exact .error (.lexical ..)
    by_cases hend : t.kind = .endOfInput
    · rw [result_run_endOfInput hend, result_run_endOfInput (hkind ▸ hend)]
      exact finish_agree t u p
    have hkey : p.AwaitsKey → t.kind = .string → t.text = u.text := by
      intro hawaits hstring
      refine hkeys 0 t u rfl rfl ?_
      rw [List.take_zero, List.append_nil]
      exact hreach.isKey hawaits hstring
    have hstep : Agree (step limit t p) (step limit u p) := step_agree hkind hkey
    cases ht : step limit t p with
    | error e =>
      cases hu : step limit u p with
      | ok b => rw [ht, hu] at hstep; cases hstep
      | error e' =>
        rw [ht, hu] at hstep
        rw [result_run_of_step_error hend hfault ht,
          result_run_of_step_error (hkind ▸ hend) (hkind ▸ hfault) hu]
        cases hstep with
        | error he => exact .error he
    | ok a =>
      have hu : step limit u p = .ok a := by
        rw [ht] at hstep
        generalize step limit u p = r at hstep ⊢
        cases hstep with
        | ok a => rfl
      rw [result_run_of_step ht, result_run_of_step hu]
      refine ih (hreach.token ht) (fun i t' u' ht' hu' hisKey => ?_) _ _
      -- The token at place `i` behind `t` is the one at place `i + 1`.
      refine hkeys (i + 1) t' u' ht' hu' ?_
      rwa [List.take_succ_cons, List.append_cons]

end Document

namespace Generator

/-- Texts whose tokens have the same outline have the same declaration, or fail with errors that
differ only in the tokens that they show, in the places that they name and in the causes of faults.
Of the texts' blanks, of their numbers and truth values and of strings that are no keys nothing else
comes out. -/
theorem generate_sameOutline {json other : String}
    (h : Document.SameOutline (tokens json) (tokens other)) (options : Options) :
    (∃ source, generate options json = .ok source ∧ generate options other = .ok source) ∨
      ∃ e e', generate options json = .error e ∧ generate options other = .error e' ∧
        e.Alike e' := by
  have hread : Agree (parse json options.maxDepth) (parse other options.maxDepth) :=
    Document.result_run_agree .start h.kinds (by simpa using h.keys) 0 0
  rw [Text.generate_eq, Text.generate_eq]
  rcases (hread.bind Inferred.ofRoot).ok_or_error with ⟨inferred, hok, hother⟩ | ⟨e, e', he, he', halike⟩
  · exact Or.inl ⟨inferred.shape.declaration options, congrArg _ hok, congrArg _ hother⟩
  · exact Or.inr ⟨e, e', congrArg _ he, congrArg _ he', halike⟩

/-- A text with a string behind its key. -/
def named : String := "\x7b\"name\": \"x\"\x7d"

/-- The same text with another string and other blanks. -/
def renamed : String := "\x7b \"name\":\"\"\x7d\n"

theorem named_sameOutline : Document.SameOutline (tokens named) (tokens renamed) := by
  have hnamed : tokens named = [⟨.leftBrace, 0, 1, "\x7b"⟩, ⟨.string, 2, 6, "name"⟩,
      ⟨.colon, 7, 8, ":"⟩, ⟨.string, 10, 11, "x"⟩, ⟨.rightBrace, 12, 13, "\x7d"⟩, .atEnd 13] := by
    decide +kernel
  have hrenamed : tokens renamed = [⟨.leftBrace, 0, 1, "\x7b"⟩, ⟨.string, 3, 7, "name"⟩,
      ⟨.colon, 8, 9, ":"⟩, ⟨.string, 10, 10, ""⟩, ⟨.rightBrace, 11, 12, "\x7d"⟩, .atEnd 13] := by
    decide +kernel
  rw [hnamed, hrenamed]
  refine ⟨by simp [Token.Kind.Alike, Token.atEnd], ?_⟩
  rintro i t u ht hu ⟨-, -, hlast, hkind⟩
  match i with
  | 0 | 2 | 4 | 5 =>
    obtain rfl := Option.some.inj ht
    simp [Token.atEnd] at hkind
  | 1 =>
    obtain rfl := Option.some.inj ht
    obtain rfl := Option.some.inj hu
    rfl
  -- The string behind the colon is no key.
  | 3 => simp at hlast
  | i + 6 => simp at ht

theorem generate_sameOutline_named : Document.SameOutline (tokens named) (tokens renamed) ∧
    ((∃ source, generate .default named = .ok source ∧ generate .default renamed = .ok source) ∨
      ∃ e e', generate .default named = .error e ∧ generate .default renamed = .error e' ∧
        e.Alike e') :=
  ⟨named_sameOutline, generate_sameOutline named_sameOutline .default⟩

end Generator

end JsonShape
