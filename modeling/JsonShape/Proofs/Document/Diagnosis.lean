import Mathlib.Data.List.TakeWhile
import JsonShape.Proofs.Document.Reachability

/-!
# The first token without a place

An error names the first token that no document can have where it stands: the tokens before it can
still become a document, and with it they cannot.

* `exists_demands` — every position asks for something that can be given.
* `exists_halts` — a reading with an error has a token at which it halts.
* `not_viable_of_halts` — with that token no document can come of the tokens any more.
* `Diagnosis.unique` — there is one such token at most.
* `ofTokens_eq_error` — what each error says about the tokens before it and about its own token.
-/

namespace JsonShape

namespace Error

/-- The token that an error shows, if it shows one. -/
def found? : Error → Option Token
  | invalidRoot found | unexpected found _ | trailingContent found => some found
  | _ => none

/-- The byte at which an error places itself, if it does. -/
def offset? : Error → Option Nat
  | lexical _ offset | trailingComma _ offset | nestingTooDeep _ offset => some offset
  | invalidRoot found | unexpected found _ | trailingContent found => some found.start
  | unexpectedEnd _ | unsupportedRoot _ => none

/-- The container in which an error says that it arose. -/
def context? : Error → Option Container
  | unexpected _ context | trailingComma context _ | unexpectedEnd context => some context
  | _ => none

/-- The errors for a token that stands where no document has one. -/
def IsMisplacement : Error → Prop
  | invalidRoot _ | unexpected _ _ | trailingComma _ _ | trailingContent _ => True
  | _ => False

end Error

namespace Document

variable {limit other : Nat} {root : Node} {t : Token} {p : Position} {ts : List Token} {e : Error}

/-! ## What is said about an error -/

/-- Some tokens can be continued to a document whose containers nest no deeper than allowed. -/
def Viable (limit : Nat) (ts : List Token) : Prop :=
  ∃ more root, ofTokens limit (ts ++ more) = .ok root

/-- The tokens of a list and the end of input that it reads as when it runs out. -/
def closed (items : List Token) : List Token :=
  items ++ [.atEnd ((items.map Token.stop).getLastD 0)]

/-- What an error tells about the tokens before it and the token at which it arose. -/
structure Diagnosis (limit : Nat) (before : List Token) (t : Token) (e : Error) : Prop where
  /-- What stands before the token can become a document. -/
  viable : Viable limit before
  /-- With the token it cannot. -/
  stuck : ¬ Viable limit (before ++ [t])
  /-- A greater limit helps only against nesting. -/
  refused : (∀ l n, e ≠ .nestingTooDeep l n) → ∀ other, ¬ Viable other (before ++ [t])
  /-- The token that the error shows is this one. -/
  found : ∀ u ∈ e.found?, u = t
  /-- The error places itself at this token. -/
  offset : ∀ n ∈ e.offset?, n = t.start
  /-- The container of the error is the innermost one that is open. -/
  context : ∀ c ∈ e.context?, (openContainers before).head? = some c
  /-- The root is at fault exactly if nothing stands before it. -/
  invalidRoot : e.IsMisplacement → ((∃ u, e = .invalidRoot u) ↔ before = [])
  /-- There is content behind the document exactly if the tokens before are one. -/
  trailingContent : e.IsMisplacement →
    ((∃ u, e = .trailingContent u) ↔ ∃ root, ofTokens limit before = .ok root)
  /-- A comma is at fault exactly if it stands directly before the end of its container. -/
  trailingComma : (∃ c n, e = .trailingComma c n) ↔
    ∃ c, (openContainers before).head? = some c ∧ t.kind = c.closing ∧
      ∃ u ∈ before.getLast?, u.kind = .comma
  /-- The end comes too early only before the end of the document. -/
  unexpectedEnd : (∃ c, e = .unexpectedEnd c) →
    t.kind = .endOfInput ∧ ∀ other root, ofTokens other before ≠ .ok root

/-! ## What a refusal tells -/

namespace Refused

theorem eq_of_mem_found? (h : Refused limit t p e) : ∀ u ∈ e.found?, u = t := by
  cases h <;> simp [Error.found?]

theorem eq_of_mem_offset? (h : Refused limit t p e) : ∀ n ∈ e.offset?, n = t.start := by
  cases h <;> simp [Error.offset?]

theorem head?_containers (h : Refused limit t p e) :
    ∀ c ∈ e.context?, p.containers.head? = some c := by
  cases h <;> simp [Error.context?, Position.containers]

theorem invalidRoot_iff (h : Refused limit t p e) (hmis : e.IsMisplacement) :
    (∃ u, e = .invalidRoot u) ↔ p = .start := by
  cases h <;> simp [Error.IsMisplacement] at hmis ⊢

theorem trailingContent_iff (h : Refused limit t p e) (hmis : e.IsMisplacement) :
    (∃ u, e = .trailingContent u) ↔ ∃ value, p = .done value := by
  cases h <;> simp [Error.IsMisplacement] at hmis ⊢

/-- A comma is at fault exactly if it led to the position and the token closes the container. -/
theorem trailingComma_iff (h : Refused limit t p e) : (∃ c n, e = .trailingComma c n) ↔
    ∃ c, p.containers.head? = some c ∧ t.kind = c.closing ∧ p.AfterComma := by
  have hclosing : ∀ {kind : Token.Kind}, t.kind = kind → kind ≠ .rightBrace →
      kind ≠ .rightBracket → ∀ c : Container, t.kind ≠ c.closing := by
    rintro kind rfl hbrace hbracket (_ | _)
    · exact hbrace
    · exact hbracket
  cases h with
  | comma hafter hkind => exact iff_of_true ⟨_, _, rfl⟩ ⟨_, rfl, hkind, hafter⟩
  | unexpected hcomma =>
    refine iff_of_false (by simp) ?_
    rintro ⟨c, hc, hkind, hafter⟩
    obtain rfl := Option.some.inj hc
    exact hcomma ⟨hafter, hkind⟩
  | root => simp [Position.containers]
  | content value => simp [Position.containers]
  | fault p hkind =>
    refine iff_of_false (by simp) ?_
    rintro ⟨c, -, hc, -⟩
    exact hclosing hkind (by simp) (by simp) c hc
  | cut current outer hkind =>
    refine iff_of_false (by simp) ?_
    rintro ⟨c, -, hc, -⟩
    exact hclosing hkind (by simp) (by simp) c hc
  | deep hslots hkind hroom =>
    refine iff_of_false (by simp) ?_
    rintro ⟨c, -, hc, -⟩
    rcases hkind with hkind | hkind
    · exact hclosing hkind (by simp) (by simp) c hc
    · exact hclosing hkind (by simp) (by simp) c hc

theorem inside_of_unexpectedEnd {c : Container} (h : Refused limit t p (.unexpectedEnd c)) :
    t.kind = .endOfInput ∧ ∃ current outer, p = .inside current outer := by
  cases h with
  | cut current outer hkind => exact ⟨hkind, current, outer, rfl⟩

theorem fault_of_lexical {cause : Fault} {n : Nat} (h : Refused limit t p (.lexical cause n)) :
    t.kind = .fault cause ∧ t.start = n := by
  cases h with
  | fault p hkind => exact ⟨hkind, rfl⟩

end Refused

/-! ## Every position can be continued -/

/-- A token of a kind, without a text. -/
def bare (kind : Token.Kind) : Token.Of kind := ⟨⟨kind, 0, 0, ""⟩, rfl⟩

theorem exists_closes (limit : Nat) (slots : List Slot) (value : Node) :
    ∃ ts root, Closes limit root slots value ts := by
  induction slots generalizing value with
  | nil => exact ⟨[], value, rfl, rfl⟩
  | cons slot outer ih =>
    cases slot with
    | member members key =>
      obtain ⟨ts, root, h⟩ := ih (.object (members.push key value))
      exact ⟨(bare .rightBrace).1 :: ts, root, (endsObject_cons _ _ _ _).2 (Or.inl ⟨rfl, h⟩)⟩
    | element elements =>
      obtain ⟨ts, root, h⟩ := ih (.array (elements.push value).toList)
      exact ⟨(bare .rightBracket).1 :: ts, root, (endsArray_cons _ _ _ _).2 (Or.inl ⟨rfl, h⟩)⟩

theorem exists_awaitsValue (limit : Nat) (slots : List Slot) :
    ∃ ts root, AwaitsValue limit root slots ts := by
  obtain ⟨ts, root, h⟩ := exists_closes limit slots (.primitive .null)
  exact ⟨_, root, .primitive .null (bare .null), ts, rfl, Nat.zero_le _, h⟩

theorem exists_awaitsMember (limit : Nat) (members : Members Node) (outer : List Slot) :
    ∃ ts root, AwaitsMember limit root members outer ts := by
  obtain ⟨ts, root, h⟩ := exists_awaitsValue limit (.member members "" :: outer)
  exact ⟨_, root, bare .string, bare .colon, ts, rfl, h⟩

/-- Every position asks for something that can be given. -/
theorem exists_demands (hlimit : 1 ≤ limit) (p : Position) :
    ∃ ts root, Demands limit root p ts := by
  match p with
  | .start =>
    exact ⟨_, _, .emptyArray (bare .leftBracket) (bare .rightBracket), trivial, rfl, hlimit, rfl⟩
  | .done value => exact ⟨[], value, rfl, rfl⟩
  | .inside (.object members .keyOrClose) outer =>
    obtain ⟨ts, root, h⟩ := exists_awaitsMember limit members outer
    exact ⟨ts, root, Or.inr h⟩
  | .inside (.object members .key) outer => exact exists_awaitsMember limit members outer
  | .inside (.object members (.colon key)) outer =>
    obtain ⟨ts, root, h⟩ := exists_awaitsValue limit (.member members key :: outer)
    exact ⟨_, root, bare .colon, ts, rfl, h⟩
  | .inside (.object members (.value key)) outer => exact exists_awaitsValue limit _
  | .inside (.object members .commaOrClose) outer =>
    obtain ⟨ts, root, h⟩ := exists_closes limit outer (.object members)
    exact ⟨(bare .rightBrace).1 :: ts, root, (endsObject_cons _ _ _ _).2 (Or.inl ⟨rfl, h⟩)⟩
  | .inside (.array elements .valueOrClose) outer =>
    obtain ⟨ts, root, h⟩ := exists_awaitsValue limit (.element elements :: outer)
    exact ⟨ts, root, Or.inr h⟩
  | .inside (.array elements .value) outer => exact exists_awaitsValue limit _
  | .inside (.array elements .commaOrClose) outer =>
    obtain ⟨ts, root, h⟩ := exists_closes limit outer (.array elements.toList)
    exact ⟨(bare .rightBracket).1 :: ts, root, (endsArray_cons _ _ _ _).2 (Or.inl ⟨rfl, h⟩)⟩

/-- Tokens that lead to a position can become a document. -/
theorem Reaches.viable (hlimit : 1 ≤ limit) (h : Reaches limit ts p) : Viable limit ts := by
  obtain ⟨more, root, hdemands⟩ := exists_demands hlimit p
  have hmore : beforeEnd more = more := by
    rw [beforeEnd, List.takeWhile_eq_self_iff]
    intro t ht
    exact decide_eq_true fun hend => not_last_of_demands hdemands t ht (Or.inl hend)
  refine ⟨more, root, (result_run_eq_ok_iff .start 0 _).2 ?_⟩
  rw [h.beforeEnd_append, h.demands_iff, hmore]
  exact hdemands

/-- Tokens that can become a document and have no end of input in them lead to a position. -/
theorem Viable.exists_reaches (h : Viable limit ts) (hend : ∀ u ∈ ts, u.kind ≠ .endOfInput) :
    ∃ p, Reaches limit ts p := by
  obtain ⟨more, root, hok⟩ := h
  have hbefore : beforeEnd (ts ++ more) = ts ++ beforeEnd more :=
    List.takeWhile_append_of_pos fun u hu => decide_eq_true (hend u hu)
  have hdemands : Demands limit root .start (beforeEnd (ts ++ more)) :=
    (result_run_eq_ok_iff .start 0 _).1 hok
  rw [hbefore] at hdemands
  exact Reaches.of_demands hdemands

/-! ## The token at which a reading halts -/

/-- A token at which a reading ends with an error. -/
inductive Halts (limit : Nat) (p : Position) (t : Token) : Error → Prop
  /-- It is a fault. -/
  | fault {cause : Fault} (hkind : t.kind = .fault cause) :
      Halts limit p t (.lexical cause t.start)
  /-- It is the end of input, and the document is not complete. -/
  | finish {e : Error} (hkind : t.kind = .endOfInput) (hfinish : finish t p = .error e) :
      Halts limit p t e
  /-- It is not taken. -/
  | step {e : Error} (hend : t.kind ≠ .endOfInput) (hstep : step limit t p = .error e) :
      Halts limit p t e

theorem Halts.refused (h : Halts limit p t e) : Refused limit t p e := by
  cases h with
  | fault hkind => exact .fault p hkind
  | finish hkind hfinish =>
    match p with
    | .start =>
      cases hfinish
      exact .root
    | .inside current outer =>
      cases hfinish
      exact .cut current outer hkind
    | .done value => cases hfinish
  | step hend hstep => exact refused_of_step hstep

/-- A reading with an error has a token at which it halts. -/
theorem exists_halts (hreach : Reaches limit ts p) (stop : Nat) (items : List Token)
    (h : (run limit p stop items).result = .error e) :
    ∃ before t after q,
      ts ++ (items ++ [.atEnd ((items.map Token.stop).getLastD stop)]) = before ++ t :: after ∧
        Reaches limit before q ∧ Halts limit q t e := by
  induction items generalizing ts p stop with
  | nil => exact ⟨ts, .atEnd stop, [], p, rfl, hreach, .finish rfl h⟩
  | cons t rest ih =>
    by_cases hend : t.kind = .endOfInput
    · rw [result_run_endOfInput hend] at h
      exact ⟨ts, t, _, p, rfl, hreach, .finish hend h⟩
    · by_cases hfault : ∃ cause, t.kind = .fault cause
      · obtain ⟨cause, hcause⟩ := hfault
        rw [result_run_fault hcause] at h
        cases h
        exact ⟨ts, t, _, p, rfl, hreach, .fault hcause⟩
      · cases hstep : step limit t p with
        | error reason =>
          rw [result_run_of_step_error hend (not_exists.1 hfault) hstep] at h
          cases h
          exact ⟨ts, t, _, p, rfl, hreach, .step hend hstep⟩
        | ok a =>
          rw [result_run_of_step hstep] at h
          obtain ⟨before, u, after, q, heq, hq⟩ := ih (hreach.token hstep) t.stop h
          refine ⟨before, u, after, q, ?_, hq⟩
          rw [← heq, List.map_cons, List.getLastD_cons, List.append_assoc]
          rfl

/-- With the token at which a reading halts no document can come of the tokens any more; a greater
limit helps only against nesting. -/
theorem not_viable_of_halts (hreach : Reaches limit ts p) (h : Halts limit p t e)
    (hother : other = limit ∨ ∀ l n, e ≠ .nestingTooDeep l n) : ¬ Viable other (ts ++ [t]) := by
  rintro ⟨more, root, hok⟩
  rw [List.append_assoc] at hok
  have hdemands : Demands other root .start (beforeEnd (ts ++ ([t] ++ more))) :=
    (result_run_eq_ok_iff .start 0 _).1 hok
  rw [hreach.beforeEnd_append] at hdemands
  have hrest : Demands other root p (beforeEnd (t :: more)) := hreach.demands_of_other hdemands
  cases h with
  | fault hkind =>
    rw [beforeEnd_cons (by simp [hkind])] at hrest
    exact not_last_of_demands hrest t List.mem_cons_self (Or.inr ⟨_, hkind⟩)
  | finish hkind hfinish =>
    rw [beforeEnd_endOfInput hkind, ← finish_eq_ok_iff t, hfinish] at hrest
    cases hrest
  | step hend hstep =>
    rw [beforeEnd_cons hend] at hrest
    obtain ⟨a, ha, -⟩ := (demands_cons p t _).1 hrest
    rcases hother with rfl | hdeep
    · rw [hstep] at ha
      cases ha
    · have hsame : step other t p = step limit t p := by
        apply step_congr
        · intro l n heq
          rw [hstep] at heq
          exact hdeep l n (Except.error.inj heq)
        · simp [ha]
      rw [hsame, hstep] at ha
      cases ha

/-- The token at which a reading halts is what its error says. -/
theorem Halts.diagnosis (h : Halts limit p t e) (hlimit : 1 ≤ limit) (hreach : Reaches limit ts p) :
    Diagnosis limit ts t e where
  viable := hreach.viable hlimit
  stuck := not_viable_of_halts hreach h (Or.inl rfl)
  refused hdeep other := not_viable_of_halts hreach h (Or.inr hdeep)
  found := h.refused.eq_of_mem_found?
  offset := h.refused.eq_of_mem_offset?
  context := by
    rw [hreach.openContainers_eq]
    exact h.refused.head?_containers
  invalidRoot hmis := (h.refused.invalidRoot_iff hmis).trans hreach.eq_start_iff
  trailingContent hmis :=
    (h.refused.trailingContent_iff hmis).trans
      (exists_congr fun _ => hreach.ofTokens_eq_ok_iff_done.symm)
  trailingComma := by
    rw [hreach.openContainers_eq, ← hreach.afterComma_iff]
    exact h.refused.trailingComma_iff
  unexpectedEnd := by
    rintro ⟨c, rfl⟩
    obtain ⟨hkind, current, outer, rfl⟩ := h.refused.inside_of_unexpectedEnd
    refine ⟨hkind, fun other root hok => ?_⟩
    have hdemands : Demands other root .start (beforeEnd (ts ++ [])) := by
      rw [List.append_nil]
      exact (result_run_eq_ok_iff .start 0 ts).1 hok
    rw [hreach.beforeEnd_append] at hdemands
    exact not_demands_inside_nil current outer (hreach.demands_of_other hdemands)

/-! ## The error of a list of tokens -/

theorem Viable.of_append {more : List Token} (h : Viable limit (ts ++ more)) : Viable limit ts := by
  obtain ⟨rest, root, hok⟩ := h
  rw [List.append_assoc] at hok
  exact ⟨more ++ rest, root, hok⟩

theorem Diagnosis.not_longer {before : List Token} {other : Error} {u : Token}
    (h : Diagnosis limit ts t e) (hother : Diagnosis limit before u other) (rest : List Token) :
    before ≠ ts ++ t :: rest := by
  rintro rfl
  have hviable := hother.viable
  rw [List.append_cons] at hviable
  exact h.stuck hviable.of_append

/-- No list of tokens has a second token that an error could be about. -/
theorem Diagnosis.unique {before after behind : List Token} {other : Error} {u : Token}
    (h : Diagnosis limit ts t e) (hother : Diagnosis limit before u other)
    (heq : ts ++ t :: after = before ++ u :: behind) : ts = before ∧ t = u := by
  rcases List.append_eq_append_iff.1 heq with ⟨rest, hbefore, htail⟩ | ⟨rest, hbefore, htail⟩
  · cases rest with
    | nil => exact ⟨by simpa using hbefore.symm, (List.cons.inj htail).1⟩
    | cons v rest =>
      obtain ⟨rfl, -⟩ := List.cons.inj htail
      exact absurd hbefore (h.not_longer hother rest)
  · cases rest with
    | nil => exact ⟨by simpa using hbefore, (List.cons.inj htail).1.symm⟩
    | cons v rest =>
      obtain ⟨rfl, -⟩ := List.cons.inj htail
      exact absurd hbefore (hother.not_longer h rest)

theorem mem_of_concat_eq {items before after : List Token} {last : Token}
    (h : items ++ [last] = before ++ t :: after) (hne : t ≠ last) :
    ∃ rest, items = before ++ t :: rest := by
  rcases List.eq_nil_or_concat after with rfl | ⟨rest, u, rfl⟩
  · exact absurd (List.append_inj' h rfl).2 (by simpa using hne.symm)
  · refine ⟨rest, ?_⟩
    have hsplit : items ++ [last] = (before ++ t :: rest) ++ [u] := by simpa using h
    exact (List.append_inj' hsplit rfl).1

/-- A reading ends with a fault exactly if the tokens before the first one have no end of input in
them and can become a document. -/
theorem ofTokens_eq_lexical_iff {items : List Token} {cause : Fault} {offset : Nat}
    (hlimit : 1 ≤ limit) : ofTokens limit items = .error (.lexical cause offset) ↔
      ∃ before t after, items = before ++ t :: after ∧ t.kind = .fault cause ∧ t.start = offset ∧
        (∀ u ∈ before, u.kind ≠ .endOfInput ∧ ∀ other, u.kind ≠ .fault other) ∧
          Viable limit before := by
  constructor
  · intro h
    obtain ⟨before, t, after, q, heq, hreach, hhalts⟩ := exists_halts .start 0 items h
    obtain ⟨hkind, hstart⟩ := hhalts.refused.fault_of_lexical
    have hne : t ≠ .atEnd ((items.map Token.stop).getLastD 0) := by
      rintro rfl
      cases hkind
    obtain ⟨rest, rfl⟩ := mem_of_concat_eq heq hne
    refine ⟨before, t, rest, rfl, hkind, hstart, ?_, hreach.viable hlimit⟩
    intro u hu
    exact ⟨fun hend => hreach.not_last u hu (Or.inl hend),
      fun other hother => hreach.not_last u hu (Or.inr ⟨other, hother⟩)⟩
  · rintro ⟨before, t, after, rfl, hkind, rfl, hbefore, hviable⟩
    obtain ⟨q, hreach⟩ := hviable.exists_reaches fun u hu => (hbefore u hu).1
    obtain ⟨stop, hrun⟩ := hreach.exists_result_run (t :: after)
    rw [hrun, result_run_fault hkind]

/-- An error is the one of the first token that cannot stand where it does, the end of a list
being a token of its own: what stands before it can become a document, with it that is not so, and
the error tells which token it is, which container is open there, and why it has no place.  A fault
is reported exactly if it is the first token that is not part of a document.

By `Diagnosis.unique` that token is the only one of its list that an error could be about. -/
theorem ofTokens_eq_error (limit : Nat) (hlimit : 1 ≤ limit) (items : List Token) :
    (∀ e, ofTokens limit items = .error e →
      ∃ before t after, closed items = before ++ t :: after ∧ Diagnosis limit before t e) ∧
      ∀ cause offset, ofTokens limit items = .error (.lexical cause offset) ↔
        ∃ before t after, items = before ++ t :: after ∧ t.kind = .fault cause ∧ t.start = offset ∧
          (∀ u ∈ before, u.kind ≠ .endOfInput ∧ ∀ other, u.kind ≠ .fault other) ∧
            Viable limit before := by
  constructor
  · intro e h
    obtain ⟨before, t, after, q, heq, hreach, hhalts⟩ := exists_halts .start 0 items h
    exact ⟨before, t, after, heq, hhalts.diagnosis hlimit hreach⟩
  · intro cause offset
    exact ofTokens_eq_lexical_iff hlimit

/-- The closing bracket of `[null,]` follows a comma. -/
theorem ofTokens_eq_error_commaBracket :
    1 ≤ 2 ∧ ∃ before t after,
      closed [⟨.leftBracket, 0, 1, "["⟩, ⟨.null, 1, 5, "null"⟩, ⟨.comma, 5, 6, ","⟩,
        ⟨.rightBracket, 6, 7, "]"⟩] = before ++ t :: after ∧
        Diagnosis 2 before t (.trailingComma .array 6) :=
  ⟨by decide, (ofTokens_eq_error 2 (by decide) _).1 _ rfl⟩

end Document

end JsonShape
