import JsonShape.Proofs.Document.Acceptance

/-!
# Where a reading can get

What one token can do to a position, and what the position that some tokens lead to tells about
them.

* `step_outcome` — a step: a token that is taken moves a position in one of the ways of `Moves`, and
  one that is not is `Refused` for one of the reasons there.
* `step_congr` — a limit matters only where it is exceeded.
* `Reaches` — a run without an error.
* `Reaches.openContainers_eq`, `Reaches.afterComma_iff` — which containers the tokens leave open, and
  whether they end with a comma.
* `Reaches.demands_iff` — what is still to come.
-/

namespace JsonShape

namespace Container

/-- The kind of the token that closes a container. -/
def closing : Container → Token.Kind
  | object => .rightBrace
  | array => .rightBracket

end Container

namespace Document

variable {limit other : Nat} {root : Node} {t : Token} {p q : Position} {ts : List Token}

/-! ## One token -/

/-- The containers that are open after one more token, the innermost first. -/
def openAfter (containers : List Container) (t : Token) : List Container :=
  match t.kind with
  | .leftBrace => .object :: containers
  | .leftBracket => .array :: containers
  | .rightBrace | .rightBracket => containers.tail
  | _ => containers

/-- The containers that some tokens open and do not close, the innermost first. -/
def openContainers (ts : List Token) : List Container := ts.foldl openAfter []

/-- The slots that a position can fill with a value, the innermost first. -/
def Position.slots? : Position → Option (List Slot)
  | .start => some []
  | .inside (.object members (.value key)) outer => some (.member members key :: outer)
  | .inside (.array elements .valueOrClose) outer => some (.element elements :: outer)
  | .inside (.array elements .value) outer => some (.element elements :: outer)
  | _ => none

/-- The container in which a slot lies. -/
def Slot.container : Slot → Container
  | .member _ _ => .object
  | .element _ => .array

/-- The containers that are open at a position, the innermost first. -/
def Position.containers : Position → List Container
  | .inside current outer => current.container :: outer.map Slot.container
  | .start | .done _ => []

/-- Whether a comma was the last token before an open container's present state. -/
def Open.AfterComma : Open → Prop
  | .object _ .key | .array _ .value => True
  | _ => False

/-- Whether a comma was the last token before a position. -/
def Position.AfterComma : Position → Prop
  | .inside current _ => current.AfterComma
  | .start | .done _ => False

/-- What a token can do at a position that takes it. -/
inductive Moves (limit : Nat) (t : Token) : Position → Position → Prop
  /-- It opens an object. -/
  | openObject {p : Position} {slots : List Slot} (hslots : p.slots? = some slots)
      (hkind : t.kind = .leftBrace) (hroom : slots.length < limit) :
      Moves limit t p (.inside (.object .empty .keyOrClose) slots)
  /-- It opens an array. -/
  | openArray {p : Position} {slots : List Slot} (hslots : p.slots? = some slots)
      (hkind : t.kind = .leftBracket) (hroom : slots.length < limit) :
      Moves limit t p (.inside (.array #[] .valueOrClose) slots)
  /-- It is a value by itself, in a container. -/
  | primitive {current : Open} {outer slots : List Slot} {type : Primitive}
      (hslots : (Position.inside current outer).slots? = some slots)
      (hkind : t.kind = Token.kindOf type) :
      Moves limit t (.inside current outer) (complete (.primitive type) slots).position
  /-- It closes an object. -/
  | closeObject {members : Members Node} {state : ObjectState} {outer : List Slot}
      (hstate : state = .keyOrClose ∨ state = .commaOrClose) (hkind : t.kind = .rightBrace) :
      Moves limit t (.inside (.object members state) outer)
        (complete (.object members) outer).position
  /-- It closes an array. -/
  | closeArray {elements : Array Node} {state : ArrayState} {outer : List Slot}
      (hstate : state = .valueOrClose ∨ state = .commaOrClose) (hkind : t.kind = .rightBracket) :
      Moves limit t (.inside (.array elements state) outer)
        (complete (.array elements.toList) outer).position
  /-- It is a key. -/
  | key {members : Members Node} {state : ObjectState} {outer : List Slot}
      (hstate : state = .keyOrClose ∨ state = .key) (hkind : t.kind = .string) :
      Moves limit t (.inside (.object members state) outer)
        (.inside (.object members (.colon t.text)) outer)
  /-- It is the colon behind a key. -/
  | colon {members : Members Node} {key : String} {outer : List Slot} (hkind : t.kind = .colon) :
      Moves limit t (.inside (.object members (.colon key)) outer)
        (.inside (.object members (.value key)) outer)
  /-- It is a comma in an object. -/
  | nextMember {members : Members Node} {outer : List Slot} (hkind : t.kind = .comma) :
      Moves limit t (.inside (.object members .commaOrClose) outer)
        (.inside (.object members .key) outer)
  /-- It is a comma in an array. -/
  | nextElement {elements : Array Node} {outer : List Slot} (hkind : t.kind = .comma) :
      Moves limit t (.inside (.array elements .commaOrClose) outer)
        (.inside (.array elements .value) outer)

/-- Why a position does not take a token. -/
inductive Refused (limit : Nat) (t : Token) : Position → Error → Prop
  /-- It is a fault. -/
  | fault (p : Position) {cause : Fault} (hkind : t.kind = .fault cause) :
      Refused limit t p (.lexical cause t.start)
  /-- The input ends inside a container. -/
  | cut (current : Open) (outer : List Slot) (hkind : t.kind = .endOfInput) :
      Refused limit t (.inside current outer) (.unexpectedEnd current.container)
  /-- It opens no container where the root is expected. -/
  | root : Refused limit t .start (.invalidRoot t)
  /-- The document is complete. -/
  | content (value : Node) : Refused limit t (.done value) (.trailingContent t)
  /-- It closes a container directly behind a comma. -/
  | comma {current : Open} {outer : List Slot} (hafter : current.AfterComma)
      (hkind : t.kind = current.container.closing) :
      Refused limit t (.inside current outer) (.trailingComma current.container t.start)
  /-- It has no place in the container for another reason. -/
  | unexpected {current : Open} {outer : List Slot}
      (hcomma : ¬ (current.AfterComma ∧ t.kind = current.container.closing)) :
      Refused limit t (.inside current outer) (.unexpected t current.container)
  /-- It opens a container one level too deep. -/
  | deep {p : Position} {slots : List Slot} (hslots : p.slots? = some slots)
      (hkind : t.kind = .leftBrace ∨ t.kind = .leftBracket) (hroom : limit ≤ slots.length) :
      Refused limit t p (.nestingTooDeep limit t.start)

/-- What comes of a token at a position. -/
def Outcome (limit : Nat) (t : Token) (p : Position) : Except Error Advance → Prop
  | .ok a => Moves limit t p a.position
  | .error e => Refused limit t p e

/-! ### What a step does -/

theorem outcome_enter {container : Open} {slots : List Slot} (hslots : p.slots? = some slots)
    (hkind : t.kind = .leftBrace ∨ t.kind = .leftBracket)
    (hmoves : slots.length < limit → Moves limit t p (.inside container slots)) :
    Outcome limit t p (enter limit t container slots) := by
  unfold enter
  split
  · rename_i hroom
    exact hmoves hroom
  · rename_i hroom
    exact .deep hslots hkind (not_lt.1 hroom)

theorem outcome_beginValue? {current : Open} {outer slots : List Slot}
    (hslots : (Position.inside current outer).slots? = some slots)
    (hcomma : t.kind ≠ current.container.closing) :
    Outcome limit t (.inside current outer)
      ((beginValue? limit t slots).getD (.error (.unexpected t current.container))) := by
  cases hstarts : t.kind.startsValue with
  | false =>
    rw [beginValue?_none hstarts]
    exact .unexpected fun h => hcomma h.2
  | true =>
    rcases startsValue_iff.1 hstarts with hkind | hkind | ⟨type, hkind⟩
    · rw [beginValue?_leftBrace hkind]
      exact outcome_enter hslots (Or.inl hkind) (.openObject hslots hkind)
    · rw [beginValue?_leftBracket hkind]
      exact outcome_enter hslots (Or.inr hkind) (.openArray hslots hkind)
    · rw [beginValue?_primitive hkind]
      exact .primitive hslots hkind

theorem outcome_stepObject (members : Members Node) (state : ObjectState) (outer : List Slot) :
    Outcome limit t (.inside (.object members state) outer)
      (stepObject limit t members outer state) := by
  cases state with
  | keyOrClose =>
    rw [stepObject]
    split
    · rename_i hkind
      exact .key (Or.inl rfl) hkind
    · rename_i hkind
      exact .closeObject (Or.inl rfl) hkind
    · exact .unexpected fun h => h.1
  | key =>
    rw [stepObject]
    split
    · rename_i hkind
      exact .key (Or.inr rfl) hkind
    · rename_i hkind
      exact .comma trivial hkind
    · rename_i hkind
      exact .unexpected fun h => hkind h.2
  | colon key =>
    rw [stepObject]
    split
    · rename_i hkind
      exact .colon hkind
    · exact .unexpected fun h => h.1
  | value key =>
    rw [stepObject]
    by_cases hkind : t.kind = .rightBrace
    · rw [beginValue?_none (by rw [hkind]; rfl)]
      exact .unexpected fun h => h.1
    · exact outcome_beginValue? rfl hkind
  | commaOrClose =>
    rw [stepObject]
    split
    · rename_i hkind
      exact .nextMember hkind
    · rename_i hkind
      exact .closeObject (Or.inr rfl) hkind
    · exact .unexpected fun h => h.1

theorem outcome_stepArray (elements : Array Node) (state : ArrayState) (outer : List Slot) :
    Outcome limit t (.inside (.array elements state) outer)
      (stepArray limit t elements outer state) := by
  cases state with
  | valueOrClose =>
    rw [stepArray]
    split
    · rename_i hkind
      exact .closeArray (Or.inl rfl) hkind
    · rename_i hkind
      exact outcome_beginValue? rfl hkind
  | value =>
    rw [stepArray]
    split
    · rename_i hkind
      exact .comma trivial hkind
    · rename_i hkind
      exact outcome_beginValue? rfl hkind
  | commaOrClose =>
    rw [stepArray]
    split
    · rename_i hkind
      exact .nextElement hkind
    · rename_i hkind
      exact .closeArray (Or.inr rfl) hkind
    · exact .unexpected fun h => h.1

/-- A step: a token leads on from a position, or is refused there. -/
theorem step_outcome (limit : Nat) (t : Token) (p : Position) :
    Outcome limit t p (step limit t p) := by
  match p with
  | .start =>
    rw [step]
    split
    · rename_i hkind
      exact outcome_enter rfl (Or.inl hkind) (.openObject rfl hkind)
    · rename_i hkind
      exact outcome_enter rfl (Or.inr hkind) (.openArray rfl hkind)
    · exact .root
  | .inside (.object members state) outer => exact outcome_stepObject members state outer
  | .inside (.array elements state) outer => exact outcome_stepArray elements state outer
  | .done value => exact .content value

theorem moves_of_step {a : Advance} (h : step limit t p = .ok a) : Moves limit t p a.position := by
  have houtcome := step_outcome limit t p
  rwa [h] at houtcome

theorem refused_of_step {e : Error} (h : step limit t p = .error e) : Refused limit t p e := by
  have houtcome := step_outcome limit t p
  rwa [h] at houtcome

/-! ### What a move tells -/

theorem containers_complete (value : Node) (slots : List Slot) :
    (complete value slots).position.containers = slots.map Slot.container := by
  match slots with
  | [] => rfl
  | .member members key :: outer => rfl
  | .element elements :: outer => rfl

theorem not_afterComma_complete (value : Node) (slots : List Slot) :
    ¬ (complete value slots).position.AfterComma := by
  match slots with
  | [] => exact id
  | .member members key :: outer => exact id
  | .element elements :: outer => exact id

theorem complete_ne_start (value : Node) (slots : List Slot) :
    (complete value slots).position ≠ .start := by
  match slots with
  | [] => exact Position.noConfusion
  | .member members key :: outer => exact Position.noConfusion
  | .element elements :: outer => exact Position.noConfusion

/-- The slots of a position lie in its open containers. -/
theorem map_container_slots {slots : List Slot} (h : p.slots? = some slots) :
    slots.map Slot.container = p.containers := by
  match p with
  | .start =>
    cases h
    rfl
  | .inside (.object members state) outer =>
    cases state <;> cases h
    rfl
  | .inside (.array elements state) outer =>
    cases state <;> cases h <;> rfl
  | .done value => cases h

/-- A token opens or closes the containers that it is there for. -/
theorem Moves.containers_eq (h : Moves limit t p q) :
    q.containers = openAfter p.containers t := by
  cases h with
  | openObject hslots hkind =>
    rw [← map_container_slots hslots, openAfter, hkind]
    rfl
  | openArray hslots hkind =>
    rw [← map_container_slots hslots, openAfter, hkind]
    rfl
  | @primitive current outer slots type hslots hkind =>
    rw [containers_complete, map_container_slots hslots, openAfter, hkind]
    cases type <;> rfl
  | closeObject hstate hkind =>
    rw [containers_complete, openAfter, hkind]
    rfl
  | closeArray hstate hkind =>
    rw [containers_complete, openAfter, hkind]
    rfl
  | key hstate hkind =>
    rw [openAfter, hkind]
    rfl
  | colon hkind =>
    rw [openAfter, hkind]
    rfl
  | nextMember hkind =>
    rw [openAfter, hkind]
    rfl
  | nextElement hkind =>
    rw [openAfter, hkind]
    rfl

/-- A position lies behind a comma exactly if the token that led to it is one. -/
theorem Moves.afterComma_iff (h : Moves limit t p q) : q.AfterComma ↔ t.kind = .comma := by
  have hother : ∀ {kind : Token.Kind}, t.kind = kind → kind ≠ .comma → t.kind ≠ .comma := by
    rintro kind rfl hkind
    exact hkind
  cases h with
  | nextMember hkind => exact iff_of_true trivial hkind
  | nextElement hkind => exact iff_of_true trivial hkind
  | @primitive current outer slots type hslots hkind =>
    refine iff_of_false (not_afterComma_complete _ _) (hother hkind ?_)
    cases type <;> exact Token.Kind.noConfusion
  | closeObject hstate hkind =>
    exact iff_of_false (not_afterComma_complete _ _) (hother hkind Token.Kind.noConfusion)
  | closeArray hstate hkind =>
    exact iff_of_false (not_afterComma_complete _ _) (hother hkind Token.Kind.noConfusion)
  | openObject hslots hkind => exact iff_of_false id (hother hkind Token.Kind.noConfusion)
  | openArray hslots hkind => exact iff_of_false id (hother hkind Token.Kind.noConfusion)
  | key hstate hkind => exact iff_of_false id (hother hkind Token.Kind.noConfusion)
  | colon hkind => exact iff_of_false id (hother hkind Token.Kind.noConfusion)

theorem Moves.ne_start (h : Moves limit t p q) : q ≠ .start := by
  cases h with
  | primitive => exact complete_ne_start _ _
  | closeObject => exact complete_ne_start _ _
  | closeArray => exact complete_ne_start _ _
  | _ => exact Position.noConfusion

/-! ### Another limit -/

theorem enter_congr {container : Open} {slots : List Slot}
    (h : ∀ l n, enter limit t container slots ≠ .error (.nestingTooDeep l n))
    (hother : ∀ l n, enter other t container slots ≠ .error (.nestingTooDeep l n)) :
    enter other t container slots = enter limit t container slots := by
  unfold enter at h hother ⊢
  by_cases hroom : slots.length < limit
  · by_cases hroomOther : slots.length < other
    · rw [if_pos hroom, if_pos hroomOther]
    · exact absurd (if_neg hroomOther) (hother other t.start)
  · exact absurd (if_neg hroom) (h limit t.start)

theorem beginValue?_congr {slots : List Slot} {r : Except Error Advance}
    (h : ∀ l n, (beginValue? limit t slots).getD r ≠ .error (.nestingTooDeep l n))
    (hother : ∀ l n, (beginValue? other t slots).getD r ≠ .error (.nestingTooDeep l n)) :
    (beginValue? other t slots).getD r = (beginValue? limit t slots).getD r := by
  cases hstarts : t.kind.startsValue with
  | false => rw [beginValue?_none hstarts, beginValue?_none hstarts]
  | true =>
    rcases startsValue_iff.1 hstarts with hkind | hkind | ⟨type, hkind⟩
    · simp only [beginValue?_leftBrace hkind, Option.getD_some] at h hother ⊢
      exact enter_congr h hother
    · simp only [beginValue?_leftBracket hkind, Option.getD_some] at h hother ⊢
      exact enter_congr h hother
    · rw [beginValue?_primitive hkind, beginValue?_primitive hkind]

/-- Two limits that both leave room do not tell one token from another. -/
theorem step_congr (h : ∀ l n, step limit t p ≠ .error (.nestingTooDeep l n))
    (hother : ∀ l n, step other t p ≠ .error (.nestingTooDeep l n)) :
    step other t p = step limit t p := by
  match p with
  | .start =>
    unfold step at h hother ⊢
    cases hkind : t.kind with
    | leftBrace =>
      simp only [hkind] at h hother
      exact enter_congr h hother
    | leftBracket =>
      simp only [hkind] at h hother
      exact enter_congr h hother
    | _ => rfl
  | .inside (.object members state) outer =>
    cases state with
    | value key => exact beginValue?_congr h hother
    | _ => rfl
  | .inside (.array elements state) outer =>
    rw [step, step] at *
    cases state with
    | commaOrClose => rfl
    | valueOrClose =>
      by_cases hkind : t.kind = .rightBracket
      · simp only [stepArray, hkind]
      · simp only [stepArray] at h hother ⊢
        exact beginValue?_congr h hother
    | value =>
      by_cases hkind : t.kind = .rightBracket
      · simp only [stepArray, hkind]
      · simp only [stepArray] at h hother ⊢
        exact beginValue?_congr h hother
  | .done value => rfl

/-! ## Tokens that lead to a position -/

theorem result_run_of_step {a : Advance} (h : step limit t p = .ok a) (stop : Nat)
    (more : List Token) :
    (run limit p stop (t :: more)).result = (run limit a.position t.stop more).result := by
  rw [run]
  split
  · rename_i cause hkind
    exact absurd h (step_last (Or.inr ⟨cause, hkind⟩) p a)
  · rename_i hkind
    exact absurd h (step_last (Or.inl hkind) p a)
  · rw [h]
    obtain ⟨next, duplicate⟩ := a
    cases duplicate <;> rfl

theorem result_run_of_step_error {e : Error} (hend : t.kind ≠ .endOfInput)
    (hfault : ∀ cause, t.kind ≠ .fault cause) (h : step limit t p = .error e) (stop : Nat)
    (more : List Token) : (run limit p stop (t :: more)).result = .error e := by
  rw [run]
  split
  · rename_i cause hkind
    exact absurd hkind (hfault cause)
  · contradiction
  · rw [h]

/-- A run without an error: the tokens lead from the start to the position. -/
inductive Reaches (limit : Nat) : List Token → Position → Prop
  /-- Nothing has been read. -/
  | start : Reaches limit [] .start
  /-- One more token has been taken. -/
  | token {ts : List Token} {t : Token} {p : Position} {a : Advance} (h : Reaches limit ts p)
      (hstep : step limit t p = .ok a) : Reaches limit (ts ++ [t]) a.position

namespace Reaches

/-- The containers of a position are those that the tokens before it leave open. -/
theorem openContainers_eq (h : Reaches limit ts p) : openContainers ts = p.containers := by
  induction h with
  | start => rfl
  | token h hstep ih =>
    rw [(moves_of_step hstep).containers_eq, ← ih]
    exact List.foldl_concat _ _ _ _

/-- A position lies behind a comma exactly if the last token before it is one. -/
theorem afterComma_iff (h : Reaches limit ts p) :
    p.AfterComma ↔ ∃ u ∈ ts.getLast?, u.kind = .comma := by
  cases h with
  | start => exact iff_of_false id (by simp)
  | token h hstep => simp [(moves_of_step hstep).afterComma_iff]

theorem eq_start_iff (h : Reaches limit ts p) : p = .start ↔ ts = [] := by
  cases h with
  | start => exact iff_of_true rfl rfl
  | token h hstep => exact iff_of_false (moves_of_step hstep).ne_start (by simp)

/-- A reading takes neither a fault nor the end of input. -/
theorem not_last (h : Reaches limit ts p) :
    ∀ u ∈ ts, ¬ (u.kind = .endOfInput ∨ ∃ cause, u.kind = .fault cause) := by
  induction h with
  | start => exact fun u hu => absurd hu List.not_mem_nil
  | token h hstep ih =>
    intro u hu hlast
    rcases List.mem_append.1 hu with hu | hu
    · exact ih u hu hlast
    · obtain rfl := List.mem_singleton.1 hu
      exact step_last hlast _ _ hstep

theorem beforeEnd_append (h : Reaches limit ts p) (more : List Token) :
    beforeEnd (ts ++ more) = ts ++ beforeEnd more :=
  List.takeWhile_append_of_pos fun u hu =>
    decide_eq_true fun hend => h.not_last u hu (Or.inl hend)

/-- What makes a document of the tokens is what their position asks for. -/
theorem demands_iff (h : Reaches limit ts p) (more : List Token) :
    Demands limit root .start (ts ++ more) ↔ Demands limit root p more := by
  induction h generalizing more with
  | start => exact Iff.rfl
  | token h hstep ih =>
    rw [List.append_assoc, ih, List.singleton_append, demands_cons, hstep]
    simp

/-- Under any limit, what makes a document of the tokens is what their position asks for. -/
theorem demands_of_other (h : Reaches limit ts p) {more : List Token}
    (hdemands : Demands other root .start (ts ++ more)) : Demands other root p more := by
  induction h generalizing more with
  | start => exact hdemands
  | @token ts t p a h hstep ih =>
    rw [List.append_assoc] at hdemands
    obtain ⟨b, hb, hrest⟩ := (demands_cons p t more).1 (ih hdemands)
    have hsame : step other t p = step limit t p :=
      step_congr (by simp [hstep]) (by simp [hb])
    rw [hsame, hstep] at hb
    rwa [Except.ok.inj hb]

/-- Tokens that can become a document lead to a position. -/
theorem of_demands {more : List Token} (h : Demands limit root .start (ts ++ more)) :
    ∃ p, Reaches limit ts p := by
  induction ts using List.reverseRecOn generalizing more with
  | nil => exact ⟨.start, .start⟩
  | append_singleton ts t ih =>
    rw [List.append_assoc] at h
    obtain ⟨p, hp⟩ := ih h
    obtain ⟨a, ha, -⟩ := (demands_cons p t more).1 ((hp.demands_iff _).1 h)
    exact ⟨a.position, hp.token ha⟩

/-- A reading goes on from the position to which its first tokens lead. -/
theorem exists_result_run (h : Reaches limit ts p) (more : List Token) :
    ∃ stop, ofTokens limit (ts ++ more) = (run limit p stop more).result := by
  induction h generalizing more with
  | start => exact ⟨0, rfl⟩
  | @token ts t p a h hstep ih =>
    obtain ⟨stop, hrun⟩ := ih (t :: more)
    refine ⟨t.stop, ?_⟩
    rw [List.append_assoc, List.singleton_append, hrun]
    exact result_run_of_step hstep stop more

/-- The tokens are a document exactly if they lead to its end. -/
theorem ofTokens_eq_ok_iff_done (h : Reaches limit ts p) :
    ofTokens limit ts = .ok root ↔ p = .done root := by
  have hrun : ofTokens limit ts = .ok root ↔ Demands limit root .start (beforeEnd (ts ++ [])) := by
    rw [List.append_nil]
    exact result_run_eq_ok_iff .start 0 ts
  have hfinish : finish (.atEnd 0) p = .ok root ↔ Demands limit root p (beforeEnd []) :=
    finish_eq_ok_iff (.atEnd 0) p
  rw [hrun, h.beforeEnd_append, h.demands_iff, ← hfinish]
  cases p <;> simp [finish]

end Reaches

end Document

end JsonShape
