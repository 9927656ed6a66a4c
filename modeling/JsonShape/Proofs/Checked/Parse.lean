import JsonShape.Proofs.Document.Reachability

/-!
# The tree of a token list by recursion

Reads a document by recursion from one container into the next, and counts the containers that it is
in.  The count must not fall below zero, and a value is to be read only from a token that begins one;
what breaks a rule gives nothing.  The rules are never broken, and the outcome is that of reading
the tokens one step at a time.

* `container?`, `value?` — a container from behind its first token on, and a value.
* `step_eq_arm` — what a token means to a container, and the step that it makes.
* `container?_follows` — the recursion follows the steps.
* `parse?_eq` — a whole list of tokens.
-/

namespace JsonShape

namespace Document

/-! ## Tokens to be read -/

/-- The tokens that are still to be read. -/
structure Source where
  /-- The tokens. -/
  items : List Token
  /-- The offset behind the last token before them. -/
  stop : Nat
  /-- The number of containers that have been entered and not been left. -/
  depth : Nat

namespace Source

/-- The next token; where there is none it is the end of input, and a fault is an error. -/
def next (s : Source) : Except Error (Token × Source) :=
  match s.items with
  | [] => .ok (.atEnd s.stop, s)
  | t :: rest =>
    match t.kind with
    | .fault cause => .error (.lexical cause t.start)
    | _ => .ok (t, { s with items := rest, stop := t.stop })

/-- Enters the container that `t` opens. -/
def enter (limit : Nat) (t : Token) (s : Source) : Except Error Source :=
  if limit < s.depth + 1 then .error (.nestingTooDeep limit t.start)
  else .ok { s with depth := s.depth + 1 }

/-- Leaves a container, if there is one to leave. -/
def leave? (s : Source) : Option Source :=
  match s.depth with
  | 0 => none
  | depth + 1 => some { s with depth := depth }

end Source

/-! ## What a token means -/

/-- What a token means to an open container. -/
inductive Arm where
  /-- The container goes on. -/
  | go (next : Open)
  /-- The token begins a value, which is missing here. -/
  | value (slot : Slot)
  /-- The container is complete. -/
  | close (value : Node)
  /-- The token has no place. -/
  | refuse (e : Error)

/-- The error for a token that has no place in a container. -/
def misplaced (t : Token) (container : Container) : Error :=
  if t.kind = .endOfInput then .unexpectedEnd container else .unexpected t container

/-- What a token means to an object. -/
def objectArm (t : Token) (members : Members Node) : ObjectState → Arm
  | .keyOrClose =>
    match t.kind with
    | .string => .go (.object members (.colon t.text))
    | .rightBrace => .close (.object members)
    | _ => .refuse (misplaced t .object)
  | .key =>
    match t.kind with
    | .string => .go (.object members (.colon t.text))
    | .rightBrace => .refuse (.trailingComma .object t.start)
    | _ => .refuse (misplaced t .object)
  | .colon key =>
    match t.kind with
    | .colon => .go (.object members (.value key))
    | _ => .refuse (misplaced t .object)
  | .value key =>
    if t.kind.startsValue then .value (.member members key) else .refuse (misplaced t .object)
  | .commaOrClose =>
    match t.kind with
    | .comma => .go (.object members .key)
    | .rightBrace => .close (.object members)
    | _ => .refuse (misplaced t .object)

/-- What a token means to an array. -/
def arrayArm (t : Token) (elements : Array Node) : ArrayState → Arm
  | .valueOrClose =>
    if t.kind.startsValue then .value (.element elements)
    else if t.kind = .rightBracket then .close (.array elements.toList)
    else .refuse (misplaced t .array)
  | .value =>
    if t.kind.startsValue then .value (.element elements)
    else if t.kind = .rightBracket then .refuse (.trailingComma .array t.start)
    else .refuse (misplaced t .array)
  | .commaOrClose =>
    match t.kind with
    | .comma => .go (.array elements .value)
    | .rightBracket => .close (.array elements.toList)
    | _ => .refuse (misplaced t .array)

/-- What a token means to an open container. -/
def arm (t : Token) : Open → Arm
  | .object members state => objectArm t members state
  | .array elements state => arrayArm t elements state

/-- The container that a token opens. -/
def opened? (t : Token) : Option Open :=
  match t.kind with
  | .leftBrace => some (.object .empty .keyOrClose)
  | .leftBracket => some (.array #[] .valueOrClose)
  | _ => none

/-- A container with a value in its slot. -/
def Slot.fill (value : Node) : Slot → Open
  | member members key => .object (members.push key value) .commaOrClose
  | element elements => .array (elements.push value) .commaOrClose

variable {limit : Nat} {t : Token} {s rest : Source} {current : Open} {slot : Slot}
  {outer slots : List Slot} {value : Node} {e : Error}

theorem arm_of_endOfInput (h : t.kind = .endOfInput) (current : Open) :
    arm t current = .refuse (.unexpectedEnd current.container) := by
  cases current with
  | object members state =>
    cases state <;> simp [arm, objectArm, h, misplaced, Open.container, Token.Kind.startsValue]
  | array elements state =>
    cases state <;> simp [arm, arrayArm, h, misplaced, Open.container, Token.Kind.startsValue]

theorem Source.next_nil (h : s.items = []) : s.next = .ok (.atEnd s.stop, s) := by
  rw [Source.next, h]

theorem Source.next_fault {cause : Fault} {ts : List Token} (h : s.items = t :: ts)
    (hkind : t.kind = .fault cause) : s.next = .error (.lexical cause t.start) := by
  simp [Source.next, h, hkind]

theorem Source.next_cons {ts : List Token} (h : s.items = t :: ts)
    (hkind : ∀ cause, t.kind ≠ .fault cause) : s.next = .ok (t, ⟨ts, t.stop, s.depth⟩) := by
  simp [Source.next, h]

theorem Source.length_of_next (h : s.next = .ok (t, rest)) (hend : t.kind ≠ .endOfInput) :
    rest.items.length < s.items.length := by
  cases hitems : s.items with
  | nil =>
    rw [next_nil hitems] at h
    obtain ⟨rfl, -⟩ := Prod.mk.inj (Except.ok.inj h)
    exact absurd rfl hend
  | cons u ts =>
    by_cases hfault : ∃ cause, u.kind = .fault cause
    · obtain ⟨cause, hcause⟩ := hfault
      rw [next_fault hitems hcause] at h
      cases h
    · rw [next_cons hitems (not_exists.1 hfault)] at h
      obtain ⟨-, rfl⟩ := Prod.mk.inj (Except.ok.inj h)
      simp

theorem Source.items_of_enter (h : s.enter limit t = .ok rest) : rest.items = s.items := by
  unfold Source.enter at h
  split at h
  · cases h
  · cases h
    rfl

/-! ## Containers -/

mutual

/-- Reads an open container, from behind the token that has been read last. -/
def container? (limit : Nat) (current : Open) (s : Source) :
    Option (Except Error (Node × Source)) :=
  match hnext : s.next with
  | .error e => some (.error e)
  | .ok (t, rest) =>
    match harm : arm t current with
    | .refuse e => some (.error e)
    | .close value => rest.leave?.map fun rest => .ok (value, rest)
    | .go next =>
      have : rest.items.length < s.items.length :=
        Source.length_of_next hnext fun hend => by simp [arm_of_endOfInput hend] at harm
      container? limit next rest
    | .value slot =>
      have : rest.items.length < s.items.length :=
        Source.length_of_next hnext fun hend => by simp [arm_of_endOfInput hend] at harm
      match value? limit t rest with
      | none => none
      | some (.error e) => some (.error e)
      | some (.ok (value, behind)) =>
        -- A value that leaves more tokens than there were is a failure, lest there be no end to them.
        if behind.items.length ≤ rest.items.length then container? limit (slot.fill value) behind
        else none
termination_by (s.items.length, 0)

/-- Reads a value that begins with `t`, which has been read already. -/
def value? (limit : Nat) (t : Token) (s : Source) : Option (Except Error (Node × Source)) :=
  match opened? t with
  | some current =>
    match henter : s.enter limit t with
    | .error e => some (.error e)
    | .ok inside =>
      have : inside.items = s.items := Source.items_of_enter henter
      container? limit current inside
  | none => (primitive? t.kind).map fun type => .ok (.primitive type, s)
termination_by (s.items.length, 1)
decreasing_by
  simp_all [Prod.lex_def]

end

/-! ## One step -/

/-- What a token means to a container is what it does in one step, the end of input apart. -/
theorem step_eq_arm (hend : t.kind ≠ .endOfInput) (current : Open) (outer : List Slot) :
    step limit t (.inside current outer) =
      match arm t current with
      | .go next => .ok (.reach (.inside next outer))
      | .value slot =>
        (beginValue? limit t (slot :: outer)).getD (.error (.unexpected t current.container))
      | .close value => .ok (complete value outer)
      | .refuse e => .error e := by
  have hmisplaced : ∀ container, misplaced t container = .unexpected t container :=
    fun container => if_neg hend
  match current with
  | .object members .keyOrClose =>
    simp only [step, stepObject, arm, objectArm, hmisplaced]
    split <;> simp [*]
  | .object members .key =>
    simp only [step, stepObject, arm, objectArm, hmisplaced]
    split <;> simp [*]
  | .object members (.colon key) =>
    simp only [step, stepObject, arm, objectArm, hmisplaced]
    split <;> simp [*]
  | .object members (.value key) =>
    simp only [step, stepObject, arm, objectArm, hmisplaced]
    cases hstarts : t.kind.startsValue with
    | true => rfl
    | false => simp [beginValue?_none hstarts]
  | .object members .commaOrClose =>
    simp only [step, stepObject, arm, objectArm, hmisplaced]
    split <;> simp [*]
  | .array elements .valueOrClose =>
    simp only [step, stepArray, arm, arrayArm, hmisplaced]
    cases hstarts : t.kind.startsValue with
    | true => cases hkind : t.kind <;> simp_all [Open.container, Token.Kind.startsValue]
    | false => cases hkind : t.kind <;> simp_all [beginValue?_none hstarts]
  | .array elements .value =>
    simp only [step, stepArray, arm, arrayArm, hmisplaced]
    cases hstarts : t.kind.startsValue with
    | true => cases hkind : t.kind <;> simp_all [Open.container, Token.Kind.startsValue]
    | false => cases hkind : t.kind <;> simp_all [beginValue?_none hstarts]
  | .array elements .commaOrClose =>
    simp only [step, stepArray, arm, arrayArm, hmisplaced]
    split <;> simp [*]

/-- A container takes for a value only what begins one. -/
theorem startsValue_of_arm (h : arm t current = .value slot) : t.kind.startsValue = true := by
  rw [← Bool.not_eq_false]
  intro hstarts
  match current with
  | .object members state =>
    cases state <;> simp [arm, objectArm, hstarts] at h <;> split at h <;> cases h
  | .array elements state =>
    cases state <;> simp [arm, arrayArm, hstarts] at h <;> split at h <;> cases h

theorem complete_slot (value : Node) (slot : Slot) (outer : List Slot) :
    (complete value (slot :: outer)).position = .inside (slot.fill value) outer := by
  cases slot <;> rfl

/-- A reading of a token that is neither a fault nor the end of input goes on where its step leads. -/
theorem result_run_cons (hend : t.kind ≠ .endOfInput) (hfault : ∀ cause, t.kind ≠ .fault cause)
    (p : Position) (stop : Nat) (ts : List Token) : (run limit p stop (t :: ts)).result =
      (step limit t p).bind fun a => (run limit a.position t.stop ts).result := by
  cases h : step limit t p with
  | ok a => exact result_run_of_step h stop ts
  | error e => exact result_run_of_step_error hend hfault h stop ts

/-! ## The recursion, token by token -/

theorem container?_of_error (h : s.next = .error e) (current : Open) :
    container? limit current s = some (.error e) := by
  rw [container?]
  split <;> simp_all

theorem container?_of_ok (h : s.next = .ok (t, rest)) (current : Open) :
    container? limit current s =
      match arm t current with
      | .refuse e => some (.error e)
      | .close value => rest.leave?.map fun rest => .ok (value, rest)
      | .go next => container? limit next rest
      | .value slot =>
        match value? limit t rest with
        | none => none
        | some (.error e) => some (.error e)
        | some (.ok (value, behind)) =>
          if behind.items.length ≤ rest.items.length then
            container? limit (slot.fill value) behind
          else none := by
  rw [container?]
  split
  · simp_all
  · rename_i u behind hnext
    obtain ⟨rfl, rfl⟩ := Prod.mk.inj (Except.ok.inj (h.symm.trans hnext))
    split <;> simp_all

theorem value?_of_opened (h : opened? t = some current) : value? limit t s =
    if limit < s.depth + 1 then some (.error (.nestingTooDeep limit t.start))
    else container? limit current { s with depth := s.depth + 1 } := by
  by_cases hroom : limit < s.depth + 1
  · have henter : s.enter limit t = .error (.nestingTooDeep limit t.start) := if_pos hroom
    rw [value?, h, if_pos hroom]
    simp only
    split <;> simp_all
  · have henter : s.enter limit t = .ok { s with depth := s.depth + 1 } := if_neg hroom
    rw [value?, h, if_neg hroom]
    simp only
    split <;> simp_all

theorem value?_of_primitive {type : Primitive} (h : t.kind = Token.kindOf type) :
    value? limit t s = some (.ok (.primitive type, s)) := by
  have hopened : opened? t = none := by
    cases type <;> rw [opened?, h] <;> rfl
  rw [value?, hopened, h]
  cases type <;> rfl

theorem beginValue?_of_opened (h : opened? t = some current) :
    beginValue? limit t slots = some (enter limit t current slots) := by
  unfold opened? at h
  split at h
  · rename_i hkind
    obtain rfl := Option.some.inj h
    exact beginValue?_leftBrace hkind slots
  · rename_i hkind
    obtain rfl := Option.some.inj h
    exact beginValue?_leftBracket hkind slots
  · cases h

theorem opened?_or_primitive (h : t.kind.startsValue = true) :
    (∃ current, opened? t = some current) ∨ ∃ type, t.kind = Token.kindOf type := by
  rcases startsValue_iff.1 h with hkind | hkind | htype
  · exact Or.inl ⟨_, by rw [opened?, hkind]⟩
  · exact Or.inl ⟨_, by rw [opened?, hkind]⟩
  · exact Or.inr htype

/-! ## The recursion and the steps -/

/-- What comes of reading from a position on. -/
def Source.result (limit : Nat) (p : Position) (s : Source) : Except Error Node :=
  (run limit p s.stop s.items).result

/-- What comes of a step and of reading on from where it leads. -/
def Source.onward (limit : Nat) (stepped : Except Error Advance) (s : Source) : Except Error Node :=
  stepped.bind fun a => s.result limit a.position

/-- With some containers around it, a value is read as it is by steps: there is the same error, or
the steps go on with the value in the innermost slot. -/
def Follows (limit : Nat) (slots : List Slot) (s : Source) (whole : Except Error Node)
    (given : Option (Except Error (Node × Source))) : Prop :=
  (∃ e, given = some (.error e) ∧ whole = .error e) ∨
    ∃ value rest, given = some (.ok (value, rest)) ∧ rest.depth = slots.length ∧
      rest.items.length ≤ s.items.length ∧
        whole = rest.result limit (complete value slots).position

theorem Follows.mono {other : Source} {whole : Except Error Node}
    {given : Option (Except Error (Node × Source))} (h : Follows limit slots s whole given)
    (hlength : s.items.length ≤ other.items.length) : Follows limit slots other whole given := by
  rcases h with h | ⟨value, rest, hgiven, hdepth, hrest, hwhole⟩
  · exact Or.inl h
  · exact Or.inr ⟨value, rest, hgiven, hdepth, hrest.trans hlength, hwhole⟩

/-- A value is read as by steps, if the container is that its token opens. -/
theorem value?_follows (hstarts : t.kind.startsValue = true) (hdepth : s.depth = slots.length)
    (hcontainer : ∀ current inside, inside.items.length = s.items.length →
      inside.depth = slots.length + 1 →
      Follows limit slots inside (inside.result limit (.inside current slots))
        (container? limit current inside)) (r : Except Error Advance) :
    Follows limit slots s (s.onward limit ((beginValue? limit t slots).getD r))
      (value? limit t s) := by
  rcases opened?_or_primitive hstarts with ⟨current, hopened⟩ | ⟨type, htype⟩
  · rw [value?_of_opened hopened, beginValue?_of_opened hopened, hdepth]
    by_cases hroom : slots.length < limit
    · have hinside := hcontainer current { s with depth := s.depth + 1 } rfl (by simp [hdepth])
      rw [if_neg (by omega), Option.getD_some, enter, if_pos hroom, ← hdepth]
      exact hinside
    · rw [if_pos (by omega), Option.getD_some, enter, if_neg hroom]
      exact Or.inl ⟨_, rfl, rfl⟩
  · rw [value?_of_primitive htype, beginValue?_primitive htype]
    exact Or.inr ⟨.primitive type, s, rfl, hdepth, Nat.le_refl _, rfl⟩

/-- A container is read as by steps. -/
theorem container?_follows (current : Open) (hdepth : s.depth = slots.length + 1) :
    Follows limit slots s (s.result limit (.inside current slots))
      (container? limit current s) := by
  induction hlength : s.items.length using Nat.strong_induction_on generalizing s slots current with
  | _ length ih =>
    subst hlength
    cases hitems : s.items with
    | nil =>
      have hend : (Token.atEnd s.stop).kind = .endOfInput := rfl
      rw [container?_of_ok (Source.next_nil hitems), arm_of_endOfInput hend]
      refine Or.inl ⟨_, rfl, ?_⟩
      rw [Source.result, hitems]
      rfl
    | cons t ts =>
      have hresult : ∀ p, s.result limit p = (run limit p s.stop (t :: ts)).result := by
        intro p
        rw [Source.result, hitems]
      rw [hresult]
      by_cases hfault : ∃ cause, t.kind = .fault cause
      · obtain ⟨cause, hcause⟩ := hfault
        rw [container?_of_error (Source.next_fault hitems hcause), result_run_fault hcause]
        exact Or.inl ⟨_, rfl, rfl⟩
      have hfault := not_exists.1 hfault
      rw [container?_of_ok (Source.next_cons hitems hfault)]
      by_cases hend : t.kind = .endOfInput
      · rw [arm_of_endOfInput hend, result_run_endOfInput hend]
        exact Or.inl ⟨_, rfl, rfl⟩
      have hless : ts.length < s.items.length := by simp [hitems]
      rw [result_run_cons hend hfault, step_eq_arm hend]
      cases harm : arm t current with
      | refuse e => exact Or.inl ⟨e, rfl, rfl⟩
      | close value =>
        refine Or.inr ⟨value, ⟨ts, t.stop, slots.length⟩, ?_, rfl, hless.le, rfl⟩
        simp [Source.leave?, hdepth]
      | go next =>
        have hrest : Source.depth ⟨ts, t.stop, s.depth⟩ = slots.length + 1 := hdepth
        exact (ih ts.length hless next hrest rfl).mono hless.le
      | value slot =>
        -- The value is read with one slot more around it, and then the container goes on.
        have hrest : Source.depth ⟨ts, t.stop, s.depth⟩ = (slot :: slots).length := hdepth
        have hvalue := value?_follows (startsValue_of_arm harm) hrest
          (fun next inside hinside hdeeper =>
            ih inside.items.length (by rw [hinside]; exact hless) next hdeeper rfl)
          (.error (.unexpected t current.container))
        rcases hvalue with ⟨e, hgiven, hwhole⟩ | ⟨value, behind, hgiven, hbehind, hshorter, hwhole⟩
        · rw [hgiven]
          exact Or.inl ⟨e, rfl, hwhole⟩
        · have hless : behind.items.length < s.items.length := lt_of_le_of_lt hshorter hless
          have honward := ih behind.items.length hless (slot.fill value) hbehind rfl
          rw [← complete_slot, ← hwhole] at honward
          rw [hgiven]
          simp only [if_pos hshorter]
          exact honward.mono hless.le

/-! ## Whole lists -/

/-- A document, if the input ends behind it. -/
def Source.closed (root : Node) (s : Source) : Except Error Node :=
  match s.next with
  | .error e => .error e
  | .ok (t, _) => if t.kind = .endOfInput then .ok root else .error (.trailingContent t)

/-- Reads a document from a list of tokens. -/
def parse? (limit : Nat) (items : List Token) : Option (Except Error Node) :=
  match Source.next ⟨items, 0, 0⟩ with
  | .error e => some (.error e)
  | .ok (t, s) =>
    if t.kind = .leftBrace ∨ t.kind = .leftBracket then
      match value? limit t s with
      | none => none
      | some (.error e) => some (.error e)
      | some (.ok (root, s)) => some (s.closed root)
    else some (.error (.invalidRoot t))

/-- What stands behind a document is its end, or an error. -/
theorem result_done (root : Node) (s : Source) :
    s.result limit (.done root) = s.closed root := by
  unfold Source.result Source.closed
  cases hitems : s.items with
  | nil =>
    rw [Source.next_nil hitems]
    rfl
  | cons t ts =>
    by_cases hfault : ∃ cause, t.kind = .fault cause
    · obtain ⟨cause, hcause⟩ := hfault
      rw [Source.next_fault hitems hcause, result_run_fault hcause]
    have hfault := not_exists.1 hfault
    rw [Source.next_cons hitems hfault]
    by_cases hend : t.kind = .endOfInput
    · rw [result_run_endOfInput hend]
      exact (if_pos hend).symm
    · rw [result_run_cons hend hfault]
      exact (if_neg hend).symm

theorem startsValue_of_root (h : t.kind = .leftBrace ∨ t.kind = .leftBracket) :
    t.kind.startsValue = true := by
  rcases h with h | h <;> rw [h] <;> rfl

theorem step_start (limit : Nat) (t : Token) :
    step limit t .start =
      if t.kind = .leftBrace ∨ t.kind = .leftBracket then
        (beginValue? limit t []).getD (.error (.invalidRoot t))
      else .error (.invalidRoot t) := by
  rw [step]
  split
  · rename_i hkind
    simp [hkind, beginValue?_leftBrace hkind]
  · rename_i hkind
    simp [hkind, beginValue?_leftBracket hkind]
  · rename_i hbrace hbracket
    exact (if_neg (not_or.2 ⟨hbrace, hbracket⟩)).symm

/-- No rule is broken while a list of tokens is read, and the outcome is the tree of the list. -/
theorem parse?_eq (limit : Nat) (items : List Token) :
    parse? limit items = some (ofTokens limit items) := by
  unfold parse? ofTokens read
  cases items with
  | nil => rfl
  | cons t ts =>
    by_cases hfault : ∃ cause, t.kind = .fault cause
    · obtain ⟨cause, hcause⟩ := hfault
      rw [Source.next_fault rfl hcause, result_run_fault hcause]
    have hfault := not_exists.1 hfault
    rw [Source.next_cons rfl hfault]
    by_cases hend : t.kind = .endOfInput
    · rw [result_run_endOfInput hend]
      simp [hend, finish]
    rw [result_run_cons hend hfault, step_start]
    by_cases hroot : t.kind = .leftBrace ∨ t.kind = .leftBracket
    · have hvalue : Follows limit [] ⟨ts, t.stop, 0⟩ _ (value? limit t ⟨ts, t.stop, 0⟩) :=
        value?_follows (startsValue_of_root hroot) rfl
          (fun current inside _ hinside => container?_follows current hinside)
          (.error (.invalidRoot t))
      simp only [if_pos hroot]
      rcases hvalue with ⟨e, hgiven, hwhole⟩ | ⟨root, rest, hgiven, -, -, hwhole⟩
      · rw [hgiven]
        exact congrArg some hwhole.symm
      · rw [hgiven]
        refine congrArg some (Eq.trans ?_ hwhole.symm)
        exact (result_done root rest).symm
    · simp [hroot, Except.bind]

end Document

end JsonShape
