import JsonShape.Document.Parse
import JsonShape.Proofs.Document.Derivation

/-!
# What the reader accepts

The reader keeps one open container and the slots around it, and closes them later, so that what it
has read is not yet part of a derivation.  What a position still asks of the tokens after it is
written down as `Demands`: a derivation for each part that is missing.  One token moves the reader
to a position that asks for the rest, and a token that fits no demand is refused.

* `demands_cons` — a step: what a position asks for, by the first token.
* `result_run_eq_ok_iff` — a run: the reader succeeds exactly on what its position asks for.
* `ofTokens_eq_ok_iff` — a document is accepted exactly if it has a derivation that nests no deeper
  than allowed, and then its tree is the one that the derivation stands for.
-/

namespace JsonShape

namespace Document

/-- The tokens before the first end of input; all of them, if the list runs out before. -/
def beforeEnd (items : List Token) : List Token := items.takeWhile fun t => t.kind ≠ .endOfInput

section Demands

variable (limit : Nat) (root : Node)

/-! ## Demands -/

/-- An object with `members` goes on with further members that nest no deeper than `room`, and
ends; what comes after it satisfies `after`. -/
def EndsObject (room : Nat) (members : Members Node) (after : Node → List Token → Prop)
    (ts : List Token) : Prop :=
  ∃ (more : MoreMembers) (closing : Token.Of .rightBrace) (rest : List Token),
    ts = more.tokens ++ closing.1 :: rest ∧ more.nesting ≤ room ∧
      after (.object (members.pushAll more.pairs)) rest

/-- An array with `elements` goes on with further elements that nest no deeper than `room`, and
ends; what comes after it satisfies `after`. -/
def EndsArray (room : Nat) (elements : List Node) (after : Node → List Token → Prop)
    (ts : List Token) : Prop :=
  ∃ (more : MoreElements) (closing : Token.Of .rightBracket) (rest : List Token),
    ts = more.tokens ++ closing.1 :: rest ∧ more.nesting ≤ room ∧
      after (.array (elements ++ more.nodes)) rest

/-- The tokens end every container around a value that fills the innermost slot, and the document is
`root` then. -/
def Closes : List Slot → Node → List Token → Prop
  | [], value, ts => ts = [] ∧ value = root
  | .member members key :: outer, value, ts =>
    EndsObject (limit - (outer.length + 1)) (members.push key value) (Closes outer) ts
  | .element elements :: outer, value, ts =>
    EndsArray (limit - (outer.length + 1)) (elements.push value).toList (Closes outer) ts

/-- The tokens begin with a value for the innermost slot and end every container around it. -/
def AwaitsValue (slots : List Slot) (ts : List Token) : Prop :=
  ∃ (d : Derivation) (rest : List Token),
    ts = d.tokens ++ rest ∧ d.nesting ≤ limit - slots.length ∧ Closes limit root slots d.node rest

/-- The tokens begin with a member of an object and end every container around its value. -/
def AwaitsMember (members : Members Node) (outer : List Slot) (ts : List Token) : Prop :=
  ∃ (key : Token.Of .string) (colon : Token.Of .colon) (rest : List Token),
    ts = key.1 :: colon.1 :: rest ∧
      AwaitsValue limit root (.member members key.1.text :: outer) rest

/-- What a position asks of the tokens after it, for the document to be `root`. -/
def Demands : Position → List Token → Prop
  | .start, ts =>
    ∃ d : Derivation, d.IsContainer ∧ d.tokens = ts ∧ d.nesting ≤ limit ∧ d.node = root
  | .done value, ts => ts = [] ∧ value = root
  | .inside (.object members .keyOrClose) outer, ts =>
    (∃ (closing : Token.Of .rightBrace) (rest : List Token),
      ts = closing.1 :: rest ∧ Closes limit root outer (.object members) rest) ∨
      AwaitsMember limit root members outer ts
  | .inside (.object members .key) outer, ts => AwaitsMember limit root members outer ts
  | .inside (.object members (.colon key)) outer, ts =>
    ∃ (colon : Token.Of .colon) (rest : List Token),
      ts = colon.1 :: rest ∧ AwaitsValue limit root (.member members key :: outer) rest
  | .inside (.object members (.value key)) outer, ts =>
    AwaitsValue limit root (.member members key :: outer) ts
  | .inside (.object members .commaOrClose) outer, ts =>
    EndsObject (limit - (outer.length + 1)) members (Closes limit root outer) ts
  | .inside (.array elements .valueOrClose) outer, ts =>
    (∃ (closing : Token.Of .rightBracket) (rest : List Token),
      ts = closing.1 :: rest ∧ Closes limit root outer (.array elements.toList) rest) ∨
      AwaitsValue limit root (.element elements :: outer) ts
  | .inside (.array elements .value) outer, ts =>
    AwaitsValue limit root (.element elements :: outer) ts
  | .inside (.array elements .commaOrClose) outer, ts =>
    EndsArray (limit - (outer.length + 1)) elements.toList (Closes limit root outer) ts

end Demands

variable {limit : Nat} {root : Node}

/-- A complete value leaves the demand of the slots around it. -/
theorem demands_complete (value : Node) (slots : List Slot) (ts : List Token) :
    Demands limit root (complete value slots).position ts ↔ Closes limit root slots value ts := by
  match slots with
  | [] => exact Iff.rfl
  | .member members key :: outer => exact Iff.rfl
  | .element elements :: outer => exact Iff.rfl

/-! ## The beginning of a value -/

theorem beginValue?_leftBrace {t : Token} (h : t.kind = .leftBrace) (slots : List Slot) :
    beginValue? limit t slots = some (enter limit t (.object .empty .keyOrClose) slots) := by
  rw [beginValue?, h]

theorem beginValue?_leftBracket {t : Token} (h : t.kind = .leftBracket) (slots : List Slot) :
    beginValue? limit t slots = some (enter limit t (.array #[] .valueOrClose) slots) := by
  rw [beginValue?, h]

theorem beginValue?_primitive {t : Token} {type : Primitive} (h : t.kind = Token.kindOf type)
    (slots : List Slot) :
    beginValue? limit t slots = some (.ok (complete (.primitive type) slots)) := by
  cases type <;> rw [beginValue?, h] <;> rfl

theorem beginValue?_none {t : Token} (h : t.kind.startsValue = false) (slots : List Slot) :
    beginValue? limit t slots = none := by
  rw [beginValue?]
  split <;> simp_all [Token.Kind.startsValue, primitive?]
  split <;> simp_all

/-- The kinds that can begin a value. -/
theorem startsValue_iff {kind : Token.Kind} : kind.startsValue = true ↔
    kind = .leftBrace ∨ kind = .leftBracket ∨ ∃ type, kind = Token.kindOf type := by
  constructor
  · intro h
    cases kind with
    | leftBrace => exact Or.inl rfl
    | leftBracket => exact Or.inr (Or.inl rfl)
    | string => exact Or.inr (Or.inr ⟨.string, rfl⟩)
    | integer => exact Or.inr (Or.inr ⟨.integer, rfl⟩)
    | float => exact Or.inr (Or.inr ⟨.float, rfl⟩)
    | bool => exact Or.inr (Or.inr ⟨.bool, rfl⟩)
    | null => exact Or.inr (Or.inr ⟨.null, rfl⟩)
    | _ => cases h
  · rintro (rfl | rfl | ⟨type, rfl⟩)
    · rfl
    · rfl
    · cases type <;> rfl

theorem enter_eq_ok_iff {t : Token} {container : Open} {outer : List Slot} {a : Advance} :
    enter limit t container outer = .ok a ↔
      outer.length < limit ∧ a = .reach (.inside container outer) := by
  rw [enter]
  by_cases h : outer.length < limit
  · rw [if_pos h]
    exact ⟨fun ha => ⟨h, (Except.ok.inj ha).symm⟩, fun ha => by rw [ha.2]⟩
  · rw [if_neg h]
    exact ⟨fun ha => (by cases ha), fun ha => absurd ha.1 h⟩

theorem firstKind_eq_kind {d : Derivation} {t : Token} {ts rest : List Token}
    (h : t :: ts = d.tokens ++ rest) : d.firstKind = t.kind := by
  obtain ⟨first, others, hfirst⟩ := d.exists_tokens_eq_cons
  rw [hfirst] at h
  rw [(List.cons.inj h).1, first.2]

theorem awaitsValue_primitive {t : Token} {type : Primitive} (h : t.kind = Token.kindOf type)
    (slots : List Slot) (ts : List Token) :
    AwaitsValue limit root slots (t :: ts) ↔ Closes limit root slots (.primitive type) ts := by
  constructor
  · rintro ⟨d, rest, htokens, -, hcloses⟩
    have hfirst := firstKind_eq_kind htokens
    rw [h] at hfirst
    cases d with
    | primitive other u =>
      obtain rfl := Token.kindOf_injective hfirst
      obtain ⟨-, rfl⟩ := List.cons.inj htokens
      exact hcloses
    | _ => cases type <;> cases hfirst
  · intro hcloses
    exact ⟨.primitive type ⟨t, h⟩, ts, rfl, Nat.zero_le _, hcloses⟩

theorem awaitsValue_leftBrace {t : Token} (h : t.kind = .leftBrace) (slots : List Slot)
    (ts : List Token) : AwaitsValue limit root slots (t :: ts) ↔
      slots.length < limit ∧
        Demands limit root (.inside (.object .empty .keyOrClose) slots) ts := by
  constructor
  · rintro ⟨d, rest, htokens, hnesting, hcloses⟩
    have hfirst := firstKind_eq_kind htokens
    rw [h] at hfirst
    cases d with
    | emptyObject opening closing =>
      obtain ⟨-, rfl⟩ := List.cons.inj htokens
      rw [Derivation.nesting] at hnesting
      refine ⟨by omega, Or.inl ⟨closing, rest, rfl, ?_⟩⟩
      rwa [← Members.ofPairs_nil]
    | object opening key colon value more closing =>
      obtain ⟨-, rfl⟩ := List.cons.inj htokens
      rw [Derivation.nesting] at hnesting
      refine ⟨by omega, Or.inr ⟨key, colon, _, rfl, ?_⟩⟩
      refine ⟨value, more.tokens ++ closing.1 :: rest, by simp, ?_, more, closing, rest, rfl, ?_,
        ?_⟩
      · rw [List.length_cons]
        omega
      · omega
      · rw [← Members.ofPairs_nil, Members.push_ofPairs, Members.pushAll_ofPairs]
        exact hcloses
    | primitive type u => cases type <;> cases hfirst
    | _ => cases hfirst
  · rintro ⟨hroom, ⟨closing, rest, rfl, hcloses⟩ | ⟨key, colon, rest, rfl, hvalue⟩⟩
    · refine ⟨.emptyObject ⟨t, h⟩ closing, rest, rfl, ?_, ?_⟩
      · rw [Derivation.nesting]
        omega
      · rwa [Derivation.node, Members.ofPairs_nil]
    · obtain ⟨value, after, rfl, hnesting, more, closing, rest, rfl, hmore, hcloses⟩ := hvalue
      refine ⟨.object ⟨t, h⟩ key colon value more closing, rest, by simp [Derivation.tokens], ?_,
        ?_⟩
      · rw [List.length_cons] at hnesting
        rw [Derivation.nesting]
        omega
      · rwa [← Members.ofPairs_nil, Members.push_ofPairs, Members.pushAll_ofPairs] at hcloses

theorem awaitsValue_leftBracket {t : Token} (h : t.kind = .leftBracket) (slots : List Slot)
    (ts : List Token) : AwaitsValue limit root slots (t :: ts) ↔
      slots.length < limit ∧ Demands limit root (.inside (.array #[] .valueOrClose) slots) ts := by
  constructor
  · rintro ⟨d, rest, htokens, hnesting, hcloses⟩
    have hfirst := firstKind_eq_kind htokens
    rw [h] at hfirst
    cases d with
    | emptyArray opening closing =>
      obtain ⟨-, rfl⟩ := List.cons.inj htokens
      rw [Derivation.nesting] at hnesting
      exact ⟨by omega, Or.inl ⟨closing, rest, rfl, hcloses⟩⟩
    | array opening value more closing =>
      obtain ⟨-, rfl⟩ := List.cons.inj htokens
      rw [Derivation.nesting] at hnesting
      refine ⟨by omega, Or.inr ?_⟩
      refine ⟨value, more.tokens ++ closing.1 :: rest, by simp, ?_, more, closing, rest, rfl, ?_,
        hcloses⟩
      · rw [List.length_cons]
        omega
      · omega
    | primitive type u => cases type <;> cases hfirst
    | _ => cases hfirst
  · rintro ⟨hroom, ⟨closing, rest, rfl, hcloses⟩ | hvalue⟩
    · refine ⟨.emptyArray ⟨t, h⟩ closing, rest, rfl, ?_, hcloses⟩
      rw [Derivation.nesting]
      omega
    · obtain ⟨value, after, rfl, hnesting, more, closing, rest, rfl, hmore, hcloses⟩ := hvalue
      refine ⟨.array ⟨t, h⟩ value more closing, rest, by simp [Derivation.tokens], ?_, hcloses⟩
      rw [List.length_cons] at hnesting
      rw [Derivation.nesting]
      omega

/-- A demand for a value, by the token that begins it. -/
theorem awaitsValue_cons (slots : List Slot) (t : Token) (ts : List Token) :
    AwaitsValue limit root slots (t :: ts) ↔
      ∃ a, beginValue? limit t slots = some (.ok a) ∧ Demands limit root a.position ts := by
  cases hstarts : t.kind.startsValue with
  | false =>
    rw [beginValue?_none hstarts]
    refine iff_of_false ?_ (fun ⟨a, ha, _⟩ => by cases ha)
    rintro ⟨d, rest, htokens, -⟩
    exact d.tokens_append_ne ⟨t, rfl⟩ hstarts rest ts htokens.symm
  | true =>
    rcases startsValue_iff.1 hstarts with hkind | hkind | ⟨type, hkind⟩
    · rw [awaitsValue_leftBrace hkind, beginValue?_leftBrace hkind]
      simp [enter_eq_ok_iff, Advance.reach]
    · rw [awaitsValue_leftBracket hkind, beginValue?_leftBracket hkind]
      simp [enter_eq_ok_iff, Advance.reach]
    · rw [awaitsValue_primitive hkind, beginValue?_primitive hkind]
      simp [demands_complete]

/-! ## The other tokens of a container -/

/-- A demand for a token of one kind, by the token that is there. -/
theorem exists_token_cons {kind : Token.Kind} {t : Token} {ts : List Token}
    {after : Token.Of kind → List Token → Prop} :
    (∃ (u : Token.Of kind) (rest : List Token), t :: ts = u.1 :: rest ∧ after u rest) ↔
      ∃ h : t.kind = kind, after ⟨t, h⟩ ts := by
  constructor
  · rintro ⟨u, rest, heq, hafter⟩
    obtain ⟨rfl, rfl⟩ := List.cons.inj heq
    exact ⟨u.2, hafter⟩
  · rintro ⟨h, hafter⟩
    exact ⟨⟨t, h⟩, ts, rfl, hafter⟩

theorem awaitsMember_cons (members : Members Node) (outer : List Slot) (t : Token)
    (ts : List Token) : AwaitsMember limit root members outer (t :: ts) ↔
      t.kind = .string ∧
        Demands limit root (.inside (.object members (.colon t.text)) outer) ts := by
  constructor
  · rintro ⟨key, colon, rest, heq, hvalue⟩
    obtain ⟨rfl, rfl⟩ := List.cons.inj heq
    exact ⟨key.2, colon, rest, rfl, hvalue⟩
  · rintro ⟨h, colon, rest, rfl, hvalue⟩
    exact ⟨⟨t, h⟩, colon, rest, rfl, hvalue⟩

theorem endsObject_cons (members : Members Node) (outer : List Slot) (t : Token)
    (ts : List Token) :
    EndsObject (limit - (outer.length + 1)) members (Closes limit root outer) (t :: ts) ↔
      (t.kind = .rightBrace ∧ Closes limit root outer (.object members) ts) ∨
        (t.kind = .comma ∧ AwaitsMember limit root members outer ts) := by
  constructor
  · rintro ⟨more, closing, rest, heq, hnesting, hcloses⟩
    cases more with
    | none =>
      obtain ⟨rfl, rfl⟩ := List.cons.inj heq
      exact Or.inl ⟨closing.2, hcloses⟩
    | next comma key colon value more =>
      obtain ⟨rfl, rfl⟩ := List.cons.inj heq
      rw [MoreMembers.nesting] at hnesting
      refine Or.inr ⟨comma.2, key, colon, _, rfl, value, more.tokens ++ closing.1 :: rest, by simp,
        ?_, more, closing, rest, rfl, ?_, hcloses⟩
      · exact (le_max_left _ _).trans hnesting
      · exact (le_max_right _ _).trans hnesting
  · rintro (⟨h, hcloses⟩ | ⟨h, key, colon, rest, rfl, value, after, rfl, hvalue, more, closing,
      rest, rfl, hmore, hcloses⟩)
    · exact ⟨.none, ⟨t, h⟩, ts, rfl, Nat.zero_le _, hcloses⟩
    · exact ⟨.next ⟨t, h⟩ key colon value more, closing, rest, by simp [MoreMembers.tokens],
        max_le hvalue hmore, hcloses⟩

theorem endsArray_cons (elements : Array Node) (outer : List Slot) (t : Token)
    (ts : List Token) :
    EndsArray (limit - (outer.length + 1)) elements.toList (Closes limit root outer) (t :: ts) ↔
      (t.kind = .rightBracket ∧ Closes limit root outer (.array elements.toList) ts) ∨
        (t.kind = .comma ∧ AwaitsValue limit root (.element elements :: outer) ts) := by
  constructor
  · rintro ⟨more, closing, rest, heq, hnesting, hcloses⟩
    cases more with
    | none =>
      obtain ⟨rfl, rfl⟩ := List.cons.inj heq
      rw [MoreElements.nodes, List.append_nil] at hcloses
      exact Or.inl ⟨closing.2, hcloses⟩
    | next comma value more =>
      obtain ⟨rfl, rfl⟩ := List.cons.inj heq
      rw [MoreElements.nesting] at hnesting
      refine Or.inr ⟨comma.2, value, more.tokens ++ closing.1 :: rest, by simp, ?_, more, closing,
        rest, rfl, ?_, ?_⟩
      · exact (le_max_left _ _).trans hnesting
      · exact (le_max_right _ _).trans hnesting
      · simpa [MoreElements.nodes] using hcloses
  · rintro (⟨h, hcloses⟩ | ⟨h, value, after, rfl, hvalue, more, closing, rest, rfl, hmore,
      hcloses⟩)
    · exact ⟨.none, ⟨t, h⟩, ts, rfl, Nat.zero_le _, by simpa [MoreElements.nodes] using hcloses⟩
    · exact ⟨.next ⟨t, h⟩ value more, closing, rest, by simp [MoreElements.tokens],
        max_le hvalue hmore, by simpa [MoreElements.nodes] using hcloses⟩

/-! ## One token -/

/-- Inside an object, a token is taken exactly if it fits the demand, and leaves the rest of it. -/
theorem demands_object_cons (members : Members Node) (state : ObjectState) (outer : List Slot)
    (t : Token) (ts : List Token) :
    Demands limit root (.inside (.object members state) outer) (t :: ts) ↔
      ∃ a, stepObject limit t members outer state = .ok a ∧ Demands limit root a.position ts := by
  cases state with
  | keyOrClose =>
    rw [Demands, exists_token_cons, awaitsMember_cons, stepObject]
    cases hkind : t.kind <;> simp [demands_complete, Advance.reach]
  | key =>
    rw [Demands, awaitsMember_cons, stepObject]
    cases hkind : t.kind <;> simp [Advance.reach]
  | colon key =>
    rw [Demands, exists_token_cons, stepObject]
    cases hkind : t.kind <;> simp [Advance.reach, Demands]
  | value key =>
    rw [Demands, awaitsValue_cons, stepObject]
    cases beginValue? limit t (.member members key :: outer) <;> simp
  | commaOrClose =>
    rw [Demands, endsObject_cons, stepObject]
    cases hkind : t.kind with
    | rightBrace => simp [demands_complete]
    | comma => simp [Advance.reach, Demands]
    | _ => simp

/-- Inside an array, a token is taken exactly if it fits the demand, and leaves the rest of it. -/
theorem demands_array_cons (elements : Array Node) (state : ArrayState) (outer : List Slot)
    (t : Token) (ts : List Token) :
    Demands limit root (.inside (.array elements state) outer) (t :: ts) ↔
      ∃ a, stepArray limit t elements outer state = .ok a ∧ Demands limit root a.position ts := by
  cases state with
  | valueOrClose =>
    rw [Demands, exists_token_cons, awaitsValue_cons, stepArray]
    by_cases hkind : t.kind = .rightBracket
    · rw [beginValue?_none (by rw [hkind]; rfl)]
      simp [hkind, demands_complete]
    · simp only [hkind, IsEmpty.exists_iff, false_or]
      cases beginValue? limit t (.element elements :: outer) <;> simp
  | value =>
    rw [Demands, awaitsValue_cons, stepArray]
    by_cases hkind : t.kind = .rightBracket
    · rw [beginValue?_none (by rw [hkind]; rfl)]
      simp [hkind]
    · split
      · contradiction
      · cases beginValue? limit t (.element elements :: outer) <;> simp
  | commaOrClose =>
    rw [Demands, endsArray_cons, stepArray]
    cases hkind : t.kind with
    | rightBracket => simp [demands_complete]
    | comma => simp [Advance.reach, Demands]
    | _ => simp

/-- Where the root is expected, the demand of a value that is a container. -/
theorem demands_start_iff (ts : List Token) : Demands limit root .start ts ↔
    AwaitsValue limit root [] ts ∧ ∀ t ∈ ts.head?, t.kind = .leftBrace ∨ t.kind = .leftBracket := by
  constructor
  · rintro ⟨d, hcontainer, rfl, hnesting, rfl⟩
    refine ⟨⟨d, [], (List.append_nil _).symm, hnesting, rfl, rfl⟩, ?_⟩
    obtain ⟨first, others, hfirst⟩ := d.exists_tokens_eq_cons
    rw [hfirst]
    rintro t ⟨⟩
    rw [first.2]
    cases d with
    | primitive type u => exact hcontainer.elim
    | _ => simp [Derivation.firstKind]
  · rintro ⟨⟨d, rest, rfl, hnesting, rfl, rfl⟩, hhead⟩
    refine ⟨d, ?_, (List.append_nil _).symm, hnesting, rfl⟩
    cases d with
    | primitive type u =>
      have hkind := hhead u.1 rfl
      rw [u.2] at hkind
      cases type <;> simp [Token.kindOf] at hkind
    | _ => trivial

/-- At the start, a token is taken exactly if it opens a container. -/
theorem demands_start_cons (t : Token) (ts : List Token) :
    Demands limit root .start (t :: ts) ↔
      ∃ a, step limit t .start = .ok a ∧ Demands limit root a.position ts := by
  rw [demands_start_iff, step]
  cases hkind : t.kind with
  | leftBrace =>
    rw [awaitsValue_leftBrace hkind]
    simp [hkind, enter_eq_ok_iff, Advance.reach]
  | leftBracket =>
    rw [awaitsValue_leftBracket hkind]
    simp [hkind, enter_eq_ok_iff, Advance.reach]
  | _ => simp [hkind]

/-- A step: a token is taken exactly if it fits what the position asks for, and leaves the rest. -/
theorem demands_cons (position : Position) (t : Token) (ts : List Token) :
    Demands limit root position (t :: ts) ↔
      ∃ a, step limit t position = .ok a ∧ Demands limit root a.position ts := by
  match position with
  | .start => exact demands_start_cons t ts
  | .inside (.object members state) outer => exact demands_object_cons members state outer t ts
  | .inside (.array elements state) outer => exact demands_array_cons elements state outer t ts
  | .done value => simp [Demands, step]

/-- Neither a fault nor the end of input is taken. -/
theorem step_last {t : Token} (h : t.kind = .endOfInput ∨ ∃ cause, t.kind = .fault cause)
    (position : Position) (a : Advance) : step limit t position ≠ .ok a := by
  match position with
  | .start => rcases h with h | ⟨cause, h⟩ <;> simp [step, h]
  | .inside (.object members state) outer =>
    rcases h with h | ⟨cause, h⟩ <;> cases state <;>
      simp [step, stepObject, beginValue?, primitive?, h]
  | .inside (.array elements state) outer =>
    rcases h with h | ⟨cause, h⟩ <;> cases state <;>
      simp [step, stepArray, beginValue?, primitive?, h]
  | .done value => simp [step]

/-- No position asks for a fault or for the end of input. -/
theorem not_last_of_demands {position : Position} {ts : List Token}
    (h : Demands limit root position ts) :
    ∀ t ∈ ts, ¬ (t.kind = .endOfInput ∨ ∃ cause, t.kind = .fault cause) := by
  induction ts generalizing position with
  | nil => exact fun t ht => absurd ht List.not_mem_nil
  | cons t ts ih =>
    obtain ⟨a, ha, hrest⟩ := (demands_cons position t ts).1 h
    intro u hu hlast
    rcases List.mem_cons.1 hu with rfl | hu
    · exact step_last hlast position a ha
    · exact ih hrest u hu hlast

theorem not_awaitsValue_nil (slots : List Slot) : ¬ AwaitsValue limit root slots [] := by
  rintro ⟨d, rest, heq, -⟩
  obtain ⟨first, others, hfirst⟩ := d.exists_tokens_eq_cons
  rw [hfirst] at heq
  cases heq

theorem not_demands_inside_nil (current : Open) (outer : List Slot) :
    ¬ Demands limit root (.inside current outer) [] := by
  cases current with
  | object members state =>
    cases state <;> simp [Demands, AwaitsMember, EndsObject, not_awaitsValue_nil]
  | array elements state =>
    cases state <;> simp [Demands, EndsArray, not_awaitsValue_nil]

/-- The end of input completes a document exactly if the position asks for nothing more. -/
theorem finish_eq_ok_iff (t : Token) (position : Position) :
    finish t position = .ok root ↔ Demands limit root position [] := by
  match position with
  | .start =>
    refine iff_of_false (fun h => by cases h) ?_
    intro h
    exact not_awaitsValue_nil [] ((demands_start_iff []).1 h).1
  | .inside current outer => exact iff_of_false (fun h => by cases h) (not_demands_inside_nil _ _)
  | .done value => simp [Demands, finish, eq_comm]

/-! ## All tokens -/

theorem beforeEnd_cons {t : Token} (h : t.kind ≠ .endOfInput) (ts : List Token) :
    beforeEnd (t :: ts) = t :: beforeEnd ts := by
  rw [beforeEnd, List.takeWhile_cons_of_pos (by simpa using h)]
  rfl

theorem beforeEnd_endOfInput {t : Token} (h : t.kind = .endOfInput) (ts : List Token) :
    beforeEnd (t :: ts) = [] := by
  rw [beforeEnd, List.takeWhile_cons_of_neg (by simpa using h)]

/-- A fault fails a reading. -/
theorem result_run_fault {t : Token} {cause : Fault} (h : t.kind = .fault cause)
    (position : Position) (stop : Nat) (ts : List Token) :
    (run limit position stop (t :: ts)).result = .error (.lexical cause t.start) := by
  rw [run, h]

theorem result_run_endOfInput {t : Token} (h : t.kind = .endOfInput) (position : Position)
    (stop : Nat) (ts : List Token) :
    (run limit position stop (t :: ts)).result = finish t position := by
  rw [run, h]

/-- A reading goes on after a token exactly if the token is taken. -/
theorem result_run_cons_eq_ok_iff {t : Token} (hend : t.kind ≠ .endOfInput)
    (hfault : ∀ cause, t.kind ≠ .fault cause) (position : Position) (stop : Nat)
    (ts : List Token) : (run limit position stop (t :: ts)).result = .ok root ↔
      ∃ a, step limit t position = .ok a ∧ (run limit a.position t.stop ts).result = .ok root := by
  rw [run]
  split
  · rename_i cause hkind
    exact absurd hkind (hfault cause)
  · contradiction
  · split
    · rename_i e hstep
      simp [hstep]
    · rename_i next hstep
      simp [hstep]
    · rename_i next key hstep
      simp [hstep]

/-- A run: the reading yields a document exactly if the tokens before the end are what the position
asks for. -/
theorem result_run_eq_ok_iff (position : Position) (stop : Nat) (ts : List Token) :
    (run limit position stop ts).result = .ok root ↔
      Demands limit root position (beforeEnd ts) := by
  induction ts generalizing position stop with
  | nil => exact finish_eq_ok_iff _ position
  | cons t ts ih =>
    by_cases hend : t.kind = .endOfInput
    · rw [result_run_endOfInput hend, beforeEnd_endOfInput hend]
      exact finish_eq_ok_iff t position
    · rw [beforeEnd_cons hend, demands_cons]
      by_cases hfault : ∃ cause, t.kind = .fault cause
      · obtain ⟨cause, hcause⟩ := hfault
        rw [result_run_fault hcause]
        refine iff_of_false (fun h => by cases h) ?_
        rintro ⟨a, ha, -⟩
        exact step_last (Or.inr ⟨cause, hcause⟩) position a ha
      · rw [result_run_cons_eq_ok_iff hend (not_exists.1 hfault)]
        simp only [ih]

/-- Only what precedes the first end of input is read. -/
theorem run_append_endOfInput {last : Token} (h : last.kind = .endOfInput) (position : Position)
    (stop : Nat) (before after other : List Token) :
    run limit position stop (before ++ last :: after) =
      run limit position stop (before ++ last :: other) := by
  induction before generalizing position stop with
  | nil => rw [List.nil_append, List.nil_append, run, run, h]
  | cons t before ih =>
    rw [List.cons_append, List.cons_append, run, run]
    simp only [ih]

/-- No part of a document is an end of input. -/
theorem not_endOfInput_tokens (d : Derivation) : ∀ t ∈ d.tokens, t.kind ≠ .endOfInput := by
  have hcontainer : d.IsContainer → ∀ t ∈ d.tokens, t.kind ≠ .endOfInput := by
    intro hd t ht hend
    have hdemands : Demands d.nesting d.node .start d.tokens := ⟨d, hd, rfl, Nat.le_refl _, rfl⟩
    exact not_last_of_demands hdemands t ht (Or.inl hend)
  cases d with
  | primitive type u =>
    intro t ht
    rw [List.mem_singleton.1 ht, u.2]
    cases type <;> decide
  | _ => exact hcontainer trivial

theorem beforeEnd_tokens (d : Derivation) (last : Token.Of .endOfInput) (after : List Token) :
    beforeEnd (d.tokens ++ last.1 :: after) = d.tokens := by
  rw [beforeEnd, List.takeWhile_append_of_pos, List.takeWhile_cons_of_neg, List.append_nil]
  · simp [last.2]
  · exact fun t ht => decide_eq_true (not_endOfInput_tokens d t ht)

/-- The tokens of a value, up to an end of input, are read exactly if the value is a container that
nests no deeper than allowed. -/
theorem ofTokens_tokens_eq_ok_iff {d : Derivation} (last : Token.Of .endOfInput)
    (after : List Token) : ofTokens limit (d.tokens ++ last.1 :: after) = .ok root ↔
      d.IsContainer ∧ d.nesting ≤ limit ∧ d.node = root := by
  have hrun : ofTokens limit (d.tokens ++ last.1 :: after) = .ok root ↔
      Demands limit root .start d.tokens := by
    have h : ofTokens limit (d.tokens ++ last.1 :: after) = .ok root ↔
        Demands limit root .start (beforeEnd (d.tokens ++ last.1 :: after)) :=
      result_run_eq_ok_iff .start 0 _
    rwa [beforeEnd_tokens] at h
  rw [hrun]
  constructor
  · rintro ⟨e, hcontainer, htokens, hnesting, hnode⟩
    obtain rfl := Derivation.tokens_injective htokens
    exact ⟨hcontainer, hnesting, hnode⟩
  · rintro ⟨hcontainer, hnesting, hnode⟩
    exact ⟨d, hcontainer, rfl, hnesting, hnode⟩

/-- A document is read from the tokens that derive it, up to an end of input. -/
theorem ofTokens_tokens {d : Derivation} (hcontainer : d.IsContainer) (hnesting : d.nesting ≤ limit)
    (last : Token.Of .endOfInput) (after : List Token) :
    ofTokens limit (d.tokens ++ last.1 :: after) = .ok d.node :=
  (ofTokens_tokens_eq_ok_iff last after).2 ⟨hcontainer, hnesting, rfl⟩

/-- A list of tokens is accepted exactly if what precedes the first end of input has no fault in it
and has a derivation as an object or array that nests no deeper than allowed.  There is one such
derivation at most, the tree read is the one that it stands for, every key of an object in it has
its place and a value, and nothing behind an end of input makes a difference. -/
theorem ofTokens_eq_ok_iff (limit : Nat) :
    (∀ (items : List Token) (root : Node), ofTokens limit items = .ok root ↔
      (∀ t ∈ beforeEnd items, ∀ cause, t.kind ≠ .fault cause) ∧
        ∃! d : Derivation, d.IsContainer ∧ d.tokens = beforeEnd items ∧ d.nesting ≤ limit ∧
          d.node = root) ∧
      Function.Injective Derivation.tokens ∧
      (∀ d : Derivation, d.node.WellFormed) ∧
      ∀ (before after other : List Token) (last : Token.Of .endOfInput),
        read limit (before ++ last.1 :: after) = read limit (before ++ last.1 :: other) := by
  refine ⟨?_, Derivation.tokens_injective, Derivation.wellFormed_node, ?_⟩
  · intro items root
    have hrun : ofTokens limit items = .ok root ↔ Demands limit root .start (beforeEnd items) :=
      result_run_eq_ok_iff .start 0 items
    rw [hrun]
    constructor
    · intro h
      have ⟨d, hd⟩ := h
      refine ⟨?_, d, hd, ?_⟩
      · intro t ht cause hcause
        exact not_last_of_demands h t ht (Or.inr ⟨cause, hcause⟩)
      · intro other hother
        exact Derivation.tokens_injective (hother.2.1.trans hd.2.1.symm)
    · rintro ⟨-, d, hd, -⟩
      exact ⟨d, hd⟩
  · intro before after other last
    exact run_append_endOfInput last.2 .start 0 before after other

end Document

end JsonShape
