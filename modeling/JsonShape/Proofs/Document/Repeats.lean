import JsonShape.Proofs.Document.Diagnosis

/-!
# Repeated keys

A reader notes a key each time a member is complete whose object already had the key.  It notes while
it reads, with objects open inside objects; what it has noted when it ends is told by the document
that was being read, whether it ends well or not.

* `Derivation.members` — the members of all objects of a document, in the order in which their values
  end, each with the keys before it in its object.
* `log` — what is noted while tokens are taken, with the number of tokens taken by then.
* `Derivation.log_append` — while a value is read, its repeated members are noted.
* `Takes` — how many tokens of a list are taken: as many as some document begins with.
* `duplicates_read` — what a reading notes: the repeated members of any document that begins with the
  tokens taken, as far as their values end among these.
-/

namespace JsonShape

/-! ## Members -/

/-- A member of an object in a document. -/
structure Member where
  /-- The keys of the members before it in its object. -/
  before : List String
  /-- Its own key. -/
  key : String
  /-- The number of tokens in the document up to the end of its value. -/
  stop : Nat

mutual

/-- The members of the objects in a value with `start` tokens before it, in the order in which the
values of the members end. -/
def Derivation.members (start : Nat) : Derivation → List Member
  | .primitive _ _ | .emptyObject _ _ | .emptyArray _ _ => []
  | .object _ key _ value more _ =>
    value.members (start + 3) ++ ⟨[], key.1.text, start + 3 + value.tokens.length⟩ ::
      more.members [key.1.text] (start + 3 + value.tokens.length)
  | .array _ value more _ =>
    value.members (start + 1) ++ more.members (start + 1 + value.tokens.length)

/-- The further members of an object, where `before` are the keys of those before them, and the
members of the objects in their values. -/
def MoreMembers.members (before : List String) (start : Nat) : MoreMembers → List Member
  | .none => []
  | .next _ key _ value more =>
    value.members (start + 3) ++ ⟨before, key.1.text, start + 3 + value.tokens.length⟩ ::
      more.members (before ++ [key.1.text]) (start + 3 + value.tokens.length)

/-- The members of the objects in further elements. -/
def MoreElements.members (start : Nat) : MoreElements → List Member
  | .none => []
  | .next _ value more =>
    value.members (start + 1) ++ more.members (start + 1 + value.tokens.length)

end

/-- The members end one after the other, behind more than `lo` tokens and fewer than `hi`. -/
structure Ascend (lo hi : Nat) (members : List Member) : Prop where
  /-- No two of them end together, and they stand in order. -/
  ordered : members.Pairwise (·.stop < ·.stop)
  /-- They end between the bounds. -/
  bounded : ∀ m ∈ members, lo < m.stop ∧ m.stop < hi

namespace Ascend

variable {lo mid hi : Nat} {ms others : List Member}

theorem nil (lo hi : Nat) : Ascend lo hi [] := ⟨.nil, fun _ hm => absurd hm List.not_mem_nil⟩

theorem append (h : Ascend lo mid ms) (hothers : Ascend mid hi others) (hlo : lo ≤ mid)
    (hhi : mid ≤ hi) : Ascend lo hi (ms ++ others) := by
  constructor
  · refine List.pairwise_append.2 ⟨h.ordered, hothers.ordered, fun m hm other hother => ?_⟩
    exact (h.bounded m hm).2.trans (hothers.bounded other hother).1
  · refine List.forall_mem_append.2 ⟨fun m hm => ?_, fun m hm => ?_⟩
    · exact ⟨(h.bounded m hm).1, (h.bounded m hm).2.trans_le hhi⟩
    · exact ⟨hlo.trans_lt (hothers.bounded m hm).1, (hothers.bounded m hm).2⟩

theorem widen {low high : Nat} (h : Ascend lo hi ms) (hlo : low ≤ lo) (hhi : hi ≤ high) :
    Ascend low high ms :=
  ⟨h.ordered, fun m hm =>
    ⟨hlo.trans_lt (h.bounded m hm).1, (h.bounded m hm).2.trans_le hhi⟩⟩

/-- A member, behind those in its value and before those behind it. -/
theorem member {m : Member} (h : Ascend lo m.stop ms) (hothers : Ascend m.stop hi others)
    (hlo : lo < m.stop) (hhi : m.stop < hi) : Ascend lo hi (ms ++ m :: others) := by
  constructor
  · have htail : (m :: others).Pairwise (·.stop < ·.stop) :=
      List.pairwise_cons.2 ⟨fun other hother => (hothers.bounded other hother).1, hothers.ordered⟩
    refine List.pairwise_append.2 ⟨h.ordered, htail, fun n hn => ?_⟩
    have hn := (h.bounded n hn).2
    exact List.forall_mem_cons.2
      ⟨hn, fun other hother => hn.trans (hothers.bounded other hother).1⟩
  · refine List.forall_mem_append.2 ⟨fun n hn => ?_, List.forall_mem_cons.2 ⟨⟨hlo, hhi⟩, ?_⟩⟩
    · exact ⟨(h.bounded n hn).1, (h.bounded n hn).2.trans hhi⟩
    · exact fun other hother =>
        ⟨hlo.trans (hothers.bounded other hother).1, (hothers.bounded other hother).2⟩

end Ascend

-- Between the bounds of a value lies more than those of the values in it: the closing token of an
-- object or an array comes behind all its members.
mutual

theorem Derivation.ascend_members (start : Nat) (d : Derivation) :
    Ascend start (start + d.tokens.length) (d.members start) := by
  cases d with
  | primitive type t => exact .nil _ _
  | emptyObject opening closing => exact .nil _ _
  | object opening key colon value more closing =>
    have hvalue := value.ascend_members (start + 3)
    have hmore := more.ascend_members [key.1.text] (start + 3 + value.tokens.length)
    simp only [Derivation.members, Derivation.tokens, List.length_cons, List.length_append,
      List.length_nil]
    exact .member (hvalue.widen (by omega) (Nat.le_refl _)) (hmore.widen (Nat.le_refl _) (by omega))
      (by simp only; omega) (by simp only; omega)
  | emptyArray opening closing => exact .nil _ _
  | array opening value more closing =>
    have hvalue := value.ascend_members (start + 1)
    have hmore := more.ascend_members (start + 1 + value.tokens.length)
    simp only [Derivation.members, Derivation.tokens, List.length_cons, List.length_append,
      List.length_nil]
    exact (hvalue.append hmore (by omega) (by omega)).widen (by omega) (by omega)

theorem MoreMembers.ascend_members (before : List String) (start : Nat) (m : MoreMembers) :
    Ascend start (start + m.tokens.length + 1) (m.members before start) := by
  cases m with
  | none => exact .nil _ _
  | next comma key colon value more =>
    have hvalue := value.ascend_members (start + 3)
    have hmore := more.ascend_members (before ++ [key.1.text]) (start + 3 + value.tokens.length)
    simp only [MoreMembers.members, MoreMembers.tokens, List.length_cons, List.length_append]
    exact .member (hvalue.widen (by omega) (Nat.le_refl _)) (hmore.widen (Nat.le_refl _) (by omega))
      (by simp only; omega) (by simp only; omega)

theorem MoreElements.ascend_members (start : Nat) (m : MoreElements) :
    Ascend start (start + m.tokens.length) (m.members start) := by
  cases m with
  | none => exact .nil _ _
  | next comma value more =>
    have hvalue := value.ascend_members (start + 1)
    have hmore := more.ascend_members (start + 1 + value.tokens.length)
    simp only [MoreElements.members, MoreElements.tokens, List.length_cons, List.length_append]
    exact (hvalue.append hmore (by omega) (by omega)).widen (by omega) (by omega)

end

namespace Document

variable {limit wide : Nat} {root : Node} {p : Position} {t : Token} {slots : List Slot}

/-! ## What is noted -/

/-- The keys that are noted while tokens are taken, each with the number of tokens taken by then;
`n` tokens have been taken before. -/
def log (limit : Nat) (p : Position) (n : Nat) : List Token → List (Nat × String)
  | [] => []
  | t :: rest =>
    match step limit t p with
    | .error _ => []
    | .ok a =>
      (a.duplicate.toList.map fun key => (n + 1, key)) ++ log limit a.position (n + 1) rest

/-- The repeated members among some, each as it is noted. -/
def noted (members : List Member) : List (Nat × String) :=
  (members.filter fun m => m.key ∈ m.before).map fun m => (m.stop, m.key)

theorem log_cons {a : Advance} (h : step limit t p = .ok a) (n : Nat) (rest : List Token) :
    log limit p n (t :: rest) =
      (a.duplicate.toList.map fun key => (n + 1, key)) ++ log limit a.position (n + 1) rest := by
  rw [log, h]

/-- A token with which no member ends. -/
theorem log_reach {q : Position} (h : step limit t p = .ok (.reach q)) (n : Nat)
    (rest : List Token) : log limit p n (t :: rest) = log limit q (n + 1) rest := by
  rw [log_cons h]
  rfl

theorem log_of_error {e : Error} (h : step limit t p = .error e) (n : Nat) (rest : List Token) :
    log limit p n (t :: rest) = [] := by
  rw [log, h]

@[simp] theorem noted_nil : noted [] = [] := rfl

theorem noted_append (ms others : List Member) : noted (ms ++ others) = noted ms ++ noted others := by
  rw [noted, List.filter_append, List.map_append]
  rfl

theorem noted_cons (m : Member) (ms : List Member) :
    noted (m :: ms) = (if m.key ∈ m.before then [(m.stop, m.key)] else []) ++ noted ms := by
  unfold noted
  by_cases h : m.key ∈ m.before <;> simp [h]

/-- What a reading notes. -/
theorem duplicates_run (limit : Nat) (p : Position) (stop n : Nat) (items : List Token) :
    (run limit p stop items).duplicates = (log limit p n items).map Prod.snd := by
  induction items generalizing p stop n with
  | nil => rfl
  | cons t rest ih =>
    cases hstep : step limit t p with
    | error e =>
      rw [log_of_error hstep, run]
      split <;> simp [hstep]
    | ok a =>
      have hlast : ¬ (t.kind = .endOfInput ∨ ∃ cause, t.kind = .fault cause) :=
        fun h => step_last h p a hstep
      rw [log_cons hstep, List.map_append, ← ih a.position t.stop, run]
      split
      · rename_i cause hkind
        exact absurd (Or.inr ⟨cause, hkind⟩) hlast
      · rename_i hkind
        exact absurd (Or.inl hkind) hlast
      · rw [hstep]
        obtain ⟨next, duplicate⟩ := a
        cases duplicate <;> rfl

theorem lt_of_mem_log {n : Nat} {items : List Token} {note : Nat × String}
    (h : note ∈ log limit p n items) : n < note.1 := by
  induction items generalizing p n with
  | nil => cases h
  | cons t rest ih =>
    cases hstep : step limit t p with
    | error e =>
      rw [log_of_error hstep] at h
      cases h
    | ok a =>
      rw [log_cons hstep, List.mem_append, List.mem_map] at h
      rcases h with ⟨key, -, rfl⟩ | h
      · exact Nat.lt_succ_self n
      · exact (Nat.lt_succ_self n).trans (ih h)

/-- What is noted among the first of some tokens. -/
theorem log_eq_filter (p : Position) (n : Nat) (front back : List Token) :
    log limit p n front =
      (log limit p n (front ++ back)).filter fun note => note.1 ≤ n + front.length := by
  induction front generalizing p n with
  | nil =>
    refine (List.filter_eq_nil_iff.2 fun note hnote => ?_).symm
    have := lt_of_mem_log hnote
    simpa using this
  | cons t front ih =>
    cases hstep : step limit t p with
    | error e => rw [List.cons_append, log_of_error hstep, log_of_error hstep, List.filter_nil]
    | ok a =>
      have hlength : n + (t :: front).length = n + 1 + front.length := by
        rw [List.length_cons]
        omega
      rw [List.cons_append, log_cons hstep, log_cons hstep, List.filter_append, hlength, ← ih]
      congr 1
      refine (List.filter_eq_self.2 fun note hnote => ?_).symm
      obtain ⟨key, -, rfl⟩ := List.mem_map.1 hnote
      exact decide_eq_true (by omega)

/-- Under two limits that leave room for the same tokens the same keys are noted. -/
theorem log_congr {other : Node} {front back behind : List Token}
    (h : Demands limit root p (front ++ back)) (hwide : Demands wide other p (front ++ behind))
    (n : Nat) : log limit p n front = log wide p n front := by
  induction front generalizing p n with
  | nil => rfl
  | cons t front ih =>
    obtain ⟨a, ha, hrest⟩ := (demands_cons p t _).1 h
    obtain ⟨b, hb, hrestWide⟩ := (demands_cons p t _).1 hwide
    have hsame : step wide t p = step limit t p := step_congr (by simp [ha]) (by simp [hb])
    rw [hsame, ha] at hb
    obtain rfl := Except.ok.inj hb
    rw [log_cons ha, log_cons (hsame.trans ha), ih hrest hrestWide]

/-! ## What is noted while a value is read -/

/-- A token that begins a value begins it where the reader waits for one; a document is no primitive
value. -/
theorem step_of_slots? {a : Advance} (hslots : p.slots? = some slots)
    (hroot : p = .start → t.kind = .leftBrace ∨ t.kind = .leftBracket)
    (hstarts : t.kind.startsValue = true) (h : beginValue? limit t slots = some (.ok a)) :
    step limit t p = .ok a := by
  match p with
  | .start =>
    obtain rfl := Option.some.inj hslots
    rcases hroot rfl with hkind | hkind
    · rw [beginValue?_leftBrace hkind] at h
      rw [step, hkind]
      exact Option.some.inj h
    · rw [beginValue?_leftBracket hkind] at h
      rw [step, hkind]
      exact Option.some.inj h
  | .inside (.object members state) outer =>
    cases state with
    | value key =>
      obtain rfl := Option.some.inj hslots
      rw [step, stepObject, h, Option.getD_some]
    | _ => cases hslots
  | .inside (.array elements state) outer =>
    have hkind : t.kind ≠ .rightBracket := by
      intro hkind
      rw [hkind] at hstarts
      cases hstarts
    cases state with
    | commaOrClose => cases hslots
    | _ =>
      obtain rfl := Option.some.inj hslots
      rw [step, stepArray, h, Option.getD_some]
      split
      · contradiction
      · rfl
  | .done value => cases hslots

theorem isSome_get?_ofPairs {pairs : List (String × Node)} {key : String} :
    ((Members.ofPairs pairs).get? key).isSome = true ↔ key ∈ pairs.map Prod.fst := by
  rw [Option.isSome_iff_ne_none, ne_eq,
    Members.get?_eq_none_iff (Members.wellFormed_ofPairs pairs), Members.values_ofPairs,
    Members.valuesIn_eq_nil_iff, not_not]

/-- A member that is complete is noted if its key is among those before it. -/
theorem duplicate_complete (value : Node) (pairs : List (String × Node)) (key : String)
    (outer : List Slot) :
    (complete value (.member (.ofPairs pairs) key :: outer)).duplicate =
      if key ∈ pairs.map Prod.fst then some key else none :=
  if_congr isSome_get?_ofPairs rfl rfl

theorem step_leftBrace (hslots : p.slots? = some slots) (hroom : slots.length < limit)
    (opening : Token.Of .leftBrace) :
    step limit opening.1 p = .ok (.reach (.inside (.object .empty .keyOrClose) slots)) := by
  refine step_of_slots? hslots (fun _ => Or.inl opening.2) (by rw [opening.2]; rfl) ?_
  rw [beginValue?_leftBrace opening.2, enter_eq_ok_iff.2 ⟨hroom, rfl⟩]

theorem step_leftBracket (hslots : p.slots? = some slots) (hroom : slots.length < limit)
    (opening : Token.Of .leftBracket) :
    step limit opening.1 p = .ok (.reach (.inside (.array #[] .valueOrClose) slots)) := by
  refine step_of_slots? hslots (fun _ => Or.inr opening.2) (by rw [opening.2]; rfl) ?_
  rw [beginValue?_leftBracket opening.2, enter_eq_ok_iff.2 ⟨hroom, rfl⟩]

theorem step_rightBrace {state : ObjectState} (hstate : state = .keyOrClose ∨ state = .commaOrClose)
    (members : Members Node) (closing : Token.Of .rightBrace) :
    step limit closing.1 (.inside (.object members state) slots) =
      .ok (complete (.object members) slots) := by
  rcases hstate with rfl | rfl <;> simp [step, stepObject, closing.2]

theorem step_rightBracket {state : ArrayState}
    (hstate : state = .valueOrClose ∨ state = .commaOrClose) (elements : Array Node)
    (closing : Token.Of .rightBracket) :
    step limit closing.1 (.inside (.array elements state) slots) =
      .ok (complete (.array elements.toList) slots) := by
  rcases hstate with rfl | rfl <;> simp [step, stepArray, closing.2]

/-- What is said about a value: while it is read its repeated members are noted, and then the member
that it completes, if that is a repeated one. -/
def Notes (d : Derivation) : Prop :=
  ∀ (limit : Nat) (p : Position) (slots : List Slot), p.slots? = some slots →
    (p = .start → d.IsContainer) → d.nesting ≤ limit - slots.length → ∀ n rest,
      log limit p n (d.tokens ++ rest) = noted (d.members n) ++
        ((complete d.node slots).duplicate.toList.map fun key => (n + d.tokens.length, key)) ++
          log limit (complete d.node slots).position (n + d.tokens.length) rest

/-- A member, from its key on. -/
theorem log_member {value : Derivation} (hnotes : Notes value) {pairs : List (String × Node)}
    {state : ObjectState} (hstate : state = .keyOrClose ∨ state = .key) (key : Token.Of .string)
    (colon : Token.Of .colon) (hroom : value.nesting ≤ limit - (slots.length + 1)) (n : Nat)
    (rest : List Token) :
    log limit (.inside (.object (.ofPairs pairs) state) slots) n
        (key.1 :: colon.1 :: (value.tokens ++ rest)) =
      noted (value.members (n + 2) ++
          [⟨pairs.map Prod.fst, key.1.text, n + 2 + value.tokens.length⟩]) ++
        log limit
          (.inside (.object (.ofPairs (pairs ++ [(key.1.text, value.node)])) .commaOrClose) slots)
          (n + 2 + value.tokens.length) rest := by
  have hkey : step limit key.1 (.inside (.object (.ofPairs pairs) state) slots) =
      .ok (.reach (.inside (.object (.ofPairs pairs) (.colon key.1.text)) slots)) := by
    rcases hstate with rfl | rfl <;> simp [step, stepObject, key.2]
  have hcolon : step limit colon.1 (.inside (.object (.ofPairs pairs) (.colon key.1.text)) slots) =
      .ok (.reach (.inside (.object (.ofPairs pairs) (.value key.1.text)) slots)) := by
    simp [step, stepObject, colon.2]
  have hvalue := hnotes limit (.inside (.object (.ofPairs pairs) (.value key.1.text)) slots) _ rfl
    Position.noConfusion hroom (n + 2) rest
  rw [log_reach hkey, log_reach hcolon, hvalue, duplicate_complete, noted_append, noted_cons,
    noted_nil, List.append_nil, ← Members.push_ofPairs]
  congr 2
  split <;> rfl

/-- An element, from its first token on. -/
theorem log_element {value : Derivation} (hnotes : Notes value) {elements : Array Node}
    {state : ArrayState} (hstate : state = .valueOrClose ∨ state = .value)
    (hroom : value.nesting ≤ limit - (slots.length + 1)) (n : Nat) (rest : List Token) :
    log limit (.inside (.array elements state) slots) n (value.tokens ++ rest) =
      noted (value.members n) ++
        log limit (.inside (.array (elements.push value.node) .commaOrClose) slots)
          (n + value.tokens.length) rest := by
  have hslots : (Position.inside (.array elements state) slots).slots? =
      some (.element elements :: slots) := by
    rcases hstate with rfl | rfl <;> rfl
  rw [hnotes limit _ _ hslots Position.noConfusion hroom n rest, List.append_assoc]
  rfl

end Document

open Document

-- A value is read from a place that waits for one; further members and elements are read behind a
-- member or an element, as far as the closing token.
mutual

theorem Derivation.notes (d : Derivation) : Notes d := by
  intro limit p slots hslots hroot hroom n rest
  cases d with
  | primitive type t =>
    have hnot : p = .start → t.1.kind = .leftBrace ∨ t.1.kind = .leftBracket :=
      fun h => (hroot h).elim
    have hstarts : t.1.kind.startsValue = true := by
      rw [t.2]
      cases type <;> rfl
    exact log_cons (step_of_slots? hslots hnot hstarts (beginValue?_primitive t.2 slots)) n rest
  | emptyObject opening closing =>
    rw [Derivation.nesting] at hroom
    rw [Derivation.tokens, List.cons_append, List.cons_append,
      log_reach (step_leftBrace hslots (by omega) opening),
      log_cons (step_rightBrace (Or.inl rfl) .empty closing), Derivation.node, Members.ofPairs_nil]
    rfl
  | object opening key colon value more closing =>
    rw [Derivation.nesting] at hroom
    have hvalue : value.nesting ≤ limit - (slots.length + 1) := by omega
    have hmore : more.nesting ≤ limit - (slots.length + 1) := by omega
    have htokens : (Derivation.object opening key colon value more closing).tokens ++ rest =
        opening.1 :: key.1 :: colon.1 ::
          (value.tokens ++ (more.tokens ++ closing.1 :: rest)) := by
      simp [Derivation.tokens]
    have hlength : n + (Derivation.object opening key colon value more closing).tokens.length =
        n + 1 + 2 + value.tokens.length + more.tokens.length + 1 := by
      simp only [Derivation.tokens, List.length_cons, List.length_append, List.length_nil]
      omega
    have hmembers : (Derivation.object opening key colon value more closing).members n =
        value.members (n + 1 + 2) ++ [⟨[], key.1.text, n + 1 + 2 + value.tokens.length⟩] ++
          more.members [key.1.text] (n + 1 + 2 + value.tokens.length) :=
      List.append_cons _ _ _
    rw [htokens, hlength, log_reach (step_leftBrace hslots (by omega) opening),
      ← Members.ofPairs_nil, log_member value.notes (Or.inl rfl) key colon hvalue, List.nil_append,
      more.log_append _ hmore, log_cons (step_rightBrace (Or.inr rfl) _ closing), hmembers,
      noted_append _ (more.members _ _), List.append_assoc, List.append_assoc]
    rfl
  | emptyArray opening closing =>
    rw [Derivation.nesting] at hroom
    rw [Derivation.tokens, List.cons_append, List.cons_append,
      log_reach (step_leftBracket hslots (by omega) opening),
      log_cons (step_rightBracket (Or.inl rfl) #[] closing)]
    rfl
  | array opening value more closing =>
    rw [Derivation.nesting] at hroom
    have hvalue : value.nesting ≤ limit - (slots.length + 1) := by omega
    have hmore : more.nesting ≤ limit - (slots.length + 1) := by omega
    have htokens : (Derivation.array opening value more closing).tokens ++ rest =
        opening.1 :: (value.tokens ++ (more.tokens ++ closing.1 :: rest)) := by
      simp [Derivation.tokens]
    have hlength : n + (Derivation.array opening value more closing).tokens.length =
        n + 1 + value.tokens.length + more.tokens.length + 1 := by
      simp only [Derivation.tokens, List.length_cons, List.length_append, List.length_nil]
      omega
    have helements : (#[].push value.node ++ more.nodes.toArray).toList =
        value.node :: more.nodes := by simp
    rw [htokens, hlength, log_reach (step_leftBracket hslots (by omega) opening),
      log_element value.notes (Or.inl rfl) hvalue, more.log_append _ hmore,
      log_cons (step_rightBracket (Or.inr rfl) _ closing), helements, Derivation.members,
      noted_append, List.append_assoc, List.append_assoc, Derivation.node]

theorem MoreMembers.log_append (m : MoreMembers) {limit : Nat} {slots : List Slot}
    (pairs : List (String × Node)) (hroom : m.nesting ≤ limit - (slots.length + 1)) (n : Nat)
    (rest : List Token) :
    log limit (.inside (.object (.ofPairs pairs) .commaOrClose) slots) n (m.tokens ++ rest) =
      noted (m.members (pairs.map Prod.fst) n) ++
        log limit (.inside (.object (.ofPairs (pairs ++ m.pairs)) .commaOrClose) slots)
          (n + m.tokens.length) rest := by
  cases m with
  | none => simp [MoreMembers.tokens, MoreMembers.members, MoreMembers.pairs]
  | next comma key colon value more =>
    rw [MoreMembers.nesting, max_le_iff] at hroom
    have hcomma : step limit comma.1 (.inside (.object (.ofPairs pairs) .commaOrClose) slots) =
        .ok (.reach (.inside (.object (.ofPairs pairs) .key) slots)) := by
      simp [step, stepObject, comma.2]
    have htokens : (MoreMembers.next comma key colon value more).tokens ++ rest =
        comma.1 :: key.1 :: colon.1 :: (value.tokens ++ (more.tokens ++ rest)) := by
      simp [MoreMembers.tokens]
    have hlength : n + (MoreMembers.next comma key colon value more).tokens.length =
        n + 1 + 2 + value.tokens.length + more.tokens.length := by
      simp only [MoreMembers.tokens, List.length_cons, List.length_append]
      omega
    have hmembers : (MoreMembers.next comma key colon value more).members (pairs.map Prod.fst) n =
        value.members (n + 1 + 2) ++
            [⟨pairs.map Prod.fst, key.1.text, n + 1 + 2 + value.tokens.length⟩] ++
          more.members (pairs.map Prod.fst ++ [key.1.text]) (n + 1 + 2 + value.tokens.length) :=
      List.append_cons _ _ _
    rw [htokens, hlength, log_reach hcomma, log_member value.notes (Or.inr rfl) key colon hroom.1,
      more.log_append _ hroom.2, hmembers, noted_append _ (more.members _ _), List.map_append,
      MoreMembers.pairs, List.append_assoc, List.append_assoc]
    rfl

theorem MoreElements.log_append (m : MoreElements) {limit : Nat} {slots : List Slot}
    (elements : Array Node) (hroom : m.nesting ≤ limit - (slots.length + 1)) (n : Nat)
    (rest : List Token) :
    log limit (.inside (.array elements .commaOrClose) slots) n (m.tokens ++ rest) =
      noted (m.members n) ++
        log limit (.inside (.array (elements ++ m.nodes.toArray) .commaOrClose) slots)
          (n + m.tokens.length) rest := by
  cases m with
  | none => simp [MoreElements.tokens, MoreElements.members, MoreElements.nodes]
  | next comma value more =>
    rw [MoreElements.nesting, max_le_iff] at hroom
    have hcomma : step limit comma.1 (.inside (.array elements .commaOrClose) slots) =
        .ok (.reach (.inside (.array elements .value) slots)) := by
      simp [step, stepArray, comma.2]
    have htokens : (MoreElements.next comma value more).tokens ++ rest =
        comma.1 :: (value.tokens ++ (more.tokens ++ rest)) := by
      simp [MoreElements.tokens]
    have hlength : n + (MoreElements.next comma value more).tokens.length =
        n + 1 + value.tokens.length + more.tokens.length := by
      simp only [MoreElements.tokens, List.length_cons, List.length_append]
      omega
    have helements : elements.push value.node ++ more.nodes.toArray =
        elements ++ (MoreElements.next comma value more).nodes.toArray := by
      simp [MoreElements.nodes]
    rw [htokens, hlength, log_reach hcomma, log_element value.notes (Or.inr rfl) hroom.1,
      more.log_append _ hroom.2, helements, MoreElements.members, noted_append, List.append_assoc]

end

namespace Derivation

/-- The keys of the repeated members of a document whose values end among the first `n` tokens, in
the order in which they end. -/
def repeatedKeys (d : Derivation) (n : Nat) : List String :=
  ((d.members 0).filter fun m => m.stop ≤ n ∧ m.key ∈ m.before).map Member.key

/-- No member ends before the first token. -/
theorem repeatedKeys_zero (d : Derivation) : d.repeatedKeys 0 = [] := by
  rw [repeatedKeys, List.map_eq_nil_iff, List.filter_eq_nil_iff]
  intro m hm
  have := ((d.ascend_members 0).bounded m hm).1
  simp only [decide_eq_true_eq, not_and]
  omega

/-- What is noted while a document is read. -/
theorem log_tokens {d : Derivation} (hcontainer : d.IsContainer) :
    log d.nesting .start 0 d.tokens = noted (d.members 0) := by
  have h := d.notes d.nesting .start [] rfl (fun _ => hcontainer) (Nat.le_refl _) 0 []
  rw [List.append_nil] at h
  rw [h]
  simp [complete, Advance.reach, log]

/-- What is noted while the first tokens of a document are read. -/
theorem map_log_prefix {d : Derivation} (hcontainer : d.IsContainer) {front : List Token}
    (h : front <+: d.tokens) :
    (log d.nesting .start 0 front).map Prod.snd = d.repeatedKeys front.length := by
  obtain ⟨back, hback⟩ := h
  rw [log_eq_filter .start 0 front back, hback, log_tokens hcontainer, noted, List.filter_map,
    List.filter_filter, List.map_map, Nat.zero_add]
  refine congrArg (List.map Member.key) (List.filter_congr fun m _ => ?_)
  rw [Function.comp_apply, Bool.decide_and]

end Derivation

namespace Document

/-! ## The tokens that are taken -/

/-- Some document begins with the tokens, and nests no deeper than the limit. -/
def Begins (limit : Nat) (ts : List Token) : Prop :=
  ∃ d : Derivation, d.IsContainer ∧ d.nesting ≤ limit ∧ ts <+: d.tokens

/-- A reading takes the first `n` tokens of a list: the most with which some document begins. -/
structure Takes (limit : Nat) (items : List Token) (n : Nat) : Prop where
  /-- There are so many. -/
  le_length : n ≤ items.length
  /-- Some document begins with them, if there are any. -/
  begins : n = 0 ∨ Begins limit (items.take n)
  /-- No document begins with more. -/
  most : ∀ m ≤ items.length, Begins limit (items.take m) → m ≤ n

variable {limit : Nat} {p : Position} {t : Token} {items : List Token}

/-- Without room no token is taken. -/
theorem Reaches.eq_nil_of_zero {ts : List Token} (h : Reaches 0 ts p) : ts = [] := by
  induction h with
  | start => rfl
  | @token ts t p a h hstep ih =>
    have hmoves := moves_of_step hstep
    rw [h.eq_start_iff.2 ih] at hmoves
    generalize a.position = q at hmoves
    cases hmoves with
    | openObject _ _ hroom => exact absurd hroom (Nat.not_lt_zero _)
    | openArray _ _ hroom => exact absurd hroom (Nat.not_lt_zero _)

/-- A reading comes to a token that it does not take, or to the end of the list. -/
theorem Reaches.exists_split {ts : List Token} (h : Reaches limit ts p) (n : Nat)
    (items : List Token) :
    ∃ front back q, items = front ++ back ∧ log limit p n items = log limit p n front ∧
      Reaches limit (ts ++ front) q ∧ ∀ t ∈ back.head?, ∀ a, step limit t q ≠ .ok a := by
  induction items generalizing ts p n with
  | nil => exact ⟨[], [], p, rfl, rfl, by rwa [List.append_nil], by simp⟩
  | cons t rest ih =>
    cases hstep : step limit t p with
    | error e =>
      refine ⟨[], t :: rest, p, rfl, log_of_error hstep n rest, by rwa [List.append_nil], ?_⟩
      rintro u ⟨⟩ a
      simp [hstep]
    | ok a =>
      obtain ⟨front, back, q, rfl, hlog, hreach, hstuck⟩ := ih (h.token hstep) (n + 1)
      rw [List.append_assoc] at hreach
      refine ⟨t :: front, back, q, rfl, ?_, hreach, hstuck⟩
      rw [log_cons hstep, log_cons hstep, hlog]

/-- A reading takes some tokens, and notes nothing behind them. -/
theorem exists_takes (limit : Nat) (items : List Token) :
    ∃ n, Takes limit items n ∧ log limit .start 0 items = log limit .start 0 (items.take n) := by
  obtain ⟨front, back, q, rfl, hlog, hreach, hstuck⟩ := Reaches.start.exists_split 0 items
  rw [List.nil_append] at hreach
  refine ⟨front.length, ⟨by simp, ?_, fun m hm => ?_⟩, by rw [hlog, List.take_left]⟩
  · rw [List.take_left, or_iff_not_imp_left]
    intro hne
    have hlimit : 1 ≤ limit := by
      refine Nat.one_le_iff_ne_zero.2 ?_
      rintro rfl
      exact hne (by rw [hreach.eq_nil_of_zero, List.length_nil])
    obtain ⟨more, root, hmore⟩ := exists_demands hlimit q
    obtain ⟨d, hcontainer, htokens, hnesting, -⟩ := (hreach.demands_iff more).2 hmore
    exact ⟨d, hcontainer, hnesting, more, htokens.symm⟩
  · -- with one more token the document would ask for what the reading does not take
    rintro ⟨d, hcontainer, hnesting, more, hmore⟩
    by_contra hlt
    obtain ⟨k, rfl⟩ := Nat.exists_eq_add_of_lt (not_le.1 hlt)
    cases back with
    | nil =>
      rw [List.append_nil] at hm
      omega
    | cons t back =>
      have htake : (front ++ t :: back).take (front.length + k + 1) = front ++ t :: back.take k := by
        rw [Nat.add_assoc, List.take_length_add_append, List.take_succ_cons]
      rw [htake, List.append_assoc] at hmore
      have hdemands : Demands limit d.node .start (front ++ (t :: back.take k ++ more)) :=
        ⟨d, hcontainer, hmore.symm, hnesting, rfl⟩
      obtain ⟨a, ha, -⟩ := (demands_cons q t _).1 ((hreach.demands_iff _).1 hdemands)
      exact hstuck t rfl a ha

/-- Of a list that is a document all tokens of the document are taken. -/
theorem Takes.exists_derivation {n : Nat} {root : Node} (h : Takes limit items n)
    (hroot : ofTokens limit items = .ok root) :
    ∃ d : Derivation, d.IsContainer ∧ d.node = root ∧ items.take n <+: d.tokens ∧
      d.tokens.length ≤ n := by
  obtain ⟨d, hcontainer, htokens, hnesting, hnode⟩ := (result_run_eq_ok_iff .start 0 items).1 hroot
  have hwhole : d.tokens <+: items := htokens ▸ List.takeWhile_prefix _
  have htake : items.take d.tokens.length = d.tokens := (List.prefix_iff_eq_take.1 hwhole).symm
  have hle : d.tokens.length ≤ n :=
    h.most _ hwhole.length_le ⟨d, hcontainer, hnesting, by rw [htake]⟩
  refine ⟨d, hcontainer, hnode, ?_, hle⟩
  rcases h.begins with rfl | ⟨e, -, -, hprefix⟩
  · exact List.nil_prefix
  · -- a document that begins with all tokens of another is that one
    have hfront : d.tokens <+: items.take n := List.prefix_take_iff.2 ⟨hwhole, hle⟩
    obtain ⟨rest, hrest⟩ := hfront.trans hprefix
    have hsame : d.tokens ++ rest = e.tokens ++ [] := by rw [hrest, List.append_nil]
    obtain ⟨rfl, -⟩ := d.eq_of_append e hsame
    exact hprefix

/-- A reading notes the keys of the repeated members whose values end among the tokens taken,
whatever document begins with these. -/
theorem duplicates_read (limit : Nat) (items : List Token) :
    ∃ n, Takes limit items n ∧ ∀ d : Derivation, d.IsContainer → items.take n <+: d.tokens →
      (read limit items).duplicates = d.repeatedKeys n := by
  obtain ⟨n, htakes, hlog⟩ := exists_takes limit items
  refine ⟨n, htakes, fun d hcontainer hprefix => ?_⟩
  rw [read, duplicates_run limit .start 0 0 items, hlog]
  rcases htakes.begins with rfl | ⟨e, hother, hnesting, behind, hbehind⟩
  · rw [d.repeatedKeys_zero]
    rfl
  · have hlength : (items.take n).length = n := by
      rw [List.length_take, Nat.min_eq_left htakes.le_length]
    obtain ⟨back, hback⟩ := id hprefix
    have hd : Demands d.nesting d.node .start (items.take n ++ back) :=
      ⟨d, hcontainer, hback.symm, Nat.le_refl _, rfl⟩
    have he : Demands limit e.node .start (items.take n ++ behind) :=
      ⟨e, hother, hbehind.symm, hnesting, rfl⟩
    rw [log_congr he hd, Derivation.map_log_prefix hcontainer hprefix, hlength]

end Document

end JsonShape
