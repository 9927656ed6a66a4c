import JsonShape.Proofs.Document.Reachability

/-!
# The limit on nesting

A limit on how deep containers nest does one thing to a reading: it ends the reading at the first
token that opens a container one level too deep.  What the reading would have come to otherwise does
not matter there, and everywhere else it is what a reading without a limit does.

* `step_narrow` — a step: a token does under a limit what it does without one, or it is the opening
  token of a container that is too deep.
* `Reaches.narrow`, `run_eq` — a run: up to the first such token two readings go the same way.
* `read_limit` — a reading under a limit, told by the reading without one.
-/

namespace JsonShape

namespace Document

variable {limit wide : Nat} {root : Node} {t : Token} {p q : Position} {ts : List Token}

/-! ## How deep tokens nest -/

/-- A token that opens a container. -/
def Opens (t : Token) : Prop := t.kind = .leftBrace ∨ t.kind = .leftBracket

/-- How many containers are open at the deepest place of some tokens, where `containers` are open
before them. -/
def deepestFrom (containers : List Container) : List Token → Nat
  | [] => containers.length
  | t :: ts => max containers.length (deepestFrom (openAfter containers t) ts)

/-- How deep the braces and brackets of a list of tokens nest, up to the first end of input. -/
def sourceNesting (items : List Token) : Nat := deepestFrom [] (beforeEnd items)

/-- A reading under `limit` takes the tokens `before` of a list, and then enters, with `t`, a
container of the given level; a container of level one lies in no other. -/
structure Enters (limit level : Nat) (items before : List Token) (t : Token) : Prop where
  /-- The token stands in the list, behind the others. -/
  place : ∃ after, items = before ++ t :: after
  /-- It opens a container. -/
  opens : Opens t
  /-- The reading takes it. -/
  taken : ∃ p, Reaches limit (before ++ [t]) p
  /-- So many containers are open behind it. -/
  level_eq : (openContainers (before ++ [t])).length = level

theorem openContainers_concat (ts : List Token) (t : Token) :
    openContainers (ts ++ [t]) = openAfter (openContainers ts) t :=
  List.foldl_concat _ _ _ _

theorem length_openAfter_of_opens (h : Opens t) (containers : List Container) :
    (openAfter containers t).length = containers.length + 1 := by
  rcases h with h | h <;> simp [openAfter, h]

theorem length_openAfter_of_not_opens (h : ¬ Opens t) (containers : List Container) :
    (openAfter containers t).length ≤ containers.length := by
  unfold openAfter
  split
  · rename_i hkind
    exact absurd (Or.inl hkind) h
  · rename_i hkind
    exact absurd (Or.inr hkind) h
  · simp
  · simp
  · exact Nat.le_refl _

theorem length_openAfter_le (containers : List Container) (t : Token) :
    (openAfter containers t).length ≤ containers.length + 1 := by
  by_cases h : Opens t
  · exact (length_openAfter_of_opens h containers).le
  · have := length_openAfter_of_not_opens h containers
    omega

/-- Each open container has a token that opened it. -/
theorem length_openContainers_le (ts : List Token) : (openContainers ts).length ≤ ts.length := by
  induction ts using List.reverseRecOn with
  | nil => exact Nat.le_refl 0
  | append_singleton ts t ih =>
    rw [openContainers_concat, List.length_append, List.length_singleton]
    have := length_openAfter_le (openContainers ts) t
    omega

/-- The tokens nest no deeper than a number exactly if no more containers are open after any of
them. -/
theorem deepestFrom_le_iff {n : Nat} (containers : List Container) (ts : List Token) :
    deepestFrom containers ts ≤ n ↔
      ∀ front back, ts = front ++ back → (front.foldl openAfter containers).length ≤ n := by
  induction ts generalizing containers with
  | nil =>
    rw [deepestFrom]
    constructor
    · intro h front back heq
      obtain ⟨rfl, -⟩ := List.append_eq_nil_iff.1 heq.symm
      exact h
    · intro h
      exact h [] [] rfl
  | cons t ts ih =>
    rw [deepestFrom, max_le_iff, ih]
    constructor
    · rintro ⟨hhere, hrest⟩ front back heq
      cases front with
      | nil => exact hhere
      | cons u front =>
        rw [List.cons_append, List.cons.injEq] at heq
        obtain ⟨rfl, heq⟩ := heq
        exact hrest front back heq
    · intro h
      refine ⟨h [] (t :: ts) rfl, fun front back heq => ?_⟩
      exact h (t :: front) back (by rw [heq, List.cons_append])

theorem length_openContainers_le_deepest (front back : List Token) :
    (openContainers front).length ≤ deepestFrom [] (front ++ back) :=
  (deepestFrom_le_iff [] _).1 (Nat.le_refl _) front back rfl

/-- Among tokens that nest too deep there is a first one that opens one container too many. -/
theorem exists_first_above {n : Nat} (h : n < deepestFrom [] ts) :
    ∃ before u after, ts = before ++ u :: after ∧ Opens u ∧ deepestFrom [] before ≤ n ∧
      (openContainers (before ++ [u])).length = n + 1 := by
  induction ts using List.reverseRecOn with
  | nil => exact absurd h (Nat.not_lt_zero n)
  | append_singleton ts u ih =>
    by_cases hbefore : deepestFrom [] ts ≤ n
    · have hts : (openContainers ts).length ≤ n := by
        have := length_openContainers_le_deepest ts []
        rw [List.append_nil] at this
        omega
      have habove : n < (openContainers (ts ++ [u])).length := by
        by_contra hle
        refine absurd ((deepestFrom_le_iff [] _).2 fun front back heq => ?_) (not_le.2 h)
        -- A front of the tokens either ends before the last one or is all of them.
        rcases List.eq_nil_or_concat back with rfl | ⟨back, v, rfl⟩
        · rw [List.append_nil] at heq
          rw [← heq]
          exact not_lt.1 hle
        · rw [List.concat_eq_append, ← List.append_assoc] at heq
          obtain ⟨rfl, -⟩ := List.append_inj' heq rfl
          exact (length_openContainers_le_deepest front back).trans hbefore
      rw [openContainers_concat] at habove
      have hopens : Opens u := by
        by_contra hno
        have := length_openAfter_of_not_opens hno (openContainers ts)
        omega
      refine ⟨ts, u, [], rfl, hopens, hbefore, ?_⟩
      rw [openContainers_concat]
      have := length_openAfter_le (openContainers ts) u
      omega
    · obtain ⟨before, v, after, rfl, hv⟩ := ih (not_le.1 hbefore)
      exact ⟨before, v, after ++ [u], by simp, hv⟩

/-! ## One token under two limits -/

/-- No more containers are open at a position behind a token than the limit allows, if that was so
before the token. -/
theorem Moves.length_containers_le (h : Moves limit t p q) (hp : p.containers.length ≤ limit) :
    q.containers.length ≤ limit := by
  by_cases hopens : Opens t
  · cases h with
    | openObject hslots hkind hroom =>
      rw [Position.containers, List.length_cons, List.length_map]
      exact hroom
    | openArray hslots hkind hroom =>
      rw [Position.containers, List.length_cons, List.length_map]
      exact hroom
    | @primitive current outer slots type hslots hkind =>
      rw [containers_complete, map_container_slots hslots]
      exact hp
    | closeObject hstate hkind => simp [Opens, hkind] at hopens
    | closeArray hstate hkind => simp [Opens, hkind] at hopens
    | _ => exact hp
  · rw [h.containers_eq]
    exact (length_openAfter_of_not_opens hopens _).trans hp

/-- A token is refused for the nesting only where it opens a container in a slot, and the limit is
reached. -/
theorem opens_of_tooDeep {l n : Nat} (h : step limit t p = .error (.nestingTooDeep l n)) :
    l = limit ∧ n = t.start ∧ Opens t ∧ limit ≤ p.containers.length ∧ p.slots?.isSome := by
  cases refused_of_step h with
  | @deep _ slots hslots hkind hroom =>
    refine ⟨rfl, rfl, hkind, ?_, by rw [hslots]; rfl⟩
    rwa [← map_container_slots hslots, List.length_map]

theorem exists_beginValue?_eq_ok (hopens : Opens t) {slots : List Slot}
    (hroom : slots.length < limit) : ∃ a, beginValue? limit t slots = some (.ok a) := by
  rcases hopens with hkind | hkind
  · rw [beginValue?_leftBrace hkind, enter, if_pos hroom]
    exact ⟨_, rfl⟩
  · rw [beginValue?_leftBracket hkind, enter, if_pos hroom]
    exact ⟨_, rfl⟩

/-- In a slot with room a container can be opened. -/
theorem exists_step_eq_ok (hopens : Opens t) (hslots : p.slots?.isSome)
    (hroom : p.containers.length < limit) : ∃ a, step limit t p = .ok a := by
  match p with
  | .start =>
    rw [step]
    rcases hopens with hkind | hkind
    · rw [hkind]
      exact ⟨_, if_pos hroom⟩
    · rw [hkind]
      exact ⟨_, if_pos hroom⟩
  | .inside (.object members state) outer =>
    have hlength : outer.length + 1 < limit := by simpa [Position.containers] using hroom
    cases state with
    | value key =>
      have hmember : (Slot.member members key :: outer).length < limit := hlength
      obtain ⟨a, ha⟩ := exists_beginValue?_eq_ok hopens hmember
      rw [step, stepObject, ha]
      exact ⟨a, rfl⟩
    | _ => cases hslots
  | .inside (.array elements state) outer =>
    have hlength : (Slot.element elements :: outer).length < limit := by
      simpa [Position.containers] using hroom
    obtain ⟨a, ha⟩ := exists_beginValue?_eq_ok hopens hlength
    cases state with
    | valueOrClose => rcases hopens with hkind | hkind <;> simp [step, stepArray, hkind, ha]
    | value => rcases hopens with hkind | hkind <;> simp [step, stepArray, hkind, ha]
    | commaOrClose => cases hslots
  | .done value => cases hslots

/-- A step: under a limit a token does what it does under a wide one, or it opens a container that
only the wide one has room for. -/
theorem step_narrow (hp : p.containers.length ≤ limit) (hwide : p.containers.length < wide) :
    step limit t p = step wide t p ∨
      step limit t p = .error (.nestingTooDeep limit t.start) ∧ Opens t ∧
        p.containers.length = limit ∧ ∃ a, step wide t p = .ok a := by
  have hroom : ∀ l n, step wide t p ≠ .error (.nestingTooDeep l n) := by
    intro l n h
    obtain ⟨-, -, -, hle, -⟩ := opens_of_tooDeep h
    omega
  by_cases hdeep : ∃ l n, step limit t p = .error (.nestingTooDeep l n)
  · obtain ⟨l, n, h⟩ := hdeep
    obtain ⟨rfl, rfl, hopens, hle, hslots⟩ := opens_of_tooDeep h
    exact Or.inr ⟨h, hopens, by omega, exists_step_eq_ok hopens hslots hwide⟩
  · push Not at hdeep
    exact Or.inl (step_congr hroom hdeep)

/-! ## Readings under two limits -/

namespace Reaches

theorem length_containers_le (h : Reaches limit ts p) : p.containers.length ≤ limit := by
  induction h with
  | start => exact Nat.zero_le limit
  | token h hstep ih => exact (moves_of_step hstep).length_containers_le ih

/-- The last token of a run. -/
theorem exists_step (h : Reaches limit (ts ++ [t]) q) :
    ∃ p a, Reaches limit ts p ∧ step limit t p = .ok a ∧ q = a.position := by
  generalize hwhole : ts ++ [t] = whole at h
  cases h with
  | start => simp at hwhole
  | token h hstep =>
    obtain ⟨rfl, hlast⟩ := List.append_inj' hwhole rfl
    obtain rfl := List.singleton_inj.1 hlast
    exact ⟨_, _, h, hstep, rfl⟩

/-- A run takes the first of its tokens. -/
theorem of_append {front back : List Token} (h : Reaches limit (front ++ back) p) :
    ∃ q, Reaches limit front q := by
  induction back using List.reverseRecOn generalizing p with
  | nil => exact ⟨p, by simpa using h⟩
  | append_singleton back t ih =>
    rw [← List.append_assoc] at h
    obtain ⟨q, a, hq, -⟩ := h.exists_step
    exact ih hq

/-- Tokens that nest no deeper than a limit lead to the same position under it. -/
theorem narrow (h : Reaches wide ts p) (hdeep : deepestFrom [] ts ≤ limit) :
    Reaches limit ts p := by
  induction h with
  | start => exact .start
  | @token ts t p a h hstep ih =>
    have hfront := (deepestFrom_le_iff [] _).1 hdeep
    have hreach : Reaches limit ts p := by
      refine ih ((deepestFrom_le_iff [] _).2 fun front back heq => ?_)
      exact hfront front (back ++ [t]) (by rw [heq, List.append_assoc])
    have hroom : ∀ l n, step limit t p ≠ .error (.nestingTooDeep l n) := by
      intro l n htoo
      obtain ⟨-, -, hopens, hle, -⟩ := opens_of_tooDeep htoo
      have hlast : (openContainers (ts ++ [t])).length ≤ limit :=
        hfront (ts ++ [t]) [] (List.append_nil _).symm
      rw [openContainers_concat, h.openContainers_eq, length_openAfter_of_opens hopens] at hlast
      omega
    exact hreach.token ((step_congr (by simp [hstep]) hroom).trans hstep)

end Reaches

/-- A run: where no container is too deep, two readings go the same way. -/
theorem run_eq {items before rest : List Token} (hitems : items = before ++ rest)
    (hwide : items.length ≤ wide) (hreach : Reaches wide before p) (hp : Reaches limit before p)
    (hno : ∀ before t, ¬ Enters wide (limit + 1) items before t) (stop : Nat) :
    run limit p stop rest = run wide p stop rest := by
  induction rest generalizing before p stop with
  | nil => rw [run, run]
  | cons t rest ih =>
    have hlength : p.containers.length < wide := by
      have := length_openContainers_le before
      rw [hreach.openContainers_eq] at this
      rw [hitems, List.length_append, List.length_cons] at hwide
      omega
    rcases step_narrow hp.length_containers_le hlength with
      hsame | ⟨-, hopens, hlevel, a, hstep⟩
    · rw [run, run, hsame]
      cases hstep : step wide t p with
      | error e => rfl
      | ok a =>
        have hsplit : items = (before ++ [t]) ++ rest := by rw [hitems, List.append_cons]
        have hnext := ih hsplit (hreach.token hstep) (hp.token (hsame.trans hstep)) t.stop
        obtain ⟨position, duplicate⟩ := a
        cases duplicate <;> simp only [hnext]
    · refine absurd ?_ (hno before t)
      refine ⟨⟨rest, hitems⟩, hopens, ⟨_, hreach.token hstep⟩, ?_⟩
      rw [openContainers_concat, hreach.openContainers_eq, length_openAfter_of_opens hopens, hlevel]

/-- Where a container is too deep, a reading ends with the first such one. -/
theorem ofTokens_eq_tooDeep {items before after : List Token}
    (hitems : items = before ++ t :: after) (hwide : items.length ≤ wide) (hopens : Opens t)
    (htaken : Reaches wide (before ++ [t]) q) (hbefore : deepestFrom [] before ≤ limit)
    (hlevel : (openContainers (before ++ [t])).length = limit + 1) :
    ofTokens limit items = .error (.nestingTooDeep limit t.start) := by
  obtain ⟨p, a, hreach, hstep, -⟩ := htaken.exists_step
  have hp : Reaches limit before p := hreach.narrow hbefore
  have hlength : p.containers.length = limit := by
    rw [openContainers_concat, hreach.openContainers_eq, length_openAfter_of_opens hopens] at hlevel
    omega
  have hroom : p.containers.length < wide := by
    have := length_openContainers_le before
    rw [hreach.openContainers_eq] at this
    rw [hitems, List.length_append, List.length_cons] at hwide
    omega
  have herror : step limit t p = .error (.nestingTooDeep limit t.start) := by
    rcases step_narrow hlength.le hroom with hsame | ⟨hdeep, -⟩
    · have := (hp.token (hsame.trans hstep)).length_containers_le
      rw [← (hp.token (hsame.trans hstep)).openContainers_eq] at this
      omega
    · exact hdeep
  obtain ⟨stop, hrun⟩ := hp.exists_result_run (t :: after)
  have hother : t.kind ≠ .endOfInput ∧ ∀ cause, t.kind ≠ .fault cause := by
    rcases hopens with hkind | hkind <;> simp [hkind]
  rw [hitems, hrun]
  exact result_run_of_step_error hother.1 hother.2 herror stop after

/-! ## The limit -/

/-- A list of tokens from which a reading takes some nests at least as deep as they do. -/
theorem Reaches.length_openContainers_le_nesting {front : List Token} (h : Reaches limit front p)
    (back : List Token) : (openContainers front).length ≤ sourceNesting (front ++ back) := by
  rw [sourceNesting, h.beforeEnd_append]
  exact length_openContainers_le_deepest front (beforeEnd back)

/-- A document is read under each limit that is not below the nesting of its tokens. -/
theorem sourceNesting_le {items : List Token} (h : ofTokens limit items = .ok root) :
    sourceNesting items ≤ limit := by
  have hdemands : Demands limit root .start (beforeEnd items) :=
    (result_run_eq_ok_iff .start 0 items).1 h
  refine (deepestFrom_le_iff [] _).2 fun front back heq => ?_
  rw [heq] at hdemands
  obtain ⟨p, hp⟩ := Reaches.of_demands hdemands
  rw [← openContainers, hp.openContainers_eq]
  exact hp.length_containers_le

/-- A container that is entered below a limit lies deeper than the limit in its list. -/
theorem Enters.lt_sourceNesting {items before : List Token}
    (h : Enters wide (limit + 1) items before t) : limit < sourceNesting items := by
  obtain ⟨after, hitems⟩ := h.place
  obtain ⟨q, hq⟩ := h.taken
  have hle := hq.length_openContainers_le_nesting after
  rw [List.append_assoc, List.singleton_append, ← hitems, h.level_eq] at hle
  exact hle

/-- If a container is ever entered below a limit, there is a first one. -/
theorem Enters.exists_first {items before : List Token}
    (h : Enters wide (limit + 1) items before t) :
    ∃ first u, Enters wide (limit + 1) items first u ∧ deepestFrom [] first ≤ limit ∧
      ∀ other v, Enters wide (limit + 1) items other v → first.length ≤ other.length := by
  obtain ⟨after, hitems⟩ := h.place
  obtain ⟨q, hq⟩ := h.taken
  have habove : limit < deepestFrom [] (before ++ [t]) := by
    have := length_openContainers_le_deepest (before ++ [t]) []
    rw [h.level_eq, List.append_nil] at this
    exact this
  obtain ⟨first, u, between, hsplit, hopens, hfirst, hlevel⟩ := exists_first_above habove
  have hplace : items = first ++ u :: (between ++ after) := by
    rw [hitems, List.append_cons, hsplit, List.append_assoc, List.cons_append]
  have htaken : ∃ q, Reaches wide (first ++ [u]) q := by
    rw [hsplit, List.append_cons] at hq
    exact hq.of_append
  refine ⟨first, u, ⟨⟨_, hplace⟩, hopens, htaken, hlevel⟩, hfirst, fun other v hother => ?_⟩
  by_contra hshort
  -- A token before the first one lies in its front, where nothing is that deep.
  obtain ⟨behind, hbehind⟩ := hother.place
  have hfront : other ++ [v] <+: first := by
    refine List.prefix_of_prefix_length_le ⟨behind, ?_⟩ ⟨_, hplace.symm⟩ ?_
    · rw [hbehind, List.append_assoc, List.singleton_append]
    · rw [List.length_append, List.length_singleton]
      omega
  obtain ⟨rest, hrest⟩ := hfront
  have hle := length_openContainers_le_deepest (other ++ [v]) rest
  rw [hrest, hother.level_eq] at hle
  omega

/-- A document is read under each limit that is not below the nesting of its tokens. -/
theorem ofTokens_eq_ok_iff_nesting {items : List Token} (hwide : items.length ≤ wide) :
    ofTokens limit items = .ok root ↔
      ofTokens wide items = .ok root ∧ sourceNesting items ≤ limit := by
  have hsame (hnesting : sourceNesting items ≤ limit) : read limit items = read wide items :=
    run_eq (List.nil_append items).symm hwide .start .start
      (fun before t h => absurd h.lt_sourceNesting (not_lt.2 hnesting)) 0
  constructor
  · intro h
    have hnesting := sourceNesting_le h
    rw [ofTokens, hsame hnesting] at h
    exact ⟨h, hnesting⟩
  · rintro ⟨h, hnesting⟩
    rw [ofTokens, hsame hnesting]
    exact h

/-- The tokens of a document nest as deep as its derivation. -/
theorem sourceNesting_tokens {d : Derivation} (hcontainer : d.IsContainer)
    (last : Token.Of .endOfInput) : sourceNesting (d.tokens ++ [last.1]) = d.nesting := by
  refine eq_of_forall_ge_iff fun limit => ?_
  have hwide := Nat.le_add_right (d.tokens ++ [last.1]).length d.nesting
  have hread : ofTokens ((d.tokens ++ [last.1]).length + d.nesting) (d.tokens ++ [last.1]) =
      .ok d.node := ofTokens_tokens hcontainer (Nat.le_add_left _ _) last []
  have hlimit : ofTokens limit _ = .ok d.node ↔ _ := ofTokens_eq_ok_iff_nesting hwide
  rw [ofTokens_tokens_eq_ok_iff, hread] at hlimit
  simpa [hcontainer] using hlimit.symm

/-- What a limit does to a reading, told by the reading under a limit that no list of so many tokens
can exceed.  If that one ever enters a container one level deeper than allowed, the limited reading
fails at the first token that opens such a container; otherwise the two readings are the same.  So
a document is read under a limit exactly if it is read without one and its tokens nest no deeper,
and what is read under a limit is read under every greater one. -/
theorem read_limit (limit wide : Nat) (items : List Token) (hwide : items.length ≤ wide) :
    ((∃ before t, Enters wide (limit + 1) items before t) →
      ∃ before t, Enters wide (limit + 1) items before t ∧
        (∀ other u, Enters wide (limit + 1) items other u → before.length ≤ other.length) ∧
          ofTokens limit items = .error (.nestingTooDeep limit t.start)) ∧
      ((∀ before t, ¬ Enters wide (limit + 1) items before t) →
        read limit items = read wide items) ∧
      (∀ root, ofTokens limit items = .ok root ↔
        ofTokens wide items = .ok root ∧ sourceNesting items ≤ limit) ∧
      ∀ greater root, limit ≤ greater → ofTokens limit items = .ok root →
        ofTokens greater items = .ok root := by
  refine ⟨?_, ?_, ?_, ?_⟩
  · rintro ⟨before, t, h⟩
    obtain ⟨first, u, hfirst, hdeep, hleast⟩ := h.exists_first
    obtain ⟨after, hitems⟩ := hfirst.place
    obtain ⟨q, hq⟩ := hfirst.taken
    exact ⟨first, u, hfirst, hleast,
      ofTokens_eq_tooDeep hitems hwide hfirst.opens hq hdeep hfirst.level_eq⟩
  · intro hno
    exact run_eq (List.nil_append items).symm hwide .start .start hno 0
  · intro root
    exact ofTokens_eq_ok_iff_nesting hwide
  · intro greater root hle h
    have hwider : items.length ≤ max wide greater := hwide.trans (le_max_left _ _)
    obtain ⟨hok, hnesting⟩ := (ofTokens_eq_ok_iff_nesting hwider).1 h
    exact (ofTokens_eq_ok_iff_nesting hwider).2 ⟨hok, hnesting.trans hle⟩

/-- The tokens of `[[,`. -/
def twoBrackets : List Token :=
  [⟨.leftBracket, 0, 1, "["⟩, ⟨.leftBracket, 1, 2, "["⟩, ⟨.comma, 2, 3, ","⟩]

/-- Without a limit the comma is refused; where one container is allowed it is not even seen. -/
theorem read_limit_twoBrackets :
    twoBrackets.length ≤ 3 ∧
      ofTokens 3 twoBrackets = .error (.unexpected ⟨.comma, 2, 3, ","⟩ .array) ∧
      ∃ before t, Enters 3 2 twoBrackets before t ∧
        (∀ other u, Enters 3 2 twoBrackets other u → before.length ≤ other.length) ∧
          ofTokens 1 twoBrackets = .error (.nestingTooDeep 1 t.start) :=
  ⟨by decide, rfl, (read_limit 1 3 twoBrackets (by decide)).1
    ⟨[⟨.leftBracket, 0, 1, "["⟩], ⟨.leftBracket, 1, 2, "["⟩,
      ⟨⟨[⟨.comma, 2, 3, ","⟩], rfl⟩, Or.inr rfl, ⟨_, .token (.token .start rfl) rfl⟩, rfl⟩⟩⟩

end Document

end JsonShape
