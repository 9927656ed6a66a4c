import JsonShape.CommandLine.Arguments
import Mathlib.Data.List.Induction
import Mathlib.Logic.Basic

/-!
# Choices

The options of the command make choices, one after the other.  Choices can be made together if none
but that for messages is repeated, a file has a name, and none excludes another one.  Then their order
does not matter: what is collected says which choices were made, and that is all.

* `Choice`, `Compatible` — the choices, and when they can be made together.
* `Arguments.Collects` — what is collected says what some choices are.
* `add_cases`, `addAll_eq_ok_iff` — one choice, and several of them one after the other.
* `Collects.unique`, `exists_collects` — what is collected is told by the choices alone.
* `check_eq_ok_iff` — the last check refuses the choices that exclude each other.
-/

namespace JsonShape

namespace CommandLine

/-- What an option chooses. -/
inductive Choice where
  /-- The value of a setting. -/
  | setting (setting : Setting) (value : String)
  /-- That there is no package clause. -/
  | noPackage
  /-- One more level of messages. -/
  | verbose
deriving Repr, DecidableEq

/-- A choice repeats another one. Messages can be asked for again and again. -/
def Choice.Repeats : Choice → Choice → Prop
  | setting one _, setting other _ => one = other
  | noPackage, noPackage => True
  | _, _ => False

/-- Choices that can be made together. -/
structure Compatible (choices : List Choice) : Prop where
  /-- None is repeated. -/
  once : choices.Pairwise fun one other => ¬ one.Repeats other
  /-- A file has a name. -/
  path : .setting .file "" ∉ choices
  /-- A document is given as it is or in a file. -/
  source : ∀ document path, .setting .string document ∈ choices → .setting .file path ∉ choices
  /-- A package has a name only if there is a package clause. -/
  package : ∀ name, .setting .package name ∈ choices → .noPackage ∉ choices

namespace Arguments

variable {given next : Arguments} {before choices : List Choice}

/-- The arguments say what some choices are. -/
structure Collects (given : Arguments) (choices : List Choice) : Prop where
  /-- The values of the settings. -/
  get?_eq_some_iff : ∀ setting value,
    given.get? setting = some value ↔ .setting setting value ∈ choices
  /-- Whether there is no package clause. -/
  noPackage_iff : given.noPackage = true ↔ .noPackage ∈ choices
  /-- The level of messages. -/
  verbosity_eq : given.verbosity = choices.count .verbose

/-- Makes one choice more. -/
def add (given : Arguments) : Choice → Except Halt Arguments
  | .setting setting value => given.set setting value
  | .noPackage => given.raise .noPackage
  | .verbose => given.raise .verbose

/-- Makes choices one after the other. -/
def addAll (given : Arguments) : List Choice → Except Halt Arguments
  | [] => .ok given
  | choice :: rest => (given.add choice).bind fun next => next.addAll rest

end Arguments

theorem bind_eq_ok_iff {ε α β : Type} {x : Except ε α} {f : α → Except ε β} {b : β} :
    x.bind f = .ok b ↔ ∃ a, x = .ok a ∧ f a = .ok b := by
  cases x with
  | error e => simp [Except.bind]
  | ok a => simp [Except.bind]

theorem map_eq_ok_iff {ε α β : Type} {x : Except ε α} {f : α → β} {b : β} :
    x.map f = .ok b ↔ ∃ a, x = .ok a ∧ f a = b := by
  cases x with
  | error e => simp [Except.map]
  | ok a => simp [Except.map]

namespace Arguments

variable {given next : Arguments} {before choices more : List Choice}

theorem addAll_cons_eq_ok_iff {choice : Choice} :
    given.addAll (choice :: choices) = .ok next ↔
      ∃ middle, given.add choice = .ok middle ∧ middle.addAll choices = .ok next :=
  bind_eq_ok_iff

theorem addAll_singleton (given : Arguments) (choice : Choice) :
    given.addAll [choice] = given.add choice := by
  rw [addAll]
  cases given.add choice <;> rfl

theorem addAll_append_eq_ok_iff :
    given.addAll (choices ++ more) = .ok next ↔
      ∃ middle, given.addAll choices = .ok middle ∧ middle.addAll more = .ok next := by
  induction choices generalizing given with
  | nil => simp [addAll]
  | cons choice rest ih =>
    rw [List.cons_append, addAll_cons_eq_ok_iff]
    simp only [ih, addAll_cons_eq_ok_iff]
    grind

/-! ## Making choices -/

theorem get?_put (given : Arguments) (setting other : Setting) (value : String) :
    (given.put value setting).get? other =
      if other = setting then some value else given.get? other := by
  cases setting <;> cases other <;> rfl

theorem noPackage_put (given : Arguments) (setting : Setting) (value : String) :
    (given.put value setting).noPackage = given.noPackage := by
  cases setting <;> rfl

theorem verbosity_put (given : Arguments) (setting : Setting) (value : String) :
    (given.put value setting).verbosity = given.verbosity := by
  cases setting <;> rfl

theorem collects_nil : ({} : Arguments).Collects [] where
  get?_eq_some_iff setting value := by cases setting <;> simp [get?]
  noPackage_iff := by simp
  verbosity_eq := rfl

theorem Collects.get?_eq_none (h : given.Collects before) {setting : Setting}
    (hnone : given.get? setting = none) (value : String) : .setting setting value ∉ before := by
  rw [← h.get?_eq_some_iff, hnone]
  exact fun heq => by cases heq

theorem Collects.put (h : given.Collects before) {setting : Setting}
    (hnone : given.get? setting = none) (value : String) :
    (given.put value setting).Collects (before ++ [.setting setting value]) where
  get?_eq_some_iff other otherValue := by
    rw [get?_put, List.mem_append, List.mem_singleton, Choice.setting.injEq]
    by_cases hother : other = setting
    · subst hother
      have hbefore := h.get?_eq_none hnone otherValue
      simp [hbefore, eq_comm]
    · simp [hother, h.get?_eq_some_iff]
  noPackage_iff := by simp [noPackage_put, h.noPackage_iff]
  verbosity_eq := by simp [verbosity_put, h.verbosity_eq, List.count_append]

theorem Collects.noPackage (h : given.Collects before) :
    ({ given with noPackage := true } : Arguments).Collects (before ++ [.noPackage]) where
  get?_eq_some_iff setting value := by
    rw [List.mem_append, ← h.get?_eq_some_iff]
    cases setting <;> simp [get?]
  noPackage_iff := by simp
  verbosity_eq := by simp [h.verbosity_eq, List.count_append]

theorem Collects.verbose (h : given.Collects before) :
    ({ given with verbosity := given.verbosity + 1 } : Arguments).Collects
      (before ++ [.verbose]) where
  get?_eq_some_iff setting value := by
    rw [List.mem_append, ← h.get?_eq_some_iff]
    cases setting <;> simp [get?]
  noPackage_iff := by simp [h.noPackage_iff]
  verbosity_eq := by simp [h.verbosity_eq, List.count_append]

/-- One choice more is made unless it repeats one before it or names no file. -/
theorem add_cases (h : given.Collects before) (choice : Choice) :
    (∃ next, given.add choice = .ok next ∧ next.Collects (before ++ [choice]) ∧
        (∀ one ∈ before, ¬ one.Repeats choice) ∧ choice ≠ .setting .file "") ∨
      ∃ halt, given.add choice = .error halt ∧
        ((∃ one ∈ before, one.Repeats choice) ∨ choice = .setting .file "") := by
  cases choice with
  | setting setting value =>
    cases hget : given.get? setting with
    | some other =>
      refine .inr ⟨_, if_pos (by rw [hget]; rfl), .inl ⟨.setting setting other, ?_, rfl⟩⟩
      exact (h.get?_eq_some_iff setting other).1 hget
    | none =>
      by_cases hpath : setting = .file ∧ value = ""
      · obtain ⟨rfl, rfl⟩ := hpath
        exact .inr ⟨.misuse .emptyPath, by simp [add, set, hget], .inr rfl⟩
      · refine .inl ⟨given.put value setting, ?_, h.put hget value, ?_, ?_⟩
        · simpa [add, set, hget] using hpath
        · intro one hone hrepeats
          cases one with
          | setting other otherValue =>
            cases hrepeats
            exact h.get?_eq_none hget otherValue hone
          | noPackage | verbose => exact hrepeats
        · simpa using hpath
  | noPackage =>
    cases hflag : given.noPackage with
    | true =>
      refine .inr ⟨_, if_pos hflag, .inl ⟨.noPackage, h.noPackage_iff.1 hflag, trivial⟩⟩
    | false =>
      refine .inl ⟨_, if_neg (by simp [hflag]), h.noPackage, fun one hone hrepeats => ?_, nofun⟩
      cases one with
      | noPackage => simp [h.noPackage_iff.2 hone] at hflag
      | setting | verbose => exact hrepeats
  | verbose =>
    refine .inl ⟨_, rfl, h.verbose, fun one _ hrepeats => ?_, nofun⟩
    cases one <;> exact hrepeats

theorem Collects.unique (h : given.Collects choices) (hnext : next.Collects choices) :
    given = next := by
  have hget : ∀ setting, given.get? setting = next.get? setting := by
    intro setting
    ext value
    rw [h.get?_eq_some_iff, hnext.get?_eq_some_iff]
  have hnoPackage : given.noPackage = next.noPackage := by
    rw [Bool.eq_iff_iff, h.noPackage_iff, hnext.noPackage_iff]
  have hverbosity := h.verbosity_eq.trans hnext.verbosity_eq.symm
  cases given
  cases next
  have hstring := hget .string
  have hfile := hget .file
  have hname := hget .name
  have hpackage := hget .package
  have heditor := hget .editor
  simp_all [get?]

/-- Choices are made one after the other unless one of them repeats another one or names no file. -/
theorem addAll_eq_ok_iff (h : given.Collects before)
    (honce : before.Pairwise fun one other => ¬ one.Repeats other) :
    given.addAll choices = .ok next ↔
      ((before ++ choices).Pairwise fun one other => ¬ one.Repeats other) ∧
        .setting .file "" ∉ choices ∧ next.Collects (before ++ choices) := by
  induction choices generalizing given before with
  | nil =>
    rw [List.append_nil]
    constructor
    · rintro ⟨⟩
      exact ⟨honce, List.not_mem_nil, h⟩
    · rintro ⟨-, -, hnext⟩
      rw [h.unique hnext]
      rfl
  | cons choice rest ih =>
    have happend : before ++ choice :: rest = before ++ [choice] ++ rest := by simp
    rcases add_cases h choice with ⟨middle, hadd, hmiddle, hnew, hpath⟩ | ⟨halt, hadd, hfault⟩
    · have honce' : (before ++ [choice]).Pairwise fun one other => ¬ one.Repeats other := by
        refine List.pairwise_append.2 ⟨honce, List.pairwise_singleton _ _, ?_⟩
        exact fun one hone other hother => List.mem_singleton.1 hother ▸ hnew one hone
      rw [happend, addAll, hadd, List.mem_cons, not_or]
      exact (ih hmiddle honce').trans (by simp [hpath.symm])
    · rw [addAll, hadd]
      refine iff_of_false nofun fun ⟨hpairwise, hpath, _⟩ => ?_
      rcases hfault with ⟨one, hone, hrepeats⟩ | rfl
      · exact (List.pairwise_append.1 hpairwise).2.2 one hone choice List.mem_cons_self hrepeats
      · exact hpath List.mem_cons_self

/-- Choices that can be made together can be collected. -/
theorem exists_collects (h : Compatible choices) : ∃ given : Arguments, given.Collects choices := by
  obtain ⟨honce, hpath, -, -⟩ := h
  induction choices using List.reverseRecOn with
  | nil => exact ⟨{}, collects_nil⟩
  | append_singleton before choice ih =>
    obtain ⟨hbefore, -, hnew⟩ := List.pairwise_append.1 honce
    obtain ⟨given, hgiven⟩ := ih hbefore fun hmem => hpath (List.mem_append_left _ hmem)
    have hlast : choice ∈ [choice] := List.mem_singleton_self choice
    rcases add_cases hgiven choice with
      ⟨next, -, hnext, -⟩ | ⟨-, -, ⟨one, hone, hrepeats⟩ | rfl⟩
    · exact ⟨next, hnext⟩
    · exact absurd hrepeats (hnew one hone choice hlast)
    · exact absurd (List.mem_append_right before hlast) hpath

theorem Collects.isSome_iff (h : given.Collects choices) (setting : Setting) :
    (given.get? setting).isSome = true ↔ ∃ value, .setting setting value ∈ choices := by
  rw [Option.isSome_iff_exists]
  exact exists_congr fun value => h.get?_eq_some_iff setting value

/-- Options that exclude each other are refused. -/
theorem check_eq_ok_iff (h : given.Collects choices) :
    given.check = .ok next ↔ next = given ∧
      (∀ document path, .setting .string document ∈ choices → .setting .file path ∉ choices) ∧
        ∀ name, .setting .package name ∈ choices → .noPackage ∉ choices := by
  have hsource : (given.string.isSome && given.file.isSome) = true ↔
      ∃ document path, .setting .string document ∈ choices ∧ .setting .file path ∈ choices := by
    rw [Bool.and_eq_true]
    exact (and_congr (h.isSome_iff .string) (h.isSome_iff .file)).trans exists_and_exists_comm
  have hpackage : (given.package.isSome && given.noPackage) = true ↔
      ∃ name, .setting .package name ∈ choices ∧ .noPackage ∈ choices := by
    rw [Bool.and_eq_true, h.noPackage_iff]
    exact (and_congr_left fun _ => h.isSome_iff .package).trans exists_and_right.symm
  unfold check
  split
  · rename_i hboth
    obtain ⟨document, path, hstring, hfile⟩ := hsource.1 hboth
    exact iff_of_false nofun fun hok => hok.2.1 document path hstring hfile
  · rename_i hone
    split
    · rename_i hboth
      obtain ⟨name, hname, hno⟩ := hpackage.1 hboth
      exact iff_of_false nofun fun hok => hok.2.2 name hname hno
    · rename_i hother
      rw [Except.ok.injEq, eq_comm]
      refine (and_iff_left ⟨fun document path hstring hfile => ?_, fun name hname hno => ?_⟩).symm
      · exact hone (hsource.2 ⟨document, path, hstring, hfile⟩)
      · exact hother (hpackage.2 ⟨name, hname, hno⟩)

end Arguments

end CommandLine

end JsonShape
