import JsonShape.Proofs.CommandLine.Choices
import JsonShape.Proofs.Token.Scanning

/-!
# How arguments spell choices

A value may be attached to the letter of its option or to its long name, or be the next argument;
letters may share one dash.  What is read of the arguments is what they spell, so they are accepted
exactly if they spell choices that can be made together.

* `Spells` — the arguments that spell some choices.
* `readLetters_eq_ok_iff`, `readLong_eq_ok_iff`, `readAll_eq_ok_iff` — what is read of letters, of a
  long name, and of all arguments.
* `read_eq_ok_iff` — when the arguments are accepted, and what they say.
-/

namespace JsonShape

namespace CommandLine

/-! ## Spelling -/

/-- Letters that share one dash: flags, and then perhaps that of a setting, whose value is the rest,
less one equals sign before it.  `due` is the setting whose value the next argument has to be. -/
inductive SpellsLetters : List Char → List Choice → (due : Option Setting) → Prop
  /-- No letter. -/
  | nil : SpellsLetters [] [] none
  /-- The letter of the flag for messages. -/
  | verbose {letters : List Char} {choices : List Choice} {due : Option Setting}
      (h : SpellsLetters letters choices due) :
      SpellsLetters ('v' :: letters) (.verbose :: choices) due
  /-- A value behind the letter. -/
  | attached {setting : Setting} {letter : Char}
      (hletter : (Switch.setting setting).letter? = some letter) {c : Char} (hc : c ≠ '=')
      (value : List Char) :
      SpellsLetters (letter :: c :: value) [.setting setting (.ofList (c :: value))] none
  /-- A value behind an equals sign. -/
  | equals {setting : Setting} {letter : Char}
      (hletter : (Switch.setting setting).letter? = some letter) (value : List Char) :
      SpellsLetters (letter :: '=' :: value) [.setting setting (.ofList value)] none
  /-- A letter whose value is still to come. -/
  | due {setting : Setting} {letter : Char}
      (hletter : (Switch.setting setting).letter? = some letter) :
      SpellsLetters [letter] [] (some setting)

/-- What follows two dashes: a long name, and the value of a setting behind an equals sign. -/
inductive SpellsLong : List Char → List Choice → (due : Option Setting) → Prop
  /-- A name and a value. -/
  | equals (setting : Setting) (value : List Char) :
      SpellsLong ((Switch.setting setting).name.toList ++ '=' :: value)
        [.setting setting (.ofList value)] none
  /-- A name whose value is still to come. -/
  | due (setting : Setting) :
      SpellsLong (Switch.setting setting).name.toList [] (some setting)
  /-- The flag for no package clause. -/
  | noPackage : SpellsLong (Switch.flag .noPackage).name.toList [.noPackage] none
  /-- The flag for messages. -/
  | verbose : SpellsLong (Switch.flag .verbose).name.toList [.verbose] none

/-- One argument. -/
inductive SpellsArgument : String → List Choice → (due : Option Setting) → Prop
  /-- Letters behind one dash. -/
  | letters {letter : Char} {rest : List Char} {choices : List Choice} {due : Option Setting}
      (h : SpellsLetters (letter :: rest) choices due) :
      SpellsArgument (.ofList ('-' :: letter :: rest)) choices due
  /-- A long name behind two. -/
  | long {text : List Char} {choices : List Choice} {due : Option Setting}
      (h : SpellsLong text choices due) : SpellsArgument (.ofList ('-' :: '-' :: text)) choices due

/-- All arguments: a value that is due is an argument of its own, and two dashes may end them. -/
inductive Spells : List String → List Choice → Prop
  /-- There are none. -/
  | nil : Spells [] []
  /-- The end of the options is marked. -/
  | close : Spells ["--"] []
  /-- An argument with all that belongs to it. -/
  | argument {argument : String} {arguments : List String} {choices more : List Choice}
      (h : SpellsArgument argument choices none) (hrest : Spells arguments more) :
      Spells (argument :: arguments) (choices ++ more)
  /-- An argument and a value. -/
  | value {argument value : String} {arguments : List String} {choices more : List Choice}
      {setting : Setting} (h : SpellsArgument argument choices (some setting))
      (hvalue : Arguments.isValue value = true) (hrest : Spells arguments more) :
      Spells (argument :: value :: arguments) (choices ++ .setting setting value :: more)

/-! ## Names of options -/

namespace Switch

theorem ofLetter?_eq_some_iff {letter : Char} {option : Switch} :
    ofLetter? letter = some option ↔ option.letter? = some letter := by
  constructor
  · intro h
    simpa using List.find?_some h
  · intro h
    rcases option with (_ | _ | _ | _ | _) | (_ | _ | _ | _) <;> cases h <;> rfl

theorem ofName?_eq_some_iff {name : String} {option : Switch} :
    ofName? name = some option ↔ option.name = name := by
  constructor
  · intro h
    simpa using List.find?_some h
  · rintro rfl
    rcases option with (_ | _ | _ | _ | _) | (_ | _ | _ | _) <;> rfl

theorem letter?_ne_dash (option : Switch) : option.letter? ≠ some '-' := by
  rcases option with (_ | _ | _ | _ | _) | (_ | _ | _ | _) <;> decide

theorem equals_not_mem_name (option : Switch) : '=' ∉ option.name.toList := by
  rcases option with (_ | _ | _ | _ | _) | (_ | _ | _ | _) <;> decide +kernel

theorem name_ne_nil (option : Switch) : option.name.toList ≠ [] := by
  rcases option with (_ | _ | _ | _ | _) | (_ | _ | _ | _) <;> decide +kernel

end Switch

theorem SpellsLetters.ne_dash {letter : Char} {rest : List Char} {choices : List Choice}
    {due : Option Setting} (h : SpellsLetters (letter :: rest) choices due) : letter ≠ '-' := by
  rintro rfl
  cases h with
  | attached hletter _ _ | equals hletter _ | due hletter =>
    exact Switch.letter?_ne_dash _ hletter

theorem SpellsLong.ne_nil {text : List Char} {choices : List Choice} {due : Option Setting}
    (h : SpellsLong text choices due) : text ≠ [] := by
  cases h with
  | equals setting value => simp
  | due | noPackage | verbose => exact Switch.name_ne_nil _

/-- Two dashes alone are no option. -/
theorem SpellsArgument.ne_dashes {argument : String} {choices : List Choice}
    {due : Option Setting} (h : SpellsArgument argument choices due) : argument ≠ "--" := by
  intro hdashes
  have hchars := congrArg String.toList hdashes
  cases h with
  | letters hletters =>
    rw [String.toList_ofList] at hchars
    obtain ⟨-, hchars⟩ := List.cons.inj hchars
    exact hletters.ne_dash (List.cons.inj hchars).1
  | long hlong =>
    rw [String.toList_ofList] at hchars
    obtain ⟨-, hchars⟩ := List.cons.inj hchars
    exact hlong.ne_nil (List.cons.inj hchars).2

namespace Arguments

variable {given next : Arguments} {due : Option Setting}

/-! ## Reading one argument -/

/-- A flag is raised as it is chosen. The other flags end the reading. -/
theorem raise_eq_ok_iff {flag : Flag} :
    given.raise flag = .ok next ↔
      (flag = .noPackage ∧ given.add .noPackage = .ok next) ∨
        (flag = .verbose ∧ given.add .verbose = .ok next) := by
  cases flag <;> simp [raise, add]

theorem readLetters_eq_ok_iff {letters : List Char} :
    given.readLetters letters = .ok (next, due) ↔
      ∃ choices, SpellsLetters letters choices due ∧ given.addAll choices = .ok next := by
  constructor
  · intro h
    induction given, letters using readLetters.induct with
    | case1 given =>
      rw [readLetters] at h
      cases h
      exact ⟨[], .nil, rfl⟩
    | case2 given letter rest hnone =>
      simp only [readLetters, hnone] at h
      cases h
    | case3 given letter rest flag hflag halt hraise =>
      simp only [readLetters, hflag, hraise] at h
      cases h
    | case4 given letter rest flag hflag middle hraise ih =>
      simp only [readLetters, hflag, hraise] at h
      obtain ⟨choices, hspells, hadd⟩ := ih h
      rw [Switch.ofLetter?_eq_some_iff] at hflag
      rcases raise_eq_ok_iff.1 hraise with ⟨rfl, -⟩ | ⟨rfl, hmiddle⟩
      · cases hflag
      · cases hflag
        exact ⟨_, .verbose hspells, addAll_cons_eq_ok_iff.2 ⟨middle, hmiddle, hadd⟩⟩
    | case5 given letter setting hsetting =>
      simp only [readLetters, hsetting] at h
      cases h
      exact ⟨[], .due (Switch.ofLetter?_eq_some_iff.1 hsetting), rfl⟩
    | case6 given letter setting hsetting c value =>
      simp only [readLetters, hsetting] at h
      obtain ⟨middle, hset, hpair⟩ := map_eq_ok_iff.1 h
      cases hpair
      have hletter := Switch.ofLetter?_eq_some_iff.1 hsetting
      by_cases hc : c = '='
      · subst hc
        exact ⟨_, .equals hletter value, by rw [addAll_singleton]; exact hset⟩
      · rw [if_neg hc] at hset
        exact ⟨_, .attached hletter hc value, by rw [addAll_singleton]; exact hset⟩
  · rintro ⟨choices, hspells, hadd⟩
    induction hspells generalizing given with
    | nil =>
      cases hadd
      rfl
    | verbose _ ih =>
      obtain ⟨middle, hmiddle, hrest⟩ := addAll_cons_eq_ok_iff.1 hadd
      cases hmiddle
      exact ih hrest
    | attached hletter hc value =>
      rw [addAll_singleton] at hadd
      simp only [readLetters, Switch.ofLetter?_eq_some_iff.2 hletter]
      rw [if_neg hc]
      exact map_eq_ok_iff.2 ⟨next, hadd, rfl⟩
    | equals hletter value =>
      rw [addAll_singleton] at hadd
      simp only [readLetters, Switch.ofLetter?_eq_some_iff.2 hletter]
      exact map_eq_ok_iff.2 ⟨next, hadd, rfl⟩
    | due hletter =>
      cases hadd
      simp only [readLetters, Switch.ofLetter?_eq_some_iff.2 hletter]

/-- A long name ends at the first equals sign, or at the end. -/
theorem span_name (option : Switch) {rest : List Char}
    (hrest : Token.Stops (fun c => decide (c ≠ '=')) rest) :
    (option.name.toList ++ rest).takeWhile (· ≠ '=') = option.name.toList ∧
      (option.name.toList ++ rest).dropWhile (· ≠ '=') = rest := by
  have hname : ∀ c ∈ option.name.toList, decide (c ≠ '=') = true := by
    intro c hc
    rw [decide_eq_true_eq]
    rintro rfl
    exact option.equals_not_mem_name hc
  exact ⟨Token.takeWhile_run hname hrest, Token.dropWhile_run hname hrest⟩

/-- A long name alone. -/
theorem readLong_name (given : Arguments) (option : Switch) :
    given.readLong option.name.toList =
      match option with
      | .setting setting => .ok (given, some setting)
      | .flag flag => (given.raise flag).map fun next => (next, none) := by
  obtain ⟨htake, hdrop⟩ := span_name option .nil
  rw [List.append_nil] at htake hdrop
  have hoption : Switch.ofName? option.name = some option := Switch.ofName?_eq_some_iff.2 rfl
  simp only [readLong, htake, hdrop, String.ofList_toList, hoption]
  cases option <;> rfl

/-- A long name with a value behind the first equals sign. -/
theorem readLong_equals (given : Arguments) (option : Switch) (value : List Char) :
    given.readLong (option.name.toList ++ '=' :: value) =
      match option with
      | .setting setting =>
        (given.set setting (.ofList value)).map fun next => (next, none)
      | .flag flag => .error (.misuse (.valueUnwanted flag)) := by
  have hstops : Token.Stops (fun c => decide (c ≠ '=')) ('=' :: value) := .cons (by decide) value
  obtain ⟨htake, hdrop⟩ := span_name option hstops
  have hoption : Switch.ofName? option.name = some option := Switch.ofName?_eq_some_iff.2 rfl
  simp only [readLong, htake, hdrop, String.ofList_toList, hoption]
  cases option <;> rfl

/-- What is read is a long name, alone or with a value. -/
theorem exists_of_readLong {text : List Char} {result : Arguments × Option Setting}
    (h : given.readLong text = .ok result) :
    ∃ option : Switch, text = option.name.toList ∨
      ∃ value, text = option.name.toList ++ '=' :: value := by
  have hsplit := List.takeWhile_append_dropWhile (p := fun c => decide (c ≠ '=')) (l := text)
  cases hoption : Switch.ofName? (.ofList (text.takeWhile (· ≠ '='))) with
  | none =>
    simp only [readLong, hoption] at h
    cases h
  | some option =>
    have hname : option.name.toList = text.takeWhile (· ≠ '=') := by
      rw [Switch.ofName?_eq_some_iff.1 hoption, String.toList_ofList]
    have hstops := Token.stops_dropWhile (fun c => decide (c ≠ '=')) text
    rw [← hname] at hsplit
    refine ⟨option, ?_⟩
    cases hrest : text.dropWhile (· ≠ '=') with
    | nil =>
      rw [hrest, List.append_nil] at hsplit
      exact .inl hsplit.symm
    | cons c value =>
      have hc : c = '=' := by
        rw [hrest] at hstops
        simpa using hstops c rfl
      rw [hrest, hc] at hsplit
      exact .inr ⟨value, hsplit.symm⟩

theorem readLong_eq_ok_iff {text : List Char} :
    given.readLong text = .ok (next, due) ↔
      ∃ choices, SpellsLong text choices due ∧ given.addAll choices = .ok next := by
  constructor
  · intro h
    obtain ⟨option, rfl | ⟨value, rfl⟩⟩ := exists_of_readLong h
    · rw [readLong_name] at h
      rcases option with setting | flag
      · cases h
        exact ⟨[], .due setting, rfl⟩
      · obtain ⟨middle, hraise, hpair⟩ := map_eq_ok_iff.1 h
        cases hpair
        rcases raise_eq_ok_iff.1 hraise with ⟨rfl, hadd⟩ | ⟨rfl, hadd⟩
        · exact ⟨_, .noPackage, by rw [addAll_singleton]; exact hadd⟩
        · exact ⟨_, .verbose, by rw [addAll_singleton]; exact hadd⟩
    · rw [readLong_equals] at h
      rcases option with setting | flag
      · obtain ⟨middle, hset, hpair⟩ := map_eq_ok_iff.1 h
        cases hpair
        exact ⟨_, .equals setting value, by rw [addAll_singleton]; exact hset⟩
      · cases h
  · rintro ⟨choices, hspells, hadd⟩
    cases hspells with
    | equals setting value =>
      rw [addAll_singleton] at hadd
      rw [readLong_equals]
      exact map_eq_ok_iff.2 ⟨next, hadd, rfl⟩
    | due setting =>
      cases hadd
      rw [readLong_name]
    | noPackage | verbose =>
      rw [addAll_singleton] at hadd
      rw [readLong_name]
      exact map_eq_ok_iff.2 ⟨next, hadd, rfl⟩

theorem readArgument_eq_ok_iff {argument : String} :
    given.readArgument argument = .ok (next, due) ↔
      ∃ choices, SpellsArgument argument choices due ∧ given.addAll choices = .ok next := by
  constructor
  · intro h
    unfold readArgument at h
    split at h
    · rename_i text htext
      obtain ⟨choices, hspells, hadd⟩ := readLong_eq_ok_iff.1 h
      have hargument : argument = .ofList ('-' :: '-' :: text) := by
        rw [← htext, String.ofList_toList]
      exact ⟨choices, hargument ▸ .long hspells, hadd⟩
    · rename_i letter rest _ htext
      obtain ⟨choices, hspells, hadd⟩ := readLetters_eq_ok_iff.1 h
      have hargument : argument = .ofList ('-' :: letter :: rest) := by
        rw [← htext, String.ofList_toList]
      exact ⟨choices, hargument ▸ .letters hspells, hadd⟩
    · cases h
  · rintro ⟨choices, hspells, hadd⟩
    cases hspells with
    | @letters letter rest _ _ hspells =>
      -- with a second dash it would be a long name
      have hdash : letter ≠ '-' := hspells.ne_dash
      have h := readLetters_eq_ok_iff.2 ⟨choices, hspells, hadd⟩
      simpa only [readArgument, String.toList_ofList] using h
    | long hspells =>
      have h := readLong_eq_ok_iff.2 ⟨choices, hspells, hadd⟩
      simpa only [readArgument, String.toList_ofList] using h

/-! ## Reading all arguments -/

/-- An argument is read, then the value that is due if there is one, and then the others. -/
theorem readAll_cons (given : Arguments) {argument : String} (h : argument ≠ "--")
    (rest : List String) :
    given.readAll (argument :: rest) =
      match given.readArgument argument with
      | .error halt => .error halt
      | .ok (next, none) => next.readAll rest
      | .ok (next, some setting) =>
        match rest with
        | [] => .error (.misuse (.valueMissing setting))
        | value :: rest =>
          if isValue value then
            match next.set setting value with
            | .error halt => .error halt
            | .ok next => next.readAll rest
          else .error (.misuse (.valueMissing setting)) := by
  rw [readAll.eq_def]
  exact if_neg h

theorem readAll_eq_ok_iff {arguments : List String} :
    given.readAll arguments = .ok next ↔
      ∃ choices, Spells arguments choices ∧ given.addAll choices = .ok next := by
  constructor
  · intro h
    induction given, arguments using readAll.induct with
    | case1 given =>
      cases h
      exact ⟨[], .nil, rfl⟩
    | case2 given =>
      cases h
      exact ⟨[], .close, rfl⟩
    | case3 given extra rest =>
      cases h
    | case4 given argument rest hdashes halt hread =>
      simp only [readAll_cons _ hdashes, hread] at h
      cases h
    | case5 given argument rest hdashes middle hread ih =>
      simp only [readAll_cons _ hdashes, hread] at h
      obtain ⟨more, hrest, hmore⟩ := ih h
      obtain ⟨choices, hspells, hadd⟩ := readArgument_eq_ok_iff.1 hread
      exact ⟨_, .argument hspells hrest, addAll_append_eq_ok_iff.2 ⟨middle, hadd, hmore⟩⟩
    | case6 given argument hdashes middle setting hread =>
      simp only [readAll_cons _ hdashes, hread] at h
      cases h
    | case7 given argument hdashes middle setting hread value rest hvalue halt hset =>
      simp only [readAll_cons _ hdashes, hread, hvalue, hset] at h
      cases h
    | case8 given argument hdashes middle setting hread value rest hvalue final hset ih =>
      simp only [readAll_cons _ hdashes, hread, hvalue, hset] at h
      obtain ⟨more, hrest, hmore⟩ := ih h
      obtain ⟨choices, hspells, hadd⟩ := readArgument_eq_ok_iff.1 hread
      refine ⟨_, .value hspells hvalue hrest, addAll_append_eq_ok_iff.2 ⟨middle, hadd, ?_⟩⟩
      exact addAll_cons_eq_ok_iff.2 ⟨final, hset, hmore⟩
    | case9 given argument hdashes middle setting hread value rest hvalue =>
      simp only [readAll_cons _ hdashes, hread, hvalue] at h
      cases h
  · rintro ⟨choices, hspells, hadd⟩
    induction hspells generalizing given with
    | nil | close =>
      cases hadd
      rfl
    | argument hargument _ ih =>
      obtain ⟨middle, hfirst, hmore⟩ := addAll_append_eq_ok_iff.1 hadd
      have hread := readArgument_eq_ok_iff.2 ⟨_, hargument, hfirst⟩
      simp only [readAll_cons _ hargument.ne_dashes, hread]
      exact ih hmore
    | value hargument hvalue _ ih =>
      obtain ⟨middle, hfirst, hmore⟩ := addAll_append_eq_ok_iff.1 hadd
      obtain ⟨final, hset, hrest⟩ := addAll_cons_eq_ok_iff.1 hmore
      have hread := readArgument_eq_ok_iff.2 ⟨_, hargument, hfirst⟩
      simp only [readAll_cons _ hargument.ne_dashes, hread, if_pos hvalue]
      rw [show middle.set _ _ = .ok final from hset]
      exact ih hrest

/-- Arguments are accepted exactly if they spell choices that can be made together, and then they say
what the choices are. -/
theorem read_eq_ok_iff {arguments : List String} :
    read arguments = .ok given ↔
      ∃ choices, Spells arguments choices ∧ Compatible choices ∧ given.Collects choices := by
  rw [read, bind_eq_ok_iff]
  constructor
  · rintro ⟨collected, hread, hcheck⟩
    obtain ⟨choices, hspells, hadd⟩ := readAll_eq_ok_iff.1 hread
    obtain ⟨honce, hpath, hcollects⟩ := (addAll_eq_ok_iff collects_nil .nil).1 hadd
    obtain ⟨rfl, hsource, hpackage⟩ := (check_eq_ok_iff hcollects).1 hcheck
    exact ⟨choices, hspells, ⟨honce, hpath, hsource, hpackage⟩, hcollects⟩
  · rintro ⟨choices, hspells, hcompatible, hcollects⟩
    refine ⟨given, readAll_eq_ok_iff.2 ⟨choices, hspells, ?_⟩, ?_⟩
    · exact (addAll_eq_ok_iff collects_nil .nil).2 ⟨hcompatible.once, hcompatible.path, hcollects⟩
    · exact (check_eq_ok_iff hcollects).2 ⟨rfl, hcompatible.source, hcompatible.package⟩

end Arguments

end CommandLine

end JsonShape
