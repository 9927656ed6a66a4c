import JsonShape.CommandLine.Run
import JsonShape.Proofs.CommandLine.Spelling

/-!
# The command and the generator

The command shows what the generator makes of the selected text under the options that the choices
lead to, one after the other.  Of the choices nothing else counts: not their order, not how they are
spelled, not how many messages are asked for, and not whether the text is an argument or the standard
input.

* `optionsOf`, `Selects`, `Produces` — what choices ask for, said without the command.
* `Arguments.Collects.options_eq` — the options of the command are those of the choices.
* `Arguments.Collects.text_eq_ok_iff` — the text that the command takes is the selected one.
* `visible_run` — exit code and output.
* `visible_run_perm`, `visible_run_standardInput` — choices that come to the same.
* `run_agrees` — all of it, for every list of arguments that is accepted.
-/

namespace JsonShape

namespace CommandLine

/-- What is seen of the command from outside: the exit code and the standard output. -/
def Outcome.visible (outcome : Outcome) : Nat × String := (outcome.code, outcome.output)

/-- What is seen if there is a declaration, and if there is none. -/
def shown : Option String → Nat × String
  | some source => (0, source)
  | none => (1, "")

/-- The options after a choice. -/
def Choice.change (options : Options) : Choice → Options
  | setting .name name => options.withTypeName name
  | setting .package name => options.withPackage name
  | noPackage => options.withoutPackage
  | setting .string _ | setting .file _ | setting .editor _ | verbose => options

/-- The options after all choices, from the default ones on. -/
def optionsOf (choices : List Choice) : Options := choices.foldl Choice.change .default

/-- The choices that are not about messages. -/
def quiet (choices : List Choice) : List Choice := choices.filter fun choice => choice ≠ .verbose

/-- The document is a choice itself or stands on the standard input. -/
def SelectsText (choices : List Choice) : Prop :=
  (∃ text, .setting .string text ∈ choices) ∨ .setting .file "-" ∈ choices

/-- A text is the document that choices select. -/
inductive Selects (host : Host) (choices : List Choice) (text : String) : Prop where
  /-- It is chosen as it is. -/
  | string (h : .setting .string text ∈ choices)
  /-- The standard input is chosen, and holds the text in UTF-8. -/
  | standardInput (h : .setting .file "-" ∈ choices)
      (hbytes : host.standardInput = .ok text.toUTF8)

/-- A declaration is the one that choices ask for. -/
def Produces (host : Host) (choices : List Choice) (source : String) : Prop :=
  ∃ text, Selects host choices text ∧ Generator.generate (optionsOf choices) text = .ok source

variable {host : Host} {arguments arguments' : List String} {choices choices' rest : List Choice}
  {choice : Choice} {text : String}

/-! ## Choices that come to the same -/

theorem mem_quiet_iff (h : choice ≠ .verbose) : choice ∈ quiet choices ↔ choice ∈ choices := by
  simp [quiet, h]

theorem mem_iff_of_quiet_perm (hperm : (quiet choices).Perm (quiet choices'))
    (h : choice ≠ .verbose) : choice ∈ choices ↔ choice ∈ choices' := by
  rw [← mem_quiet_iff h, hperm.mem_iff, mem_quiet_iff h]

theorem Choice.Repeats.symm {one other : Choice} (h : one.Repeats other) : other.Repeats one := by
  cases one <;> cases other <;> simp_all [Choice.Repeats]

theorem Choice.Repeats.ne_verbose {one other : Choice} (h : one.Repeats other) :
    one ≠ .verbose ∧ other ≠ .verbose := by
  cases one <;> cases other <;> simp_all [Choice.Repeats]

/-- Only choices that are not about messages can repeat one another. -/
theorem pairwise_quiet_iff :
    ((quiet choices).Pairwise fun one other => ¬ one.Repeats other) ↔
      choices.Pairwise fun one other => ¬ one.Repeats other := by
  rw [quiet, List.pairwise_filter]
  constructor
  · intro h
    refine h.imp fun {one other} hpair hrepeats => ?_
    obtain ⟨hone, hother⟩ := hrepeats.ne_verbose
    exact hpair (by simpa using hone) (by simpa using hother) hrepeats
  · intro h
    exact h.imp fun hpair _ _ => hpair

/-- Neither the order of choices nor those for messages decide whether they can be made together. -/
theorem Compatible.congr (h : Compatible choices) (hperm : (quiet choices).Perm (quiet choices')) :
    Compatible choices' where
  once := by
    have honce := hperm.pairwise (pairwise_quiet_iff.2 h.once) fun hpair hrepeats =>
      hpair hrepeats.symm
    exact pairwise_quiet_iff.1 honce
  path hmem := h.path ((mem_iff_of_quiet_perm hperm (by simp)).2 hmem)
  source document path hdocument hpath :=
    h.source document path ((mem_iff_of_quiet_perm hperm (by simp)).2 hdocument)
      ((mem_iff_of_quiet_perm hperm (by simp)).2 hpath)
  package name hname hno :=
    h.package name ((mem_iff_of_quiet_perm hperm (by simp)).2 hname)
      ((mem_iff_of_quiet_perm hperm (by simp)).2 hno)

/-- Choices made before others can be made without them. -/
theorem Compatible.of_append (h : Compatible (choices ++ rest)) : Compatible choices where
  once := (List.pairwise_append.1 h.once).1
  path hmem := h.path (List.mem_append_left _ hmem)
  source document path hdocument hpath :=
    h.source document path (List.mem_append_left _ hdocument) (List.mem_append_left _ hpath)
  package name hname hno :=
    h.package name (List.mem_append_left _ hname) (List.mem_append_left _ hno)

/-- A text is the only source. -/
theorem Compatible.source_not_mem (h : Compatible (.setting .string text :: rest)) (value : String) :
    .setting .string value ∉ rest ∧ .setting .file value ∉ rest := by
  constructor
  · intro hstring
    exact (List.pairwise_cons.1 h.once).1 _ hstring rfl
  · intro hfile
    exact h.source text value List.mem_cons_self (List.mem_cons_of_mem _ hfile)

/-- The standard input may stand for a text that is given as it is. -/
theorem Compatible.dashed (h : Compatible (.setting .string text :: rest)) :
    Compatible (.setting .file "-" :: rest) where
  once := by
    refine List.pairwise_cons.2 ⟨fun other hother hrepeats => ?_, (List.pairwise_cons.1 h.once).2⟩
    cases other with
    | setting setting value =>
      cases hrepeats
      exact (h.source_not_mem value).2 hother
    | noPackage | verbose => exact hrepeats
  path := by simp [(h.source_not_mem "").2]
  source document path hdocument := by
    simp [(h.source_not_mem document).1] at hdocument
  package name hname hno := by
    refine h.package name ?_ ?_
    · simpa using hname
    · simpa using hno

namespace Arguments

variable {given next : Arguments}

/-- The same is collected, but for the level of messages. -/
theorem Collects.congr (h : given.Collects choices)
    (hperm : (quiet choices).Perm (quiet choices')) :
    ({ given with verbosity := choices'.count .verbose } : Arguments).Collects choices' where
  get?_eq_some_iff setting value := by
    rw [← mem_iff_of_quiet_perm hperm (by simp), ← h.get?_eq_some_iff]
    cases setting <;> rfl
  noPackage_iff := by
    rw [← mem_iff_of_quiet_perm hperm (by simp)]
    exact h.noPackage_iff
  verbosity_eq := rfl

theorem Collects.dashed (h : given.Collects (.setting .string text :: rest))
    (hcompatible : Compatible (.setting .string text :: rest)) :
    ({ given with string := none, file := some "-" } : Arguments).Collects
      (.setting .file "-" :: rest) where
  get?_eq_some_iff setting value := by
    obtain ⟨hstring, hfile⟩ := hcompatible.source_not_mem value
    have hget := h.get?_eq_some_iff setting value
    cases setting with
    | string => simp [get?, hstring]
    | file => simp [get?, hfile, eq_comm]
    | name | package | editor => simpa [get?] using hget
  noPackage_iff := by simpa using h.noPackage_iff
  verbosity_eq := by simpa using h.verbosity_eq

/-! ## Options -/

theorem put_of_set (setting : Setting) {value : String}
    (h : given.set setting value = .ok next) : next = given.put value setting := by
  unfold set at h
  split_ifs at h
  exact (Except.ok.inj h).symm

/-- A choice changes the options of what is collected. -/
theorem options_add (h : given.add choice = .ok next)
    (hpackage : ∀ name, choice = .setting .package name → given.noPackage = false) :
    next.options = choice.change given.options := by
  cases choice with
  | setting setting value =>
    rw [put_of_set setting h]
    cases setting with
    | string | file | editor => rfl
    | name =>
      cases hno : given.noPackage <;> simp only [options, put, Choice.change, hno] <;> rfl
    | package =>
      have hno := hpackage value rfl
      simp only [options, put, Choice.change, hno]
      rfl
  | noPackage =>
    simp only [add, raise] at h
    split_ifs at h with hno
    cases h
    simp only [options, Choice.change, hno]
    rfl
  | verbose =>
    cases h
    rfl

/-- Without choices nothing changes: the names that stand for missing ones are legal. -/
theorem options_empty : ({} : Arguments).options = .default := by decide +kernel

/-- The options of the command are those that the choices lead to. -/
theorem Collects.options_eq (h : given.Collects choices) (hcompatible : Compatible choices) :
    given.options = optionsOf choices := by
  induction choices using List.reverseRecOn generalizing given with
  | nil => rw [h.unique collects_nil, options_empty]; rfl
  | append_singleton before choice ih =>
    obtain ⟨middle, hmiddle⟩ := exists_collects hcompatible.of_append
    rcases add_cases hmiddle choice with
      ⟨next, hadd, hnext, -⟩ | ⟨-, -, ⟨one, hone, hrepeats⟩ | rfl⟩
    · have hpackage : ∀ name, choice = .setting .package name → middle.noPackage = false := by
        rintro name rfl
        rw [← Bool.not_eq_true, hmiddle.noPackage_iff]
        intro hno
        exact hcompatible.package name (by simp) (List.mem_append_left _ hno)
      rw [h.unique hnext, options_add hadd hpackage, ih hmiddle hcompatible.of_append, optionsOf,
        optionsOf, List.foldl_append]
      rfl
    · have hpairwise := (List.pairwise_append.1 hcompatible.once).2.2
      exact absurd hrepeats (hpairwise one hone choice (List.mem_singleton_self choice))
    · exact absurd (List.mem_append_right before (List.mem_singleton_self _)) hcompatible.path

end Arguments

/-- Without a choice of a name the options are the default ones. -/
theorem optionsOf_eq_default (hname : ∀ name, .setting .name name ∉ choices)
    (hpackage : ∀ name, .setting .package name ∉ choices) (hno : .noPackage ∉ choices) :
    optionsOf choices = .default := by
  induction choices using List.reverseRecOn with
  | nil => rfl
  | append_singleton before choice ih =>
    simp only [List.mem_append, List.mem_singleton, not_or] at hname hpackage hno
    have hbefore := ih (fun name => (hname name).1) (fun name => (hpackage name).1) hno.1
    rw [optionsOf, List.foldl_append, ← optionsOf, hbefore]
    cases choice with
    | setting setting value =>
      cases setting with
      | string | file | editor => rfl
      | name => exact absurd rfl (hname value).2
      | package => exact absurd rfl (hpackage value).2
    | noPackage => exact absurd rfl hno.2
    | verbose => rfl

/-! ## Texts -/

theorem decode_eq_ok_iff {bytes : Except SystemError ByteArray} :
    decode bytes = .ok text ↔ bytes = .ok text.toUTF8 := by
  cases bytes with
  | error cause => simp [decode]
  | ok bytes =>
    rw [decode, Except.ok.injEq]
    unfold String.fromUTF8?
    by_cases hvalid : bytes.IsValidUTF8
    · rw [dif_pos hvalid, Except.ok.injEq]
      constructor
      · rintro rfl
        rfl
      · rintro rfl
        rfl
    · rw [dif_neg hvalid]
      refine iff_of_false nofun ?_
      rintro rfl
      exact hvalid text.isValidUTF8

theorem text_standardInput_eq_ok_iff :
    host.text .standardInput = .ok text ↔ host.standardInput = .ok text.toUTF8 := by
  rw [← decode_eq_ok_iff, Host.text]
  cases decode host.standardInput <;> simp [Except.mapError]

namespace Arguments

variable {given : Arguments}

theorem Collects.source_eq_text (h : given.Collects choices)
    (htext : .setting .string text ∈ choices) (editor : Option String) :
    given.source editor = .text text := by
  have hstring : given.string = some text := (h.get?_eq_some_iff .string text).2 htext
  simp [source, hstring]

theorem Collects.source_eq_standardInput (h : given.Collects choices)
    (hdash : .setting .file "-" ∈ choices) (hnone : ∀ text, .setting .string text ∉ choices)
    (editor : Option String) : given.source editor = .standardInput := by
  have hfile : given.file = some "-" := (h.get?_eq_some_iff .file "-").2 hdash
  have hstring : given.string = none := by
    refine Option.eq_none_iff_forall_ne_some.2 fun text htext => ?_
    exact hnone text ((h.get?_eq_some_iff .string text).1 htext)
  simp [source, hstring, hfile]

/-- The command takes the text that is selected, if there is one. -/
theorem Collects.text_eq_ok_iff (h : given.Collects choices) (hcompatible : Compatible choices)
    (hselects : SelectsText choices) (host : Host) :
    host.text (given.source host.editor) = .ok text ↔ Selects host choices text := by
  rcases hselects with ⟨document, hdocument⟩ | hdash
  · rw [h.source_eq_text hdocument, Host.text, Except.ok.injEq]
    constructor
    · rintro rfl
      exact .string hdocument
    · rintro (htext | ⟨hdash, -⟩)
      · have hsame := (h.source_eq_text hdocument none).symm.trans (h.source_eq_text htext none)
        exact Source.text.inj hsame
      · exact absurd hdash (hcompatible.source document "-" hdocument)
  · have hnone : ∀ document, .setting .string document ∉ choices := fun document hdocument =>
      hcompatible.source document "-" hdocument hdash
    rw [h.source_eq_standardInput hdash hnone, text_standardInput_eq_ok_iff]
    constructor
    · exact .standardInput hdash
    · rintro (hdocument | ⟨-, hbytes⟩)
      · exact absurd hdocument (hnone text)
      · exact hbytes

end Arguments

/-! ## Code and output -/

/-- What is seen is the declaration, all of it, or that there is none. -/
theorem Arguments.visible_outcome (given : Arguments) (text : Except Failure String) :
    (given.outcome text).visible =
      shown (text.toOption.bind fun json => (Generator.generate given.options json).toOption) := by
  cases text with
  | error failure => rfl
  | ok json =>
    show _ = shown (Generator.run given.options json).result.toOption
    simp only [outcome]
    cases (Generator.run given.options json).result with
    | error cause => rfl
    | ok source => rfl

theorem exists_read (hspells : Spells arguments choices) (hcompatible : Compatible choices) :
    ∃ given, Arguments.read arguments = .ok given ∧ given.Collects choices := by
  obtain ⟨given, hgiven⟩ := Arguments.exists_collects hcompatible
  exact ⟨given, Arguments.read_eq_ok_iff.2 ⟨choices, hspells, hcompatible, hgiven⟩, hgiven⟩

theorem run_of_read {given : Arguments} (h : Arguments.read arguments = .ok given) (host : Host) :
    run host arguments = given.outcome (host.text (given.source host.editor)) := by
  rw [run, h]

/-- The command shows what the choices ask for, and fails without a word on the output if they ask
for nothing that there is. -/
theorem visible_run (hspells : Spells arguments choices) (hcompatible : Compatible choices)
    (hselects : SelectsText choices) (host : Host) :
    (∀ source, Produces host choices source → (run host arguments).visible = (0, source)) ∧
      ((∀ source, ¬ Produces host choices source) → (run host arguments).visible = (1, "")) := by
  obtain ⟨given, hread, hgiven⟩ := exists_read hspells hcompatible
  have htext : ∀ text, host.text (given.source host.editor) = .ok text ↔
      Selects host choices text := fun text =>
    hgiven.text_eq_ok_iff hcompatible hselects host
  rw [run_of_read hread, given.visible_outcome, hgiven.options_eq hcompatible]
  constructor
  · rintro source ⟨text, hselected, hgenerate⟩
    rw [(htext text).2 hselected]
    simp [Except.toOption, hgenerate, shown]
  · intro hnone
    cases hsource : host.text (given.source host.editor) with
    | error failure => rfl
    | ok text =>
      cases hgenerate : Generator.generate (optionsOf choices) text with
      | error cause => simp [Except.toOption, hgenerate, shown]
      | ok source => exact absurd ⟨text, (htext text).1 hsource, hgenerate⟩ (hnone source)

/-- Neither the order of the choices nor those for messages change what is seen. -/
theorem visible_run_perm (hspells : Spells arguments choices) (hcompatible : Compatible choices)
    (hspells' : Spells arguments' choices') (hperm : (quiet choices).Perm (quiet choices'))
    (host : Host) : (run host arguments).visible = (run host arguments').visible := by
  obtain ⟨given, hread, hgiven⟩ := exists_read hspells hcompatible
  have hread' := Arguments.read_eq_ok_iff.2
    ⟨choices', hspells', hcompatible.congr hperm, hgiven.congr hperm⟩
  rw [run_of_read hread, run_of_read hread', Arguments.visible_outcome, Arguments.visible_outcome]
  rfl

/-- A text as it is and its bytes on the standard input lead to the same. -/
theorem visible_run_standardInput (hspells : Spells arguments choices)
    (hcompatible : Compatible choices) (hspells' : Spells arguments' choices')
    (hperm : (quiet choices).Perm (quiet (.setting .string text :: rest)))
    (hperm' : (quiet choices').Perm (quiet (.setting .file "-" :: rest))) {host' : Host}
    (hbytes : host'.standardInput = .ok text.toUTF8) :
    (run host arguments).visible = (run host' arguments').visible := by
  have hstring := hcompatible.congr hperm
  have hcompatible' := hstring.dashed.congr hperm'.symm
  obtain ⟨given, hread, hgiven⟩ := exists_read hspells hcompatible
  have hgiven' := ((hgiven.congr hperm).dashed hstring).congr hperm'.symm
  have hread' := Arguments.read_eq_ok_iff.2 ⟨choices', hspells', hcompatible', hgiven'⟩
  have hmem : .setting .string text ∈ choices :=
    (mem_iff_of_quiet_perm hperm (by simp)).2 List.mem_cons_self
  have hmem' : .setting .file "-" ∈ choices' :=
    (mem_iff_of_quiet_perm hperm' (by simp)).2 List.mem_cons_self
  have htext := (hgiven.text_eq_ok_iff hcompatible (.inl ⟨text, hmem⟩) host).2 (.string hmem)
  have htext' := (hgiven'.text_eq_ok_iff hcompatible' (.inr hmem') host').2
    (.standardInput hmem' hbytes)
  rw [run_of_read hread, run_of_read hread', htext, htext', Arguments.visible_outcome,
    Arguments.visible_outcome]
  rfl

/-- The command agrees with the generator.  Arguments are accepted exactly if they spell choices that
can be made together.  If these select a text, the command shows what the generator makes of it under
the options that they lead to, and nothing but an exit code if it makes nothing of it.  What is seen
does not depend on the order and the spelling of the choices, on those for messages, or on whether
the text is an argument or the standard input; and without a choice of a name it is what the
generator makes of the text on its own. -/
theorem run_agrees (arguments : List String) :
    ((∃ given, Arguments.read arguments = .ok given) ↔
      ∃ choices, Spells arguments choices ∧ Compatible choices) ∧
    ∀ choices, Spells arguments choices → Compatible choices →
      (SelectsText choices → ∀ host,
        (∀ source, Produces host choices source →
          (run host arguments).code = 0 ∧ (run host arguments).output = source) ∧
        ((∀ source, ¬ Produces host choices source) →
          (run host arguments).code = 1 ∧ (run host arguments).output = "")) ∧
      (∀ arguments' choices', Spells arguments' choices' →
        ((quiet choices).Perm (quiet choices') → Compatible choices' ∧
          ∀ host, (run host arguments').visible = (run host arguments).visible) ∧
        ∀ text rest, (quiet choices).Perm (quiet (.setting .string text :: rest)) →
          (quiet choices').Perm (quiet (.setting .file "-" :: rest)) → Compatible choices' ∧
            ∀ host host', host'.standardInput = .ok text.toUTF8 →
              (run host' arguments').visible = (run host arguments).visible) ∧
      ((∀ name, .setting .name name ∉ choices) → (∀ name, .setting .package name ∉ choices) →
        .noPackage ∉ choices →
          ∀ text, Generator.generate (optionsOf choices) text = generate text) := by
  constructor
  · constructor
    · rintro ⟨given, hread⟩
      obtain ⟨choices, hspells, hcompatible, -⟩ := Arguments.read_eq_ok_iff.1 hread
      exact ⟨choices, hspells, hcompatible⟩
    · rintro ⟨choices, hspells, hcompatible⟩
      obtain ⟨given, hread, -⟩ := exists_read hspells hcompatible
      exact ⟨given, hread⟩
  · intro choices hspells hcompatible
    refine ⟨fun hselects host => ?_, fun arguments' choices' hspells' => ⟨fun hperm => ?_, ?_⟩,
      fun hname hpackage hno text => ?_⟩
    · obtain ⟨hproduces, hnone⟩ := visible_run hspells hcompatible hselects host
      constructor
      · intro source h
        exact Prod.mk.inj (hproduces source h)
      · intro h
        exact Prod.mk.inj (hnone h)
    · refine ⟨hcompatible.congr hperm, fun host => ?_⟩
      exact (visible_run_perm hspells hcompatible hspells' hperm host).symm
    · intro text rest hperm hperm'
      refine ⟨(hcompatible.congr hperm).dashed.congr hperm'.symm, fun host host' hbytes => ?_⟩
      exact (visible_run_standardInput hspells hcompatible hspells' hperm hperm' hbytes).symm
    · rw [optionsOf_eq_default hname hpackage hno]
      rfl

/-- A host with a standard input and nothing else. -/
def Host.ofBytes (bytes : ByteArray) : Host where
  standardInput := .ok bytes
  editor := none
  fileBytes _ := .error .notFound
  edit _ := .notStarted .notFound

/-- An array without elements, as an argument and on the standard input, and a byte there that is no
text. -/
theorem run_agrees_brackets :
    Spells ["-v", "--string=[]", "--no-package"] [.verbose, .setting .string "[]", .noPackage] ∧
      Compatible [.verbose, .setting .string "[]", .noPackage] ∧
      Spells ["--no-package", "-f", "-"] [.noPackage, .setting .file "-"] ∧
      ((run (.ofBytes .empty) ["-v", "--string=[]", "--no-package"]).code = 0 ∧
        (run (.ofBytes .empty) ["-v", "--string=[]", "--no-package"]).output =
          "type JSONToStruct []interface\x7b\x7d\n") ∧
      (run (.ofBytes "[]".toUTF8) ["--no-package", "-f", "-"]).visible =
        (run (.ofBytes .empty) ["-v", "--string=[]", "--no-package"]).visible ∧
      (run (.ofBytes ⟨#[0xFF]⟩) ["--no-package", "-f", "-"]).code = 1 ∧
      (run (.ofBytes ⟨#[0xFF]⟩) ["--no-package", "-f", "-"]).output = "" := by
  have hspells : Spells ["-v", "--string=[]", "--no-package"]
      [.verbose, .setting .string "[]", .noPackage] :=
    .argument (.letters (.verbose .nil))
      (.argument (.long (.equals .string ['[', ']'])) (.argument (.long .noPackage) .nil))
  have hdashed : Spells ["--no-package", "-f", "-"] [.noPackage, .setting .file "-"] :=
    .argument (.long .noPackage) (.value (.letters (.due rfl)) (by decide) .nil)
  have hcompatible : Compatible [.verbose, .setting .string "[]", .noPackage] := by
    constructor <;> simp [Choice.Repeats]
  have hgenerate : Generator.generate (optionsOf [.verbose, .setting .string "[]", .noPackage])
      "[]" = .ok "type JSONToStruct []interface\x7b\x7d\n" := by decide +kernel
  obtain ⟨hrun, hsame, -⟩ := (run_agrees ["-v", "--string=[]", "--no-package"]).2 _ hspells
    hcompatible
  obtain ⟨hcompatible', hbytes⟩ :=
    (hsame _ _ hdashed).2 "[]" [.noPackage] (by decide) (by decide)
  have hnone : ∀ source,
      ¬ Produces (.ofBytes ⟨#[0xFF]⟩) [.noPackage, .setting .file "-"] source := by
    rintro source ⟨text, htext | ⟨-, hbytes⟩, -⟩
    · simp at htext
    · have hdecode : decode (.ok ⟨#[0xFF]⟩) = .error .notText := by decide +kernel
      cases hdecode.symm.trans (decode_eq_ok_iff.2 hbytes)
  refine ⟨hspells, hcompatible, hdashed, ?_, hbytes _ _ rfl, ?_⟩
  · exact (hrun (.inl ⟨"[]", by simp⟩) _).1 _ ⟨"[]", .string (by simp), hgenerate⟩
  · exact (((run_agrees _).2 _ hdashed hcompatible').1 (.inr (by simp)) _).2 hnone

end CommandLine

end JsonShape
