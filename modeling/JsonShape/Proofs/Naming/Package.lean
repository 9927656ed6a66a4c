import JsonShape.Proofs.CommandLine.Agreement
import JsonShape.Proofs.Declaration.Injective
import JsonShape.Proofs.Text.Completeness

/-!
# Names of packages

A package has any identifier as its name but for the blank one and the keywords.  The name for a text
is made by putting underscores in the place of what does not fit, and one in front if that gives the
blank identifier or a keyword; an underscore in front leads to neither of them.

* `IsPackageName` — the names that a package may have.
* `legalize_eq_replaced` — replacing what is not legal goes character by character.
* `isPackageName_packageName`, `packageName_eq_self_iff` — the names that are made are allowed, and
  allowed names are left as they are.
* `Options.Chosen.isPackageClause`, `CommandLine.Arguments.chosen_options` — so the clause of a file
  is legal whatever a caller chooses, from a program or by arguments.
* `Naming.packageName_legal` — what becomes of a text, and the package clauses of all files.
-/

namespace JsonShape

namespace Naming

variable {cs : List Char} {name : String}

/-- The names that the language allows for a package. -/
structure IsPackageName (name : String) : Prop where
  /-- The name is an identifier. -/
  isIdentifier : IsIdentifier name
  /-- It is not the blank one. -/
  ne_blank : name ≠ "_"
  /-- It is no keyword. -/
  isKeyword_eq : isKeyword name = false

instance : DecidablePred IsPackageName := fun name =>
  decidable_of_iff (IsIdentifier name ∧ name ≠ "_" ∧ isKeyword name = false)
    ⟨fun ⟨hident, hblank, hkeyword⟩ => ⟨hident, hblank, hkeyword⟩,
      fun ⟨hident, hblank, hkeyword⟩ => ⟨hident, hblank, hkeyword⟩⟩

/-- A character may stand at a place in an identifier. -/
def fitsAt (i : Nat) (c : Char) : Bool := if i = 0 then isStart c else isPart c

/-- A text with an underscore in the place of each character that does not fit where it stands. -/
def replaced (cs : List Char) : List Char := cs.mapIdx fun i c => if fitsAt i c then c else '_'

/-! ## Replacing characters -/

theorem legalize_eq_replaced (h : cs ≠ []) : legalize cs = replaced cs := by
  obtain ⟨c, rest, rfl⟩ := List.exists_cons_of_ne_nil h
  have hrest : rest.mapIdx (fun i d => if fitsAt (i + 1) d then d else '_') =
      rest.map fun d => if isPart d then d else '_' :=
    List.mapIdx_eq_iff.2 fun i => List.getElem?_map
  rw [legalize, replaced, List.mapIdx_cons, hrest]
  rfl

/-! ## Package names -/

theorem keywords_head : ∀ word ∈ keywords, word.toList.head? ≠ some '_' := by decide +kernel

/-- No keyword begins with an underscore. -/
theorem isKeyword_underscore (cs : List Char) : isKeyword (.ofList ('_' :: cs)) = false := by
  rw [isKeyword, ← Bool.not_eq_true, List.contains_iff_mem]
  intro hmem
  exact keywords_head _ hmem (by rw [String.toList_ofList]; rfl)

/-- The name for a text is one that a package may have. -/
theorem isPackageName_packageName (text : String) : IsPackageName (packageName text) := by
  have hlegal := legalChars_legalize text.toList
  simp only [packageName]
  split
  · -- two underscores, or one before a keyword
    refine ⟨?_, ?_, isKeyword_underscore _⟩
    · rw [IsIdentifier, String.toList_ofList]
      exact ⟨by decide, hlegal.isPart⟩
    · intro hblank
      have hchars := congrArg String.toList hblank
      rw [String.toList_ofList] at hchars
      exact legalize_ne_nil text.toList (List.cons.inj hchars).2
  · rename_i hfine
    rw [Bool.or_eq_true, decide_eq_true_eq, not_or, Bool.not_eq_true] at hfine
    refine ⟨?_, ?_, hfine.2⟩
    · rw [IsIdentifier, String.toList_ofList]
      exact hlegal
    · intro hblank
      have hchars := congrArg String.toList hblank
      rw [String.toList_ofList] at hchars
      exact hfine.1 hchars

/-- A name that a package may have is left as it is. -/
theorem IsPackageName.packageName_eq (h : IsPackageName name) : packageName name = name := by
  have hlegal : legalize name.toList = name.toList := legalize_eq_self h.isIdentifier
  have hblank : name.toList ≠ ['_'] := fun heq => h.ne_blank (String.toList_inj.1 heq)
  simp [packageName, hlegal, hblank, h.isKeyword_eq]

theorem packageName_eq_self_iff : packageName name = name ↔ IsPackageName name :=
  ⟨fun h => h ▸ isPackageName_packageName name, IsPackageName.packageName_eq⟩

/-- At most an underscore in front comes to the characters of a text. -/
theorem exists_toList_packageName {text : String} (h : text ≠ "") :
    ∃ front, (front = [] ∨ front = ['_']) ∧
      (packageName text).toList = front ++ replaced text.toList := by
  have hne : text.toList ≠ [] := fun hnil => h (String.toList_eq_nil_iff.1 hnil)
  unfold packageName
  rw [String.toList_ofList, legalize_eq_replaced hne]
  split
  · exact ⟨['_'], .inr rfl, rfl⟩
  · exact ⟨[], .inl rfl, rfl⟩

end Naming

/-! ## Package clauses -/

/-- The clauses that may stand at the head of a file: none, or one with a name that a package may
have. -/
inductive Declaration.IsPackageClause : String → Prop
  /-- There is no clause. -/
  | none : IsPackageClause ""
  /-- There is one. -/
  | some {name : String} (h : Naming.IsPackageName name) :
      IsPackageClause ("package " ++ name ++ "\n\n")

/-- A caller has no package or one with a name that it may have. -/
theorem Options.Chosen.isPackageClause {options : Options} (h : options.Chosen) :
    Declaration.IsPackageClause (Declaration.packageClause options.package) := by
  induction h with
  | default => exact .some (by decide +kernel)
  | withPackage _ name _ => exact .some (Naming.isPackageName_packageName name)
  | withoutPackage _ _ => exact .none
  | withTypeName _ _ ih | withMaxDepth _ _ ih => exact ih

/-- The arguments choose options as a caller does. -/
theorem CommandLine.Arguments.chosen_options (given : Arguments) : given.options.Chosen := by
  unfold options
  split
  · exact (Options.Chosen.withTypeName .default _).withoutPackage
  · exact (Options.Chosen.withTypeName .default _).withPackage _

/-- A file is a package clause and a declaration. -/
theorem Generator.exists_of_generate {options : Options} {json source : String}
    (h : generate options json = .ok source) :
    ∃ rest, source = Declaration.packageClause options.package ++ ("type " ++ rest) := by
  rw [Text.generate_eq] at h
  cases hread : (parse json options.maxDepth).bind Inferred.ofRoot with
  | error e =>
    rw [hread] at h
    cases h
  | ok inferred =>
    rw [hread] at h
    cases h
    refine ⟨options.typeName ++ " " ++ Declaration.typeExpr 0 inferred.shape ++ "\n", ?_⟩
    simp only [Shape.declaration, String.append_assoc]

/-- The command writes a file or nothing. -/
theorem CommandLine.Arguments.exists_output (given : Arguments) (text : Except Failure String) :
    (given.outcome text).output = "" ∨ ∃ rest, (given.outcome text).output =
      Declaration.packageClause given.options.package ++ ("type " ++ rest) := by
  have hvisible := congrArg Prod.snd (given.visible_outcome text)
  change (given.outcome text).output = _ at hvisible
  rw [hvisible]
  cases text with
  | error failure => exact .inl rfl
  | ok json =>
    show (shown (Generator.generate given.options json).toOption).2 = "" ∨ _
    cases hgenerate : Generator.generate given.options json with
    | error cause => exact .inl rfl
    | ok source =>
      right
      simpa [shown, Except.toOption, hgenerate] using Generator.exists_of_generate hgenerate

/-- What becomes of a text as the name of a package, and of the package clauses of all files.  The
name is allowed, and it is the text itself if that is allowed; otherwise at most an underscore comes
in front, and characters that do not fit become underscores.  So each package clause is allowed, for
all options that a caller can choose and for all arguments. -/
theorem Naming.packageName_legal :
    (∀ text, IsPackageName (packageName text) ∧
      (packageName text = text ↔ IsPackageName text) ∧
      packageName (packageName text) = packageName text ∧
      (text = "" → packageName text = "__") ∧
      (text ≠ "" → ∃ front, (front = [] ∨ front = ['_']) ∧
        (packageName text).toList = front ++ replaced text.toList)) ∧
    (∀ options : Options, options.Chosen →
      Declaration.IsPackageClause (Declaration.packageClause options.package) ∧
      ∀ json source, Generator.generate options json = .ok source →
        ∃ rest, source = Declaration.packageClause options.package ++ ("type " ++ rest)) ∧
    ∀ arguments given, CommandLine.Arguments.read arguments = .ok given →
      Declaration.IsPackageClause (Declaration.packageClause given.options.package) ∧
      ∀ host, (CommandLine.run host arguments).output = "" ∨
        ∃ rest, (CommandLine.run host arguments).output =
          Declaration.packageClause given.options.package ++ ("type " ++ rest) := by
  refine ⟨fun text => ?_, fun options hchosen => ?_, fun arguments given hread => ?_⟩
  · have hlegal := isPackageName_packageName text
    refine ⟨hlegal, packageName_eq_self_iff, hlegal.packageName_eq, ?_, exists_toList_packageName⟩
    rintro rfl
    decide +kernel
  · refine ⟨hchosen.isPackageClause, fun json source h => ?_⟩
    exact Generator.exists_of_generate h
  · refine ⟨given.chosen_options.isPackageClause, fun host => ?_⟩
    rw [CommandLine.run_of_read hread]
    exact given.exists_output _

/-- A keyword, by a step of a program and by an argument. -/
theorem Naming.packageName_legal_keyword :
    (Options.default.withPackage "type").Chosen ∧
      Declaration.IsPackageClause
        (Declaration.packageClause (Options.default.withPackage "type").package) ∧
      CommandLine.Arguments.read ["--package=type"] = .ok { package := some "type" } ∧
      Declaration.IsPackageClause (Declaration.packageClause
        ({ package := some "type" } : CommandLine.Arguments).options.package) := by
  have hchosen : (Options.default.withPackage "type").Chosen := Options.Chosen.default.withPackage _
  have hread : CommandLine.Arguments.read ["--package=type"] = .ok { package := some "type" } := by
    decide +kernel
  exact ⟨hchosen, (packageName_legal.2.1 _ hchosen).1, hread, (packageName_legal.2.2 _ _ hread).1⟩

end JsonShape
