import JsonShape.Generator
import JsonShape.Proofs.Naming.Numbered
import JsonShape.Proofs.Shape.Group
import JsonShape.Proofs.Unicode.Upper

/-!
# Which names are identifiers

The characters of a text are made legal before its first letter is written in upper case, and an
upper case may have characters that no identifier may hold.  The name of a text is an identifier
exactly if its first letter is none of those with such an upper case.

* `IsIdentifier` — the identifiers of the language.
* `legalChars_legalize`, `legalize_eq_self` — replacing what is not legal makes an identifier, and
  leaves one as it is.
* `isPart_capitalize_iff` — capitalizing one leaves an identifier, but for the letters of
  `Unicode.unletteredUpper`.
* `isIdentifier_claim_iff` — a number behind a name makes no difference unless it is negative.
* `Shape.HasStruct`, `Shape.HasField` — the structs in a shape and their fields, at any depth, and
  `ident_eq_claim_of_hasStruct`: all of them have claimed names.
* `isIdentifier_name_iff` — when the names of keys, fields and types are identifiers.
-/

namespace JsonShape

namespace Naming

/-- The characters of an identifier: one with which it may begin, and then those with which it may
go on. -/
def LegalChars : List Char → Prop
  | [] => False
  | c :: rest => isStart c = true ∧ ∀ d ∈ rest, isPart d = true

instance : DecidablePred LegalChars
  | [] => inferInstanceAs (Decidable False)
  | c :: rest =>
    have := List.decidableBAll (fun d => isPart d = true) rest
    inferInstanceAs (Decidable (isStart c = true ∧ ∀ d ∈ rest, isPart d = true))

/-- A name is an identifier. -/
def IsIdentifier (name : String) : Prop := LegalChars name.toList

instance : DecidablePred IsIdentifier := fun name =>
  inferInstanceAs (Decidable (LegalChars name.toList))

/-- The first letter of a text, if it has one, is none of those whose upper case has a character in
it that no identifier may hold. -/
def HasLegalCapital (text : String) : Prop :=
  ∀ c ∈ text.toList.find? Unicode.isLetter, c.toNat ∉ Unicode.unletteredUpper

variable {cs : List Char}

/-! ## Legal characters -/

theorem isStart_of_isLetter {c : Char} (h : Unicode.isLetter c = true) : isStart c = true := by
  rw [isStart, h, Bool.or_true]

theorem isPart_of_isStart {c : Char} (h : isStart c = true) : isPart c = true := by
  rw [isPart, h, Bool.true_or]

theorem isPart_of_isDigit {c : Char} (h : c.isDigit = true) : isPart c = true := by
  have hdigit : 0x30 ≤ c.toNat ∧ c.toNat ≤ 0x39 := by
    simpa [Char.isDigit, UInt32.le_iff_toNat_le] using h
  have hcontains : Unicode.decimalDigitRanges.contains c.toNat = true :=
    (Unicode.Ranges.contains_iff Unicode.decimalDigitRanges_ascending _).2
      ⟨(0x30, 0x39), List.mem_cons_self, hdigit⟩
  rw [isPart, Unicode.isDecimalDigit, hcontains, Bool.or_true]

theorem LegalChars.isPart (h : LegalChars cs) : ∀ d ∈ cs, isPart d = true := by
  cases cs with
  | nil => exact h.elim
  | cons c rest => exact List.forall_mem_cons.2 ⟨isPart_of_isStart h.1, h.2⟩

/-- Replacing what is not legal makes an identifier. -/
theorem legalChars_legalize (cs : List Char) : LegalChars (legalize cs) := by
  cases cs with
  | nil =>
    refine ⟨by decide, ?_⟩
    exact fun d hd => absurd hd List.not_mem_nil
  | cons c rest =>
    constructor
    · by_cases hc : isStart c = true
      · rwa [if_pos hc]
      · rw [if_neg hc]
        decide
    · intro d hd
      obtain ⟨u, -, rfl⟩ := List.mem_map.1 hd
      by_cases hu : isPart u = true
      · rwa [if_pos hu]
      · rw [if_neg hu]
        decide

theorem legalize_ne_nil (cs : List Char) : legalize cs ≠ [] := by
  cases cs <;> exact List.cons_ne_nil _ _

/-- An identifier has nothing in it that is replaced. -/
theorem legalize_eq_self (h : LegalChars cs) : legalize cs = cs := by
  cases cs with
  | nil => exact h.elim
  | cons c rest =>
    have hrest : (rest.map fun d => if isPart d then d else '_') = rest :=
      (List.map_congr_left fun d hd => if_pos (h.2 d hd)).trans (List.map_id rest)
    rw [legalize, if_pos h.1, hrest]

/-! ## The first letter -/

theorem isLetter_underscore : Unicode.isLetter '_' = false := by decide +kernel

/-- Letters stay where they are when other characters are replaced. -/
theorem isLetter_replaced {p : Char → Bool} (hp : ∀ c, Unicode.isLetter c = true → p c = true)
    (c : Char) :
    Unicode.isLetter (if p c then c else '_') = Unicode.isLetter c := by
  by_cases hc : p c = true
  · rw [if_pos hc]
  · rw [if_neg hc, isLetter_underscore]
    exact (Bool.eq_false_iff.2 fun h => hc (hp c h)).symm

theorem find?_map_replaced {p : Char → Bool} (hp : ∀ c, Unicode.isLetter c = true → p c = true)
    (cs : List Char) :
    (cs.map fun d => if p d then d else '_').find? Unicode.isLetter =
      cs.find? Unicode.isLetter := by
  induction cs with
  | nil => rfl
  | cons c rest ih =>
    rw [List.map_cons, List.find?_cons, List.find?_cons, isLetter_replaced hp, ih]
    cases hc : Unicode.isLetter c with
    | false => rfl
    | true => simp [hp c hc]

/-- The first letter of a text stays the first when what is not legal is replaced. -/
theorem find?_legalize (cs : List Char) :
    (legalize cs).find? Unicode.isLetter = cs.find? Unicode.isLetter := by
  cases cs with
  | nil => simp [legalize, isLetter_underscore]
  | cons c rest =>
    have hpart : ∀ d, Unicode.isLetter d = true → isPart d = true :=
      fun d hd => isPart_of_isStart (isStart_of_isLetter hd)
    rw [legalize, List.find?_cons, List.find?_cons,
      isLetter_replaced (fun _ => isStart_of_isLetter), find?_map_replaced hpart]
    cases hc : Unicode.isLetter c with
    | false => rfl
    | true => simp [isStart_of_isLetter hc]

/-! ## Capitals -/

theorem unletteredUpper_spoil : (Unicode.unletteredUpper.all fun n =>
    Unicode.isLowercase (Char.ofNat n) && (Unicode.upper (Char.ofNat n)).any fun d =>
      !isPart d) = true := by decide +kernel

/-- The upper case of a letter of `Unicode.unletteredUpper` is not legal. -/
theorem exists_illegal_upper {c : Char} (h : c.toNat ∈ Unicode.unletteredUpper) :
    Unicode.isLowercase c = true ∧ ∃ d ∈ Unicode.upper c, isPart d ≠ true := by
  have hc := List.all_eq_true.1 unletteredUpper_spoil c.toNat h
  rw [Char.ofNat_toNat, Bool.and_eq_true] at hc
  obtain ⟨d, hd, hillegal⟩ := List.any_eq_true.1 hc.2
  exact ⟨hc.1, d, hd, by simpa using hillegal⟩

/-- The upper case of any other letter begins an identifier. -/
theorem legalChars_upper_append {c : Char} (hletter : Unicode.isLetter c = true)
    (hc : c.toNat ∉ Unicode.unletteredUpper) (hcs : ∀ d ∈ cs, isPart d = true) :
    LegalChars (Unicode.upper c ++ cs) := by
  have hstart : ∀ d ∈ Unicode.upper c, isStart d = true :=
    fun d hd => isStart_of_isLetter (Unicode.isLetter_of_mem_upper hletter hc hd)
  obtain ⟨d, ds, hupper⟩ := List.exists_cons_of_ne_nil (Unicode.upper_ne_nil c)
  rw [hupper] at hstart ⊢
  obtain ⟨hd, hds⟩ := List.forall_mem_cons.1 hstart
  refine ⟨hd, List.forall_mem_append.2 ⟨?_, hcs⟩⟩
  intro e he
  exact isPart_of_isStart (hds e he)

/-- Capitalizing a legal text leaves it legal exactly if the upper case of its first letter is. -/
theorem isPart_capitalize_iff (h : ∀ d ∈ cs, isPart d = true) :
    (∀ d ∈ capitalize cs, isPart d = true) ↔
      ∀ c ∈ cs.find? Unicode.isLetter, c.toNat ∉ Unicode.unletteredUpper := by
  induction cs with
  | nil => simp [capitalize]
  | cons c rest ih =>
    obtain ⟨hc, hrest⟩ := List.forall_mem_cons.1 h
    rw [capitalize, List.find?_cons]
    cases hletter : Unicode.isLetter c with
    | false => simp [hc, ih hrest]
    | true =>
      by_cases hspoils : c.toNat ∈ Unicode.unletteredUpper
      · obtain ⟨hlower, d, hd, hillegal⟩ := exists_illegal_upper hspoils
        rw [if_pos rfl, if_pos hlower]
        refine iff_of_false (fun hall => ?_) (by simpa using hspoils)
        exact hillegal (hall d (List.mem_append_left _ hd))
      · refine iff_of_true ?_ (by simpa using hspoils)
        rw [if_pos rfl]
        split
        · exact (legalChars_upper_append hletter hspoils hrest).isPart
        · exact h

/-- A capitalized identifier begins like one, as far as it is legal at all. -/
theorem legalChars_capitalize_iff (h : LegalChars cs) :
    LegalChars (capitalize cs) ↔ ∀ d ∈ capitalize cs, isPart d = true := by
  refine ⟨LegalChars.isPart, fun hparts => ?_⟩
  have hcapital := (isPart_capitalize_iff h.isPart).1 hparts
  cases cs with
  | nil => exact h.elim
  | cons c rest =>
    rw [capitalize] at hparts ⊢
    cases hletter : Unicode.isLetter c with
    | false =>
      simp only [hletter, Bool.false_eq_true, if_false] at hparts ⊢
      exact ⟨h.1, (List.forall_mem_cons.1 hparts).2⟩
    | true =>
      rw [if_pos rfl]
      split
      · apply legalChars_upper_append hletter
        · exact hcapital c (by rw [List.find?_cons, hletter]; rfl)
        · exact h.2
      · exact h

/-- The name of a text is an identifier exactly if the upper case of its first letter is legal. -/
theorem isIdentifier_identifier_iff (text : String) :
    IsIdentifier (identifier text) ↔ HasLegalCapital text := by
  have hlegal := legalChars_legalize text.toList
  rw [HasLegalCapital, ← find?_legalize, ← isPart_capitalize_iff hlegal.isPart]
  unfold IsIdentifier identifier
  rw [String.toList_ofList]
  split
  · -- the underscore of a reserved word may stand first, whatever follows it
    exact ⟨fun h => h.2, fun h => ⟨by decide, h⟩⟩
  · exact legalChars_capitalize_iff hlegal

/-! ## Numbered names -/

/-- What is put behind a name is legal or spoils it. -/
theorem isIdentifier_append_iff {name : String} (hne : name.toList ≠ []) {long : String}
    {tail : List Char} (hlong : long.toList = name.toList ++ tail) :
    IsIdentifier long ↔ IsIdentifier name ∧ ∀ d ∈ tail, isPart d = true := by
  obtain ⟨c, rest, hname⟩ := List.exists_cons_of_ne_nil hne
  unfold IsIdentifier
  rw [hlong, hname, List.cons_append]
  constructor
  · rintro ⟨hc, hrest⟩
    obtain ⟨hrest, htail⟩ := List.forall_mem_append.1 hrest
    exact ⟨⟨hc, hrest⟩, htail⟩
  · rintro ⟨⟨hc, hrest⟩, htail⟩
    exact ⟨hc, List.forall_mem_append.2 ⟨hrest, htail⟩⟩

theorem isPart_repr_iff (n : Int) : (∀ d ∈ n.repr.toList, isPart d = true) ↔ 0 ≤ n := by
  constructor
  · intro h
    by_contra hneg
    rw [Int.repr_eq_if, if_neg hneg, String.toList_append] at h
    exact absurd (h '-' List.mem_cons_self) (by decide +kernel)
  · intro hn d hd
    rw [Int.repr_eq_if, if_pos hn, Nat.toList_repr] at hd
    exact isPart_of_isDigit (Nat.isDigit_of_mem_toDigits (by decide) (by decide) hd)

/-- A number behind a name makes no difference unless it is negative. -/
theorem isIdentifier_numbered_iff {name : String} (hne : name.toList ≠ []) (n : Int) :
    IsIdentifier (numbered name n) ↔ IsIdentifier name ∧ 0 ≤ n := by
  rw [isIdentifier_append_iff hne (toList_numbered name n), List.forall_mem_cons, isPart_repr_iff]
  simp [isPart, isStart]

/-- The numbers of the tries are negative between the greatest one and zero. -/
theorem toInt_ofNat_nonneg_iff {n : Nat} (hpos : 0 < n) (hn : n ≤ 2 ^ 32) :
    0 ≤ (Int32.ofNat n).toInt ↔ n < 2 ^ 31 ∨ n = 2 ^ 32 := by
  have hmod : (Int32.ofNat n).toInt % 2 ^ 32 = n % 2 ^ 32 := by
    have hsize : ((Int32.size : Nat) : Int) = 2 ^ 32 := rfl
    rw [Int32.toInt_ofNat', ← hsize, Int.bmod_emod]
  have hlow := (Int32.ofNat n).le_toInt
  have hhigh := (Int32.ofNat n).toInt_lt
  omega

theorem isIdentifier_candidate_iff {base : String} (hne : base.toList ≠ []) {n : Nat}
    (hn : n ≤ 2 ^ 32) :
    IsIdentifier (candidate base n) ↔ IsIdentifier base ∧ (n < 2 ^ 31 ∨ n = 2 ^ 32) := by
  rcases Nat.eq_zero_or_pos n with rfl | hpos
  · simp [candidate]
  · rw [candidate_of_pos base hpos, isIdentifier_numbered_iff hne, toInt_ofNat_nonneg_iff hpos hn]

theorem not_isIdentifier_unending {name : String} (hne : name.toList ≠ []) (taken : List String) :
    ¬ IsIdentifier (unending name taken) := by
  rw [isIdentifier_append_iff hne (toList_unending name taken)]
  rintro ⟨-, htail⟩
  exact absurd (htail '-' (by simp [List.replicate_succ])) (by decide +kernel)

theorem capitalize_ne_nil (h : cs ≠ []) : capitalize cs ≠ [] := by
  obtain ⟨c, rest, rfl⟩ := List.exists_cons_of_ne_nil h
  rw [capitalize]
  split
  · split
    · exact List.append_ne_nil_of_left_ne_nil (Unicode.upper_ne_nil c) rest
    · exact List.cons_ne_nil _ _
  · exact List.cons_ne_nil _ _

theorem toList_identifier_ne_nil (text : String) : (identifier text).toList ≠ [] := by
  unfold identifier
  rw [String.toList_ofList]
  split
  · exact List.cons_ne_nil _ _
  · exact capitalize_ne_nil (legalize_ne_nil text.toList)

/-- A claimed name is an identifier exactly if the name of the key itself is one and the number behind
it, if there is one, is not negative. -/
theorem isIdentifier_claim_iff (taken : List String) (key : String) :
    IsIdentifier (claim taken key) ↔ HasLegalCapital key ∧
      (FreeBelow (2 ^ 31) taken key ∨ FirstFree taken (identifier key) 0 (2 ^ 32)) := by
  rw [← isIdentifier_identifier_iff]
  have hne := toList_identifier_ne_nil key
  rcases claim_cases taken key with ⟨i, hi, hfirst, heq⟩ | ⟨hall, heq⟩
  · have hlast : FirstFree taken (identifier key) 0 (2 ^ 32) ↔ i = 2 ^ 32 := by
      constructor
      · intro h
        exact hfirst.unique h
      · rintro rfl
        exact hfirst
    rw [heq, isIdentifier_candidate_iff hne hi, hfirst.freeBelow_iff, hlast]
  · rw [heq]
    refine iff_of_false (not_isIdentifier_unending hne taken) ?_
    rintro ⟨-, ⟨n, hn, hfree⟩ | hfirst⟩
    · exact hfree (hall n (by omega))
    · exact hfirst.free (hall _ (Nat.le_refl _))

/-! ## The fields of a shape -/

/-- A field has the name of one of the entries, claimed among some others. -/
theorem exists_of_mem_fieldsFrom {σ : Type} {taken : List String} {entries : List (String × σ)}
    {field : Field σ} (h : field ∈ fieldsFrom taken entries) :
    (field.key, field.value) ∈ entries ∧ ∃ before, field.ident = claim before field.key := by
  induction entries generalizing taken with
  | nil => cases h
  | cons entry rest ih =>
    obtain ⟨key, value⟩ := entry
    rcases List.mem_cons.1 h with rfl | hrest
    · exact ⟨List.mem_cons_self, taken, rfl⟩
    · obtain ⟨hmem, hident⟩ := ih hrest
      exact ⟨List.mem_cons_of_mem _ hmem, hident⟩

/-- A field has the name that is claimed after those of the fields before it. -/
theorem ident_eq_claim {σ : Type} {taken : List String} {entries : List (String × σ)}
    {before after : List (Field σ)} {field : Field σ}
    (h : fieldsFrom taken entries = before ++ field :: after) :
    field.ident = claim (taken ++ before.map Field.ident) field.key := by
  induction entries generalizing taken before with
  | nil => simp [fieldsFrom] at h
  | cons entry rest ih =>
    obtain ⟨key, value⟩ := entry
    rw [fieldsFrom] at h
    cases before with
    | nil =>
      obtain ⟨rfl, -⟩ := List.cons.inj h
      simp
    | cons first before =>
      obtain ⟨rfl, hrest⟩ := List.cons.inj h
      rw [ih hrest]
      simp

end Naming

namespace Shape

/-- The structs in a shape, at any depth, each given by its fields. -/
inductive HasStruct : Shape → List (Field Shape) → Prop
  /-- The struct itself. -/
  | own (fields : List (Field Shape)) : HasStruct (.struct fields) fields
  /-- A struct in the shape of a field. -/
  | inner {fields others : List (Field Shape)} {outer : Field Shape} (houter : outer ∈ fields)
      (h : HasStruct outer.value others) : HasStruct (.struct fields) others
  /-- A struct in the shape of the elements. -/
  | element {element : Shape} {fields : List (Field Shape)} (h : HasStruct element fields) :
      HasStruct (.slice element) fields

/-- The fields of the structs in a shape, at any depth. -/
inductive HasField : Shape → Field Shape → Prop
  /-- A field of the struct itself. -/
  | own {fields : List (Field Shape)} {field : Field Shape} (h : field ∈ fields) :
      HasField (.struct fields) field
  /-- A field in the shape of a field. -/
  | inner {fields : List (Field Shape)} {outer field : Field Shape} (houter : outer ∈ fields)
      (h : HasField outer.value field) : HasField (.struct fields) field
  /-- A field in the shape of the elements. -/
  | element {element : Shape} {field : Field Shape} (h : HasField element field) :
      HasField (.slice element) field

theorem HasField.exists_hasStruct {shape : Shape} {field : Field Shape} (h : shape.HasField field) :
    ∃ fields, shape.HasStruct fields ∧ field ∈ fields := by
  induction h with
  | own hmem => exact ⟨_, .own _, hmem⟩
  | inner houter _ ih =>
    obtain ⟨fields, hstruct, hmem⟩ := ih
    exact ⟨fields, .inner houter hstruct, hmem⟩
  | element _ ih =>
    obtain ⟨fields, hstruct, hmem⟩ := ih
    exact ⟨fields, .element hstruct, hmem⟩

/-- The fields of every struct in the shape of a group are named one after the other. -/
theorem exists_entries_of_hasStruct (group : List Node) {fields : List (Field Shape)}
    (h : (ofGroup group).HasStruct fields) : ∃ entries, fields = Naming.fields entries := by
  induction group using Node.merge_induction with
  | mixed group hkind =>
    rw [ofGroup_of_mixed hkind] at h
    cases h
  | primitive group type hkind =>
    rw [ofGroup_of_primitive hkind] at h
    cases type <;> cases h
  | array elements ih =>
    rw [ofGroup_array] at h
    split at h
    · cases h with
      | element h => cases h
    · cases h with
      | element h => exact ih h
  | arrays group hkind hlen =>
    rw [ofGroup_arrays hkind hlen] at h
    cases h with
    | element h => cases h
  | objects group hkind ih =>
    rw [ofGroup_of_object hkind] at h
    cases h with
    | own => exact ⟨_, rfl⟩
    | inner houter h =>
      obtain ⟨hentry, -⟩ := Naming.exists_of_mem_fieldsFrom houter
      obtain ⟨⟨key, values⟩, hvalues, heq⟩ := List.mem_map.1 hentry
      obtain ⟨-, hvalue⟩ := Prod.mk.inj heq
      rw [← hvalue] at h
      exact ih key values hvalues h

/-- Every field in the shape of a group has the name that is claimed after those before it. -/
theorem ident_eq_claim_of_hasStruct (group : List Node) {before after : List (Field Shape)}
    {field : Field Shape} (h : (ofGroup group).HasStruct (before ++ field :: after)) :
    field.ident = Naming.claim (before.map Field.ident) field.key := by
  obtain ⟨entries, hentries⟩ := exists_entries_of_hasStruct group h
  have hident := Naming.ident_eq_claim hentries.symm
  rwa [List.nil_append] at hident

/-- Every field in the shape of a group has a claimed name. -/
theorem exists_claim_of_hasField (group : List Node) {field : Field Shape}
    (h : (ofGroup group).HasField field) : ∃ taken, field.ident = Naming.claim taken field.key := by
  obtain ⟨fields, hstruct, hmem⟩ := h.exists_hasStruct
  obtain ⟨before, after, rfl⟩ := List.append_of_mem hmem
  exact ⟨_, ident_eq_claim_of_hasStruct group hstruct⟩

theorem eq_ofGroup_of_ofRoot {root : Node} {shape : Shape} (h : ofRoot root = .ok shape) :
    shape = ofGroup [root] := by
  unfold ofRoot Inferred.ofRoot at h
  split at h
  · exact (Except.ok.inj h).symm
  · exact (Except.ok.inj h).symm
  · cases h

end Shape

namespace Naming

/-! ## The names of a declaration -/

theorem ofRoot_push_ab : Shape.ofRoot (.object (Members.empty.push "ab" (.primitive .bool))) =
    .ok (.struct [⟨"Ab", "ab", .bool⟩]) := by
  have hname : claim [] "ab" = "Ab" := by decide +kernel
  have hfields : Shape.ofGroup [.object (Members.empty.push "ab" (.primitive .bool))] =
      .struct (fields [("ab", Shape.ofGroup [.primitive .bool])]) := Shape.ofGroup_of_object rfl
  have hbool : Shape.ofGroup [.primitive .bool] = .bool := by
    rw [Shape.ofGroup_of_primitive rfl]
    rfl
  rw [hbool, fields, fieldsFrom, fieldsFrom, hname] at hfields
  exact congrArg Except.ok hfields

/-- The name of a key, the type that is named after it, its claimed name among any others, and the
field for it in any struct of the shape of any document: each of them is an identifier exactly if the
first letter of the key is none of those whose upper case is not legal.  For the claimed name the
number behind it must not be negative besides, which it never is where fewer than `2 ^ 31` names are
taken.  The name of the type that is used unless told otherwise is an identifier. -/
theorem isIdentifier_name_iff (key : String) :
    (IsIdentifier (identifier key) ↔ HasLegalCapital key) ∧
      (∀ taken, IsIdentifier (claim taken key) ↔ HasLegalCapital key ∧
        (FreeBelow (2 ^ 31) taken key ∨ FirstFree taken (identifier key) 0 (2 ^ 32))) ∧
      (∀ taken : List String, taken.toFinset.card < 2 ^ 31 → FreeBelow (2 ^ 31) taken key) ∧
      (∀ root shape, Shape.ofRoot root = .ok shape → ∀ before field after,
        shape.HasStruct (before ++ field :: after) → field.key = key →
          field.ident = claim (before.map Field.ident) key ∧
            (before.length < 2 ^ 31 → (IsIdentifier field.ident ↔ HasLegalCapital key))) ∧
      (∀ options : Options,
        IsIdentifier (options.withTypeName key).typeName ↔ HasLegalCapital key) ∧
      IsIdentifier Options.default.typeName := by
  have hfree : ∀ taken : List String, taken.toFinset.card < 2 ^ 31 →
      FreeBelow (2 ^ 31) taken key := fun taken h => freeBelow_of_card_lt key (by decide) h
  refine ⟨isIdentifier_identifier_iff key, fun taken => isIdentifier_claim_iff taken key, hfree, ?_,
    fun _ => isIdentifier_identifier_iff key, by decide +kernel⟩
  rintro root shape hroot before field after hstruct rfl
  rw [Shape.eq_ofGroup_of_ofRoot hroot] at hstruct
  have hident := Shape.ident_eq_claim_of_hasStruct [root] hstruct
  refine ⟨hident, fun hlength => ?_⟩
  have hcard : (before.map Field.ident).toFinset.card ≤ before.length := by
    simpa using List.toFinset_card_le (before.map Field.ident)
  rw [hident, isIdentifier_claim_iff]
  exact and_iff_left (.inl (hfree _ (Nat.lt_of_le_of_lt hcard hlength)))

/-- An object with a truth value under `ab` has a field `Ab`. -/
theorem isIdentifier_name_iff_ab :
    Shape.ofRoot (.object (Members.empty.push "ab" (.primitive .bool))) =
        .ok (.struct [⟨"Ab", "ab", .bool⟩]) ∧
      Shape.HasStruct (.struct [⟨"Ab", "ab", .bool⟩]) ([] ++ ⟨"Ab", "ab", .bool⟩ :: []) ∧
        ([] : List (Field Shape)).length < 2 ^ 31 ∧ (IsIdentifier "Ab" ↔ HasLegalCapital "ab") := by
  have hstruct : Shape.HasStruct (.struct [⟨"Ab", "ab", .bool⟩]) ([] ++ ⟨"Ab", "ab", .bool⟩ :: []) :=
    .own _
  have hlength : ([] : List (Field Shape)).length < 2 ^ 31 := by decide
  exact ⟨ofRoot_push_ab, hstruct, hlength,
    ((isIdentifier_name_iff "ab").2.2.2.1 _ _ ofRoot_push_ab _ _ _ hstruct rfl).2 hlength⟩

/-- The upper case of a j with a caron is a J and a combining caron, which no identifier may hold. -/
theorem not_isIdentifier_caron :
    identifier "\u01F0" = "J\u030C" ∧ ¬ IsIdentifier (identifier "\u01F0") ∧
      ¬ IsIdentifier (claim [] "\u01F0") := by decide +kernel

end Naming

end JsonShape
