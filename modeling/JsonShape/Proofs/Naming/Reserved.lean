import JsonShape.Proofs.Declaration.Injective

/-!
# Names and reserved words

Whether a text is reserved is asked before its first letter is written in upper case, and the answer
decides about an underscore in front.  What comes out is reserved in neither case, because of its
first character: every reserved word begins with a small letter of ASCII, and no name does.

* `BeginsNoWord` — a text begins with an underscore or outside the small letters of ASCII.
* `beginsNoWord_identifier`, `beginsNoWord_claim` — every name does.
* `isReserved_eq_false`, `ne_typeExpr` — such a text is not reserved, and it is no type expression.
* `isReserved_name` — no name of a type or a field is.
-/

namespace JsonShape

namespace Naming

variable {cs : List Char}

/-- A text begins with an underscore, or else outside the small letters of ASCII and the brackets
before them. -/
def BeginsNoWord (cs : List Char) : Prop :=
  ∃ c ∈ cs.head?, c = '_' ∨ Unicode.OutsideSmall c.toNat

instance : DecidablePred BeginsNoWord
  | [] => isFalse (by simp [BeginsNoWord])
  | c :: _ => decidable_of_iff (c = '_' ∨ Unicode.OutsideSmall c.toNat) (by simp [BeginsNoWord])

/-- What follows makes no difference. -/
theorem BeginsNoWord.append (h : BeginsNoWord cs) (ds : List Char) : BeginsNoWord (cs ++ ds) := by
  obtain ⟨c, hc, hword⟩ := h
  exact ⟨c, List.mem_head?_append_of_mem_head? hc, hword⟩

/-! ## The first character of a name -/

/-- A letter that is not in lower case is no small letter of ASCII. -/
theorem outsideSmall_of_not_isLowercase {c : Char} (hletter : Unicode.isLetter c = true)
    (hlower : Unicode.isLowercase c ≠ true) : Unicode.OutsideSmall c.toNat := by
  have hcovers : Unicode.lowercaseRanges.covers 0x61 0x7A = true := by decide +kernel
  have hsmall : ¬ (0x61 ≤ c.toNat ∧ c.toNat ≤ 0x7A) := fun h => hlower
    (Unicode.Ranges.contains_of_covers Unicode.lowercaseRanges_ascending hcovers h.1 h.2)
  have hbetween := Unicode.not_between_of_isLetter hletter
  unfold Unicode.OutsideSmall
  omega

/-- Capitalizing an identifier writes its first character in upper case, unless it is an underscore
or has no lower case. -/
theorem beginsNoWord_capitalize (h : LegalChars cs) : BeginsNoWord (capitalize cs) := by
  cases cs with
  | nil => exact h.elim
  | cons c rest =>
    rw [capitalize]
    cases hletter : Unicode.isLetter c with
    | true =>
      rw [if_pos rfl]
      split
      · obtain ⟨d, ds, hupper⟩ := List.exists_cons_of_ne_nil (Unicode.upper_ne_nil c)
        have hd : d ∈ Unicode.upper c := by simp [hupper]
        rw [hupper]
        exact ⟨d, rfl, .inr (Unicode.outsideSmall_of_mem_upper hletter hd)⟩
      · rename_i hlower
        exact ⟨c, rfl, .inr (outsideSmall_of_not_isLowercase hletter hlower)⟩
    | false =>
      have hunderscore : c = '_' := by simpa [isStart, hletter] using h.1
      exact ⟨c, rfl, .inl hunderscore⟩

theorem beginsNoWord_identifier (text : String) : BeginsNoWord (identifier text).toList := by
  unfold identifier
  rw [String.toList_ofList]
  split
  · exact ⟨'_', rfl, .inl rfl⟩
  · exact beginsNoWord_capitalize (legalChars_legalize text.toList)

theorem beginsNoWord_claim (taken : List String) (key : String) :
    BeginsNoWord (claim taken key).toList := by
  obtain ⟨tail, hclaim, -⟩ := exists_toList_claim taken key
  rw [hclaim]
  exact (beginsNoWord_identifier key).append tail

/-! ## Reserved words -/

theorem keywords_begin : ∀ word ∈ keywords, ¬ BeginsNoWord word.toList := by decide +kernel

theorem predeclared_begin : ∀ word ∈ predeclared, ¬ BeginsNoWord word.toList := by decide +kernel

/-- No word that begins otherwise is reserved. -/
theorem isReserved_eq_false {name : String} (h : BeginsNoWord name.toList) :
    isReserved name = false := by
  rw [isReserved, isKeyword, Bool.or_eq_false_iff, ← Bool.not_eq_true, ← Bool.not_eq_true,
    List.contains_iff_mem, List.contains_iff_mem]
  exact ⟨fun hmem => keywords_begin name hmem h, fun hmem => predeclared_begin name hmem h⟩

end Naming

namespace Declaration

/-- Type expressions begin with a reserved word or a bracket. -/
theorem opening_begins (form : Form) : ¬ Naming.BeginsNoWord form.opening.toList := by
  cases form <;> decide

theorem opening_ne_nil (form : Form) : form.opening.toList ≠ [] := by
  cases form <;> decide

/-- A name is no type expression. -/
theorem ne_typeExpr {name : String} (h : Naming.BeginsNoWord name.toList) (depth : Nat)
    (shape : Shape) : name ≠ typeExpr depth shape := by
  rintro rfl
  rw [typeExpr_eq, String.toList_append] at h
  obtain ⟨c, rest, hopening⟩ := List.exists_cons_of_ne_nil (opening_ne_nil (form shape))
  refine opening_begins (form shape) ?_
  rw [hopening] at h ⊢
  exact h

end Declaration

/-- The name of a type begins no word, whatever the caller asks for. -/
theorem Options.Chosen.beginsNoWord {options : Options} (h : options.Chosen) :
    Naming.BeginsNoWord options.typeName.toList := by
  induction h with
  | default => decide +kernel
  | withTypeName _ name _ => exact Naming.beginsNoWord_identifier name
  | withPackage _ _ ih | withoutPackage _ ih | withMaxDepth _ _ ih => exact ih

namespace Naming

/-- No name is reserved: neither the identifier of any text, nor its claimed name among any others,
nor the name of the type under whatever options, nor that of a field at any depth in the shape of any
document.  No name of a type or a field is a type expression, so no type that a declaration names is
the declared one. -/
theorem isReserved_name (text : String) :
    isReserved (identifier text) = false ∧
      (∀ taken, isReserved (claim taken text) = false) ∧
      (∀ options : Options, options.Chosen → isReserved options.typeName = false ∧
        ∀ depth shape, options.typeName ≠ Declaration.typeExpr depth shape) ∧
      ∀ root shape, Shape.ofRoot root = .ok shape → ∀ field, shape.HasField field →
        isReserved field.ident = false ∧
          ∀ depth part, field.ident ≠ Declaration.typeExpr depth part := by
  refine ⟨isReserved_eq_false (beginsNoWord_identifier text),
    fun taken => isReserved_eq_false (beginsNoWord_claim taken text), fun options hoptions => ?_,
    fun root shape hroot field hfield => ?_⟩
  · exact ⟨isReserved_eq_false hoptions.beginsNoWord,
      Declaration.ne_typeExpr hoptions.beginsNoWord⟩
  · rw [Shape.eq_ofGroup_of_ofRoot hroot] at hfield
    obtain ⟨taken, hclaim⟩ := Shape.exists_claim_of_hasField [root] hfield
    have hname : BeginsNoWord field.ident.toList := by
      rw [hclaim]
      exact beginsNoWord_claim taken field.key
    exact ⟨isReserved_eq_false hname, Declaration.ne_typeExpr hname⟩

/-- A type that is to be named like the integers, with a field. -/
theorem isReserved_name_int :
    (Options.default.withTypeName "int").Chosen ∧
      (Options.default.withTypeName "int").typeName = "_Int" ∧
      isReserved (Options.default.withTypeName "int").typeName = false ∧
      Shape.ofRoot (.object (Members.empty.push "ab" (.primitive .bool))) =
        .ok (.struct [⟨"Ab", "ab", .bool⟩]) ∧
      Shape.HasField (.struct [⟨"Ab", "ab", .bool⟩]) ⟨"Ab", "ab", .bool⟩ ∧
      isReserved "Ab" = false :=
  have hoptions : (Options.default.withTypeName "int").Chosen := .withTypeName .default "int"
  have hfield : Shape.HasField (.struct [⟨"Ab", "ab", .bool⟩]) ⟨"Ab", "ab", .bool⟩ :=
    .own List.mem_cons_self
  ⟨hoptions, by decide +kernel, ((isReserved_name "int").2.2.1 _ hoptions).1, ofRoot_push_ab,
    hfield, ((isReserved_name "ab").2.2.2 _ _ ofRoot_push_ab _ hfield).1⟩

end Naming

end JsonShape
