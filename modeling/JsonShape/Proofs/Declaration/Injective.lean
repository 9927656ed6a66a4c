import JsonShape.Proofs.Naming.Legality

/-!
# Declarations tell shapes apart

Reads a declaration from its start.  Every part of it says where it ends: a name ends at the first
white space, since no name holds any; a type expression at the first white space behind a word that
is one, or at the brace of a line as deep as its first; and a tag at the mark with which it began,
whatever its key looks like.

* `Naming.unspaced_claim`, `Options.Chosen.unspaced` — names hold no white space.
* `tag_append_inj` — a tag and what follows it can be told apart.
* `opening_append_inj` — no type expression begins like one of another form.
* `typeExpr_append_inj`, `fieldLines_append_inj` — so it is with type expressions and fields.
* `Shape.declaration_eq_iff` — two declarations are equal only if shapes, names and packages are.
-/

namespace JsonShape

/-! ## White space in names -/

namespace Naming

/-- A text without white space. -/
def Unspaced (cs : List Char) : Prop := ∀ c ∈ cs, c.isWhitespace = false

instance : DecidablePred Unspaced := fun cs =>
  List.decidableBAll (fun c : Char => c.isWhitespace = false) cs

variable {cs ds : List Char}

theorem unspaced_append : Unspaced (cs ++ ds) ↔ Unspaced cs ∧ Unspaced ds := List.forall_mem_append

theorem unspaced_cons {c : Char} : Unspaced (c :: cs) ↔ c.isWhitespace = false ∧ Unspaced cs :=
  List.forall_mem_cons

theorem Unspaced.not_mem {c : Char} (h : Unspaced cs) (hc : c.isWhitespace = true) : c ∉ cs := by
  intro hmem
  rw [h c hmem] at hc
  cases hc

theorem isWhitespace_of_isPart {c : Char} (h : isPart c = true) : c.isWhitespace = false := by
  have hspaces : ([' ', '\t', '\r', '\n'].all fun d => !isPart d) = true := by decide +kernel
  rw [Bool.eq_false_iff]
  intro hspace
  have hmem : c ∈ [' ', '\t', '\r', '\n'] := by simpa [Char.isWhitespace, or_assoc] using hspace
  have hpart := List.all_eq_true.1 hspaces c hmem
  rw [h] at hpart
  cases hpart

theorem LegalChars.unspaced (h : LegalChars cs) : Unspaced cs :=
  fun c hc => isWhitespace_of_isPart (h.isPart c hc)

theorem unletteredUpper_unspaced : (Unicode.unletteredUpper.all fun n =>
    (Unicode.upper (Char.ofNat n)).all fun d => !d.isWhitespace) = true := by decide +kernel

/-- The upper case of a letter may be illegal in a name, but it is no white space. -/
theorem unspaced_upper {c : Char} (hletter : Unicode.isLetter c = true) :
    Unspaced (Unicode.upper c) := by
  intro d hd
  by_cases hc : c.toNat ∈ Unicode.unletteredUpper
  · have hall := List.all_eq_true.1 unletteredUpper_unspaced c.toNat hc
    rw [Char.ofNat_toNat] at hall
    simpa using List.all_eq_true.1 hall d hd
  · have hd := Unicode.isLetter_of_mem_upper hletter hc hd
    exact isWhitespace_of_isPart (isPart_of_isStart (isStart_of_isLetter hd))

theorem unspaced_capitalize (h : Unspaced cs) : Unspaced (capitalize cs) := by
  induction cs with
  | nil => exact h
  | cons c rest ih =>
    obtain ⟨hc, hrest⟩ := unspaced_cons.1 h
    rw [capitalize]
    split
    · rename_i hletter
      split
      · exact unspaced_append.2 ⟨unspaced_upper hletter, hrest⟩
      · exact h
    · exact unspaced_cons.2 ⟨hc, ih hrest⟩

theorem unspaced_identifier (text : String) : Unspaced (identifier text).toList := by
  have hexported := unspaced_capitalize (legalChars_legalize text.toList).unspaced
  unfold identifier
  rw [String.toList_ofList]
  split
  · exact unspaced_cons.2 ⟨by decide, hexported⟩
  · exact hexported

theorem unspaced_packageName (text : String) : Unspaced (packageName text).toList := by
  have hlegal := (legalChars_legalize text.toList).unspaced
  unfold packageName
  rw [String.toList_ofList]
  split
  · exact unspaced_cons.2 ⟨by decide, hlegal⟩
  · exact hlegal

/-- No claimed name holds white space. -/
theorem unspaced_claim (taken : List String) (key : String) :
    Unspaced (claim taken key).toList := by
  obtain ⟨tail, hclaim, htail⟩ := exists_toList_claim taken key
  rw [hclaim]
  refine unspaced_append.2 ⟨unspaced_identifier key, fun d hd => ?_⟩
  rcases htail d hd with rfl | rfl | hdigit
  · rfl
  · rfl
  · exact isWhitespace_of_isPart (isPart_of_isDigit hdigit)

end Naming

namespace Options

/-- The options that a caller can choose, one choice after the other. -/
inductive Chosen : Options → Prop
  /-- No choice at all. -/
  | default : Chosen .default
  /-- The name of the type. -/
  | withTypeName {options : Options} (h : Chosen options) (name : String) :
      Chosen (options.withTypeName name)
  /-- A package clause. -/
  | withPackage {options : Options} (h : Chosen options) (name : String) :
      Chosen (options.withPackage name)
  /-- No package clause. -/
  | withoutPackage {options : Options} (h : Chosen options) : Chosen options.withoutPackage
  /-- The limit on nesting. -/
  | withMaxDepth {options : Options} (h : Chosen options) (limit : Nat) :
      Chosen (options.withMaxDepth limit)

/-- No name that a caller can choose holds white space. -/
theorem Chosen.unspaced {options : Options} (h : Chosen options) :
    Naming.Unspaced options.typeName.toList ∧
      ∀ name ∈ options.package, Naming.Unspaced name.toList := by
  induction h with
  | default =>
    refine ⟨by decide +kernel, fun name hname => ?_⟩
    obtain rfl := Option.some.inj hname
    decide +kernel
  | withTypeName _ name ih => exact ⟨Naming.unspaced_identifier name, ih.2⟩
  | withPackage _ name ih =>
    refine ⟨ih.1, fun other hother => ?_⟩
    obtain rfl := Option.some.inj hother
    exact Naming.unspaced_packageName name
  | withoutPackage _ ih => exact ⟨ih.1, fun _ hname => nomatch hname⟩
  | withMaxDepth _ _ ih => exact ih

end Options

namespace Declaration

variable {cs ds rest rest' : List Char}

/-! ## Tags -/

/-- What stands before the first occurrence of a character can be told from what stands behind. -/
theorem append_cons_inj {c : Char} (hcs : c ∉ cs) (hds : c ∉ ds)
    (h : cs ++ c :: rest = ds ++ c :: rest') : cs = ds ∧ rest = rest' := by
  induction cs generalizing ds with
  | nil =>
    cases ds with
    | nil => exact ⟨rfl, (List.cons.inj h).2⟩
    | cons d ds =>
      obtain ⟨rfl, -⟩ := List.cons.inj h
      exact absurd List.mem_cons_self hds
  | cons d cs ih =>
    cases ds with
    | nil =>
      obtain ⟨rfl, -⟩ := List.cons.inj h
      exact absurd List.mem_cons_self hcs
    | cons e ds =>
      obtain ⟨rfl, htail⟩ := List.cons.inj h
      obtain ⟨rfl, hrest⟩ := ih (fun hc => hcs (List.mem_cons_of_mem _ hc))
        (fun hc => hds (List.mem_cons_of_mem _ hc)) htail
      exact ⟨rfl, hrest⟩

/-- An escaped character can be told from what follows it. -/
theorem escape_append_inj {c d : Char} (h : escape c ++ rest = escape d ++ rest') :
    c = d ∧ rest = rest' := by
  have hescaped : ∀ {c : Char}, (c = '"' || c = '\\') = true → escape c = ['\\', c] :=
    fun hc => if_pos hc
  have hplain : ∀ {c : Char}, ¬ (c = '"' || c = '\\') = true → escape c = [c] :=
    fun hc => if_neg hc
  by_cases hc : (c = '"' || c = '\\') = true <;> by_cases hd : (d = '"' || d = '\\') = true
  · rw [hescaped hc, hescaped hd] at h
    exact List.cons.inj (List.cons.inj h).2
  · -- the backslash before a character is not a plain one
    rw [hescaped hc, hplain hd] at h
    obtain ⟨rfl, -⟩ := List.cons.inj h
    exact absurd (by decide) hd
  · rw [hplain hc, hescaped hd] at h
    obtain ⟨rfl, -⟩ := List.cons.inj h
    exact absurd (by decide) hc
  · rw [hplain hc, hplain hd] at h
    exact List.cons.inj h

/-- An escaped character does not begin with a quote. -/
theorem escape_append_ne (c : Char) : escape c ++ rest ≠ '"' :: rest' := by
  unfold escape
  intro h
  split at h
  · exact absurd (List.cons.inj h).1 (by decide)
  · rename_i hc
    obtain ⟨rfl, -⟩ := List.cons.inj h
    exact absurd (by decide) hc

/-- The quote at the end of an interpreted literal is not mistaken for one inside it. -/
theorem flatMap_escape_append_inj
    (h : cs.flatMap escape ++ '"' :: rest = ds.flatMap escape ++ '"' :: rest') :
    cs = ds ∧ rest = rest' := by
  induction cs generalizing ds with
  | nil =>
    cases ds with
    | nil => exact ⟨rfl, (List.cons.inj h).2⟩
    | cons d ds =>
      rw [List.flatMap_cons, List.append_assoc] at h
      exact absurd h.symm (escape_append_ne d)
  | cons c cs ih =>
    rw [List.flatMap_cons, List.append_assoc] at h
    cases ds with
    | nil => exact absurd h (escape_append_ne c)
    | cons d ds =>
      rw [List.flatMap_cons, List.append_assoc] at h
      obtain ⟨rfl, htail⟩ := escape_append_inj h
      obtain ⟨rfl, hrest⟩ := ih htail
      exact ⟨rfl, hrest⟩

theorem tagValue_injective : Function.Injective tagValue := by
  intro key key' h
  have hchars := congrArg String.toList h
  exact String.toList_inj.1 (by simpa [tagValue] using hchars)

theorem toList_tag_interpreted {key : String} (h : backquote ∈ (tagValue key).toList) :
    (tag key).toList = '"' :: ((tagValue key).toList.flatMap escape ++ ['"']) := by
  unfold tag
  rw [if_pos (List.contains_iff_mem.2 h), String.toList_ofList, List.cons_append]

theorem toList_tag_raw {key : String} (h : backquote ∉ (tagValue key).toList) :
    (tag key).toList = backquote :: ((tagValue key).toList ++ [backquote]) := by
  unfold tag
  rw [if_neg fun hmem => h (List.contains_iff_mem.1 hmem), String.toList_ofList, List.cons_append]

/-- A tag tells where it ends, and its key. -/
theorem tag_append_inj {key key' : String}
    (h : (tag key).toList ++ rest = (tag key').toList ++ rest') : key = key' ∧ rest = rest' := by
  have hkey : ∀ {cs ds : List Char}, (tagValue key).toList = (tagValue key').toList ∧ cs = ds →
      key = key' ∧ cs = ds :=
    And.imp_left fun hvalue => tagValue_injective (String.toList_inj.1 hvalue)
  by_cases hmark : backquote ∈ (tagValue key).toList <;>
    by_cases hmark' : backquote ∈ (tagValue key').toList
  · rw [toList_tag_interpreted hmark, toList_tag_interpreted hmark', List.cons_append,
      List.cons_append, List.append_assoc, List.append_assoc] at h
    exact hkey (flatMap_escape_append_inj (List.cons.inj h).2)
  · rw [toList_tag_interpreted hmark, toList_tag_raw hmark'] at h
    exact absurd (List.cons.inj h).1 (by decide)
  · rw [toList_tag_raw hmark, toList_tag_interpreted hmark'] at h
    exact absurd (List.cons.inj h).1 (by decide)
  · rw [toList_tag_raw hmark, toList_tag_raw hmark', List.cons_append, List.cons_append,
      List.append_assoc, List.append_assoc] at h
    exact hkey (append_cons_inj hmark hmark' (List.cons.inj h).2)

/-! ## The forms of type expressions -/

/-- The forms of type expressions. -/
inductive Form where
  /-- The word for any value. -/
  | any
  /-- The word for truth values. -/
  | bool
  /-- The word for integers. -/
  | integer
  /-- The word for other numbers. -/
  | float
  /-- The word for strings. -/
  | string
  /-- A list of something. -/
  | slice
  /-- A struct without fields. -/
  | empty
  /-- A struct with fields. -/
  | struct
deriving DecidableEq

namespace Form

/-- What stands at the start of an expression. -/
def opening : Form → String
  | any => "interface\x7b\x7d"
  | bool => "bool"
  | integer => "int"
  | float => "float64"
  | string => "string"
  | slice => "[]"
  | empty => "struct\x7b\x7d"
  | struct => "struct \x7b\n"

/-- Whether an expression goes on behind its opening. -/
def goesOn : Form → Bool
  | slice | struct => true
  | _ => false

/-- The openings of an expression, each with the white space that may follow if it is all of it. -/
def starts (form : Form) : List (List Char) :=
  if form.goesOn then [form.opening.toList]
  else [form.opening.toList ++ [' '], form.opening.toList ++ ['\n']]

/-- No form starts like another one. -/
theorem eq_of_starts_prefix : ∀ form form' : Form, ∀ start ∈ form.starts, ∀ start' ∈ form'.starts,
    start <+: start' → form = form' := by
  intro form form'
  cases form <;> cases form' <;> decide +kernel

end Form

/-- The form of an expression. -/
def form : Shape → Form
  | .any => .any
  | .bool => .bool
  | .integer => .integer
  | .float => .float
  | .string => .string
  | .slice _ => .slice
  | .struct [] => .empty
  | .struct (_ :: _) => .struct

/-- A text that begins with the white space behind a type expression. -/
def Spaced (rest : List Char) : Prop := ∃ after, rest = ' ' :: after ∨ rest = '\n' :: after

/-- The form of an expression shows in its first characters. -/
theorem opening_append_inj {form form' : Form} (hrest : form.goesOn = false → Spaced rest)
    (hrest' : form'.goesOn = false → Spaced rest')
    (h : form.opening.toList ++ rest = form'.opening.toList ++ rest') :
    form = form' ∧ rest = rest' := by
  have hstart : ∀ {form : Form} {rest : List Char}, (form.goesOn = false → Spaced rest) →
      ∃ start ∈ form.starts, start <+: form.opening.toList ++ rest := by
    intro form rest hrest
    unfold Form.starts
    cases hform : form.goesOn with
    | true => exact ⟨_, List.mem_singleton_self _, List.prefix_append _ _⟩
    | false =>
      obtain ⟨after, rfl | rfl⟩ := hrest hform
      · exact ⟨_, List.mem_cons_self, after, List.append_assoc _ _ _⟩
      · exact ⟨_, List.mem_cons_of_mem _ (List.mem_singleton_self _), after,
          List.append_assoc _ _ _⟩
  obtain ⟨start, hmem, hprefix⟩ := hstart hrest
  obtain ⟨start', hmem', hprefix'⟩ := hstart hrest'
  rw [h] at hprefix
  have hform : form = form' := by
    rcases List.prefix_or_prefix_of_prefix hprefix hprefix' with hle | hle
    · exact Form.eq_of_starts_prefix form form' start hmem start' hmem' hle
    · exact (Form.eq_of_starts_prefix form' form start' hmem' start hmem hle).symm
  subst hform
  exact ⟨rfl, List.append_cancel_left h⟩

/-! ## Type expressions -/

/-- What stands behind the opening of an expression. -/
def remainder (depth : Nat) : Shape → String
  | .slice element => typeExpr depth element
  | .struct (field :: fields) =>
    typeExpr.fieldLines (depth + 1) (field :: fields) ++ indent depth ++ "\x7d"
  | _ => ""

theorem typeExpr_eq (depth : Nat) (shape : Shape) :
    typeExpr depth shape = (form shape).opening ++ remainder depth shape := by
  cases shape with
  | struct fields =>
    cases fields with
    | nil => rfl
    | cons field fields =>
      simp only [typeExpr, List.isEmpty_cons, Bool.false_eq_true, if_false, form, Form.opening,
        remainder, String.append_assoc]
  | slice element => rfl
  | _ => rfl

theorem remainder_eq_empty {shape : Shape} (h : (form shape).goesOn = false) (depth : Nat) :
    remainder depth shape = "" := by
  cases shape with
  | slice => cases h
  | struct fields =>
    cases fields with
    | nil => rfl
    | cons => cases h
  | _ => rfl

theorem toList_remainder_struct (depth : Nat) (field : Field Shape) (fields : List (Field Shape)) :
    (remainder depth (.struct (field :: fields))).toList =
      (typeExpr.fieldLines (depth + 1) (field :: fields)).toList ++ (indent depth).toList ++
        ['}'] := by
  rw [remainder, String.toList_append, String.toList_append]
  rfl

/-- The line of a field and those behind it. -/
theorem toList_fieldLines_cons (depth : Nat) (field : Field Shape) (fields : List (Field Shape)) :
    (typeExpr.fieldLines depth (field :: fields)).toList = List.replicate depth '\t' ++
      (field.ident.toList ++ ' ' :: ((typeExpr depth field.value).toList ++ ' ' ::
        ((tag field.key).toList ++ '\n' :: (typeExpr.fieldLines depth fields).toList))) := by
  simp [typeExpr.fieldLines, indent]

/-- The form of a type expression shows, and so does where its opening ends. -/
theorem form_eq_of_append {depth : Nat} {shape shape' : Shape} (hrest : Spaced rest)
    (hrest' : Spaced rest')
    (h : (typeExpr depth shape).toList ++ rest = (typeExpr depth shape').toList ++ rest') :
    form shape = form shape' ∧
      (remainder depth shape).toList ++ rest = (remainder depth shape').toList ++ rest' := by
  have hspaced : ∀ {shape : Shape} {rest : List Char}, Spaced rest → (form shape).goesOn = false →
      Spaced ((remainder depth shape).toList ++ rest) := by
    intro shape rest hrest hform
    rwa [remainder_eq_empty hform, String.toList_empty, List.nil_append]
  rw [typeExpr_eq, typeExpr_eq, String.toList_append, String.toList_append, List.append_assoc,
    List.append_assoc] at h
  exact opening_append_inj (hspaced hrest) (hspaced hrest') h

theorem eq_slice_of_form {shape : Shape} (h : form shape = .slice) :
    ∃ element, shape = .slice element := by
  cases shape with
  | slice element => exact ⟨element, rfl⟩
  | struct fields => cases fields <;> cases h
  | _ => cases h

theorem eq_struct_of_form {shape : Shape} (h : form shape = .struct) :
    ∃ fields, shape = .struct fields ∧ fields ≠ [] := by
  cases shape with
  | struct fields =>
    cases fields with
    | nil => cases h
    | cons field fields => exact ⟨_, rfl, List.cons_ne_nil _ _⟩
  | _ => cases h

/-- A shape whose expression does not go on has no parts but its form. -/
theorem eq_of_form_eq {shape shape' : Shape} (h : form shape = form shape')
    (hform : (form shape).goesOn = false) : shape = shape' := by
  have hempty : ∀ {shape : Shape}, form shape = .empty → shape = .struct [] := by
    intro shape h
    cases shape with
    | struct fields =>
      cases fields with
      | nil => rfl
      | cons => cases h
    | _ => cases h
  cases shape with
  | slice => cases hform
  | struct fields =>
    cases fields with
    | nil => exact (hempty h.symm).symm
    | cons => cases hform
  | _ =>
    cases shape' with
    | struct fields => cases fields <;> cases h
    | _ => first | rfl | cases h

/-- No name in a shape holds a blank. -/
def Legible (shape : Shape) : Prop :=
  ∀ field, shape.HasField field → ' ' ∉ field.ident.toList

theorem Legible.slice {element : Shape} (h : Legible (.slice element)) : Legible element :=
  fun field hfield => h field (.element hfield)

theorem Legible.struct {field : Field Shape} {fields : List (Field Shape)}
    (h : Legible (.struct (field :: fields))) :
    ' ' ∉ field.ident.toList ∧ Legible field.value ∧ Legible (.struct fields) := by
  refine ⟨h field (.own List.mem_cons_self), fun inner hinner => ?_, fun inner hinner => ?_⟩
  · exact h inner (.inner List.mem_cons_self hinner)
  · cases hinner with
    | own hmem => exact h inner (.own (List.mem_cons_of_mem _ hmem))
    | inner houter hinner => exact h inner (.inner (List.mem_cons_of_mem _ houter) hinner)

/-- Indentation, and the brace that ends a struct against the name of a field one step deeper. -/
theorem brace_ne_fieldLines (depth : Nat) (field : Field Shape) (fields : List (Field Shape)) :
    (indent depth).toList ++ '}' :: rest ≠
      (typeExpr.fieldLines (depth + 1) (field :: fields)).toList ++ rest' := by
  rw [toList_fieldLines_cons, List.replicate_succ', List.append_assoc, List.append_assoc, indent,
    String.toList_ofList]
  intro h
  exact absurd (List.cons.inj (List.append_cancel_left h)).1 (by decide)

-- The recursion is that of the writer, on one of the two shapes.  What follows stays open on both
-- sides, so that the parts of a struct can be taken off one after the other.
mutual

/-- A type expression tells where it ends, and its shape. -/
theorem typeExpr_append_inj : ∀ (shape : Shape) ⦃shape' : Shape⦄ ⦃depth : Nat⦄
    ⦃rest rest' : List Char⦄, Legible shape → Legible shape' → Spaced rest → Spaced rest' →
    (typeExpr depth shape).toList ++ rest = (typeExpr depth shape').toList ++ rest' →
    shape = shape' ∧ rest = rest'
  | .slice element => by
    intro shape' depth rest rest' hlegible hlegible' hrest hrest' h
    obtain ⟨hform, hbehind⟩ := form_eq_of_append hrest hrest' h
    obtain ⟨element', rfl⟩ := eq_slice_of_form hform.symm
    obtain ⟨rfl, heq⟩ := typeExpr_append_inj element hlegible.slice hlegible'.slice hrest hrest'
      hbehind
    exact ⟨rfl, heq⟩
  | .struct (field :: fields) => by
    intro shape' depth rest rest' hlegible hlegible' hrest hrest' h
    obtain ⟨hform, hbehind⟩ := form_eq_of_append hrest hrest' h
    obtain ⟨fields', rfl, hne⟩ := eq_struct_of_form hform.symm
    obtain ⟨field', fields', rfl⟩ := List.exists_cons_of_ne_nil hne
    rw [toList_remainder_struct, toList_remainder_struct, List.append_assoc, List.append_assoc,
      List.append_assoc, List.append_assoc] at hbehind
    obtain ⟨heq, hrest⟩ := fieldLines_append_inj (field :: fields) hlegible hlegible' hbehind
    exact ⟨congrArg Shape.struct heq, hrest⟩
  | .any | .bool | .integer | .float | .string | .struct [] => by
    intro shape' depth rest rest' hlegible hlegible' hrest hrest' h
    obtain ⟨hform, -⟩ := form_eq_of_append hrest hrest' h
    obtain rfl := eq_of_form_eq hform rfl
    exact ⟨rfl, List.append_cancel_left h⟩

/-- The fields of a struct tell where they end, and what they are. -/
theorem fieldLines_append_inj : ∀ (fields : List (Field Shape)) ⦃fields' : List (Field Shape)⦄
    ⦃depth : Nat⦄ ⦃rest rest' : List Char⦄, Legible (.struct fields) → Legible (.struct fields') →
    (typeExpr.fieldLines (depth + 1) fields).toList ++ ((indent depth).toList ++ '}' :: rest) =
      (typeExpr.fieldLines (depth + 1) fields').toList ++ ((indent depth).toList ++ '}' :: rest') →
    fields = fields' ∧ rest = rest'
  | [] => by
    intro fields' depth rest rest' hlegible hlegible' h
    cases fields' with
    | nil => exact ⟨rfl, (List.cons.inj (List.append_cancel_left h)).2⟩
    | cons field' fields' => exact absurd h (brace_ne_fieldLines depth field' fields')
  | ⟨ident, key, shape⟩ :: fields => by
    intro fields' depth rest rest' hlegible hlegible' h
    cases fields' with
    | nil => exact absurd h.symm (brace_ne_fieldLines depth ⟨ident, key, shape⟩ fields)
    | cons field' fields' =>
      obtain ⟨ident', key', shape'⟩ := field'
      obtain ⟨hident, hshape, hfields⟩ := hlegible.struct
      obtain ⟨hident', hshape', hfields'⟩ := hlegible'.struct
      simp only [toList_fieldLines_cons, List.append_assoc, List.cons_append] at h
      obtain ⟨hname, hbehindName⟩ := append_cons_inj hident hident' (List.append_cancel_left h)
      obtain ⟨rfl, hbehindType⟩ := typeExpr_append_inj shape hshape hshape' ⟨_, .inl rfl⟩
        ⟨_, .inl rfl⟩ hbehindName
      obtain ⟨rfl, hbehindTag⟩ := tag_append_inj (List.cons.inj hbehindType).2
      obtain ⟨rfl, hrest⟩ := fieldLines_append_inj fields hfields hfields'
        (List.cons.inj hbehindTag).2
      obtain rfl := String.toList_inj.1 hname
      exact ⟨rfl, hrest⟩

end

/-! ## Files -/

theorem packageClause_some_append (name : String) (rest : List Char) :
    (packageClause (some name)).toList ++ rest =
      "package ".toList ++ (name.toList ++ '\n' :: '\n' :: rest) := by
  simp [packageClause]

/-- The clause at the head of a file is told from the declaration behind it. -/
theorem packageClause_append_inj {package package' : Option String}
    (hpackage : ∀ name ∈ package, '\n' ∉ name.toList)
    (hpackage' : ∀ name ∈ package', '\n' ∉ name.toList)
    (h : (packageClause package).toList ++ 't' :: rest =
      (packageClause package').toList ++ 't' :: rest') :
    package = package' ∧ rest = rest' := by
  have hne : ∀ (name : String) {rest rest' : List Char},
      (packageClause (some name)).toList ++ rest ≠ 't' :: rest' := by
    intro name rest rest' h
    rw [packageClause_some_append] at h
    exact absurd (List.cons.inj h).1 (by decide)
  cases package with
  | none =>
    cases package' with
    | none => exact ⟨rfl, (List.cons.inj h).2⟩
    | some name' => exact absurd h.symm (hne name')
  | some name =>
    cases package' with
    | none => exact absurd h (hne name)
    | some name' =>
      rw [packageClause_some_append, packageClause_some_append] at h
      obtain ⟨hname, hrest⟩ := append_cons_inj (hpackage name rfl) (hpackage' name' rfl)
        (List.append_cancel_left h)
      rw [String.toList_inj.1 hname]
      exact ⟨rfl, (List.cons.inj (List.cons.inj hrest).2).2⟩

end Declaration

namespace Shape

open Declaration

/-- The names in the shape of a document are claimed, so no blank is in them. -/
theorem legible_of_ofRoot {root : Node} {shape : Shape} (h : ofRoot root = .ok shape) :
    Legible shape := by
  intro field hfield
  rw [eq_ofGroup_of_ofRoot h] at hfield
  obtain ⟨taken, hclaim⟩ := exists_claim_of_hasField [root] hfield
  rw [hclaim]
  exact (Naming.unspaced_claim taken field.key).not_mem rfl

theorem toList_declaration (shape : Shape) (options : Options) :
    (shape.declaration options).toList = (packageClause options.package).toList ++
      't' :: ("ype ".toList ++ (options.typeName.toList ++
        ' ' :: ((typeExpr 0 shape).toList ++ ['\n']))) := by
  simp [declaration]

/-- Nothing is lost in writing a declaration.  The shapes of two documents, under whatever options,
are declared alike only if they are the same shape with the same names and keys, and the types are
named alike in the same package. -/
theorem declaration_eq_iff {root root' : Node} {shape shape' : Shape} {options options' : Options}
    (hshape : ofRoot root = .ok shape) (hshape' : ofRoot root' = .ok shape')
    (hoptions : options.Chosen) (hoptions' : options'.Chosen) :
    shape.declaration options = shape'.declaration options' ↔
      shape = shape' ∧ options.typeName = options'.typeName ∧
        options.package = options'.package := by
  constructor
  · intro h
    have hpackage : ∀ {options : Options}, options.Chosen → ∀ name ∈ options.package,
        '\n' ∉ name.toList :=
      fun hoptions name hname => (hoptions.unspaced.2 name hname).not_mem rfl
    have hchars := congrArg String.toList h
    rw [toList_declaration, toList_declaration] at hchars
    obtain ⟨hpackage, hbehind⟩ := packageClause_append_inj (hpackage hoptions) (hpackage hoptions')
      hchars
    obtain ⟨hname, hexpr⟩ := append_cons_inj (hoptions.unspaced.1.not_mem rfl)
      (hoptions'.unspaced.1.not_mem rfl) (List.append_cancel_left hbehind)
    obtain ⟨hshapes, -⟩ := typeExpr_append_inj shape (legible_of_ofRoot hshape)
      (legible_of_ofRoot hshape') ⟨[], .inr rfl⟩ ⟨[], .inr rfl⟩ hexpr
    exact ⟨hshapes, String.toList_inj.1 hname, hpackage⟩
  · rintro ⟨rfl, hname, hpackage⟩
    rw [declaration, declaration, hname, hpackage]

theorem ofRoot_push_ab_twice :
    ofRoot (.object ((Members.empty.push "ab" (.primitive .bool)).push "ab" (.primitive .bool))) =
      .ok (.struct [⟨"Ab", "ab", .bool⟩]) := by
  have hname : Naming.claim [] "ab" = "Ab" := by decide +kernel
  have hfields : ofGroup [.object
      ((Members.empty.push "ab" (.primitive .bool)).push "ab" (.primitive .bool))] =
      .struct (Naming.fields [("ab", ofGroup [.primitive .bool, .primitive .bool])]) :=
    ofGroup_of_object rfl
  have hbool : ofGroup [.primitive .bool, .primitive .bool] = .bool := by
    rw [ofGroup_of_primitive rfl]
    rfl
  rw [hbool, Naming.fields, Naming.fieldsFrom, Naming.fieldsFrom, hname] at hfields
  exact congrArg Except.ok hfields

/-- One truth value and two of them under a key, declared under names that become the same one, and
under names that do not. -/
theorem declaration_eq_iff_ab :
    ofRoot (.object (Members.empty.push "ab" (.primitive .bool))) =
        .ok (.struct [⟨"Ab", "ab", .bool⟩]) ∧
      ofRoot (.object ((Members.empty.push "ab" (.primitive .bool)).push "ab" (.primitive .bool))) =
        .ok (.struct [⟨"Ab", "ab", .bool⟩]) ∧
      (Options.default.withTypeName "a-b").Chosen ∧ (Options.default.withTypeName "a b").Chosen ∧
      declaration (.struct [⟨"Ab", "ab", .bool⟩]) (Options.default.withTypeName "a-b") =
        declaration (.struct [⟨"Ab", "ab", .bool⟩]) (Options.default.withTypeName "a b") ∧
      declaration (.struct [⟨"Ab", "ab", .bool⟩]) (Options.default.withTypeName "a-b") ≠
        declaration (.struct [⟨"Ab", "ab", .bool⟩]) Options.default := by
  have hsame : Naming.identifier "a-b" = Naming.identifier "a b" := by decide +kernel
  have hother : Naming.identifier "a-b" ≠ "JSONToStruct" := by decide +kernel
  refine ⟨Naming.ofRoot_push_ab, ofRoot_push_ab_twice, .withTypeName .default "a-b",
    .withTypeName .default "a b", ?_, fun h => ?_⟩
  · exact (declaration_eq_iff Naming.ofRoot_push_ab ofRoot_push_ab_twice
      (.withTypeName .default "a-b") (.withTypeName .default "a b")).2 ⟨rfl, hsame, rfl⟩
  · exact hother ((declaration_eq_iff Naming.ofRoot_push_ab ofRoot_push_ab_twice
      (.withTypeName .default "a-b") .default).1 h).2.1

end Shape

end JsonShape
