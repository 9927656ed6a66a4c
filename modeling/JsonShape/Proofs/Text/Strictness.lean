import JsonShape.Proofs.Text.Reordering
import JsonShape.Proofs.Token.Lexable

/-!
# Texts that are read, and JSON texts

More texts are read than JSON has.  A number may have any signs before its digits and any run of
number characters behind them, and the characters between the quotes of a string are not looked at.
That is all: a text that is read is a JSON text exactly if its numbers and strings are.

* `Token.IsStrict` — a token that is written as JSON has it.
* `LaidOut`, `writesValue` — a text laid out as the tokens of a derivation is written as a value, if
  they are strict.
* `Value.cutStrictly`, `JsonText.isStrict` — the tokens of a JSON text are strict.
* `jsonText_iff_isStrict` — the JSON texts among those that are read.
* `generate_lax` — whatever number or string is not strict, it makes a text that is read and is no
  JSON text.
-/

namespace JsonShape

/-! ## Strict tokens -/

/-- What may be written for a token of a kind, as JSON has it.  Only the texts of numbers and
strings are of interest, since other tokens are written in one way. -/
def Text.StrictText : Token.Kind → List Char → Prop
  | .integer, cs => Number .integer cs
  | .float, cs => Number .float cs
  | .string, cs => Chars cs
  | _, _ => True

/-- A token that is written as JSON has it. -/
def Token.IsStrict (t : Token) : Prop := Text.StrictText t.kind t.text.toList

/-- Only numbers and strings may be written otherwise. -/
theorem Token.kind_of_not_isStrict {t : Token} (h : ¬ t.IsStrict) :
    t.kind = .integer ∨ t.kind = .float ∨ t.kind = .string := by
  unfold IsStrict Text.StrictText at h
  split at h <;> simp_all

namespace Token

variable {kind : Kind} {text whole : List Char}

/-! ### How tokens are written -/

/-- A mark is written as the character that it is. -/
theorem Spelling.eq_mark {c : Char} (hc : Kind.ofPunctuation? c = some kind)
    (h : Spelling kind text whole) : whole = [c] := by
  have hlexeme := h.isLexeme
  unfold Kind.ofPunctuation? at hc
  split_ifs at hc <;> cases hc <;> cases hlexeme <;> simp_all

/-- A string is written as its text in quotes. -/
theorem Spelling.eq_quoted (h : Spelling .string text whole) : whole = Text.quoted text := by
  generalize hkind : Kind.string = kind at h
  cases h with
  | punctuation h => exact absurd hkind.symm (kind_of_ofPunctuation? h).1
  | word word => cases word <;> cases hkind
  | string => rfl
  | integer => cases hkind
  | float => cases hkind

/-- A number is written as its text. -/
theorem Spelling.eq_number (h : Spelling kind text whole)
    (hkind : kind = .integer ∨ kind = .float) : whole = text := by
  cases h with
  | string => simp at hkind
  | _ => rfl

theorem Spelling.eq_null (h : Spelling .null text whole) : whole = ['n', 'u', 'l', 'l'] := by
  cases h.isLexeme with
  | nullWord => decide
  | number hkind => simp at hkind

theorem Spelling.eq_bool (h : Spelling .bool text whole) :
    whole = ['t', 'r', 'u', 'e'] ∨ whole = ['f', 'a', 'l', 's', 'e'] := by
  cases h.isLexeme with
  | trueWord => exact .inl (by decide)
  | falseWord => exact .inr (by decide)
  | number hkind => simp at hkind

end Token

namespace Text

open Token (Spelling Stops isBlank Scan)

/-! ## Layouts -/

theorem blanks_of_isBlank {cs : List Char} (h : ∀ c ∈ cs, isBlank c = true) : Blanks cs := by
  intro c hc
  simpa [isBlank, or_assoc] using h c hc

/-- A text is laid out as some tokens with blanks between them; `last` is the token that ends it. -/
def LaidOut (last : Token) (cs : List Char) (ts : List Token) : Prop :=
  ∃ offset edge, Scan offset cs ts edge last

namespace LaidOut

variable {last t : Token} {cs : List Char} {ts : List Token}

/-- The first token of a layout has a spelling, with blanks before it. -/
theorem of_cons (h : LaidOut last cs (t :: ts)) :
    ∃ blank whole rest, cs = blank ++ (whole ++ rest) ∧ Blanks blank ∧
      Spelling t.kind t.text.toList whole ∧ LaidOut last rest ts := by
  obtain ⟨offset, edge, h⟩ := h
  cases h with
  | token hblank hspelling hends hrest =>
    refine ⟨_, _, _, rfl, blanks_of_isBlank hblank, ?_, _, _, hrest⟩
    rwa [Token.Lexeme.token, String.toList_ofList]

/-- A mark at the start of a layout. -/
theorem of_mark (c : Char) {kind : Token.Kind} {t : Token.Of kind}
    (hc : Token.Kind.ofPunctuation? c = some kind) (h : LaidOut last cs (t.1 :: ts)) :
    ∃ blank rest, cs = blank ++ c :: rest ∧ Blanks blank ∧ LaidOut last rest ts := by
  obtain ⟨blank, whole, rest, rfl, hblank, hspelling, hrest⟩ := h.of_cons
  rw [t.2] at hspelling
  rw [hspelling.eq_mark hc]
  exact ⟨blank, rest, rfl, hblank, hrest⟩

end LaidOut

/-! ## Strict tokens are written as values -/

theorem Mark.behind {blank : List Char} (h : Blanks blank) (c : Char) : Mark c (blank ++ [c]) :=
  .around h (List.forall_mem_nil _)

theorem Mark.ahead {blank : List Char} (h : Blanks blank) (c : Char) : Mark c (c :: blank) :=
  @Mark.around c [] blank (List.forall_mem_nil _) h

/-- A token that stands for a primitive value is written as one, if it is strict. -/
theorem value_of_spelling {type : Primitive} {t : Token.Of (Token.kindOf type)} {whole : List Char}
    (h : Spelling t.1.kind t.1.text.toList whole) (strict : t.1.IsStrict) :
    Value whole (.primitive type) 0 := by
  rw [t.2] at h
  rw [Token.IsStrict, t.2] at strict
  cases type with
  | string => exact h.eq_quoted ▸ .string strict
  | bool =>
    rcases h.eq_bool with rfl | rfl
    · exact .true
    · exact .false
  | integer => exact h.eq_number (.inl rfl) ▸ .number strict
  | float => exact h.eq_number (.inr rfl) ▸ .number strict
  | null => exact h.eq_null ▸ .null

/-- Wherever the tokens of a derivation begin a layout, and all of them are strict, the text begins
with blanks and a value that is assigned the tree of the derivation. -/
def WritesValue (d : Derivation) : Prop :=
  ∀ ⦃last : Token⦄ ⦃cs : List Char⦄ ⦃ts : List Token⦄, LaidOut last cs (d.tokens ++ ts) →
    (∀ t ∈ d.tokens, t.IsStrict) →
      ∃ before vs after, cs = before ++ (vs ++ after) ∧ Blanks before ∧
        Value vs d.node d.nesting ∧ LaidOut last after ts

/-- A key, a colon and a value are written as a member. -/
theorem WritesValue.member {value : Derivation} (hvalue : WritesValue value)
    (key : Token.Of .string) (colon : Token.Of .colon) {last : Token} {cs : List Char}
    {ts : List Token} (h : LaidOut last cs (key.1 :: colon.1 :: (value.tokens ++ ts)))
    (hkey : key.1.IsStrict) (strict : ∀ t ∈ value.tokens, t.IsStrict) :
    ∃ before member after, cs = before ++ (member ++ after) ∧ Blanks before ∧
      Member member (key.1.text, value.node) value.nesting ∧ LaidOut last after ts := by
  obtain ⟨before, whole, afterKey, rfl, hbefore, hspelling, h⟩ := h.of_cons
  obtain ⟨front, afterColon, rfl, hfront, h⟩ := h.of_mark ':' rfl
  obtain ⟨back, vs, after, rfl, hback, hvs, h⟩ := hvalue h strict
  rw [key.2] at hspelling
  rw [Token.IsStrict, key.2] at hkey
  have hmember := Member.named hkey (.around hfront hback) hvs
  rw [String.ofList_toList, ← hspelling.eq_quoted] at hmember
  exact ⟨before, _, after, by simp, hbefore, hmember, h⟩

-- Every mark takes the blanks on both sides of it along; only those before a value as a whole are
-- left over for the mark before it.
mutual

/-- What derives from strict tokens is written as a value. -/
theorem writesValue (d : Derivation) : WritesValue d := by
  intro last cs ts h strict
  cases d with
  | primitive type t =>
    obtain ⟨before, whole, after, rfl, hbefore, hspelling, h⟩ := h.of_cons
    have hvalue := value_of_spelling hspelling (strict t.1 List.mem_cons_self)
    exact ⟨before, whole, after, rfl, hbefore, hvalue, h⟩
  | emptyObject opening closing =>
    obtain ⟨before, _, rfl, hbefore, h⟩ := h.of_mark '\x7b' rfl
    obtain ⟨front, after, rfl, hfront, h⟩ := h.of_mark '\x7d' rfl
    have hvalue := Value.emptyObject (.bare '\x7b') (.behind hfront '\x7d')
    exact ⟨before, _, after, by simp, hbefore, hvalue, h⟩
  | object opening key colon value more closing =>
    simp only [Derivation.tokens, List.forall_mem_cons, List.forall_mem_append] at strict
    obtain ⟨-, hkey, -, hvalue, hmore, -⟩ := strict
    simp only [Derivation.tokens, List.cons_append, List.append_assoc] at h
    obtain ⟨before, _, rfl, hbefore, h⟩ := h.of_mark '\x7b' rfl
    obtain ⟨back, member, _, rfl, hback, hmember, h⟩ :=
      (writesValue value).member key colon h hkey hvalue
    obtain ⟨others, _, rfl, hmembers, h⟩ := exists_members more hmember h hmore
    obtain ⟨front, after, rfl, hfront, h⟩ := h.of_mark '\x7d' rfl
    have hobject := Value.object (.ahead hback '\x7b') hmembers (.behind hfront '\x7d')
    exact ⟨before, _, after, by simp, hbefore, hobject, h⟩
  | emptyArray opening closing =>
    obtain ⟨before, _, rfl, hbefore, h⟩ := h.of_mark '[' rfl
    obtain ⟨front, after, rfl, hfront, h⟩ := h.of_mark ']' rfl
    have hvalue := Value.emptyArray (.bare '[') (.behind hfront ']')
    exact ⟨before, _, after, by simp, hbefore, hvalue, h⟩
  | array opening value more closing =>
    simp only [Derivation.tokens, List.forall_mem_cons, List.forall_mem_append] at strict
    obtain ⟨-, hvalue, hmore, -⟩ := strict
    simp only [Derivation.tokens, List.cons_append, List.append_assoc] at h
    obtain ⟨before, _, rfl, hbefore, h⟩ := h.of_mark '[' rfl
    obtain ⟨back, element, _, rfl, hback, helement, h⟩ := writesValue value h hvalue
    obtain ⟨others, _, rfl, helements, h⟩ := exists_elements more helement h hmore
    obtain ⟨front, after, rfl, hfront, h⟩ := h.of_mark ']' rfl
    have harray := Value.array (.ahead hback '[') helements (.behind hfront ']')
    exact ⟨before, _, after, by simp, hbefore, harray, h⟩

/-- What derives from strict tokens behind a member is written as further members. -/
theorem exists_members (m : MoreMembers) {member : List Char} {pair : String × Node} {depth : Nat}
    (hmember : Member member pair depth) {last : Token} {cs : List Char} {ts : List Token}
    (h : LaidOut last cs (m.tokens ++ ts)) (strict : ∀ t ∈ m.tokens, t.IsStrict) :
    ∃ others after, cs = others ++ after ∧
      Members (member ++ others) (pair :: m.pairs) (max depth m.nesting) ∧
        LaidOut last after ts := by
  cases m with
  | none =>
    refine ⟨[], cs, rfl, ?_, h⟩
    rw [List.append_nil, MoreMembers.pairs, MoreMembers.nesting, Nat.max_zero]
    exact .last hmember
  | next comma key colon value more =>
    simp only [MoreMembers.tokens, List.forall_mem_cons, List.forall_mem_append] at strict
    obtain ⟨-, hkey, -, hvalue, hmore⟩ := strict
    simp only [MoreMembers.tokens, List.cons_append, List.append_assoc] at h
    obtain ⟨front, _, rfl, hfront, h⟩ := h.of_mark ',' rfl
    obtain ⟨back, next, _, rfl, hback, hnext, h⟩ :=
      (writesValue value).member key colon h hkey hvalue
    obtain ⟨others, after, rfl, hmembers, h⟩ := exists_members more hnext h hmore
    exact ⟨_, after, by simp, .more hmember (.around hfront hback) hmembers, h⟩

/-- What derives from strict tokens behind an element is written as further elements. -/
theorem exists_elements (m : MoreElements) {element : List Char} {node : Node} {depth : Nat}
    (helement : Value element node depth) {last : Token} {cs : List Char} {ts : List Token}
    (h : LaidOut last cs (m.tokens ++ ts)) (strict : ∀ t ∈ m.tokens, t.IsStrict) :
    ∃ others after, cs = others ++ after ∧
      Elements (element ++ others) (node :: m.nodes) (max depth m.nesting) ∧
        LaidOut last after ts := by
  cases m with
  | none =>
    refine ⟨[], cs, rfl, ?_, h⟩
    rw [List.append_nil, MoreElements.nodes, MoreElements.nesting, Nat.max_zero]
    exact .last helement
  | next comma value more =>
    simp only [MoreElements.tokens, List.forall_mem_cons, List.forall_mem_append] at strict
    obtain ⟨-, hvalue, hmore⟩ := strict
    simp only [MoreElements.tokens, List.cons_append, List.append_assoc] at h
    obtain ⟨front, _, rfl, hfront, h⟩ := h.of_mark ',' rfl
    obtain ⟨back, next, _, rfl, hback, hnext, h⟩ := writesValue value h hvalue
    obtain ⟨others, after, rfl, helements, h⟩ := exists_elements more hnext h hmore
    exact ⟨_, after, by simp, .more helement (.around hfront hback) helements, h⟩

end

/-! ## Values are written with strict tokens -/

/-- A part of a text with `rest` behind it is cut into strict tokens. -/
def CutStrictly (cs rest : List Char) : Prop :=
  ∀ offset, ∃ ts, Token.Cut offset cs rest ts ∧ ∀ t ∈ ts, t.IsStrict

namespace CutStrictly

variable {xs ys rest : List Char}

theorem append (hxs : CutStrictly xs (ys ++ rest)) (hys : CutStrictly ys rest) :
    CutStrictly (xs ++ ys) rest := by
  intro offset
  obtain ⟨ts, hts, strict⟩ := hxs offset
  obtain ⟨us, hus, strict'⟩ := hys (offset + Token.byteLength xs)
  exact ⟨ts ++ us, hts.append hus, List.forall_mem_append.2 ⟨strict, strict'⟩⟩

theorem of_blanks {blank : List Char} (h : Blanks blank) : CutStrictly blank rest :=
  fun offset => ⟨[], Token.cut_blank h.isBlank offset rest, List.forall_mem_nil _⟩

theorem of_spelling {kind : Token.Kind} {text whole : List Char} (h : Spelling kind text whole)
    (hends : kind.EndsAt rest) (strict : StrictText kind text) : CutStrictly whole rest := by
  refine fun offset => ⟨_, Token.cut_spelling h hends offset, List.forall_mem_singleton.2 ?_⟩
  rwa [Token.IsStrict, Token.Lexeme.token, String.toList_ofList]

theorem of_mark {c : Char} {kind : Token.Kind} {cs : List Char} (h : Mark c cs)
    (hkind : Token.Kind.ofPunctuation? c = some kind) : CutStrictly cs rest := by
  intro offset
  obtain ⟨t, hcut⟩ := h.exists_cut hkind offset rest
  refine ⟨_, hcut, List.forall_mem_singleton.2 ?_⟩
  obtain ⟨hstring, hinteger, hfloat⟩ := Token.kind_of_ofPunctuation? hkind
  rw [Token.IsStrict, t.2]
  unfold StrictText
  split <;> first | contradiction | trivial

end CutStrictly

theorem Number.strictText {type : Primitive} {cs : List Char} (h : Number type cs) :
    StrictText (Token.kindOf type) cs := by
  cases h with
  | integer hminus hwhole => exact .integer hminus hwhole
  | float hminus hwhole hfrac hexp hne => exact .float hminus hwhole hfrac hexp hne

mutual

/-- The text of a value is cut into strict tokens. -/
theorem Value.cutStrictly {cs : List Char} {node : Node} {depth : Nat} (h : Value cs node depth)
    {rest : List Char} (hrest : Stops Token.isNumberTail rest) : CutStrictly cs rest := by
  match h with
  | .false =>
    exact .of_spelling (.of_letters Token.spelling_falseWord) (fun _ => hrest) trivial
  | .null => exact .of_spelling (.of_letters Token.spelling_nullWord) (fun _ => hrest) trivial
  | .true => exact .of_spelling (.of_letters Token.spelling_trueWord) (fun _ => hrest) trivial
  | .number h => exact .of_spelling h.spelling (fun _ => hrest) h.strictText
  | .string h => exact .of_spelling (.string h.isBody) (fun _ => hrest) h
  | .emptyObject hopening hclosing | .emptyArray hopening hclosing =>
    exact .append (.of_mark hopening rfl) (.of_mark hclosing rfl)
  | .object hopening hmembers hclosing =>
    exact .append (.of_mark hopening rfl)
      (.append (hmembers.cutStrictly (hclosing.stops rfl rest)) (.of_mark hclosing rfl))
  | .array hopening helements hclosing =>
    exact .append (.of_mark hopening rfl)
      (.append (helements.cutStrictly (hclosing.stops rfl rest)) (.of_mark hclosing rfl))

theorem Member.cutStrictly {cs : List Char} {pair : String × Node} {depth : Nat}
    (h : Member cs pair depth) {rest : List Char} (hrest : Stops Token.isNumberTail rest) :
    CutStrictly cs rest := by
  match h with
  | .named hname hcolon hvalue =>
    have hends : ∀ rest, Token.Kind.EndsAt .string rest := by
      rintro rest (h | h) <;> cases h
    exact .append (.of_spelling (.string hname.isBody) (hends _) hname)
      (.append (.of_mark hcolon rfl) (hvalue.cutStrictly hrest))

theorem Members.cutStrictly {cs : List Char} {pairs : List (String × Node)} {depth : Nat}
    (h : Members cs pairs depth) {rest : List Char} (hrest : Stops Token.isNumberTail rest) :
    CutStrictly cs rest := by
  match h with
  | .last h => exact h.cutStrictly hrest
  | .more h hcomma hothers =>
    exact .append (h.cutStrictly (hcomma.stops_append rfl _ rest))
      (.append (.of_mark hcomma rfl) (hothers.cutStrictly hrest))

theorem Elements.cutStrictly {cs : List Char} {nodes : List Node} {depth : Nat}
    (h : Elements cs nodes depth) {rest : List Char} (hrest : Stops Token.isNumberTail rest) :
    CutStrictly cs rest := by
  match h with
  | .last h => exact h.cutStrictly hrest
  | .more h hcomma hothers =>
    exact .append (h.cutStrictly (hcomma.stops_append rfl _ rest))
      (.append (.of_mark hcomma rfl) (hothers.cutStrictly hrest))

end

/-- The tokens of a JSON text are strict. -/
theorem JsonText.isStrict {json : String} {root : Node} {depth : Nat}
    (h : JsonText json.toList root depth) : ∀ t ∈ tokens json, t.IsStrict := by
  generalize hjson : json.toList = cs at h
  cases h with
  | @container before cs after root depth hbefore hvalue hkind hafter =>
    have hend : Stops Token.isNumberTail (after ++ []) := hafter.stops.append .nil
    have hwhole : CutStrictly (before ++ (cs ++ after)) [] :=
      .append (.of_blanks hbefore) (.append (hvalue.cutStrictly hend) (.of_blanks hafter))
    obtain ⟨ts, hcut, strict⟩ := hwhole 0
    rw [Token.Cut, List.append_nil, @Token.tokensFrom_nil _ [] rfl] at hcut
    rw [tokens, hjson, hcut]
    exact List.forall_mem_append.2 ⟨strict, List.forall_mem_singleton.2 trivial⟩

/-! ## Texts that are read -/

theorem LaidOut.blanks {edge : Nat} {cs : List Char} (h : LaidOut (.atEnd edge) cs []) :
    Blanks cs := by
  obtain ⟨offset, edge', h⟩ := h
  generalize hlast : Token.atEnd edge = last at h
  cases h with
  | finish hblank => exact blanks_of_isBlank hblank
  | stop => cases hlast

/-- A text that is read is laid out as the tokens of a derivation, up to its end. -/
theorem exists_laidOut {json : String} {limit : Nat} {root : Node}
    (h : Generator.parse json limit = .ok root) :
    ∃ (d : Derivation) (edge : Nat), d.IsContainer ∧ d.nesting ≤ limit ∧ d.node = root ∧
      tokens json = d.tokens ++ [.atEnd edge] ∧ LaidOut (.atEnd edge) json.toList d.tokens := by
  obtain ⟨front, edge, last, htokens, hscan⟩ := Token.exists_scan 0 json.toList
  have hdemands : Document.Demands limit root .start (Document.beforeEnd (tokens json)) :=
    (Document.result_run_eq_ok_iff .start 0 _).1 h
  have hinner : ∀ t ∈ front, decide (t.kind ≠ .endOfInput) = true :=
    fun t ht => decide_eq_true fun hkind => hscan.tiling.inner t ht (.inl hkind)
  rw [tokens, htokens, Document.beforeEnd, List.takeWhile_append_of_pos hinner] at hdemands
  rcases hscan.last_cases with ⟨-, rfl⟩ | ⟨_, _, _, cause, -, -, -, -, hlast⟩
  · rw [List.takeWhile_cons_of_neg (by simp [Token.atEnd]), List.append_nil] at hdemands
    obtain ⟨d, hcontainer, rfl, hnesting, hnode⟩ := hdemands
    exact ⟨d, edge, hcontainer, hnesting, hnode, htokens, 0, edge, hscan⟩
  · -- a fault would be among the tokens that are read
    have hfault : last.kind = .fault cause := by rw [hlast]; rfl
    rw [List.takeWhile_cons_of_pos (by simp [hfault])] at hdemands
    exact absurd (.inr ⟨cause, hfault⟩) (Document.not_last_of_demands hdemands last
      (List.mem_append_right front List.mem_cons_self))

/-- A text that is read is a JSON text, if its tokens are strict. -/
theorem exists_jsonText_of_parse {json : String} {limit : Nat} {root : Node}
    (h : Generator.parse json limit = .ok root) (strict : ∀ t ∈ tokens json, t.IsStrict) :
    ∃ depth, depth ≤ limit ∧ JsonText json.toList root depth := by
  obtain ⟨d, edge, hcontainer, hnesting, rfl, htokens, hlaid⟩ := exists_laidOut h
  rw [htokens, List.forall_mem_append] at strict
  rw [← List.append_nil d.tokens] at hlaid
  obtain ⟨before, vs, after, hjson, hbefore, hvalue, hafter⟩ := writesValue d hlaid strict.1
  rw [hjson]
  exact ⟨d.nesting, hnesting,
    .container hbefore hvalue (kind_of_isContainer.1 hcontainer) hafter.blanks⟩

theorem exists_parse_of_generate {options : Options} {json source : String}
    (h : Generator.generate options json = .ok source) :
    ∃ root, Generator.parse json options.maxDepth = .ok root := by
  unfold Generator.generate Generator.run at h
  unfold Generator.parse Document.ofTokens
  cases hread : (Document.read options.maxDepth (tokens json)).result with
  | ok root => exact ⟨root, rfl⟩
  | error e => simp [hread, Except.bind] at h

/-- The JSON texts are those texts that are read and whose numbers and strings are written as JSON
has them.  So a declaration is generated from no text that is not a JSON text, but for a number or
a string in it. -/
theorem jsonText_iff_isStrict (options : Options) (json : String) :
    (∀ root, (Generator.parse json options.maxDepth = .ok root ∧ ∀ t ∈ tokens json, t.IsStrict) ↔
      ∃ depth, depth ≤ options.maxDepth ∧ JsonText json.toList root depth) ∧
    ((∃ root depth, JsonText json.toList root depth) ∨
      (∃ e, Generator.generate options json = .error e) ∨
        ∃ t ∈ tokens json, (t.kind = .integer ∨ t.kind = .float ∨ t.kind = .string) ∧
          ¬ t.IsStrict) := by
  constructor
  · intro root
    constructor
    · rintro ⟨hparse, strict⟩
      exact exists_jsonText_of_parse hparse strict
    · rintro ⟨depth, hdepth, h⟩
      exact ⟨parse_jsonText h hdepth, h.isStrict⟩
  · by_cases strict : ∀ t ∈ tokens json, t.IsStrict
    · cases hgenerate : Generator.generate options json with
      | error e => exact .inr (.inl ⟨e, rfl⟩)
      | ok source =>
        obtain ⟨root, hparse⟩ := exists_parse_of_generate hgenerate
        obtain ⟨depth, -, h⟩ := exists_jsonText_of_parse hparse strict
        exact .inl ⟨root, depth, h⟩
    · obtain ⟨t, ht⟩ := not_forall.1 strict
      obtain ⟨hmem, hlax⟩ := Classical.not_imp.1 ht
      exact .inr (.inr ⟨t, hmem, Token.kind_of_not_isStrict hlax, hlax⟩)

/-! ## Texts that are no JSON texts -/

/-- A number or a string that is written like a token, but not as JSON has it, is read all the same,
here as the only element of an array. -/
theorem generate_lax {type : Primitive} {text whole : List Char}
    (h : Spelling (Token.kindOf type) text whole) (lax : ¬ StrictText (Token.kindOf type) text)
    {options : Options} (hdepth : 1 ≤ options.maxDepth) {json : String}
    (hjson : json.toList = '[' :: (whole ++ [']'])) :
    (∃ source, Generator.generate options json = .ok source) ∧
      ∀ root depth, ¬ JsonText json.toList root depth := by
  have helements : List.Forall₂ (fun part (i : Node × Nat) => Reads part i.1 i.2) [whole]
      [(.primitive type, 0)] := .cons (.token h) .nil
  have harray := Enclosed.reads_array (.filled (.bare '[') (.last whole) (.bare ']')) helements
  have hsplit : json.toList = [] ++ (['['] ++ (whole ++ [']']) ++ []) := by simp [hjson]
  have hparse := (harray.parse_eq_ok_iff hsplit (by decide) (by decide)).2 ⟨.inr rfl, hdepth, rfl⟩
  refine ⟨exists_generate_eq_ok hparse (.inr rfl), fun root depth hstrict => lax ?_⟩
  -- the second token is the one for what is written
  have hbracket : Token.Kind.EndsAt .leftBracket (whole ++ [']']) := by
    rintro (hkind | hkind) <;> cases hkind
  have hopening := Token.cut_spelling (@Spelling.punctuation '[' _ rfl) hbracket 0
  have hcut := hopening.append (Token.cut_spelling h (fun _ => .cons rfl []) _)
  rw [Token.Cut, List.append_assoc] at hcut
  have hmem := hstrict.isStrict ((⟨_, text, [']']⟩ : Token.Lexeme).token _) (by
    rw [tokens, hjson]
    exact hcut ▸ List.mem_append_left _ (List.mem_cons_of_mem _ (List.mem_singleton_self _)))
  rwa [Token.IsStrict, Token.Lexeme.token, String.toList_ofList] at hmem

/-- A number has one sign at most. -/
theorem not_number_signs : ¬ Number .integer ['-', '-', '1'] := by
  have hwhole : ∀ cs, ¬ Whole ('-' :: cs) := by
    intro cs h
    cases h with
    | positive hc => exact absurd hc (by decide)
  intro h
  generalize hcs : ['-', '-', '1'] = cs at h
  cases h with
  | integer hminus h =>
    rcases hminus with rfl | rfl
    · obtain rfl := hcs
      exact hwhole _ h
    · obtain rfl := (List.cons.inj hcs).2
      exact hwhole _ h

/-- A declaration is generated from an array with a number of two signs, though that is no JSON
text. -/
theorem generate_twoSigns :
    (∃ source, Generator.generate .default "[--1]" = .ok source) ∧
      ∀ root depth, ¬ JsonText "[--1]".toList root depth := by
  have hsigns : ∀ c ∈ ['-', '-'], Token.isSign c = true :=
    List.forall_mem_cons.2 ⟨rfl, List.forall_mem_singleton.2 rfl⟩
  have hspelling : Spelling (Token.kindOf .integer) ['-', '-', '1'] ['-', '-', '1'] :=
    @Spelling.integer ['-', '-'] ['1'] hsigns (List.forall_mem_singleton.2 rfl)
      (List.cons_ne_nil _ _)
  exact generate_lax hspelling not_number_signs (by decide) (by decide)

end Text

end JsonShape
