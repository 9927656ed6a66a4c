import JsonShape.Generator
import JsonShape.Proofs.Document.Acceptance
import JsonShape.Proofs.Shape.Accepts
import JsonShape.Proofs.Text.Grammar
import JsonShape.Proofs.Token.Spelling

/-!
# JSON texts are read

Whatever the grammar of JSON derives is read as the tree that the grammar assigns to it.  A rule of
the grammar is followed twice: the text of its parts is cut into tokens, and those tokens have a
derivation that stands for the same tree.

* `Number.spelling`, `Chars.isBody` — numbers and strings are written as tokens are.
* `Value.exists_derivation` — the text of a value is cut into the tokens of a derivation.
* `parse_eq_ok_of_jsonText` — a JSON text is read as its tree, and a declaration is generated from
  it.
-/

namespace JsonShape

namespace Text

open Token (Cut Stops Spelling IsBody isBlank isSign isDigit isNumberTail)

/-! ## Blanks and marks -/

theorem Blanks.isBlank {cs : List Char} (h : Blanks cs) : ∀ c ∈ cs, isBlank c = true := by
  intro c hc
  rcases h c hc with rfl | rfl | rfl | rfl <;> rfl

/-- Blanks extend no number. -/
theorem Blanks.stops {cs : List Char} (h : Blanks cs) : Stops isNumberTail cs := by
  intro c hc
  rcases h c (List.mem_of_mem_head? hc) with rfl | rfl | rfl | rfl <;> rfl

/-- A mark extends no number, unless its character does. -/
theorem Mark.stops {c : Char} {cs : List Char} (h : Mark c cs) (hc : isNumberTail c = false)
    (rest : List Char) : Stops isNumberTail (cs ++ rest) := by
  cases h with
  | @around before after hbefore hafter =>
    rw [List.append_assoc]
    exact hbefore.stops.append (.cons hc _)

theorem Mark.stops_append {c : Char} {cs : List Char} (h : Mark c cs) (hc : isNumberTail c = false)
    (others rest : List Char) : Stops isNumberTail (cs ++ others ++ rest) := by
  rw [List.append_assoc]
  exact h.stops hc _

/-- A mark is cut into one token. -/
theorem Mark.exists_cut {c : Char} {kind : Token.Kind} {cs : List Char} (h : Mark c cs)
    (hkind : Token.Kind.ofPunctuation? c = some kind) (offset : Nat) (rest : List Char) :
    ∃ t : Token.Of kind, Cut offset cs rest [t.1] := by
  cases h with
  | @around before after hbefore hafter =>
    have hends : kind.EndsAt (after ++ rest) := by
      rintro (rfl | rfl)
      · exact absurd rfl (Token.kind_of_ofPunctuation? hkind).2.1
      · exact absurd rfl (Token.kind_of_ofPunctuation? hkind).2.2
    have hmark := Token.cut_spelling (.punctuation hkind) hends (offset + Token.byteLength before)
    have hcut := (Token.cut_blank hbefore.isBlank offset _).append
      (hmark.append (Token.cut_blank hafter.isBlank _ rest))
    exact ⟨⟨_, rfl⟩, hcut⟩

/-! ## Numbers and strings -/

theorem Digit.isDigit {c : Char} (h : Digit c) : isDigit c = true := by
  rw [Token.isDigit, decide_eq_true h.1, decide_eq_true h.2]
  rfl

theorem Digits.isNumberTail {cs : List Char} (h : Digits cs) :
    ∀ c ∈ cs, isNumberTail c = true :=
  fun c hc => Token.isNumberTail_of_isDigit (h.all c hc).isDigit

theorem Whole.digits {cs : List Char} (h : Whole cs) : Digits cs := by
  cases h with
  | zero => exact ⟨List.cons_ne_nil _ _, List.forall_mem_singleton.2 ⟨by decide, by decide⟩⟩
  | positive hc hcs =>
    have hfirst : '0' ≤ '1' := by decide
    exact ⟨List.cons_ne_nil _ _, List.forall_mem_cons.2 ⟨⟨hfirst.trans hc.1, hc.2⟩, hcs⟩⟩

theorem isSign_of_minus {cs : List Char} (h : Optional Minus cs) : ∀ c ∈ cs, isSign c = true := by
  rcases h with rfl | rfl
  · exact fun c hc => absurd hc List.not_mem_nil
  · exact List.forall_mem_singleton.2 rfl

/-- What may stand behind the whole part of a number. -/
def Tail (cs : List Char) : Prop := Stops isDigit cs ∧ ∀ c ∈ cs, isNumberTail c = true

theorem Tail.append {xs ys : List Char} (hxs : Tail xs) (hys : Tail ys) : Tail (xs ++ ys) :=
  ⟨hxs.1.append hys.1, List.forall_mem_append.2 ⟨hxs.2, hys.2⟩⟩

theorem Tail.optional {rule : List Char → Prop} {cs : List Char} (h : Optional rule cs)
    (hrule : rule cs → Tail cs) : Tail cs := by
  rcases h with rfl | h
  · exact ⟨.nil, fun c hc => absurd hc List.not_mem_nil⟩
  · exact hrule h

theorem Fraction.tail {cs : List Char} (h : Fraction cs) : Tail cs := by
  cases h with
  | point h => exact ⟨.cons rfl _, List.forall_mem_cons.2 ⟨rfl, h.isNumberTail⟩⟩

theorem Exponent.tail {cs : List Char} (h : Exponent cs) : Tail cs := by
  cases h with
  | @power e sign digits he hsign h =>
    refine ⟨.cons ?_ _, List.forall_mem_cons.2 ⟨?_, List.forall_mem_append.2
      ⟨?_, h.isNumberTail⟩⟩⟩
    · rcases he with rfl | rfl <;> rfl
    · rcases he with rfl | rfl <;> rfl
    · rcases hsign with rfl | rfl | rfl
      · exact fun c hc => absurd hc List.not_mem_nil
      · exact List.forall_mem_singleton.2 rfl
      · exact List.forall_mem_singleton.2 rfl

/-- A number is written as a token is. -/
theorem Number.spelling {type : Primitive} {cs : List Char} (h : Number type cs) :
    Spelling (Token.kindOf type) cs cs := by
  cases h with
  | integer hminus hwhole =>
    have hdigits := hwhole.digits
    exact .integer (isSign_of_minus hminus) (fun c hc => (hdigits.all c hc).isDigit) hdigits.ne_nil
  | float hminus hwhole hfrac hexp hne =>
    have hdigits := hwhole.digits
    have htail := (Tail.optional hfrac Fraction.tail).append (Tail.optional hexp Exponent.tail)
    obtain ⟨mark, tail, hmark⟩ := List.exists_cons_of_ne_nil hne
    rw [hmark] at htail ⊢
    exact .float (isSign_of_minus hminus) (fun c hc => (hdigits.all c hc).isDigit) hdigits.ne_nil
      (htail.1 mark rfl) htail.2

/-- A hexadecimal digit is a plain character of a string. -/
theorem isBody_hexDigit {c : Char} {cs : List Char} (h : HexDigit c) (rest : IsBody cs) :
    IsBody (c :: cs) := by
  refine .plain ?_ ?_ rest
  · rintro rfl
    exact absurd h (by decide)
  · rintro rfl
    exact absurd h (by decide)

/-- What stands between the quotes of a string is the body of a token. -/
theorem Chars.isBody {cs : List Char} (h : Chars cs) : IsBody cs := by
  induction h with
  | nil => exact .nil
  | unescaped h _ ih => exact .plain h.2.1 h.2.2 ih
  | escape _ _ ih => exact .escape _ ih
  | unicode ha hb hc hd _ ih =>
    exact .escape 'u'
      (isBody_hexDigit ha (isBody_hexDigit hb (isBody_hexDigit hc (isBody_hexDigit hd ih))))

/-- A string is cut into one token with what stands between the quotes as its text. -/
theorem Chars.exists_cut {body : List Char} (h : Chars body) (offset : Nat) (rest : List Char) :
    ∃ t : Token.Of .string, t.1.text = .ofList body ∧ Cut offset (quoted body) rest [t.1] := by
  have hends : Token.Kind.EndsAt .string rest := by
    rintro (h | h) <;> cases h
  exact ⟨⟨_, rfl⟩, rfl, Token.cut_spelling (.string h.isBody) hends offset⟩

/-! ## Values -/

/-- A value of one token. -/
theorem exists_derivation_primitive (type : Primitive) {text cs rest : List Char}
    (h : Spelling (Token.kindOf type) text cs) (hrest : Stops isNumberTail rest) (offset : Nat) :
    ∃ d : Derivation, Cut offset cs rest d.tokens ∧ d.node = .primitive type ∧ d.nesting = 0 :=
  ⟨.primitive type ⟨_, rfl⟩, Token.cut_spelling h (fun _ => hrest) offset, rfl, rfl⟩

-- Each statement leaves the text behind the part open, so that the parts of a rule can be cut one
-- after the other; only a number at the end of a part could reach into that text.
mutual

/-- The text of a value is cut into the tokens of a derivation that stands for its tree. -/
theorem Value.exists_derivation {cs : List Char} {node : Node} {depth : Nat}
    (h : Value cs node depth) {rest : List Char} (hrest : Stops isNumberTail rest) (offset : Nat) :
    ∃ d : Derivation, Cut offset cs rest d.tokens ∧ d.node = node ∧ d.nesting = depth := by
  match h with
  | .false =>
    exact exists_derivation_primitive .bool (.of_letters Token.spelling_falseWord) hrest offset
  | .null =>
    exact exists_derivation_primitive .null (.of_letters Token.spelling_nullWord) hrest offset
  | .true =>
    exact exists_derivation_primitive .bool (.of_letters Token.spelling_trueWord) hrest offset
  | .number h => exact exists_derivation_primitive _ h.spelling hrest offset
  | .string h => exact exists_derivation_primitive .string (.string h.isBody) hrest offset
  | .emptyObject hopening hclosing =>
    obtain ⟨o, ho⟩ := hopening.exists_cut rfl offset _
    obtain ⟨c, hc⟩ := hclosing.exists_cut rfl _ rest
    exact ⟨.emptyObject o c, ho.append hc, rfl, rfl⟩
  | .object hopening hmembers hclosing =>
    obtain ⟨o, ho⟩ := hopening.exists_cut rfl offset _
    obtain ⟨key, colon, value, more, hm, hpairs, hdepth⟩ :=
      hmembers.exists_derivation (hclosing.stops rfl rest) _
    obtain ⟨c, hc⟩ := hclosing.exists_cut rfl _ rest
    refine ⟨.object o key colon value more c, ?_, ?_, ?_⟩
    · have := ho.append (hm.append hc)
      simpa [Derivation.tokens] using this
    · rw [Derivation.node, hpairs]
    · rw [Derivation.nesting, hdepth]
  | .emptyArray hopening hclosing =>
    obtain ⟨o, ho⟩ := hopening.exists_cut rfl offset _
    obtain ⟨c, hc⟩ := hclosing.exists_cut rfl _ rest
    exact ⟨.emptyArray o c, ho.append hc, rfl, rfl⟩
  | .array hopening helements hclosing =>
    obtain ⟨o, ho⟩ := hopening.exists_cut rfl offset _
    obtain ⟨value, more, hm, hnodes, hdepth⟩ :=
      helements.exists_derivation (hclosing.stops rfl rest) _
    obtain ⟨c, hc⟩ := hclosing.exists_cut rfl _ rest
    refine ⟨.array o value more c, ?_, ?_, ?_⟩
    · have := ho.append (hm.append hc)
      simpa [Derivation.tokens] using this
    · rw [Derivation.node, hnodes]
    · rw [Derivation.nesting, hdepth]

theorem Member.exists_derivation {cs : List Char} {pair : String × Node} {depth : Nat}
    (h : Member cs pair depth) {rest : List Char} (hrest : Stops isNumberTail rest) (offset : Nat) :
    ∃ (key : Token.Of .string) (colon : Token.Of .colon) (value : Derivation),
      Cut offset cs rest (key.1 :: colon.1 :: value.tokens) ∧ (key.1.text, value.node) = pair ∧
        value.nesting = depth := by
  match h with
  | .named hname hcolon hvalue =>
    obtain ⟨key, htext, hkey⟩ := hname.exists_cut offset _
    obtain ⟨colon, hcut⟩ := hcolon.exists_cut rfl _ _
    obtain ⟨value, hvalue, hnode, hdepth⟩ := hvalue.exists_derivation hrest _
    exact ⟨key, colon, value, hkey.append (hcut.append hvalue), by rw [htext, hnode], hdepth⟩

theorem Members.exists_derivation {cs : List Char} {pairs : List (String × Node)} {depth : Nat}
    (h : Members cs pairs depth) {rest : List Char} (hrest : Stops isNumberTail rest)
    (offset : Nat) :
    ∃ (key : Token.Of .string) (colon : Token.Of .colon) (value : Derivation) (more : MoreMembers),
      Cut offset cs rest (key.1 :: colon.1 :: (value.tokens ++ more.tokens)) ∧
        (key.1.text, value.node) :: more.pairs = pairs ∧
          max value.nesting more.nesting = depth := by
  match h with
  | .last h =>
    obtain ⟨key, colon, value, hcut, rfl, rfl⟩ := h.exists_derivation hrest offset
    refine ⟨key, colon, value, .none, ?_, rfl, Nat.max_zero _⟩
    rwa [MoreMembers.tokens, List.append_nil]
  | .more h hcomma hothers =>
    obtain ⟨key, colon, value, hvalue, rfl, rfl⟩ :=
      h.exists_derivation (hcomma.stops_append rfl _ rest) offset
    obtain ⟨mark, hmark⟩ := hcomma.exists_cut rfl _ _
    obtain ⟨nextKey, nextColon, nextValue, more, hmore, rfl, rfl⟩ :=
      hothers.exists_derivation hrest _
    refine ⟨key, colon, value, .next mark nextKey nextColon nextValue more, ?_, rfl, rfl⟩
    exact hvalue.append (hmark.append hmore)

theorem Elements.exists_derivation {cs : List Char} {nodes : List Node} {depth : Nat}
    (h : Elements cs nodes depth) {rest : List Char} (hrest : Stops isNumberTail rest)
    (offset : Nat) :
    ∃ (value : Derivation) (more : MoreElements),
      Cut offset cs rest (value.tokens ++ more.tokens) ∧ value.node :: more.nodes = nodes ∧
        max value.nesting more.nesting = depth := by
  match h with
  | .last h =>
    obtain ⟨value, hcut, rfl, rfl⟩ := h.exists_derivation hrest offset
    refine ⟨value, .none, ?_, rfl, Nat.max_zero _⟩
    rwa [MoreElements.tokens, List.append_nil]
  | .more h hcomma hothers =>
    obtain ⟨value, hvalue, rfl, rfl⟩ :=
      h.exists_derivation (hcomma.stops_append rfl _ rest) offset
    obtain ⟨mark, hmark⟩ := hcomma.exists_cut rfl _ _
    obtain ⟨nextValue, more, hmore, rfl, rfl⟩ := hothers.exists_derivation hrest _
    exact ⟨value, .next mark nextValue more, hvalue.append (hmark.append hmore), rfl, rfl⟩

end

/-! ## Whole texts -/

theorem isContainer_of_kind {d : Derivation} (h : d.node.kind = .object ∨ d.node.kind = .array) :
    d.IsContainer := by
  cases d with
  | primitive type t => rcases h with h | h <;> cases h
  | _ => trivial

/-- The tokens of a JSON text are those of a derivation that stands for its tree, and an end. -/
theorem JsonText.exists_derivation {cs : List Char} {root : Node} {depth : Nat}
    (h : JsonText cs root depth) :
    ∃ (d : Derivation) (last : Token.Of .endOfInput),
      Token.tokensFrom 0 cs = d.tokens ++ [last.1] ∧ d.IsContainer ∧ d.node = root ∧
        d.nesting = depth := by
  cases h with
  | @container before cs after root depth hbefore hvalue hkind hafter =>
    have hend : Stops isNumberTail (after ++ []) := hafter.stops.append .nil
    obtain ⟨d, hd, rfl, rfl⟩ := hvalue.exists_derivation hend (0 + Token.byteLength before)
    have hcut : Cut 0 (before ++ (cs ++ after)) [] ([] ++ (d.tokens ++ [])) :=
      (Token.cut_blank hbefore.isBlank 0 _).append
        (hd.append (Token.cut_blank hafter.isBlank _ []))
    rw [Cut, List.append_nil, List.nil_append, List.append_nil, @Token.tokensFrom_nil _ [] rfl]
      at hcut
    exact ⟨d, ⟨Token.atEnd _, rfl⟩, hcut, isContainer_of_kind hkind, rfl, rfl⟩

theorem JsonText.kind {cs : List Char} {root : Node} {depth : Nat} (h : JsonText cs root depth) :
    root.kind = .object ∨ root.kind = .array := by
  cases h with
  | container _ _ hkind _ => exact hkind

/-- A JSON text whose containers nest no deeper than allowed is read as its tree. -/
theorem parse_jsonText {json : String} {root : Node} {depth limit : Nat}
    (h : JsonText json.toList root depth) (hdepth : depth ≤ limit) :
    Generator.parse json limit = .ok root := by
  obtain ⟨d, last, htokens, hcontainer, rfl, rfl⟩ := h.exists_derivation
  rw [Generator.parse, tokens, htokens]
  exact Document.ofTokens_tokens hcontainer hdepth last []

/-- A declaration is what is written of the shape that is inferred from the tree of a text. -/
theorem generate_eq (options : Options) (json : String) :
    Generator.generate options json =
      ((Generator.parse json options.maxDepth).bind Inferred.ofRoot).map
        (·.shape.declaration options) := by
  unfold Generator.generate Generator.run Generator.parse Document.ofTokens
  cases h : (Document.read options.maxDepth (tokens json)).result.bind Inferred.ofRoot <;>
    simp [h, Except.map]

/-- A declaration is generated from a text that is read as an object or an array. -/
theorem exists_generate_eq_ok {json : String} {root : Node} {options : Options}
    (h : Generator.parse json options.maxDepth = .ok root)
    (hkind : root.kind = .object ∨ root.kind = .array) :
    ∃ source, Generator.generate options json = .ok source := by
  refine ⟨(Inferred.ofGroup [root]).shape.declaration options, ?_⟩
  rw [generate_eq, h]
  simp [Except.bind, Except.map, Inferred.ofRoot_eq_ok hkind]

end Text

end JsonShape
