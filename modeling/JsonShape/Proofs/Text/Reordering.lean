import JsonShape.Proofs.Shape.Reordering
import JsonShape.Proofs.Text.Completeness

/-!
# Texts that differ in order

Two texts that hold the same members and elements in other orders, with blanks wherever they may
stand.  A declaration is generated from both or from neither, and it is the same one.  The texts need
not be JSON in the strict sense: numbers, words and strings are those that tokens are written with,
of which the JSON ones are a part (`Value.reordering_self`).

* `Text.Reordering` — the texts of two values that differ in the order of members and elements.
* `Text.Reads` — the text of a value is cut into the tokens of a derivation.
* `Reordering.exists_reads` — texts that differ in order are read as trees that differ in order.
* `generate_reordering` — inference, and generation as a whole, do not depend on the order.
-/

namespace JsonShape

namespace Text

open List (Forall₂)
open Token (Cut Stops Spelling IsBody isNumberTail)

/-! ## Texts of one value in two orders -/

/-- A text that consists of parts with commas between them. -/
inductive Listed : List (List Char) → List Char → Prop where
  /-- One part. -/
  | last (part : List Char) : Listed [part] part
  /-- A part before others. -/
  | more {part comma others : List Char} {parts : List (List Char)} (hcomma : Mark ',' comma)
      (hothers : Listed parts others) : Listed (part :: parts) (part ++ (comma ++ others))

/-- A text that consists of parts with commas between them, in the marks of a container. -/
inductive Enclosed (opener closer : Char) : List (List Char) → List Char → Prop where
  /-- No parts. -/
  | empty {opening closing : List Char} (hopening : Mark opener opening)
      (hclosing : Mark closer closing) : Enclosed opener closer [] (opening ++ closing)
  /-- Parts, at least one. -/
  | filled {opening cs closing : List Char} {parts : List (List Char)}
      (hopening : Mark opener opening) (hparts : Listed parts cs)
      (hclosing : Mark closer closing) :
      Enclosed opener closer parts (opening ++ (cs ++ closing))

mutual

/-- The texts of two values that differ in the order of members and elements, at any depth, and in
blanks. -/
inductive Reordering : List Char → List Char → Prop where
  /-- A value that is a single token is written in one way. -/
  | token {type : Primitive} {text cs : List Char} (h : Spelling (Token.kindOf type) text cs) :
      Reordering cs cs
  /-- Two objects: the members of one, reordered inside, are a permutation of those of the other. -/
  | object {parts middle others : List (List Char)} {cs ds : List Char}
      (hparts : Enclosed '\x7b' '\x7d' parts cs) (hothers : Enclosed '\x7b' '\x7d' others ds)
      (inner : MemberReorderings parts middle) (perm : middle.Perm others) : Reordering cs ds
  /-- Two arrays: the elements of one, reordered inside, are a permutation of those of the other. -/
  | array {parts middle others : List (List Char)} {cs ds : List Char}
      (hparts : Enclosed '[' ']' parts cs) (hothers : Enclosed '[' ']' others ds)
      (inner : Reorderings parts middle) (perm : middle.Perm others) : Reordering cs ds

/-- The texts of elements that are reordered inside, one by one. -/
inductive Reorderings : List (List Char) → List (List Char) → Prop where
  /-- No elements. -/
  | nil : Reorderings [] []
  /-- An element before others. -/
  | cons {cs ds : List Char} {parts others : List (List Char)} (head : Reordering cs ds)
      (tail : Reorderings parts others) : Reorderings (cs :: parts) (ds :: others)

/-- The texts of members whose values are reordered inside, one by one; the names stay. -/
inductive MemberReorderings : List (List Char) → List (List Char) → Prop where
  /-- No members. -/
  | nil : MemberReorderings [] []
  /-- A member before others. -/
  | cons {name colon other cs ds : List Char} {parts others : List (List Char)}
      (hname : IsBody name) (hcolon : Mark ':' colon) (hother : Mark ':' other)
      (value : Reordering cs ds) (tail : MemberReorderings parts others) :
      MemberReorderings ((quoted name ++ (colon ++ cs)) :: parts)
        ((quoted name ++ (other ++ ds)) :: others)

end

/-- Two whole texts that differ in the order of members and elements, and in blanks. -/
inductive Rearranged : List Char → List Char → Prop where
  /-- The texts of two values with blanks around them. -/
  | around {before cs after front ds back : List Char} (hbefore : Blanks before)
      (hafter : Blanks after) (hfront : Blanks front) (hback : Blanks back)
      (h : Reordering cs ds) : Rearranged (before ++ (cs ++ after)) (front ++ (ds ++ back))

/-! ### JSON texts -/

mutual

/-- The text of a JSON value is a reordering of itself. -/
theorem Value.reordering_self {cs : List Char} {node : Node} {depth : Nat}
    (h : Value cs node depth) : Reordering cs cs := by
  match h with
  | .false => exact @Reordering.token .bool _ _ (.of_letters Token.spelling_falseWord)
  | .null => exact @Reordering.token .null _ _ (.of_letters Token.spelling_nullWord)
  | .true => exact @Reordering.token .bool _ _ (.of_letters Token.spelling_trueWord)
  | .number h => exact .token h.spelling
  | .string h => exact @Reordering.token .string _ _ (.string h.isBody)
  | .emptyObject hopening hclosing =>
    exact .object (.empty hopening hclosing) (.empty hopening hclosing) .nil (.refl _)
  | .object hopening hmembers hclosing =>
    obtain ⟨parts, hparts, hself⟩ := hmembers.exists_listed
    exact .object (.filled hopening hparts hclosing) (.filled hopening hparts hclosing) hself
      (.refl _)
  | .emptyArray hopening hclosing =>
    exact .array (.empty hopening hclosing) (.empty hopening hclosing) .nil (.refl _)
  | .array hopening helements hclosing =>
    obtain ⟨parts, hparts, hself⟩ := helements.exists_listed
    exact .array (.filled hopening hparts hclosing) (.filled hopening hparts hclosing) hself
      (.refl _)

theorem Members.exists_listed {cs : List Char} {pairs : List (String × Node)} {depth : Nat}
    (h : Members cs pairs depth) :
    ∃ parts, Listed parts cs ∧ MemberReorderings parts parts := by
  match h with
  | .last hmember => exact ⟨_, .last _, hmember.reorderings_self .nil⟩
  | .more hmember hcomma hothers =>
    obtain ⟨parts, hparts, hself⟩ := hothers.exists_listed
    exact ⟨_, .more hcomma hparts, hmember.reorderings_self hself⟩

theorem Member.reorderings_self {cs : List Char} {pair : String × Node} {depth : Nat}
    (h : Member cs pair depth) {parts : List (List Char)} (hparts : MemberReorderings parts parts) :
    MemberReorderings (cs :: parts) (cs :: parts) := by
  match h with
  | .named hname hcolon hvalue =>
    exact .cons hname.isBody hcolon hcolon hvalue.reordering_self hparts

theorem Elements.exists_listed {cs : List Char} {nodes : List Node} {depth : Nat}
    (h : Elements cs nodes depth) : ∃ parts, Listed parts cs ∧ Reorderings parts parts := by
  match h with
  | .last hvalue => exact ⟨_, .last _, .cons hvalue.reordering_self .nil⟩
  | .more hvalue hcomma hothers =>
    obtain ⟨parts, hparts, hself⟩ := hothers.exists_listed
    exact ⟨_, .more hcomma hparts, .cons hvalue.reordering_self hself⟩

end

/-! ## Reading one text -/

/-- The text of a value is cut into the tokens of a derivation that stands for `node`, wherever it
begins and whatever follows that does not extend a number. -/
def Reads (cs : List Char) (node : Node) (depth : Nat) : Prop :=
  ∀ rest, Stops isNumberTail rest → ∀ offset,
    ∃ d : Derivation, Cut offset cs rest d.tokens ∧ d.node = node ∧ d.nesting = depth

/-- The same for a member of an object, with its key and value. -/
def ReadsMember (cs : List Char) (pair : String × Node) (depth : Nat) : Prop :=
  ∀ rest, Stops isNumberTail rest → ∀ offset,
    ∃ (key : Token.Of .string) (colon : Token.Of .colon) (value : Derivation),
      Cut offset cs rest (key.1 :: colon.1 :: value.tokens) ∧ (key.1.text, value.node) = pair ∧
        value.nesting = depth

/-- The greatest of some depths. -/
def deepest (depths : List Nat) : Nat := depths.foldr max 0

theorem deepest_perm {depths others : List Nat} (h : depths.Perm others) :
    deepest depths = deepest others := by
  unfold deepest
  induction h with
  | nil => rfl
  | cons d _ ih => simp [ih]
  | swap d e ds => simp [max_left_comm]
  | trans _ _ ih ih' => exact ih.trans ih'

theorem Reads.token {type : Primitive} {text cs : List Char}
    (h : Spelling (Token.kindOf type) text cs) : Reads cs (.primitive type) 0 :=
  fun _ hrest offset => exists_derivation_primitive type h hrest offset

theorem Reads.member {name colon cs : List Char} {node : Node} {depth : Nat}
    (hname : IsBody name) (hcolon : Mark ':' colon) (hvalue : Reads cs node depth) :
    ReadsMember (quoted name ++ (colon ++ cs)) (.ofList name, node) depth := by
  intro rest hrest offset
  have hends : Token.Kind.EndsAt .string (colon ++ cs ++ rest) := by
    rintro (h | h) <;> cases h
  have hkey := Token.cut_spelling (.string hname) hends offset
  obtain ⟨mark, hmark⟩ := hcolon.exists_cut rfl (offset + Token.byteLength (quoted name)) (cs ++ rest)
  obtain ⟨value, hcut, hnode, hdepth⟩ := hvalue rest hrest _
  exact ⟨⟨_, rfl⟩, mark, value, hkey.append (hmark.append hcut), by rw [hnode], hdepth⟩

/-- Elements with commas between them are read one after the other. -/
theorem Listed.reads_elements {parts : List (List Char)} {cs : List Char} (h : Listed parts cs)
    {nodes : List (Node × Nat)} (hparts : Forall₂ (fun part i => Reads part i.1 i.2) parts nodes)
    {rest : List Char} (hrest : Stops isNumberTail rest) (offset : Nat) :
    ∃ (value : Derivation) (more : MoreElements),
      Cut offset cs rest (value.tokens ++ more.tokens) ∧
        value.node :: more.nodes = nodes.map Prod.fst ∧
          max value.nesting more.nesting = deepest (nodes.map Prod.snd) := by
  induction h generalizing nodes offset with
  | last part =>
    obtain ⟨i, _, hpart, hnil, rfl⟩ := List.forall₂_cons_left_iff.1 hparts
    obtain rfl := List.forall₂_nil_left_iff.1 hnil
    obtain ⟨value, hcut, hnode, hdepth⟩ := hpart rest hrest offset
    refine ⟨value, .none, ?_, ?_, ?_⟩
    · simpa [MoreElements.tokens] using hcut
    · simp [MoreElements.nodes, hnode]
    · simp [MoreElements.nesting, deepest, hdepth]
  | @more part comma others parts hcomma _ ih =>
    obtain ⟨i, is, hpart, htail, rfl⟩ := List.forall₂_cons_left_iff.1 hparts
    obtain ⟨value, hvalue, hnode, hdepth⟩ := hpart _ (hcomma.stops_append rfl others rest) offset
    obtain ⟨mark, hmark⟩ := hcomma.exists_cut rfl (offset + Token.byteLength part) (others ++ rest)
    obtain ⟨next, more, hmore, hnodes, hdepths⟩ := ih htail _
    refine ⟨value, .next mark next more, hvalue.append (hmark.append hmore), ?_, ?_⟩
    · simp [MoreElements.nodes, hnode, ← hnodes]
    · simp only [MoreElements.nesting, hdepth, hdepths]
      rfl

/-- Members with commas between them are read one after the other. -/
theorem Listed.reads_members {parts : List (List Char)} {cs : List Char} (h : Listed parts cs)
    {pairs : List ((String × Node) × Nat)}
    (hparts : Forall₂ (fun part i => ReadsMember part i.1 i.2) parts pairs)
    {rest : List Char} (hrest : Stops isNumberTail rest) (offset : Nat) :
    ∃ (key : Token.Of .string) (colon : Token.Of .colon) (value : Derivation) (more : MoreMembers),
      Cut offset cs rest (key.1 :: colon.1 :: (value.tokens ++ more.tokens)) ∧
        (key.1.text, value.node) :: more.pairs = pairs.map Prod.fst ∧
          max value.nesting more.nesting = deepest (pairs.map Prod.snd) := by
  induction h generalizing pairs offset with
  | last part =>
    obtain ⟨i, _, hpart, hnil, rfl⟩ := List.forall₂_cons_left_iff.1 hparts
    obtain rfl := List.forall₂_nil_left_iff.1 hnil
    obtain ⟨key, colon, value, hcut, hpair, hdepth⟩ := hpart rest hrest offset
    refine ⟨key, colon, value, .none, ?_, ?_, ?_⟩
    · simpa [MoreMembers.tokens] using hcut
    · simp [MoreMembers.pairs, hpair]
    · simp [MoreMembers.nesting, deepest, hdepth]
  | @more part comma others parts hcomma _ ih =>
    obtain ⟨i, is, hpart, htail, rfl⟩ := List.forall₂_cons_left_iff.1 hparts
    obtain ⟨key, colon, value, hvalue, hpair, hdepth⟩ :=
      hpart _ (hcomma.stops_append rfl others rest) offset
    obtain ⟨mark, hmark⟩ := hcomma.exists_cut rfl (offset + Token.byteLength part) (others ++ rest)
    obtain ⟨nextKey, nextColon, next, more, hmore, hpairs, hdepths⟩ := ih htail _
    refine ⟨key, colon, value, .next mark nextKey nextColon next more, ?_, ?_, ?_⟩
    · exact hvalue.append (hmark.append hmore)
    · simp [MoreMembers.pairs, hpair, ← hpairs]
    · simp only [MoreMembers.nesting, hdepth, hdepths]
      rfl

/-- An array is read with its elements in the order of the text. -/
theorem Enclosed.reads_array {parts : List (List Char)} {cs : List Char}
    (h : Enclosed '[' ']' parts cs) {nodes : List (Node × Nat)}
    (hparts : Forall₂ (fun part i => Reads part i.1 i.2) parts nodes) :
    Reads cs (.array (nodes.map Prod.fst)) (1 + deepest (nodes.map Prod.snd)) := by
  intro rest hrest offset
  cases h with
  | empty hopening hclosing =>
    obtain rfl := List.forall₂_nil_left_iff.1 hparts
    obtain ⟨o, ho⟩ := hopening.exists_cut rfl offset _
    obtain ⟨c, hc⟩ := hclosing.exists_cut rfl _ rest
    exact ⟨.emptyArray o c, ho.append hc, rfl, rfl⟩
  | filled hopening hlisted hclosing =>
    obtain ⟨o, ho⟩ := hopening.exists_cut rfl offset _
    obtain ⟨value, more, hm, hnodes, hdepth⟩ :=
      hlisted.reads_elements hparts (hclosing.stops rfl rest) _
    obtain ⟨c, hc⟩ := hclosing.exists_cut rfl _ rest
    refine ⟨.array o value more c, ?_, ?_, ?_⟩
    · simpa [Derivation.tokens] using ho.append (hm.append hc)
    · rw [Derivation.node, hnodes]
    · rw [Derivation.nesting, hdepth]

/-- An object is read with its members in the order of the text. -/
theorem Enclosed.reads_object {parts : List (List Char)} {cs : List Char}
    (h : Enclosed '\x7b' '\x7d' parts cs) {pairs : List ((String × Node) × Nat)}
    (hparts : Forall₂ (fun part i => ReadsMember part i.1 i.2) parts pairs) :
    Reads cs (.object (.ofPairs (pairs.map Prod.fst))) (1 + deepest (pairs.map Prod.snd)) := by
  intro rest hrest offset
  cases h with
  | empty hopening hclosing =>
    obtain rfl := List.forall₂_nil_left_iff.1 hparts
    obtain ⟨o, ho⟩ := hopening.exists_cut rfl offset _
    obtain ⟨c, hc⟩ := hclosing.exists_cut rfl _ rest
    exact ⟨.emptyObject o c, ho.append hc, rfl, rfl⟩
  | filled hopening hlisted hclosing =>
    obtain ⟨o, ho⟩ := hopening.exists_cut rfl offset _
    obtain ⟨key, colon, value, more, hm, hpairs, hdepth⟩ :=
      hlisted.reads_members hparts (hclosing.stops rfl rest) _
    obtain ⟨c, hc⟩ := hclosing.exists_cut rfl _ rest
    refine ⟨.object o key colon value more c, ?_, ?_, ?_⟩
    · simpa [Derivation.tokens] using ho.append (hm.append hc)
    · rw [Derivation.node, hpairs]
    · rw [Derivation.nesting, hdepth]

/-! ## Reading two texts -/

/-- What is read from parts is permuted with them. -/
theorem forall₂_of_perm {σ : Type} {reads : List Char → σ → Prop} {parts others : List (List Char)}
    {values : List σ} (h : Forall₂ reads parts values) (perm : parts.Perm others) :
    ∃ found, Forall₂ reads others found ∧ values.Perm found := by
  obtain ⟨found, hfound, hperm⟩ := List.perm_comp_forall₂ perm.symm h
  exact ⟨found, hfound, hperm.symm⟩

theorem regrouped_valuesIn {key : String} {value other : Node} {pairs others : List (String × Node)}
    (hvalue : Node.Reordering value other) (k : String)
    (h : Node.Regrouped (Members.valuesIn pairs k) (Members.valuesIn others k)) :
    Node.Regrouped (Members.valuesIn ((key, value) :: pairs) k)
      (Members.valuesIn ((key, other) :: others) k) := by
  by_cases hk : key = k
  · simpa [Members.valuesIn, hk] using Node.Regrouped.cons hvalue h
  · simpa [Members.valuesIn, hk] using h

mutual

/-- Texts that differ in order are read as trees that differ in order. -/
theorem Reordering.exists_reads {cs ds : List Char} (h : Reordering cs ds) :
    ∃ (node other : Node) (depth : Nat),
      Reads cs node depth ∧ Reads ds other depth ∧ Node.Reordering node other := by
  match h with
  | .token h => exact ⟨_, _, 0, .token h, .token h, .refl _⟩
  | .object hparts hothers inner perm =>
    obtain ⟨pairs, middle, hpairs, hmiddle, hvalues, hdepths⟩ := inner.exists_reads
    obtain ⟨found, hfound, hperm⟩ := forall₂_of_perm hmiddle perm
    have hdeepest : deepest (found.map Prod.snd) = deepest (pairs.map Prod.snd) := by
      rw [hdepths, deepest_perm (hperm.map Prod.snd)]
    refine ⟨_, _, _, hparts.reads_object hpairs, hdeepest ▸ hothers.reads_object hfound, ?_⟩
    refine .of_regrouped_object (Members.wellFormed_ofPairs _) (Members.wellFormed_ofPairs _)
      fun key => ?_
    rw [Members.values_ofPairs, Members.values_ofPairs]
    exact (hvalues key).trans (.of_perm ((hperm.map Prod.fst).filterMap _))
  | .array hparts hothers inner perm =>
    obtain ⟨nodes, middle, hnodes, hmiddle, hregrouped, hdepths⟩ := inner.exists_reads
    obtain ⟨found, hfound, hperm⟩ := forall₂_of_perm hmiddle perm
    have hdeepest : deepest (found.map Prod.snd) = deepest (nodes.map Prod.snd) := by
      rw [hdepths, deepest_perm (hperm.map Prod.snd)]
    refine ⟨_, _, _, hparts.reads_array hnodes, hdeepest ▸ hothers.reads_array hfound, ?_⟩
    exact .of_regrouped (hregrouped.trans (.of_perm (hperm.map Prod.fst)))

theorem Reorderings.exists_reads {parts others : List (List Char)} (h : Reorderings parts others) :
    ∃ nodes found : List (Node × Nat),
      Forall₂ (fun part i => Reads part i.1 i.2) parts nodes ∧
        Forall₂ (fun part i => Reads part i.1 i.2) others found ∧
          Node.Regrouped (nodes.map Prod.fst) (found.map Prod.fst) ∧
            nodes.map Prod.snd = found.map Prod.snd := by
  match h with
  | .nil => exact ⟨[], [], .nil, .nil, .nil, rfl⟩
  | .cons head tail =>
    obtain ⟨node, other, depth, hnode, hother, hreordering⟩ := head.exists_reads
    obtain ⟨nodes, found, hnodes, hfound, hregrouped, hdepths⟩ := tail.exists_reads
    exact ⟨(node, depth) :: nodes, (other, depth) :: found, .cons hnode hnodes,
      .cons hother hfound, .cons hreordering hregrouped, by simp [hdepths]⟩

theorem MemberReorderings.exists_reads {parts others : List (List Char)}
    (h : MemberReorderings parts others) :
    ∃ pairs found : List ((String × Node) × Nat),
      Forall₂ (fun part i => ReadsMember part i.1 i.2) parts pairs ∧
        Forall₂ (fun part i => ReadsMember part i.1 i.2) others found ∧
          (∀ key, Node.Regrouped (Members.valuesIn (pairs.map Prod.fst) key)
            (Members.valuesIn (found.map Prod.fst) key)) ∧
            pairs.map Prod.snd = found.map Prod.snd := by
  match h with
  | .nil => exact ⟨[], [], .nil, .nil, fun _ => .nil, rfl⟩
  | .cons hname hcolon hother value tail =>
    obtain ⟨node, other, depth, hnode, hreads, hreordering⟩ := value.exists_reads
    obtain ⟨pairs, found, hpairs, hfound, hvalues, hdepths⟩ := tail.exists_reads
    refine ⟨((_, node), depth) :: pairs, ((_, other), depth) :: found,
      .cons (hnode.member hname hcolon) hpairs, .cons (hreads.member hname hother) hfound,
      fun key => ?_, by simp [hdepths]⟩
    exact regrouped_valuesIn hreordering key (hvalues key)

end

/-! ## Whole texts -/

theorem kind_of_isContainer {d : Derivation} :
    d.IsContainer ↔ d.node.kind = .object ∨ d.node.kind = .array := by
  refine ⟨fun h => ?_, isContainer_of_kind⟩
  cases d with
  | primitive type t => exact h.elim
  | emptyObject | object => exact Or.inl rfl
  | emptyArray | array => exact Or.inr rfl

/-- A value with blanks around it is a document exactly if it is a container that nests no deeper
than allowed. -/
theorem Reads.parse_eq_ok_iff {before cs after : List Char} {node root : Node} {depth limit : Nat}
    {json : String} (hjson : json.toList = before ++ (cs ++ after)) (hbefore : Blanks before)
    (hafter : Blanks after) (h : Reads cs node depth) :
    Generator.parse json limit = .ok root ↔
      (node.kind = .object ∨ node.kind = .array) ∧ depth ≤ limit ∧ node = root := by
  have hend : Stops isNumberTail (after ++ []) := hafter.stops.append .nil
  obtain ⟨d, hd, rfl, rfl⟩ := h _ hend (0 + Token.byteLength before)
  have hcut : Cut 0 (before ++ (cs ++ after)) [] ([] ++ (d.tokens ++ [])) :=
    (Token.cut_blank hbefore.isBlank 0 _).append
      (hd.append (Token.cut_blank hafter.isBlank _ []))
  rw [Cut, List.append_nil, List.nil_append, List.append_nil, @Token.tokensFrom_nil _ [] rfl]
    at hcut
  rw [Generator.parse, tokens, hjson, hcut, ← kind_of_isContainer]
  exact Document.ofTokens_tokens_eq_ok_iff ⟨Token.atEnd _, rfl⟩ []

/-- The tree of a text is well-formed. -/
theorem Reads.wellFormed {cs : List Char} {node : Node} {depth : Nat} (h : Reads cs node depth) :
    node.WellFormed := by
  obtain ⟨d, -, rfl, -⟩ := h [] .nil 0
  exact d.wellFormed_node

/-- The declaration of a text is that of what is inferred from its tree. -/
theorem Reads.generate_eq_ok_iff {before cs after : List Char} {node : Node} {depth : Nat}
    {options : Options} {json source : String} (hjson : json.toList = before ++ (cs ++ after))
    (hbefore : Blanks before) (hafter : Blanks after) (h : Reads cs node depth) :
    Generator.generate options json = .ok source ↔
      (node.kind = .object ∨ node.kind = .array) ∧ depth ≤ options.maxDepth ∧
        (Inferred.ofRoot node).map (·.shape.declaration options) = .ok source := by
  have hparse : ∀ root, Generator.parse json options.maxDepth = .ok root ↔
      (node.kind = .object ∨ node.kind = .array) ∧ depth ≤ options.maxDepth ∧ node = root :=
    fun _ => h.parse_eq_ok_iff hjson hbefore hafter
  unfold Generator.parse Document.ofTokens at hparse
  unfold Generator.generate Generator.run
  cases hread : (Document.read options.maxDepth (tokens json)).result with
  | error e =>
    refine iff_of_false (by simp [hread, Except.bind]) ?_
    rintro ⟨hkind, hdepth, -⟩
    have := (hparse node).2 ⟨hkind, hdepth, rfl⟩
    simp [hread] at this
  | ok root =>
    obtain ⟨hkind, hdepth, rfl⟩ := (hparse root).1 hread
    simp only [hread, Except.bind, hkind, hdepth, true_and]
    cases hinferred : Inferred.ofRoot node with
    | error e => simp [Except.map]
    | ok inferred => simp [Except.map]

/-- In whatever order a document holds its values, the same shape is inferred from it, identifiers
included; and from two texts that differ in the order of members and elements, and in blanks, the
same declaration is generated, or none from either. -/
theorem generate_reordering :
    (∀ root other : Node, root.WellFormed → Node.Reordering root other →
      Shape.ofRoot root = Shape.ofRoot other) ∧
    ∀ a b : String, Rearranged a.toList b.toList → ∀ (options : Options) (source : String),
      Generator.generate options a = .ok source ↔ Generator.generate options b = .ok source := by
  constructor
  · intro root other hroot h
    rw [Shape.ofRoot, Shape.ofRoot, Inferred.ofRoot_reordering hroot h]
  · intro a b h options source
    generalize ha : a.toList = as at h
    generalize hb : b.toList = bs at h
    cases h with
    | around hbefore hafter hfront hback h =>
      obtain ⟨node, other, depth, hnode, hother, hreordering⟩ := h.exists_reads
      rw [hnode.generate_eq_ok_iff ha hbefore hafter, hother.generate_eq_ok_iff hb hfront hback,
        hreordering.kind_eq, Inferred.ofRoot_reordering hnode.wellFormed hreordering]

/-- An object with an array and a string in it. -/
def listFirst : String := "\x7b\"b\":[1,\"x\"],\"a\":\"\"\x7d"

/-- The same members and elements in the other order. -/
def listLast : String := " \x7b\"a\": \"\",\"b\":[\"x\",1]\x7d"

theorem listFirst_rearranged : Rearranged listFirst.toList listLast.toList := by
  have spaced : Mark ':' [':', ' '] := @Mark.around ':' [] [' '] (by decide) (by decide)
  have body : ∀ c, c ≠ '"' → c ≠ '\\' → IsBody [c] := fun c hc hc' => .plain hc hc' .nil
  have hone : Reordering ['1'] ['1'] :=
    @Reordering.token .integer _ _
      (@Spelling.integer [] ['1'] (List.forall_mem_nil _) (List.forall_mem_singleton.2 rfl)
        (List.cons_ne_nil _ _))
  have hx : Reordering ['"', 'x', '"'] ['"', 'x', '"'] :=
    @Reordering.token .string _ _ (.string (body 'x' (by decide) (by decide)))
  have hempty : Reordering ['"', '"'] ['"', '"'] := @Reordering.token .string _ _ (.string .nil)
  have hlist := Reordering.array (.filled (.bare '[') (.more (.bare ',') (.last _)) (.bare ']'))
    (.filled (.bare '[') (.more (.bare ',') (.last _)) (.bare ']')) (.cons hone (.cons hx .nil))
    (.swap _ _ [])
  have hobject := Reordering.object
    (.filled (.bare '\x7b') (.more (.bare ',') (.last _)) (.bare '\x7d'))
    (.filled (.bare '\x7b') (.more (.bare ',') (.last _)) (.bare '\x7d'))
    (.cons (body 'b' (by decide) (by decide)) (.bare ':') (.bare ':') hlist
      (.cons (body 'a' (by decide) (by decide)) (.bare ':') spaced hempty .nil)) (.swap _ _ [])
  have hwhole := @Rearranged.around [] _ [] [' '] _ [] (by decide) (by decide) (by decide)
    (by decide) hobject
  refine Eq.mp (congrArg₂ Rearranged ?_ ?_) hwhole
  · decide
  · decide

/-- The same declaration is generated from both texts. -/
theorem generate_reordering_listFirst :
    Rearranged listFirst.toList listLast.toList ∧
      ∀ (options : Options) (source : String), Generator.generate options listFirst = .ok source ↔
        Generator.generate options listLast = .ok source :=
  ⟨listFirst_rearranged, generate_reordering.2 _ _ listFirst_rearranged⟩

end Text

end JsonShape
