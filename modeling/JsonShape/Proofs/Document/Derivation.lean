import JsonShape.Proofs.Document.Node
import JsonShape.Token.Basic

/-!
# Derivations of a document

The grammar of a document over tokens, as trees:

    value   = object | array | string | integer | float | bool | null
    object  = "{" [ member *( "," member ) ] "}"
    member  = string ":" value
    array   = "[" [ value *( "," value ) ] "]"

The leaves of a tree are tokens of the right kinds with any spans and texts.

* `Derivation.tokens` — the tokens that a tree derives, `Derivation.node` — the document tree that
  it stands for, `Derivation.nesting` — how deep its containers nest.
* `tokens_injective` — the grammar is unambiguous.
* `wellFormed_node` — in the document tree every key of an object has its place and a value.
-/

namespace JsonShape

namespace Token

/-- A token of a given kind. -/
abbrev Of (kind : Kind) : Type := { t : Token // t.kind = kind }

namespace Of

/-- Tokens of two kinds differ. -/
theorem ne {kind other : Kind} (a : Of kind) (b : Of other) (h : kind ≠ other) : a.1 ≠ b.1 := by
  intro hab
  exact h (a.2.symm.trans (hab ▸ b.2))

end Of

/-- The kind of the tokens that stand for a primitive value of the given type. -/
def kindOf : Primitive → Kind
  | .string => .string
  | .bool => .bool
  | .integer => .integer
  | .float => .float
  | .null => .null

end Token

mutual

/-- How a value is derived. -/
inductive Derivation where
  /-- A value that is a single token. -/
  | primitive (type : Primitive) (t : Token.Of (Token.kindOf type))
  /-- An object without members. -/
  | emptyObject (opening : Token.Of .leftBrace) (closing : Token.Of .rightBrace)
  /-- An object with a first member. -/
  | object (opening : Token.Of .leftBrace) (key : Token.Of .string) (colon : Token.Of .colon)
      (value : Derivation) (more : MoreMembers) (closing : Token.Of .rightBrace)
  /-- An array without elements. -/
  | emptyArray (opening : Token.Of .leftBracket) (closing : Token.Of .rightBracket)
  /-- An array with a first element. -/
  | array (opening : Token.Of .leftBracket) (value : Derivation) (more : MoreElements)
      (closing : Token.Of .rightBracket)

/-- How the members after the first one are derived. -/
inductive MoreMembers where
  /-- There are no more. -/
  | none
  /-- A comma and a member, before the others. -/
  | next (comma : Token.Of .comma) (key : Token.Of .string) (colon : Token.Of .colon)
      (value : Derivation) (more : MoreMembers)

/-- How the elements after the first one are derived. -/
inductive MoreElements where
  /-- There are no more. -/
  | none
  /-- A comma and an element, before the others. -/
  | next (comma : Token.Of .comma) (value : Derivation) (more : MoreElements)

end

/-! ## What a tree derives -/

mutual

/-- The tokens of a value. -/
def Derivation.tokens : Derivation → List Token
  | .primitive _ t => [t.1]
  | .emptyObject opening closing => [opening.1, closing.1]
  | .object opening key colon value more closing =>
    opening.1 :: key.1 :: colon.1 :: (value.tokens ++ (more.tokens ++ [closing.1]))
  | .emptyArray opening closing => [opening.1, closing.1]
  | .array opening value more closing =>
    opening.1 :: (value.tokens ++ (more.tokens ++ [closing.1]))

/-- The tokens of further members. -/
def MoreMembers.tokens : MoreMembers → List Token
  | .none => []
  | .next comma key colon value more =>
    comma.1 :: key.1 :: colon.1 :: (value.tokens ++ more.tokens)

/-- The tokens of further elements. -/
def MoreElements.tokens : MoreElements → List Token
  | .none => []
  | .next comma value more => comma.1 :: (value.tokens ++ more.tokens)

end

mutual

/-- The document tree of a value.  The values of an object are collected under the texts of their
keys. -/
def Derivation.node : Derivation → Node
  | .primitive type _ => .primitive type
  | .emptyObject _ _ => .object (.ofPairs [])
  | .object _ key _ value more _ => .object (.ofPairs ((key.1.text, value.node) :: more.pairs))
  | .emptyArray _ _ => .array []
  | .array _ value more _ => .array (value.node :: more.nodes)

/-- The keys and values of further members, in order. -/
def MoreMembers.pairs : MoreMembers → List (String × Node)
  | .none => []
  | .next _ key _ value more => (key.1.text, value.node) :: more.pairs

/-- The further elements, in order. -/
def MoreElements.nodes : MoreElements → List Node
  | .none => []
  | .next _ value more => value.node :: more.nodes

end

mutual

/-- How many containers lie around the innermost part of a value. -/
def Derivation.nesting : Derivation → Nat
  | .primitive _ _ => 0
  | .emptyObject _ _ => 1
  | .object _ _ _ value more _ => 1 + max value.nesting more.nesting
  | .emptyArray _ _ => 1
  | .array _ value more _ => 1 + max value.nesting more.nesting

/-- How many containers lie around the innermost part of further members. -/
def MoreMembers.nesting : MoreMembers → Nat
  | .none => 0
  | .next _ _ _ value more => max value.nesting more.nesting

/-- How many containers lie around the innermost part of further elements. -/
def MoreElements.nesting : MoreElements → Nat
  | .none => 0
  | .next _ value more => max value.nesting more.nesting

end

namespace Derivation

/-- Whether a value is an object or an array, as a whole document is. -/
def IsContainer : Derivation → Prop
  | .primitive _ _ => False
  | _ => True

/-! ### The first token of a value -/

/-- The kind of the first token of a value. -/
def firstKind : Derivation → Token.Kind
  | .primitive type _ => Token.kindOf type
  | .emptyObject _ _ | .object _ _ _ _ _ _ => .leftBrace
  | .emptyArray _ _ | .array _ _ _ _ => .leftBracket

theorem exists_tokens_eq_cons (d : Derivation) :
    ∃ (t : Token.Of d.firstKind) (ts : List Token), d.tokens = t.1 :: ts := by
  cases d with
  | primitive type t => exact ⟨t, [], rfl⟩
  | emptyObject opening closing => exact ⟨opening, _, rfl⟩
  | object opening key colon value more closing => exact ⟨opening, _, rfl⟩
  | emptyArray opening closing => exact ⟨opening, _, rfl⟩
  | array opening value more closing => exact ⟨opening, _, rfl⟩

theorem startsValue_firstKind (d : Derivation) : d.firstKind.startsValue = true := by
  cases d with
  | primitive type t => cases type <;> rfl
  | _ => rfl

/-- A value does not begin with a token that cannot begin one. -/
theorem tokens_append_ne {kind : Token.Kind} (d : Derivation) (t : Token.Of kind)
    (h : kind.startsValue = false) (xs ys : List Token) : d.tokens ++ xs ≠ t.1 :: ys := by
  obtain ⟨first, rest, hfirst⟩ := d.exists_tokens_eq_cons
  rw [hfirst, List.cons_append]
  intro heq
  have hne : d.firstKind ≠ kind := fun hkind => by
    have hstarts := d.startsValue_firstKind
    rw [hkind, h] at hstarts
    cases hstarts
  exact first.ne t hne (List.cons.inj heq).1

theorem firstKind_eq {d e : Derivation} {xs ys : List Token}
    (h : d.tokens ++ xs = e.tokens ++ ys) : d.firstKind = e.firstKind := by
  obtain ⟨t, ts, ht⟩ := d.exists_tokens_eq_cons
  obtain ⟨u, us, hu⟩ := e.exists_tokens_eq_cons
  rw [ht, hu] at h
  rw [← t.2, ← u.2, (List.cons.inj h).1]

end Derivation

theorem Token.kindOf_injective {type other : Primitive} (h : kindOf type = kindOf other) :
    type = other := by
  cases type <;> cases other <;> first | rfl | cases h

/-! ## The grammar is unambiguous -/

mutual

/-- A value is the only one that begins a list of tokens, and so is what follows it. -/
theorem Derivation.eq_of_append (d e : Derivation) {xs ys : List Token}
    (h : d.tokens ++ xs = e.tokens ++ ys) : d = e ∧ xs = ys := by
  cases d with
  | primitive type t =>
    cases e with
    | primitive other u =>
      obtain ⟨htoken, hrest⟩ := List.cons.inj h
      obtain rfl := Token.kindOf_injective (t.2.symm.trans (htoken ▸ u.2))
      exact ⟨by rw [Subtype.ext htoken], hrest⟩
    | _ => cases type <;> cases Derivation.firstKind_eq h
  | emptyObject opening closing =>
    cases e with
    | emptyObject o c =>
      simp only [Derivation.tokens, List.cons_append, List.nil_append, List.cons.injEq] at h
      obtain ⟨ho, hc, hrest⟩ := h
      exact ⟨by rw [Subtype.ext ho, Subtype.ext hc], hrest⟩
    | object o key _ _ _ _ =>
      exact absurd (List.cons.inj (List.cons.inj h).2).1 (closing.ne key (by decide))
    | primitive other u => cases other <;> cases Derivation.firstKind_eq h
    | _ => cases Derivation.firstKind_eq h
  | object opening key colon value more closing =>
    cases e with
    | object o k c v m cl =>
      simp only [Derivation.tokens, List.cons_append, List.append_assoc, List.cons.injEq] at h
      obtain ⟨ho, hk, hc, htail⟩ := h
      obtain ⟨rfl, hmore⟩ := value.eq_of_append v htail
      obtain ⟨rfl, hclosing, hrest⟩ := more.eq_of_append m closing cl hmore
      exact ⟨by rw [Subtype.ext ho, Subtype.ext hk, Subtype.ext hc, hclosing], hrest⟩
    | emptyObject o c =>
      exact absurd (List.cons.inj (List.cons.inj h).2).1 (key.ne c (by decide))
    | primitive other u => cases other <;> cases Derivation.firstKind_eq h
    | _ => cases Derivation.firstKind_eq h
  | emptyArray opening closing =>
    cases e with
    | emptyArray o c =>
      simp only [Derivation.tokens, List.cons_append, List.nil_append, List.cons.injEq] at h
      obtain ⟨ho, hc, hrest⟩ := h
      exact ⟨by rw [Subtype.ext ho, Subtype.ext hc], hrest⟩
    | array o v m c =>
      simp only [Derivation.tokens, List.cons_append, List.append_assoc, List.cons.injEq] at h
      exact absurd h.2.symm (v.tokens_append_ne closing rfl _ _)
    | primitive other u => cases other <;> cases Derivation.firstKind_eq h
    | _ => cases Derivation.firstKind_eq h
  | array opening value more closing =>
    cases e with
    | array o v m c =>
      simp only [Derivation.tokens, List.cons_append, List.append_assoc, List.cons.injEq] at h
      obtain ⟨ho, htail⟩ := h
      obtain ⟨rfl, hmore⟩ := value.eq_of_append v htail
      obtain ⟨rfl, hclosing, hrest⟩ := more.eq_of_append m closing c hmore
      exact ⟨by rw [Subtype.ext ho, hclosing], hrest⟩
    | emptyArray o c =>
      simp only [Derivation.tokens, List.cons_append, List.append_assoc, List.cons.injEq] at h
      exact absurd h.2 (value.tokens_append_ne c rfl _ _)
    | primitive other u => cases other <;> cases Derivation.firstKind_eq h
    | _ => cases Derivation.firstKind_eq h

/-- Further members, up to the end of the object, are the only ones that begin a list of tokens. -/
theorem MoreMembers.eq_of_append (m n : MoreMembers) (a b : Token.Of .rightBrace)
    {xs ys : List Token} (h : m.tokens ++ ([a.1] ++ xs) = n.tokens ++ ([b.1] ++ ys)) :
    m = n ∧ a = b ∧ xs = ys := by
  cases m with
  | none =>
    cases n with
    | none => exact ⟨rfl, Subtype.ext (List.cons.inj h).1, (List.cons.inj h).2⟩
    | next comma _ _ _ _ => exact absurd (List.cons.inj h).1 (a.ne comma (by decide))
  | next comma key colon value more =>
    cases n with
    | none => exact absurd (List.cons.inj h).1 (comma.ne b (by decide))
    | next co k c v n =>
      simp only [MoreMembers.tokens, List.cons_append, List.append_assoc, List.cons.injEq] at h
      obtain ⟨hcomma, hk, hc, htail⟩ := h
      obtain ⟨rfl, hmore⟩ := value.eq_of_append v htail
      obtain ⟨rfl, hclosing, hrest⟩ := more.eq_of_append n a b hmore
      exact ⟨by rw [Subtype.ext hcomma, Subtype.ext hk, Subtype.ext hc], hclosing, hrest⟩

/-- Further elements, up to the end of the array, are the only ones that begin a list of tokens. -/
theorem MoreElements.eq_of_append (m n : MoreElements) (a b : Token.Of .rightBracket)
    {xs ys : List Token} (h : m.tokens ++ ([a.1] ++ xs) = n.tokens ++ ([b.1] ++ ys)) :
    m = n ∧ a = b ∧ xs = ys := by
  cases m with
  | none =>
    cases n with
    | none => exact ⟨rfl, Subtype.ext (List.cons.inj h).1, (List.cons.inj h).2⟩
    | next comma _ _ => exact absurd (List.cons.inj h).1 (a.ne comma (by decide))
  | next comma value more =>
    cases n with
    | none => exact absurd (List.cons.inj h).1 (comma.ne b (by decide))
    | next co v n =>
      simp only [MoreElements.tokens, List.cons_append, List.append_assoc, List.cons.injEq] at h
      obtain ⟨hcomma, htail⟩ := h
      obtain ⟨rfl, hmore⟩ := value.eq_of_append v htail
      obtain ⟨rfl, hclosing, hrest⟩ := more.eq_of_append n a b hmore
      exact ⟨by rw [Subtype.ext hcomma], hclosing, hrest⟩

end

namespace Derivation

/-- No list of tokens has two derivations. -/
theorem tokens_injective : Function.Injective tokens := by
  intro d e h
  have happend : d.tokens ++ [] = e.tokens ++ [] := by rw [h]
  exact (d.eq_of_append e happend).1

end Derivation

/-! ## Document trees are well-formed -/

mutual

/-- In the tree of a derivation every key of an object has its place in the order and a value. -/
theorem Derivation.wellFormed_node (d : Derivation) : d.node.WellFormed := by
  cases d with
  | primitive type t => exact .primitive type
  | emptyObject opening closing => exact .ofPairs fun pair hpair => absurd hpair List.not_mem_nil
  | object opening key colon value more closing =>
    exact .ofPairs (List.forall_mem_cons.2 ⟨value.wellFormed_node, more.wellFormed_pairs⟩)
  | emptyArray opening closing => exact .array fun node hnode => absurd hnode List.not_mem_nil
  | array opening value more closing =>
    exact .array (List.forall_mem_cons.2 ⟨value.wellFormed_node, more.wellFormed_nodes⟩)

theorem MoreMembers.wellFormed_pairs (m : MoreMembers) :
    ∀ pair ∈ m.pairs, pair.2.WellFormed := by
  cases m with
  | none => exact fun pair hpair => absurd hpair List.not_mem_nil
  | next comma key colon value more =>
    exact List.forall_mem_cons.2 ⟨value.wellFormed_node, more.wellFormed_pairs⟩

theorem MoreElements.wellFormed_nodes (m : MoreElements) : ∀ node ∈ m.nodes, node.WellFormed := by
  cases m with
  | none => exact fun node hnode => absurd hnode List.not_mem_nil
  | next comma value more =>
    exact List.forall_mem_cons.2 ⟨value.wellFormed_node, more.wellFormed_nodes⟩

end

end JsonShape
