import JsonShape.Proofs.Checked.Overflow
import JsonShape.Proofs.Checked.Parse
import JsonShape.Proofs.Checked.Tokens
import JsonShape.Proofs.Document.Diagnosis
import JsonShape.Proofs.Text.Width

/-!
# What can go wrong inside

A text is cut into tokens, the tokens are read as a tree, and a shape is inferred from the tree,
each by accesses that are checked where they are made.  What breaks a check gives nothing, and no text
breaks one.  If sums are checked besides, one of them can break: that of the number behind a name,
which may overflow on a text of two thousand million characters at least.

* `Document.ofTokens_ne_unsupportedRoot` — a list of tokens is never read as a primitive value.
* `Generator.generate?` — a declaration, or an error, if no check is broken.
* `Generator.checks_hold` — there is always one, and it is that of the text, but for such numbers.
* `Generator.generate?_crowdText` — a text on which a number overflows.
-/

namespace JsonShape

namespace Document

/-- No token is refused because a root is of the wrong kind. -/
theorem ofTokens_ne_unsupportedRoot (limit : Nat) (items : List Token) (kind : Node.Kind) :
    ofTokens limit items ≠ .error (.unsupportedRoot kind) := by
  intro h
  obtain ⟨before, t, after, p, -, -, hhalts⟩ := exists_halts .start 0 items h
  cases hhalts.refused

end Document

namespace Generator

/-- The tree of a text is one from which a shape can be inferred. -/
theorem root_of_parse {json : String} {limit : Nat} {root : Node}
    (h : parse json limit = .ok root) :
    root.WellFormed ∧ (root.kind = .object ∨ root.kind = .array) := by
  obtain ⟨d, edge, hcontainer, -, rfl, -⟩ := Text.exists_laidOut h
  exact ⟨d.wellFormed_node, Text.kind_of_isContainer.1 hcontainer⟩

/-- The declaration for a text, if no check is broken on the way. -/
def generate? (sums : Bool) (options : Options) (json : String) : Option (Except Error String) := do
  let items ← tokens? json
  match ← Document.parse? options.maxDepth items with
  | .error e => return .error e
  | .ok root => (Shape.ofRoot? sums root).map fun shape => shape.map (·.declaration options)

/-- The numbers behind the names for a text do not overflow. -/
def NumbersFit (options : Options) (json : String) : Prop :=
  ∀ root shape, parse json options.maxDepth = .ok root → Shape.ofRoot root = .ok shape →
    shape.NumbersFit

/-- A declaration is given, or an error, unless sums are checked and a number overflows. -/
theorem generate?_eq_some_iff {sums : Bool} {options : Options} {json : String}
    {result : Except Error String} :
    generate? sums options json = some result ↔
      result = generate options json ∧ (sums = true → NumbersFit options json) := by
  have hparse : Document.parse? options.maxDepth (tokens json) =
      some (parse json options.maxDepth) := Document.parse?_eq options.maxDepth (tokens json)
  rw [Text.generate_eq, NumbersFit]
  cases hroot : parse json options.maxDepth with
  | error e => simp [generate?, tokens?_eq, hparse, hroot, Except.bind, Except.map, eq_comm]
  | ok root =>
    obtain ⟨hwf, hkind⟩ := root_of_parse hroot
    have hchecked : generate? sums options json =
        (Shape.ofRoot? sums root).map fun shape => shape.map (·.declaration options) := by
      simp [generate?, tokens?_eq, hparse, hroot]
    have hresult : ((Except.ok root).bind Inferred.ofRoot).map (·.shape.declaration options) =
        (Shape.ofRoot root).map (·.declaration options) := by
      rw [Shape.ofRoot_eq_ok hkind, Except.bind, Inferred.ofRoot_eq_ok hkind]
      rfl
    rw [hchecked, hresult, Option.map_eq_some_iff]
    constructor
    · rintro ⟨shape, hshape, rfl⟩
      obtain ⟨rfl, hfit⟩ := (Shape.ofRoot?_eq_some_iff hwf).1 hshape
      refine ⟨rfl, ?_⟩
      rintro hsums _ shape ⟨⟩ hshape
      exact hfit hsums shape hshape
    · rintro ⟨rfl, hfit⟩
      refine ⟨_, (Shape.ofRoot?_eq_some_iff hwf).2 ⟨rfl, fun hsums shape => ?_⟩, rfl⟩
      exact hfit hsums root shape rfl

theorem numbersFit_of_length {json : String} (options : Options) (hlength : json.length < 2 ^ 31) :
    NumbersFit options json := by
  intro root shape hroot hshape
  rw [Shape.eq_ofGroup_of_ofRoot hshape]
  intro fields hstruct
  exact Naming.numbersFit_of_length ((Text.length_le_of_hasStruct hroot hstruct).trans_lt hlength)

/-- A text that has a tree has a declaration. -/
theorem generate_ne_unsupportedRoot (options : Options) (json : String) (kind : Node.Kind) :
    generate options json ≠ .error (.unsupportedRoot kind) := by
  rw [Text.generate_eq]
  cases hroot : parse json options.maxDepth with
  | error e =>
    have hne : e ≠ .unsupportedRoot kind := by
      rintro rfl
      exact Document.ofTokens_ne_unsupportedRoot options.maxDepth (tokens json) kind hroot
    simpa [Except.bind, Except.map] using hne
  | ok root => simp [Except.bind, Except.map, Inferred.ofRoot_eq_ok (root_of_parse hroot).2]

/-- No check is broken on any text, unless sums are checked.  Those of the tokens, of the tree and of
the names of single keys hold all the same; what breaks is the search for a name where no number
below the greatest one is left, and with it the declaration of a text with such a struct.  A text like
that has `2 ^ 31` characters at least.  No text is refused for the kind of its root. -/
theorem checks_hold (options : Options) (json : String) :
    tokens? json = some (tokens json) ∧
      (∀ limit items, Document.parse? limit items = some (Document.ofTokens limit items)) ∧
      (∀ text, Naming.identifier? text = some (Naming.identifier text)) ∧
      (∀ taken key ident, Naming.claim? true taken key = some ident ↔
        ident = Naming.claim taken key ∧ Naming.FreeBelow (2 ^ 31 - 1) taken key) ∧
      generate? false options json = some (generate options json) ∧
      (∀ result, generate? true options json = some result ↔
        result = generate options json ∧ NumbersFit options json) ∧
      (json.length < 2 ^ 31 → generate? true options json = some (generate options json)) ∧
      ∀ kind, generate options json ≠ .error (.unsupportedRoot kind) := by
  refine ⟨tokens?_eq json, Document.parse?_eq, Naming.identifier?_eq, fun _ _ _ => ?_,
    generate?_eq_some_iff.2 ⟨rfl, nofun⟩, fun _ => ?_, fun hlength => ?_,
    generate_ne_unsupportedRoot options json⟩
  · simpa using @Naming.claim?_eq_some_iff true
  · simpa using @generate?_eq_some_iff true
  · exact generate?_eq_some_iff.2 ⟨rfl, fun _ => numbersFit_of_length options hlength⟩

/-- A short text. -/
theorem checks_hold_empty :
    "\x7b\x7d".length < 2 ^ 31 ∧
      generate? true .default "\x7b\x7d" = some (generate .default "\x7b\x7d") := by
  have hlength : "\x7b\x7d".length < 2 ^ 31 := by decide
  exact ⟨hlength, (checks_hold .default "\x7b\x7d").2.2.2.2.2.2.1 hlength⟩

/-- For a text with the key `a`, the key `A` and the keys `A_1` and so on up to the last number but
one, there is a declaration; but if sums are checked there is none. -/
theorem generate?_crowdText :
    (∃ source, generate .default (Text.crowdText (2 ^ 31 - 2)) = .ok source) ∧
      generate? true .default (Text.crowdText (2 ^ 31 - 2)) = none := by
  have hroot : parse (Text.crowdText (2 ^ 31 - 2)) Options.default.maxDepth =
      .ok (.object (.ofPairs (Text.crowdPairs (2 ^ 31 - 2)))) :=
    Text.parse_jsonText (Text.jsonText_crowdText (by decide)) (by decide)
  refine ⟨Text.exists_generate_eq_ok hroot (.inl rfl), ?_⟩
  refine Option.eq_none_iff_forall_ne_some.2 fun result hresult => ?_
  refine Shape.not_numbersFit_crowdPairs (Nat.le_refl _) (by decide) ?_
  exact (generate?_eq_some_iff.1 hresult).2 rfl _ _ hroot (Shape.ofRoot_eq_ok (.inl rfl))

end Generator

end JsonShape
