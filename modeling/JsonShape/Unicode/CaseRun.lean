/-!
# Runs of case mappings

Most case mappings of one character to one character come in runs: neighbouring code points, or
every second one, move by one common distance. A table of such runs says what a code point becomes.
-/

namespace JsonShape.Unicode

/-- The code points `first`, `first + step`, …, `last`, which move together so that `first` becomes
`target`. -/
structure CaseRun where
  /-- The lowest code point of the run. -/
  first : Nat
  /-- The highest code point of the run. -/
  last : Nat
  /-- The distance between neighbours in the run. -/
  step : Nat
  /-- What the lowest code point becomes. -/
  target : Nat
deriving Repr, DecidableEq

namespace CaseRun

/-- What `n` becomes, if the run holds it. -/
def image? (run : CaseRun) (n : Nat) : Option Nat :=
  if run.first ≤ n ∧ n ≤ run.last ∧ (n - run.first) % run.step = 0 then
    some (run.target + (n - run.first))
  else
    none

/-- What `n` becomes under the first run that holds it; a code point of no run stays as it is. -/
def imageIn (runs : List CaseRun) (n : Nat) : Nat :=
  (runs.findSome? (·.image? n)).getD n

end CaseRun

end JsonShape.Unicode
