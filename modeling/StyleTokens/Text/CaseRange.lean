namespace StyleTokens

/-- A range holds every `step`-th character from `first` to `last`; the image of the first one is `image`, and
the distance to the image is the same for all. -/
structure CaseRange where
  first : Nat
  last : Nat
  step : Nat
  image : Nat
  deriving DecidableEq, Repr

namespace CaseRange

def holds (r : CaseRange) (c : Char) : Bool :=
  r.first ≤ c.toNat && c.toNat ≤ r.last && (c.toNat - r.first) % r.step == 0

/-- The image of a character by the first range that holds it. -/
def lookup (ranges : List CaseRange) (c : Char) : Option Char :=
  (ranges.find? fun r => r.holds c).map fun r => Char.ofNat (r.image + (c.toNat - r.first))

end CaseRange

/-- Some range, both ends included, holds the character. -/
def inRanges (ranges : List (Nat × Nat)) (c : Char) : Bool :=
  ranges.any fun r => r.1 ≤ c.toNat && c.toNat ≤ r.2

end StyleTokens
