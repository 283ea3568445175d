import StyleTokens.Binary64

namespace StyleTokens

/-- A positive decimal `digits * 10 ^ exponent`. -/
structure Decimal where
  digits : Nat
  exponent : Int
  deriving DecidableEq, Repr

namespace Decimal

/-- The word of the double nearest to the decimal. -/
def word (d : Decimal) : Nat :=
  if 0 ≤ d.exponent then Binary64.nearestWord (d.digits * tenTo d.exponent.toNat) 1
  else Binary64.nearestWord d.digits (tenTo (-d.exponent).toNat)

/-- The same decimal without the zeros at the end of its digits. -/
def trim (d : Decimal) : Decimal :=
  go (Nat.toDigits 10 d.digits).length d
where
  go : Nat → Decimal → Decimal
    | 0, d => d
    | fuel + 1, d =>
      if d.digits % 10 = 0 ∧ d.digits ≠ 0 then go fuel ⟨d.digits / 10, d.exponent + 1⟩ else d

end Decimal

namespace Binary64

/-- The place of the first digit of a positive word: its value is below `10 ^ place` and not below a tenth
of that. -/
def leadingPlace (word : Nat) : Int :=
  (Nat.toDigits 10 (units word * tenTo 400 / unitsPerOne)).length - 400

/-- The decimal with `count` digits that is nearest to the word and reads back as it, if there is one; of
two equally near the one whose last digit is even. -/
def nearestDecimal? (word count : Nat) : Option Decimal :=
  let exponent := leadingPlace word - count
  let num := if 0 ≤ exponent then units word else units word * tenTo (-exponent).toNat
  let den := if 0 ≤ exponent then unitsPerOne * tenTo exponent.toNat else unitsPerOne
  let near := roundDiv num den
  let below := num / den
  let far := if near = below then below + 1 else below
  [near, far].findSome? fun digits =>
    let d : Decimal := ⟨digits, exponent⟩
    if d.word = word ∧ digits ≠ 0 then some d else none

/-- All digits of a word. -/
def exactDecimal (word : Nat) : Decimal :=
  ⟨units word * Nat.pow 5 1074, -1074⟩

/-- The decimal with the fewest digits that reads back as the positive word. A candidate is taken only if it
reads back, so whatever is printed does. -/
def shortest (word : Nat) : Decimal :=
  (((List.range 17).findSome? fun n => nearestDecimal? word (n + 1)).getD (exactDecimal word)).trim

end Binary64

end StyleTokens
