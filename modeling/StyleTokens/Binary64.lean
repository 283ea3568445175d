namespace StyleTokens

/-- The number of doubles from one power of two up to the next, which is `2 ^ 52`. -/
def octave : Nat := 1 <<< 52

/-- The number of finite non-negative doubles. -/
def finiteWords : Nat := 2047 * octave

def tenTo (places : Nat) : Nat := Nat.pow 10 places

/-- A double-precision number as exact data. A finite one is a sign and a word of magnitude; the words count the
non-negative doubles in order, from zero to the largest one. -/
inductive Binary64 where
  | nan
  | infinity (negative : Bool)
  | finite (negative : Bool) (word : Fin finiteWords)
  deriving DecidableEq

namespace Binary64

/-- How often the significand of a word is doubled, counted from the least double. -/
def scale (word : Nat) : Nat := word / octave - 1

/-- The whole number that the scale doubles; it has the leading bit unless the word is subnormal. -/
def significand (word : Nat) : Nat :=
  if word < octave then word else octave + word % octave

/-- The value of a word in units of the least positive double, which is `1 / 2 ^ 1074`. -/
def units (word : Nat) : Nat := significand word <<< scale word

def unitsPerOne : Nat := 1 <<< 1074

/-- The quotient rounded to the nearest whole number, a tie to the even one. -/
def roundDiv (num den : Nat) : Nat :=
  let quotient := num / den
  let twice := 2 * (num % den)
  if twice < den then quotient
  else if den < twice then quotient + 1
  else quotient + quotient % 2

/-- The word nearest to a fraction, ties to even; it may lie past the last finite word. -/
def nearestWord (num den : Nat) : Nat :=
  let whole := num * unitsPerOne / den
  let shift := Nat.log2 whole - 52
  shift * octave + roundDiv (num * unitsPerOne) (den <<< shift)

/-- The double of a word; a word past the last finite one is an infinity. -/
def ofWord (negative : Bool) (word : Nat) : Binary64 :=
  if h : word < finiteWords then .finite negative ⟨word, h⟩ else .infinity negative

/-- The double nearest to a fraction, ties to even. -/
def nearest (negative : Bool) (num den : Nat) : Binary64 :=
  ofWord negative (nearestWord num den)

/-- The double nearest to `digits * 10 ^ exponent`. Past 400 places on either side of the point the result
is infinite or zero whatever the digits are. -/
def ofDecimal (negative : Bool) (digits : Nat) (exponent : Int) : Binary64 :=
  let size : Int := (Nat.toDigits 10 digits).length + exponent
  if digits = 0 ∨ size < -400 then ofWord negative 0
  else if 400 < size then .infinity negative
  else if 0 ≤ exponent then nearest negative (digits * tenTo exponent.toNat) 1
  else nearest negative digits (tenTo (-exponent).toNat)

/-- The whole number nearest to an integer. -/
def ofInt (n : Int) : Binary64 :=
  nearest (n < 0) n.natAbs 1

/-- The integer that the double is, if it is one. -/
def toInt? : Binary64 → Option Int
  | .finite negative word =>
    if units word % unitsPerOne = 0 then
      let n : Int := (units word / unitsPerOne : Nat)
      some (if negative then -n else n)
    else none
  | _ => none

/-- The double with its sign turned. -/
def neg : Binary64 → Binary64
  | .nan => .nan
  | .infinity negative => .infinity (!negative)
  | .finite negative word => .finite (!negative) word

/-- The value of a finite double in units of the least positive one. -/
def signedUnits (negative : Bool) (word : Nat) : Int :=
  if negative then -(units word : Int) else units word

/-- The rounded sum of two doubles. A sum of zero is negative only if both summands are. -/
def add : Binary64 → Binary64 → Binary64
  | .finite m a, .finite n b =>
    let sum := signedUnits m a + signedUnits n b
    nearest (if sum = 0 then m && n else sum < 0) sum.natAbs unitsPerOne
  | .nan, _ => .nan
  | _, .nan => .nan
  | .infinity m, .infinity n => if m = n then .infinity m else .nan
  | .infinity m, _ => .infinity m
  | _, .infinity n => .infinity n

/-- The rounded product of a double and a positive whole number. -/
def mulNat : Binary64 → Nat → Binary64
  | .finite negative a, n => nearest negative (units a * n) unitsPerOne
  | x, _ => x

end Binary64

end StyleTokens
