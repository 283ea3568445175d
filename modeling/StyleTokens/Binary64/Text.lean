import StyleTokens.Binary64.Shortest

namespace StyleTokens

/-- How the doubles that are no numbers are spelled. -/
structure SpecialNames where
  nan : String
  infinity : String

namespace Binary64

/-- The decimal digits of a whole number. -/
def digitsOf (n : Nat) : List Char := Nat.toDigits 10 n

/-- The sign and at least two digits of an exponent. -/
def exponentText (e : Int) : List Char :=
  let digits := digitsOf e.natAbs
  (if e < 0 then '-' else '+') :: (if digits.length < 2 then '0' :: digits else digits)

/-- Digits with a point after `place` of them. -/
def positional (digits : List Char) (place : Int) : List Char :=
  if place ≤ 0 then '0' :: '.' :: (List.replicate (-place).toNat '0' ++ digits)
  else if (digits.length : Int) ≤ place then
    digits ++ List.replicate (place.toNat - digits.length) '0' ++ ['.', '0']
  else digits.take place.toNat ++ '.' :: digits.drop place.toNat

/-- Digits with an exponent; the point stands after the first digit if there are more. -/
def scientific (digits : List Char) (place : Int) : List Char :=
  let mantissa := match digits with
    | first :: next :: rest => first :: '.' :: next :: rest
    | _ => digits
  mantissa ++ 'e' :: exponentText (place - 1)

/-- The shortest text of a finite word without sign: with a point if the decimal exponent is at least -4 and
below 16, with an exponent otherwise. -/
def wordText (word : Nat) : List Char :=
  if word = 0 then ['0', '.', '0']
  else
    let d := shortest word
    let digits := digitsOf d.digits
    let place := digits.length + d.exponent
    if -4 < place ∧ place ≤ 16 then positional digits place else scientific digits place

/-- The text of a double, with the given names for what is no number. -/
def text (names : SpecialNames) : Binary64 → List Char
  | .nan => names.nan.toList
  | .infinity negative => (if negative then ['-'] else []) ++ names.infinity.toList
  | .finite negative word => (if negative then ['-'] else []) ++ wordText word

end Binary64

end StyleTokens
