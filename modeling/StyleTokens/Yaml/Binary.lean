import StyleTokens.Yaml.Trouble

namespace StyleTokens

namespace Yaml

/-- The value of a digit to base sixty-four. -/
def base64Value? (c : Char) : Option Nat :=
  if c.isUpper then some (c.toNat - 65)
  else if c.isLower then some (c.toNat - 71)
  else if isDigit c then some (c.toNat + 4)
  else if c = '+' then some 62
  else if c = '/' then some 63
  else none

/-- The bytes of digits. `place` counts the digits of the group so far, `left` holds the bits of the last one
that no byte has, and `fill` counts the signs that fill up the group. -/
def base64Bytes : (place left fill : Nat) → List Char → Option (List UInt8)
  | place, _, _, [] => if place = 0 then some [] else none
  | place, left, fill, c :: rest =>
    if c = '=' then
      if 2 ≤ place ∧ 4 ≤ place + fill + 1 then some []
      else base64Bytes place left (if 2 ≤ place then fill + 1 else fill) rest
    else match base64Value? c with
      | none => base64Bytes place left fill rest
      | some n =>
        let byte (high : Nat) : UInt8 := UInt8.ofNat high
        match place with
        | 0 => base64Bytes 1 n 0 rest
        | 1 => (base64Bytes 2 (n % 16) 0 rest).map (byte (left * 4 + n / 16) :: ·)
        | 2 => (base64Bytes 3 (n % 4) 0 rest).map (byte (left * 16 + n / 4) :: ·)
        | _ => (base64Bytes 0 0 0 rest).map (byte (left * 64 + n) :: ·)

/-- The bytes of a text in base64. Characters that are no digits are passed over; the text ends with the sign
that fills up its last group of four. -/
def binaryValue (text : String) : Except Trouble (List UInt8) :=
  if text.toList.all fun c => c.toNat < 0x80 then
    match base64Bytes 0 0 0 text.toList with
    | some bytes => .ok bytes
    | none => .error .invalid
  else .error .invalid

end Yaml

end StyleTokens
