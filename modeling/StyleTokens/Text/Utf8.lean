namespace StyleTokens

namespace Utf8

/-- What is wrong at the place of a fault. -/
inductive Reason where
  | invalidStart
  | invalidContinuation
  | unexpectedEnd
  deriving DecidableEq, Repr

def Reason.message : Reason → String
  | invalidStart => "invalid start byte"
  | invalidContinuation => "invalid continuation byte"
  | unexpectedEnd => "unexpected end of data"

/-- Bytes that are no character: where they begin, how many they are, and the first of them. -/
structure Fault where
  reason : Reason
  position : Nat
  count : Nat
  byte : Nat
  deriving DecidableEq, Repr

/-- The fault with its place and, for a single byte, its value. -/
def Fault.message (f : Fault) : String :=
  let place :=
    if f.count ≤ 1 then
      let hex := String.ofList [Nat.digitChar (f.byte / 16), Nat.digitChar (f.byte % 16)]
      s!"byte 0x{hex} in position {f.position}"
    else s!"bytes in position {f.position}-{f.position + f.count - 1}"
  s!"\x27utf-8\x27 codec can\x27t decode {place}: {f.reason.message}"

/-- A byte that goes on in a character. -/
def isTail (n : Nat) : Bool := 0x80 ≤ n && n ≤ 0xBF

/-- The least and the greatest second byte after a first byte, and how many bytes the character has. -/
def lead? (n : Nat) : Option (Nat × Nat × Nat) :=
  if n ≤ 0x7F then some (0, 0, 1)
  else if 0xC2 ≤ n ∧ n ≤ 0xDF then some (0x80, 0xBF, 2)
  else if n = 0xE0 then some (0xA0, 0xBF, 3)
  else if n = 0xED then some (0x80, 0x9F, 3)
  else if 0xE1 ≤ n ∧ n ≤ 0xEF then some (0x80, 0xBF, 3)
  else if n = 0xF0 then some (0x90, 0xBF, 4)
  else if 0xF1 ≤ n ∧ n ≤ 0xF3 then some (0x80, 0xBF, 4)
  else if n = 0xF4 then some (0x80, 0x8F, 4)
  else none

/-- The bytes of the character at the start, or the reason why there is none and the bytes to report. -/
def measure : List UInt8 → Except (Reason × Nat) Nat
  | [] => .error (.unexpectedEnd, 0)
  | first :: rest =>
    match lead? first.toNat with
    | none => .error (.invalidStart, 1)
    | some (low, high, size) =>
      if size = 1 then .ok 1
      else match rest with
        | [] => .error (.unexpectedEnd, 1)
        | second :: rest =>
          if second.toNat < low ∨ high < second.toNat then .error (.invalidContinuation, 1)
          else
            let tail := (rest.take (size - 2)).takeWhile fun b => isTail b.toNat
            if tail.length = size - 2 then .ok size
            else if tail.length = rest.length then .error (.unexpectedEnd, 2 + tail.length)
            else .error (.invalidContinuation, 2 + tail.length)

/-- The first fault at or after a place; the bytes begin at that place. -/
def faultFrom (position : Nat) : List UInt8 → Option Fault
  | [] => none
  | b :: rest =>
    match measure (b :: rest) with
    | .error (reason, count) => some ⟨reason, position, count, b.toNat⟩
    | .ok size => faultFrom (position + size) (rest.drop (size - 1))
termination_by bytes => bytes.length
decreasing_by
  simp only [List.length_cons, List.length_drop]
  omega

def decode (bytes : ByteArray) : Except Fault String :=
  match String.fromUTF8? bytes with
  | some s => .ok s
  | none => .error ((faultFrom 0 bytes.toList).getD ⟨.unexpectedEnd, bytes.size, 0, 0⟩)

theorem decode_toUTF8 (s : String) : decode s.toUTF8 = .ok s := by
  have h : String.fromUTF8? s.toByteArray = some s := by
    unfold String.fromUTF8?
    rw [dif_pos s.isValidUTF8]
    rfl
  unfold decode
  rw [show s.toUTF8 = s.toByteArray from rfl, h]

end Utf8

/-- Each line end as one line feed: a carriage return, with or without a line feed after it, becomes one. -/
def unifyNewlines : List Char → List Char
  | [] => []
  | '\r' :: '\n' :: rest => '\n' :: unifyNewlines rest
  | '\r' :: rest => '\n' :: unifyNewlines rest
  | c :: rest => c :: unifyNewlines rest

end StyleTokens
