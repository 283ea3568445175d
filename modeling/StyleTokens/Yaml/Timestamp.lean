import StyleTokens.Doc
import StyleTokens.Json.Reader
import StyleTokens.Yaml.Cursor
import StyleTokens.Yaml.Trouble

namespace StyleTokens

namespace Yaml

/-- The distance from universal time as it is written. -/
inductive ZoneText where
  | universal
  | apart (negative : Bool) (hours minutes : Nat)
  deriving DecidableEq, Repr

/-- A time of day as it is written. -/
structure ClockText where
  hour : Nat
  minute : Nat
  second : Nat
  fraction : List Char
  zone : Option ZoneText
  deriving DecidableEq, Repr

/-- A date as it is written, perhaps with a time; the date alone is in full form when month and day have two
digits. -/
structure TimestampText where
  date : Date
  fullForm : Bool
  clock : Option ClockText
  deriving DecidableEq, Repr

/-- As many digits as asked for. -/
def digits? (count : Nat) (cs : List Char) : Option (Nat × List Char) :=
  let ds := cs.take count
  if ds.length = count && ds.all isDigit then some (Json.digitsValue ds, cs.drop count) else none

def oneOrTwo? (cs : List Char) : Option (Nat × List Char) :=
  (digits? 2 cs).or (digits? 1 cs)

def after? (c : Char) : List Char → Option (List Char)
  | d :: rest => if d = c then some rest else none
  | [] => none

/-- The distance from universal time, up to the end of the text. -/
def zone? (cs : List Char) : Option (Option ZoneText) :=
  match cs, cs.dropWhile isWhite with
  | [], _ => some none
  | _, ['Z'] => some (some .universal)
  | _, sign :: rest =>
    if sign = '+' ∨ sign = '-' then do
      let (hours, rest) ← oneOrTwo? rest
      match rest with
      | [] => some (some (.apart (sign == '-') hours 0))
      | rest => do
        let (minutes, rest) ← digits? 2 (← after? ':' rest)
        if rest.isEmpty then some (some (.apart (sign == '-') hours minutes)) else none
    else none
  | _, [] => none

/-- A time of day, up to the end of the text. -/
def clock? (cs : List Char) : Option ClockText := do
  let (hour, rest) ← oneOrTwo? cs
  let (minute, rest) ← digits? 2 (← after? ':' rest)
  let (second, rest) ← digits? 2 (← after? ':' rest)
  let (fraction, rest) : List Char × List Char := match rest with
    | '.' :: rest => (rest.takeWhile isDigit, rest.dropWhile isDigit)
    | rest => ([], rest)
  let zone ← zone? rest
  pure ⟨hour, minute, second, fraction, zone⟩

def timestampText? (cs : List Char) : Option TimestampText := do
  let (year, rest) ← digits? 4 cs
  let (month, rest) ← oneOrTwo? (← after? '-' rest)
  let (day, rest) ← oneOrTwo? (← after? '-' rest)
  let date : Date := ⟨year, month, day⟩
  match rest with
  | [] => some ⟨date, cs.length == 10, none⟩
  | c :: more =>
    if c = 'T' ∨ c = 't' then (clock? more).map fun clock => ⟨date, false, some clock⟩
    else if isWhite c then (clock? (more.dropWhile isWhite)).map fun clock => ⟨date, false, some clock⟩
    else none

/-- A plain text that is a date or a time. -/
def isTimestampForm (cs : List Char) : Bool :=
  match timestampText? cs with
  | some t => t.fullForm || t.clock.isSome
  | none => false

def outOfBounds {α : Type} (text : String) : Except Trouble α := .error (.noValue (.unreadable text))

/-- The date, if there is one. -/
def checkDate (d : Date) : Except Trouble Date :=
  if d.year = 0 then outOfBounds "year 0 is out of range"
  else if d.month = 0 ∨ 12 < d.month then outOfBounds "month must be in 1..12"
  else if d.day = 0 ∨ Date.daysIn d.year d.month < d.day then outOfBounds "day is out of range for month"
  else .ok d

/-- A span of minutes as days and seconds. -/
def spanText (minutes : Int) : String :=
  let days := minutes / 1440
  let seconds := minutes % 1440 * 60
  if seconds = 0 then s!"datetime.timedelta(days={days})"
  else s!"datetime.timedelta(days={days}, seconds={seconds})"

/-- The distance from universal time in minutes; it has to be less than a day. -/
def zoneMinutes : ZoneText → Except Trouble Int
  | .universal => .ok 0
  | .apart negative hours minutes =>
    let size : Int := hours * 60 + minutes
    let distance := if negative then -size else size
    if size < 1440 then .ok distance
    else
      let span := spanText distance
      outOfBounds ("offset must be a timedelta strictly between -timedelta(hours=24) and " ++
        s!"timedelta(hours=24), not {span}.")

/-- The first six digits of a fraction as millionths. -/
def microseconds (fraction : List Char) : Nat :=
  let ds := fraction.take 6
  Json.digitsValue (ds ++ List.replicate (6 - ds.length) '0')

/-- The time of day, if there is one. -/
def checkClock (t : ClockText) (zone : Option Int) : Except Trouble Clock :=
  if 23 < t.hour then outOfBounds "hour must be in 0..23"
  else if 59 < t.minute then outOfBounds "minute must be in 0..59"
  else if 59 < t.second then outOfBounds "second must be in 0..59"
  else .ok ⟨t.hour, t.minute, t.second, microseconds t.fraction, zone⟩

def timestampValue (cs : List Char) : Except Trouble Scalar := do
  match timestampText? cs with
  | none =>
    .error (.noValue (.badShape "\x27NoneType\x27 object has no attribute \x27groupdict\x27"))
  | some t => match t.clock with
    | none => pure (.date (← checkDate t.date))
    | some clock =>
      let zone ← clock.zone.mapM zoneMinutes
      let date ← checkDate t.date
      pure (.time date (← checkClock clock zone))

end Yaml

end StyleTokens
