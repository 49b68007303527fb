import SignalDesk.Blank
import SignalDesk.Numeral
import SignalDesk.FloatText
import SignalDesk.Time.Span
import SignalDesk.Time.Calendar

/-!
# Instants and their RFC 3339 text

An instant is a second of UTC and a number of nanoseconds in it; a leap second is the 59th second
with a thousand million nanoseconds or more. Instants are written as
`2023-11-14T22:13:20.123Z` and read leniently, from any offset.
-/

namespace SignalDesk

structure Instant where
  /-- Seconds since the start of 1970. -/
  second : Int
  nano : Nat
  deriving DecidableEq

namespace Instant

def ofTimestamp (ts : Timestamp) : Instant := ⟨ts / 1000, (ts % 1000).toNat * 1000000⟩

def toNanos (instant : Instant) : Int := instant.second * 1000000000 + instant.nano

def padded (width n : Nat) : List Char :=
  let digits := FloatText.decimalDigits n
  List.replicate (width - digits.length) '0' ++ digits

/-- Four digits, with a sign before a year outside 0 to 9999. -/
def yearText (year : Int) : List Char :=
  if 0 ≤ year ∧ year ≤ 9999 then padded 4 year.toNat
  else (if year < 0 then '-' else '+') :: padded 4 year.natAbs

/-- No more of milli-, micro- and nanoseconds than are needed. -/
def fractionText (nano : Nat) : List Char :=
  if nano = 0 then []
  else if nano % 1000000 = 0 then '.' :: padded 3 (nano / 1000000)
  else if nano % 1000 = 0 then '.' :: padded 6 (nano / 1000)
  else '.' :: padded 9 nano

def toChars (instant : Instant) : List Char :=
  let date := Date.ofDays (instant.second / 86400)
  let clock := (instant.second % 86400).toNat
  let second := clock % 60 + instant.nano / 1000000000
  yearText date.year ++ '-' :: padded 2 date.month ++ '-' :: padded 2 date.day ++
    'T' :: padded 2 (clock / 3600) ++ ':' :: padded 2 (clock / 60 % 60) ++ ':' :: padded 2 second ++
    fractionText (instant.nano % 1000000000) ++ ['Z']

def toText (instant : Instant) : String := String.ofList instant.toChars

/-- A number of at most `width` digits, or of any number of digits. -/
def readNumber? (width : Option Nat) (text : List Char) : Option (Nat × List Char) :=
  let digits := text.takeWhile Char.isDigit
  let digits :=
    match width with
    | some width => digits.take width
    | none => digits
  if digits.isEmpty then none else some (digitsValue digits, text.drop digits.length)

def readField? (text : List Char) : Option (Nat × List Char) := readNumber? (some 2) (trimStart text)

/-- A year: up to four digits, or a sign and any number of them. -/
def readYear? (text : List Char) : Option (Int × List Char) := do
  match trimStart text with
  | '-' :: rest =>
    let (year, rest) ← readNumber? none rest
    return (-(year : Int), rest)
  | '+' :: rest =>
    let (year, rest) ← readNumber? none rest
    return ((year : Int), rest)
  | text =>
    let (year, rest) ← readNumber? (some 4) text
    return ((year : Int), rest)

def readMark? (mark : Char) (text : List Char) : Option (List Char) :=
  match trimStart text with
  | c :: rest => if c = mark then some rest else none
  | [] => none

def readDate? (text : List Char) : Option (Date × List Char) := do
  let (year, text) ← readYear? text
  let (month, text) ← readField? (← readMark? '-' text)
  let (day, text) ← readField? (← readMark? '-' text)
  return (⟨year, month, day⟩, text)

/-- Nanoseconds after a point; digits after the ninth are dropped. -/
def readFraction? (text : List Char) : Option (Nat × List Char) :=
  match text with
  | '.' :: rest =>
    let digits := rest.takeWhile Char.isDigit
    let kept := digits.take 9
    if digits.isEmpty then none
    else some (digitsValue kept * Nat.pow 10 (9 - kept.length), rest.drop digits.length)
  | _ => some (0, text)

structure Clock where
  hour : Nat
  minute : Nat
  second : Nat
  nano : Nat

def readClock? (text : List Char) : Option (Clock × List Char) := do
  let (hour, text) ← readField? text
  let (minute, text) ← readField? (← readMark? ':' text)
  let (second, text) ← readField? (← readMark? ':' text)
  let (nano, text) ← readFraction? text
  return (⟨hour, minute, second, nano⟩, text)

def twoDigits? : List Char → Option (Nat × List Char)
  | a :: b :: rest => if a.isDigit && b.isDigit then some (digitsValue [a, b], rest) else none
  | _ => none

def isWestward? (sign : Char) : Option Bool :=
  if sign = '+' then some false
  else if sign = '-' ∨ sign = '−' then some true
  else none

/-- Hours and minutes east of UTC, in minutes. -/
def readOffset? (text : List Char) : Option (Int × List Char) := do
  let text := trimStart text
  if (text.take 3).map Char.toUpper = ['U', 'T', 'C'] then return (0, text.drop 3)
  match text with
  | 'Z' :: rest => return (0, rest)
  | 'z' :: rest => return (0, rest)
  | sign :: rest =>
    let westward ← isWestward? sign
    let (hours, rest) ← twoDigits? rest
    let (minutes, rest) ← twoDigits? (rest.dropWhile fun c => c == ':' || isWhiteSpace c)
    if 59 < minutes ∨ 23 < hours then none
    else
      let offset : Int := hours * 60 + minutes
      return (if westward then -offset else offset, rest)
  | [] => none

def inRange (instant : Instant) : Bool :=
  earliest / 1000 ≤ instant.second && instant.second ≤ latest / 1000

/-- The instant at which a clock at `offset` minutes east shows the given time. -/
def ofLocal? (date : Date) (clock : Clock) (offset : Int) : Option Instant :=
  if date.isValid && clock.hour ≤ 23 && clock.minute ≤ 59 && clock.second ≤ 60 then
    let leap := clock.second = 60
    let second := if leap then 59 else clock.second
    let clockSeconds := clock.hour * 3600 + clock.minute * 60 + second
    let nano := if leap then clock.nano + 1000000000 else clock.nano
    let shown : Instant := ⟨date.toDays * 86400 + clockSeconds, nano⟩
    let instant := { shown with second := shown.second - offset * 60 }
    if shown.inRange && instant.inRange then some instant else none
  else none

def ofText? (text : String) : Option Instant := do
  let (date, text) ← readDate? text.toList
  let text ←
    match text with
    | 'T' :: rest => some rest
    | 't' :: rest => some rest
    | ' ' :: rest => some rest
    | _ => none
  let (clock, text) ← readClock? text
  let (offset, text) ← readOffset? text
  if (trimStart text).isEmpty then ofLocal? date clock offset else none

end Instant

end SignalDesk
