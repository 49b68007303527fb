import SignalDesk.Hex
import SignalDesk.Numeral
import SignalDesk.Data

/-!
# Reading JSON

The reader accepts exactly the JSON grammar, to any depth. Integers of 64 bits stay integers, every
other number becomes a float in the way the caller asks for, and what the grammar admits but no value
represents is read as unreadable data.
-/

namespace SignalDesk.Json

def isBlank (c : Char) : Bool := c == ' ' || c == '\n' || c == '\t' || c == '\r'

def skipBlanks (text : List Char) : List Char := text.dropWhile isBlank

def afterWord? : List Char → List Char → Option (List Char)
  | [], text => some text
  | c :: word, d :: text => if c = d then afterWord? word text else none
  | _ :: _, [] => none

def readExponent? (text : List Char) : Option (Int × List Char) :=
  match text with
  | e :: rest =>
    if e == 'e' || e == 'E' then
      let (negative, rest) :=
        match rest with
        | '-' :: rest => (true, rest)
        | '+' :: rest => (false, rest)
        | _ => (false, rest)
      let (digits, rest) := rest.span Char.isDigit
      if digits.isEmpty then none
      else
        let magnitude : Int := digitsValue digits
        some (if negative then -magnitude else magnitude, rest)
    else some (0, text)
  | [] => some (0, text)

def readFraction? (text : List Char) : Option (List Char × List Char) :=
  match text with
  | '.' :: rest =>
    let (digits, rest) := rest.span Char.isDigit
    if digits.isEmpty then none else some (digits, rest)
  | _ => some ([], text)

/-- A number as it is written: its sign, the digits before and after the point, and the exponent. -/
structure Written where
  negative : Bool
  whole : List Char
  fraction : List Char
  exponent : Int

namespace Written

/-- The nearest float, if there is one. -/
def nearest (number : Written) : Data :=
  let digits := digitsValue (number.whole ++ number.fraction)
  let x := Numeral.toFloat ⟨number.negative, digits, number.exponent - number.fraction.length⟩
  if x.isFinite then .float x else .unreadable

/-- Appends digits to a word up to the first that does not fit, which is left with those after it. -/
def appendDigits (word : Nat) : List Char → Nat × List Char
  | [] => (word, [])
  | c :: digits =>
    let longer := 10 * word + (c.toNat - '0'.toNat)
    if longer < UInt64.size then appendDigits longer digits else (word, c :: digits)

def largestPower : Nat := 308

def powerOfTen (exponent : Nat) : Float := Numeral.nearest 1 exponent

/-- A float over a power of ten. What is beyond the largest power is divided again, unless it is zero. -/
def overPowerOfTen (x : Float) (exponent : Nat) : Float :=
  if exponent ≤ largestPower then x / powerOfTen exponent
  else if x == 0.0 then x
  else overPowerOfTen (x / powerOfTen largestPower) (exponent - largestPower)
termination_by exponent
decreasing_by
  unfold largestPower at *
  omega

/-- A word times or over a power of ten, unless the product overflows. -/
def scaled? (word : Nat) (exponent : Int) : Option Float :=
  let x := word.toUInt64.toFloat
  if exponent < 0 then some (overPowerOfTen x exponent.natAbs)
  else if exponent ≤ largestPower then
    let product := x * powerOfTen exponent.toNat
    if product.isInf then none else some product
  else if word = 0 then some x
  else none

/-- A float from the leading digits, as many as a word of 64 bits holds. The digits and the scaling are
rounded one after the other, so the last bit can differ from that of the nearest float. -/
def quick (number : Written) : Data :=
  let (whole, wholeLeft) := appendDigits 0 number.whole
  let (word, fractionLeft) := appendDigits whole number.fraction
  let read : Int := number.fraction.length - fractionLeft.length
  match scaled? word (number.exponent + wholeLeft.length - read) with
  | some x => .float (if number.negative then -x else x)
  | none => .unreadable

end Written

section

variable (float : Written → Data)

/-- A number written without point and exponent. -/
def integerData (negative : Bool) (digits : List Char) : Data :=
  let magnitude := digitsValue digits
  if negative then
    if magnitude ≠ 0 ∧ fitsInt64 (-magnitude) then .int (-magnitude)
    else float ⟨true, digits, [], 0⟩
  else if magnitude < UInt64.size then .int magnitude
  else float ⟨false, digits, [], 0⟩

def readUnsigned? (negative : Bool) (text : List Char) : Option (Data × List Char) := do
  let (whole, rest) ←
    match text with
    | '0' :: rest => some (['0'], rest)
    | _ =>
      let (digits, rest) := text.span Char.isDigit
      if digits.isEmpty then none else some (digits, rest)
  let (fraction, afterFraction) ← readFraction? rest
  let (exponent, afterExponent) ← readExponent? afterFraction
  if afterExponent.length = rest.length then some (integerData float negative whole, rest)
  else some (float ⟨negative, whole, fraction, exponent⟩, afterExponent)

def readNumber? (text : List Char) : Option (Data × List Char) :=
  match text with
  | '-' :: rest => readUnsigned? float true rest
  | _ => readUnsigned? float false text

end

def isHighSurrogate (unit : Nat) : Bool := 0xD800 ≤ unit && unit < 0xDC00

def isLowSurrogate (unit : Nat) : Bool := 0xDC00 ≤ unit && unit < 0xE000

def pairedChar (high low : Nat) : Char :=
  Char.ofNat (0x10000 + (high - 0xD800) * 0x400 + (low - 0xDC00))

def escapedChar? (c : Char) : Option Char :=
  match c with
  | '"' => some '"'
  | '\\' => some '\\'
  | '/' => some '/'
  | 'b' => some '\x08'
  | 'f' => some '\x0c'
  | 'n' => some '\n'
  | 'r' => some '\r'
  | 't' => some '\t'
  | _ => none

def consChar (c : Option Char) (read : Option (List Char) × List Char) :
    Option (List Char) × List Char :=
  (do return (← c) :: (← read.1), read.2)

/-- Reads a string after its opening quote. A `high` surrogate waits for its other half; a string
with half a pair has no value. -/
def readString? (high : Option Nat) : List Char → Option (Option (List Char) × List Char)
  | [] => none
  | '"' :: rest => some (if high.isSome then none else some [], rest)
  | '\\' :: 'u' :: a :: b :: c :: d :: rest => do
    let unit ← hexNumber? [a, b, c, d]
    match high with
    | some lead =>
      if isLowSurrogate unit then
        return consChar (some (pairedChar lead unit)) (← readString? none rest)
      else return consChar none (← readString? none rest)
    | none =>
      if isHighSurrogate unit then readString? (some unit) rest
      else if isLowSurrogate unit then return consChar none (← readString? none rest)
      else return consChar (some (Char.ofNat unit)) (← readString? none rest)
  | '\\' :: c :: rest => do
    let escaped ← escapedChar? c
    return consChar (if high.isSome then none else some escaped) (← readString? none rest)
  | c :: rest =>
    if c < ' ' || c == '\\' then none
    else do return consChar (if high.isSome then none else some c) (← readString? none rest)

/-- A table, unless one of its keys is no string. -/
def tableData (members : List (Option (List Char) × Data)) : Data :=
  match members.mapM fun (key, value) => key.map fun key => (String.ofList key, value) with
  | some members => .table members
  | none => .unreadable

section

variable (float : Written → Data)

mutual

/-- Reads one value; `fuel` bounds the number of nested calls. -/
def readValue? (fuel : Nat) (text : List Char) : Option (Data × List Char) :=
  match fuel with
  | 0 => none
  | fuel + 1 =>
    match skipBlanks text with
    | '"' :: rest => do
      let (content, rest) ← readString? none rest
      return (match content with
        | some content => .text (String.ofList content)
        | none => .unreadable, rest)
    | '[' :: rest =>
      match skipBlanks rest with
      | ']' :: rest => some (.list [], rest)
      | _ => do
        let (items, rest) ← readItems? fuel rest
        return (.list items, rest)
    | '{' :: rest =>
      match skipBlanks rest with
      | '}' :: rest => some (.table [], rest)
      | _ => do
        let (members, rest) ← readMembers? fuel rest
        return (tableData members, rest)
    | 'n' :: rest => (afterWord? ['u', 'l', 'l'] rest).map (Data.null, ·)
    | 't' :: rest => (afterWord? ['r', 'u', 'e'] rest).map (Data.bool true, ·)
    | 'f' :: rest => (afterWord? ['a', 'l', 's', 'e'] rest).map (Data.bool false, ·)
    | text => readNumber? float text

def readItems? (fuel : Nat) (text : List Char) : Option (List Data × List Char) :=
  match fuel with
  | 0 => none
  | fuel + 1 => do
    let (item, rest) ← readValue? fuel text
    match skipBlanks rest with
    | ',' :: rest =>
      let (items, rest) ← readItems? fuel rest
      return (item :: items, rest)
    | ']' :: rest => return ([item], rest)
    | _ => none

def readMembers? (fuel : Nat) (text : List Char) :
    Option (List (Option (List Char) × Data) × List Char) :=
  match fuel with
  | 0 => none
  | fuel + 1 =>
    match skipBlanks text with
    | '"' :: rest => do
      let (key, rest) ← readString? none rest
      match skipBlanks rest with
      | ':' :: rest =>
        let (value, rest) ← readValue? fuel rest
        match skipBlanks rest with
        | ',' :: rest =>
          let (members, rest) ← readMembers? fuel rest
          return ((key, value) :: members, rest)
        | '}' :: rest => return ([(key, value)], rest)
        | _ => none
      | _ => none
    | _ => none

end

end

/-- The value of a JSON text, which holds nothing else but blanks. Floats are the nearest ones unless the
caller asks for others. -/
def read? (text : String) (float : Written → Data := Written.nearest) : Option Data := do
  let text := text.toList
  let (value, rest) ← readValue? float (2 * text.length + 2) text
  if (skipBlanks rest).isEmpty then some value else none

end SignalDesk.Json
