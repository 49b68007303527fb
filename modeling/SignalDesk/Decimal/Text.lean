import SignalDesk.FloatText
import SignalDesk.Decimal.Arithmetic

/-!
# The text of an amount

An amount is written in positional notation with all its decimal places. It is read from that
notation, with underscores between digits, or from scientific notation. Digits beyond what an
amount can hold are rounded half up.
-/

namespace SignalDesk.Decimal

def toText (a : Decimal) : String :=
  let digits := FloatText.decimalDigits a.magnitude
  let padded := List.replicate (a.scale + 1 - digits.length) '0' ++ digits
  let whole := padded.length - a.scale
  String.ofList
    (FloatText.sign a.isNegative ++ FloatText.joinPoint (padded.take whole) (padded.drop whole))

instance : ToString Decimal := ⟨toText⟩

structure Reading where
  value : Nat
  scale : Nat
  pointed : Bool
  started : Bool

def digit? (c : Char) : Option Nat := if c.isDigit then some (c.toNat - '0'.toNat) else none

/-- Rounds half up on the first digit that cannot be kept. Only digits and underscores may follow. -/
def Reading.roundOn? (reading : Reading) (rest : List Char) : Option (Nat × Nat) :=
  if rest.any fun c => !c.isDigit && c != '_' then none
  else if (rest.find? Char.isDigit).all (· < '5') then some (reading.value, reading.scale)
  else if reading.value + 1 < mantissaBound then some (reading.value + 1, reading.scale)
  else if reading.scale = 0 then none
  else some ((reading.value + 5) / 10, reading.scale - 1)

def readUnsigned? (reading : Reading) : List Char → Option (Nat × Nat)
  | [] => if reading.started then some (reading.value, reading.scale) else none
  | c :: rest =>
    match digit? c with
    | some digit =>
      let value := 10 * reading.value + digit
      if value < mantissaBound then
        let scale := if reading.pointed then reading.scale + 1 else 0
        let reading := { reading with value, scale, started := true }
        if reading.pointed ∧ maxScale ≤ scale then reading.roundOn? rest
        else readUnsigned? reading rest
      else if reading.pointed then reading.roundOn? (c :: rest)
      else none
    | none =>
      if c == '.' && !reading.pointed then readUnsigned? { reading with pointed := true } rest
      else if c == '_' && reading.started then readUnsigned? reading rest
      else none

def ofPositional? (text : List Char) : Option Decimal := do
  let (negative, body) :=
    match text with
    | '-' :: rest => (true, rest)
    | '+' :: rest => (false, rest)
    | _ => (false, text)
  let (value, scale) ← readUnsigned? ⟨0, 0, false, false⟩ body
  ofMagnitude? negative value scale

def exponent? (text : List Char) : Option Nat :=
  let body :=
    match text with
    | '+' :: rest => rest
    | _ => text
  if body.isEmpty || body.any (!·.isDigit) then none
  else
    let value := digitsValue body
    if value < UInt32.size then some value else none

def normalize (a : Decimal) : Decimal :=
  if a.isZero then zero
  else
    let scale := (List.range (a.scale + 1)).find? fun s =>
      a.magnitude % Nat.pow 10 (a.scale - s) = 0
    let scale := scale.getD a.scale
    (ofMagnitude? a.isNegative (a.magnitude / Nat.pow 10 (a.scale - scale)) scale).getD a

/-- Multiplies by `10 ^ exponent`, at most `10 ^ 19` at a time. -/
def shift? (a : Decimal) (exponent : Nat) : Option Decimal := do
  if exponent < 19 then
    a.mul? (← ofParts? (Nat.pow 10 exponent) 0)
  else
    let a ← a.mul? (← ofParts? (Nat.pow 10 19) 0)
    if exponent = 19 then some a else a.mul? (← ofParts? (Nat.pow 10 (exponent - 19)) 0)

/-- Divides by `10 ^ exponent`. Places beyond the last are rounded half up, and the sign stays even on
a zero. -/
def unshift? (a : Decimal) (exponent : Nat) : Option Decimal :=
  if maxScale < exponent then none
  else
    let scale := Nat.min (a.scale + exponent) maxScale
    let kept := roundHalfUp a.magnitude (Nat.pow 10 (a.scale + exponent - scale))
    ofSigned? a.isNegative kept scale

/-- Reads scientific notation; the exponent first moves the scale, then the magnitude. -/
def ofScientific? (text : List Char) : Option Decimal := do
  let (base, exponent) := text.span fun c => c != 'e' && c != 'E'
  let a ← ofPositional? base
  match exponent with
  | [] => none
  | _ :: '-' :: exponent => a.unshift? (← exponent? exponent)
  | _ :: exponent =>
    let exponent ← exponent? exponent
    if exponent ≤ a.scale then ofSigned? a.isNegative a.magnitude (a.scale - exponent)
    else if maxScale < exponent then none
    else (← a.shift? exponent).normalize

def ofText? (text : String) : Option Decimal :=
  ofPositional? text.toList <|> ofScientific? text.toList

end SignalDesk.Decimal
