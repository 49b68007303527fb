import SignalDesk.Hex
import SignalDesk.Numeral
import SignalDesk.Data
import SignalDesk.Time.Calendar

/-!
# Scalars of TOML

Strings in their four forms, keys, numbers and booleans. Dates and times are recognised but denote
no value here.
-/

namespace SignalDesk.Toml

def isSpace (c : Char) : Bool := c == ' ' || c == '\t'

def skipSpaces (text : List Char) : List Char := text.dropWhile isSpace

/-- A character that may stand anywhere in a line: a tab or no control character. -/
def isPrintable (c : Char) : Bool := c == '\t' || (0x20 ≤ c.toNat && c.toNat != 0x7f)

/-- The rest after a line feed, which a carriage return may precede. -/
def afterNewline? : List Char → Option (List Char)
  | '\n' :: rest => some rest
  | '\r' :: '\n' :: rest => some rest
  | _ => none

def shortEscape? (c : Char) : Option Char :=
  match c with
  | 'b' => some '\x08'
  | 't' => some '\t'
  | 'n' => some '\n'
  | 'f' => some '\x0c'
  | 'r' => some '\r'
  | '"' => some '"'
  | '\\' => some '\\'
  | _ => none

def codePoint? (digits : List Char) : Option Char := do
  let n ← hexNumber? digits
  if n.isValidChar then return Char.ofNat n else none

def consChar (c : Char) (read : List Char × List Char) : List Char × List Char :=
  (c :: read.1, read.2)

def readBasic? : List Char → Option (List Char × List Char)
  | [] => none
  | '"' :: rest => some ([], rest)
  | '\\' :: 'u' :: a :: b :: c :: d :: rest => do
    return consChar (← codePoint? [a, b, c, d]) (← readBasic? rest)
  | '\\' :: 'U' :: a :: b :: c :: d :: e :: f :: g :: h :: rest => do
    return consChar (← codePoint? [a, b, c, d, e, f, g, h]) (← readBasic? rest)
  | '\\' :: c :: rest => do return consChar (← shortEscape? c) (← readBasic? rest)
  | c :: rest => do if isPrintable c && c != '\\' then return consChar c (← readBasic? rest) else none

def readLiteral? : List Char → Option (List Char × List Char)
  | [] => none
  | '\x27' :: rest => some ([], rest)
  | c :: rest => do if isPrintable c then return consChar c (← readLiteral? rest) else none

/-- Whether a backslash before `rest` joins lines. -/
def joinsLines (rest : List Char) : Bool := (afterNewline? (skipSpaces rest)).isSome

/-- Reads a basic string of several lines after its opening quotes. After a backslash that joins
lines, blanks and line ends are skipped. -/
def readBasicLines? (skipping : Bool) : List Char → Option (List Char × List Char)
  | [] => none
  | '"' :: '"' :: '"' :: '"' :: '"' :: rest => some (['"', '"'], rest)
  | '"' :: '"' :: '"' :: '"' :: rest => some (['"'], rest)
  | '"' :: '"' :: '"' :: rest => some ([], rest)
  | '\\' :: 'u' :: a :: b :: c :: d :: rest => do
    return consChar (← codePoint? [a, b, c, d]) (← readBasicLines? false rest)
  | '\\' :: 'U' :: a :: b :: c :: d :: e :: f :: g :: h :: rest => do
    return consChar (← codePoint? [a, b, c, d, e, f, g, h]) (← readBasicLines? false rest)
  | '\\' :: c :: rest =>
    if joinsLines (c :: rest) then readBasicLines? true (c :: rest)
    else do return consChar (← shortEscape? c) (← readBasicLines? false rest)
  | '\r' :: '\n' :: rest => do
    if skipping then readBasicLines? true rest
    else return consChar '\n' (← readBasicLines? false rest)
  | c :: rest => do
    if skipping && (isSpace c || c == '\n') then readBasicLines? true rest
    else if (isPrintable c && c != '\\') || c == '\n' then
      return consChar c (← readBasicLines? false rest)
    else none

def readLiteralLines? : List Char → Option (List Char × List Char)
  | [] => none
  | '\x27' :: '\x27' :: '\x27' :: '\x27' :: '\x27' :: rest => some (['\x27', '\x27'], rest)
  | '\x27' :: '\x27' :: '\x27' :: '\x27' :: rest => some (['\x27'], rest)
  | '\x27' :: '\x27' :: '\x27' :: rest => some ([], rest)
  | '\r' :: '\n' :: rest => do return consChar '\n' (← readLiteralLines? rest)
  | c :: rest => do
    if isPrintable c || c == '\n' then return consChar c (← readLiteralLines? rest) else none

/-- The text after the opening quotes of a string of several lines, whose first line may be empty. -/
def firstLine (text : List Char) : List Char := (afterNewline? text).getD text

def readString? : List Char → Option (List Char × List Char)
  | '"' :: '"' :: '"' :: rest => readBasicLines? false (firstLine rest)
  | '\x27' :: '\x27' :: '\x27' :: rest => readLiteralLines? (firstLine rest)
  | '"' :: rest => readBasic? rest
  | '\x27' :: rest => readLiteral? rest
  | _ => none

def isBareKeyChar (c : Char) : Bool := c.isAlphanum || c == '-' || c == '_'

def readSimpleKey? (text : List Char) : Option (String × List Char) := do
  match text with
  | '"' :: rest =>
    let (key, rest) ← readBasic? rest
    return (String.ofList key, rest)
  | '\x27' :: rest =>
    let (key, rest) ← readLiteral? rest
    return (String.ofList key, rest)
  | _ =>
    let (key, rest) := text.span isBareKeyChar
    if key.isEmpty then none else return (String.ofList key, rest)

/-- Reads keys joined by dots, with blanks around each. -/
def readDotted? : Nat → List Char → Option (List String × List Char)
  | 0, _ => none
  | fuel + 1, text => do
    let (key, rest) ← readSimpleKey? (skipSpaces text)
    match skipSpaces rest with
    | '.' :: rest =>
      let (keys, rest) ← readDotted? fuel rest
      return (key :: keys, rest)
    | rest => return ([key], rest)

def depthLimit : Nat := 80

def readKey? (text : List Char) : Option (List String × List Char) := readDotted? (depthLimit - 1) text

def fixedDigits? (count : Nat) (text : List Char) : Option (Nat × List Char) :=
  let digits := text.take count
  if digits.length = count ∧ digits.all Char.isDigit then some (digitsValue digits, text.drop count)
  else none

def afterChar? (c : Char) : List Char → Option (List Char)
  | d :: rest => if c = d then some rest else none
  | [] => none

def afterDate? (text : List Char) : Option (List Char) := do
  let (year, text) ← fixedDigits? 4 text
  let (month, text) ← fixedDigits? 2 (← afterChar? '-' text)
  let (day, text) ← fixedDigits? 2 (← afterChar? '-' text)
  if (Date.mk year month day).isValid then return text else none

def afterMinutes? (text : List Char) : Option (List Char) := do
  let (hour, text) ← fixedDigits? 2 text
  let (minute, text) ← fixedDigits? 2 (← afterChar? ':' text)
  if hour ≤ 23 ∧ minute ≤ 59 then return text else none

def afterFraction : List Char → List Char
  | '.' :: c :: rest => if c.isDigit then rest.dropWhile Char.isDigit else '.' :: c :: rest
  | text => text

def afterTime? (text : List Char) : Option (List Char) := do
  let (second, text) ← fixedDigits? 2 (← afterChar? ':' (← afterMinutes? text))
  if second ≤ 60 then return afterFraction text else none

def afterOffset (text : List Char) : List Char :=
  match text with
  | c :: rest =>
    if c == 'Z' || c == 'z' then rest
    else if c == '+' || c == '-' then (afterMinutes? rest).getD text
    else text
  | [] => text

def afterDateTime? (text : List Char) : Option (List Char) :=
  match afterDate? text with
  | some rest =>
    match rest with
    | c :: clock =>
      if c == 'T' || c == 't' || c == ' ' then
        some (((afterTime? clock).map afterOffset).getD rest)
      else some rest
    | [] => some rest
  | none => afterTime? text

/-- More digits of a number; an underscore has to stand between two digits. -/
def readMoreDigits? (isDigit : Char → Bool) : List Char → Option (List Char × List Char)
  | [] => some ([], [])
  | '_' :: c :: rest => do
    if isDigit c then return consChar c (← readMoreDigits? isDigit rest) else none
  | c :: rest => do
    if isDigit c then return consChar c (← readMoreDigits? isDigit rest)
    else if c == '_' then none
    else return ([], c :: rest)

def readDigits? (isDigit : Char → Bool) (text : List Char) : Option (List Char × List Char) :=
  match text with
  | c :: _ => if isDigit c then readMoreDigits? isDigit text else none
  | [] => none

/-- The digits of a whole number, which do not start with a zero unless that is all. -/
def readWhole? (text : List Char) : Option (List Char × List Char) :=
  match text with
  | '0' :: rest => some (['0'], rest)
  | _ => readDigits? Char.isDigit text

def takeSign (text : List Char) : Option Bool × List Char :=
  match text with
  | '-' :: rest => (some true, rest)
  | '+' :: rest => (some false, rest)
  | _ => (none, text)

def intData? (n : Int) : Option Data := if fitsInt64 n then some (.int n) else none

/-- A float; an overflow is an error, but only above zero. -/
def floatData? (x : Float) : Option Data :=
  if x.isInf && 0.0 < x then none else some (.float x)

/-- An integer in base two, eight or sixteen, after its mark. -/
def readRadix? (base : Nat) (text : List Char) : Option (Data × List Char) := do
  let isDigit (c : Char) := (hexValue? c).any fun digit => digit < base
  let (digits, rest) ← readDigits? isDigit text
  let value := (digits.filterMap hexValue?).foldl (fun value digit => base * value + digit) 0
  return (← intData? value, rest)

def readExponent? (text : List Char) : Option (Int × List Char) := do
  match text with
  | e :: rest =>
    if e == 'e' || e == 'E' then
      let (sign, rest) := takeSign rest
      let (digits, rest) ← readDigits? Char.isDigit rest
      let exponent : Int := digitsValue digits
      return (if sign.getD false then -exponent else exponent, rest)
    else none
  | [] => none

/-- The fraction and the exponent of a float, of which one is needed. -/
def readFloatTail? (text : List Char) : Option (List Char × Int × List Char) := do
  match text with
  | '.' :: rest =>
    let (fraction, rest) ← readDigits? Char.isDigit rest
    match readExponent? rest with
    | some (exponent, rest) => return (fraction, exponent, rest)
    | none => return (fraction, 0, rest)
  | _ =>
    let (exponent, rest) ← readExponent? text
    return ([], exponent, rest)

def infinity : Float := Float.ofBits 0x7FF0000000000000

def undefined : Float := Float.ofBits 0x7FF8000000000000

def readDecimal? (negative : Bool) (text : List Char) : Option (Data × List Char) := do
  match text with
  | 'i' :: 'n' :: 'f' :: rest => return (.float (if negative then -infinity else infinity), rest)
  | 'n' :: 'a' :: 'n' :: rest => return (.float undefined, rest)
  | _ =>
    let (whole, rest) ← readWhole? text
    match readFloatTail? rest with
    | some (fraction, exponent, rest) =>
      let digits := digitsValue (whole ++ fraction)
      let numeral : Numeral := ⟨negative, digits, exponent - fraction.length⟩
      return (← floatData? numeral.toFloat, rest)
    | none =>
      let magnitude : Int := digitsValue whole
      return (← intData? (if negative then -magnitude else magnitude), rest)

def readNumber? (text : List Char) : Option (Data × List Char) :=
  match afterDateTime? text with
  | some rest => some (.unreadable, rest)
  | none =>
    match text with
    | '0' :: 'x' :: rest => readRadix? 16 rest
    | '0' :: 'o' :: rest => readRadix? 8 rest
    | '0' :: 'b' :: rest => readRadix? 2 rest
    | _ =>
      let (sign, rest) := takeSign text
      readDecimal? (sign.getD false) rest

end SignalDesk.Toml
