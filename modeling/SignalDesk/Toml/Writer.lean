import SignalDesk.Hex
import SignalDesk.FloatText

/-!
# Writing TOML

A string is written in the plainest form that can hold it: basic, then literal, then either on
several lines, and with escapes only if nothing else will do.
-/

namespace SignalDesk.Toml

inductive StringForm where
  | basic
  | literal
  | basicLines
  | literalLines
  deriving DecidableEq

def longestRun (c : Char) (text : List Char) : Nat :=
  (text.foldl (fun (longest, current) d =>
    let current := if d = c then current + 1 else 0
    (max longest current, current)) (0, 0)).1

/-- A control character that no form but an escape can hold. -/
def needsEscape (c : Char) : Bool := (c < ' ' && c != '\t' && c != '\n') || c == '\x7f'

/-- The plainest form that can hold a text. -/
def formOf (text : List Char) : StringForm :=
  let coded := text.any needsEscape
  let broken := text.contains '\n'
  let double := longestRun '"' text
  let single := longestRun '\x27' text
  if !coded && !text.contains '\\' && double = 0 && !broken then .basic
  else if !coded && single = 0 && !broken then .literal
  else if !coded && !text.contains '\\' && double ≤ 2 then .basicLines
  else if !coded && single ≤ 2 then .literalLines
  else if broken then .basicLines
  else .basic

def escape? (c : Char) : Option (List Char) :=
  match c with
  | '\x08' => some ['\\', 'b']
  | '\t' => some ['\\', 't']
  | '\n' => some ['\\', 'n']
  | '\x0c' => some ['\\', 'f']
  | '\r' => some ['\\', 'r']
  | '\\' => some ['\\', '\\']
  | _ =>
    if needsEscape c then some ('\\' :: 'u' :: (hexDigits 4 c.toNat).map Char.toUpper) else none

/-- The inside of a basic string; of the quotes in a row every one after the first `bare` is
escaped. -/
def basicBody (bare : Nat) (keepBreaks : Bool) (run : Nat) : List Char → List Char
  | [] => []
  | '"' :: rest =>
    if run < bare then '"' :: basicBody bare keepBreaks (run + 1) rest
    else '\\' :: '"' :: basicBody bare keepBreaks 0 rest
  | c :: rest =>
    if c = '\n' ∧ keepBreaks then c :: basicBody bare keepBreaks 0 rest
    else (escape? c).getD [c] ++ basicBody bare keepBreaks 0 rest

/-- The line end after the opening quotes of a text with several lines. -/
def openingBreak (text : List Char) : List Char := if text.contains '\n' then ['\n'] else []

def writeString (s : String) : List Char :=
  let text := s.toList
  match formOf text with
  | .basic => '"' :: basicBody 0 false 0 text ++ ['"']
  | .literal => '\x27' :: text ++ ['\x27']
  | .basicLines =>
    ['"', '"', '"'] ++ openingBreak text ++ basicBody 2 true 0 text ++ ['"', '"', '"']
  | .literalLines =>
    ['\x27', '\x27', '\x27'] ++ openingBreak text ++ text ++ ['\x27', '\x27', '\x27']

inductive Scalar where
  | bool (b : Bool)
  | int (n : Int)
  | float (x : Float)
  | text (s : String)

/-- The text of a value; integers beyond 64 bits with a sign have none. -/
def writeScalar? : Scalar → Option (List Char)
  | .bool b => some (if b then "true" else "false").toList
  | .int n => if fitsInt64 n then some (FloatText.integerText n) else none
  | .float x => some (FloatText.pointed x).toList
  | .text s => some (writeString s)

structure Section where
  header : String
  pairs : List (String × Scalar)

def writePair? (pair : String × Scalar) : Option (List Char) := do
  return pair.1.toList ++ [' ', '=', ' '] ++ (← writeScalar? pair.2) ++ ['\n']

def writeSection? (table : Section) : Option (List Char) := do
  return '[' :: table.header.toList ++ [']', '\n'] ++ (← table.pairs.mapM writePair?).flatten

/-- A document of tables with a blank line between them. -/
def write? (tables : List Section) : Option String := do
  let texts ← tables.mapM writeSection?
  return String.ofList ((texts.intersperse ['\n']).flatten)

end SignalDesk.Toml
