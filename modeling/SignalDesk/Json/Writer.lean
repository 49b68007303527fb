import SignalDesk.Hex
import SignalDesk.FloatText
import SignalDesk.Data

/-!
# Writing JSON

One line without blanks, members in the order given. A float without a finite value is written as
`null`.
-/

namespace SignalDesk.Json

def escapeChar (c : Char) : List Char :=
  match c with
  | '"' => ['\\', '"']
  | '\\' => ['\\', '\\']
  | '\x08' => ['\\', 'b']
  | '\x0c' => ['\\', 'f']
  | '\n' => ['\\', 'n']
  | '\r' => ['\\', 'r']
  | '\t' => ['\\', 't']
  | _ =>
    if c < ' ' then '\\' :: 'u' :: hexDigits 4 c.toNat
    else [c]

def quote (s : String) : List Char := '"' :: s.toList.flatMap escapeChar ++ ['"']

mutual

def writeBefore (rest : List Char) : Data → List Char
  | .null => "null".toList ++ rest
  | .bool b => (if b then "true" else "false").toList ++ rest
  | .int n => FloatText.integerText n ++ rest
  | .float x => ((FloatText.scientific? x).getD "null").toList ++ rest
  | .text s => quote s ++ rest
  | .list [] => '[' :: ']' :: rest
  | .list (item :: items) => '[' :: writeBefore (writeItems (']' :: rest) items) item
  | .table [] => '{' :: '}' :: rest
  | .table ((key, value) :: members) =>
    '{' :: quote key ++ ':' :: writeBefore (writeMembers ('}' :: rest) members) value
  | .unreadable => "null".toList ++ rest

def writeItems (rest : List Char) : List Data → List Char
  | [] => rest
  | item :: items => ',' :: writeBefore (writeItems rest items) item

def writeMembers (rest : List Char) : List (String × Data) → List Char
  | [] => rest
  | (key, value) :: members =>
    ',' :: quote key ++ ':' :: writeBefore (writeMembers rest members) value

end

def write (data : Data) : String := String.ofList (writeBefore [] data)

end SignalDesk.Json
