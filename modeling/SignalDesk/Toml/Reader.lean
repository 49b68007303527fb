import SignalDesk.Toml.Scalar
import SignalDesk.Toml.Tables

/-!
# Reading TOML

A document is a list of lines: table headers, key-value pairs, comments and blank lines. Values may
span lines inside brackets and multi-line strings.
-/

namespace SignalDesk.Toml

def skipComment (text : List Char) : List Char := text.dropWhile isPrintable

/-- Skips blanks, comments and line ends; `fuel` bounds their number. -/
def skipLines (fuel : Nat) (text : List Char) : List Char :=
  match fuel with
  | 0 => text
  | fuel + 1 =>
    match skipSpaces text with
    | '#' :: rest => skipLines fuel (skipComment rest)
    | text =>
      match afterNewline? text with
      | some rest => skipLines fuel rest
      | none => text

def skipAllLines (text : List Char) : List Char := skipLines text.length text

mutual

/-- Reads a value nested in fewer than `depth` others. -/
def readValue? (fuel depth : Nat) (text : List Char) : Option (Data × List Char) :=
  match fuel with
  | 0 => none
  | fuel + 1 =>
    match text with
    | '"' :: _ => (readString? text).map fun (s, rest) => (.text (String.ofList s), rest)
    | '\x27' :: _ => (readString? text).map fun (s, rest) => (.text (String.ofList s), rest)
    | 't' :: 'r' :: 'u' :: 'e' :: rest => some (.bool true, rest)
    | 'f' :: 'a' :: 'l' :: 's' :: 'e' :: rest => some (.bool false, rest)
    | '[' :: rest =>
      if depth = 0 then none
      else (readItems? fuel (depth - 1) rest).map fun (items, rest) => (.list items, rest)
    | '\x7b' :: rest =>
      if depth = 0 then none
      else
        match skipSpaces rest with
        | '\x7d' :: rest => some (.table [], rest)
        | _ => do
          let (pairs, rest) ← readPairs? fuel (depth - 1) rest
          let entries ← pairs.foldlM (fun entries (key, data) => Entries.insert key data entries) []
          return (.table (Node.entriesToData entries), rest)
    | _ => readNumber? text

/-- Reads the items of a list up to its closing bracket; a comma may follow the last one. -/
def readItems? (fuel depth : Nat) (text : List Char) : Option (List Data × List Char) :=
  match fuel with
  | 0 => none
  | fuel + 1 =>
    match skipAllLines text with
    | ']' :: rest => some ([], rest)
    | text => do
      let (item, rest) ← readValue? fuel depth text
      match skipAllLines rest with
      | ',' :: rest =>
        let (items, rest) ← readItems? fuel depth rest
        return (item :: items, rest)
      | ']' :: rest => return ([item], rest)
      | _ => none

def readPairs? (fuel depth : Nat) (text : List Char) :
    Option (List (List String × Data) × List Char) :=
  match fuel with
  | 0 => none
  | fuel + 1 => do
    let (key, rest) ← readKey? text
    let (data, rest) ← readValue? fuel depth (skipSpaces (← afterChar? '=' rest))
    match skipSpaces rest with
    | ',' :: rest =>
      let (pairs, rest) ← readPairs? fuel depth rest
      return ((key, data) :: pairs, rest)
    | '\x7d' :: rest => return ([(key, data)], rest)
    | _ => none

end

inductive Statement where
  | table (path : List String)
  | item (path : List String)
  | pair (path : List String) (data : Data)

def afterLine? (text : List Char) : Option (List Char) :=
  let text :=
    match skipSpaces text with
    | '#' :: rest => skipComment rest
    | text => text
  if text.isEmpty then some [] else afterNewline? text

def readStatement? (text : List Char) : Option (Statement × List Char) := do
  match text with
  | '[' :: '[' :: rest =>
    let (path, rest) ← readKey? rest
    let rest ← afterChar? ']' (← afterChar? ']' rest)
    return (.item path, ← afterLine? rest)
  | '[' :: rest =>
    let (path, rest) ← readKey? rest
    return (.table path, ← afterLine? (← afterChar? ']' rest))
  | _ =>
    let (path, rest) ← readKey? text
    let value := skipSpaces (← afterChar? '=' rest)
    let (data, rest) ← readValue? (2 * text.length + 2) (depthLimit - 1) value
    return (.pair path data, ← afterLine? rest)

def readStatements? : Nat → List Char → Option (List Statement)
  | 0, text => if (skipAllLines text).isEmpty then some [] else none
  | fuel + 1, text =>
    match skipAllLines text with
    | [] => some []
    | text => do
      let (statement, rest) ← readStatement? text
      return statement :: (← readStatements? fuel rest)

/-- The tables built so far and the header under which pairs are added. -/
structure Builder where
  entries : Entries
  header : List String

def Builder.add? (builder : Builder) : Statement → Option Builder
  | .table path => do return ⟨← builder.entries.openTable path, path⟩
  | .item path => do return ⟨← builder.entries.appendTable path, path⟩
  | .pair path data => do
    return { builder with entries := ← builder.entries.insertUnder builder.header path data }

def read? (text : String) : Option Data := do
  let text :=
    match text.toList with
    | '\uFEFF' :: rest => rest
    | text => text
  let statements ← readStatements? text.length text
  let builder ← statements.foldlM Builder.add? ⟨[], []⟩
  return .table (Node.entriesToData builder.entries)

end SignalDesk.Toml
