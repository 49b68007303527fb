import SignalDesk.Data

/-!
# Tables of a TOML document

A document builds its tables piece by piece: headers and dotted keys open tables on the way, and a
table that has been written out is closed to both. The rules live in `descend` and `insert`.
-/

namespace SignalDesk.Toml

inductive Origin where
  /-- Written out, by a header or as a value. -/
  | explicit
  /-- Passed through by a header. -/
  | implicit
  /-- Passed through by a dotted key. -/
  | dotted
  deriving DecidableEq

inductive Node where
  | value (data : Data)
  | table (origin : Origin) (entries : List (String × Node))
  /-- Tables with one header, in order. -/
  | tables (items : List (List (String × Node)))

/-- The entries of a table, in the order of their first mention. -/
abbrev Entries := List (String × Node)

namespace Node

mutual

def toData : Node → Data
  | .value data => data
  | .table _ entries => .table (entriesToData entries)
  | .tables items => .list (itemsToData items)

def entriesToData : List (String × Node) → List (String × Data)
  | [] => []
  | (key, node) :: entries => (key, node.toData) :: entriesToData entries

def itemsToData : List (List (String × Node)) → List Data
  | [] => []
  | item :: items => .table (entriesToData item) :: itemsToData items

end

end Node

namespace Entries

def put (key : String) (node : Node) : Entries → Entries
  | [] => [(key, node)]
  | (name, other) :: entries =>
    if name == key then (name, node) :: entries else (name, other) :: put key node entries

/-- Changes the table at the end of a path, given how it came to be. Tables on the way that do not
exist are opened with the origin `opened`; a dotted key cannot pass a table that was written out. -/
def descend (opened : Origin) (change : Origin → Entries → Option Entries) (origin : Origin)
    (entries : Entries) : List String → Option Entries
  | [] => change origin entries
  | key :: path => do
    match entries.lookup key with
    | none => return put key (.table opened (← descend opened change opened [] path)) entries
    | some (.value _) => none
    | some (.tables items) =>
      let last ← descend opened change .explicit (← items.getLast?) path
      return put key (.tables (items.dropLast ++ [last])) entries
    | some (.table found inner) =>
      if opened = .dotted ∧ found = .explicit then none
      else return put key (.table found (← descend opened change found inner path)) entries

def splitLast? : List String → Option (List String × String)
  | [] => none
  | path => path.getLast?.map fun key => (path.dropLast, key)

/-- Adds a value under a dotted key. The last table must have been opened by a dotted key too, unless
the key has no dots. -/
def insert (path : List String) (data : Data) (entries : Entries) : Option Entries := do
  let (path, key) ← splitLast? path
  let add (origin : Origin) (inner : Entries) : Option Entries :=
    if (origin = .dotted ↔ path = []) ∨ (inner.lookup key).isSome then none
    else some (put key (.value data) inner)
  descend .dotted add .explicit entries path

def openTable (path : List String) (entries : Entries) : Option Entries := do
  let (path, key) ← splitLast? path
  let add (_ : Origin) (inner : Entries) : Option Entries :=
    match inner.lookup key with
    | none => some (put key (.table .explicit []) inner)
    | some (.table .implicit kept) => some (put key (.table .explicit kept) inner)
    | some _ => none
  descend .implicit add .explicit entries path

def appendTable (path : List String) (entries : Entries) : Option Entries := do
  let (path, key) ← splitLast? path
  let add (_ : Origin) (inner : Entries) : Option Entries :=
    match inner.lookup key with
    | none => some (put key (.tables [[]]) inner)
    | some (.tables items) => some (put key (.tables (items ++ [[]])) inner)
    | some _ => none
  descend .implicit add .explicit entries path

def insertUnder (header path : List String) (data : Data) (entries : Entries) : Option Entries :=
  descend .implicit (fun _ inner => insert path data inner) .explicit entries header

end Entries

end SignalDesk.Toml
