import SignalDesk.Numeral

/-!
# Structured data

The common shape of JSON and TOML documents. Members keep the order in which they were written, and
a leaf that is well formed but denotes no value (a number out of range, half of a surrogate pair, a
calendar date) is `unreadable`.
-/

namespace SignalDesk

inductive Data where
  | null
  | bool (b : Bool)
  | int (n : Int)
  | float (x : Float)
  | text (s : String)
  | list (items : List Data)
  | table (members : List (String × Data))
  | unreadable

namespace Data

instance : Inhabited Data := ⟨.null⟩

mutual

/-- Whether a value nests at most `depth` lists and tables and has no unreadable leaf. -/
def fits (depth : Nat) : Data → Bool
  | .null => true
  | .bool _ => true
  | .int _ => true
  | .float _ => true
  | .text _ => true
  | .list items => 0 < depth && itemsFit (depth - 1) items
  | .table members => 0 < depth && membersFit (depth - 1) members
  | .unreadable => false

def itemsFit (depth : Nat) : List Data → Bool
  | [] => true
  | item :: items => item.fits depth && itemsFit depth items

def membersFit (depth : Nat) : List (String × Data) → Bool
  | [] => true
  | (_, value) :: members => value.fits depth && membersFit depth members

end

def valuesOf (key : String) (members : List (String × Data)) : List Data :=
  (members.filter fun member => member.1 == key).map Prod.snd

def find? (key : String) (members : List (String × Data)) : Option Data :=
  (valuesOf key members).head?

def get? (data : Data) (key : String) : Option Data :=
  match data with
  | .table members => find? key members
  | _ => none

def repeatsKey (known : List String) (members : List (String × Data)) : Bool :=
  known.any fun key => 1 < (valuesOf key members).length

def string? : Data → Option String
  | .text s => some s
  | _ => none

def bool? : Data → Option Bool
  | .bool b => some b
  | _ => none

def int? : Data → Option Int
  | .int n => some n
  | _ => none

def int64? (data : Data) : Option Int64 := do
  let n ← data.int?
  if fitsInt64 n then return Int64.ofInt n else none

def uint64? (data : Data) : Option UInt64 := do
  let n ← data.int?
  if 0 ≤ n ∧ n < UInt64.size then return n.toNat.toUInt64 else none

/-- The members of a table, or the items of a list under the names they have by position. -/
def named? (names : List String) : Data → Option (List (String × Data))
  | .table members => some members
  | .list items => some (names.zip items)
  | _ => none

def ofOption {α : Type} (toData : α → Data) : Option α → Data
  | some a => toData a
  | none => .null

end Data

end SignalDesk
