import SignalDesk.Alphanumeric
import SignalDesk.Hex

/-!
# Patterns

A regular expression is only checked here: whether its groups and classes close, its repetitions have
something to repeat, and its escapes and ranges exist. What depends on Unicode data (classes by name,
word boundaries, letters in either case) and counted repetition are not supported.
-/

namespace SignalDesk.Pattern

inductive Mode where
  /-- An item outside classes, or an operator on the last one if it can be repeated. -/
  | item (repeatable : Bool)
  | escape
  /-- Hexadecimal digits of a character. -/
  | code (digits value : Nat)
  | group
  | groupKind
  | groupLetter
  | groupName (started : Bool)
  | flags (seen : List Char) (negated dangling : Bool)
  | classStart (negated : Bool)
  | classHyphens
  /-- An item of a class; the last one can begin a range. -/
  | classItem (last : Option Nat)
  /-- An operator of two equal characters, of which the first has come. -/
  | classOperator (first : Char)
  | classRange (low : Nat)
  | classEscape (low : Option Nat)
  | classCode (digits value : Nat) (low : Option Nat)

structure State where
  groups : Nat
  classes : Nat
  mode : Mode

namespace State

def start : State := ⟨0, 0, .item false⟩

def isComplete (state : State) : Bool :=
  match state.mode with
  | .item _ => state.groups == 0
  | _ => false

def next (state : State) (mode : Mode) : Option State := some { state with mode }

def openGroup (state : State) : State := { state with groups := state.groups + 1, mode := .item false }

def openClass (state : State) : Option State :=
  some { state with classes := state.classes + 1, mode := .classStart false }

def closeClass (state : State) : Option State :=
  if state.classes ≤ 1 then some { state with classes := 0, mode := .item true }
  else some { state with classes := state.classes - 1, mode := .classItem none }

/-- The length of a character code in hexadecimal, by its letter. -/
def codeLength? : Char → Option Nat
  | 'x' => some 2
  | 'u' => some 4
  | 'U' => some 8
  | _ => none

def escaped? (c : Char) : Option Nat :=
  match "afntrv".toList.zip [7, 12, 10, 9, 13, 11] |>.lookup c with
  | some code => some code
  | none => if c.toNat < 0x80 && !c.isAlphanum && c != '<' && c != '>' then some c.toNat else none

/-- Adds a hexadecimal digit to a code; the last one must make it a character. -/
def addDigit? (digits value : Nat) (c : Char) : Option (Nat × Nat) := do
  let value := 16 * value + (← hexValue? c)
  if digits ≤ 1 && !value.isValidChar then none else some (digits - 1, value)

def item (state : State) (repeatable : Bool) (c : Char) : Option State :=
  match c with
  | '\\' => state.next .escape
  | '(' => state.next .group
  | ')' =>
    if state.groups = 0 then none
    else some { state with groups := state.groups - 1, mode := .item true }
  | '[' => state.openClass
  | '|' => state.next (.item false)
  | '?' | '*' | '+' => if repeatable then state.next (.item true) else none
  | '\x7b' => none
  | _ => state.next (.item true)

def flag (state : State) (seen : List Char) (negated dangling : Bool) (c : Char) : Option State :=
  match c with
  | ')' => if dangling then none else state.next (.item false)
  | ':' => if dangling then none else some state.openGroup
  | '-' => if negated then none else state.next (.flags seen true true)
  | 'i' => if negated && !seen.contains c then state.next (.flags (c :: seen) negated false) else none
  | _ =>
    if "msUuRx".toList.contains c && !seen.contains c then
      state.next (.flags (c :: seen) negated false)
    else none

def classItem (state : State) (c : Char) : Option State :=
  match c with
  | '[' => state.openClass
  | ']' => state.closeClass
  | '\\' => state.next (.classEscape none)
  | '&' | '-' | '~' => state.next (.classOperator c)
  | _ => state.next (.classItem (some c.toNat))

/-- An item of a class that may end a range. -/
def classLiteral (state : State) (low : Option Nat) (code : Nat) : Option State :=
  match low with
  | none => state.next (.classItem (some code))
  | some low => if low ≤ code then state.next (.classItem none) else none

def step (state : State) (c : Char) : Option State :=
  match state.mode with
  | .item repeatable => state.item repeatable c
  | .escape =>
    match codeLength? c with
    | some digits => state.next (.code digits 0)
    | none =>
      if c == 'A' || c == 'z' || (escaped? c).isSome then state.next (.item true) else none
  | .code digits value => do
    match ← addDigit? digits value c with
    | (0, _) => state.next (.item true)
    | (digits, value) => state.next (.code digits value)
  | .group => if c == '?' then state.next .groupKind else state.openGroup.item false c
  | .groupKind =>
    match c with
    | 'P' => state.next .groupLetter
    | '<' => state.next (.groupName false)
    | ')' => none
    | _ => state.flag [] false false c
  | .groupLetter => if c == '<' then state.next (.groupName false) else none
  | .groupName started =>
    if c == '>' then if started then some state.openGroup else none
    else if c == '_' || isAlphanumeric c && (started || !c.isDigit) ||
        started && ".[]".toList.contains c then
      state.next (.groupName true)
    else none
  | .flags seen negated dangling => state.flag seen negated dangling c
  | .classStart negated =>
    match c with
    | '^' => if negated then state.classItem c else state.next (.classStart true)
    | '-' => state.next .classHyphens
    | ']' => state.next (.classItem none)
    | _ => state.classItem c
  | .classHyphens => if c == '-' then some state else state.classItem c
  | .classItem last =>
    match last, c with
    | some low, '-' => state.next (.classRange low)
    | _, _ => state.classItem c
  | .classOperator first =>
    if c == first then state.next (.classItem none)
    else if c == '-' then state.next (.classRange first.toNat)
    else state.classItem c
  | .classRange low =>
    match c with
    | ']' => state.closeClass
    | '-' => state.next (.classItem none)
    | '\\' => state.next (.classEscape (some low))
    | _ => state.classLiteral (some low) c.toNat
  | .classEscape low =>
    match codeLength? c with
    | some digits => state.next (.classCode digits 0 low)
    | none => do state.classLiteral low (← escaped? c)
  | .classCode digits value low => do
    match ← addDigit? digits value c with
    | (0, value) => state.classLiteral low value
    | (digits, value) => state.next (.classCode digits value low)

def run (state : State) : List Char → Option State
  | [] => some state
  | c :: pattern => (state.step c).bind fun state => state.run pattern

end State

def isWellFormed (pattern : List Char) : Bool := (State.start.run pattern).any State.isComplete

end SignalDesk.Pattern
