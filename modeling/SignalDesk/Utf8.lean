/-!
# Faults in UTF-8

Where bytes stop being UTF-8, and how much of them is to blame: a sequence that cannot be the beginning
of a character, or a character that the end of the bytes cuts short.
-/

namespace SignalDesk

/-- The first place at which bytes are not UTF-8. -/
structure Utf8Fault where
  /-- How many bytes before it are characters. -/
  start : Nat
  /-- The length of the faulty sequence; `none` when only more bytes are missing. -/
  length : Option Nat
  deriving DecidableEq

namespace Utf8Fault

/-- What must follow a byte that begins a character: the range of the next byte, and how many bytes
come after that one. -/
structure Demand where
  low : UInt8
  high : UInt8
  more : Nat

def Demand.ofFirst? (byte : UInt8) : Option Demand :=
  if byte < 0xC2 then none
  else if byte < 0xE0 then some ⟨0x80, 0xBF, 0⟩
  else if byte = 0xE0 then some ⟨0xA0, 0xBF, 1⟩
  else if byte = 0xED then some ⟨0x80, 0x9F, 1⟩
  else if byte < 0xF0 then some ⟨0x80, 0xBF, 1⟩
  else if byte = 0xF0 then some ⟨0x90, 0xBF, 2⟩
  else if byte < 0xF4 then some ⟨0x80, 0xBF, 2⟩
  else if byte = 0xF4 then some ⟨0x80, 0x8F, 2⟩
  else none

/-- Looks for a fault `seen` bytes into the character at `start`, of which more is demanded. -/
def scan? (start seen : Nat) (demand : Option Demand) : List UInt8 → Option Utf8Fault
  | [] => demand.map fun _ => ⟨start, none⟩
  | byte :: bytes =>
    match demand with
    | none =>
      if byte < 0x80 then scan? (start + 1) 0 none bytes
      else
        match Demand.ofFirst? byte with
        | some demand => scan? start 1 (some demand) bytes
        | none => some ⟨start, some 1⟩
    | some ⟨low, high, more⟩ =>
      if byte < low || high < byte then some ⟨start, some seen⟩
      else
        match more with
        | 0 => scan? (start + seen + 1) 0 none bytes
        | more + 1 => scan? start (seen + 1) (some ⟨0x80, 0xBF, more⟩) bytes

def find? (bytes : List UInt8) : Option Utf8Fault := scan? 0 0 none bytes

def message (fault : Utf8Fault) : String :=
  match fault.length with
  | some length => s!"invalid utf-8 sequence of {length} bytes from index {fault.start}"
  | none => s!"incomplete utf-8 byte sequence from index {fault.start}"

end Utf8Fault

end SignalDesk
