import SignalDesk.Telemetry
import SignalDesk.Utf8
import SignalDesk.Market.Wire

/-!
# Captured records

A capture is a file with one record in JSON on each line. Blank lines are skipped and lines that hold
no valid record are reported; a line that is not UTF-8 ends the replay.
-/

namespace SignalDesk.Capture

/-- The lines of a file, without the line feeds that end them. The last one needs no end. -/
def splitLines (current : List UInt8) : List UInt8 → List (List UInt8 × Bool)
  | [] => if current.isEmpty then [] else [(current.reverse, false)]
  | byte :: bytes =>
    if byte = 10 then (current.reverse, true) :: splitLines [] bytes
    else splitLines (byte :: current) bytes

def lineText? (line : List UInt8 × Bool) : Option String :=
  let bytes := if line.2 && line.1.getLast? == some 13 then line.1.dropLast else line.1
  String.fromUTF8? ⟨bytes.toArray⟩

/-- What is wrong with the bytes of a line, its line feed included. -/
def lineFault (line : List UInt8 × Bool) : String :=
  ((Utf8Fault.find? (if line.2 then line.1 ++ [10] else line.1)).map Utf8Fault.message).getD ""

structure Replay where
  records : List Record
  notices : List Notice
  /-- Lines read, blank ones included. -/
  lines : Nat
  /-- Why the file could not be read to its end. -/
  failure : Option String

def errorText : RecordError → String
  | .malformed => "Malformed record"
  | .invalid fault => fault.message

def lineNotices (line : Nat) (error : RecordError) : List Notice :=
  [.logging .warn .feed "Skipping malformed record"
      [("line", .int line), ("error", .text (errorText error))],
    .count .recordsDropped]

/-- Reads lines, of which `lines` have gone before. -/
def readLines (lines : Nat) : List (List UInt8 × Bool) → Replay
  | [] => ⟨[], [], lines, none⟩
  | line :: rest =>
    match lineText? line with
    | none => ⟨[], [], lines, some (lineFault line)⟩
    | some text =>
      let later := readLines (lines + 1) rest
      if isBlankText text then later
      else
        match Record.parse text with
        | .ok record => { later with records := record :: later.records }
        | .error error =>
          { later with notices := lineNotices (lines + 1) error ++ later.notices }

def replay (content : List UInt8) : Replay := readLines 0 (splitLines [] content)

def unreadable (reason : String) : Replay := ⟨[], [], 0, some reason⟩

def notices (path : String) (replay : Replay) : List Notice :=
  .logging .info .feed "Replaying records" [("path", .text path)] :: replay.notices ++
    (replay.failure.toList.map fun failure =>
      .logging .error .feed "Replay read failed" [("path", .text path), ("error", .text failure)]) ++
    [.logging .info .feed "Replay finished"
      [("path", .text path), ("records", .int replay.records.length), ("lines", .int replay.lines)]]

end SignalDesk.Capture
