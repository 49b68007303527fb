import SignalDesk.Abort
import SignalDesk.Blank
import SignalDesk.Telemetry
import SignalDesk.CommandLine.Pattern

/-!
# Log levels

A log level setting is a list of directives: a level for everything, or a level for the parts of the
program whose target starts with a given text and for the lines with given fields. The most specific
one decides, and without any valid directive only errors are logged.

A directive is read without the blanks around it, but its parts are cut out of the whole text at the
same distances. Leading blanks therefore shift every part, and a cut inside a character is fatal.
-/

namespace SignalDesk

namespace LogSource

def target : LogSource → String
  | program => "ssmd_momentum"
  | replayCommand => "ssmd_momentum::cli::replay"
  | composer => "ssmd_momentum::composer"
  | engine => "ssmd_momentum::engine"
  | instrument => "ssmd_momentum::engine::instrument"
  | sharded => "ssmd_momentum::engine::sharded"
  | feed => "ssmd_momentum::feed::replay"
  | portfolio => "ssmd_momentum::risk::portfolio"
  | position => "ssmd_momentum::risk::position"
  | telemetry => "ssmd_momentum::telemetry"

end LogSource

namespace LogLevel

def name : LogLevel → String
  | trace => "TRACE"
  | debug => "DEBUG"
  | info => "INFO"
  | warn => "WARN"
  | error => "ERROR"

/-- How much a level lets through: one for errors only, five for everything. -/
def verbosity : LogLevel → Nat
  | error => 1
  | warn => 2
  | info => 3
  | debug => 4
  | trace => 5

end LogLevel

namespace LogLine

def toData (line : LogLine) : Data :=
  .table [("level", .text line.level.name),
    ("fields", .table (("message", .text line.message) :: line.fields)),
    ("target", .text line.source.target)]

end LogLine

/-- Lets lines through up to a verbosity where the target starts with a text and the fields are there. -/
structure LogDirective where
  target : String
  fields : List String
  /-- Whether only lines within a scope are meant. The program opens none. -/
  withinScope : Bool
  verbosity : Nat
  deriving DecidableEq

namespace LogDirective

def verbosityNames : List (String × Nat) :=
  [("off", 0), ("error", 1), ("warn", 2), ("info", 3), ("debug", 4), ("trace", 5)]

def verbosity? (text : List Char) : Option Nat :=
  match verbosityNames.lookup (String.ofList (text.map Char.toLower)) with
  | some verbosity => some verbosity
  | none =>
    let digits :=
      match text with
      | '+' :: digits => digits
      | digits => digits
    if digits.isEmpty || digits.any (!·.isDigit) then none
    else
      let value := digitsValue digits
      if value ≤ 5 then some value else none

def isExponent : List Char → Bool
  | [] => true
  | c :: rest =>
    let digits := rest.drop (if rest.head? == some '-' || rest.head? == some '+' then 1 else 0)
    (c == 'e' || c == 'E') && !digits.isEmpty && digits.all Char.isDigit

def isNumber (text : List Char) : Bool :=
  let (whole, rest) := text.span Char.isDigit
  let (fraction, rest) :=
    match rest with
    | '.' :: rest => rest.span Char.isDigit
    | rest => ([], rest)
  ["inf", "infinity", "nan"].contains (String.ofList (text.map Char.toLower)) ||
    !(whole.isEmpty && fraction.isEmpty) && isExponent rest

def isFieldValue (text : List Char) : Bool :=
  match text with
  | '+' :: rest => isNumber rest || Pattern.isWellFormed text
  | _ => Pattern.isWellFormed text

def byteLength : List Char → Nat
  | [] => 0
  | c :: text => c.utf8Size + byteLength text

def splitBytes? : Nat → List Char → Option (List Char × List Char)
  | 0, text => some ([], text)
  | _, [] => none
  | bytes, c :: text =>
    if c.utf8Size ≤ bytes then
      (splitBytes? (bytes - c.utf8Size) text).map fun (before, after) => (c :: before, after)
    else none

/-- Reading a directive: there may be none, and a cut may be fatal. -/
abbrev Reader := OptionT (Except Abort)

def cutFrom (text : List Char) (start : Nat) : Reader (List Char) := do
  return (← liftM (orAbort .splitCharacter (splitBytes? start text))).2

def cut (text : List Char) (start stop : Nat) : Reader (List Char) := do
  return (← liftM (orAbort .splitCharacter (splitBytes? (stop - start) (← cutFrom text start)))).1

/-- The level after a target, at the distance `start`. Without one everything is let through. -/
def level (text : List Char) (start : Nat) : List Char → Reader Nat
  | [] => return 5
  | '=' :: _ => do
    let level ← cutFrom text (start + 1)
    if level.isEmpty then return 5 else OptionT.mk (.ok (verbosity? level))
  | _ => failure

/-- What follows an opening bracket: a scope, a field in braces or both, then a level. -/
def bracket (text : List Char) (target : String) (start : Nat) (rest : List Char) :
    Reader LogDirective := do
  let (scope, rest) := rest.span fun c => c != ']' && c != '\x7b'
  let stop := start + byteLength scope
  match rest with
  | [] => failure
  | ']' :: rest =>
    discard (cut text start stop)
    return ⟨target, [], true, ← level text (stop + 1) rest⟩
  | _ :: rest =>
    discard (cut text start stop)
    let (inner, rest) := rest.span (· != '\x7d')
    if inner.isEmpty || rest.isEmpty then failure
    let field ← cut text (stop + 1) (stop + 1 + byteLength inner)
    let (name, value) := field.span (· != '=')
    unless isFieldValue ((value.drop 1).takeWhile (· != '=')) do failure
    match rest with
    | _ :: ']' :: rest =>
      let verbosity ← level text (stop + 1 + byteLength inner + 2) rest
      return ⟨target, [String.ofList name], !(scope.isEmpty && value.isEmpty), verbosity⟩
    | _ => failure

def startsWell (text : List Char) : Bool :=
  text.head?.any fun c => isAlphanumeric c || c == '-' || c == ':' || c == '_'

/-- A directive: a level, a target, or both joined by an equals sign, with a scope or a field in
brackets after the target. A target without a level lets everything through. -/
def read (text : List Char) : Reader LogDirective :=
  match trimEnd (trimStart text) with
  | '[' :: rest => bracket text "" 1 rest
  | body => do
    unless startsWell body do failure
    let (target, rest) := body.span fun c => c != '=' && c != '['
    let stop := byteLength target
    match rest with
    | [] =>
      match verbosity? text with
      | some verbosity => return ⟨"", [], false, verbosity⟩
      | none => return ⟨String.ofList text, [], false, 5⟩
    | c :: after =>
      let target := String.ofList (← cut text 0 stop)
      if c == '[' then bracket text target (stop + 1) after
      else return ⟨target, [], false, ← level text stop rest⟩

def covers (directive : LogDirective) (line : LogLine) : Bool :=
  !directive.withinScope && directive.target.toList.isPrefixOf line.source.target.toList &&
    directive.fields.all fun field => field == "message" || (line.fields.lookup field).isSome

def sharper (best : Option LogDirective) (directive : LogDirective) : Option LogDirective :=
  match best with
  | none => some directive
  | some other =>
    if (compare directive.target.length other.target.length).then
        (compare directive.fields other.fields) == .lt then best
    else some directive

/-- The directives of a log level setting. -/
def ofSetting (setting : String) : Except Abort (List LogDirective) := do
  let texts := (setting.splitOn ",").filter (!·.isEmpty)
  let directives := (← texts.mapM fun text => (read text.toList).run).filterMap id
  return if directives.isEmpty then [⟨"", [], false, 1⟩] else directives

def allows (directives : List LogDirective) (line : LogLine) : Bool :=
  let relevant := directives.filter fun directive => directive.covers line
  (relevant.foldl sharper none).any fun directive => line.level.verbosity ≤ directive.verbosity

end LogDirective

end SignalDesk
