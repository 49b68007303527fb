/-!
# Arguments

The command line names a configuration file and one command. Options come in a long form and mostly in
a short one, with the value attached or as the next argument, and none may repeat. Arguments are
taken in order, and the first one that decides the outcome does. Two hyphens end the options of a
command, and nothing may follow them.
-/

namespace SignalDesk

structure ReplayOptions where
  input : String
  /-- Whether each instrument has its own shard. -/
  sharded : Bool
  actionableOnly : Bool
  deriving DecidableEq

inductive Command where
  | replay (options : ReplayOptions)
  | showConfig
  deriving DecidableEq

structure Invocation where
  configPath : String
  command : Command
  deriving DecidableEq

inductive HelpTopic where
  | program
  | replay
  | showConfig
  | help
  deriving DecidableEq

inductive Intent where
  | run (invocation : Invocation)
  | version
  | help (topic : HelpTopic)
  | misuse
  deriving DecidableEq

namespace Arguments

inductive Token where
  | long (name : String) (attached : Option String)
  | short (letter : Char) (attached : Option String)
  | word (text : String)

def dropEquals : List Char → List Char
  | '=' :: rest => rest
  | text => text

def token (arg : String) : Token :=
  match arg.toList with
  | '-' :: '-' :: text =>
    let (name, attached) := text.span (· != '=')
    .long (String.ofList name)
      (if attached.isEmpty then none else some (String.ofList (attached.drop 1)))
  | '-' :: letter :: text =>
    .short letter (if text.isEmpty then none else some (String.ofList (dropEquals text)))
  | _ => .word arg

def isValue (arg : String) : Bool := arg == "-" || arg.toList.head? != some '-'

/-- The option `letter`, `name` and the way in which its value is given. -/
def attached? (letter : Char) (name : String) : Token → Option (Option String)
  | .long given attached => if given == name then some attached else none
  | .short given attached => if given == letter then some attached else none
  | .word _ => none

def isFlag (name : String) : Token → Bool
  | .long given none => given == name
  | _ => false

def isHelp : Token → Bool
  | .long "help" none => true
  | .short 'h' _ => true
  | _ => false

def isVersion : Token → Bool
  | .long "version" none => true
  | .short 'V' _ => true
  | _ => false

structure ReplayDraft where
  input : Option String := none
  sharded : Bool := false
  actionableOnly : Bool := false

def ReplayDraft.finish (configPath : String) (draft : ReplayDraft) : Intent :=
  match draft.input with
  | some input => .run ⟨configPath, .replay ⟨input, draft.sharded, draft.actionableOnly⟩⟩
  | none => .misuse

/-- The input of a replay, which must not be given before and not be empty. -/
def ReplayDraft.withInput? (draft : ReplayDraft) (input : String) : Option ReplayDraft :=
  if draft.input.isSome || input.isEmpty then none else some { draft with input := some input }

def parseReplay (configPath : String) (draft : ReplayDraft) : List String → Intent
  | [] => draft.finish configPath
  | ["--"] => draft.finish configPath
  | arg :: args =>
    let token := token arg
    if isHelp token then .help .replay
    else if isFlag "sharded" token then
      if draft.sharded then .misuse else parseReplay configPath { draft with sharded := true } args
    else if isFlag "actionable-only" token then
      if draft.actionableOnly then .misuse
      else parseReplay configPath { draft with actionableOnly := true } args
    else
      match attached? 'i' "input" token with
      | none => .misuse
      | some (some input) =>
        match draft.withInput? input with
        | some draft => parseReplay configPath draft args
        | none => .misuse
      | some none =>
        match args with
        | [] => .misuse
        | input :: args =>
          if isValue input then
            match draft.withInput? input with
            | some draft => parseReplay configPath draft args
            | none => .misuse
          else .misuse

def parseShowConfig (configPath : String) : List String → Intent
  | [] => .run ⟨configPath, .showConfig⟩
  | ["--"] => .run ⟨configPath, .showConfig⟩
  | arg :: _ => if isHelp (token arg) then .help .showConfig else .misuse

def parseHelp : List String → Intent
  | [] => .help .program
  | ["replay"] => .help .replay
  | ["config"] => .help .showConfig
  | ["help"] => .help .help
  | _ => .misuse

def defaultConfigPath : String := "config.toml"

def parseProgram (configPath : Option String) : List String → Intent
  | [] => .misuse
  | "replay" :: args => parseReplay (configPath.getD defaultConfigPath) {} args
  | "config" :: args => parseShowConfig (configPath.getD defaultConfigPath) args
  | "help" :: args => parseHelp args
  | arg :: args =>
    let token := token arg
    if isHelp token then .help .program
    else if isVersion token then .version
    else
      match attached? 'c' "config" token with
      | none => .misuse
      | some (some path) => if configPath.isSome then .misuse else parseProgram (some path) args
      | some none =>
        match args with
        | [] => .misuse
        | path :: args =>
          if isValue path && configPath.isNone then parseProgram (some path) args else .misuse

def parse (args : List String) : Intent := parseProgram none args

end Arguments

end SignalDesk
