import SignalDesk.CommandLine.Program

/-!
# Main

Reads the files that the program asks for, prints what it has to say and exits.
-/

open SignalDesk

def readHandle (handle : IO.FS.Handle) : IO FileContent := do
  try
    let content ← handle.readBinToEnd
    return .bytes content.toList
  catch error => return .unreadable (toString error)

def readFile (path : String) : IO FileContent := do
  try readHandle (← IO.FS.Handle.mk path .read)
  catch _ => return .missing

def filesOf : Intent → List String
  | .run ⟨configPath, .replay options⟩ => [configPath, options.input]
  | .run ⟨configPath, .showConfig⟩ => [configPath]
  | _ => []

def main (args : List String) : IO UInt32 := do
  let contents ← (filesOf (Arguments.parse args)).mapM fun path => do
    return (path, ← readFile path)
  let outcome := Program.run args fun path => (contents.lookup path).getD .missing
  let stdout ← IO.getStdout
  stdout.putStr outcome.stdout
  stdout.flush
  let stderr ← IO.getStderr
  stderr.putStr outcome.stderr
  for line in outcome.logs do
    stderr.putStrLn (Json.write line.toData)
  return outcome.exitCode.toUInt32
