import EventWorker.Command

/-!
# The program

The worker as a program. It reads the files and the settings that its command needs, performs the
command, and shows the outcome.
-/

namespace EventWorker.Program

def readFile (path : String) : IO (String × Except FileFault String) := do
  try
    let bytes ← IO.FS.readBinFile path
    return (path, if let some s := Text.decode? bytes.toList then .ok s else .error .notText)
  catch _ => return (path, .error .missing)

def readSetting (name : String) : IO (String × Option String) := do
  let key := Setting.key name
  return (key, ← IO.getEnv key)

/-- What a command finds around itself. -/
def readMachine (files : List String) : IO Machine := do
  let contents ← files.mapM readFile
  let settings ← Setting.names.mapM readSetting
  return {
    file := fun path => (contents.lookup path).getD (.error .missing)
    setting := fun key => (settings.lookup key).bind id }

def showLine (line : Line) : IO Unit :=
  match line with
  | .output text => IO.println text
  | .message text => IO.eprintln text

/-- Shows the causes of a failure, the outermost first. -/
def showReport (causes : List String) : IO Unit := do
  IO.eprintln "Error: "
  for (cause, n) in causes.zipIdx do
    IO.eprintln ("   " ++ toString n ++ ": " ++ cause)

end EventWorker.Program

open EventWorker Program in
def main (words : List String) : IO UInt32 := do
  let invocation := Invocation.ofWords words
  let files := match invocation with
    | .command c => c.files
    | _ => []
  let outcome := invocation.perform (← readMachine files)
  outcome.lines.forM showLine
  outcome.report.forM showReport
  return outcome.code.toUInt32
