import LineCalc.Program
import LineCalc.Settings.Lenient
import Std.Time

/-! The program at a real terminal or behind a pipe. Only reading, printing and the clock are
here; what is read, what it means and what is printed is decided elsewhere. -/
namespace LineCalc.Main

open Dialogue (Emission Event)

def stamp : IO String := do
  return (← Std.Time.PlainDateTime.now).format "uuuu-MM-dd HH:mm:ss,SSS"

def emit : Emission → IO Unit
  | .prompt text => do
    let output ← IO.getStdout
    output.putStr text
    output.flush
  | .out text => IO.println text
  | .err text => IO.eprintln text
  | .log record => do IO.eprintln (Program.logLine (← stamp) record)

def emitAll (settings : Settings) (emissions : List Emission) : IO Unit :=
  (emissions.filter (Program.passes settings.logLevel)).forM emit

def finish : Program.Ending → IO UInt32
  | .status code => return code.toUInt32
  | .broken fault => do
    IO.eprintln fault.message
    return 1

partial def readAll (input : IO.FS.Stream) (text : String) : IO String := do
  let line ← input.getLine
  if line.isEmpty then return text
  readAll input (text ++ line)

def readEvent (input : IO.FS.Stream) : IO Event := do
  let line ← input.getLine
  return if line.isEmpty then .endOfInput else .line line

partial def converse (frames : Parser.Frames) (settings : Settings) (input : IO.FS.Stream)
    (failed : Bool) : IO UInt32 := do
  emit (.prompt settings.prompt)
  let turn := Dialogue.answer frames settings failed (← readEvent input)
  emitAll settings turn.emissions
  match turn.next with
  | .proceed => converse frames settings input turn.failed
  | .stop => do
    emitAll settings Dialogue.closing
    finish (Program.endingOf settings turn.failed turn.next)
  | .broken _ => finish (Program.endingOf settings turn.failed turn.next)

def start (frames : Parser.Frames) (settings : Settings) : IO UInt32 := do
  let input ← IO.getStdin
  if ← input.isTty then
    emitAll settings (Dialogue.opening settings)
    converse frames settings input false
  else
    let (emissions, ending) := Program.pipe frames settings (← readAll input "")
    emitAll settings emissions
    finish ending

def refuse : Program.Report → IO UInt32
  | .page text => do
    IO.print text
    return 0
  | .refused text => do
    IO.eprint text
    return Program.invalidStatus.toUInt32
  | .ran emissions ending => do
    emissions.forM emit
    finish ending

def variableNames : List String :=
  ["HOME", "COLUMNS"] ++ Settings.Field.all.map Settings.Field.variableName

def account? (line : String) : Option (String × String) :=
  match line.splitOn ":" with
  | name :: _ :: _ :: _ :: _ :: home :: _ => some (name, home)
  | _ => none

def accounts : IO (List (String × String)) := do
  let lines ← try IO.FS.lines "/etc/passwd" catch _ => pure #[]
  return lines.toList.filterMap account?

/-- As many readers as are active on a stack of a thousand callers. -/
def frames : Parser.Frames := .atMost 988

def run (arguments : List String) : IO UInt32 := do
  let environment ← variableNames.mapM fun name => do return (name, ← IO.getEnv name)
  let lookup name := (environment.lookup name).join
  let table ← accounts
  let homes : Homes := ⟨lookup "HOME", fun name => table.lookup name⟩
  let host : Program.Host := ⟨homes, .lenient, frames⟩
  let call : Program.Call := ⟨lookup, arguments⟩
  match call.settings host with
  | .ok settings => start host.frames settings
  | .error refusal => refuse (Program.refuse host call refusal)

end LineCalc.Main

def main (arguments : List String) : IO UInt32 := LineCalc.Main.run arguments
