import LineCalc.CommandLine.Usage
import LineCalc.Configuration
import LineCalc.Dialogue
import LineCalc.Text.Basic

/-! The whole program as a function. On a terminal a dialogue is held; a piped text is
answered line by line, and nothing is printed before all of it has been answered. -/
namespace LineCalc.Program

open Dialogue (Emission Event)

inductive Input where
  | piped (text : String)
  | terminal (events : List Event)
  deriving DecidableEq, Repr

/-- What a program finds where it runs: the homes, the library that reads values, and the frames
that the stack has left for the readers of a line. -/
structure Host where
  homes : Homes
  validator : Settings.Validator
  frames : Parser.Frames

structure Call where
  lookup : String → Option String
  arguments : List String

namespace Call

/-- A variable may name another home for the caller than the one that the program started with. -/
def homes (host : Host) (call : Call) : Homes :=
  { host.homes with own := (call.lookup "HOME").or host.homes.own }

def columns (call : Call) : Nat := CommandLine.columnsOf call.lookup

/-- The settings that the call asks for. The default history file stays where it was when the
program started. -/
def settings (host : Host) (call : Call) : Except Configuration.Refusal Settings :=
  Configuration.load host.validator (call.homes host) (Settings.default host.homes) call.lookup
    call.arguments

end Call

inductive Ending where
  | status (code : Nat)
  | broken (fault : Fault)
  deriving DecidableEq, Repr

inductive Report where
  | page (text : String)
  | refused (text : String)
  | ran (emissions : List Emission) (ending : Ending)
  deriving DecidableEq, Repr

def statusOf (settings : Settings) (failed : Bool) : Nat :=
  if failed && settings.stopOnError then 1 else 0

def endingOf (settings : Settings) (failed : Bool) : Session.Next → Ending
  | .broken fault => .broken fault
  | _ => .status (statusOf settings failed)

def passes (threshold : Log.Threshold) : Emission → Bool
  | .log record => record.passes threshold
  | _ => true

/-- All log records of a piped text come before its outputs, of which there are none if the
program meets a limit. -/
def pipe (frames : Parser.Frames) (settings : Settings) (text : String) : List Emission × Ending :=
  let outcome := Session.run frames settings false (Text.lines text)
  let printed := match outcome.next with
    | .broken _ => []
    | _ => outcome.outputs.map Dialogue.ofOutput
  (outcome.log.map .log ++ printed, endingOf settings outcome.failed outcome.next)

def converse (frames : Parser.Frames) (settings : Settings) (events : List Event) :
    List Emission × Ending :=
  let turn := Dialogue.hold frames settings events
  (turn.emissions, endingOf settings turn.failed turn.next)

def invalidText (validator : Settings.Validator) (problems : List Settings.Problem) : String :=
  "Invalid configuration: " ++ validator.report problems

def invalidStatus : Nat := 2

def runWith (frames : Parser.Frames) (settings : Settings) (input : Input) : Report :=
  let (emissions, ending) := match input with
    | .piped text => pipe frames settings text
    | .terminal events => converse frames settings events
  .ran (emissions.filter (passes settings.logLevel)) ending

def refuse (host : Host) (call : Call) : Configuration.Refusal → Report
  | .commandLine .help => .page (CommandLine.helpPage call.columns host.homes)
  | .commandLine (.usage e) => .refused (e.report call.columns)
  | .settings problems => .ran [.err (invalidText host.validator problems)] (.status invalidStatus)

def run (host : Host) (call : Call) (input : Input) : Report :=
  match call.settings host with
  | .error refusal => refuse host call refusal
  | .ok settings => runWith host.frames settings input

def logLine (stamp : String) (record : Log.Record) : String := stamp ++ " - " ++ record.line

end LineCalc.Program
