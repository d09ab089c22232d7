import LineCalc.Session

/-! A session with a person: a prompt before each line, and an answer before the next prompt.
An interrupt drops the line that is being typed, and the end of input ends the session. -/
namespace LineCalc.Dialogue

open Session (Next)

inductive Event where
  | line (text : String)
  | interrupt
  | endOfInput
  deriving DecidableEq, Repr

/-- All that can be seen of a dialogue, in the order in which it is seen. -/
inductive Emission where
  | prompt (text : String)
  | out (text : String)
  | err (text : String)
  | log (record : Log.Record)
  deriving DecidableEq, Repr

def banner : String :=
  "Interactive Calculator REPL. Type :help for help. Ctrl-D or :exit to quit."

def opening (settings : Settings) : List Emission :=
  [.out banner, .log ⟨.info, "Session started (history: " ++ settings.historyFile ++ ")"⟩]

def closing : List Emission := [.log ⟨.info, "Session ended"⟩]

def ofOutput (output : Session.Output) : Emission :=
  if output.ok then .out output.text else .err output.text

def ofOutcome (outcome : Session.Outcome) : List Emission :=
  outcome.log.map .log ++ outcome.outputs.map ofOutput

structure Turn where
  emissions : List Emission
  failed : Bool
  next : Next
  deriving DecidableEq, Repr

def answer (frames : Parser.Frames) (settings : Settings) (failed : Bool) : Event → Turn
  | .line text =>
    let outcome := Session.step frames settings failed text
    ⟨ofOutcome outcome, outcome.failed, outcome.next⟩
  | .interrupt => ⟨[.out "^C"], failed, .proceed⟩
  | .endOfInput => ⟨[.out Session.farewell], failed, .stop⟩

/-- Behind the last event the input is at its end. -/
def turns (frames : Parser.Frames) (settings : Settings) (failed : Bool) : List Event → Turn
  | [] =>
    let last := answer frames settings failed .endOfInput
    ⟨.prompt settings.prompt :: last.emissions, last.failed, last.next⟩
  | event :: rest =>
    let first := answer frames settings failed event
    match first.next with
    | .proceed =>
      let others := turns frames settings first.failed rest
      ⟨.prompt settings.prompt :: first.emissions ++ others.emissions, others.failed, others.next⟩
    | next => ⟨.prompt settings.prompt :: first.emissions, first.failed, next⟩

/-- A dialogue ends with its closing unless the program meets a limit. -/
def hold (frames : Parser.Frames) (settings : Settings) (events : List Event) : Turn :=
  let turn := turns frames settings false events
  match turn.next with
  | .broken _ => ⟨opening settings ++ turn.emissions, turn.failed, turn.next⟩
  | _ => ⟨opening settings ++ turn.emissions ++ closing, turn.failed, turn.next⟩

end LineCalc.Dialogue
