import LineCalc.Help
import LineCalc.Log
import LineCalc.Parser
import LineCalc.Request
import LineCalc.Settings
import LineCalc.Text.Quoted
import LineCalc.Tree

/-! A session answers one line after another. All that it remembers is whether some line has
failed. A line is answered by a text, or it ends the session, or it meets a limit of the
program that the session does not catch, which ends it too. -/
namespace LineCalc.Session

inductive Reply where
  | text (ok : Bool) (text : String)
  | leave
  | broken (fault : Fault)
  deriving DecidableEq, Repr

structure Answer where
  log : List Log.Record
  reply : Reply
  deriving DecidableEq, Repr

def errorText (fault : Fault) : String := "Error: " ++ fault.message

def replyOf : Except Fault String → Reply
  | .ok text => .text true text
  | .error fault => .broken fault

/-- How an expression is grouped. A limit of the program is not caught here. -/
def showGrouping (frames : Parser.Frames) (text : String) : Reply :=
  if text.isEmpty then .text false "Usage: :tree <expression>"
  else
    match parseWithin frames text with
    | .ok t => replyOf t.render
    | .error fault => if fault.isOfLine then .text false (errorText fault) else .broken fault

def reject (text : String) (fault : Fault) : Answer :=
  if fault.isOfLine then
    ⟨[⟨.debug, "Rejected " ++ Text.quoted text ++ ": " ++ fault.message⟩],
      .text false (errorText fault)⟩
  else
    ⟨[⟨.error, "Unexpected error evaluating " ++ Text.quoted text ++ ": " ++ fault.message⟩],
      .text false ("Unhandled error: " ++ fault.message)⟩

/-- The record of a reading. There is none of a tree with a number that is too long to be printed;
what a logger makes of the failure to print it is its own matter. -/
def parsedRecord (text : String) (t : Tree) : List Log.Record :=
  match t.render with
  | .ok shown => [⟨.debug, "Parsed " ++ Text.quoted text ++ " as " ++ shown⟩]
  | .error _ => []

/-- The value, under the tree if the session shows trees. It is printed last, and a limit of
the program is not caught any more. -/
def present (withTree : Bool) (t : Tree) (value : Int) : Reply :=
  replyOf do
    if withTree then
      let shown ← t.render
      let text ← Decimal.text value
      return shown ++ "\n" ++ text
    else Decimal.text value

def evaluateExpression (frames : Parser.Frames) (withTree : Bool) (text : String) : Answer :=
  match parseWithin frames text with
  | .error fault => reject text fault
  | .ok t =>
    match t.evaluate with
    | .error fault =>
      let rejected := reject text fault
      ⟨parsedRecord text t ++ rejected.log, rejected.reply⟩
    | .ok value => ⟨parsedRecord text t, present withTree t value⟩

/-- A request for a tree goes through two more callers than an expression, which leaves its reader
so many frames fewer. -/
def respond (frames : Parser.Frames) (settings : Settings) : Request → Answer
  | .expression text => evaluateExpression frames settings.showTree text
  | .help topic => ⟨[], .text true (Help.forTopic topic)⟩
  | .operators => ⟨[], .text true Help.Topic.operators.page⟩
  | .tree text => ⟨[], showGrouping (frames.below 2) text⟩
  | .leave => ⟨[], .leave⟩
  | .nothing => ⟨[], .text false "No command specified. Use :help for available commands."⟩
  | .unknown word => ⟨[], .text false ("Unknown command: " ++ word)⟩

def evaluateLine (frames : Parser.Frames) (settings : Settings) (line : String) : Answer :=
  respond frames settings (.ofLine line)

structure Output where
  ok : Bool
  text : String
  deriving DecidableEq, Repr

inductive Next where
  | proceed
  | stop
  | broken (fault : Fault)
  deriving DecidableEq, Repr

structure Outcome where
  log : List Log.Record
  outputs : List Output
  failed : Bool
  next : Next
  deriving DecidableEq, Repr

def farewell : String := "Exiting."

/-- Only a text that reports a failure makes a session fail. -/
def take (settings : Settings) (failed : Bool) (answer : Answer) : Outcome :=
  match answer.reply with
  | .text ok text =>
    ⟨answer.log, [⟨ok, text⟩], failed || !ok,
      if !ok && settings.stopOnError then .stop else .proceed⟩
  | .leave => ⟨answer.log, [⟨true, farewell⟩], failed, .stop⟩
  | .broken fault => ⟨answer.log, [], failed, .broken fault⟩

def step (frames : Parser.Frames) (settings : Settings) (failed : Bool) (line : String) : Outcome :=
  if line.toList.all Text.isBlank then ⟨[], [], failed, .proceed⟩
  else take settings failed (evaluateLine frames settings line)

def run (frames : Parser.Frames) (settings : Settings) (failed : Bool) : List String → Outcome
  | [] => ⟨[], [], failed, .proceed⟩
  | line :: rest =>
    let first := step frames settings failed line
    match first.next with
    | .proceed =>
      let others := run frames settings first.failed rest
      ⟨first.log ++ others.log, first.outputs ++ others.outputs, others.failed, others.next⟩
    | _ => first

theorem run_nil (frames : Parser.Frames) (settings : Settings) (failed : Bool) :
    run frames settings failed [] = ⟨[], [], failed, .proceed⟩ := rfl

theorem run_append_of_proceed {frames : Parser.Frames} {settings : Settings} {failed : Bool}
    {a : List String}
    (h : (run frames settings failed a).next = .proceed) (b : List String) :
    run frames settings failed (a ++ b) =
      let first := run frames settings failed a
      let others := run frames settings first.failed b
      ⟨first.log ++ others.log, first.outputs ++ others.outputs, others.failed, others.next⟩ := by
  induction a generalizing failed with
  | nil => rfl
  | cons line a ih =>
    rw [List.cons_append, run, run]
    rw [run] at h
    cases hn : (step frames settings failed line).next with
    | proceed =>
      simp only [hn] at h ⊢
      rw [ih h]
      simp only [List.append_assoc]
    | stop | broken fault => simp [hn] at h

end LineCalc.Session
