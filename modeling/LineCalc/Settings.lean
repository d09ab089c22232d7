import LineCalc.Home
import LineCalc.Log
import LineCalc.Text.Basic

/-! The settings of a session and what may be supplied for them. What is supplied comes in
layers, and a value is read when the layers have been laid over each other and not before, so
that a bad value which a higher layer hides does no harm. The library that reads the values is
not part of the program; what it is given and what is made of its answers is. -/
namespace LineCalc

structure Settings where
  prompt : String
  historyFile : String
  logLevel : Log.Threshold
  stopOnError : Bool
  showTree : Bool
  deriving DecidableEq, Repr

namespace Settings

inductive Field where
  | prompt | historyFile | logLevel | stopOnError | showTree
  deriving DecidableEq, Repr

namespace Field

def all : List Field := [prompt, historyFile, logLevel, stopOnError, showTree]

def name : Field → String
  | prompt => "prompt"
  | historyFile => "history_file"
  | logLevel => "log_level"
  | stopOnError => "stop_on_error"
  | showTree => "show_tree"

theorem mem_all (field : Field) : field ∈ all := by cases field <;> decide

end Field

/-- A value before it is read: environment and command line give texts and flags, other
callers may give anything. -/
inductive Raw where
  | text (s : String)
  | flag (b : Bool)
  | integer (n : Int)
  /-- A value that no field takes, by its text and the name of its shape. -/
  | foreign (shown shape : String)
  deriving DecidableEq, Repr

abbrev Supplied := Field → Option Raw

/-- `upper` where it supplies something, and `lower` elsewhere. -/
def Supplied.over (upper lower : Supplied) : Supplied := fun field => (upper field).or (lower field)

structure Reason where
  kind : String
  message : String
  deriving DecidableEq, Repr

structure Problem where
  field : Field
  value : Raw
  reason : Reason
  deriving DecidableEq, Repr

/-- The library that reads values. The program relies on the laws and on nothing else of it: which
words are truth values and how a refusal is worded is for the library to say. -/
structure Validator where
  readText : Raw → Except Reason String
  readFlag : Raw → Except Reason Bool
  ofRule : String → Reason
  collect : List (Option Problem) → List Problem
  report : List Problem → String
  readText_eq_ok_iff : ∀ value s, readText value = .ok s ↔ value = .text s
  readFlag_flag : ∀ b, readFlag (.flag b) = .ok b
  collect_eq : ∀ found, collect found = found.filterMap id

def promptRule (s : String) : Except String String :=
  if s.isEmpty then .error "Prompt cannot be empty" else .ok s

def historyFileRule (homes : Homes) (s : String) : Except String String :=
  match Home.expand? homes s with
  | some path => .ok path
  | none => .error "embedded null byte"

/-- The name of a level may stand in any case between blanks; a report shows it as given. -/
def levelRule (s : String) : Except String Log.Threshold :=
  match Log.Threshold.ofName (Text.upper (String.ofList (Text.strip s.toList))) with
  | some level => .ok level
  | none => .error ("Unknown log level: " ++ s)

def Validator.readBy (v : Validator) (rule : String → Except String α) (value : Raw) :
    Except Reason α := do
  let s ← v.readText value
  (rule s).mapError v.ofRule

def defaultHistoryFile (homes : Homes) : String :=
  let path := "~/.climbcalc_history"
  (Home.expand? homes path).getD path

def default (homes : Homes) : Settings :=
  ⟨"> ", defaultHistoryFile homes, .warning, false, false⟩

/-- The value of a field: the supplied one if there is one, else the one that it has, which is
not read again. -/
def fieldValue (supplied : Supplied) (field : Field) (read : Raw → Except Reason α)
    (otherwise : α) : Except Problem α :=
  match supplied field with
  | none => .ok otherwise
  | some value => (read value).mapError fun reason => ⟨field, value, reason⟩

def problemOf : Except Problem α → Option Problem
  | .ok _ => none
  | .error p => some p

def valueOf (otherwise : α) : Except Problem α → α
  | .ok a => a
  | .error _ => otherwise

/-- The settings that start as given and take over what is supplied. Paths that are supplied
are expanded by the homes; those in `start` have been. -/
def ofSupplied (v : Validator) (homes : Homes) (start : Settings) (supplied : Supplied) :
    Except (List Problem) Settings :=
  let prompt := fieldValue supplied .prompt (v.readBy promptRule) start.prompt
  let historyFile :=
    fieldValue supplied .historyFile (v.readBy (historyFileRule homes)) start.historyFile
  let logLevel := fieldValue supplied .logLevel (v.readBy levelRule) start.logLevel
  let stopOnError := fieldValue supplied .stopOnError v.readFlag start.stopOnError
  let showTree := fieldValue supplied .showTree v.readFlag start.showTree
  match v.collect [problemOf prompt, problemOf historyFile, problemOf logLevel,
    problemOf stopOnError, problemOf showTree] with
  | [] => .ok ⟨valueOf start.prompt prompt, valueOf start.historyFile historyFile,
      valueOf start.logLevel logLevel, valueOf start.stopOnError stopOnError,
      valueOf start.showTree showTree⟩
  | problems => .error problems

theorem ne_nil_of_ofSupplied_eq_error {v : Validator} {homes : Homes} {start : Settings}
    {supplied : Supplied} {problems : List Problem}
    (h : ofSupplied v homes start supplied = .error problems) : problems ≠ [] := by
  rw [ofSupplied] at h
  split at h
  · cases h
  · next some =>
    cases h
    exact some

theorem ofSupplied_none (v : Validator) (homes : Homes) (start : Settings) :
    ofSupplied v homes start (fun _ => none) = .ok start := by
  rw [ofSupplied, v.collect_eq]
  rfl

end Settings

end LineCalc
