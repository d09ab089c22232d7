import LineCalc.Settings
import LineCalc.Text.Integer
import LineCalc.Text.Quoted

/-! Settings from the arguments of a command line. All arguments are sorted into pieces before
any of them takes effect, so an ambiguous one is reported even behind a request for help.
What is left over is reported last. -/
namespace LineCalc.CommandLine

open Settings (Field Raw Supplied)

inductive Switch where
  | help
  | setting (field : Field)
  deriving DecidableEq, Repr

namespace Switch

def all : List Switch := help :: Field.all.map setting

def longName : Switch → String
  | help => "--help"
  | setting .prompt => "--prompt"
  | setting .historyFile => "--history-file"
  | setting .logLevel => "--log-level"
  | setting .stopOnError => "--stop-on-error"
  | setting .showTree => "--show-tree"

def shortName : Switch → Option String
  | help => some "-h"
  | setting _ => none

def title (s : Switch) : String :=
  match s.shortName with
  | some short => short ++ "/" ++ s.longName
  | none => s.longName

def takesValue : Switch → Bool
  | setting .prompt | setting .historyFile | setting .logLevel => true
  | _ => false

def ofLongName (text : String) : Option Switch := all.find? (·.longName = text)

def ofShortName (text : String) : Option Switch := all.find? (·.shortName = some text)

theorem ofLongName_longName (s : Switch) : ofLongName s.longName = some s := by
  cases s with
  | help => rfl
  | setting field => cases field <;> rfl

end Switch

inductive UsageError where
  | valueMissing (s : Switch)
  | valueIgnored (s : Switch) (value : String)
  | ambiguous (argument : String) (candidates : List Switch)
  | unrecognized (arguments : List String)
  deriving DecidableEq, Repr

def UsageError.message : UsageError → String
  | valueMissing s => "argument " ++ s.title ++ ": expected one argument"
  | valueIgnored s value =>
    "argument " ++ s.title ++ ": ignored explicit argument " ++ Text.quoted value
  | ambiguous argument candidates =>
    "ambiguous option: " ++ argument ++ " could match " ++
      ", ".intercalate (candidates.map Switch.longName)
  | unrecognized arguments => "unrecognized arguments: " ++ " ".intercalate arguments

inductive Piece where
  | plain (text : String)
  | separator
  | unknown (text : String)
  | short (s : Switch) (attached : Option String)
  | long (s : Switch) (attached : Option String)
  deriving DecidableEq, Repr

def cutAtEquals (cs : List Char) : String × Option String :=
  (String.ofList (cs.takeWhile (· ≠ '=')),
    match cs.dropWhile (· ≠ '=') with
    | [] => none
    | _ :: value => some (String.ofList value))

def looksNegative (cs : List Char) : Bool :=
  let body := if cs.getLast? = some '\n' then cs.dropLast else cs
  match body with
  | '-' :: rest =>
    match rest.dropWhile Text.isDecimalDigit with
    | [] => !rest.isEmpty
    | '.' :: fraction => !fraction.isEmpty && fraction.all Text.isDecimalDigit
    | _ => false
  | _ => false

/-- A dash begins no option if a number or a text with a space begins so. -/
def withoutSwitch (argument : String) : Piece :=
  if looksNegative argument.toList || ' ' ∈ argument.toList then .plain argument
  else .unknown argument

/-- A long name may be cut short as long as one switch is meant; a short name may have its
value behind it without an equals sign. -/
def classifyAbbreviated (argument : String) : Except UsageError Piece :=
  match argument.toList with
  | '-' :: '-' :: _ =>
    let (name, attached) := cutAtEquals argument.toList
    match Switch.all.filter fun s => name.toList.isPrefixOf s.longName.toList with
    | [] => .ok (withoutSwitch argument)
    | [s] => .ok (.long s attached)
    | candidates => .error (.ambiguous argument candidates)
  | '-' :: letter :: attached =>
    match Switch.ofShortName (String.ofList ['-', letter]) with
    | some s => .ok (.short s (some (String.ofList attached)))
    | none => .ok (withoutSwitch argument)
  | _ => .ok (withoutSwitch argument)

def classify (argument : String) : Except UsageError Piece :=
  match argument.toList with
  | [] | ['-'] => .ok (.plain argument)
  | '-' :: _ =>
    match Switch.ofLongName argument, Switch.ofShortName argument with
    | some s, _ => .ok (.long s none)
    | none, some s => .ok (.short s none)
    | none, none =>
      let (name, attached) := cutAtEquals argument.toList
      match attached, Switch.ofLongName name, Switch.ofShortName name with
      | some value, some s, _ => .ok (.long s (some value))
      | some value, none, some s => .ok (.short s (some value))
      | _, _, _ => classifyAbbreviated argument
  | _ => .ok (.plain argument)

def classifyAll : List String → Except UsageError (List Piece)
  | [] => .ok []
  | argument :: rest =>
    if argument = "--" then .ok (.separator :: rest.map .plain)
    else do
      let piece ← classify argument
      let pieces ← classifyAll rest
      .ok (piece :: pieces)

inductive Stop where
  | help
  | usage (e : UsageError)
  deriving DecidableEq, Repr

/-- The value behind an equals sign. A separator there counts as no value at all. -/
def attachedValue (value : String) : Raw :=
  if value = "--" then .foreign "[]" "list" else .text value

/-- Short switches that are written together: each further letter is one, and only the one
for help has a short name. -/
def stopAtHelp (attached : String) : Stop :=
  match attached.toList.dropWhile (· = 'h') with
  | [] => if attached.isEmpty then .usage (.valueIgnored .help attached) else .help
  | value => .usage (.valueIgnored .help (String.ofList value))

def supply (supplied : Supplied) (field : Field) (value : Raw) : Supplied :=
  fun other => if other = field then some value else supplied other

def readBare (s : Switch) (supplied : Supplied) (rest : List Piece) :
    Except Stop (Supplied × List Piece) :=
  match s with
  | .help => .error .help
  | .setting field =>
    if s.takesValue then
      match rest with
      | .plain value :: rest => .ok (supply supplied field (.text value), rest)
      | _ => .error (.usage (.valueMissing s))
    else .ok (supply supplied field (.flag true), rest)

theorem length_le_of_readBare {s : Switch} {supplied : Supplied} {rest : List Piece}
    {r : Supplied × List Piece} (h : readBare s supplied rest = .ok r) :
    r.2.length ≤ rest.length := by
  unfold readBare at h
  split at h
  · cases h
  · split at h
    · split at h
      · cases h; simp
      · cases h
    · cases h; exact Nat.le_refl _

/-- `extra` holds what no switch has taken so far, last one first. -/
def readPieces (supplied : Supplied) (extra : List String) (pieces : List Piece) :
    Except Stop Supplied :=
  match pieces with
  | [] => if extra.isEmpty then .ok supplied else .error (.usage (.unrecognized extra.reverse))
  | .plain text :: rest | .unknown text :: rest => readPieces supplied (text :: extra) rest
  | .separator :: rest => readPieces supplied ("--" :: extra) rest
  | .short s none :: rest | .long s none :: rest =>
    match h : readBare s supplied rest with
    | .error stop => .error stop
    | .ok (supplied, remaining) =>
      have : remaining.length ≤ rest.length := length_le_of_readBare h
      readPieces supplied extra remaining
  | .short s (some attached) :: _ => .error <| match s with
    | .help => stopAtHelp attached
    | s => .usage (.valueIgnored s attached)
  | .long s (some attached) :: rest =>
    match s with
    | .help => .error (.usage (.valueIgnored s attached))
    | .setting field =>
      if s.takesValue then readPieces (supply supplied field (attachedValue attached)) extra rest
      else .error (.usage (.valueIgnored s attached))
termination_by pieces.length
decreasing_by all_goals simp only [List.length_cons]; omega

/-- What a command line supplies: for each field, what its last mention says. -/
def read (arguments : List String) : Except Stop Supplied :=
  match classifyAll arguments with
  | .error e => .error (.usage e)
  | .ok pieces => readPieces (fun _ => none) [] pieces

theorem read_nil : read [] = .ok fun _ => none := by
  simp [read, classifyAll, readPieces]

end LineCalc.CommandLine
