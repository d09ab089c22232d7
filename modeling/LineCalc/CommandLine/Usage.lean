import LineCalc.CommandLine
import LineCalc.Text.Integer
import LineCalc.Text.Wrap

/-! The pages that say how the program is called. They keep two columns of the terminal free
at the right, and in a narrow one the explanations move to the left. -/
namespace LineCalc.CommandLine

def defaultColumns : Nat := 80

def columnsOf (lookup : String → Option String) : Nat :=
  match (lookup "COLUMNS").bind Text.integer? with
  | some (.ofNat (columns + 1)) => columns + 1
  | _ => defaultColumns

def pageWidth (columns : Nat) : Nat := columns - 2

def explanationColumn (columns : Nat) : Nat := min 24 (max 4 (pageWidth columns - 20))

def leastTextWidth : Nat := 11

def spaces (n : Nat) : String := String.ofList (List.replicate n ' ')

namespace Switch

def placeholder : Switch → String
  | setting .prompt => "PROMPT"
  | setting .historyFile => "HISTORY_FILE"
  | setting .logLevel => "LOG_LEVEL"
  | _ => ""

def withValue (s : Switch) (name : String) : String :=
  if s.takesValue then name ++ " " ++ s.placeholder else name

def synopsis (s : Switch) : String := "[" ++ s.withValue (s.shortName.getD s.longName) ++ "]"

def invocation (s : Switch) : String :=
  match s.shortName with
  | some short => short ++ ", " ++ s.longName
  | none => s.withValue s.longName

def explanation (homes : Homes) : Switch → String
  | help => "show this help message and exit"
  | setting .prompt => "Prompt shown before each line (default: '> ')."
  | setting .historyFile =>
    "File used for line history (default: " ++ Settings.defaultHistoryFile homes ++ ")."
  | setting .logLevel => "Logging level, e.g. DEBUG or INFO (default: WARNING)."
  | setting .stopOnError => "End the session after the first reported error."
  | setting .showTree => "Print the parsed expression tree before each result."

/-- An invocation that leaves no room beside it has a line to itself. -/
def entry (columns : Nat) (homes : Homes) (s : Switch) : List String :=
  let column := explanationColumn columns
  let explained := Text.fill (max leastTextWidth (pageWidth columns - column)) (s.explanation homes)
  let start := "  " ++ s.invocation
  if start.length + 2 ≤ column then
    match explained with
    | [] => [start]
    | first :: rest =>
      (start ++ spaces (column - start.length) ++ first) :: rest.map (spaces column ++ ·)
  else start :: explained.map (spaces column ++ ·)

end Switch

/-- The switches stand beside the name of the program if that leaves them a quarter of the
page, and else below it. -/
def usageLines (columns : Nat) : List String :=
  let width := pageWidth columns
  let label := "usage: "
  let start := label ++ "climbcalc"
  let beside := start ++ " "
  let synopses := Switch.all.map Switch.synopsis
  if 4 * start.length ≤ 3 * width then
    match Text.wrap (width - beside.length) synopses with
    | [] => [start]
    | first :: rest => (beside ++ first) :: rest.map (spaces beside.length ++ ·)
  else start :: (Text.wrap (width - label.length) synopses).map (spaces label.length ++ ·)

def unlines (lines : List String) : String := String.join (lines.map (· ++ "\n"))

def usage (columns : Nat) : String := unlines (usageLines columns)

def description : String :=
  "Interactive integer calculator with prefix, infix and postfix operators."

def helpPage (columns : Nat) (homes : Homes) : String :=
  unlines (usageLines columns ++ [""] ++
    Text.fill (max leastTextWidth (pageWidth columns)) description ++ ["", "options:"] ++
    Switch.all.flatMap (Switch.entry columns homes))

def UsageError.report (columns : Nat) (e : UsageError) : String :=
  usage columns ++ "climbcalc: error: " ++ e.message ++ "\n"

end LineCalc.CommandLine
