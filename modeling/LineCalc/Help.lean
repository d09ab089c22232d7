import LineCalc.Operator
import LineCalc.Text.Basic

/-! The help pages of a session. -/
namespace LineCalc.Help

inductive Topic where
  | general | operators
  deriving DecidableEq, Repr

namespace Topic

def all : List Topic := [general, operators]

def name : Topic → String
  | general => "general"
  | operators => "operators"

def ofName (text : String) : Option Topic := all.find? (·.name = text)

def lines : Topic → List String
  | general =>
    ["Calculator REPL help:",
     "Evaluates integer expressions with prefix, infix and postfix operators and parentheses.",
     "Examples:",
     "  2+3*4    -> 14",
     "  (2+3)*4  -> 20",
     "  10-3-2   -> 5",
     "  3- -5    -> 8",
     "  ~0       -> -1",
     "Commands:",
     "  :help, help [topic]    show help (topics: general, operators)",
     "  :operators             list operators by precedence",
     "  :tree <expr>           show how an expression is grouped",
     "  :exit, :quit           exit"]
  | operators =>
    "Operators (higher precedence binds tighter):" :: Operator.precedenceTable ++
    ["Notes:",
     "  - All infix operators are left-associative: 10-3-2 == (10-3)-2.",
     "  - Comparisons (< > = ~) yield 1 or 0.",
     "  - '~' is bitwise not before an operand and not-equal between operands.",
     "  - '!' is logical not before an operand; postfix factorial is not implemented.",
     "  - / and % truncate toward zero; dividing by zero is an error."]

def page (topic : Topic) : String := String.join (topic.lines.map (· ++ "\n"))

theorem ofName_name (topic : Topic) : ofName topic.name = some topic := by cases topic <;> rfl

end Topic

def unknownTopic (text : String) : String :=
  "No help available for topic '" ++ text ++ "'. Topics: " ++
    ", ".intercalate (Topic.all.map Topic.name)

/-- The page of a topic, whose name may stand in any case between blanks. The empty text
asks for the general page, a blank one for a topic that there is not. -/
def forTopic (text : String) : String :=
  if text.isEmpty then Topic.general.page
  else
    match Topic.ofName (Text.lower (String.ofList (Text.strip text.toList))) with
    | some topic => topic.page
    | none => unknownTopic text

end LineCalc.Help
