import LineCalc.CommandLine

/-! The settings of a run. What the command line supplies lies over the environment, and both
over the defaults. -/
namespace LineCalc

namespace Settings

def Field.variableName (field : Field) : String := "CLIMBCALC_" ++ Text.upper field.name

/-- A variable that is set to the empty text supplies that text. -/
def ofEnvironment (lookup : String → Option String) : Supplied :=
  fun field => (lookup field.variableName).map .text

end Settings

namespace Configuration

inductive Refusal where
  | commandLine (stop : CommandLine.Stop)
  | settings (problems : List Settings.Problem)
  deriving DecidableEq, Repr

/-- The command line is read first, so a usage error wins over bad values. -/
def load (v : Settings.Validator) (homes : Homes) (start : Settings)
    (lookup : String → Option String) (arguments : List String) : Except Refusal Settings :=
  match CommandLine.read arguments with
  | .error stop => .error (.commandLine stop)
  | .ok supplied =>
    match Settings.ofSupplied v homes start (supplied.over (Settings.ofEnvironment lookup)) with
    | .error problems => .error (.settings problems)
    | .ok settings => .ok settings

end Configuration

end LineCalc
