import LineCalc.Settings
import LineCalc.Text.Quoted

/-! A library that reads values leniently: a truth value may be written as a word or as a number,
and everything that is wrong is told at once, with the value that it is wrong with. -/
namespace LineCalc.Settings

namespace Raw

def shown : Raw → String
  | text s => Text.quoted s
  | flag b => if b then "True" else "False"
  | integer n => n.repr
  | foreign shown _ => shown

def shape : Raw → String
  | text _ => "str"
  | flag _ => "bool"
  | integer _ => "int"
  | foreign _ shape => shape

end Raw

namespace Lenient

def readText : Raw → Except Reason String
  | .text s => .ok s
  | _ => .error ⟨"string_type", "Input should be a valid string"⟩

def notFlag : Reason := ⟨"bool_type", "Input should be a valid boolean"⟩

def unclearFlag : Reason :=
  ⟨"bool_parsing", "Input should be a valid boolean, unable to interpret input"⟩

def falseWords : List String := ["0", "off", "f", "false", "n", "no"]

def trueWords : List String := ["1", "on", "t", "true", "y", "yes"]

def fitsWord (n : Int) : Bool := -9223372036854775808 ≤ n && n ≤ 9223372036854775807

/-- A word for a truth value is taken in any case, and with nothing around it. An integer that
fits no machine word is not looked at, as if it had another shape. -/
def readFlag : Raw → Except Reason Bool
  | .flag b => .ok b
  | .integer n =>
    if n = 0 then .ok false
    else if n = 1 then .ok true
    else .error (if fitsWord n then unclearFlag else notFlag)
  | .text s =>
    let word := Text.lower s
    if word ∈ falseWords then .ok false
    else if word ∈ trueWords then .ok true
    else .error unclearFlag
  | .foreign .. => .error notFlag

def line (p : Problem) : String :=
  p.field.name ++ "\n  " ++ p.reason.message ++ " [type=" ++ p.reason.kind ++ ", input_value=" ++
    Text.abridged p.value.shown ++ ", input_type=" ++ p.value.shape ++ "]"

def report (problems : List Problem) : String :=
  let count := problems.length
  (count.repr ++ " validation error" ++ (if count = 1 then "" else "s") ++ " for Settings") ++
    String.join (problems.map fun p => "\n" ++ line p)

end Lenient

def Validator.lenient : Validator where
  readText := Lenient.readText
  readFlag := Lenient.readFlag
  ofRule message := ⟨"value_error", "Value error, " ++ message⟩
  collect found := found.filterMap id
  report := Lenient.report
  readText_eq_ok_iff value s := by cases value <;> simp [Lenient.readText]
  readFlag_flag _ := rfl
  collect_eq _ := rfl

end LineCalc.Settings
