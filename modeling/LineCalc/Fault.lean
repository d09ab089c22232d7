import LineCalc.Token

/-! What can go wrong with a line, as causes; the wording is in one place. -/
namespace LineCalc

inductive Fault where
  | expected (label : String) (found : Token)
  | divisionByZero
  | moduloByZero
  | factorial
  | unprintable
  | hole
  deriving DecidableEq, Repr

namespace Fault

/-- The report of a wrong token is worded when it is made, so a token that cannot be
printed replaces it. -/
def expecting (label : String) (found : Token) : Fault :=
  if found.display?.isSome then expected label found else unprintable

def message : Fault → String
  | expected label found => "Expected " ++ label ++ ", got " ++ found.display?.getD ""
  | divisionByZero => "Division by zero"
  | moduloByZero => "Modulo by zero"
  | factorial => "Operator '!' (factorial) is not implemented"
  | unprintable =>
    "Exceeds the limit (4300 digits) for integer string conversion; " ++
      "use sys.set_int_max_str_digits() to increase the limit"
  | hole => ""

/-- Faults of the line itself, which a session reports as such. The others are limits of
the program. -/
def isOfLine : Fault → Bool
  | expected .. | divisionByZero | moduloByZero | factorial => true
  | unprintable | hole => false

theorem expecting_eq_unprintable_iff {label : String} {found : Token} :
    expecting label found = unprintable ↔ ∃ n, found = .number n ∧ ¬Decimal.IsPrintable n := by
  rw [← Token.display?_eq_none_iff, expecting]
  cases found.display? <;> simp

end Fault

def Decimal.text (n : Int) : Except Fault String :=
  match Decimal.text? n with
  | some text => .ok text
  | none => .error .unprintable

theorem Decimal.text_eq_ok_iff {n : Int} {text : String} :
    Decimal.text n = .ok text ↔ IsPrintable n ∧ text = n.repr := by
  unfold Decimal.text Decimal.text?
  by_cases h : IsPrintable n <;> simp [h, eq_comm]

theorem Decimal.text_eq_error_iff {n : Int} {fault : Fault} :
    Decimal.text n = .error fault ↔ fault = .unprintable ∧ ¬IsPrintable n := by
  unfold Decimal.text Decimal.text?
  by_cases h : IsPrintable n <;> simp [h, eq_comm]

end LineCalc
