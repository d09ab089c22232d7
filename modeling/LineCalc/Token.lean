import LineCalc.Decimal

/-! Tokens are values without identity. An operator token carries its text and no
role: the same text may be a prefix operator, an infix one or none at all, and only
its place in the line decides. -/
namespace LineCalc

inductive Token where
  | number (value : Int)
  | leftParen
  | rightParen
  | operator (text : String)
  | endOfInput
  deriving DecidableEq, Repr, Inhabited

namespace Token

def display? : Token → Option String
  | number n => (Decimal.text? n).map fun text => "Number(" ++ text ++ ")"
  | leftParen => some "("
  | rightParen => some ")"
  | operator text => some ("Operator('" ++ text ++ "')")
  | endOfInput => some "EndOfInput"

theorem display?_eq_none_iff {t : Token} :
    t.display? = none ↔ ∃ n, t = number n ∧ ¬Decimal.IsPrintable n := by
  cases t <;> simp [display?, Decimal.text?_eq_none_iff]

/-- What stands first; beyond the last token there is only the end. -/
def front : List Token → Token
  | [] => endOfInput
  | t :: _ => t

end Token

end LineCalc
