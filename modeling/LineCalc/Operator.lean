import LineCalc.Bits
import LineCalc.Fault

/-! The operators, one closed type for each place in an expression. The three share an
alphabet (`!` negates before an operand and is the factorial after one), so each type
finds its operator in a token for itself. A higher precedence binds tighter. The last part lists
them for a reader, tightest binding first. -/
namespace LineCalc

/-- Division that rounds toward zero. The magnitudes are divided, and the sign is put on
afterwards, where zero counts as positive. -/
def quotient (a b : Int) : Except Fault Int :=
  if b = 0 then .error .divisionByZero
  else
    let magnitude : Int := .ofNat (a.natAbs / b.natAbs)
    .ok (if a < 0 ↔ b < 0 then magnitude else -magnitude)

def remainder (a b : Int) : Except Fault Int :=
  if b = 0 then .error .moduloByZero
  else do return a - b * (← quotient a b)

theorem quotient_of_ne_zero {b : Int} (h : b ≠ 0) (a : Int) : quotient a b = .ok (a.tdiv b) := by
  rw [quotient, if_neg h]
  apply congrArg Except.ok
  have natural (n : Nat) : ¬Int.ofNat n < 0 := Int.not_lt.2 (Int.natCast_nonneg n)
  have negative (n : Nat) : Int.negSucc n < 0 := Int.negSucc_lt_zero n
  match a, b with
  | .ofNat m, .ofNat n => exact if_pos (iff_of_false (natural m) (natural n))
  | .ofNat m, .negSucc n => exact if_neg fun h => natural m (h.2 (negative n))
  | .negSucc m, .ofNat n => exact if_neg fun h => natural n (h.1 (negative m))
  | .negSucc m, .negSucc n => exact if_pos (iff_of_true (negative m) (negative n))

theorem remainder_of_ne_zero {b : Int} (h : b ≠ 0) (a : Int) : remainder a b = .ok (a.tmod b) := by
  rw [remainder, if_neg h, quotient_of_ne_zero h, Int.tmod_def]
  rfl

theorem quotient_eq_error_iff {a b : Int} {fault : Fault} :
    quotient a b = .error fault ↔ b = 0 ∧ fault = .divisionByZero := by
  by_cases h : b = 0
  · simp [quotient, h, eq_comm]
  · simp [quotient_of_ne_zero h, h]

theorem remainder_eq_error_iff {a b : Int} {fault : Fault} :
    remainder a b = .error fault ↔ b = 0 ∧ fault = .moduloByZero := by
  by_cases h : b = 0
  · simp [remainder, h, eq_comm]
  · simp [remainder_of_ne_zero h, h]

def truth (p : Bool) : Int := if p then 1 else 0

namespace Operator

/-- The operator of a table that is written so. -/
def ofSymbol (table : List α) (symbol : α → String) (text : String) : Option α :=
  table.find? (symbol · = text)

def classify (table : List α) (symbol : α → String) : Token → Option α
  | .operator text => ofSymbol table symbol text
  | _ => none

theorem classify_eq_some_iff {table : List α} {symbol : α → String}
    (listed : ∀ op, ofSymbol table symbol (symbol op) = some op) {t : Token} {op : α} :
    classify table symbol t = some op ↔ t = .operator (symbol op) := by
  constructor
  · intro h
    cases t with
    | operator text =>
      have found := List.find?_some h
      simpa [eq_comm] using found
    | number | leftParen | rightParen | endOfInput => cases h
  · rintro rfl
    exact listed op

end Operator

inductive PrefixOp where
  | plus | negative | logicNot | bitwiseNot
  deriving DecidableEq, Repr

namespace PrefixOp

def all : List PrefixOp := [plus, negative, logicNot, bitwiseNot]

def symbol : PrefixOp → String
  | plus => "+"
  | negative => "-"
  | logicNot => "!"
  | bitwiseNot => "~"

def name : PrefixOp → String
  | plus => "Plus"
  | negative => "Negative"
  | logicNot => "Not"
  | bitwiseNot => "BitwiseNot"

def precedence (_ : PrefixOp) : Int := 10

def apply : PrefixOp → Int → Except Fault Int
  | plus, a => .ok a
  | negative, a => .ok (-a)
  | logicNot, a => .ok (truth (a = 0))
  | bitwiseNot, a => .ok (Bits.complement a)

def ofSymbol : String → Option PrefixOp := Operator.ofSymbol all symbol

def ofToken : Token → Option PrefixOp := Operator.classify all symbol

theorem ofSymbol_symbol (op : PrefixOp) : ofSymbol op.symbol = some op := by cases op <;> rfl

theorem ofToken_eq_some_iff {t : Token} {op : PrefixOp} :
    ofToken t = some op ↔ t = .operator op.symbol :=
  Operator.classify_eq_some_iff ofSymbol_symbol

end PrefixOp

inductive InfixOp where
  | multiply | divide | modulo | add | subtract | less | greater | equal | notEqual
  | bitAnd | bitOr
  deriving DecidableEq, Repr

namespace InfixOp

def all : List InfixOp :=
  [multiply, divide, modulo, add, subtract, less, greater, equal, notEqual, bitAnd, bitOr]

def symbol : InfixOp → String
  | multiply => "*"
  | divide => "/"
  | modulo => "%"
  | add => "+"
  | subtract => "-"
  | less => "<"
  | greater => ">"
  | equal => "="
  | notEqual => "~"
  | bitAnd => "&"
  | bitOr => "|"

def name : InfixOp → String
  | multiply => "Multiply"
  | divide => "Divide"
  | modulo => "Modulo"
  | add => "Add"
  | subtract => "Subtract"
  | less => "Less"
  | greater => "Greater"
  | equal => "Equal"
  | notEqual => "NotEqual"
  | bitAnd => "And"
  | bitOr => "Or"

def precedence : InfixOp → Int
  | multiply | divide | modulo => 7
  | add | subtract => 6
  | less | greater => 5
  | equal | notEqual => 4
  | bitAnd | bitOr => 3

/-- Every infix operator groups to the left: `10-3-2` is `(10-3)-2`. -/
def isLeftAssociative (_ : InfixOp) : Bool := true

def rightMinimum (op : InfixOp) : Int :=
  op.precedence + if op.isLeftAssociative then 1 else 0

def apply : InfixOp → Int → Int → Except Fault Int
  | multiply, a, b => .ok (a * b)
  | divide, a, b => quotient a b
  | modulo, a, b => remainder a b
  | add, a, b => .ok (a + b)
  | subtract, a, b => .ok (a - b)
  | less, a, b => .ok (truth (a < b))
  | greater, a, b => .ok (truth (a > b))
  | equal, a, b => .ok (truth (a = b))
  | notEqual, a, b => .ok (truth (a ≠ b))
  | bitAnd, a, b => .ok (Bits.both a b)
  | bitOr, a, b => .ok (Bits.either a b)

def ofSymbol : String → Option InfixOp := Operator.ofSymbol all symbol

def ofToken : Token → Option InfixOp := Operator.classify all symbol

theorem ofSymbol_symbol (op : InfixOp) : ofSymbol op.symbol = some op := by cases op <;> rfl

theorem ofToken_eq_some_iff {t : Token} {op : InfixOp} :
    ofToken t = some op ↔ t = .operator op.symbol :=
  Operator.classify_eq_some_iff ofSymbol_symbol

theorem rightMinimum_eq (op : InfixOp) : op.rightMinimum = op.precedence + 1 := rfl

end InfixOp

inductive PostfixOp where
  | factorial
  deriving DecidableEq, Repr

namespace PostfixOp

def all : List PostfixOp := [factorial]

def symbol : PostfixOp → String
  | factorial => "!"

def name : PostfixOp → String
  | factorial => "Factorial"

def precedence (_ : PostfixOp) : Int := 11

/-- The factorial is read and shown, and has no rule. -/
def apply : PostfixOp → Int → Except Fault Int
  | factorial, _ => .error .factorial

def ofSymbol : String → Option PostfixOp := Operator.ofSymbol all symbol

def ofToken : Token → Option PostfixOp := Operator.classify all symbol

theorem ofSymbol_symbol (op : PostfixOp) : ofSymbol op.symbol = some op := by cases op; rfl

theorem ofToken_eq_some_iff {t : Token} {op : PostfixOp} :
    ofToken t = some op ↔ t = .operator op.symbol :=
  Operator.classify_eq_some_iff ofSymbol_symbol

end PostfixOp

namespace Operator

structure Entry where
  precedence : Int
  role : String
  symbol : String
  name : String
  deriving DecidableEq, Repr

def entries : List Entry :=
  PostfixOp.all.map (fun op => ⟨op.precedence, "postfix", op.symbol, op.name⟩) ++
    PrefixOp.all.map (fun op => ⟨op.precedence, "prefix", op.symbol, op.name⟩) ++
    InfixOp.all.map (fun op => ⟨op.precedence, "infix", op.symbol, op.name⟩)

def padLeft (width : Nat) (s : String) : String :=
  String.ofList (List.replicate (width - s.length) ' ') ++ s

def padRight (width : Nat) (s : String) : String :=
  s ++ String.ofList (List.replicate (width - s.length) ' ')

def Entry.line (e : Entry) : String :=
  "  " ++ padLeft 2 e.precedence.repr ++ "  " ++ padRight 7 e.role ++ " " ++ e.symbol ++ "  " ++
    e.name

/-- Entries of equal precedence stay in the order of `entries`. -/
def precedenceTable : List String :=
  (entries.mergeSort fun a b => b.precedence ≤ a.precedence).map Entry.line

end Operator

end LineCalc
