/-! Decimal numerals. Reading has no limit; printing has one, so that a short line
cannot produce an unbounded amount of text. -/
namespace LineCalc.Decimal

/-- The most digits that are printed; a sign does not count. -/
def digitLimit : Nat := 4300

def ofDigits (digits : List Char) : Nat := Nat.ofDigitChars 10 digits 0

def bound (digits : Nat) : Nat := Nat.pow 10 digits

def IsPrintable (n : Int) : Prop := n.natAbs < bound digitLimit

instance (n : Int) : Decidable (IsPrintable n) :=
  inferInstanceAs (Decidable (n.natAbs < bound digitLimit))

def text? (n : Int) : Option String :=
  if IsPrintable n then some n.repr else none

theorem lt_bound_iff {n digits : Nat} (h : 0 < digits) :
    n < bound digits ↔ (Nat.toDigits 10 n).length ≤ digits :=
  (Nat.length_toDigits_le_iff (by decide) h).symm

theorem ofDigits_toDigits (n : Nat) : ofDigits (Nat.toDigits 10 n) = n :=
  Nat.ofDigitChars_toDigits (by decide) (by decide)

theorem toDigits_ne_nil (n : Nat) : Nat.toDigits 10 n ≠ [] :=
  List.ne_nil_of_length_pos Nat.length_toDigits_pos

theorem isDigit_of_mem_toDigits {n : Nat} {c : Char} (h : c ∈ Nat.toDigits 10 n) : c.isDigit :=
  Nat.isDigit_of_mem_toDigits (by decide) (by decide) h

theorem toList_repr_ofNat (n : Nat) : (Int.ofNat n).repr.toList = Nat.toDigits 10 n :=
  Nat.toList_repr

theorem toList_repr_negSucc (n : Nat) :
    (Int.negSucc n).repr.toList = '-' :: Nat.toDigits 10 (n + 1) := by
  show ("-" ++ (n + 1).repr).toList = _
  rw [String.toList_append, Nat.toList_repr]
  rfl

/-- How many digits a number shows; a sign is none. -/
def digitCount (n : Int) : Nat := (Nat.toDigits 10 n.natAbs).length

theorem isPrintable_iff (n : Int) : IsPrintable n ↔ digitCount n ≤ digitLimit :=
  lt_bound_iff (by decide)

theorem text?_eq_none_iff {n : Int} : text? n = none ↔ ¬IsPrintable n := by
  unfold text?; split <;> simp_all

theorem not_isPrintable_bound : ¬IsPrintable (bound digitLimit) := by
  rw [IsPrintable, Int.natAbs_natCast]
  exact Nat.lt_irrefl _

end LineCalc.Decimal
