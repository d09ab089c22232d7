/-! Bits of unbounded two's complement. A natural number ends in zeros without end, and
the negative number `-(n + 1)` holds the complement of the bits of `n`, so each operation
on two integers is one on two naturals, complemented or not. -/
namespace LineCalc.Bits

def complement (a : Int) : Int := -a - 1

def without (m n : Nat) : Nat := m ^^^ (m &&& n)

def both : Int → Int → Int
  | .ofNat m, .ofNat n => .ofNat (m &&& n)
  | .ofNat m, .negSucc n => .ofNat (without m n)
  | .negSucc m, .ofNat n => .ofNat (without n m)
  | .negSucc m, .negSucc n => .negSucc (m ||| n)

def either : Int → Int → Int
  | .ofNat m, .ofNat n => .ofNat (m ||| n)
  | .ofNat m, .negSucc n => .negSucc (without n m)
  | .negSucc m, .ofNat n => .negSucc (without m n)
  | .negSucc m, .negSucc n => .negSucc (m &&& n)

theorem testBit_without (m n i : Nat) :
    (without m n).testBit i = (m.testBit i && !n.testBit i) := by
  simp only [without, Nat.testBit_xor, Nat.testBit_and]
  cases m.testBit i <;> cases n.testBit i <;> rfl

theorem complement_ofNat (n : Nat) : complement (.ofNat n) = .negSucc n := by
  simp only [complement, Int.ofNat_eq_natCast]; omega

theorem complement_negSucc (n : Nat) : complement (.negSucc n) = .ofNat n := by
  simp only [complement, Int.ofNat_eq_natCast]; omega

theorem complement_both (a b : Int) :
    complement (both a b) = either (complement a) (complement b) := by
  cases a <;> cases b <;>
    simp only [both, complement_ofNat, complement_negSucc, either]

end LineCalc.Bits
