import LineCalc.Operator

/-! The operations on bits act at each place for itself, and an integer is determined by its bits,
those of a negative number included, of which all but finitely many are one. What holds of the
single bits therefore holds of the numbers, and no width is involved. -/
namespace LineCalc.Bits

/-- The bit of `n` at place `i`: the parity of `n / 2 ^ i`, rounded down. -/
def bitAt (n : Int) (i : Nat) : Bool := n.fdiv (Nat.pow 2 i) % 2 = 1

theorem bitAt_ofNat (n i : Nat) : bitAt (.ofNat n) i = n.testBit i := by
  have quotient : (Int.ofNat n).fdiv (Nat.pow 2 i) = (n / 2 ^ i : Nat) :=
    Int.fdiv_eq_ediv_of_nonneg _ (Int.natCast_nonneg _)
  rw [bitAt, quotient, Nat.testBit_eq_decide_div_mod_eq, decide_eq_decide]
  omega

theorem bitAt_negSucc (n i : Nat) : bitAt (.negSucc n) i = !n.testBit i := by
  have positive : (0 : Int) < (Nat.pow 2 i : Nat) := Int.natCast_pos.2 (Nat.two_pow_pos i)
  have quotient : (Int.negSucc n).fdiv (Nat.pow 2 i) = -((n / 2 ^ i : Nat) + 1) := by
    rw [Int.fdiv_eq_ediv_of_nonneg _ (Int.le_of_lt positive), Int.negSucc_ediv n positive]
    rfl
  rw [bitAt, quotient, Nat.testBit_eq_decide_div_mod_eq, ← decide_not, decide_eq_decide]
  omega

theorem bitAt_both (a b : Int) (i : Nat) : bitAt (both a b) i = (bitAt a i && bitAt b i) := by
  cases a with
  | ofNat m =>
    cases b with
    | ofNat n => rw [both, bitAt_ofNat, bitAt_ofNat, bitAt_ofNat, Nat.testBit_and]
    | negSucc n => rw [both, bitAt_ofNat, bitAt_ofNat, bitAt_negSucc, testBit_without]
  | negSucc m =>
    cases b with
    | ofNat n => rw [both, bitAt_ofNat, bitAt_ofNat, bitAt_negSucc, testBit_without, Bool.and_comm]
    | negSucc n =>
      rw [both, bitAt_negSucc, bitAt_negSucc, bitAt_negSucc, Nat.testBit_or, Bool.not_or]

theorem bitAt_complement (a : Int) (i : Nat) : bitAt (complement a) i = !bitAt a i := by
  cases a with
  | ofNat n => rw [complement_ofNat, bitAt_negSucc, bitAt_ofNat]
  | negSucc n => rw [complement_negSucc, bitAt_ofNat, bitAt_negSucc, Bool.not_not]

theorem complement_complement (a : Int) : complement (complement a) = a := by
  rw [complement, complement]
  omega

theorem either_eq (a b : Int) : either a b = complement (both (complement a) (complement b)) := by
  rw [complement_both, complement_complement, complement_complement]

theorem bitAt_either (a b : Int) (i : Nat) : bitAt (either a b) i = (bitAt a i || bitAt b i) := by
  rw [either_eq, bitAt_complement, bitAt_both, bitAt_complement, bitAt_complement, Bool.not_and,
    Bool.not_not, Bool.not_not]

theorem exists_bitAt_ne (m n : Nat) : ∃ i, bitAt (.ofNat m) i ≠ bitAt (.negSucc n) i := by
  have small (k : Nat) (le : k ≤ m + n) : k.testBit (m + n) = false :=
    Nat.testBit_lt_two_pow (Nat.lt_of_le_of_lt le Nat.lt_two_pow_self)
  refine ⟨m + n, ?_⟩
  rw [bitAt_ofNat, bitAt_negSucc, small m (Nat.le_add_right ..), small n (Nat.le_add_left ..)]
  decide

theorem eq_of_bitAt_eq {a b : Int} (h : ∀ i, bitAt a i = bitAt b i) : a = b := by
  cases a with
  | ofNat m =>
    cases b with
    | ofNat n =>
      refine congrArg Int.ofNat (Nat.eq_of_testBit_eq fun i => ?_)
      rw [← bitAt_ofNat, ← bitAt_ofNat, h]
    | negSucc n =>
      obtain ⟨i, differ⟩ := exists_bitAt_ne m n
      exact absurd (h i) differ
  | negSucc m =>
    cases b with
    | ofNat n =>
      obtain ⟨i, differ⟩ := exists_bitAt_ne n m
      exact absurd (h i).symm differ
    | negSucc n =>
      refine congrArg Int.negSucc (Nat.eq_of_testBit_eq fun i => ?_)
      rw [← Bool.not_inj_iff, ← bitAt_negSucc, ← bitAt_negSucc, h]

theorem and_add_or (m n : Nat) : (m &&& n) + (m ||| n) = m + n := by
  induction m using Nat.strongRecOn generalizing n with
  | ind m ih =>
    by_cases zero : m = 0
    · rw [zero, Nat.zero_and, Nat.zero_or]
    · have halves := ih (m / 2) (Nat.div_lt_self (Nat.pos_of_ne_zero zero) (by decide)) (n / 2)
      rw [← Nat.and_div_two, ← Nat.or_div_two] at halves
      have last := @Nat.and_mod_two_eq_one m n
      have last' := @Nat.or_mod_two_eq_one m n
      omega

theorem without_add_and (m n : Nat) : without m n + (m &&& n) = m := by
  have apart : without m n &&& (m &&& n) = 0 := by
    refine Nat.eq_of_testBit_eq fun i => ?_
    rw [Nat.testBit_and, testBit_without, Nat.testBit_and, Nat.zero_testBit]
    cases m.testBit i <;> cases n.testBit i <;> rfl
  have joined : without m n ||| (m &&& n) = m := by
    refine Nat.eq_of_testBit_eq fun i => ?_
    rw [Nat.testBit_or, testBit_without, Nat.testBit_and]
    cases m.testBit i <;> cases n.testBit i <;> rfl
  rw [← and_add_or, apart, joined, Nat.zero_add]

theorem both_add_either (a b : Int) : both a b + either a b = a + b := by
  have mixed (m n : Nat) : (without m n : Int) + Int.negSucc (without n m) = m + Int.negSucc n := by
    have first := without_add_and m n
    have second := without_add_and n m
    rw [Nat.and_comm] at second
    omega
  cases a with
  | ofNat m =>
    cases b with
    | ofNat n => exact congrArg Int.ofNat (and_add_or m n)
    | negSucc n => exact mixed m n
  | negSucc m =>
    cases b with
    | ofNat n =>
      rw [Int.add_comm (.negSucc m)]
      exact mixed n m
    | negSucc n =>
      have sum := and_add_or m n
      rw [both, either]
      omega

end LineCalc.Bits

namespace LineCalc

open Bits

/-- The conjunction, the disjunction and the complement are taken at each place for itself, and no
other numbers have these bits. The complement goes through a conjunction, what is common to two
numbers and what is in either of them add up to their sum, and the complement is the number below
the negated one. -/
theorem apply_placewise (a b : Int) :
    ∃ both either complement : Int, InfixOp.bitAnd.apply a b = .ok both ∧
      InfixOp.bitOr.apply a b = .ok either ∧ PrefixOp.bitwiseNot.apply a = .ok complement ∧
      (∀ n, (∀ i, bitAt n i = (bitAt a i && bitAt b i)) ↔ n = both) ∧
      (∀ n, (∀ i, bitAt n i = (bitAt a i || bitAt b i)) ↔ n = either) ∧
      (∀ n, (∀ i, bitAt n i = !bitAt a i) ↔ n = complement) ∧
      PrefixOp.bitwiseNot.apply both =
        (do InfixOp.bitOr.apply (← PrefixOp.bitwiseNot.apply a) (← PrefixOp.bitwiseNot.apply b)) ∧
      both + either = a + b ∧ complement = -a - 1 := by
  refine ⟨both a b, either a b, complement a, rfl, rfl, rfl, fun n => ⟨fun h => ?_, ?_⟩,
    fun n => ⟨fun h => ?_, ?_⟩, fun n => ⟨fun h => ?_, ?_⟩, ?_, both_add_either a b, rfl⟩
  · exact eq_of_bitAt_eq fun i => (h i).trans (bitAt_both a b i).symm
  · rintro rfl
    exact bitAt_both a b
  · exact eq_of_bitAt_eq fun i => (h i).trans (bitAt_either a b i).symm
  · rintro rfl
    exact bitAt_either a b
  · exact eq_of_bitAt_eq fun i => (h i).trans (bitAt_complement a i).symm
  · rintro rfl
    exact bitAt_complement a
  · exact congrArg Except.ok (complement_both a b)

example : InfixOp.bitAnd.apply (-6) 11 = .ok 10 ∧ InfixOp.bitOr.apply (-6) 11 = .ok (-5) :=
  ⟨rfl, rfl⟩

end LineCalc
