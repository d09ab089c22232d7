import Mathlib.Algebra.Order.Floor.Semifield
import Mathlib.Data.Rat.Floor
import LineCalc.Operator

/-! Division by magnitudes with the sign put on afterwards is the division that rounds toward
zero. What it leaves is smaller than the divisor and lies on the dividend's side of zero, and no
other pair of integers does that, so no other rule of rounding is possible. -/
namespace LineCalc

/-- The dividend as a multiple of the divisor, and what is left on its own side of zero. -/
structure Truncates (a b q r : Int) : Prop where
  whole : a = b * q + r
  small : r.natAbs < b.natAbs
  side : r = 0 ∨ r.sign = a.sign

theorem truncates_tdiv_tmod {b : Int} (h : b ≠ 0) (a : Int) :
    Truncates a b (a.tdiv b) (a.tmod b) where
  whole := (Int.mul_tdiv_add_tmod a b).symm
  small := by
    rw [Int.natAbs_tmod]
    exact Nat.mod_lt _ (Int.natAbs_pos.2 h)
  side := by
    rw [Int.sign_tmod]
    split
    · next divides => exact .inl (Int.tmod_eq_zero_of_dvd divides)
    · exact .inr rfl

namespace Truncates

variable {a b q r q' r' : Int}

theorem nonneg (h : Truncates a b q r) (ha : 0 ≤ a) : 0 ≤ r := by
  rcases h.side with rfl | same
  · exact Int.le_refl 0
  · rwa [← Int.sign_nonneg_iff, same, Int.sign_nonneg_iff]

theorem nonpos (h : Truncates a b q r) (ha : a ≤ 0) : r ≤ 0 := by
  rcases h.side with rfl | same
  · exact Int.le_refl 0
  · rwa [← Int.sign_nonpos_iff, same, Int.sign_nonpos_iff]

theorem natAbs_sub_lt (h : Truncates a b q r) (h' : Truncates a b q' r') :
    (r' - r).natAbs < b.natAbs := by
  have small := h.small
  have small' := h'.small
  rcases Int.le_total 0 a with ha | ha
  · have := h.nonneg ha
    have := h'.nonneg ha
    omega
  · have := h.nonpos ha
    have := h'.nonpos ha
    omega

theorem unique (h : Truncates a b q r) (h' : Truncates a b q' r') : q' = q ∧ r' = r := by
  have difference : r' - r = b * (q - q') := by
    rw [Int.mul_sub]
    have := h.whole
    have := h'.whole
    omega
  have none : r' - r = 0 :=
    Int.eq_zero_of_dvd_of_natAbs_lt_natAbs ⟨_, difference⟩ (h.natAbs_sub_lt h')
  have divisor : b ≠ 0 := by
    rintro rfl
    exact Nat.not_lt_zero _ h.small
  have quotients : q - q' = 0 :=
    (Int.mul_eq_zero.1 (difference.symm.trans none)).resolve_left divisor
  omega

end Truncates

namespace InfixOp

/-- Division and remainder fail at zero only, and each in its own words. Elsewhere they are the
pair that truncates, the quotient has the magnitude of the fraction rounded down, and a minus of
the dividend goes to both while one of the divisor goes to the quotient alone. -/
theorem divide_modulo_truncate (a b : Int) :
    (∀ fault, divide.apply a b = .error fault ↔ b = 0 ∧ fault = .divisionByZero) ∧
    (∀ fault, modulo.apply a b = .error fault ↔ b = 0 ∧ fault = .moduloByZero) ∧
    (b ≠ 0 → ∃ q r, divide.apply a b = .ok q ∧ modulo.apply a b = .ok r ∧
      (∀ q' r', Truncates a b q' r' ↔ q' = q ∧ r' = r) ∧
      q.natAbs = ⌊(a.natAbs : ℚ) / b.natAbs⌋₊ ∧
      divide.apply (-a) b = .ok (-q) ∧ modulo.apply (-a) b = .ok (-r) ∧
      divide.apply a (-b) = .ok (-q) ∧ modulo.apply a (-b) = .ok r) := by
  refine ⟨fun _ => quotient_eq_error_iff, fun _ => remainder_eq_error_iff, fun h => ?_⟩
  have pair := truncates_tdiv_tmod h a
  have negated : -b ≠ 0 := Int.neg_ne_zero.2 h
  refine ⟨a.tdiv b, a.tmod b, quotient_of_ne_zero h a, remainder_of_ne_zero h a, ?_, ?_, ?_, ?_,
    ?_, ?_⟩
  · intro q' r'
    exact ⟨pair.unique, by rintro ⟨rfl, rfl⟩; exact pair⟩
  · rw [Nat.floor_div_eq_div, Int.natAbs_tdiv]
    rfl
  · rw [← Int.neg_tdiv]
    exact quotient_of_ne_zero h (-a)
  · rw [← Int.neg_tmod]
    exact remainder_of_ne_zero h (-a)
  · rw [← Int.tdiv_neg]
    exact quotient_of_ne_zero negated a
  · rw [← Int.tmod_neg]
    exact remainder_of_ne_zero negated a

theorem truncates_minus_seven_halves :
    divide.apply (-7) 2 = .ok (-3) ∧ modulo.apply (-7) 2 = .ok (-1) ∧
      ∀ q r, Truncates (-7) 2 q r ↔ q = -3 ∧ r = -1 := by
  obtain ⟨q, r, quotient, remainder, unique, -⟩ := (divide_modulo_truncate (-7) 2).2.2 (by decide)
  cases quotient
  cases remainder
  exact ⟨rfl, rfl, unique⟩

end InfixOp

end LineCalc
