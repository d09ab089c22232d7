/-! Sets of characters, given by ranges of code points. -/
namespace LineCalc.Text

abbrev CodePoints := List (Nat × Nat)

namespace CodePoints

/-- Whether a character is in one of the ranges. None is looked at behind the first that
begins above the character. -/
def contains (ranges : CodePoints) (c : Char) : Bool :=
  match ranges with
  | [] => false
  | (first, last) :: rest => first ≤ c.toNat && (c.toNat ≤ last || contains rest c)

def offset? (ranges : CodePoints) (c : Char) : Option Nat :=
  match ranges with
  | [] => none
  | (first, last) :: rest =>
    if first ≤ c.toNat then if c.toNat ≤ last then some (c.toNat - first) else offset? rest c
    else none

theorem isSome_offset? (ranges : CodePoints) (c : Char) :
    (offset? ranges c).isSome = contains ranges c := by
  induction ranges with
  | nil => rfl
  | cons r rest ih =>
    obtain ⟨first, last⟩ := r
    by_cases hf : first ≤ c.toNat <;> by_cases hl : c.toNat ≤ last <;>
      simp [offset?, contains, hf, hl, ih]

theorem contains_cons_of_lt {first last : Nat} {rest : CodePoints} {c : Char}
    (h : c.toNat < first) : contains ((first, last) :: rest) c = false := by
  simp only [contains, Nat.not_le_of_lt h, decide_false, Bool.false_and]

theorem contains_iff {ranges : CodePoints} (ascending : ranges.Pairwise fun r s => r.1 ≤ s.1)
    {c : Char} : contains ranges c ↔ ∃ r ∈ ranges, r.1 ≤ c.toNat ∧ c.toNat ≤ r.2 := by
  induction ranges with
  | nil => simp [contains]
  | cons r rest ih =>
    obtain ⟨before, ascending⟩ := List.pairwise_cons.1 ascending
    simp only [contains, Bool.and_eq_true, Bool.or_eq_true, decide_eq_true_eq, ih ascending,
      List.mem_cons, exists_eq_or_imp]
    constructor
    · rintro ⟨first, last | ⟨s, hs, hc⟩⟩
      · exact Or.inl ⟨first, last⟩
      · exact Or.inr ⟨s, hs, hc⟩
    · rintro (⟨first, last⟩ | ⟨s, hs, hc⟩)
      · exact ⟨first, Or.inl last⟩
      · exact ⟨Nat.le_trans (before s hs) hc.1, Or.inr ⟨s, hs, hc⟩⟩

end CodePoints

end LineCalc.Text
