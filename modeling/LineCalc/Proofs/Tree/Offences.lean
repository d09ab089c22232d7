import LineCalc.Proofs.Tree.Leaves
import LineCalc.Proofs.Tree.Postorder

/-! When a tree has no value. A node offends by its operator and by the value of its right operand,
whether or not the left one has a value; the first node in post-order that offends decides. -/
namespace LineCalc.Tree

def isZero (t : Tree) : Bool :=
  match t.evaluate with
  | .ok v => v = 0
  | .error _ => false

theorem isZero_iff {t : Tree} : t.isZero ↔ t.evaluate = .ok 0 := by
  unfold isZero
  cases t.evaluate <;> simp

def offence? : Tree → Option Fault
  | postfixed _ .factorial => some .factorial
  | infixed _ .divide r => if r.isZero then some .divisionByZero else none
  | infixed _ .modulo r => if r.isZero then some .moduloByZero else none
  | _ => none

theorem offence_eq_some_iff {t : Tree} {fault : Fault} :
    t.offence? = some fault ↔
      (∃ s op, t = postfixed s op ∧ fault = .factorial) ∨
        ∃ l r, r.evaluate = .ok 0 ∧
          (t = infixed l .divide r ∧ fault = .divisionByZero ∨
            t = infixed l .modulo r ∧ fault = .moduloByZero) := by
  constructor
  · intro h
    cases t with
    | number | prefixed | hole => cases h
    | postfixed s op =>
      cases op
      cases h
      exact .inl ⟨s, .factorial, rfl, rfl⟩
    | infixed l op r =>
      cases op with
      | divide | modulo =>
        obtain ⟨zero, ⟨⟩⟩ := Option.ite_none_right_eq_some.1 h
        exact .inr ⟨l, r, isZero_iff.1 zero, by simp⟩
      | _ => cases h
  · rintro (⟨s, ⟨⟩, rfl, rfl⟩ | ⟨l, r, zero, ⟨rfl, rfl⟩ | ⟨rfl, rfl⟩⟩)
    · rfl
    · exact if_pos (isZero_iff.2 zero)
    · exact if_pos (isZero_iff.2 zero)

theorem isZero_of_evaluate {t : Tree} {v : Int} (h : t.evaluate = .ok v) : t.isZero = (v = 0) := by
  simp [isZero, h]

theorem failure_prefixed (op : PrefixOp) (a : Int) : failure? (op.apply a) = none := by
  cases op <;> rfl

theorem failure_infixed {r : Tree} {b : Int} (l : Tree) (op : InfixOp) (a : Int)
    (right : r.evaluate = .ok b) : failure? (op.apply a b) = (infixed l op r).offence? := by
  have zero := isZero_of_evaluate right
  cases op with
  | divide | modulo =>
    by_cases h : b = 0
    · simp [offence?, zero, h, InfixOp.apply, quotient, remainder, failure?]
    · simp [offence?, zero, h, InfixOp.apply, quotient_of_ne_zero, remainder_of_ne_zero, failure?]
  | _ => rfl

theorem failure_evaluate {t : Tree} (h : t.Leaves fun _ => True) :
    failure? t.evaluate = t.postorder.findSome? offence? := by
  rw [evaluate_eq_fold]
  induction t with
  | number n => rfl
  | hole => exact h.elim
  | prefixed op t ih =>
    rw [postorder, List.findSome?_append, ← ih h, fold]
    cases fold valueAlgebra t with
    | error fault => rfl
    | ok a => exact failure_prefixed op a
  | postfixed t op ih =>
    rw [postorder, List.findSome?_append, ← ih h, fold]
    cases fold valueAlgebra t with
    | error fault => rfl
    | ok a => cases op; rfl
  | infixed l op r ihl ihr =>
    rw [postorder, List.findSome?_append, List.findSome?_append, ← ihl h.1, ← ihr h.2, fold]
    cases fold valueAlgebra l with
    | error fault => rfl
    | ok a =>
      cases right : fold valueAlgebra r with
      | error fault => rfl
      | ok b =>
        have own := failure_infixed l op a ((evaluate_eq_fold r).trans right)
        rw [List.findSome?_singleton, ← own]
        rfl

theorem isOfLine_of_evaluate {t : Tree} {fault : Fault} (numbers : t.Leaves fun _ => True)
    (h : t.evaluate = .error fault) : fault.isOfLine := by
  have first := failure_evaluate numbers
  rw [failure_eq_some_iff.2 h] at first
  obtain ⟨u, _, offends⟩ := List.exists_of_findSome?_eq_some first.symm
  rcases offence_eq_some_iff.1 offends with ⟨_, _, _, rfl⟩ | ⟨_, _, _, ⟨_, rfl⟩ | ⟨_, rfl⟩⟩ <;> rfl

theorem evaluate_infixed_left {l : Tree} {fault : Fault} (h : l.evaluate = .error fault)
    (op : InfixOp) (r : Tree) : (infixed l op r).evaluate = .error fault := by
  rw [evaluate_eq_fold] at h ⊢
  rw [fold, h]
  rfl

theorem evaluate_infixed_right {l r : Tree} {v : Int} {fault : Fault} (left : l.evaluate = .ok v)
    (h : r.evaluate = .error fault) (op : InfixOp) : (infixed l op r).evaluate = .error fault := by
  rw [evaluate_eq_fold] at left h ⊢
  rw [fold, left, h]
  rfl

/-- A tree has a value if and only if none of its nodes offends; otherwise it has the fault of the
first one in post-order that does. Neither operand hides the fault of the other. -/
theorem evaluate_eq_first_offence {t : Tree} (numbers : t.Leaves fun _ => True) :
    ((∃ v, t.evaluate = .ok v) ↔ ∀ u ∈ t.postorder, u.offence? = none) ∧
    (∀ fault, t.evaluate = .error fault ↔
      ∃ before u after, t.postorder = before ++ u :: after ∧
        u.offence? = some fault ∧ ∀ s ∈ before, s.offence? = none) ∧
    (∀ u fault, u.offence? = some fault ↔
      (∃ s op, u = postfixed s op ∧ fault = .factorial) ∨
        ∃ l r, r.evaluate = .ok 0 ∧
          (u = infixed l .divide r ∧ fault = .divisionByZero ∨
            u = infixed l .modulo r ∧ fault = .moduloByZero)) ∧
    Fault.divisionByZero.message = "Division by zero" ∧
    Fault.moduloByZero.message = "Modulo by zero" ∧
    ∀ fault, t.evaluate = .error fault → ∀ op other,
      (infixed t op other).evaluate = .error fault ∧
        ∀ v, other.evaluate = .ok v → (infixed other op t).evaluate = .error fault := by
  have first := failure_evaluate numbers
  refine ⟨?_, ?_, fun u fault => offence_eq_some_iff, rfl, rfl, ?_⟩
  · rw [← failure_eq_none_iff, first, List.findSome?_eq_none_iff]
  · intro fault
    rw [← failure_eq_some_iff, first, List.findSome?_eq_some_iff]
  · intro fault h op other
    exact ⟨evaluate_infixed_left h op other, fun v left => evaluate_infixed_right left h op⟩

theorem evaluate_zero_times_modulo :
    (infixed (number 0) .multiply
      (infixed (number 1) .modulo (infixed (number 2) .subtract (number 2)))).evaluate =
        .error .moduloByZero := by
  have zero : (infixed (number 2) .subtract (number 2)).evaluate = .ok 0 := by
    rw [evaluate_eq_fold]
    rfl
  obtain ⟨_, first, _, _⟩ := evaluate_eq_first_offence (t := infixed (number 0) .multiply
    (infixed (number 1) .modulo (infixed (number 2) .subtract (number 2)))) (by decide)
  refine (first .moduloByZero).2 ⟨[number 0, number 1, number 2, number 2,
    infixed (number 2) .subtract (number 2)], _, _, rfl, ?_, ?_⟩
  · exact offence_eq_some_iff.2 (.inr ⟨_, _, zero, .inr ⟨rfl, rfl⟩⟩)
  · simp [offence?]

end LineCalc.Tree
