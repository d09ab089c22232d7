import Mathlib.Logic.Relation
import LineCalc.Proofs.Text.Lines
import LineCalc.Text.Basic

/-! Breaks in other numbers and of other kinds. A carriage return and a line feed are one break or
two by what stands around them, so a change of breaks may bring lines or take them away; but these
are empty, and the lines that are not blank stay the same. -/
namespace LineCalc.Text

/-- One run of breaks in place of another. Only at an end of the text a run comes or goes. -/
inductive Rebreak : List Char → List Char → Prop where
  | exchange {front old new back : List Char} (oldBreaks : ∀ c ∈ old, isBreak c)
      (newBreaks : ∀ c ∈ new, isBreak c)
      (inside : front ≠ [] → back ≠ [] → (old = [] ↔ new = [])) :
      Rebreak (front ++ old ++ back) (front ++ new ++ back)

/-- One text comes from the other by changes of breaks alone. -/
def Rebroken (s t : String) : Prop := Relation.ReflTransGen Rebreak s.toList t.toList

def unblank (lines : List (List Char)) : List (List Char) :=
  lines.filter fun line => decide (strip line ≠ [])

theorem unblank_cons (line : List Char) (rest : List (List Char)) :
    unblank (line :: rest) = unblank [line] ++ unblank rest := by
  rw [unblank, unblank, unblank, ← List.filter_append, List.singleton_append]

theorem unblank_nil_cons (rest : List (List Char)) : unblank ([] :: rest) = unblank rest :=
  List.filter_cons_of_neg (by simp [strip_nil])

section Lines

variable (current : List Char)

theorem unblank_linesFrom_nil : unblank (linesFrom current []) = unblank [current.reverse] := by
  rw [linesFrom]
  split
  · next none =>
    rw [List.isEmpty_iff.1 none]
    exact (unblank_nil_cons []).symm
  · rfl

/-- A break ends the line that stands before it. Whether a line feed behind it belongs to it makes
no difference but an empty line. -/
theorem unblank_linesFrom_break {c : Char} (h : isBreak c) (rest : List Char) :
    unblank (linesFrom current (c :: rest)) =
      unblank [current.reverse] ++ unblank (linesFrom [] rest) := by
  by_cases pair : c = '\r' ∧ ∃ others, rest = '\n' :: others
  · obtain ⟨rfl, others, rfl⟩ := pair
    rw [linesFrom_lineFeed, List.reverse_nil, unblank_nil_cons, linesFrom, unblank_cons]
  · have alone : linesFrom current (c :: rest) = current.reverse :: linesFrom [] rest := by
      rw [linesFrom]
      · exact if_pos h
      · intro others isReturn isFeed
        exact pair ⟨isReturn, others, isFeed⟩
    rw [alone, unblank_cons]

theorem unblank_linesFrom_breaks {breaks : List Char} (h : ∀ c ∈ breaks, isBreak c)
    (ne : breaks ≠ []) (rest : List Char) :
    unblank (linesFrom current (breaks ++ rest)) =
      unblank [current.reverse] ++ unblank (linesFrom [] rest) := by
  induction breaks generalizing current with
  | nil => exact absurd rfl ne
  | cons c cs ih =>
    obtain ⟨first, others⟩ := List.forall_mem_cons.1 h
    rw [List.cons_append, unblank_linesFrom_break current first]
    cases cs with
    | nil => rfl
    | cons d ds => rw [ih [] others nofun, List.reverse_nil, unblank_nil_cons]; rfl

/-- What stands behind a text matters for its lines only as far as it matters for any line. -/
theorem unblank_linesFrom_append {a b : List Char}
    (h : ∀ current, unblank (linesFrom current a) = unblank (linesFrom current b))
    (front : List Char) :
    unblank (linesFrom current (front ++ a)) = unblank (linesFrom current (front ++ b)) := by
  induction front generalizing current with
  | nil => exact h current
  | cons c cs ih =>
    rw [List.cons_append, List.cons_append]
    by_cases ends : isBreak c
    · rw [unblank_linesFrom_break current ends, unblank_linesFrom_break current ends, ih]
    · rw [linesFrom_cons ends, linesFrom_cons ends, ih]

end Lines

theorem unblank_linesFrom_start {breaks : List Char} (h : ∀ c ∈ breaks, isBreak c)
    (rest : List Char) : unblank (linesFrom [] (breaks ++ rest)) = unblank (linesFrom [] rest) := by
  by_cases ne : breaks = []
  · rw [ne, List.nil_append]
  · rw [unblank_linesFrom_breaks [] h ne, List.reverse_nil, unblank_nil_cons]
    rfl

theorem unblank_linesFrom_end {breaks : List Char} (h : ∀ c ∈ breaks, isBreak c)
    (current : List Char) :
    unblank (linesFrom current breaks) = unblank [current.reverse] := by
  by_cases ne : breaks = []
  · rw [ne, unblank_linesFrom_nil]
  · have none : unblank (linesFrom [] []) = [] := rfl
    have read := unblank_linesFrom_breaks current h ne []
    rwa [List.append_nil, none, List.append_nil] at read

theorem Rebreak.unblank_eq {a b : List Char} (h : Rebreak a b) :
    unblank (linesFrom [] a) = unblank (linesFrom [] b) := by
  obtain @⟨front, old, new, back, oldBreaks, newBreaks, inside⟩ := h
  by_cases first : front = []
  · rw [first, List.nil_append, List.nil_append, unblank_linesFrom_start oldBreaks,
      unblank_linesFrom_start newBreaks]
  by_cases last : back = []
  · rw [last, List.append_nil, List.append_nil]
    refine unblank_linesFrom_append [] (fun current => ?_) front
    rw [unblank_linesFrom_end oldBreaks, unblank_linesFrom_end newBreaks]
  have same := inside first last
  rw [List.append_assoc, List.append_assoc]
  by_cases none : old = []
  · rw [none, same.1 none]
  · refine unblank_linesFrom_append [] (fun current => ?_) front
    rw [unblank_linesFrom_breaks current oldBreaks none,
      unblank_linesFrom_breaks current newBreaks (mt same.2 none)]

theorem unblank_eq_of_changes {a b : List Char} (h : Relation.ReflTransGen Rebreak a b) :
    unblank (linesFrom [] a) = unblank (linesFrom [] b) := by
  induction h with
  | refl => rfl
  | tail _ change ih => exact ih.trans change.unblank_eq

theorem filter_lines_rebroken {s t : String} (h : Rebroken s t) :
    (lines s).filter (fun line => decide (strip line.toList ≠ [])) =
      (lines t).filter fun line => decide (strip line.toList ≠ []) := by
  have chars (cs : List (List Char)) :
      (cs.map String.ofList).filter (fun line => decide (strip line.toList ≠ [])) =
        (unblank cs).map String.ofList := by
    rw [List.filter_map, unblank]
    simp [Function.comp_def]
  rw [lines, lines, chars, chars, unblank_eq_of_changes h]

end LineCalc.Text
