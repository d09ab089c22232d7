import LineCalc.Tree

/-! What a tree shows, and which trees can show it: printing fails on a leaf only, so the text
of a tree is a total function of the tree, and a condition on the leaves says when it is
printed. -/
namespace LineCalc

theorem bind_eq_ok_iff {x : Except ε α} {f : α → Except ε β} {b : β} :
    x >>= f = .ok b ↔ ∃ a, x = .ok a ∧ f a = .ok b := by
  cases x with
  | error e => exact ⟨nofun, fun ⟨_, h, _⟩ => nomatch h⟩
  | ok a => exact ⟨fun h => ⟨a, rfl, h⟩, fun ⟨_, h, hf⟩ => by cases h; exact hf⟩

theorem bind_eq_error_iff {x : Except ε α} {f : α → Except ε β} {e : ε} :
    x >>= f = .error e ↔ x = .error e ∨ ∃ a, x = .ok a ∧ f a = .error e := by
  cases x with
  | error e' =>
    refine ⟨fun h => .inl (by cases h; rfl), fun h => ?_⟩
    rcases h with h | ⟨_, h, _⟩ <;> cases h
    rfl
  | ok a =>
    refine ⟨fun h => .inr ⟨a, rfl, h⟩, fun h => ?_⟩
    rcases h with h | ⟨_, h, hf⟩ <;> cases h
    exact hf

namespace Tree

def Leaves (p : Int → Prop) : Tree → Prop
  | number n => p n
  | prefixed _ t | postfixed t _ => t.Leaves p
  | infixed l _ r => l.Leaves p ∧ r.Leaves p
  | hole => False

instance Leaves.decidable (p : Int → Prop) [DecidablePred p] : ∀ t, Decidable (Leaves p t)
  | number n => inferInstanceAs (Decidable (p n))
  | prefixed _ t | postfixed t _ => Leaves.decidable p t
  | infixed l _ r =>
    have := Leaves.decidable p l
    have := Leaves.decidable p r
    inferInstanceAs (Decidable (l.Leaves p ∧ r.Leaves p))
  | hole => isFalse id

theorem Leaves.imp {p q : Int → Prop} {t : Tree} (h : t.Leaves p) (imp : ∀ n, p n → q n) :
    t.Leaves q := by
  induction t with
  | number n => exact imp n h
  | prefixed _ t ih | postfixed t _ ih => exact ih h
  | infixed l _ r ihl ihr => exact ⟨ihl h.1, ihr h.2⟩
  | hole => exact h

/-- The text of a tree whose numbers may have any number of digits. -/
def shown : Tree → String
  | number n => n.repr
  | prefixed op t => "(" ++ op.symbol ++ t.shown ++ ")"
  | infixed l op r => "(" ++ l.shown ++ " " ++ op.symbol ++ " " ++ r.shown ++ ")"
  | postfixed t op => "(" ++ t.shown ++ op.symbol ++ ")"
  | hole => ""

section Characters

variable (rest : List Char)

theorem toList_shown_prefixed (op : PrefixOp) (t : Tree) :
    (prefixed op t).shown.toList ++ rest =
      '(' :: (op.symbol.toList ++ (t.shown.toList ++ ')' :: rest)) := by
  simp [shown]

theorem toList_shown_infixed (l : Tree) (op : InfixOp) (r : Tree) :
    (infixed l op r).shown.toList ++ rest =
      '(' :: (l.shown.toList ++ ' ' :: (op.symbol.toList ++ ' ' ::
        (r.shown.toList ++ ')' :: rest))) := by
  simp [shown]

theorem toList_shown_postfixed (t : Tree) (op : PostfixOp) :
    (postfixed t op).shown.toList ++ rest =
      '(' :: (t.shown.toList ++ (op.symbol.toList ++ ')' :: rest)) := by
  simp [shown]

end Characters

theorem render_eq_ok_iff {t : Tree} {text : String} :
    t.render = .ok text ↔ t.Leaves Decimal.IsPrintable ∧ text = t.shown := by
  rw [render_eq_fold]
  induction t generalizing text with
  | number n => simp only [fold, textAlgebra, Decimal.text_eq_ok_iff, Leaves, shown]
  | prefixed op t ih | postfixed t op ih =>
    rw [fold, bind_eq_ok_iff]
    constructor
    · rintro ⟨inner, ht, h⟩
      obtain ⟨printable, rfl⟩ := ih.1 ht
      cases h
      exact ⟨printable, rfl⟩
    · rintro ⟨printable, rfl⟩
      exact ⟨t.shown, ih.2 ⟨printable, rfl⟩, rfl⟩
  | infixed l op r ihl ihr =>
    rw [fold, bind_eq_ok_iff]
    constructor
    · rintro ⟨left, hl, h⟩
      obtain ⟨right, hr, h⟩ := bind_eq_ok_iff.1 h
      obtain ⟨printableLeft, rfl⟩ := ihl.1 hl
      obtain ⟨printableRight, rfl⟩ := ihr.1 hr
      cases h
      exact ⟨⟨printableLeft, printableRight⟩, rfl⟩
    · rintro ⟨⟨printableLeft, printableRight⟩, rfl⟩
      exact ⟨l.shown, ihl.2 ⟨printableLeft, rfl⟩,
        bind_eq_ok_iff.2 ⟨r.shown, ihr.2 ⟨printableRight, rfl⟩, rfl⟩⟩
  | hole => simp [fold, textAlgebra, Leaves]

theorem fault_of_render {p : Int → Prop} {t : Tree} {fault : Fault} (h : t.Leaves p)
    (hr : t.render = .error fault) : fault = .unprintable := by
  rw [render_eq_fold] at hr
  induction t with
  | number n =>
    simp only [fold, textAlgebra, Decimal.text_eq_error_iff] at hr
    exact hr.1
  | prefixed op t ih | postfixed t op ih =>
    rcases bind_eq_error_iff.1 hr with hr | ⟨_, _, hr⟩
    · exact ih h hr
    · cases hr
  | infixed l op r ihl ihr =>
    rcases bind_eq_error_iff.1 hr with hr | ⟨_, _, hr⟩
    · exact ihl h.1 hr
    · rcases bind_eq_error_iff.1 hr with hr | ⟨_, _, hr⟩
      · exact ihr h.2 hr
      · cases hr
  | hole => cases h

theorem render_eq_error_iff {p : Int → Prop} {t : Tree} {fault : Fault} (h : t.Leaves p) :
    t.render = .error fault ↔ fault = .unprintable ∧ ¬t.Leaves Decimal.IsPrintable := by
  constructor
  · intro hr
    refine ⟨fault_of_render h hr, fun printable => ?_⟩
    cases hr.symm.trans (render_eq_ok_iff.2 ⟨printable, rfl⟩)
  · rintro ⟨rfl, large⟩
    cases hr : t.render with
    | error fault => rw [fault_of_render h hr]
    | ok text => exact absurd (render_eq_ok_iff.1 hr).1 large

end Tree

end LineCalc
