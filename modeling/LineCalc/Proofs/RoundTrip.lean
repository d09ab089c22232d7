import LineCalc.Proofs.Grammar.Climbing
import LineCalc.Proofs.Tree.Reread

/-! Printing and reading are inverse. What is printed is a sentence of the grammar, and the
grammar has one tree for it, so nothing is said here about how the reader gets there. -/
namespace LineCalc

open LineCalc.Parser

theorem Derives.leaves {p : Int → Prop} (h : Derives q ts t) :
    (∀ n, .number n ∈ ts → p n) → t.Leaves p := by
  induction h with
  | tighter _ _ ih => exact ih
  | infixed _ _ _ _ ihl ihr =>
    intro all
    exact ⟨ihl fun n h => all n (List.mem_append_left _ h),
      ihr fun n h => all n (List.mem_append_right _ (List.mem_cons_of_mem _ h))⟩
  | prefixed _ _ ih => exact fun all => ih fun n h => all n (List.mem_cons_of_mem _ h)
  | postfixed _ _ ih => exact fun all => ih fun n h => all n (List.mem_append_left _ h)
  | number n => exact fun all => all n List.mem_cons_self
  | group _ ih =>
    exact fun all => ih fun n h => all n (List.mem_append_left _ (List.mem_cons_of_mem _ h))

theorem leaves_of_parseWithin {frames : Frames} {text : String} {t : Tree}
    (h : parseWithin frames text = .ok t) : t.Leaves (0 ≤ ·) :=
  (derives_of_parseWithin h).leaves fun _ => Token.nonneg_of_mem_ofText

theorem parseWithin_shown {frames : Frames} {p : Int → Prop} {t : Tree} (h : t.Leaves p)
    (fits : ¬NestsTooDeep frames t.shown) : parseWithin frames t.shown = .ok t.reread := by
  refine parseWithin_of_derives fits ?_
  rw [Token.ofText_shown h]
  exact (Tree.derives_tokens h).1.loosen (by decide)

/-- A tree that was read has no negative leaf. A tree whose leaves can be printed has a text,
and unless the text nests too deep it is read as the tree itself if no leaf is negative, and
in any case as the tree with its negative leaves reread, which has the same outcome. -/
theorem parseWithin_render (frames : Frames) (t : Tree) :
    ((∃ source, parseWithin frames source = .ok t) → t.Leaves (0 ≤ ·)) ∧
      (t.Leaves (fun n => Decimal.digitCount n ≤ Decimal.digitLimit) →
        ∃ text, t.render = .ok text ∧
          (¬NestsTooDeep frames text →
            (t.Leaves (0 ≤ ·) → parseWithin frames text = .ok t) ∧
              parseWithin frames text = .ok t.reread ∧ t.reread.evaluate = t.evaluate)) := by
  refine ⟨fun ⟨source, h⟩ => leaves_of_parseWithin h, fun printable => ?_⟩
  have printed : t.render = .ok t.shown :=
    Tree.render_eq_ok_iff.2 ⟨printable.imp fun n => (Decimal.isPrintable_iff n).2, rfl⟩
  refine ⟨t.shown, printed, fun fits => ?_⟩
  have read := parseWithin_shown printable fits
  refine ⟨fun nonneg => ?_, read, t.evaluate_reread⟩
  rwa [Tree.reread_of_nonneg nonneg] at read

theorem parse_render_negative_factorial :
    (Tree.postfixed (.number (-5)) .factorial).Leaves
        (fun n => Decimal.digitCount n ≤ Decimal.digitLimit) ∧
      (Tree.postfixed (.number (-5)) .factorial).render = .ok "(-5!)" ∧
        ¬NestsTooDeep (.atMost 20) "(-5!)" ∧
          parseWithin (.atMost 20) "(-5!)" =
            .ok (.prefixed .negative (.postfixed (.number 5) .factorial)) := by
  have printable : (Tree.postfixed (.number (-5)) .factorial).Leaves
      (fun n => Decimal.digitCount n ≤ Decimal.digitLimit) := by decide +kernel
  obtain ⟨text, printed, read⟩ := (parseWithin_render (.atMost 20) _).2 printable
  have shown : text = "(-5!)" := (Tree.render_eq_ok_iff.1 printed).2
  subst shown
  have tokens : Token.ofText "(-5!)" =
      [.leftParen, .operator "-", .number 5, .operator "!", .rightParen] := by decide +kernel
  have reading : parseWithin (.atMost 20) "(-5!)" =
      .ok (.prefixed .negative (.postfixed (.number 5) .factorial)) := by
    rw [parseWithin, tokens]
    cbv
  have fits : ¬NestsTooDeep (.atMost 20) "(-5!)" := not_nestsTooDeep_of_ok reading
  exact ⟨printable, printed, fits, (read fits).2.1⟩

end LineCalc
