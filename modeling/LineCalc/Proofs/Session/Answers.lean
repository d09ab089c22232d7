import LineCalc.Proofs.Session.Expressions
import LineCalc.Proofs.Session.Survival

/-! A session answers an expression as the reader and the evaluation would by themselves. No line
that can be read is taken for a command; and what is answered to a line that is no command is the
value of the line without the blanks around it. -/
namespace LineCalc.Session

open Decimal Request

inductive Printed : Bool → Tree → Int → String → Prop where
  | value : Printed false t v v.repr
  | grouped (h : t.render = .ok shown) : Printed true t v (shown ++ "\n" ++ v.repr)

theorem printed_false_iff {t : Tree} {v : Int} {out : String} :
    Printed false t v out ↔ out = v.repr := by
  constructor
  · rintro ⟨⟩
    rfl
  · rintro rfl
    exact .value

theorem printed_true_iff {t : Tree} {v : Int} {out : String} :
    Printed true t v out ↔ ∃ shown, t.render = .ok shown ∧ out = shown ++ "\n" ++ v.repr := by
  constructor
  · rintro ⟨⟩
    exact ⟨_, ‹_›, rfl⟩
  · rintro ⟨shown, h, rfl⟩
    exact .grouped h

theorem exists_printed {withTree : Bool} {t : Tree}
    (fits : withTree = true → t.Leaves IsPrintable) (v : Int) :
    ∃ out, Printed withTree t v out := by
  cases withTree with
  | false => exact ⟨_, .value⟩
  | true => exact ⟨_, .grouped (Tree.render_eq_ok_iff.2 ⟨fits rfl, rfl⟩)⟩

theorem present_eq_text_iff {withTree : Bool} {t : Tree} {v : Int} {ok : Bool} {out : String} :
    present withTree t v = .text ok out ↔
      ok = true ∧ IsPrintable v ∧ Printed withTree t v out := by
  rw [present, replyOf_eq_text_iff]
  refine and_congr_right fun _ => ?_
  cases withTree with
  | false => rw [if_neg Bool.false_ne_true, text_eq_ok_iff, printed_false_iff]
  | true =>
    rw [if_pos rfl, bind_eq_ok_iff, printed_true_iff]
    constructor
    · rintro ⟨shown, render, rest⟩
      obtain ⟨text, value, same⟩ := bind_eq_ok_iff.1 rest
      obtain ⟨printable, rfl⟩ := text_eq_ok_iff.1 value
      cases same
      exact ⟨printable, shown, render, rfl⟩
    · rintro ⟨printable, shown, render, rfl⟩
      exact ⟨shown, render, bind_eq_ok_iff.2 ⟨_, text_eq_ok_iff.2 ⟨printable, rfl⟩, rfl⟩⟩

theorem evaluateExpression_eq_ok_iff {frames : Parser.Frames} {withTree : Bool}
    {text out : String} :
    (evaluateExpression frames withTree text).reply = .text true out ↔
      ∃ t v, parseWithin frames text = .ok t ∧ t.evaluate = .ok v ∧ IsPrintable v ∧
        Printed withTree t v out := by
  rw [reply_iff_present (P := (· = .text true out)) fun _ => nofun]
  simp only [present_eq_text_iff, true_and]

/-- Every line that can be read is an expression, whatever the settings, and it is answered by its
value or by the report that it has none. Every success on a line that is no command is the value
of the line without the blanks around it. -/
theorem reply_of_expression (frames : Parser.Frames) (settings : Settings) (line : String) :
    (∀ t, parseWithin frames line = .ok t →
      ¬IsCommand line ∧ Request.ofLine line = .expression (Text.stripped line) ∧
        (∀ v, t.evaluate = .ok v → digitCount v ≤ digitLimit →
          (settings.showTree = true → t.Leaves fun n => digitCount n ≤ digitLimit) →
            ∃ out, Printed settings.showTree t v out ∧
              (evaluateLine frames settings line).reply = .text true out) ∧
        ∀ fault, t.evaluate = .error fault →
          (evaluateLine frames settings line).reply = .text false ("Error: " ++ fault.message)) ∧
      (¬IsCommand line → ∀ out, (evaluateLine frames settings line).reply = .text true out →
        ∃ t v, parseWithin frames (Text.stripped line) = .ok t ∧
          calculateWithin frames (Text.stripped line) = .ok v ∧
            Printed settings.showTree t v out) := by
  constructor
  · intro t read
    obtain ⟨text, request, _⟩ := exists_expression_of_parseWithin read
    obtain ⟨plain, rfl⟩ := ofLine_eq_expression_iff.1 request
    have reply := reply_of_readable read frames settings
    refine ⟨plain, request, fun v he short shows => ?_, fun fault he => ?_⟩
    · have fits := fun shown => (shows shown).imp fun n => (isPrintable_iff n).2
      obtain ⟨out, printed⟩ := exists_printed fits v
      refine ⟨out, printed, reply.trans ?_⟩
      exact evaluateExpression_eq_ok_iff.2 ⟨t, v, read, he, (isPrintable_iff v).2 short, printed⟩
    · exact reply.trans (reply_of_evaluate_error read he _)
  · intro plain out reply
    rw [evaluateLine, ofLine_eq_expression_iff.2 ⟨plain, rfl⟩] at reply
    obtain ⟨t, v, hp, he, _, printed⟩ := evaluateExpression_eq_ok_iff.1 reply
    exact ⟨t, v, hp, calculate_eq_ok_iff.2 ⟨t, hp, he⟩, printed⟩

theorem reply_of_padded_difference :
    parseWithin (.atMost 20) "\t(2)-5 " = .ok (.infixed (.number 2) .subtract (.number 5)) ∧
      ¬IsCommand "\t(2)-5 " ∧
      (evaluateLine (.atMost 20) ⟨"> ", "", .warning, true, true⟩ "\t(2)-5 ").reply =
        .text true "(2 - 5)\n-3" ∧
      ∃ v, calculateWithin (.atMost 20) (Text.stripped "\t(2)-5 ") = .ok v := by
  have tokens : Token.ofText "\t(2)-5 " =
      [.leftParen, .number 2, .rightParen, .operator "-", .number 5] := by decide +kernel
  have read : parseWithin (.atMost 20) "\t(2)-5 " =
      .ok (.infixed (.number 2) .subtract (.number 5)) := by
    rw [parseWithin, tokens]
    cbv
  have value : (Tree.infixed (.number 2) .subtract (.number 5)).evaluate = .ok (-3) := by
    rw [Tree.evaluate_eq_fold]
    rfl
  obtain ⟨answered, succeeds⟩ :=
    reply_of_expression (.atMost 20) ⟨"> ", "", .warning, true, true⟩ "\t(2)-5 "
  obtain ⟨plain, _, printed, _⟩ := answered _ read
  obtain ⟨out, shows, reply⟩ := printed _ value (by decide) fun _ => by decide +kernel
  obtain ⟨t, v, _, calculated, _⟩ := succeeds plain out reply
  obtain ⟨shown, render, rfl⟩ := printed_true_iff.1 shows
  have tree : shown = "(2 - 5)" := (Tree.render_eq_ok_iff.1 render).2
  have text : "(2 - 5)" ++ "\n" ++ (-3 : Int).repr = "(2 - 5)\n-3" := by decide +kernel
  rw [tree, text] at reply
  exact ⟨read, plain, reply, v, calculated⟩

end LineCalc.Session
