import LineCalc.Parser
import LineCalc.Proofs.Parser.Rules

/-! A limit on the frames is seen only where it is hit: with more frames, or without a limit, every
other reading is the same. Facts about what is read are therefore shown without frames. -/
namespace LineCalc.Parser

def Frames.le : Frames → Frames → Prop
  | _, .unlimited => True
  | .unlimited, .atMost _ => False
  | .atMost few, .atMost many => few ≤ many

instance : LE Frames := ⟨Frames.le⟩

theorem Frames.le_unlimited (frames : Frames) : frames ≤ .unlimited := by
  cases frames <;> exact trivial

theorem Frames.below_le (frames : Frames) (depth : Nat) : frames.below depth ≤ frames := by
  cases frames with
  | unlimited => exact trivial
  | atMost count => exact Nat.sub_le count depth

theorem Frames.exists_enter_of_le {few many inner : Frames} (le : few ≤ many)
    (enter : few.enter = some inner) : ∃ outer, many.enter = some outer ∧ inner ≤ outer := by
  cases many with
  | unlimited => exact ⟨.unlimited, rfl, inner.le_unlimited⟩
  | atMost many =>
    cases few with
    | unlimited => exact le.elim
    | atMost few =>
      have le : few ≤ many := le
      obtain _ | few := few
      · cases enter
      · cases enter
        obtain ⟨rest, rfl⟩ := Nat.exists_eq_add_of_le le
        refine ⟨.atMost (few + rest), ?_, Nat.le_add_right few rest⟩
        rw [Nat.succ_add]
        rfl

def HitsLimit (r : Reading) : Prop := ∃ rest, r = .error ⟨.tooDeep, rest⟩

theorem not_hitsLimit_ok (r : Tree × List Token) : ¬HitsLimit (.ok r) := by
  rintro ⟨rest, h⟩
  cases h

/-- Halts are passed on as they are, so a reading that hits no limit calls only such. -/
theorem Reads.mono {few : Frames} (h : Reads few reader ts r) (fits : ¬HitsLimit r) :
    ∀ {many}, few ≤ many → Reads many reader ts r := by
  induction h with
  | expressionTooDeep | atomTooDeep => exact absurd ⟨_, rfl⟩ fits
  | expressionHalts enter _ ih =>
    intro many le
    obtain ⟨outer, enter, le⟩ := Frames.exists_enter_of_le le enter
    exact .expressionHalts enter (ih fits le)
  | expression enter _ _ ih iht =>
    intro many le
    obtain ⟨outer, enter, le⟩ := Frames.exists_enter_of_le le enter
    exact .expression enter (ih (not_hitsLimit_ok _) le) (iht fits le)
  | prefixedHalts role _ ih => exact fun le => .prefixedHalts role (ih fits le)
  | prefixed role _ ih => exact fun le => .prefixed role (ih (not_hitsLimit_ok _) le)
  | plain role _ ih => exact fun le => .plain role (ih fits le)
  | number enter =>
    intro many le
    obtain ⟨outer, enter, _⟩ := Frames.exists_enter_of_le le enter
    exact .number enter
  | groupHalts enter _ ih =>
    intro many le
    obtain ⟨outer, enter, le⟩ := Frames.exists_enter_of_le le enter
    exact .groupHalts enter (ih fits le)
  | group enter _ ih =>
    intro many le
    obtain ⟨outer, enter, le⟩ := Frames.exists_enter_of_le le enter
    exact .group enter (ih (not_hitsLimit_ok _) le)
  | unclosed enter _ found ih =>
    intro many le
    obtain ⟨outer, enter, le⟩ := Frames.exists_enter_of_le le enter
    exact .unclosed enter (ih (not_hitsLimit_ok _) le) found
  | missing enter noNumber noGroup =>
    intro many le
    obtain ⟨outer, enter, _⟩ := Frames.exists_enter_of_le le enter
    exact .missing enter noNumber noGroup
  | infixedHalts role binds _ ih => exact fun le => .infixedHalts role binds (ih fits le)
  | infixed role binds _ _ ih iht =>
    exact fun le => .infixed role binds (ih (not_hitsLimit_ok _) le) (iht fits le)
  | postfixed role binds _ ih => exact fun le => .postfixed role binds (ih fits le)
  | stop stops => exact fun _ => .stop stops

theorem whole_eq_of_le {few many : Frames} {ts : List Token} (le : few ≤ many)
    (fits : ¬HitsLimit (whole few ts)) : whole many ts = whole few ts := by
  have inner : ¬HitsLimit ((Reader.expression 0).read few ts) := by
    rintro ⟨rest, h⟩
    have h : expression few 0 ts = .error ⟨.tooDeep, rest⟩ := h
    exact fits ⟨rest, by rw [whole, h]⟩
  have same : expression many 0 ts = expression few 0 ts :=
    ((reads few (.expression 0) ts).mono inner le).read_eq
  rw [whole, whole, same]

theorem whole_eq_unlimited {frames : Frames} {ts : List Token}
    (fits : ¬HitsLimit (whole frames ts)) : whole frames ts = whole .unlimited ts :=
  (whole_eq_of_le frames.le_unlimited fits).symm

end LineCalc.Parser

namespace LineCalc

/-- Reading the text with these frames ends at the limit. -/
def NestsTooDeep (frames : Parser.Frames) (text : String) : Prop :=
  Parser.HitsLimit (Parser.whole frames (Token.ofText text))

theorem not_nestsTooDeep_of_ok {frames : Parser.Frames} {text : String} {t : Tree}
    (h : parseWithin frames text = .ok t) : ¬NestsTooDeep frames text := by
  rintro ⟨rest, deep⟩
  rw [parseWithin, deep] at h
  cases h

theorem parseWithin_eq_of_le {few many : Parser.Frames} {text : String} (le : few ≤ many)
    (fits : ¬NestsTooDeep few text) : parseWithin many text = parseWithin few text := by
  rw [parseWithin, parseWithin, Parser.whole_eq_of_le le fits]

theorem parseWithin_eq_unlimited {frames : Parser.Frames} {text : String}
    (fits : ¬NestsTooDeep frames text) : parseWithin frames text = parseWithin .unlimited text :=
  (parseWithin_eq_of_le frames.le_unlimited fits).symm

end LineCalc
