import LineCalc.Proofs.Session.Replies
import LineCalc.Proofs.Session.Requests

/-! Which lines a session survives. It catches what goes wrong while an expression is read and
evaluated, but a value and a tree are printed behind that place, and a number that has too many
digits breaks the session there. Every request is settled by itself, and a line by its request. -/
namespace LineCalc.Session

open Decimal Request

variable {frames : Parser.Frames}

/-- What is asked for needs a number printed that is too long, where nothing catches it: a value,
a number of a tree that is shown, or the number at which the reading of a tree stopped. -/
def Overflows (frames : Parser.Frames) (withTree : Bool) : Request → Prop
  | .expression text => ∃ t value, parseWithin frames text = .ok t ∧ t.evaluate = .ok value ∧
      (¬IsPrintable value ∨ withTree = true ∧ ¬t.Leaves IsPrintable)
  | .tree text => parseWithin (frames.below 2) text = .error .unprintable ∨
      ∃ t, parseWithin (frames.below 2) text = .ok t ∧ ¬t.Leaves IsPrintable
  | _ => False

def Fails (frames : Parser.Frames) : Request → Prop
  | .expression text => ∃ fault, calculateWithin frames text = .error fault
  | .tree text => ∃ fault, parseWithin (frames.below 2) text = .error fault
  | _ => False

theorem replyOf_ne_leave (r : Except Fault String) : replyOf r ≠ .leave := by
  cases r <;> nofun

theorem showGrouping_ne_leave (frames : Parser.Frames) (text : String) :
    showGrouping frames text ≠ .leave := by
  unfold showGrouping
  split
  · nofun
  · split
    · exact replyOf_ne_leave _
    · split <;> nofun

theorem evaluateExpression_ne_leave (withTree : Bool) (text : String) :
    (evaluateExpression frames withTree text).reply ≠ .leave := by
  intro leaves
  obtain ⟨t, value, _, _, leaves⟩ :=
    (reply_iff_present (P := (· = .leave)) fun _ => nofun).1 leaves
  exact replyOf_ne_leave _ leaves

theorem evaluateExpression_eq_broken_iff {withTree : Bool} {text : String} {fault : Fault} :
    (evaluateExpression frames withTree text).reply = .broken fault ↔
      fault = .unprintable ∧ Overflows frames withTree (.expression text) := by
  rw [reply_iff_present (P := (· = .broken fault)) fun _ => nofun]
  constructor
  · rintro ⟨t, value, hp, he, breaks⟩
    obtain ⟨same, large⟩ := (present_eq_broken_iff (leaves_of_parseWithin hp)).1 breaks
    exact ⟨same, t, value, hp, he, large⟩
  · rintro ⟨same, t, value, hp, he, large⟩
    exact ⟨t, value, hp, he, (present_eq_broken_iff (leaves_of_parseWithin hp)).2 ⟨same, large⟩⟩

theorem respond_eq_leave_iff {settings : Settings} {r : Request} :
    (respond frames settings r).reply = .leave ↔ r = .leave := by
  cases r with
  | expression text => exact iff_of_false (evaluateExpression_ne_leave _ text) nofun
  | tree text => exact iff_of_false (showGrouping_ne_leave _ text) nofun
  | help | operators | leave | nothing | unknown => simp [respond]

theorem respond_eq_broken_iff {settings : Settings} {r : Request} {fault : Fault} :
    (respond frames settings r).reply = .broken fault ↔
      fault = .unprintable ∧ Overflows frames settings.showTree r := by
  cases r with
  | expression text => exact evaluateExpression_eq_broken_iff
  | tree text => exact showGrouping_eq_broken_iff
  | help | operators | leave | nothing | unknown => simp [respond, Overflows]

theorem exists_text_respond {settings : Settings} {r : Request} (stays : r ≠ .leave)
    (fits : ¬Overflows frames settings.showTree r) :
    ∃ ok out, (respond frames settings r).reply = .text ok out := by
  cases h : (respond frames settings r).reply with
  | text ok out => exact ⟨ok, out, rfl⟩
  | leave => exact absurd (respond_eq_leave_iff.1 h) stays
  | broken fault => exact absurd (respond_eq_broken_iff.1 h).2 fits

theorem exists_text_of_fails {settings : Settings} {r : Request} (fails : Fails frames r)
    (fits : ¬Overflows frames settings.showTree r) :
    ∃ out, (respond frames settings r).reply = .text false out := by
  cases r with
  | expression text =>
    obtain ⟨fault, h⟩ := fails
    exact reply_of_calculate_error h settings.showTree
  | tree text =>
    obtain ⟨fault, h⟩ := fails
    refine exists_text_showGrouping h ?_
    rintro rfl
    exact fits (.inl h)
  | help | operators | leave | nothing | unknown => exact fails.elim

/-- A line ends the session if it is an exit command, and breaks it exactly if it overflows.
Any other line is answered by a text, one that reports a failure if something went wrong. -/
theorem reply_of_line (frames : Parser.Frames) (settings : Settings) (line : String) :
    ((evaluateLine frames settings line).reply = .leave ↔ IsExit line) ∧
      (∀ fault, (evaluateLine frames settings line).reply = .broken fault ↔
        fault = .unprintable ∧ Overflows frames settings.showTree (.ofLine line)) ∧
      (¬IsExit line → ¬Overflows frames settings.showTree (.ofLine line) →
        ∃ ok out, (evaluateLine frames settings line).reply = .text ok out ∧
          (Fails frames (.ofLine line) → ok = false)) := by
  refine ⟨respond_eq_leave_iff.trans ofLine_eq_leave_iff, fun fault => respond_eq_broken_iff, ?_⟩
  intro stays fits
  by_cases fails : Fails frames (.ofLine line)
  · obtain ⟨out, reply⟩ := exists_text_of_fails fails fits
    exact ⟨false, out, reply, fun _ => rfl⟩
  · obtain ⟨ok, out, reply⟩ := exists_text_respond (mt ofLine_eq_leave_iff.1 stays) fits
    exact ⟨ok, out, reply, fun h => absurd h fails⟩

theorem reply_division_by_zero :
    ¬IsExit "7/(2-2)" ∧ ¬Overflows (.atMost 20) true (.ofLine "7/(2-2)") ∧
      Fails (.atMost 20) (.ofLine "7/(2-2)") ∧
        ∃ out, (evaluateLine (.atMost 20) ⟨"> ", "", .warning, true, true⟩ "7/(2-2)").reply =
          .text false out := by
  have request : Request.ofLine "7/(2-2)" = .expression "7/(2-2)" := by decide +kernel
  have tokens : Token.ofText "7/(2-2)" = [.number 7, .operator "/", .leftParen, .number 2,
      .operator "-", .number 2, .rightParen] := by decide +kernel
  have fault : calculateWithin (.atMost 20) "7/(2-2)" = .error .divisionByZero := by
    rw [calculateWithin, parseWithin, tokens]
    cbv
  have stays : ¬IsExit "7/(2-2)" := by
    rw [← ofLine_eq_leave_iff, request]
    simp
  have fits : ¬Overflows (.atMost 20) true (.ofLine "7/(2-2)") := by
    rw [request]
    rintro ⟨t, value, hp, he, _⟩
    cases fault.symm.trans (calculate_eq_ok_iff.2 ⟨t, hp, he⟩)
  have fails : Fails (.atMost 20) (.ofLine "7/(2-2)") := by
    rw [request]
    exact ⟨.divisionByZero, fault⟩
  obtain ⟨ok, out, reply, reported⟩ :=
    (reply_of_line (.atMost 20) ⟨"> ", "", .warning, true, true⟩ "7/(2-2)").2.2 stays fits
  refine ⟨stays, fits, fails, out, ?_⟩
  rw [reply, reported fails]

theorem parse_natural (n spare : Nat) :
    parseWithin (.atMost (spare + 2)) n.repr = .ok (.number n) := by
  have tokens : Token.ofText n.repr = [.number n] := by
    rw [Token.ofText_eq_ofChars, Nat.repr, String.toList_ofList, Token.ofChars_toDigits]
  refine parseWithin_eq_ok_iff.2 ?_
  rw [tokens, Parser.expression_enter (by rfl), Parser.operand_plain (by rfl),
    Parser.atom_number (by rfl)]
  exact Parser.operators_nil ..

theorem overflows_natural {n : Nat} (large : ¬IsPrintable n) (spare : Nat) (withTree : Bool) :
    Overflows (.atMost (spare + 2)) withTree (.ofLine n.repr) := by
  rw [ofLine_natural]
  have value : (Tree.number n).evaluate = .ok n := by
    rw [Tree.evaluate_eq_fold]
    rfl
  exact ⟨_, n, parse_natural n spare, value, .inl large⟩

theorem not_isExit_natural (n : Nat) : ¬IsExit n.repr := by
  rw [← ofLine_eq_leave_iff, ofLine_natural]
  nofun

theorem reply_natural {n : Nat} (large : ¬IsPrintable n) (spare : Nat) (settings : Settings) :
    (evaluateLine (.atMost (spare + 2)) settings n.repr).reply = .broken .unprintable :=
  respond_eq_broken_iff.2 ⟨rfl, overflows_natural large spare settings.showTree⟩

theorem broken_by_numeral :
    ¬IsExit (bound digitLimit).repr ∧
      (evaluateLine (.atMost 950) ⟨"> ", "", .warning, false, false⟩
        (bound digitLimit).repr).reply = .broken .unprintable :=
  ⟨not_isExit_natural (bound digitLimit), reply_natural not_isPrintable_bound 948 _⟩

theorem take_eq_broken_iff {settings : Settings} {failed : Bool} {answer : Answer}
    {fault : Fault} :
    (take settings failed answer).next = .broken fault ↔ answer.reply = .broken fault := by
  rw [take]
  cases answer.reply with
  | text ok out =>
    refine iff_of_false (fun h => ?_) nofun
    change (if (!ok && settings.stopOnError) = true then Next.stop else .proceed) = _ at h
    split at h <;> cases h
  | leave => exact iff_of_false nofun nofun
  | broken cause => simp

end LineCalc.Session
