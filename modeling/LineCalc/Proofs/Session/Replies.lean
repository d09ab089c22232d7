import LineCalc.Proofs.Parser.Nesting
import LineCalc.Proofs.RoundTrip
import LineCalc.Proofs.Tree.Offences
import LineCalc.Session

/-! What a session replies to an expression and to a request for its tree. A reply breaks off
only where a number is printed outside of the place that catches faults; the lemmas say where
that is, and that nothing but a number with too many digits does it. -/
namespace LineCalc

open LineCalc.Parser

variable {frames : Frames}

theorem fault_of_parseWithin {text : String} {fault : Fault}
    (h : parseWithin frames text = .error fault) :
    ∃ label found, (found ∈ Token.ofText text ∨ found = .endOfInput) ∧
      fault = .expecting label found := by
  by_cases deep : NestsTooDeep frames text
  · obtain ⟨found, mem, report⟩ := parseWithin_of_nestsTooDeep deep
    cases report.symm.trans h
    exact ⟨_, found, mem, rfl⟩
  · obtain ⟨accepted, refused⟩ := parseWithin_of_complaint deep
    cases hc : Scan.complaint (Token.ofText text) with
    | none =>
      obtain ⟨t, ok⟩ := accepted hc
      cases ok.symm.trans h
    | some c =>
      cases (refused c hc).symm.trans h
      exact ⟨_, c.found, Scan.found_of_scan hc, rfl⟩

/-- Reading fails with a report, or with the fault of printing the token it would name. -/
theorem isOfLine_of_parse {text : String} {fault : Fault}
    (h : parseWithin frames text = .error fault) :
    fault.isOfLine = true ∨ fault = .unprintable := by
  obtain ⟨label, found, _, rfl⟩ := fault_of_parseWithin h
  unfold Fault.expecting
  split
  · exact .inl rfl
  · exact .inr rfl

section Printable

variable {text : String} (short : ∀ n, .number n ∈ Token.ofText text → Decimal.IsPrintable n)

include short

theorem ne_unprintable_of_parse {fault : Fault} (h : parseWithin frames text = .error fault) :
    fault ≠ .unprintable := by
  obtain ⟨label, found, mem, rfl⟩ := fault_of_parseWithin h
  intro same
  obtain ⟨n, rfl, large⟩ := Fault.expecting_eq_unprintable_iff.1 same
  exact large (short n (mem.resolve_right (by simp)))

theorem printable_of_parse {t : Tree} (h : parseWithin frames text = .ok t) :
    t.Leaves Decimal.IsPrintable :=
  (derives_of_parseWithin h).leaves short

end Printable

namespace Session

theorem replyOf_eq_broken_iff {r : Except Fault String} {fault : Fault} :
    replyOf r = .broken fault ↔ r = .error fault := by
  cases r <;> simp [replyOf]

theorem replyOf_eq_text_iff {r : Except Fault String} {ok : Bool} {text : String} :
    replyOf r = .text ok text ↔ ok = true ∧ r = .ok text := by
  cases r <;> simp [replyOf, eq_comm]

/-- No record is made of a reading exactly where the tree has no text, because a number of it has
too many digits. -/
theorem parsedRecord_eq_nil_iff {p : Int → Prop} {t : Tree} (h : t.Leaves p) (text : String) :
    parsedRecord text t = [] ↔ ¬t.Leaves Decimal.IsPrintable := by
  by_cases printable : t.Leaves Decimal.IsPrintable
  · rw [parsedRecord, Tree.render_eq_ok_iff.2 ⟨printable, rfl⟩]
    simp [printable]
  · rw [parsedRecord, (Tree.render_eq_error_iff h).2 ⟨rfl, printable⟩]
    simp [printable]

theorem exists_text_reject (text : String) (fault : Fault) :
    ∃ out, (reject text fault).reply = .text false out := by
  unfold reject
  split <;> exact ⟨_, rfl⟩

theorem reject_of_isOfLine {fault : Fault} (h : fault.isOfLine) (text : String) :
    (reject text fault).reply = .text false (errorText fault) := by
  rw [reject, if_pos h]

theorem present_eq_broken_iff {p : Int → Prop} {t : Tree} (h : t.Leaves p) {withTree : Bool}
    {value : Int} {fault : Fault} :
    present withTree t value = .broken fault ↔
      fault = .unprintable ∧ (¬Decimal.IsPrintable value ∨
        withTree = true ∧ ¬t.Leaves Decimal.IsPrintable) := by
  rw [present, replyOf_eq_broken_iff]
  cases withTree with
  | false => simp [Decimal.text_eq_error_iff]
  | true =>
    rw [if_pos rfl, bind_eq_error_iff, Tree.render_eq_error_iff h]
    constructor
    · rintro (⟨rfl, large⟩ | ⟨shown, _, rest⟩)
      · exact ⟨rfl, .inr ⟨rfl, large⟩⟩
      · rcases bind_eq_error_iff.1 rest with rest | ⟨_, _, rest⟩
        · exact ⟨(Decimal.text_eq_error_iff.1 rest).1, .inl (Decimal.text_eq_error_iff.1 rest).2⟩
        · cases rest
    · rintro ⟨rfl, large⟩
      by_cases printable : t.Leaves Decimal.IsPrintable
      · have large := large.resolve_right fun h => h.2 printable
        refine .inr ⟨t.shown, Tree.render_eq_ok_iff.2 ⟨printable, rfl⟩, ?_⟩
        exact bind_eq_error_iff.2 (.inl (Decimal.text_eq_error_iff.2 ⟨rfl, large⟩))
      · exact .inl ⟨rfl, printable⟩

theorem reply_eq_reject {text : String} {fault : Fault}
    (h : calculateWithin frames text = .error fault) (withTree : Bool) :
    (evaluateExpression frames withTree text).reply = (reject text fault).reply := by
  rw [evaluateExpression]
  rcases bind_eq_error_iff.1 h with hp | ⟨t, hp, he⟩
  · rw [hp]
  · simp only [hp, he]

theorem reply_of_calculate_error {text : String} {fault : Fault}
    (h : calculateWithin frames text = .error fault) (withTree : Bool) :
    ∃ out, (evaluateExpression frames withTree text).reply = .text false out := by
  rw [reply_eq_reject h]
  exact exists_text_reject text fault

theorem reply_of_evaluate_error {text : String} {t : Tree} {fault : Fault}
    (hp : parseWithin frames text = .ok t) (he : t.evaluate = .error fault) (withTree : Bool) :
    (evaluateExpression frames withTree text).reply = .text false (errorText fault) := by
  have numbers : t.Leaves fun _ => True := (leaves_of_parseWithin hp).imp fun _ _ => trivial
  rw [reply_eq_reject (bind_eq_error_iff.2 (.inr ⟨t, hp, he⟩)),
    reject_of_isOfLine (Tree.isOfLine_of_evaluate numbers he)]

theorem reply_of_evaluate_ok {text : String} {t : Tree} {value : Int}
    (hp : parseWithin frames text = .ok t) (he : t.evaluate = .ok value) (withTree : Bool) :
    (evaluateExpression frames withTree text).reply = present withTree t value := by
  rw [evaluateExpression, hp]
  simp only [he]

theorem calculate_eq_ok_iff {text : String} {value : Int} :
    calculateWithin frames text = .ok value ↔
      ∃ t, parseWithin frames text = .ok t ∧ t.evaluate = .ok value :=
  bind_eq_ok_iff

theorem reply_iff_present {P : Reply → Prop} (noReport : ∀ out, ¬P (.text false out))
    {withTree : Bool} {text : String} :
    P (evaluateExpression frames withTree text).reply ↔
      ∃ t value, parseWithin frames text = .ok t ∧ t.evaluate = .ok value ∧
        P (present withTree t value) := by
  cases h : calculateWithin frames text with
  | error fault =>
    obtain ⟨out, reply⟩ := reply_of_calculate_error h withTree
    rw [reply]
    refine iff_of_false (noReport out) ?_
    rintro ⟨t, value, hp, he, _⟩
    cases h.symm.trans (calculate_eq_ok_iff.2 ⟨t, hp, he⟩)
  | ok value =>
    obtain ⟨t, hp, he⟩ := calculate_eq_ok_iff.1 h
    rw [reply_of_evaluate_ok hp he]
    refine ⟨fun presents => ⟨t, value, hp, he, presents⟩, ?_⟩
    rintro ⟨t', value', hp', he', presents⟩
    cases hp.symm.trans hp'
    cases he.symm.trans he'
    exact presents

theorem parse_empty (frames : Frames) :
    ∃ label, parseWithin frames "" = .error (.expected label .endOfInput) := by
  have tokens : Token.ofText "" = [] := by decide +kernel
  by_cases deep : NestsTooDeep frames ""
  · obtain ⟨found, mem, report⟩ := parseWithin_of_nestsTooDeep deep
    rw [tokens] at mem
    cases mem.resolve_left List.not_mem_nil
    exact ⟨_, report⟩
  · exact ⟨_, (parseWithin_of_complaint deep).2 ⟨"expression", .endOfInput⟩ (by rw [tokens]; rfl)⟩

theorem showGrouping_eq_broken_iff {text : String} {fault : Fault} :
    showGrouping frames text = .broken fault ↔
      fault = .unprintable ∧ (parseWithin frames text = .error .unprintable ∨
        ∃ t, parseWithin frames text = .ok t ∧ ¬t.Leaves Decimal.IsPrintable) := by
  rw [showGrouping]
  by_cases empty : text.isEmpty
  · obtain ⟨label, none⟩ := parse_empty frames
    rw [if_pos empty, String.isEmpty_iff.1 empty, none]
    simp
  · rw [if_neg empty]
    cases hp : parseWithin frames text with
    | ok t =>
      have leaves := leaves_of_parseWithin hp
      simp [replyOf_eq_broken_iff, Tree.render_eq_error_iff leaves]
    | error cause =>
      rcases isOfLine_of_parse hp with reported | rfl
      · have printable : cause ≠ .unprintable := by
          rintro rfl
          cases reported
        simp [reported, printable]
      · simp [Fault.isOfLine, eq_comm]

theorem exists_text_showGrouping {text : String} {fault : Fault}
    (h : parseWithin frames text = .error fault) (reported : fault ≠ .unprintable) :
    ∃ out, showGrouping frames text = .text false out := by
  rw [showGrouping]
  split
  · exact ⟨_, rfl⟩
  · rw [h]
    simp only [(isOfLine_of_parse h).resolve_right reported, if_true]
    exact ⟨_, rfl⟩

end Session

end LineCalc
