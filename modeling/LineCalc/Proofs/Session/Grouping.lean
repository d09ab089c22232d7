import LineCalc.Proofs.Session.Answers

/-! Asking for the tree of a text, evaluating it and evaluating it with its tree shown. They strip
and split the line in different ways, but each comes to read the same text; so they show one tree,
or make one report if the text cannot be read. Only the limit on the frames can come between them,
as the request for the tree has fewer left. -/
namespace LineCalc.Session

open Decimal Request

variable {frames : Parser.Frames}

theorem parse_ne_ok_of_empty {t : Tree} : parseWithin frames "" ≠ .ok t := by
  obtain ⟨label, none⟩ := parse_empty frames
  simp [none]

theorem showGrouping_of_parse {text : String} {t : Tree} (h : parseWithin frames text = .ok t) :
    showGrouping frames text = replyOf t.render := by
  have full : ¬text.isEmpty := by
    intro empty
    rw [String.isEmpty_iff.1 empty] at h
    exact parse_ne_ok_of_empty h
  rw [showGrouping, if_neg full, h]

theorem showGrouping_of_parse_error {text : String} {fault : Fault} (full : text ≠ "")
    (h : parseWithin frames text = .error fault) (reported : fault.isOfLine) :
    showGrouping frames text = .text false (errorText fault) := by
  rw [showGrouping, if_neg (mt String.isEmpty_iff.1 full), h]
  simp only [reported, if_true]

theorem showGrouping_eq_ok_iff {text shown : String} :
    showGrouping frames text = .text true shown ↔
      ∃ t, parseWithin frames text = .ok t ∧ t.render = .ok shown := by
  cases hp : parseWithin frames text with
  | ok t => simp [showGrouping_of_parse hp, replyOf_eq_text_iff]
  | error fault =>
    refine iff_of_false (fun h => ?_) (by simp)
    rw [showGrouping, hp] at h
    split at h
    · cases h
    · dsimp only at h
      split at h <;> cases h

section Text

variable {text : String}

/-- What cannot be shown as a tree is reported in the same words when its value is asked for. -/
theorem reply_of_showGrouping {report : String} (full : text ≠ "")
    (h : showGrouping frames text = .text false report) (withTree : Bool) :
    (evaluateExpression frames withTree text).reply = .text false report := by
  cases hp : parseWithin frames text with
  | ok t =>
    rw [showGrouping_of_parse hp] at h
    cases (replyOf_eq_text_iff.1 h).1
  | error fault =>
    rw [reply_eq_reject (bind_eq_error_iff.2 (.inl hp))]
    rcases isOfLine_of_parse hp with reported | rfl
    · rw [reject_of_isOfLine reported, ← h, showGrouping_of_parse_error full hp reported]
    · -- A token that cannot be printed breaks off the request for the tree, so there is no report.
      rw [showGrouping_eq_broken_iff.2 ⟨rfl, .inl hp⟩] at h
      cases h

theorem showGrouping_below_eq_ok_iff (frames : Parser.Frames) {depth : Nat} {shown : String} :
    showGrouping (frames.below depth) text = .text true shown ↔
      ¬NestsTooDeep (frames.below depth) text ∧
        ∃ t, parseWithin frames text = .ok t ∧ t.render = .ok shown := by
  rw [showGrouping_eq_ok_iff]
  constructor
  · rintro ⟨t, read, rendered⟩
    have fits := not_nestsTooDeep_of_ok read
    exact ⟨fits, t, (parseWithin_eq_of_le (frames.below_le depth) fits).trans read, rendered⟩
  · rintro ⟨fits, t, read, rendered⟩
    exact ⟨t, (parseWithin_eq_of_le (frames.below_le depth) fits).symm.trans read, rendered⟩

variable (short : ∀ n, .number n ∈ Token.ofText text → IsPrintable n)

include short

theorem render_of_parse {t : Tree} (h : parseWithin frames text = .ok t) :
    t.render = .ok t.shown :=
  Tree.render_eq_ok_iff.2 ⟨printable_of_parse short h, rfl⟩

theorem exists_text_of_short (frames : Parser.Frames) :
    ∃ ok out, showGrouping frames text = .text ok out := by
  cases h : showGrouping frames text with
  | text ok out => exact ⟨ok, out, rfl⟩
  | leave => exact absurd h (showGrouping_ne_leave frames text)
  | broken fault =>
    obtain ⟨rfl, refused | ⟨t, read, large⟩⟩ := showGrouping_eq_broken_iff.1 h
    · exact absurd rfl (ne_unprintable_of_parse short refused)
    · exact absurd (printable_of_parse short read) large

theorem showGrouping_of_nestsTooDeep (full : text ≠ "") (deep : NestsTooDeep frames text) :
    ∃ found, (found ∈ Token.ofText text ∨ found = .endOfInput) ∧
      showGrouping frames text = .text false (errorText (.expected "shallower nesting" found)) := by
  obtain ⟨found, mem, report⟩ := parseWithin_of_nestsTooDeep deep
  have named : Fault.expecting "shallower nesting" found = .expected "shallower nesting" found := by
    refine Fault.expecting_of_not_isOversized ?_ _
    rintro ⟨n, rfl, long⟩
    exact Nat.not_le.2 long ((isPrintable_iff n).1 (short n (mem.resolve_right nofun)))
  rw [named] at report
  exact ⟨found, mem, showGrouping_of_parse_error full report rfl⟩

theorem reply_under_tree {out : String}
    (h : (evaluateExpression frames false text).reply = .text true out) :
    ∃ t shown, parseWithin frames text = .ok t ∧ t.render = .ok shown ∧
      (evaluateExpression frames true text).reply = .text true (shown ++ "\n" ++ out) := by
  obtain ⟨t, v, read, value, printable, printed⟩ := evaluateExpression_eq_ok_iff.1 h
  cases printed_false_iff.1 printed
  have shows := render_of_parse short read
  exact ⟨t, t.shown, read, shows,
    evaluateExpression_eq_ok_iff.2 ⟨t, v, read, value, printable, .grouped shows⟩⟩

end Text

def treeLine (gap text : String) : String := ":tree" ++ gap ++ text

/-- How the reply to the request for a tree goes together with the replies to the text itself. -/
structure ShownAlike (frames : Parser.Frames) (settings : Settings) (asked : Reply)
    (text : String) : Prop where
  answered : ∃ ok out, asked = .text ok out
  rendered : ∀ t, parseWithin frames (Text.stripped text) = .ok t → ∃ shown, t.render = .ok shown
  shown : ∀ shown, asked = .text true shown ↔
    ¬NestsTooDeep (frames.below 2) (Text.stripped text) ∧
      ∃ t, parseWithin frames (Text.stripped text) = .ok t ∧ t.render = .ok shown
  refused : ¬NestsTooDeep (frames.below 2) (Text.stripped text) →
    ∀ report, asked = .text false report →
      ∀ s, (evaluateLine frames s text).reply = .text false report
  tooDeep : NestsTooDeep (frames.below 2) (Text.stripped text) →
    ∃ found, (found ∈ Token.ofText text ∨ found = .endOfInput) ∧
      asked = .text false (errorText (.expected "shallower nesting" found))
  grouped : ∀ out,
    (evaluateLine frames { settings with showTree := false } text).reply = .text true out →
      ∃ t shown, parseWithin frames (Text.stripped text) = .ok t ∧ t.render = .ok shown ∧
        (evaluateLine frames { settings with showTree := true } text).reply =
          .text true (shown ++ "\n" ++ out)
  valueless : ∀ t fault, parseWithin frames (Text.stripped text) = .ok t →
    t.evaluate = .error fault →
      ∀ s, (evaluateLine frames s text).reply = .text false (errorText fault)

theorem reply_treeLine (frames : Parser.Frames) (settings : Settings) {gap text : String}
    (apart : gap ≠ "") (blank : ∀ c ∈ gap.toList, Text.isBlank c)
    (full : ∃ c ∈ text.toList, ¬Text.isBlank c) :
    (evaluateLine frames settings (treeLine gap text)).reply =
      showGrouping (frames.below 2) (Text.stripped text) := by
  rw [evaluateLine, treeLine, ofLine_tree apart blank full, respond]

/-- For a text that is no command, asking for its tree shows the tree if the text can be read,
whether or not it has a value, and makes the report of the text itself if it cannot. But the limit
on the frames is met sooner there, and then it is reported and nothing else. Showing trees puts the
tree above the value, and changes nothing where there is no value. -/
theorem reply_of_treeLine (frames : Parser.Frames) (settings : Settings) {gap text : String}
    (apart : gap ≠ "") (blank : ∀ c ∈ gap.toList, Text.isBlank c)
    (full : ∃ c ∈ text.toList, ¬Text.isBlank c) (plain : ¬IsCommand text)
    (short : ∀ n, .number n ∈ Token.ofText text → digitCount n ≤ digitLimit) :
    ShownAlike frames settings (evaluateLine frames settings (treeLine gap text)).reply text := by
  have answered : ∀ s, (evaluateLine frames s text).reply =
      (evaluateExpression frames s.showTree (Text.stripped text)).reply := by
    intro s
    rw [evaluateLine, ofLine_eq_expression_iff.2 ⟨plain, rfl⟩, respond]
  have solid : Text.stripped text ≠ "" := by
    obtain ⟨c, mem, noBlank⟩ := full
    intro none
    exact noBlank (Text.strip_eq_nil_iff.1 (String.ofList_eq_empty_iff.1 none) c mem)
  have printable : ∀ n, .number n ∈ Token.ofText (Text.stripped text) → IsPrintable n :=
    fun n mem => (isPrintable_iff n).2 (short n (Token.mem_ofText_of_mem_stripped mem))
  rw [reply_treeLine frames settings apart blank full]
  refine
    { answered := exists_text_of_short printable _
      rendered := fun t read => ⟨_, render_of_parse printable read⟩
      shown := fun shown => showGrouping_below_eq_ok_iff frames
      refused := fun fits report refused s => ?_
      tooDeep := fun deep => ?_
      grouped := fun out value => ?_
      valueless := fun t fault read failed s => ?_ }
  · have same := parseWithin_eq_of_le (frames.below_le 2) fits
    rw [answered, reply_of_parse_eq same]
    exact reply_of_showGrouping solid refused s.showTree
  · obtain ⟨found, mem, reply⟩ := showGrouping_of_nestsTooDeep printable solid deep
    exact ⟨found, mem.imp_left Token.mem_ofText_of_mem_stripped, reply⟩
  · rw [answered] at value ⊢
    exact reply_under_tree printable value
  · rw [answered]
    exact reply_of_evaluate_error read failed s.showTree

theorem reply_of_treeLine_difference :
    (evaluateLine (.atMost 20) (.default (.only "/root")) (treeLine "\n\t" "\n2-5 ")).reply =
        .text true "(2 - 5)" ∧
      (evaluateLine (.atMost 20) { Settings.default (.only "/root") with showTree := true }
        "\n2-5 ").reply = .text true "(2 - 5)\n-3" := by
  let settings := Settings.default (.only "/root")
  have request : Request.ofLine "\n2-5 " = .expression "2-5" := by decide +kernel
  obtain ⟨plain, same⟩ := ofLine_eq_expression_iff.1 request
  have tokens : Token.ofText "2-5" = [.number 2, .operator "-", .number 5] := by decide +kernel
  have read : parseWithin ((Parser.Frames.atMost 20).below 2) "2-5" =
      .ok (.infixed (.number 2) .subtract (.number 5)) := by
    rw [parseWithin, tokens]
    cbv
  have fits := not_nestsTooDeep_of_ok read
  have read : parseWithin (.atMost 20) "2-5" = .ok (.infixed (.number 2) .subtract (.number 5)) :=
    (parseWithin_eq_of_le (Parser.Frames.below_le _ 2) fits).trans read
  have value : (Tree.infixed (.number 2) .subtract (.number 5)).evaluate = .ok (-3) := by
    rw [Tree.evaluate_eq_fold]
    rfl
  have answer : (evaluateLine (.atMost 20) { settings with showTree := false } "\n2-5 ").reply =
      .text true (-3 : Int).repr := by
    rw [evaluateLine, request, respond]
    exact evaluateExpression_eq_ok_iff.2 ⟨_, -3, read, value, by decide +kernel, .value⟩
  have blank : ∀ c ∈ "\n\t".toList, Text.isBlank c := List.all_eq_true.1 (by decide)
  have short : ∀ n, .number n ∈ Token.ofText "\n2-5 " → digitCount n ≤ digitLimit := by
    have tokens : Token.ofText "\n2-5 " =
        [.operator "\n", .number 2, .operator "-", .number 5] := by decide +kernel
    rw [tokens]
    intro n mem
    rcases (by simpa using mem : n = 2 ∨ n = 5) with rfl | rfl <;> decide
  have alike := reply_of_treeLine (.atMost 20) settings (by decide) blank
    ⟨'2', by decide, by decide⟩ plain short
  have tree : (Tree.infixed (.number 2) .subtract (.number 5)).render = .ok "(2 - 5)" :=
    Tree.render_eq_ok_iff.2 ⟨by decide +kernel, rfl⟩
  refine ⟨(alike.shown "(2 - 5)").2 ⟨same ▸ fits, _, same ▸ read, tree⟩, ?_⟩
  obtain ⟨t, shown, again, rendered, under⟩ := alike.grouped _ answer
  cases (same ▸ read).symm.trans again
  cases tree.symm.trans rendered
  exact under

theorem evaluate_signedTree_even (n half : Nat) : (signedTree n (2 * half)).evaluate = .ok n := by
  rw [Tree.evaluate_eq_fold]
  induction half with
  | zero => rfl
  | succ half ih =>
    have twice : 2 * (half + 1) = 2 * half + 1 + 1 := rfl
    rw [twice, signedTree, signedTree, Tree.fold, Tree.fold, ih]
    exact congrArg Except.ok (Int.neg_neg n)

/-- Under an even number of signs a numeral has its value and is shown as a line, but with just the
frames that this takes its tree is refused. -/
theorem reply_treeLine_signed (half : Nat) (settings : Settings)
    (plain : settings.showTree = false) :
    ¬IsCommand (signed (2 * half) 1) ∧
      (evaluateLine (.atMost (2 * half + 2)) settings (signed (2 * half) 1)).reply =
        .text true "1" ∧
      (evaluateLine (.atMost (2 * half + 2)) settings (treeLine " " (signed (2 * half) 1))).reply =
        .text false "Error: Expected shallower nesting, got Number(1)" := by
  have read := parseWithin_signed (2 * half) 1
  obtain ⟨text, request, tokens⟩ := exists_expression_of_parseWithin read
  obtain ⟨noCommand, rfl⟩ := ofLine_eq_expression_iff.1 request
  have deep : parseWithin (.atMost (2 * half)) (Text.stripped (signed (2 * half) 1)) =
      .error (.expecting "shallower nesting" (.number 1)) := by
    rw [parseWithin, tokens]
    exact parseWithin_signed_tooDeep (2 * half) 1 Nat.two_pos
  have solid : Text.stripped (signed (2 * half) 1) ≠ "" := by
    intro none
    rw [none] at tokens
    rw [parseWithin, ← tokens] at read
    exact parse_ne_ok_of_empty read
  have full : ∃ c ∈ (signed (2 * half) 1).toList, ¬Text.isBlank c :=
    ⟨'1', by simp [signed, Nat.toDigits_of_lt_base], by decide⟩
  have blank : ∀ c ∈ " ".toList, Text.isBlank c := List.all_eq_true.1 (by decide)
  have reported : (Fault.expecting "shallower nesting" (.number 1)).isOfLine := by decide +kernel
  have report : errorText (.expecting "shallower nesting" (.number 1)) =
      "Error: Expected shallower nesting, got Number(1)" := by decide +kernel
  refine ⟨noCommand, ?_, ?_⟩
  · rw [reply_of_readable read, plain]
    exact evaluateExpression_eq_ok_iff.2
      ⟨_, 1, read, evaluate_signedTree_even 1 half, by decide +kernel, .value⟩
  · rw [reply_treeLine _ _ (by decide) blank full, ← report]
    exact showGrouping_of_parse_error solid deep reported

theorem treeLine_refused_alone :
    ¬IsCommand (signed 986 1) ∧
      (evaluateLine (.atMost 988) (.default (.only "/root")) (signed 986 1)).reply =
        .text true "1" ∧
      (evaluateLine (.atMost 988) (.default (.only "/root"))
          (treeLine " " (signed 986 1))).reply =
        .text false "Error: Expected shallower nesting, got Number(1)" :=
  reply_treeLine_signed 493 _ rfl

end LineCalc.Session
