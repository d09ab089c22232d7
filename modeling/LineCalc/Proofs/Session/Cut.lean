import Mathlib.Data.List.TakeWhile
import LineCalc.Proofs.Session.Survival

/-! A session over many lines is a cut of answers that know nothing of each other. Which lines
it gets to is said first, without the session: blank lines are dropped, and nothing is kept
behind the first line that has to be the last one. -/
namespace LineCalc

/-- A list up to the first element with the property, with that element. -/
def upToFirst (p : α → Bool) : List α → List α
  | [] => []
  | a :: as => if p a then [a] else a :: upToFirst p as

instance Request.IsExit.decidable (line : String) : Decidable (Request.IsExit line) :=
  decidable_of_iff (Request.ofLine line = .leave) Request.ofLine_eq_leave_iff

namespace Session

open Request

namespace Reply

def isFailure : Reply → Bool
  | text ok _ => !ok
  | leave | broken _ => false

/-- What a session shows for a reply that does not break it. -/
def output? : Reply → Option Output
  | text ok out => some ⟨ok, out⟩
  | leave => some ⟨true, farewell⟩
  | broken _ => none

def fault? : Reply → Option Fault
  | broken fault => some fault
  | text _ _ | leave => none

theorem isFailure_iff {reply : Reply} {output : Output} (shown : reply.output? = some output) :
    reply.isFailure = true ↔ output.ok = false := by
  cases reply with
  | text ok out =>
    cases shown
    simp [isFailure]
  | leave =>
    cases shown
    exact iff_of_false nofun nofun
  | broken fault => cases shown

end Reply

def replyTo (frames : Parser.Frames) (settings : Settings) (line : String) : Reply :=
  (evaluateLine frames settings line).reply

/-- The session has to end with this line: it asks for that, or it fails where a failure
is to stop. -/
def IsLast (frames : Parser.Frames) (settings : Settings) (line : String) : Prop :=
  IsExit line ∨ settings.stopOnError = true ∧ (replyTo frames settings line).isFailure = true

instance (frames : Parser.Frames) (settings : Settings) (line : String) :
    Decidable (IsLast frames settings line) :=
  inferInstanceAs (Decidable (_ ∨ _ ∧ _))

/-- The lines that a session gets to, unless one of them breaks it. -/
def kept (frames : Parser.Frames) (settings : Settings) (lines : List String) : List String :=
  upToFirst (fun line => decide (IsLast frames settings line))
    (lines.filter fun line => decide (Text.strip line.toList ≠ []))

section Kept

variable {frames : Parser.Frames} {settings : Settings} {line : String}

theorem kept_of_blank (blank : Text.strip line.toList = []) (rest : List String) :
    kept frames settings (line :: rest) = kept frames settings rest := by
  rw [kept, kept, List.filter_cons_of_neg (by simp [blank])]

theorem kept_of_last (shown : Text.strip line.toList ≠ []) (last : IsLast frames settings line)
    (rest : List String) : kept frames settings (line :: rest) = [line] := by
  rw [kept, List.filter_cons_of_pos (by simp [shown]), upToFirst, if_pos (by simp [last])]

theorem kept_of_not_last (shown : Text.strip line.toList ≠ [])
    (goesOn : ¬IsLast frames settings line) (rest : List String) :
    kept frames settings (line :: rest) = line :: kept frames settings rest := by
  rw [kept, List.filter_cons_of_pos (by simp [shown]), upToFirst, if_neg (by simp [goesOn])]
  rfl

theorem step_of_blank (blank : Text.strip line.toList = []) (failed : Bool) :
    step frames settings failed line = ⟨[], [], failed, .proceed⟩ := by
  rw [step, if_pos (List.all_eq_true.2 (Text.strip_eq_nil_iff.1 blank))]

theorem step_of_not_blank (shown : Text.strip line.toList ≠ []) (failed : Bool) :
    step frames settings failed line = take settings failed (evaluateLine frames settings line) :=
  if_neg fun blank => shown (Text.strip_eq_nil_iff.2 (List.all_eq_true.1 blank))

theorem step_of_fault {fault : Fault} (shown : Text.strip line.toList ≠ [])
    (broken : (replyTo frames settings line).fault? = some fault) (failed : Bool) :
    step frames settings failed line =
      ⟨(evaluateLine frames settings line).log, [], failed, .broken fault⟩ := by
  rw [step_of_not_blank shown, take]
  rw [replyTo] at broken
  cases reply : (evaluateLine frames settings line).reply with
  | broken cause =>
    rw [reply] at broken
    cases broken
    rfl
  | text ok out | leave =>
    rw [reply] at broken
    cases broken

theorem exists_output_of_step (shown : Text.strip line.toList ≠ [])
    (whole : (replyTo frames settings line).fault? = none) (failed : Bool) :
    ∃ output, (replyTo frames settings line).output? = some output ∧
      step frames settings failed line =
        ⟨(evaluateLine frames settings line).log, [output], failed || !output.ok,
          if IsLast frames settings line then .stop else .proceed⟩ := by
  have exit : (evaluateLine frames settings line).reply = .leave ↔ IsExit line :=
    respond_eq_leave_iff.trans ofLine_eq_leave_iff
  rw [step_of_not_blank shown, take]
  simp only [IsLast, ← exit, replyTo] at whole ⊢
  cases reply : (evaluateLine frames settings line).reply with
  | text ok out =>
    refine ⟨⟨ok, out⟩, rfl, ?_⟩
    simp [Reply.isFailure, and_comm]
  | leave => exact ⟨⟨true, farewell⟩, rfl, by simp⟩
  | broken fault =>
    rw [reply] at whole
    cases whole

end Kept

def whole (frames : Parser.Frames) (settings : Settings) (lines : List String) : List String :=
  lines.takeWhile fun line => (replyTo frames settings line).fault?.isNone

def ending (frames : Parser.Frames) (settings : Settings) (lines : List String) : Next :=
  match lines.findSome? fun line => (replyTo frames settings line).fault? with
  | some fault => .broken fault
  | none => if ∃ line ∈ lines, IsLast frames settings line then .stop else .proceed

/-- The outcome of a session that gets to these lines, none of which depends on another. -/
structure Cut (frames : Parser.Frames) (settings : Settings) (failed : Bool) (lines : List String)
    (outcome : Outcome) : Prop where
  outputs : outcome.outputs.map some =
    (whole frames settings lines).map fun line => (replyTo frames settings line).output?
  failed : outcome.failed = (failed || outcome.outputs.any (!·.ok))
  next : outcome.next = ending frames settings lines

section Run

variable {frames : Parser.Frames} {settings : Settings} {failed : Bool} {line : String}
  {rest : List String}

theorem whole_of_fault {fault : Fault} (broken : (replyTo frames settings line).fault? = some fault)
    (rest : List String) : whole frames settings (line :: rest) = [] := by
  rw [whole, List.takeWhile_cons_of_neg (by simp [broken])]

theorem whole_cons (intact : (replyTo frames settings line).fault? = none) (rest : List String) :
    whole frames settings (line :: rest) = line :: whole frames settings rest := by
  rw [whole, List.takeWhile_cons_of_pos (by simp [intact])]
  rfl

theorem ending_of_fault {fault : Fault}
    (broken : (replyTo frames settings line).fault? = some fault) (rest : List String) :
    ending frames settings (line :: rest) = .broken fault := by
  rw [ending, List.findSome?_cons_of_isSome (by simp [broken])]
  simp [broken]

theorem ending_of_last (intact : (replyTo frames settings line).fault? = none)
    (last : IsLast frames settings line) : ending frames settings [line] = .stop := by
  simp [ending, intact, last]

theorem ending_cons (intact : (replyTo frames settings line).fault? = none)
    (goesOn : ¬IsLast frames settings line) (rest : List String) :
    ending frames settings (line :: rest) = ending frames settings rest := by
  simp [ending, intact, goesOn]

theorem run_of_proceed {first : Outcome} (h : step frames settings failed line = first)
    (proceeds : first.next = .proceed) (rest : List String) :
    run frames settings failed (line :: rest) =
      let others := run frames settings first.failed rest
      ⟨first.log ++ others.log, first.outputs ++ others.outputs, others.failed, others.next⟩ := by
  rw [run, h]
  simp only [proceeds]

theorem run_of_end {first : Outcome} (h : step frames settings failed line = first)
    (ends : first.next ≠ .proceed) (rest : List String) :
    run frames settings failed (line :: rest) = first := by
  rw [run, h]
  cases next : first.next with
  | proceed => exact absurd next ends
  | stop | broken fault => simp only

theorem run_filter_blank (frames : Parser.Frames) (settings : Settings) (failed : Bool)
    (lines : List String) :
    run frames settings failed (lines.filter fun line => decide (Text.strip line.toList ≠ [])) =
      run frames settings failed lines := by
  induction lines generalizing failed with
  | nil => rfl
  | cons line rest ih =>
    by_cases blank : Text.strip line.toList = []
    · rw [List.filter_cons_of_neg (by simp [blank]), ih,
        run_of_proceed (step_of_blank blank failed) rfl]
      rfl
    · rw [List.filter_cons_of_pos (by simp [blank])]
      by_cases proceeds : (step frames settings failed line).next = .proceed
      · rw [run_of_proceed rfl proceeds, run_of_proceed rfl proceeds, ih]
      · rw [run_of_end rfl proceeds, run_of_end rfl proceeds]

theorem Cut.cons {output : Output} {outcome : Outcome} (log : List Log.Record)
    (shown : (replyTo frames settings line).output? = some output)
    (intact : (replyTo frames settings line).fault? = none) (goesOn : ¬IsLast frames settings line)
    (others : Cut frames settings (failed || !output.ok) rest outcome) :
    Cut frames settings failed (line :: rest)
      ⟨log, output :: outcome.outputs, outcome.failed, outcome.next⟩ where
  outputs := by rw [whole_cons intact, List.map_cons, List.map_cons, others.outputs, shown]
  failed := by rw [others.failed, List.any_cons, Bool.or_assoc]
  next := by rw [ending_cons intact goesOn, others.next]

theorem cut_run (frames : Parser.Frames) (settings : Settings) (failed : Bool)
    (lines : List String) :
    Cut frames settings failed (kept frames settings lines) (run frames settings failed lines) := by
  induction lines generalizing failed with
  | nil => exact ⟨rfl, (Bool.or_false failed).symm, rfl⟩
  | cons line rest ih =>
    by_cases blank : Text.strip line.toList = []
    · rw [kept_of_blank blank, run_of_proceed (step_of_blank blank failed) rfl]
      exact ih failed
    · cases broken : (replyTo frames settings line).fault? with
      | some fault =>
        rw [run_of_end (step_of_fault blank broken failed) nofun]
        have first : ∃ others, kept frames settings (line :: rest) = line :: others := by
          by_cases last : IsLast frames settings line
          · exact ⟨[], kept_of_last blank last rest⟩
          · exact ⟨_, kept_of_not_last blank last rest⟩
        obtain ⟨others, first⟩ := first
        rw [first]
        exact ⟨by rw [whole_of_fault broken]; rfl, (Bool.or_false failed).symm,
          (ending_of_fault broken others).symm⟩
      | none =>
        obtain ⟨output, shown, first⟩ := exists_output_of_step blank broken failed
        by_cases last : IsLast frames settings line
        · rw [if_pos last] at first
          rw [kept_of_last blank last, run_of_end first nofun]
          refine ⟨?_, ?_, (ending_of_last broken last).symm⟩
          · rw [whole_cons broken, List.map_cons, List.map_cons, shown]
            rfl
          · simp
        · rw [if_neg last] at first
          rw [kept_of_not_last blank last, run_of_proceed first rfl]
          exact (ih (failed || !output.ok)).cons _ shown broken last

end Run

/-- The flag is all that a line takes over from the lines before it. -/
theorem step_eq_fresh (frames : Parser.Frames) (settings : Settings) (failed : Bool)
    (line : String) :
    step frames settings failed line =
      let fresh := step frames settings false line
      ⟨fresh.log, fresh.outputs, failed || fresh.failed, fresh.next⟩ := by
  by_cases blank : Text.strip line.toList = []
  · simp [step_of_blank blank]
  · rw [step_of_not_blank blank, step_of_not_blank blank, take, take]
    cases (evaluateLine frames settings line).reply <;> simp

theorem run_singleton (frames : Parser.Frames) (settings : Settings) (failed : Bool)
    (line : String) :
    run frames settings failed [line] = step frames settings failed line := by
  by_cases proceeds : (step frames settings failed line).next = .proceed
  · rw [run_of_proceed rfl proceeds]
    simp [run_nil, ← proceeds]
  · exact run_of_end rfl proceeds []

theorem outputs_of_step_broken {frames : Parser.Frames} {settings : Settings} {failed : Bool}
    {line : String} {fault : Fault} (h : (step frames settings failed line).next = .broken fault) :
    (step frames settings failed line).outputs = [] := by
  by_cases blank : Text.strip line.toList = []
  · rw [step_of_blank blank]
  · rw [step_of_not_blank blank] at h ⊢
    rw [take, take_eq_broken_iff.1 h]

/-- What breaks a session is one line, and it shows what the lines before it show. -/
theorem exists_lines_of_run_broken {frames : Parser.Frames} {settings : Settings} {failed : Bool}
    {lines : List String} {fault : Fault}
    (h : (run frames settings failed lines).next = .broken fault) :
    ∃ before line after, lines = before ++ line :: after ∧
      (run frames settings failed before).next = .proceed ∧
      (run frames settings false [line]).next = .broken fault ∧
      (run frames settings failed lines).outputs = (run frames settings failed before).outputs := by
  induction lines generalizing failed with
  | nil => cases h
  | cons line rest ih =>
    by_cases proceeds : (step frames settings failed line).next = .proceed
    · rw [run_of_proceed rfl proceeds] at h ⊢
      obtain ⟨before, last, after, rfl, passed, broken, same⟩ := ih h
      refine ⟨line :: before, last, after, rfl, ?_⟩
      rw [run_of_proceed rfl proceeds]
      exact ⟨passed, broken, congrArg (_ ++ ·) same⟩
    · rw [run_of_end rfl proceeds] at h ⊢
      refine ⟨[], line, rest, rfl, rfl, ?_, outputs_of_step_broken h⟩
      rw [run_singleton, step_eq_fresh] at *
      exact h

theorem whole_eq_self {frames : Parser.Frames} {settings : Settings} {lines : List String}
    (intact : ∀ line ∈ lines, (replyTo frames settings line).fault? = none) :
    whole frames settings lines = lines :=
  List.takeWhile_eq_self_iff.2 fun line mem => by simp [intact line mem]

theorem ending_of_intact {frames : Parser.Frames} {settings : Settings} {lines : List String}
    (intact : ∀ line ∈ lines, (replyTo frames settings line).fault? = none) :
    ending frames settings lines =
      if ∃ line ∈ lines, IsLast frames settings line then .stop else .proceed := by
  rw [ending, List.findSome?_eq_none_iff.2 intact]

theorem fault?_of_broken {frames : Parser.Frames} {settings : Settings} {line : String}
    {fault : Fault} (broken : replyTo frames settings line = .broken fault) :
    (replyTo frames settings line).fault? = some fault := by
  rw [broken]
  rfl

theorem whole_append_fault {frames : Parser.Frames} {settings : Settings} {before : List String}
    {line : String} {fault : Fault}
    (intact : ∀ line ∈ before, (replyTo frames settings line).fault? = none)
    (broken : replyTo frames settings line = .broken fault) (after : List String) :
    whole frames settings (before ++ line :: after) = before := by
  rw [whole, List.takeWhile_append_of_pos fun line mem => by simp [intact line mem]]
  rw [← whole, whole_of_fault (fault?_of_broken broken), List.append_nil]

theorem ending_append_fault {frames : Parser.Frames} {settings : Settings} {before : List String}
    {line : String} {fault : Fault}
    (intact : ∀ line ∈ before, (replyTo frames settings line).fault? = none)
    (broken : replyTo frames settings line = .broken fault) (after : List String) :
    ending frames settings (before ++ line :: after) = .broken fault := by
  rw [ending, List.findSome?_append, List.findSome?_eq_none_iff.2 intact,
    List.findSome?_cons_of_isSome (by simp [fault?_of_broken broken])]
  simp [fault?_of_broken broken]

theorem any_failed_iff {frames : Parser.Frames} {settings : Settings} {lines : List String}
    {outputs : List Output}
    (h : outputs.map some = lines.map fun line => (replyTo frames settings line).output?) :
    (∃ output ∈ outputs, output.ok = false) ↔
      ∃ line ∈ lines, (replyTo frames settings line).isFailure = true := by
  constructor
  · rintro ⟨output, mem, fails⟩
    have shown : some output ∈ outputs.map some := List.mem_map_of_mem mem
    rw [h] at shown
    obtain ⟨line, mem, reply⟩ := List.mem_map.1 shown
    exact ⟨line, mem, (Reply.isFailure_iff reply).2 fails⟩
  · rintro ⟨line, mem, fails⟩
    have shown : (replyTo frames settings line).output? ∈ outputs.map some := by
      rw [h]
      exact List.mem_map_of_mem mem
    obtain ⟨output, mem, reply⟩ := List.mem_map.1 shown
    exact ⟨output, mem, (Reply.isFailure_iff reply.symm).1 fails⟩

/-- Without a break, a session shows the reply to each kept line, in their order. A break lets
only the lines in front of it be shown and counted. Two runs one after the other are one run
over all their lines, unless the first is ended by one of its own. -/
theorem run_eq_cut (frames : Parser.Frames) (settings : Settings) (failed : Bool)
    (lines : List String) :
    let outcome := run frames settings failed lines
    ((∀ line ∈ kept frames settings lines, (replyTo frames settings line).fault? = none) →
      outcome.outputs.map some =
          ((kept frames settings lines).map fun line => (replyTo frames settings line).output?) ∧
        (outcome.failed = true ↔ failed = true ∨ ∃ output ∈ outcome.outputs, output.ok = false) ∧
        outcome.next =
          if ∃ line ∈ kept frames settings lines, IsLast frames settings line then .stop
          else .proceed) ∧
    (∀ before line after fault, kept frames settings lines = before ++ line :: after →
      (∀ other ∈ before, (replyTo frames settings other).fault? = none) →
      replyTo frames settings line = .broken fault →
        outcome.next = .broken fault ∧ fault = .unprintable ∧
        outcome.outputs.map some =
            (before.map fun other => (replyTo frames settings other).output?) ∧
        (outcome.failed = true ↔
          failed = true ∨ ∃ other ∈ before, (replyTo frames settings other).isFailure = true)) ∧
    ((∀ line ∈ kept frames settings lines,
        (replyTo frames settings line).fault? = none ∧ ¬IsLast frames settings line) →
      ∀ more, run frames settings failed (lines ++ more) =
        let others := run frames settings outcome.failed more
        ⟨outcome.log ++ others.log, outcome.outputs ++ others.outputs, others.failed,
          others.next⟩) := by
  intro outcome
  have cut : Cut frames settings failed (kept frames settings lines) outcome :=
    cut_run frames settings failed lines
  refine ⟨fun intact => ?_, fun before line after fault split intact broken => ?_,
    fun goOn more => ?_⟩
  · refine ⟨?_, ?_, ?_⟩
    · rw [cut.outputs, whole_eq_self intact]
    · simp [cut.failed]
    · rw [cut.next, ending_of_intact intact]
  · obtain ⟨outputs, flag, next⟩ := cut
    rw [split, whole_append_fault intact broken] at outputs
    rw [split, ending_append_fault intact broken] at next
    refine ⟨next, (respond_eq_broken_iff.1 broken).1, outputs, ?_⟩
    rw [← any_failed_iff outputs, flag]
    simp
  · refine run_append_of_proceed ?_ more
    have intact := fun line mem => (goOn line mem).1
    have none : ¬∃ line ∈ kept frames settings lines, IsLast frames settings line := by
      rintro ⟨line, mem, last⟩
      exact (goOn line mem).2 last
    rw [cut.next, ending_of_intact intact, if_neg none]

theorem run_until_quit :
    kept (.atMost 20) (.default (.only "/root")) ["7/(2-2)", " ", ":quit", "2"] =
        ["7/(2-2)", ":quit"] ∧
      (∀ line ∈ ["7/(2-2)", ":quit"],
        (replyTo (.atMost 20) (.default (.only "/root")) line).fault? = none) ∧
        (run (.atMost 20) (.default (.only "/root")) false
            ["7/(2-2)", " ", ":quit", "2"]).outputs.map some =
          [some ⟨false, "Error: Division by zero"⟩, some ⟨true, "Exiting."⟩] ∧
          (run (.atMost 20) (.default (.only "/root")) false
            ["7/(2-2)", " ", ":quit", "2"]).failed = true := by
  let settings := Settings.default (.only "/root")
  let lines := ["7/(2-2)", " ", ":quit", "2"]
  have cut : kept (.atMost 20) settings lines = ["7/(2-2)", ":quit"] := by decide +kernel
  have request : Request.ofLine "7/(2-2)" = .expression "7/(2-2)" := by decide +kernel
  have tokens : Token.ofText "7/(2-2)" = [.number 7, .operator "/", .leftParen, .number 2,
      .operator "-", .number 2, .rightParen] := by decide +kernel
  have tree : parseWithin (.atMost 20) "7/(2-2)" = .ok (.infixed (.number 7) .divide
      (.infixed (.number 2) .subtract (.number 2))) := by
    rw [parseWithin, tokens]
    cbv
  have value : (Tree.infixed (.number 7) .divide
      (.infixed (.number 2) .subtract (.number 2))).evaluate = .error .divisionByZero := by cbv
  have failure : replyTo (.atMost 20) settings "7/(2-2)" =
      .text false "Error: Division by zero" := by
    rw [replyTo, evaluateLine, request, respond, evaluateExpression, tree]
    simp only [value]
    rfl
  have quit : replyTo (.atMost 20) settings ":quit" = .leave := by decide +kernel
  have intact : ∀ line ∈ ["7/(2-2)", ":quit"],
      (replyTo (.atMost 20) settings line).fault? = none := by
    simp [failure, quit, Reply.fault?]
  have result := (run_eq_cut (.atMost 20) settings false lines).1
  rw [cut] at result
  obtain ⟨outputs, flag, -⟩ := result intact
  have shown : (run (.atMost 20) settings false lines).outputs.map some =
      [some ⟨false, "Error: Division by zero"⟩, some ⟨true, "Exiting."⟩] := by
    rw [outputs, List.map_cons, List.map_cons, List.map_nil, failure, quit]
    rfl
  refine ⟨cut, intact, shown, flag.2 (.inr ⟨⟨false, "Error: Division by zero"⟩, ?_, rfl⟩)⟩
  have mem : some ⟨false, "Error: Division by zero"⟩ ∈
      (run (.atMost 20) settings false lines).outputs.map some := by
    rw [shown]
    exact List.mem_cons_self
  simpa using mem

end Session

end LineCalc
