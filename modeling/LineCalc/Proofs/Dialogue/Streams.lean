import LineCalc.Program
import LineCalc.Proofs.Dialogue.Agreement
import LineCalc.Proofs.Text.Lines
import LineCalc.Settings.Lenient

/-! What a dialogue leaves on each of its streams, and the status that a program gives. Prompts,
output and errors are parts of what is said, so each is read off the events that were heard. -/
namespace LineCalc

namespace Session

def texts (ok : Bool) (outputs : List Output) : List String :=
  (outputs.filter (·.ok == ok)).map (·.text)

theorem texts_append (ok : Bool) (a b : List Output) :
    texts ok (a ++ b) = texts ok a ++ texts ok b := by
  rw [texts, List.filter_append, List.map_append]
  rfl

theorem run_append_empty (frames : Parser.Frames) (settings : Settings) (failed : Bool)
    (lines : List String) :
    run frames settings failed (lines ++ [""]) = run frames settings failed lines := by
  rw [← run_filter_blank frames settings failed (lines ++ [""]), List.filter_append,
    List.filter_cons_of_neg (by decide), List.filter_nil, List.append_nil, run_filter_blank]

end Session

namespace Dialogue

open Session (texts texts_append)

theorem filterMap_spoken {f : Emission → Option String} (h : ∀ record, f (.log record) = none)
    (emissions : List Emission) :
    (emissions.filter Emission.isSpoken).filterMap f = emissions.filterMap f := by
  rw [List.filterMap_filter]
  congr 1
  funext emission
  cases emission with
  | log record => exact (h record).symm
  | prompt text | out text | err text => rfl

theorem err?_ofOutput (outputs : List Session.Output) :
    (outputs.map ofOutput).filterMap Emission.err? = texts false outputs := by
  induction outputs with
  | nil => rfl
  | cons output rest ih =>
    obtain ⟨ok, text⟩ := output
    cases ok with
    | true => exact ih
    | false => exact congrArg (text :: ·) ih

theorem out?_ofOutput (outputs : List Session.Output) :
    (outputs.map ofOutput).filterMap Emission.out? = texts true outputs := by
  induction outputs with
  | nil => rfl
  | cons output rest ih =>
    obtain ⟨ok, text⟩ := output
    cases ok with
    | true => exact congrArg (text :: ·) ih
    | false => exact ih

theorem prompt?_ofOutput (outputs : List Session.Output) :
    (outputs.map ofOutput).filterMap Emission.prompt? = [] := by
  refine List.filterMap_eq_nil_iff.2 fun emission mem => ?_
  obtain ⟨⟨ok, text⟩, -, rfl⟩ := List.mem_map.1 mem
  cases ok <;> rfl

section Said

variable (frames : Parser.Frames) (settings : Settings)

theorem prompt?_said (events : List Event) :
    (events.flatMap (said frames settings)).filterMap Emission.prompt? =
      List.replicate events.length settings.prompt := by
  induction events with
  | nil => rfl
  | cons event rest ih =>
    have first : Emission.prompt? (.prompt settings.prompt) = some settings.prompt := rfl
    rw [List.flatMap_cons, List.filterMap_append, ih, said, List.filterMap_cons_some first,
      prompt?_ofOutput]
    rfl

theorem out?_said (events : List Event) :
    (events.flatMap (said frames settings)).filterMap Emission.out? =
      texts true (events.flatMap (shown frames settings)) := by
  induction events with
  | nil => rfl
  | cons event rest ih =>
    rw [List.flatMap_cons, List.filterMap_append, ih, said, List.filterMap_cons_none rfl,
      out?_ofOutput, List.flatMap_cons, texts_append]

theorem err?_said (events : List Event) :
    (events.flatMap (said frames settings)).filterMap Emission.err? =
      texts false ((events.filterMap Event.line?).flatMap fun line =>
        (Session.run frames settings false [line]).outputs) := by
  induction events with
  | nil => rfl
  | cons event rest ih =>
    rw [List.flatMap_cons, List.filterMap_append, ih, said, List.filterMap_cons_none rfl,
      err?_ofOutput]
    cases event with
    | line text =>
      have first : Event.line? (.line text) = some text := rfl
      rw [List.filterMap_cons_some first, List.flatMap_cons, texts_append]
      rfl
    | interrupt | endOfInput => rfl

end Said

theorem failed_hold (frames : Parser.Frames) (settings : Settings) (events : List Event) :
    (hold frames settings events).failed = (turns frames settings false events).failed := by
  rw [hold]
  cases (turns frames settings false events).next <;> rfl

theorem next_hold (frames : Parser.Frames) (settings : Settings) (events : List Event) :
    (hold frames settings events).next = (turns frames settings false events).next := by
  rw [hold]
  cases (turns frames settings false events).next <;> rfl

/-- The opening is a banner, and the closing is only logged. -/
theorem spoken_hold (frames : Parser.Frames) (settings : Settings) (events : List Event) :
    (hold frames settings events).emissions.filter Emission.isSpoken =
      .out banner :: (turns frames settings false events).emissions.filter Emission.isSpoken := by
  have closed : closing.filter Emission.isSpoken = [] := rfl
  have opened : (opening settings).filter Emission.isSpoken = [.out banner] := rfl
  rw [hold]
  cases (turns frames settings false events).next <;>
    simp only [List.filter_append, opened, closed, List.append_nil, List.singleton_append]

theorem filterMap_hold {f : Emission → Option String} (unlogged : ∀ record, f (.log record) = none)
    (settings : Settings) (events : List Event) :
    (hold frames settings events).emissions.filterMap f =
      (f (.out banner)).toList ++
        ((heard frames settings events).flatMap (said frames settings)).filterMap f ++
        (parting (heard frames settings events)).filterMap f := by
  rw [← filterMap_spoken unlogged, spoken_hold, (agrees_turns frames settings false events).spoken]
  cases h : f (.out banner) with
  | none => rw [List.filterMap_cons_none h, List.filterMap_append]; rfl
  | some text => rw [List.filterMap_cons_some h, List.filterMap_append]; rfl

theorem filterMap_parting {f : Emission → Option String}
    (silent : f (.out Session.farewell) = none) (events : List Event) :
    (parting events).filterMap f = [] := by
  rw [parting]
  split
  · exact List.filterMap_cons_none silent
  · rfl

theorem out?_parting (events : List Event) :
    (parting events).filterMap Emission.out? =
      if .endOfInput ∈ events then [Session.farewell] else [] := by
  rw [parting]
  split <;> rfl

/-- A program gives the same status on a terminal and on a piped text of the same lines. -/
theorem ending_of_lines {frames : Parser.Frames} {settings : Settings} {events : List Event}
    {text : String}
    (same : Session.run frames settings false (Text.lines text) =
      Session.run frames settings false (typed events)) :
    (Program.converse frames settings events).2 = (Program.pipe frames settings text).2 := by
  have agrees := agrees_turns frames settings false events
  rw [Program.converse, Program.pipe, failed_hold, next_hold, agrees.failed, agrees.next, same]
  cases next : (Session.run frames settings false (typed events)).next <;> rfl

theorem run_of_text {frames : Parser.Frames} {settings : Settings} {lines : List String}
    {text : String} (h : ∀ line ∈ lines, Text.IsOneLine line)
    (put : text = "\n".intercalate lines ∨ text = String.join (lines.map (· ++ "\n"))) :
    Session.run frames settings false (Text.lines text) =
      Session.run frames settings false lines := by
  rcases put with rfl | rfl
  · rcases Text.lines_intercalate h with same | shorter
    · rw [same]
    · rw [← Session.run_append_empty, shorter]
  · rw [Text.lines_join h]

theorem run_of_settings {host : Program.Host} {call : Program.Call} {settings : Settings}
    (h : call.settings host = .ok settings) (input : Program.Input) :
    Program.run host call input = Program.runWith host.frames settings input := by
  rw [Program.run, h]

structure Mirrors (frames : Parser.Frames) (settings : Settings) (events : List Event)
    (held : Turn) (outcome : Session.Outcome) : Prop where
  failed : held.failed = outcome.failed
  next : held.next = if outcome.next = .proceed then .stop else outcome.next
  errors : held.emissions.filterMap Emission.err? = texts false outcome.outputs
  printed : held.emissions.filterMap Emission.out? =
    banner :: texts true ((heard frames settings events).flatMap (shown frames settings)) ++
      (if .endOfInput ∈ heard frames settings events then [Session.farewell] else [])
  outputs : outcome.outputs =
    ((heard frames settings events).filterMap Event.line?).flatMap fun line =>
      (Session.run frames settings false [line]).outputs
  closes : .endOfInput ∈ heard frames settings events ↔ outcome.next = .proceed
  prompts : held.emissions.filterMap Emission.prompt? =
    List.replicate (heard frames settings events).length settings.prompt
  broken : ∀ fault, outcome.next = .broken fault →
    ∃ before line after, typed events = before ++ line :: after ∧
      (Session.run frames settings false before).next = .proceed ∧
      (Session.run frames settings false [line]).next = .broken fault ∧
      outcome.outputs = (Session.run frames settings false before).outputs
  status : ∀ (host : Program.Host) (call : Program.Call) (text : String), host.frames = frames →
    call.settings host = .ok settings → (∀ line ∈ typed events, Text.IsOneLine line) →
    (text = "\n".intercalate (typed events) ∨
      text = String.join ((typed events).map (· ++ "\n"))) →
    ∃ ending onTerminal piped,
      Program.run host call (.terminal events) = .ran onTerminal ending ∧
      Program.run host call (.piped text) = .ran piped ending

/-- A dialogue ends as the session over its lines does, and at the end of the input where the
session would go on. Each stream has its part of what the session shows, in the same order. -/
theorem hold_eq_run (frames : Parser.Frames) (settings : Settings) (events : List Event) :
    Mirrors frames settings events (hold frames settings events)
      (Session.run frames settings false (typed events)) := by
  have agrees := agrees_turns frames settings false events
  refine
    { failed := by rw [failed_hold, agrees.failed]
      next := by rw [next_hold, agrees.next]
      errors := ?_
      printed := ?_
      outputs := agrees.outputs
      closes := agrees.closes
      prompts := ?_
      broken := fun fault => Session.exists_lines_of_run_broken
      status := ?_ }
  · rw [filterMap_hold (fun _ => rfl), err?_said, ← agrees.outputs, filterMap_parting rfl,
      List.append_nil]
    rfl
  · rw [filterMap_hold (fun _ => rfl), out?_said, out?_parting]
    rfl
  · rw [filterMap_hold (fun _ => rfl), prompt?_said, filterMap_parting rfl, List.append_nil]
    rfl
  · rintro host call text rfl chosen whole put
    rw [run_of_settings chosen, run_of_settings chosen]
    refine ⟨(Program.converse host.frames settings events).2, _,
      (Program.pipe host.frames settings text).1.filter (Program.passes settings.logLevel), rfl, ?_⟩
    rw [ending_of_lines (run_of_text whole put)]
    rfl

theorem ending_until_quit :
    Program.Call.settings ⟨.only "/root", .lenient, .atMost 20⟩ ⟨fun _ => none, []⟩ =
        .ok (.default (.only "/root")) ∧
      (∀ line ∈ typed [.line "7/(2-2)", .interrupt, .line ":quit"], Text.IsOneLine line) ∧
        "7/(2-2)\n:quit" =
          "\n".intercalate (typed [.line "7/(2-2)", .interrupt, .line ":quit"]) ∧
          ∃ ending onTerminal piped,
            Program.run ⟨.only "/root", .lenient, .atMost 20⟩ ⟨fun _ => none, []⟩
                (.terminal [.line "7/(2-2)", .interrupt, .line ":quit"]) =
              .ran onTerminal ending ∧
            Program.run ⟨.only "/root", .lenient, .atMost 20⟩ ⟨fun _ => none, []⟩
                (.piped "7/(2-2)\n:quit") =
              .ran piped ending := by
  let host : Program.Host := ⟨.only "/root", .lenient, .atMost 20⟩
  have chosen : Program.Call.settings host ⟨fun _ => none, []⟩ =
      .ok (.default (.only "/root")) := by decide +kernel
  have whole : ∀ line ∈ typed [.line "7/(2-2)", .interrupt, .line ":quit"],
      Text.IsOneLine line := by
    have plain : (["7/(2-2)", ":quit"].all fun line =>
        line.toList.all fun c => !Text.isBreak c) = true := by decide +kernel
    intro line mem c hc breaks
    have keeps := List.all_eq_true.1 (List.all_eq_true.1 plain line mem) c hc
    rw [breaks] at keeps
    cases keeps
  have put : "7/(2-2)\n:quit" =
      "\n".intercalate (typed [.line "7/(2-2)", .interrupt, .line ":quit"]) := by decide +kernel
  have mirrors := hold_eq_run (.atMost 20) (.default (.only "/root"))
    [.line "7/(2-2)", .interrupt, .line ":quit"]
  exact ⟨chosen, whole, put, mirrors.status host _ _ rfl chosen whole (.inl put)⟩

end Dialogue

end LineCalc
