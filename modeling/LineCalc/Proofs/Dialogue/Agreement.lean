import LineCalc.Dialogue
import LineCalc.Proofs.Session.Cut

/-! A dialogue is the session over the lines that are typed before the input ends. The session
settles what is said and how it ends; an interrupt adds its own mark to the output, and the end
of the input a farewell. -/
namespace LineCalc.Dialogue

namespace Emission

def prompt? : Emission → Option String
  | prompt text => some text
  | out _ | err _ | log _ => none

def out? : Emission → Option String
  | out text => some text
  | prompt _ | err _ | log _ => none

def err? : Emission → Option String
  | err text => some text
  | prompt _ | out _ | log _ => none

def isSpoken : Emission → Bool
  | log _ => false
  | prompt _ | out _ | err _ => true

end Emission

def typed : List Event → List String
  | [] | .endOfInput :: _ => []
  | .interrupt :: rest => typed rest
  | .line text :: rest => text :: typed rest

def Event.line? : Event → Option String
  | .line text => some text
  | .interrupt | .endOfInput => none

/-- What is printed at an event, but for the farewell at the end of the input. A line is answered
by a session of its own. -/
def shown (frames : Parser.Frames) (settings : Settings) : Event → List Session.Output
  | .line text => (Session.run frames settings false [text]).outputs
  | .interrupt => [⟨true, "^C"⟩]
  | .endOfInput => []

def ends (frames : Parser.Frames) (settings : Settings) : Event → Bool
  | .line text => (Session.run frames settings false [text]).next ≠ .proceed
  | .interrupt => false
  | .endOfInput => true

def heard (frames : Parser.Frames) (settings : Settings) (events : List Event) : List Event :=
  upToFirst (ends frames settings) (events ++ [.endOfInput])

theorem heard_of_end {frames : Parser.Frames} {settings : Settings} {event : Event}
    (h : ends frames settings event = true) (rest : List Event) :
    heard frames settings (event :: rest) = [event] :=
  if_pos h

theorem heard_of_not_end {frames : Parser.Frames} {settings : Settings} {event : Event}
    (h : ends frames settings event = false) (rest : List Event) :
    heard frames settings (event :: rest) = event :: heard frames settings rest :=
  if_neg (by simp [h])

section Turns

variable {frames : Parser.Frames} {settings : Settings} {failed : Bool} {event : Event}
  {first : Turn}

theorem turns_of_end (h : answer frames settings failed event = first)
    (ended : first.next ≠ .proceed) (rest : List Event) :
    turns frames settings failed (event :: rest) =
      ⟨.prompt settings.prompt :: first.emissions, first.failed, first.next⟩ := by
  rw [turns, h]
  cases next : first.next with
  | proceed => exact absurd next ended
  | stop | broken fault => simp only

theorem turns_of_proceed (h : answer frames settings failed event = first)
    (proceeds : first.next = .proceed) (rest : List Event) :
    turns frames settings failed (event :: rest) =
      let others := turns frames settings first.failed rest
      ⟨.prompt settings.prompt :: first.emissions ++ others.emissions, others.failed,
        others.next⟩ := by
  rw [turns, h]
  simp only [proceeds]

end Turns

def said (frames : Parser.Frames) (settings : Settings) (event : Event) : List Emission :=
  .prompt settings.prompt :: (shown frames settings event).map ofOutput

def parting (events : List Event) : List Emission :=
  if .endOfInput ∈ events then [.out Session.farewell] else []

theorem parting_cons {event : Event} (h : event ≠ .endOfInput) (rest : List Event) :
    parting (event :: rest) = parting rest := by
  simp [parting, h.symm]

/-- A turn over some events and the outcome of a session over their lines say the same. -/
structure Agrees (frames : Parser.Frames) (settings : Settings) (events : List Event) (turn : Turn)
    (outcome : Session.Outcome) : Prop where
  failed : turn.failed = outcome.failed
  next : turn.next = if outcome.next = .proceed then .stop else outcome.next
  spoken : turn.emissions.filter Emission.isSpoken =
    (heard frames settings events).flatMap (said frames settings) ++
      parting (heard frames settings events)
  outputs : outcome.outputs =
    ((heard frames settings events).filterMap Event.line?).flatMap fun line =>
      (Session.run frames settings false [line]).outputs
  closes : .endOfInput ∈ heard frames settings events ↔ outcome.next = .proceed

theorem spoken_ofOutcome (outcome : Session.Outcome) :
    (ofOutcome outcome).filter Emission.isSpoken = outcome.outputs.map ofOutput := by
  have logged : (outcome.log.map Emission.log).filter Emission.isSpoken = [] := by
    simp [Emission.isSpoken]
  have printed : ∀ emission ∈ outcome.outputs.map ofOutput, emission.isSpoken = true := by
    intro emission mem
    obtain ⟨output, -, rfl⟩ := List.mem_map.1 mem
    unfold ofOutput
    split <;> rfl
  rw [ofOutcome, List.filter_append, logged, List.filter_eq_self.2 printed, List.nil_append]

section Line

variable {frames : Parser.Frames} {settings : Settings} {text : String}

theorem outputs_step (frames : Parser.Frames) (settings : Settings) (failed : Bool)
    (text : String) :
    (Session.step frames settings failed text).outputs = shown frames settings (.line text) := by
  rw [shown, Session.run_singleton, Session.step_eq_fresh]

theorem next_step (frames : Parser.Frames) (settings : Settings) (failed : Bool) (text : String) :
    (Session.step frames settings failed text).next =
      (Session.run frames settings false [text]).next := by
  rw [Session.run_singleton, Session.step_eq_fresh]

theorem ends_line_iff : ends frames settings (.line text) = false ↔
    (Session.run frames settings false [text]).next = .proceed := by
  simp [ends]

theorem answer_line (frames : Parser.Frames) (settings : Settings) (failed : Bool) (text : String) :
    answer frames settings failed (.line text) =
      ⟨ofOutcome (Session.step frames settings failed text),
        (Session.step frames settings failed text).failed,
        (Session.step frames settings failed text).next⟩ := rfl

theorem spoken_line (frames : Parser.Frames) (settings : Settings) (failed : Bool) (text : String) :
    (.prompt settings.prompt :: ofOutcome (Session.step frames settings failed text)).filter
      Emission.isSpoken = said frames settings (.line text) := by
  rw [List.filter_cons_of_pos rfl, spoken_ofOutcome, outputs_step, said]

theorem agrees_of_end (failed : Bool) (h : ends frames settings (.line text) = true)
    (rest : List Event) :
    Agrees frames settings (.line text :: rest) (turns frames settings failed (.line text :: rest))
      (Session.run frames settings failed (typed (.line text :: rest))) := by
  have ended : (Session.step frames settings failed text).next ≠ .proceed := by
    rw [next_step]
    exact fun proceeds => by simp [ends_line_iff.2 proceeds] at h
  rw [typed, Session.run_of_end rfl ended, turns_of_end (answer_line ..) ended]
  refine ⟨rfl, (if_neg ended).symm, ?_, ?_, ?_⟩
  · rw [heard_of_end h, spoken_line]
    simp [parting]
  · rw [heard_of_end h, outputs_step]
    simp [Event.line?, shown]
  · rw [heard_of_end h]
    simp [ended]

theorem Agrees.line {rest : List Event} {failed : Bool}
    (h : ends frames settings (.line text) = false)
    (others : Agrees frames settings rest
      (turns frames settings (Session.step frames settings failed text).failed rest)
      (Session.run frames settings (Session.step frames settings failed text).failed
        (typed rest))) :
    Agrees frames settings (.line text :: rest) (turns frames settings failed (.line text :: rest))
      (Session.run frames settings failed (typed (.line text :: rest))) := by
  have proceeds : (Session.step frames settings failed text).next = .proceed := by
    rw [next_step]
    exact ends_line_iff.1 h
  rw [typed, Session.run_of_proceed rfl proceeds, turns_of_proceed (answer_line ..) proceeds]
  dsimp only
  refine ⟨others.failed, others.next, ?_, ?_, ?_⟩
  · rw [List.filter_append, spoken_line, others.spoken, heard_of_not_end h, List.flatMap_cons,
      List.append_assoc, parting_cons (by simp)]
  · rw [heard_of_not_end h, others.outputs, outputs_step]
    simp [Event.line?, shown]
  · rw [heard_of_not_end h, ← others.closes]
    simp

end Line

theorem Agrees.interrupt {settings : Settings} {rest : List Event} {failed : Bool}
    (others : Agrees frames settings rest (turns frames settings failed rest)
      (Session.run frames settings failed (typed rest))) :
    Agrees frames settings (.interrupt :: rest) (turns frames settings failed (.interrupt :: rest))
      (Session.run frames settings failed (typed (.interrupt :: rest))) := by
  have h : ends frames settings .interrupt = false := rfl
  have reply : answer frames settings failed .interrupt = ⟨[.out "^C"], failed, .proceed⟩ := rfl
  rw [typed, turns_of_proceed reply rfl]
  refine ⟨others.failed, others.next, ?_, ?_, ?_⟩
  · rw [List.filter_append, others.spoken, heard_of_not_end h, List.flatMap_cons,
      List.append_assoc, parting_cons (by simp)]
    rfl
  · rw [heard_of_not_end h, others.outputs]
    rfl
  · rw [heard_of_not_end h, ← others.closes]
    simp

theorem agrees_endOfInput (frames : Parser.Frames) (settings : Settings) (failed : Bool)
    (rest : List Event) :
    Agrees frames settings (.endOfInput :: rest)
      (turns frames settings failed (.endOfInput :: rest))
      (Session.run frames settings failed (typed (.endOfInput :: rest))) := by
  have h : ends frames settings .endOfInput = true := rfl
  refine ⟨rfl, rfl, ?_, ?_, ?_⟩
  · rw [heard_of_end h]
    rfl
  · rw [heard_of_end h]
    rfl
  · rw [heard_of_end h]
    simp [typed, Session.run_nil]

theorem agrees_turns (frames : Parser.Frames) (settings : Settings) (failed : Bool)
    (events : List Event) :
    Agrees frames settings events (turns frames settings failed events)
      (Session.run frames settings failed (typed events)) := by
  induction events generalizing failed with
  | nil =>
    -- A list that runs out and an explicit end of input are read alike.
    have last := agrees_endOfInput frames settings failed []
    exact ⟨last.failed, last.next, last.spoken, last.outputs, last.closes⟩
  | cons event rest ih =>
    cases event with
    | line text =>
      cases h : ends frames settings (.line text) with
      | true => exact agrees_of_end failed h rest
      | false => exact .line h (ih _)
    | interrupt => exact .interrupt (ih failed)
    | endOfInput => exact agrees_endOfInput frames settings failed rest

end LineCalc.Dialogue
