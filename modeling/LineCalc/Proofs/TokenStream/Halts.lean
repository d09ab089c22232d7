import Mathlib.Logic.Function.Iterate
import LineCalc.Proofs.TokenStream.Steps

/-! Where a reader leaves the stream. It takes one token after another, and the end of input only
when it asks for an operand there; nothing is taken on the way out of the readers that wait. So the
token of a report is the last one that was taken, or the one that is current. -/
namespace LineCalc

theorem Fault.eq_of_expecting {label label' : String} {found found' : Token}
    (h : expecting label found = expected label' found') : label = label' ∧ found = found' := by
  unfold expecting at h
  split at h
  · exact expected.inj h
  · cases h

namespace TokenStream

open LineCalc.Parser (Frames)

/-- The second stream lies `n` tokens behind the first, and none of these is the end of input. -/
structure Takes (n : Nat) (s s' : TokenStream) : Prop where
  reached : s' = advance^[n] s
  proper : ∀ i < n, (advance^[i] s).current ≠ .endOfInput

theorem Takes.none (s : TokenStream) : Takes 0 s s := ⟨rfl, by simp⟩

theorem Takes.advance {n : Nat} {s s' : TokenStream} (h : Takes n s s')
    (more : s'.current ≠ .endOfInput) : Takes (n + 1) s s'.advance where
  reached := by rw [Function.iterate_succ_apply', ← h.reached]
  proper i lt := by
    rcases Nat.lt_or_eq_of_le (Nat.le_of_lt_succ lt) with lt | rfl
    · exact h.proper i lt
    · rwa [← h.reached]

theorem Takes.settled {n : Nat} {s s' : TokenStream} (h : Takes n s s') (settled : Settled s) :
    Settled s' := by
  obtain ⟨rfl, proper⟩ := h
  clear proper
  induction n with
  | zero => exact settled
  | succ n ih =>
    rw [Function.iterate_succ_apply']
    exact settled_advance ih.bounded

theorem current_advance_of_endOfInput {s : TokenStream} (settled : Settled s)
    (done : s.current = .endOfInput) : s.advance.current = .endOfInput := by
  rw [← front_tokens, tokens_advance settled, tokens, pending, if_pos done]
  rfl

inductive HaltsFrom (s : TokenStream) : Halt → Prop
  | tooDeep (before : Takes n s place) : HaltsFrom s ⟨.tooDeep, place⟩
  | missing (before : Takes n s place) :
      HaltsFrom s ⟨.fault (.expecting "expression" place.current), place.advance⟩
  | unclosed (before : Takes n s place) : HaltsFrom s (misses ")" place)
  | leftOver (before : Takes n s place) : HaltsFrom s (misses "end of input" place)

namespace Machine

/-- A step takes the current token or none, and never the end of input. -/
theorem Turn.takes {frames : Frames} {m m' : Machine} (h : Turn frames m (.inl m')) :
    m'.stream = m.stream ∨ m.stream.current ≠ .endOfInput ∧ m'.stream = m.stream.advance := by
  cases h with
  | prefixed _ _ role | infixed _ role | postfixed _ role =>
    exact .inr ⟨ne_endOfInput_of_role rfl role, rfl⟩
  | number _ _ found | group _ _ found | closed _ _ found =>
    exact .inr ⟨by simp [found], rfl⟩
  | first | stop | firstRead | prefixedRead | infixedRead => exact .inl rfl

theorem Turn.exists_takes {frames : Frames} {s : TokenStream} {m m' : Machine}
    (h : Turn frames m (.inl m')) (before : ∃ n, Takes n s m.stream) :
    ∃ n, Takes n s m'.stream := by
  obtain ⟨n, before⟩ := before
  rcases h.takes with same | ⟨more, next⟩
  · exact ⟨n, same ▸ before⟩
  · exact ⟨n + 1, next ▸ before.advance more⟩

theorem exists_last (frames : Frames) (p : Procedure) (s : TokenStream) :
    ∃ last n, Takes n s last.stream ∧ Turn frames last (.inr (p.read frames s)) := by
  obtain ⟨steps, ends⟩ := ends_begin frames p s
  have start : ∃ n, Takes n s (begin p s).stream := ⟨0, .none s⟩
  obtain ⟨last, ⟨n, before⟩, turn⟩ :=
    (after_keeps (fun _ _ turn => turn.exists_takes) start steps).2 _ ends
  exact ⟨last, n, before, turn⟩

end Machine

theorem Procedure.length_lt_of_read {frames : Frames} {p : Procedure} {s s' : TokenStream}
    {t : Tree} (h : p.read frames s = .ok (t, s')) : s'.pending.length < s.pending.length := by
  cases p with
  | expression minimum | atom =>
    obtain ⟨lt, -⟩ := eq_ok_of_reading h
    exact lt

theorem Procedure.takes_of_read {frames : Frames} {p : Procedure} {s s' : TokenStream} {t : Tree}
    (h : p.read frames s = .ok (t, s')) : ∃ n, 0 < n ∧ Takes n s s' := by
  obtain ⟨last, n, before, turn⟩ := Machine.exists_last frames p s
  rw [h] at turn
  cases turn with
  | returned =>
    refine ⟨n, Nat.pos_of_ne_zero ?_, before⟩
    rintro rfl
    exact Nat.lt_irrefl _ (before.reached ▸ length_lt_of_read h)

theorem Procedure.haltsFrom_of_read {frames : Frames} {p : Procedure} {s : TokenStream}
    {halt : Halt} (h : p.read frames s = .error halt) : HaltsFrom s halt := by
  obtain ⟨last, n, before, turn⟩ := Machine.exists_last frames p s
  rw [h] at turn
  cases turn with
  | tooDeep => exact .tooDeep before
  | missing => exact .missing before
  | unclosed => exact .unclosed before

theorem haltsFrom_of_readWhole {frames : Frames} {s : TokenStream} {halt : Halt}
    (h : readWhole frames s = .error halt) : HaltsFrom s halt := by
  rw [readWhole] at h
  cases read : (readExpression frames 0 s).reading with
  | error halt' =>
    rw [read] at h
    cases h
    exact Procedure.haltsFrom_of_read (p := .expression 0) read
  | ok r =>
    obtain ⟨t, rest⟩ := r
    obtain ⟨n, -, before⟩ := Procedure.takes_of_read (p := .expression 0) read
    rw [read] at h
    dsimp only at h
    split at h
    · cases h
    · cases h
      exact .leftOver before

theorem haltsFrom_of_perform {frames : Frames} {s s' : TokenStream} {a : Action} {fault : Fault}
    (reads : a = .atom ∨ a = .whole ∨ ∃ minimum, a = .expression minimum)
    (failed : s.perform frames a = (.error fault, s')) :
    ∃ halt, HaltsFrom s halt ∧ halt.fault = fault ∧ halt.stream = s' := by
  have settled {r : Reading} (same : settle r = (.error fault, s')) :
      ∃ halt, r = .error halt ∧ halt.fault = fault ∧ halt.stream = s' := by
    match r with
    | .ok (t, rest) => cases same
    | .error halt =>
      cases same
      exact ⟨halt, rfl, rfl, rfl⟩
  rcases reads with rfl | rfl | ⟨minimum, rfl⟩
  · obtain ⟨halt, read, same⟩ := settled failed
    exact ⟨halt, Procedure.haltsFrom_of_read (p := .atom) read, same⟩
  · obtain ⟨halt, read, same⟩ := settled failed
    exact ⟨halt, haltsFrom_of_readWhole read, same⟩
  · obtain ⟨halt, read, same⟩ := settled failed
    exact ⟨halt, Procedure.haltsFrom_of_read (p := .expression minimum) read, same⟩

/-- Where a reader fails at a token, all tokens before it have been taken, one by one, and none of
them was the end of input. If an operand was wanted, the token itself has been taken too and the one
behind it is current, the end of input again behind the end of input; otherwise it is current. -/
theorem perform_halts_at_offender {frames : Frames} {s s' : TokenStream} {a : Action}
    {label : String} {found : Token}
    (reads : a = .atom ∨ a = .whole ∨ ∃ minimum, a = .expression minimum)
    (failed : s.perform frames a = (.error (.expected label found), s')) :
    ∃ n place, Takes n s place ∧ place.current = found ∧
      (label = "expression" ∧ s' = place.advance ∧
          (Settled s → found = .endOfInput → s'.current = .endOfInput) ∨
        (label = ")" ∨ label = "end of input" ∨ label = "shallower nesting") ∧ s' = place) := by
  obtain ⟨halt, halts, fault, rfl⟩ := haltsFrom_of_perform reads failed
  cases halts with
  | @tooDeep n place before =>
    obtain ⟨rfl, rfl⟩ := Fault.eq_of_expecting fault
    exact ⟨n, place, before, rfl, .inr ⟨.inr (.inr rfl), rfl⟩⟩
  | @missing n place before =>
    obtain ⟨rfl, rfl⟩ := Fault.eq_of_expecting fault
    refine ⟨n, place, before, rfl, .inl ⟨rfl, rfl, fun settled done => ?_⟩⟩
    exact current_advance_of_endOfInput (before.settled settled) done
  | @unclosed n place before =>
    obtain ⟨rfl, rfl⟩ := Fault.eq_of_expecting fault
    exact ⟨n, place, before, rfl, .inr ⟨.inl rfl, rfl⟩⟩
  | @leftOver n place before =>
    obtain ⟨rfl, rfl⟩ := Fault.eq_of_expecting fault
    exact ⟨n, place, before, rfl, .inr ⟨.inr (.inl rfl), rfl⟩⟩

theorem perform_halts_at_parenthesis :
    (ofText "7-(2*)+1").perform .unlimited (.expression 0) =
        (.error (.expected "expression" .rightParen), ⟨"7-(2*)+1".toList, 7, .operator "+"⟩) ∧
      ∃ n place, Takes n (ofText "7-(2*)+1") place ∧ place.current = .rightParen ∧
        place.advance.current = .operator "+" := by
  -- The steps of the run evaluate; the readers, which are recursive over the tokens, do not.
  have run : (Machine.begin (.expression 0) (ofText "7-(2*)+1")).after .unlimited 60 =
      .inr (.error ⟨.fault (.expected "expression" .rightParen),
        ⟨"7-(2*)+1".toList, 7, .operator "+"⟩⟩) := rfl
  have ends := Machine.ends_begin .unlimited (.expression 0) (ofText "7-(2*)+1")
  have read := Sum.inr.inj ((ends.after_eq 60 (by decide +kernel)).symm.trans run)
  have failed : (ofText "7-(2*)+1").perform .unlimited (.expression 0) =
      (.error (.expected "expression" .rightParen), ⟨"7-(2*)+1".toList, 7, .operator "+"⟩) :=
    congrArg settle read
  obtain ⟨n, place, before, found, ⟨-, next, -⟩ | ⟨other, -⟩⟩ :=
    perform_halts_at_offender (.inr (.inr ⟨0, rfl⟩)) failed
  · exact ⟨failed, n, place, before, found, by rw [← next]⟩
  · exact absurd other (by decide)

end TokenStream

end LineCalc
