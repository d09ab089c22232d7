import LineCalc.Proofs.TokenStream.Halts

/-! Reading comes to an end without a limit. A reader that is called has fewer tokens before it than
its caller had, apart from the atom that an expression begins with, and no operator is looked for
before a token has been taken. So the steps of a run are bounded by the tokens. -/
namespace LineCalc.TokenStream.Machine

open LineCalc.Parser (Frames)

/-- How many tokens a call has before it, compared with those that its caller had. An atom begins
where its caller began, and calls another reader only behind the parenthesis that it has taken. -/
structure CalledBy (caller : Caller) (p : Procedure) (s : TokenStream) : Prop where
  atom : p = .atom → s = caller.start
  fewer : p ≠ .atom → s.pending.length < caller.start.pending.length
  group : caller.wait = .group → caller.start.current = .leftParen ∧ s = caller.start.advance

/-- The active reader has taken a token if it is past its call, and no reader that waits had fewer
tokens before it than one that it called. -/
structure Sound (m : Machine) : Prop where
  begun : ∀ p, m.control = .call p → m.stream = m.start
  within : (∀ p, m.control ≠ .call p) → m.stream.pending.length < m.start.pending.length
  called : ∀ p caller others, m.control = .call p → m.callers = caller :: others →
    CalledBy caller p m.stream
  nested : (m.start :: m.callers.map Caller.start).Pairwise fun inner outer =>
    inner.pending.length ≤ outer.pending.length

section Sound

variable {m : Machine} {s : TokenStream}

theorem sound_begin (p : Procedure) (s : TokenStream) : Sound (begin p s) where
  begun _ _ := rfl
  within other := absurd rfl (other p)
  called := by rintro _ _ _ _ ⟨⟩
  nested := List.pairwise_singleton _ s

theorem Sound.length_le (h : Sound m) : m.stream.pending.length ≤ m.start.pending.length := by
  cases control : m.control with
  | call p => exact Nat.le_of_eq (by rw [h.begun p control])
  | operators | done => exact Nat.le_of_lt (h.within (by simp [control]))

theorem Sound.call (h : Sound m) {wait : Wait} {p : Procedure}
    (called : CalledBy ⟨wait, m.start⟩ p s)
    (onward : s.pending.length ≤ m.stream.pending.length) : Sound (m.call wait p s) where
  begun _ _ := rfl
  within other := absurd rfl (other p)
  called := by
    rintro _ _ _ ⟨⟩ ⟨⟩
    exact called
  nested := by
    have first := Nat.le_trans onward h.length_le
    refine List.pairwise_cons.2 ⟨List.forall_mem_cons.2 ⟨first, fun outer mem => ?_⟩, h.nested⟩
    exact Nat.le_trans first (List.rel_of_pairwise_cons h.nested mem)

theorem Sound.callBehind (h : Sound m) {wait : Wait} {p : Procedure} (other : p ≠ .atom)
    (shorter : s.pending.length < m.stream.pending.length)
    (group : wait = .group → m.start.current = .leftParen ∧ s = m.start.advance) :
    Sound (m.call wait p s) :=
  h.call ⟨fun same => absurd same other, fun _ => Nat.lt_of_lt_of_le shorter h.length_le, group⟩
    (Nat.le_of_lt shorter)

theorem Sound.goOn (h : Sound m) {control : Control} (other : ∀ p, control ≠ .call p)
    (within : s.pending.length < m.start.pending.length) : Sound (m.goOn control s) where
  begun p same := absurd same (other p)
  within _ := within
  called p _ _ same := absurd same (other p)
  nested := h.nested

theorem Sound.back (h : Sound m) {t : Tree} {wait : Wait} {start : TokenStream}
    {others : List Caller} {control : Control} (done : m.control = .done t)
    (callers : m.callers = ⟨wait, start⟩ :: others) (other : ∀ p, control ≠ .call p)
    (onward : s.pending.length ≤ m.stream.pending.length) :
    Sound ⟨control, start, s, others⟩ := by
  have nested := h.nested
  rw [callers, List.map_cons] at nested
  have within := h.within (by simp [done])
  have outer : m.start.pending.length ≤ start.pending.length :=
    List.rel_of_pairwise_cons nested List.mem_cons_self
  exact {
    begun := fun p same => absurd same (other p)
    within := fun _ => Nat.lt_of_le_of_lt onward (Nat.lt_of_lt_of_le within outer)
    called := fun p _ _ same => absurd same (other p)
    nested := nested.of_cons }

theorem Turn.sound {frames : Frames} {m' : Machine} (turn : Turn frames m (.inl m')) (h : Sound m) :
    Sound m' := by
  cases turn with
  | prefixed control _ role | infixed control role =>
    exact h.callBehind (by simp) (length_advance_of_role rfl role) (by simp)
  | group control _ found =>
    have start := h.begun _ control
    exact h.callBehind (by simp) (length_advance_of_current found (by simp))
      fun _ => ⟨start ▸ found, congrArg advance start⟩
  | first control =>
    have start := h.begun _ control
    exact h.call ⟨fun _ => start, fun other => absurd rfl other, by simp⟩ (Nat.le_refl _)
  | number control _ found =>
    have shorter := length_advance_of_current found (by simp)
    exact h.goOn (by simp) (Nat.lt_of_lt_of_le shorter h.length_le)
  | postfixed control role =>
    have shorter := length_advance_of_role rfl role
    exact h.goOn (by simp) (Nat.lt_of_lt_of_le shorter h.length_le)
  | stop control => exact h.goOn (by simp) (h.within (by simp [control]))
  | firstRead done callers | prefixedRead done callers | infixedRead done callers =>
    exact h.back done callers (by simp) (Nat.le_refl _)
  | closed done callers found =>
    have shorter := length_advance_of_current found (by simp)
    exact h.back done callers (by simp) (Nat.le_of_lt shorter)

end Sound

theorem read_unlimited_ne_tooDeep (p : Procedure) (s stop : TokenStream) :
    p.read .unlimited s ≠ .error ⟨.tooDeep, stop⟩ := by
  intro deep
  obtain ⟨last, n, -, turn⟩ := exists_last .unlimited p s
  rw [deep] at turn
  cases turn with
  | tooDeep _ refused => exact refused trivial

theorem potential_begin_lt (p : Procedure) (s : TokenStream) :
    (begin p s).potential < 6 * s.pending.length + 4 := by
  cases p <;> simp only [begin, potential, Control.weight, List.length_nil] <;> omega

/-- A reader ends after a number of steps that grows no faster than the tokens before it, and comes
to a tree or to a fault where there is no limit. A tree takes at least one token and never the end
of input. Every call on the way has fewer tokens before it than its caller had when it was called;
only an atom has the same, and it takes a token before it calls another reader. -/
theorem run_ends (frames : Frames) (p : Procedure) (s : TokenStream) :
    (begin p s).after frames (6 * s.pending.length + 4) = .inr (p.read frames s) ∧
      (∀ stop, p.read .unlimited s ≠ .error ⟨.tooDeep, stop⟩) ∧
      (∀ t s', p.read frames s = .ok (t, s') → ∃ n, 0 < n ∧ Takes n s s') ∧
      ∀ n m, (begin p s).after frames n = .inl m → ∀ q caller others, m.control = .call q →
        m.callers = caller :: others → CalledBy caller q m.stream := by
  refine ⟨(ends_begin frames p s).after_eq _ (potential_begin_lt p s),
    read_unlimited_ne_tooDeep p s, fun t s' => Procedure.takes_of_read, fun n m reached => ?_⟩
  exact ((after_keeps (fun _ _ turn => turn.sound) (sound_begin p s) n).1 m reached).called

theorem run_ends_product :
    (begin (.expression 0) (ofText "2*(3)")).after .unlimited 34 =
        .inr (.ok (.infixed (.number 2) .multiply (.number 3), ⟨"2*(3)".toList, 5, .endOfInput⟩)) ∧
      (∃ n, 0 < n ∧ Takes n (ofText "2*(3)") ⟨"2*(3)".toList, 5, .endOfInput⟩) ∧
      ∃ m caller, (begin (.expression 0) (ofText "2*(3)")).after .unlimited 4 = .inl m ∧
        m.control = .call (.expression 8) ∧ m.callers = [caller] ∧
        m.stream.pending.length < caller.start.pending.length := by
  have tokens : (ofText "2*(3)").pending.length = 5 := by decide +kernel
  obtain ⟨ends, -, taken, nested⟩ := run_ends .unlimited (.expression 0) (ofText "2*(3)")
  rw [tokens] at ends
  have result : (begin (.expression 0) (ofText "2*(3)")).after .unlimited 34 =
      .inr (.ok (.infixed (.number 2) .multiply (.number 3), ⟨"2*(3)".toList, 5, .endOfInput⟩)) :=
    rfl
  have read := Sum.inr.inj (ends.symm.trans result)
  have called := nested 4 _ rfl _ _ _ rfl rfl
  exact ⟨result, taken _ _ read, _, _, rfl, rfl, rfl, called.fewer (by simp)⟩

end LineCalc.TokenStream.Machine
