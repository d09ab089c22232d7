import LineCalc.Proofs.TokenStream.Readers
import LineCalc.TokenStream.Machine

/-! What one step of the machine can do, said once with all guards. That a run ends, and that it
comes to what the readers read, is shown from it: a step that takes a token may make more work, but
never as much as the token was worth. -/
namespace LineCalc

namespace Parser

theorem Frames.enter_below {frames : Frames} {depth : Nat} (allowed : frames.Allows depth) :
    (frames.below depth).enter = some (frames.below (depth + 1)) := by
  cases frames with
  | unlimited => rfl
  | atMost count =>
    obtain ⟨rest, rfl⟩ := Nat.exists_eq_add_of_lt allowed
    have left : depth + rest + 1 - depth = rest + 1 := by omega
    have next : depth + rest + 1 - (depth + 1) = rest := by omega
    rw [below, below, left, next]
    rfl

theorem Frames.enter_below_eq_none {frames : Frames} {depth : Nat} (deep : ¬frames.Allows depth) :
    (frames.below depth).enter = none := by
  cases frames with
  | unlimited => exact absurd trivial deep
  | atMost count =>
    rw [below, Nat.sub_eq_zero_of_le (Nat.le_of_not_lt deep)]
    rfl

end Parser

namespace TokenStream

open LineCalc.Parser (Frames Stops)

theorem length_advance_of_current {s : TokenStream} {t : Token} (found : s.current = t)
    (more : t ≠ .endOfInput) : s.advance.pending.length < s.pending.length :=
  length_advance_lt (found ▸ more)

theorem length_advance_of_role {s : TokenStream} {role : Token → Option α} {op : α}
    (none : role .endOfInput = none) (h : role s.current = some op) :
    s.advance.pending.length < s.pending.length :=
  length_advance_lt (ne_endOfInput_of_role none h)

/-- The work that the active reader has before it, apart from the tokens. -/
def Control.weight : Control → Nat
  | .call (.expression _) => 3
  | .call .atom => 0
  | .operators _ _ => 1
  | .done _ => 0

namespace Machine

inductive Turn (frames : Frames) (m : Machine) : Machine ⊕ Reading → Prop
  | tooDeep (control : m.control = .call p) (deep : ¬frames.Allows m.callers.length) :
      Turn frames m (.inr (.error ⟨.tooDeep, m.stream⟩))
  | prefixed (control : m.control = .call (.expression minimum))
      (allowed : frames.Allows m.callers.length)
      (role : PrefixOp.ofToken m.stream.current = some op) :
      Turn frames m
        (.inl (m.call (.prefixed minimum op) (.expression op.precedence) m.stream.advance))
  | first (control : m.control = .call (.expression minimum))
      (allowed : frames.Allows m.callers.length) (role : PrefixOp.ofToken m.stream.current = none) :
      Turn frames m (.inl (m.call (.first minimum) .atom m.stream))
  | number (control : m.control = .call .atom) (allowed : frames.Allows m.callers.length)
      (found : m.stream.current = .number n) :
      Turn frames m (.inl (m.goOn (.done (.number n)) m.stream.advance))
  | group (control : m.control = .call .atom) (allowed : frames.Allows m.callers.length)
      (found : m.stream.current = .leftParen) :
      Turn frames m (.inl (m.call .group (.expression 0) m.stream.advance))
  | missing (control : m.control = .call .atom) (allowed : frames.Allows m.callers.length)
      (noNumber : ∀ n, m.stream.current ≠ .number n) (noGroup : m.stream.current ≠ .leftParen) :
      Turn frames m
        (.inr (.error ⟨.fault (.expecting "expression" m.stream.current), m.stream.advance⟩))
  | infixed (control : m.control = .operators minimum left)
      (role : InfixOp.ofToken m.stream.current = some op) (binds : minimum ≤ op.precedence) :
      Turn frames m
        (.inl (m.call (.infixed minimum left op) (.expression op.rightMinimum) m.stream.advance))
  | postfixed (control : m.control = .operators minimum left)
      (role : PostfixOp.ofToken m.stream.current = some op) (binds : minimum ≤ op.precedence) :
      Turn frames m (.inl (m.goOn (.operators minimum (.postfixed left op)) m.stream.advance))
  | stop (control : m.control = .operators minimum left) (stops : Stops minimum m.stream.current) :
      Turn frames m (.inl (m.goOn (.done left) m.stream))
  | returned (control : m.control = .done t) (callers : m.callers = []) :
      Turn frames m (.inr (.ok (t, m.stream)))
  | firstRead (control : m.control = .done t)
      (callers : m.callers = ⟨.first minimum, s⟩ :: others) :
      Turn frames m (.inl ⟨.operators minimum t, s, m.stream, others⟩)
  | prefixedRead (control : m.control = .done t)
      (callers : m.callers = ⟨.prefixed minimum op, s⟩ :: others) :
      Turn frames m (.inl ⟨.operators minimum (.prefixed op t), s, m.stream, others⟩)
  | infixedRead (control : m.control = .done t)
      (callers : m.callers = ⟨.infixed minimum left op, s⟩ :: others) :
      Turn frames m (.inl ⟨.operators minimum (.infixed left op t), s, m.stream, others⟩)
  | closed (control : m.control = .done t) (callers : m.callers = ⟨.group, s⟩ :: others)
      (found : m.stream.current = .rightParen) :
      Turn frames m (.inl ⟨.done t, s, m.stream.advance, others⟩)
  | unclosed (control : m.control = .done t) (callers : m.callers = ⟨.group, s⟩ :: others)
      (found : m.stream.current ≠ .rightParen) :
      Turn frames m (.inr (.error (misses ")" m.stream)))

theorem seek_stop {m : Machine} {minimum : Int} (stops : Stops minimum m.stream.current)
    (left : Tree) : m.seek minimum left = m.goOn (.done left) m.stream := by
  rw [seek]
  split
  · next op role => exact if_pos (stops.ofInfix op role)
  · split
    · next op role => exact if_pos (stops.ofPostfix op role)
    · rfl

theorem enter_missing {m : Machine} (noNumber : ∀ n, m.stream.current ≠ .number n)
    (noGroup : m.stream.current ≠ .leftParen) :
    m.enter .atom =
      .inr (.error ⟨.fault (.expecting "expression" m.stream.current), m.stream.advance⟩) := by
  rw [enter]
  split
  · next n found => exact absurd found (noNumber n)
  · next found => exact absurd found noGroup
  · rfl

theorem Turn.step_eq {frames : Frames} {m : Machine} {r : Machine ⊕ Reading}
    (h : Turn frames m r) : m.step frames = r := by
  cases h with
  | tooDeep control deep => simp only [step, control, if_neg deep]
  | prefixed control allowed role | first control allowed role =>
    simp only [step, control, if_pos allowed, enter, role]
  | number control allowed found | group control allowed found =>
    simp only [step, control, if_pos allowed, enter, found]
  | missing control allowed noNumber noGroup =>
    simp only [step, control, if_pos allowed, enter_missing noNumber noGroup]
  | infixed control role binds => simp only [step, control, seek, role, if_neg (Int.not_lt.2 binds)]
  | postfixed control role binds =>
    simp only [step, control, seek, Parser.infixOp_eq_none role, role, if_neg (Int.not_lt.2 binds)]
  | stop control stops => simp only [step, control, seek_stop stops]
  | returned control callers | firstRead control callers | prefixedRead control callers
  | infixedRead control callers => simp only [step, control, callers, resume]
  | closed control callers found => simp only [step, control, callers, resume, if_pos found]
  | unclosed control callers found => simp only [step, control, callers, resume, if_neg found]

theorem exists_turn (frames : Frames) (m : Machine) : ∃ r, Turn frames m r := by
  cases control : m.control with
  | call p =>
    by_cases allowed : frames.Allows m.callers.length
    · cases p with
      | expression minimum =>
        cases role : PrefixOp.ofToken m.stream.current with
        | some op => exact ⟨_, .prefixed control allowed role⟩
        | none => exact ⟨_, .first control allowed role⟩
      | atom =>
        cases found : m.stream.current with
        | number n => exact ⟨_, .number control allowed found⟩
        | leftParen => exact ⟨_, .group control allowed found⟩
        | rightParen | operator | endOfInput =>
          exact ⟨_, .missing control allowed (by simp [found]) (by simp [found])⟩
    · exact ⟨_, .tooDeep control allowed⟩
  | operators minimum left =>
    cases Parser.turn minimum m.stream.current with
    | stops stops => exact ⟨_, .stop control stops⟩
    | infixed op role binds => exact ⟨_, .infixed control role binds⟩
    | postfixed op role binds => exact ⟨_, .postfixed control role binds⟩
  | done t =>
    rcases callers : m.callers with _ | ⟨⟨wait, s⟩, others⟩
    · exact ⟨_, .returned control callers⟩
    · cases wait with
      | first minimum => exact ⟨_, .firstRead control callers⟩
      | prefixed minimum op => exact ⟨_, .prefixedRead control callers⟩
      | infixed minimum left op => exact ⟨_, .infixedRead control callers⟩
      | group =>
        by_cases found : m.stream.current = .rightParen
        · exact ⟨_, .closed control callers found⟩
        · exact ⟨_, .unclosed control callers found⟩

theorem turn (frames : Frames) (m : Machine) : Turn frames m (m.step frames) := by
  obtain ⟨r, h⟩ := exists_turn frames m
  rwa [h.step_eq]

/-- A token is worth more than the work that taking it can make. -/
def potential (m : Machine) : Nat :=
  6 * m.stream.pending.length + m.control.weight + 2 * m.callers.length

theorem Turn.potential_lt {frames : Frames} {m m' : Machine} (h : Turn frames m (.inl m')) :
    m'.potential < m.potential := by
  cases h with
  | prefixed control _ role | infixed control role =>
    have := length_advance_of_role rfl role
    simp only [potential, call, control, Control.weight, List.length_cons]
    omega
  | group control _ found =>
    have := length_advance_of_current found (by simp)
    simp only [potential, call, control, Control.weight, List.length_cons]
    omega
  | first control =>
    simp only [potential, call, control, Control.weight, List.length_cons]
    omega
  | number control _ found =>
    have := length_advance_of_current found (by simp)
    simp only [potential, goOn, control, Control.weight]
    omega
  | postfixed control role =>
    have := length_advance_of_role rfl role
    simp only [potential, goOn, control, Control.weight]
    omega
  | stop control =>
    simp only [potential, goOn, control, Control.weight]
    omega
  | firstRead control callers | prefixedRead control callers | infixedRead control callers =>
    simp only [potential, control, callers, Control.weight, List.length_cons]
    omega
  | closed control callers found =>
    have := length_advance_of_current found (by simp)
    simp only [potential, control, callers, Control.weight, List.length_cons]
    omega

/-- What every step keeps, a run keeps, up to the machine at which it ends. -/
theorem after_keeps {frames : Frames} {P : Machine → Prop}
    (keeps : ∀ m m', Turn frames m (.inl m') → P m → P m') {m : Machine} (h : P m) (n : Nat) :
    (∀ m', m.after frames n = .inl m' → P m') ∧
      ∀ r, m.after frames n = .inr r → ∃ last, P last ∧ Turn frames last (.inr r) := by
  induction n generalizing m with
  | zero =>
    refine ⟨fun m' same => ?_, fun r other => ?_⟩
    · cases same
      exact h
    · cases other
  | succ n ih =>
    have turn := m.turn frames
    rw [after]
    cases next : m.step frames with
    | inl m' =>
      rw [next] at turn
      exact ih (keeps m m' turn h)
    | inr q =>
      rw [next] at turn
      refine ⟨fun m' other => ?_, fun r same => ?_⟩
      · cases other
      · cases same
        exact ⟨m, h, turn⟩

def Ends (frames : Frames) (m : Machine) (r : Reading) : Prop := ∃ n, m.after frames n = .inr r

theorem Ends.now {frames : Frames} {m : Machine} {r : Reading} (h : Turn frames m (.inr r)) :
    Ends frames m r :=
  ⟨1, by rw [after, h.step_eq]⟩

theorem Ends.next {frames : Frames} {m m' : Machine} {r : Reading} (h : Turn frames m (.inl m'))
    (ends : Ends frames m' r) : Ends frames m r := by
  obtain ⟨n, ends⟩ := ends
  exact ⟨n + 1, by rw [after, h.step_eq]; exact ends⟩

theorem Ends.after_eq {frames : Frames} {m : Machine} {r : Reading} (h : Ends frames m r) :
    ∀ n, m.potential < n → m.after frames n = .inr r := by
  obtain ⟨k, h⟩ := h
  induction k generalizing m with
  | zero => cases h
  | succ k ih =>
    intro n enough
    obtain ⟨n, rfl⟩ := Nat.exists_eq_succ_of_ne_zero (Nat.ne_zero_of_lt enough)
    have turn := m.turn frames
    rw [after] at h ⊢
    cases next : m.step frames with
    | inl m' =>
      rw [next] at h turn
      exact ih h n (Nat.lt_of_lt_of_le turn.potential_lt (Nat.le_of_lt_succ enough))
    | inr q =>
      rw [next] at h
      exact h

def returns (m : Machine) (t : Tree) (s : TokenStream) : Machine := m.goOn (.done t) s

/-- The machine comes to what is read, where `onward` is the machine behind a tree and its rest. -/
def Yields (frames : Frames) (m : Machine) (onward : Tree → TokenStream → Machine) : Reading → Prop
  | .ok (t, s) => ∀ r, Ends frames (onward t s) r → Ends frames m r
  | .error h => Ends frames m (.error h)

section Yields

variable {frames : Frames} {m m' : Machine} {onward onward' : Tree → TokenStream → Machine}
  {r q : Reading}

theorem Yields.next (turn : Turn frames m (.inl m')) (h : Yields frames m' onward r) :
    Yields frames m onward r := by
  cases r with
  | ok read => exact fun r ends => (h r ends).next turn
  | error halt => exact Ends.next turn h

theorem Yields.bind (h : Yields frames m onward r)
    (halted : ∀ halt, r = .error halt → q = .error halt)
    (returned : ∀ t s, r = .ok (t, s) → Yields frames (onward t s) onward' q) :
    Yields frames m onward' q := by
  match r with
  | .error halt =>
    rw [halted halt rfl]
    exact h
  | .ok (t, s) =>
    have rest := returned t s rfl
    cases q with
    | ok read => exact fun r ends => h r (rest r ends)
    | error halt => exact h _ rest

end Yields

end Machine

theorem eq_ok_of_reading {r : Shrinking n} {t : Tree} {s : TokenStream}
    (h : r.reading = .ok (t, s)) : ∃ lt, r = .ok ⟨(t, s), lt⟩ := by
  match r with
  | .error halt => cases h
  | .ok ⟨(t', s'), lt⟩ =>
    cases h
    exact ⟨lt, rfl⟩

theorem eq_error_of_reading {r : Shrinking n} {halt : Halt} (h : r.reading = .error halt) :
    r = .error halt := by
  match r with
  | .error halt' =>
    cases h
    rfl
  | .ok read => cases h

namespace Machine

mutual

theorem yields_expression (frames : Frames) {m : Machine} {minimum : Int}
    (control : m.control = .call (.expression minimum)) :
    Yields frames m m.returns
      (readExpression (frames.below m.callers.length) minimum m.stream).reading := by
  by_cases allowed : frames.Allows m.callers.length
  · have first := yields_operand control allowed
    rw [readExpression, Parser.Frames.enter_below allowed]
    cases read : readOperand (frames.below (m.callers.length + 1)) m.stream with
    | error halt =>
      rw [read] at first
      simp only [read]
      exact first
    | ok operand =>
      obtain ⟨⟨left, rest⟩, lt⟩ := operand
      have : rest.pending.length < m.stream.pending.length := lt
      rw [read] at first
      simp only [read]
      refine first.bind (fun halt other => by cases other) fun t s same => ?_
      cases same
      exact yields_operators frames (m := m.goOn (.operators minimum left) rest) rfl lt
  · rw [readExpression, Frames.enter_below_eq_none allowed]
    exact .now (.tooDeep control allowed)
termination_by (m.stream.pending.length, 2)

theorem yields_operand {frames : Frames} {m : Machine} {minimum : Int}
    (control : m.control = .call (.expression minimum)) (allowed : frames.Allows m.callers.length) :
    Yields frames m (fun t s => m.goOn (.operators minimum t) s)
      (readOperand (frames.below (m.callers.length + 1)) m.stream).reading := by
  cases role : PrefixOp.ofToken m.stream.current with
  | some op =>
    have shorter := length_advance_of_role rfl role
    let m' := m.call (.prefixed minimum op) (.expression op.precedence) m.stream.advance
    have operand : Yields frames m' m'.returns (readExpression
        (frames.below (m.callers.length + 1)) op.precedence m.stream.advance).reading :=
      yields_expression frames (m := m') rfl
    rw [readOperand_of_some role]
    refine .next (.prefixed control allowed role) (operand.bind ?_ ?_)
    · intro halt read
      rw [read]
    · intro t s read
      rw [read]
      exact fun r ends => ends.next (.prefixedRead rfl rfl)
  | none =>
    let m' := m.call (.first minimum) .atom m.stream
    have atom : Yields frames m' m'.returns
        (readAtom (frames.below (m.callers.length + 1)) m.stream).reading :=
      yields_atom frames (m := m') rfl
    rw [readOperand_of_none role]
    refine .next (.first control allowed role) (atom.bind (fun halt read => read) ?_)
    intro t s read
    rw [read]
    exact fun r ends => ends.next (.firstRead rfl rfl)
termination_by (m.stream.pending.length, 1)

theorem yields_atom (frames : Frames) {m : Machine} (control : m.control = .call .atom) :
    Yields frames m m.returns
      (readAtom (frames.below m.callers.length) m.stream).reading := by
  by_cases allowed : frames.Allows m.callers.length
  · have enter := Parser.Frames.enter_below allowed
    cases found : m.stream.current with
    | number n =>
      rw [readAtom_number enter found]
      exact fun r ends => ends.next (.number control allowed found)
    | leftParen =>
      have shorter := length_advance_of_current found (by simp)
      let m' := m.call .group (.expression 0) m.stream.advance
      have content : Yields frames m' m'.returns (readExpression
          (frames.below (m.callers.length + 1)) 0 m.stream.advance).reading :=
        yields_expression frames (m := m') rfl
      rw [readAtom_group enter found]
      refine .next (.group control allowed found) (content.bind ?_ ?_)
      · intro halt read
        rw [read]
      · intro t s read
        rw [read]
        by_cases closes : s.current = .rightParen
        · simp only [if_pos closes]
          exact fun r ends => ends.next (.closed rfl rfl closes)
        · simp only [if_neg closes]
          exact .now (.unclosed rfl rfl closes)
    | rightParen | operator | endOfInput =>
      have noNumber (n : Int) : m.stream.current ≠ .number n := by simp [found]
      have noGroup : m.stream.current ≠ .leftParen := by simp [found]
      rw [readAtom_missing enter noNumber noGroup]
      exact .now (.missing control allowed noNumber noGroup)
  · rw [readAtom, Frames.enter_below_eq_none allowed]
    exact .now (.tooDeep control allowed)
termination_by (m.stream.pending.length, 0)

theorem yields_operators (frames : Frames) {m : Machine} {minimum : Int} {left : Tree}
    (control : m.control = .operators minimum left) (h : m.stream.pending.length < n) :
    Yields frames m m.returns
      (readTail (frames.below (m.callers.length + 1)) minimum left m.stream h).reading := by
  cases Parser.turn minimum m.stream.current with
  | stops stops =>
    rw [readTail_stop stops]
    exact fun r ends => ends.next (.stop control stops)
  | infixed op role binds =>
    have shorter := length_advance_of_role rfl role
    let m' := m.call (.infixed minimum left op) (.expression op.rightMinimum) m.stream.advance
    have right : Yields frames m' m'.returns (readExpression
        (frames.below (m.callers.length + 1)) op.rightMinimum m.stream.advance).reading :=
      yields_expression frames (m := m') rfl
    rw [readTail_infixed role binds]
    refine .next (.infixed control role binds) (right.bind ?_ ?_)
    · intro halt read
      replace read := eq_error_of_reading read
      rw [read]
      rfl
    · intro t s read
      obtain ⟨lt, read⟩ := eq_ok_of_reading read
      have : s.pending.length < m.stream.pending.length := Nat.lt_trans lt shorter
      rw [read]
      exact .next (.infixedRead rfl rfl)
        (yields_operators frames (m := m.goOn (.operators minimum (.infixed left op t)) s) rfl _)
  | postfixed op role binds =>
    have shorter := length_advance_of_role rfl role
    rw [readTail_postfixed role binds]
    exact .next (.postfixed control role binds)
      (yields_operators frames
        (m := m.goOn (.operators minimum (.postfixed left op)) m.stream.advance) rfl _)
termination_by (m.stream.pending.length, 0)

end

theorem ends_begin (frames : Frames) (p : Procedure) (s : TokenStream) :
    Ends frames (begin p s) (p.read frames s) := by
  have yields : Yields frames (begin p s) (begin p s).returns (p.read (frames.below 0) s) := by
    cases p with
    | expression minimum => exact yields_expression frames (m := begin (.expression minimum) s) rfl
    | atom => exact yields_atom frames (m := begin .atom s) rfl
  rw [frames.below_zero] at yields
  generalize p.read frames s = r at yields
  match r with
  | .ok (t, s') => exact yields _ (.now (.returned rfl rfl))
  | .error halt => exact yields

end Machine

end TokenStream

end LineCalc
