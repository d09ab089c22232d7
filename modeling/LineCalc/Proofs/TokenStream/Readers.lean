import LineCalc.Proofs.Parser.Rules
import LineCalc.TokenStream.Reader

/-! A reader on a stream reads what the reader of token lists reads from the tokens that are
still to come, and leaves the stream in front of the tokens that the other one leaves, whether it
succeeds or fails. The relation between the two results is carried through the rules. -/
namespace LineCalc.TokenStream

open LineCalc.Parser (Frames Reads Reader)

/-- The offset lies in the text, and the end of input is current at its end only. -/
structure Settled (s : TokenStream) : Prop where
  bounded : s.position ≤ s.text.length
  finished : s.current = .endOfInput → s.position = s.text.length

theorem text_advance (s : TokenStream) : s.advance.text = s.text := by
  unfold advance
  split
  · rfl
  · split <;> rfl

theorem settled_advance {s : TokenStream} (h : s.position ≤ s.text.length) :
    Settled s.advance := by
  have size : s.position + s.ahead.length = s.text.length := by
    rw [ahead, List.length_drop]; omega
  have gaps := congrArg List.length
    (List.takeWhile_append_dropWhile (p := Lexeme.isGap) (l := s.ahead))
  rw [List.length_append] at gaps
  unfold advance
  cases rest : s.ahead.dropWhile Lexeme.isGap with
  | nil =>
    rw [rest, List.length_nil, Nat.add_zero] at gaps
    have stop : s.position + (s.ahead.takeWhile Lexeme.isGap).length = s.text.length := by omega
    exact ⟨Nat.le_of_eq stop, fun _ => stop⟩
  | cons c rest' =>
    rw [rest, List.length_cons] at gaps
    have run := (List.takeWhile_sublist (l := rest') Char.isDigit).length_le
    dsimp only
    split
    · refine ⟨?_, nofun⟩
      show s.position + (s.ahead.takeWhile Lexeme.isGap).length + 1 + _ ≤ s.text.length
      omega
    · refine ⟨?_, fun h => absurd h (mark_ne_endOfInput c)⟩
      show s.position + (s.ahead.takeWhile Lexeme.isGap).length + 1 ≤ s.text.length
      omega

theorem front_tokens (s : TokenStream) : Token.front s.tokens = s.current := by
  by_cases h : s.current = .endOfInput
  · rw [tokens, pending, if_pos h, h]
    rfl
  · rw [tokens, pending_cons h]
    rfl

theorem pending_advance_tail {s : TokenStream} (h : Settled s) :
    s.advance.pending = s.pending.tail := by
  by_cases done : s.current = .endOfInput
  · have none : s.ahead = [] := List.drop_of_length_le (Nat.le_of_eq (h.finished done).symm)
    rw [pending_advance, none, Lexeme.scan_nil, pending, if_pos done]
    rfl
  · rw [pending_cons done]
    rfl

theorem tokens_advance {s : TokenStream} (h : Settled s) : s.advance.tokens = s.tokens.tail := by
  rw [tokens, pending_advance_tail h, tokens, List.map_tail]

structure Follows (s s' : TokenStream) : Prop where
  text : s'.text = s.text
  pending : s'.pending <:+ s.pending
  settled : Settled s'

theorem Follows.refl {s : TokenStream} (h : Settled s) : Follows s s :=
  ⟨rfl, List.suffix_refl _, h⟩

theorem Follows.trans {s s' s'' : TokenStream} (h : Follows s s') (h' : Follows s' s'') :
    Follows s s'' :=
  ⟨h'.text.trans h.text, h'.pending.trans h.pending, h'.settled⟩

theorem follows_advance {s : TokenStream} (h : Settled s) : Follows s s.advance :=
  ⟨text_advance s, pending_advance_tail h ▸ List.tail_suffix _, settled_advance h.bounded⟩

inductive Matches (s : TokenStream) : Reading → Parser.Reading → Prop
  | ok (follows : Follows s s') (rest : s'.tokens = ts) : Matches s (.ok (t, s')) (.ok (t, ts))
  | halted (follows : Follows s s') (rest : s'.tokens = ts) :
      Matches s (.error ⟨cause, s'⟩) (.error ⟨cause, ts⟩)

theorem Matches.trans {s s' : TokenStream} {r : Reading} {q : Parser.Reading}
    (h : Follows s s') (m : Matches s' r q) : Matches s r q := by
  cases m with
  | ok follows rest => exact .ok (h.trans follows) rest
  | halted follows rest => exact .halted (h.trans follows) rest

theorem Matches.exists_ok {s : TokenStream} {r : Shrinking n} {t : Tree} {ts : List Token}
    (h : Matches s r.reading (.ok (t, ts))) :
    ∃ s' lt, r = .ok ⟨(t, s'), lt⟩ ∧ Follows s s' ∧ s'.tokens = ts := by
  match r with
  | .error e => cases h
  | .ok ⟨(t', s'), lt⟩ =>
    cases h with
    | ok follows rest => exact ⟨s', lt, rfl, follows, rest⟩

theorem Matches.exists_error {s : TokenStream} {r : Shrinking n} {h : Parser.Halt}
    (m : Matches s r.reading (.error h)) :
    ∃ s', r = .error ⟨h.cause, s'⟩ ∧ Follows s s' ∧ s'.tokens = h.rest := by
  match r with
  | .ok ⟨(t, s'), lt⟩ => cases m
  | .error e =>
    cases m with
    | halted follows rest => exact ⟨_, rfl, follows, rest⟩

def Agrees (frames : Frames) (s : TokenStream) (q : Parser.Reading) : Reader → Prop
  | .expression minimum => Matches s (readExpression frames minimum s).reading q
  | .operand => Matches s (readOperand frames s).reading q
  | .atom => Matches s (readAtom frames s).reading q
  | .operators minimum left =>
    ∀ n (h : s.pending.length < n), Matches s (readTail frames minimum left s h).reading q

theorem tokens_cons {s : TokenStream} {t : Token} {tail : List Token} (h : s.tokens = t :: tail) :
    s.current = t := by
  rw [← front_tokens, h]
  rfl

theorem ne_endOfInput_of_tokens {s : TokenStream} {t : Token} {tail : List Token}
    (h : s.tokens = t :: tail) : s.current ≠ .endOfInput := by
  intro done
  rw [tokens, pending, if_pos done] at h
  cases h

theorem tokens_advance_cons {s : TokenStream} {t : Token} {tail : List Token} (settled : Settled s)
    (h : s.tokens = t :: tail) : s.advance.tokens = tail := by
  rw [tokens_advance settled, h]
  rfl

section Equations

variable {frames inner : Frames} {s : TokenStream}

theorem readOperand_of_some {op : PrefixOp} (role : PrefixOp.ofToken s.current = some op) :
    (readOperand frames s).reading =
      match (readExpression frames op.precedence s.advance).reading with
      | .error h => .error h
      | .ok (operand, rest) => .ok (.prefixed op operand, rest) := by
  rw [readOperand]
  split
  · next none => cases none.symm.trans role
  · next op' role' =>
    cases role'.symm.trans role
    cases readExpression frames op.precedence s.advance <;> rfl

theorem readOperand_of_none (role : PrefixOp.ofToken s.current = none) :
    readOperand frames s = readAtom frames s := by
  rw [readOperand]
  split
  · rfl
  · next op some => cases some.symm.trans role

theorem reading_close (t : Tree) (h : s.pending.length < n) :
    (close t s h).reading =
      if s.current = .rightParen then .ok (t, s.advance) else .error (misses ")" s) := by
  by_cases closes : s.current = .rightParen
  · rw [close, dif_pos closes, if_pos closes]
    rfl
  · rw [close, dif_neg closes, if_neg closes]
    rfl

theorem readAtom_number (enter : frames.enter = some inner) {n : Int}
    (first : s.current = .number n) : (readAtom frames s).reading = .ok (.number n, s.advance) := by
  rw [readAtom, enter]
  dsimp only
  split
  · next m found =>
    cases found.symm.trans first
    rfl
  · next found => cases found.symm.trans first
  · next other _ => exact absurd first (other n)

theorem readAtom_group (enter : frames.enter = some inner) (first : s.current = .leftParen) :
    (readAtom frames s).reading =
      match (readExpression inner 0 s.advance).reading with
      | .error h => .error h
      | .ok (t, rest) =>
        if rest.current = .rightParen then .ok (t, rest.advance)
        else .error (misses ")" rest) := by
  rw [readAtom, enter]
  dsimp only
  split
  · next found => cases found.symm.trans first
  · cases readExpression inner 0 s.advance with
    | error h => rfl
    | ok read =>
      obtain ⟨⟨t, rest⟩, lt⟩ := read
      exact reading_close ..
  · next _ other => exact absurd first other

theorem readAtom_missing (enter : frames.enter = some inner)
    (noNumber : ∀ n, s.current ≠ .number n) (noGroup : s.current ≠ .leftParen) :
    (readAtom frames s).reading =
      .error ⟨.fault (.expecting "expression" s.current), s.advance⟩ := by
  rw [readAtom, enter]
  dsimp only
  split
  · next n found => exact absurd found (noNumber n)
  · next found => exact absurd found noGroup
  · rfl

variable {minimum : Int} {left : Tree}

theorem readTail_infixed {op : InfixOp} (role : InfixOp.ofToken s.current = some op)
    (binds : minimum ≤ op.precedence) (h : s.pending.length < n) :
    readTail frames minimum left s h =
      match readExpression frames op.rightMinimum s.advance with
      | .error e => .error e
      | .ok ⟨(right, rest), hr⟩ =>
        readTail frames minimum (.infixed left op right) rest
          (Nat.lt_trans
            (Nat.lt_trans hr (length_advance_lt (ne_endOfInput_of_role rfl role))) h) := by
  rw [readTail]
  split
  · next op' role' =>
    cases role'.symm.trans role
    refine (if_neg (Int.not_lt.2 binds)).trans ?_
    cases readExpression frames op.rightMinimum s.advance <;> rfl
  · next none => cases none.symm.trans role

theorem readTail_postfixed {op : PostfixOp} (role : PostfixOp.ofToken s.current = some op)
    (binds : minimum ≤ op.precedence) (h : s.pending.length < n) :
    readTail frames minimum left s h =
      readTail frames minimum (.postfixed left op) s.advance
        (Nat.lt_trans (length_advance_lt (ne_endOfInput_of_role rfl role)) h) := by
  rw [readTail]
  split
  · next op' role' => cases (Parser.infixOp_eq_none role).symm.trans role'
  · split
    · next op' role' =>
      cases role'.symm.trans role
      rw [if_neg (Int.not_lt.2 binds)]
    · next none => cases none.symm.trans role

theorem readTail_stop (stops : Parser.Stops minimum s.current) (h : s.pending.length < n) :
    (readTail frames minimum left s h).reading = .ok (left, s) := by
  rw [readTail]
  split
  · next op role =>
    rw [if_pos (stops.ofInfix op role)]
    rfl
  · split
    · next op role =>
      rw [if_pos (stops.ofPostfix op role)]
      rfl
    · rfl

end Equations

section Behind

variable {frames : Frames} {minimum : Int} {s : TokenStream} {t : Token} {tail ts : List Token}

theorem exists_ok_behind {tree : Tree} (settled : Settled s) (rest : s.tokens = t :: tail)
    (h : ∀ s, Settled s → s.tokens = tail →
      Agrees frames s (.ok (tree, ts)) (.expression minimum)) :
    ∃ s' lt, readExpression frames minimum s.advance = .ok ⟨(tree, s'), lt⟩ ∧ Follows s s' ∧
      s'.tokens = ts := by
  have onward := follows_advance settled
  obtain ⟨s', lt, read, follows, rest'⟩ :=
    Matches.exists_ok (h s.advance onward.settled (tokens_advance_cons settled rest))
  exact ⟨s', lt, read, onward.trans follows, rest'⟩

theorem exists_error_behind {halt : Parser.Halt} (settled : Settled s) (rest : s.tokens = t :: tail)
    (h : ∀ s, Settled s → s.tokens = tail → Agrees frames s (.error halt) (.expression minimum)) :
    ∃ s', readExpression frames minimum s.advance = .error ⟨halt.cause, s'⟩ ∧ Follows s s' ∧
      s'.tokens = halt.rest := by
  have onward := follows_advance settled
  obtain ⟨s', read, follows, rest'⟩ :=
    Matches.exists_error (h s.advance onward.settled (tokens_advance_cons settled rest))
  exact ⟨s', read, onward.trans follows, rest'⟩

end Behind

theorem agrees (h : Reads frames reader ts q) :
    ∀ s, Settled s → s.tokens = ts → Agrees frames s q reader := by
  induction h with
  | expressionTooDeep enter =>
    intro s settled rest
    show Matches s (readExpression ..).reading _
    rw [readExpression, enter]
    exact .halted (.refl settled) rest
  | expressionHalts enter _ ih =>
    intro s settled rest
    obtain ⟨s', read, follows, rest⟩ := Matches.exists_error (ih s settled rest)
    show Matches s (readExpression ..).reading _
    rw [readExpression, enter]
    simp only [read]
    exact .halted follows rest
  | expression enter _ _ ih iht =>
    intro s settled rest
    obtain ⟨s', lt, read, follows, rest⟩ := Matches.exists_ok (ih s settled rest)
    show Matches s (readExpression ..).reading _
    rw [readExpression, enter]
    simp only [read]
    exact (iht s' follows.settled rest _ lt).trans follows
  | prefixedHalts role _ ih =>
    intro s settled rest
    obtain ⟨s', read, follows, rest'⟩ := exists_error_behind settled rest ih
    show Matches s (readOperand ..).reading _
    rw [readOperand_of_some (tokens_cons rest ▸ role), read]
    exact .halted follows rest'
  | prefixed role _ ih =>
    intro s settled rest
    obtain ⟨s', lt, read, follows, rest'⟩ := exists_ok_behind settled rest ih
    show Matches s (readOperand ..).reading _
    rw [readOperand_of_some (tokens_cons rest ▸ role), read]
    exact .ok follows rest'
  | plain role _ ih =>
    intro s settled rest
    show Matches s (readOperand ..).reading _
    rw [readOperand_of_none (by rw [← front_tokens, rest]; exact role)]
    exact ih s settled rest
  | atomTooDeep enter =>
    intro s settled rest
    show Matches s (readAtom ..).reading _
    rw [readAtom, enter]
    exact .halted (.refl settled) rest
  | number enter =>
    intro s settled rest
    show Matches s (readAtom ..).reading _
    rw [readAtom_number enter (tokens_cons rest)]
    exact .ok (follows_advance settled) (tokens_advance_cons settled rest)
  | groupHalts enter _ ih =>
    intro s settled rest
    obtain ⟨s', read, follows, rest'⟩ := exists_error_behind settled rest ih
    show Matches s (readAtom ..).reading _
    rw [readAtom_group enter (tokens_cons rest), read]
    exact .halted follows rest'
  | group enter _ ih =>
    intro s settled rest
    obtain ⟨s', lt, read, follows, closes⟩ := exists_ok_behind settled rest ih
    show Matches s (readAtom ..).reading _
    rw [readAtom_group enter (tokens_cons rest), read]
    simp only [Shrinking.reading, Except.map, if_pos (tokens_cons closes)]
    exact .ok (follows.trans (follows_advance follows.settled))
      (tokens_advance_cons follows.settled closes)
  | unclosed enter _ found ih =>
    intro s settled rest
    obtain ⟨s', lt, read, follows, rfl⟩ := exists_ok_behind settled rest ih
    rw [front_tokens] at found
    show Matches s (readAtom ..).reading _
    rw [readAtom_group enter (tokens_cons rest), read, front_tokens]
    simp only [Shrinking.reading, Except.map, if_neg found]
    exact .halted follows rfl
  | missing enter noNumber noGroup =>
    intro s settled rest
    subst rest
    rw [front_tokens] at noNumber noGroup
    show Matches s (readAtom ..).reading _
    rw [readAtom_missing enter noNumber noGroup, front_tokens]
    exact .halted (follows_advance settled) (tokens_advance settled)
  | infixedHalts role binds _ ih =>
    intro s settled rest n h
    obtain ⟨s', read, follows, rest'⟩ := exists_error_behind settled rest ih
    rw [readTail_infixed (tokens_cons rest ▸ role) binds, read]
    exact .halted follows rest'
  | infixed role binds _ _ ih iht =>
    intro s settled rest n h
    obtain ⟨s', lt, read, follows, rest'⟩ := exists_ok_behind settled rest ih
    rw [readTail_infixed (tokens_cons rest ▸ role) binds, read]
    exact (iht s' follows.settled rest' n _).trans follows
  | postfixed role binds _ ih =>
    intro s settled rest n h
    have onward := follows_advance settled
    rw [readTail_postfixed (tokens_cons rest ▸ role) binds]
    exact (ih s.advance onward.settled (tokens_advance_cons settled rest) n _).trans onward
  | stop stops =>
    intro s settled rest n h
    subst rest
    rw [front_tokens] at stops
    rw [readTail_stop stops]
    exact .ok (.refl settled) rfl

theorem matches_expression (frames : Frames) (minimum : Int) {s : TokenStream}
    (settled : Settled s) :
    Matches s (readExpression frames minimum s).reading
      (Parser.expression frames minimum s.tokens) :=
  agrees (Parser.reads frames (.expression minimum) s.tokens) s settled rfl

theorem matches_atom (frames : Frames) {s : TokenStream} (settled : Settled s) :
    Matches s (readAtom frames s).reading (Parser.atom frames s.tokens) :=
  agrees (Parser.reads frames .atom s.tokens) s settled rfl

theorem matches_whole (frames : Frames) {s : TokenStream} (settled : Settled s) :
    Matches s (readWhole frames s) (Parser.whole frames s.tokens) := by
  have first := matches_expression frames 0 settled
  rw [readWhole, Parser.whole]
  generalize (readExpression frames 0 s).reading = r at first ⊢
  generalize Parser.expression frames 0 s.tokens = q at first ⊢
  cases first with
  | halted follows rest => exact .halted follows rest
  | @ok s' ts t follows rest =>
    cases ts with
    | nil =>
      have done : s'.current = .endOfInput := by
        rw [← front_tokens, rest]
        rfl
      simp only [if_pos done]
      exact .ok follows rest
    | cons found ts =>
      simp only [if_neg (ne_endOfInput_of_tokens rest)]
      rw [misses, tokens_cons rest]
      exact .halted follows rest

end LineCalc.TokenStream
