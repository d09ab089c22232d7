import LineCalc.Parser

/-! The readers as rules, one for each way in which a reader goes on or ends. The readers
call each other at many depths with many minimums, so whatever holds of all readings is
shown by induction on the rules and not on the calls. -/
namespace LineCalc.Parser

theorem precedence_le_seven (op : InfixOp) : op.precedence ≤ 7 := by
  cases op <;> decide

/-- An expression with this minimum does not go on with the token. -/
structure Stops (minimum : Int) (t : Token) : Prop where
  ofInfix : ∀ op, InfixOp.ofToken t = some op → op.precedence < minimum
  ofPostfix : ∀ op, PostfixOp.ofToken t = some op → op.precedence < minimum

theorem Stops.mono {low high : Int} {t : Token} (h : Stops low t) (le : low ≤ high) :
    Stops high t :=
  ⟨fun op hop => Int.lt_of_lt_of_le (h.ofInfix op hop) le,
    fun op hop => Int.lt_of_lt_of_le (h.ofPostfix op hop) le⟩

theorem stops_of_no_operator {t : Token} (hi : InfixOp.ofToken t = none)
    (hp : PostfixOp.ofToken t = none) (minimum : Int) : Stops minimum t where
  ofInfix op h := by rw [hi] at h; cases h
  ofPostfix op h := by rw [hp] at h; cases h

theorem stops_endOfInput (minimum : Int) : Stops minimum .endOfInput :=
  stops_of_no_operator rfl rfl minimum

theorem stops_rightParen (minimum : Int) : Stops minimum .rightParen :=
  stops_of_no_operator rfl rfl minimum

theorem infixOp_eq_none {t : Token} {op : PostfixOp}
    (h : PostfixOp.ofToken t = some op) : InfixOp.ofToken t = none := by
  rw [PostfixOp.ofToken_eq_some_iff] at h
  subst h
  cases op; rfl

theorem postfixOp_eq_none {t : Token} {op : InfixOp} (h : InfixOp.ofToken t = some op) :
    PostfixOp.ofToken t = none := by
  cases hp : PostfixOp.ofToken t with
  | none => rfl
  | some op' => rw [infixOp_eq_none hp] at h; cases h

theorem stops_of_infixOp {minimum : Int} {t : Token} {op : InfixOp}
    (role : InfixOp.ofToken t = some op) (weak : op.precedence < minimum) : Stops minimum t where
  ofInfix op' h := by
    rw [role] at h
    cases h
    exact weak
  ofPostfix op' h := by
    rw [postfixOp_eq_none role] at h
    cases h

theorem stops_of_postfixOp {minimum : Int} {t : Token} {op : PostfixOp}
    (role : PostfixOp.ofToken t = some op) (weak : op.precedence < minimum) : Stops minimum t where
  ofInfix op' h := by
    rw [infixOp_eq_none role] at h
    cases h
  ofPostfix op' h := by
    rw [role] at h
    cases h
    exact weak

/-- What an expression with this minimum does at a token behind its operand. -/
inductive Turn (minimum : Int) (t : Token) : Prop where
  | stops (h : Stops minimum t)
  | infixed (op : InfixOp) (role : InfixOp.ofToken t = some op) (binds : minimum ≤ op.precedence)
  | postfixed (op : PostfixOp) (role : PostfixOp.ofToken t = some op)
      (binds : minimum ≤ op.precedence)

theorem turn (minimum : Int) (t : Token) : Turn minimum t := by
  cases hi : InfixOp.ofToken t with
  | some op =>
    by_cases binds : minimum ≤ op.precedence
    · exact .infixed op hi binds
    · exact .stops (stops_of_infixOp hi (Int.not_le.1 binds))
  | none =>
    cases hp : PostfixOp.ofToken t with
    | some op =>
      by_cases binds : minimum ≤ op.precedence
      · exact .postfixed op hp binds
      · exact .stops (stops_of_postfixOp hp (Int.not_le.1 binds))
    | none => exact .stops (stops_of_no_operator hi hp minimum)

inductive Reader where
  | expression (minimum : Int)
  | operand
  | atom
  | operators (minimum : Int) (left : Tree)

def Reader.read (frames : Frames) : Reader → List Token → Reading
  | expression minimum, ts => Parser.expression frames minimum ts
  | operand, ts => Parser.operand frames ts
  | atom, ts => Parser.atom frames ts
  | operators minimum left, ts => Parser.operators frames minimum left ts

inductive Reads : Frames → Reader → List Token → Reading → Prop where
  | expressionTooDeep (enter : frames.enter = none) :
      Reads frames (.expression minimum) ts (.error ⟨.tooDeep, ts⟩)
  | expressionHalts (enter : frames.enter = some below)
      (operand : Reads below .operand ts (.error h)) :
      Reads frames (.expression minimum) ts (.error h)
  | expression (enter : frames.enter = some below)
      (operand : Reads below .operand ts (.ok (left, rest)))
      (tail : Reads below (.operators minimum left) rest r) :
      Reads frames (.expression minimum) ts r
  | prefixedHalts (role : PrefixOp.ofToken t = some op)
      (operand : Reads frames (.expression op.precedence) tail (.error h)) :
      Reads frames .operand (t :: tail) (.error h)
  | prefixed (role : PrefixOp.ofToken t = some op)
      (operand : Reads frames (.expression op.precedence) tail (.ok (tree, rest))) :
      Reads frames .operand (t :: tail) (.ok (.prefixed op tree, rest))
  | plain (role : PrefixOp.ofToken (.front ts) = none) (atom : Reads frames .atom ts r) :
      Reads frames .operand ts r
  | atomTooDeep (enter : frames.enter = none) : Reads frames .atom ts (.error ⟨.tooDeep, ts⟩)
  | number (enter : frames.enter = some below) :
      Reads frames .atom (.number n :: tail) (.ok (.number n, tail))
  | groupHalts (enter : frames.enter = some below)
      (content : Reads below (.expression 0) tail (.error h)) :
      Reads frames .atom (.leftParen :: tail) (.error h)
  | group (enter : frames.enter = some below)
      (content : Reads below (.expression 0) tail (.ok (tree, .rightParen :: rest))) :
      Reads frames .atom (.leftParen :: tail) (.ok (tree, rest))
  | unclosed (enter : frames.enter = some below)
      (content : Reads below (.expression 0) tail (.ok (tree, rest)))
      (found : Token.front rest ≠ .rightParen) :
      Reads frames .atom (.leftParen :: tail) (.error (halt ")" (.front rest) rest))
  | missing (enter : frames.enter = some below) (noNumber : ∀ n, Token.front ts ≠ .number n)
      (noGroup : Token.front ts ≠ .leftParen) :
      Reads frames .atom ts (.error (halt "expression" (.front ts) ts.tail))
  | infixedHalts (role : InfixOp.ofToken t = some op) (binds : minimum ≤ op.precedence)
      (right : Reads frames (.expression op.rightMinimum) tail (.error h)) :
      Reads frames (.operators minimum left) (t :: tail) (.error h)
  | infixed (role : InfixOp.ofToken t = some op) (binds : minimum ≤ op.precedence)
      (right : Reads frames (.expression op.rightMinimum) tail (.ok (tree, rest)))
      (others : Reads frames (.operators minimum (.infixed left op tree)) rest r) :
      Reads frames (.operators minimum left) (t :: tail) r
  | postfixed (role : PostfixOp.ofToken t = some op) (binds : minimum ≤ op.precedence)
      (others : Reads frames (.operators minimum (.postfixed left op)) tail r) :
      Reads frames (.operators minimum left) (t :: tail) r
  | stop (stops : Stops minimum (.front ts)) :
      Reads frames (.operators minimum left) ts (.ok (left, ts))

theorem Shrinking.length_lt {s : Shrinking n} {r : Tree × List Token}
    (h : s.reading = .ok r) : r.2.length < n := by
  cases s with
  | error e => cases h
  | ok r' => cases h; exact r'.property

theorem length_lt_of_operand {frames : Frames} {ts : List Token} {r : Tree × List Token}
    (h : operand frames ts = .ok r) : r.2.length < ts.length :=
  Shrinking.length_lt h

theorem operators_stop {frames : Frames} {minimum : Int} {left : Tree} {ts : List Token}
    (h : Stops minimum (.front ts)) : operators frames minimum left ts = .ok (left, ts) := by
  match ts with
  | [] => exact operators_nil ..
  | t :: tail =>
    rw [operators_cons]
    cases hi : InfixOp.ofToken t with
    | some op => exact if_pos (h.ofInfix op hi)
    | none =>
      cases hp : PostfixOp.ofToken t with
      | some op => exact if_pos (h.ofPostfix op hp)
      | none => rfl

theorem operators_infixed {frames : Frames} {minimum : Int} {left : Tree} {t : Token}
    {tail : List Token} {op : InfixOp} (role : InfixOp.ofToken t = some op)
    (binds : minimum ≤ op.precedence) :
    operators frames minimum left (t :: tail) =
      expression frames op.rightMinimum tail >>= fun r =>
        operators frames minimum (.infixed left op r.1) r.2 := by
  rw [operators_cons, role]
  exact if_neg (Int.not_lt.2 binds)

theorem operators_postfixed {frames : Frames} {minimum : Int} {left : Tree} {t : Token}
    {tail : List Token} {op : PostfixOp} (role : PostfixOp.ofToken t = some op)
    (binds : minimum ≤ op.precedence) :
    operators frames minimum left (t :: tail) =
      operators frames minimum (.postfixed left op) tail := by
  rw [operators_cons, infixOp_eq_none role, role]
  exact if_neg (Int.not_lt.2 binds)

theorem operand_prefixed {frames : Frames} {t : Token} {tail : List Token} {op : PrefixOp}
    (role : PrefixOp.ofToken t = some op) :
    operand frames (t :: tail) =
      (expression frames op.precedence tail).map fun r => (.prefixed op r.1, r.2) := by
  rw [operand_cons, role]

theorem operand_plain {frames : Frames} {ts : List Token}
    (role : PrefixOp.ofToken (.front ts) = none) : operand frames ts = atom frames ts := by
  match ts with
  | [] => exact operand_nil frames
  | t :: tail => rw [operand_cons, show PrefixOp.ofToken t = none from role]

theorem expression_enter {frames inner : Frames} {minimum : Int} {ts : List Token}
    (enter : frames.enter = some inner) :
    expression frames minimum ts =
      operand inner ts >>= fun r => operators inner minimum r.1 r.2 := by
  rw [expression_eq, enter]

theorem atom_number {frames inner : Frames} (enter : frames.enter = some inner) (n : Int)
    (tail : List Token) : atom frames (.number n :: tail) = .ok (.number n, tail) := by
  rw [atom_eq, enter]

theorem atom_group {frames inner : Frames} (enter : frames.enter = some inner)
    (tail : List Token) :
    atom frames (.leftParen :: tail) =
      expression inner 0 tail >>= fun r => closed r.1 r.2 := by
  rw [atom_eq, enter]

theorem atom_missing {frames inner : Frames} {ts : List Token}
    (enter : frames.enter = some inner) (noNumber : ∀ n, Token.front ts ≠ .number n)
    (noGroup : Token.front ts ≠ .leftParen) :
    atom frames ts = .error (halt "expression" (.front ts) ts.tail) := by
  rw [atom_eq, enter]
  match ts with
  | .number n :: _ => exact absurd rfl (noNumber n)
  | .leftParen :: _ => exact absurd rfl noGroup
  | [] | .rightParen :: _ | .operator _ :: _ | .endOfInput :: _ => rfl

theorem closed_unclosed {t : Tree} {ts : List Token} (h : Token.front ts ≠ .rightParen) :
    closed t ts = .error (halt ")" (.front ts) ts) := by
  match ts with
  | .rightParen :: rest => exact absurd rfl h
  | [] | .number _ :: _ | .leftParen :: _ | .operator _ :: _ | .endOfInput :: _ => rfl

theorem Reads.read_eq (h : Reads frames reader ts r) : reader.read frames ts = r := by
  induction h with simp only [Reader.read] at *
  | expressionTooDeep enter => rw [expression_eq, enter]
  | expressionHalts enter _ ih => rw [expression_enter enter, ih]; rfl
  | expression enter _ _ ih iht =>
    rw [expression_enter enter, ih]
    exact iht
  | prefixedHalts role _ ih => rw [operand_prefixed role, ih]; rfl
  | prefixed role _ ih => rw [operand_prefixed role, ih]; rfl
  | plain role _ ih => rw [operand_plain role, ih]
  | atomTooDeep enter => rw [atom_eq, enter]
  | number enter => exact atom_number enter ..
  | groupHalts enter _ ih | group enter _ ih => rw [atom_group enter, ih]; rfl
  | unclosed enter _ found ih =>
    rw [atom_group enter, ih]
    exact closed_unclosed found
  | missing enter noNumber noGroup => exact atom_missing enter noNumber noGroup
  | infixedHalts role binds _ ih => rw [operators_infixed role binds, ih]; rfl
  | infixed role binds _ _ ih iht =>
    rw [operators_infixed role binds, ih]
    exact iht
  | postfixed role binds _ ih => rw [operators_postfixed role binds, ih]
  | stop stops => exact operators_stop stops

/-- Every reader follows the rules, whatever it is given. -/
theorem reads (frames : Frames) (reader : Reader) (ts : List Token) :
    Reads frames reader ts (reader.read frames ts) := by
  match reader with
  | .expression minimum =>
    show Reads _ _ _ (expression frames minimum ts)
    cases enter : frames.enter with
    | none =>
      rw [expression_eq, enter]
      exact .expressionTooDeep enter
    | some inner =>
      have first : Reads inner .operand ts (operand inner ts) := reads inner .operand ts
      rw [expression_enter enter]
      cases ho : operand inner ts with
      | error h => exact .expressionHalts enter (ho ▸ first)
      | ok r =>
        have : r.2.length < ts.length := length_lt_of_operand ho
        exact .expression enter (ho ▸ first) (reads inner (.operators minimum r.1) r.2)
  | .operand =>
    show Reads _ _ _ (operand frames ts)
    cases role : PrefixOp.ofToken (.front ts) with
    | none =>
      rw [operand_plain role]
      exact .plain role (reads frames .atom ts)
    | some op =>
      match ts with
      | [] => cases role
      | t :: tail =>
        have role : PrefixOp.ofToken t = some op := role
        have inner : Reads frames _ tail (expression frames op.precedence tail) :=
          reads frames (.expression op.precedence) tail
        rw [operand_prefixed role]
        cases he : expression frames op.precedence tail with
        | error h => exact .prefixedHalts role (he ▸ inner)
        | ok r => exact .prefixed role (he ▸ inner)
  | .atom =>
    show Reads _ _ _ (atom frames ts)
    cases enter : frames.enter with
    | none =>
      rw [atom_eq, enter]
      exact .atomTooDeep enter
    | some inner =>
      match ts with
      | .number n :: tail =>
        rw [atom_number enter]
        exact .number enter
      | .leftParen :: tail =>
        have content : Reads inner _ tail (expression inner 0 tail) :=
          reads inner (.expression 0) tail
        rw [atom_group enter]
        cases he : expression inner 0 tail with
        | error h => exact .groupHalts enter (he ▸ content)
        | ok r =>
          obtain ⟨tree, rest⟩ := r
          by_cases found : Token.front rest = .rightParen
          · match rest with
            | [] => cases found
            | t :: rest => cases found; exact .group enter (he ▸ content)
          · show Reads _ _ _ (closed tree rest)
            rw [closed_unclosed found]
            exact .unclosed enter (he ▸ content) found
      | [] | .rightParen :: _ | .operator _ :: _ | .endOfInput :: _ =>
        rw [atom_missing enter (fun _ h => by cases h) (fun h => by cases h)]
        exact .missing enter (fun _ h => by cases h) (fun h => by cases h)
  | .operators minimum left =>
    show Reads _ _ _ (operators frames minimum left ts)
    match ts with
    | [] =>
      rw [operators_stop (stops_endOfInput minimum)]
      exact .stop (stops_endOfInput minimum)
    | t :: tail =>
      cases turn minimum t with
      | stops h =>
        rw [operators_stop h]
        exact .stop h
      | infixed op role binds =>
        have right : Reads frames _ tail (expression frames op.rightMinimum tail) :=
          reads frames (.expression op.rightMinimum) tail
        rw [operators_infixed role binds]
        cases he : expression frames op.rightMinimum tail with
        | error h => exact .infixedHalts role binds (he ▸ right)
        | ok r =>
          have : r.2.length < tail.length := length_lt_of_expression he
          exact .infixed role binds (he ▸ right) (reads frames (.operators minimum _) r.2)
      | postfixed op role binds =>
        rw [operators_postfixed role binds]
        exact .postfixed role binds (reads frames (.operators minimum _) tail)
termination_by (ts.length, match reader with | .expression _ => 2 | .operand => 1 | _ => 0)

def Reader.StopsAt : Reader → Token → Prop
  | expression minimum, t | operators minimum _, t => Stops minimum t
  | operand, _ | atom, _ => True

theorem Reads.stopsAt (h : Reads frames reader ts r) :
    ∀ tree rest, r = .ok (tree, rest) → reader.StopsAt (.front rest) := by
  induction h with
  | expression _ _ _ _ iht => exact iht
  | infixed _ _ _ _ _ iht => exact iht
  | postfixed _ _ _ ih => exact ih
  | stop stops =>
    intro tree rest h
    cases h
    exact stops
  | prefixed | plain | number | group => exact fun _ _ _ => trivial
  | _ => exact nofun

theorem Reads.stops (h : Reads frames (.expression minimum) ts (.ok (tree, rest))) :
    Stops minimum (.front rest) :=
  h.stopsAt tree rest rfl

end LineCalc.Parser
