import LineCalc.Tree

/-! Reading a tree from tokens by precedence climbing. A reader is told how tightly an
operator has to bind to belong to its expression; weaker ones stay in front of the reader
that called it. Every reader that succeeds leaves strictly fewer tokens than it was given,
and the results carry that fact, since the recursion rests on it. -/
namespace LineCalc.Parser

/-- How many readers may be active at once, the one that starts included. -/
inductive Frames where
  | unlimited
  | atMost (count : Nat)
  deriving DecidableEq, Repr

def Frames.enter : Frames → Option Frames
  | unlimited => some unlimited
  | atMost 0 => none
  | atMost (n + 1) => some (atMost n)

/-- What is left of the frames below so many callers. -/
def Frames.below : Frames → Nat → Frames
  | unlimited, _ => unlimited
  | atMost count, depth => atMost (count - depth)

theorem Frames.below_zero (frames : Frames) : frames.below 0 = frames := by
  cases frames <;> rfl

inductive Cause where
  | fault (fault : Fault)
  | tooDeep
  deriving DecidableEq, Repr

structure Halt where
  cause : Cause
  rest : List Token
  deriving DecidableEq, Repr

abbrev Reading := Except Halt (Tree × List Token)

/-- A reading that leaves fewer than `n` tokens. -/
abbrev Shrinking (n : Nat) := Except Halt { r : Tree × List Token // r.2.length < n }

def Shrinking.reading (r : Shrinking n) : Reading := r.map (·.val)

def halt (label : String) (found : Token) (rest : List Token) : Halt :=
  ⟨.fault (.expecting label found), rest⟩

/-- The parenthesis that has to follow a tree in a group; it is taken only if it is there. -/
def close (t : Tree) (ts : List Token) (h : ts.length < n) : Shrinking (n + 1) :=
  match ts with
  | .rightParen :: rest =>
    .ok ⟨(t, rest), Nat.lt_trans (Nat.lt_succ_self _) (Nat.lt_succ_of_lt h)⟩
  | ts => .error (halt ")" (.front ts) ts)

mutual

def readExpression (frames : Frames) (minimum : Int) (ts : List Token) : Shrinking ts.length :=
  match frames.enter with
  | none => .error ⟨.tooDeep, ts⟩
  | some inner =>
    match readOperand inner ts with
    | .error h => .error h
    | .ok ⟨(left, rest), h⟩ => readTail inner minimum left rest h
termination_by (ts.length, 2)

def readOperand (frames : Frames) (ts : List Token) : Shrinking ts.length :=
  match ts with
  | [] => readAtom frames []
  | t :: tail =>
    match PrefixOp.ofToken t with
    | none => readAtom frames (t :: tail)
    | some op =>
      match readExpression frames op.precedence tail with
      | .error h => .error h
      | .ok ⟨(operand, rest), h⟩ => .ok ⟨(.prefixed op operand, rest), Nat.lt_succ_of_lt h⟩
termination_by (ts.length, 1)

/-- A numeral or an expression between parentheses. The first token is taken before it is
looked at. -/
def readAtom (frames : Frames) (ts : List Token) : Shrinking ts.length :=
  match frames.enter with
  | none => .error ⟨.tooDeep, ts⟩
  | some inner =>
    match ts with
    | .number n :: tail => .ok ⟨(.number n, tail), Nat.lt_succ_self _⟩
    | .leftParen :: tail =>
      match readExpression inner 0 tail with
      | .error h => .error h
      | .ok ⟨(t, rest), h⟩ => close t rest h
    | t :: tail => .error (halt "expression" t tail)
    | [] => .error (halt "expression" .endOfInput [])
termination_by (ts.length, 0)

def readTail (frames : Frames) (minimum : Int) (left : Tree) (ts : List Token)
    (h : ts.length < n) : Shrinking n :=
  match ts with
  | [] => .ok ⟨(left, []), h⟩
  | t :: tail =>
    match InfixOp.ofToken t with
    | some op =>
      if op.precedence < minimum then .ok ⟨(left, t :: tail), h⟩
      else
        match readExpression frames op.rightMinimum tail with
        | .error h => .error h
        | .ok ⟨(right, rest), hr⟩ =>
          have : rest.length < tail.length := hr
          readTail frames minimum (.infixed left op right) rest
            (Nat.lt_trans this (Nat.lt_trans (Nat.lt_succ_self _) h))
    | none =>
      match PostfixOp.ofToken t with
      | some op =>
        if op.precedence < minimum then .ok ⟨(left, t :: tail), h⟩
        else readTail frames minimum (.postfixed left op) tail (Nat.lt_trans (Nat.lt_succ_self _) h)
      | none => .ok ⟨(left, t :: tail), h⟩
termination_by (ts.length, 0)

end

end LineCalc.Parser
