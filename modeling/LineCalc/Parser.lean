import LineCalc.Parser.Shrinking
import LineCalc.Token.Lexer

/-! The readers of expressions as functions from tokens to a tree and the tokens behind it,
each pinned by one equation. Nothing else about how they recurse is needed. -/
namespace LineCalc.Parser

def expression (frames : Frames) (minimum : Int) (ts : List Token) : Reading :=
  (readExpression frames minimum ts).reading

def operand (frames : Frames) (ts : List Token) : Reading := (readOperand frames ts).reading

def atom (frames : Frames) (ts : List Token) : Reading := (readAtom frames ts).reading

def operators (frames : Frames) (minimum : Int) (left : Tree) (ts : List Token) : Reading :=
  (readTail frames minimum left ts (Nat.lt_succ_self _)).reading

def closed (t : Tree) : List Token → Reading
  | .rightParen :: rest => .ok (t, rest)
  | ts => .error (halt ")" (.front ts) ts)

theorem reading_close (t : Tree) (ts : List Token) (h : ts.length < n) :
    (close t ts h).reading = closed t ts := by
  cases ts with
  | nil => rfl
  | cons u rest => cases u <;> rfl

theorem reading_readTail (frames : Frames) (minimum : Int) (left : Tree) (ts : List Token)
    (h : ts.length < n) (h' : ts.length < m) :
    (readTail frames minimum left ts h).reading = (readTail frames minimum left ts h').reading := by
  match ts with
  | [] => rw [readTail, readTail]; rfl
  | t :: tail =>
    rw [readTail, readTail]
    cases InfixOp.ofToken t with
    | some op =>
      dsimp only
      split
      · rfl
      · cases readExpression frames op.rightMinimum tail with
        | error e => rfl
        | ok r =>
          have : r.val.2.length < tail.length := r.property
          exact reading_readTail frames minimum _ r.val.2 _ _
    | none =>
      dsimp only
      cases PostfixOp.ofToken t with
      | some op =>
        dsimp only
        split
        · rfl
        · exact reading_readTail frames minimum _ tail _ _
      | none => rfl
termination_by ts.length

theorem expression_eq (frames : Frames) (minimum : Int) (ts : List Token) :
    expression frames minimum ts =
      match frames.enter with
      | none => .error ⟨.tooDeep, ts⟩
      | some inner => operand inner ts >>= fun r => operators inner minimum r.1 r.2 := by
  rw [expression, readExpression]
  cases frames.enter with
  | none => rfl
  | some inner =>
    dsimp only
    rw [operand]
    cases readOperand inner ts with
    | error e => rfl
    | ok r => exact reading_readTail ..

theorem operand_nil (frames : Frames) : operand frames [] = atom frames [] := by
  rw [operand, readOperand, atom]

theorem operand_cons (frames : Frames) (t : Token) (tail : List Token) :
    operand frames (t :: tail) =
      match PrefixOp.ofToken t with
      | none => atom frames (t :: tail)
      | some op => (expression frames op.precedence tail).map fun r => (.prefixed op r.1, r.2) := by
  rw [operand, readOperand]
  cases PrefixOp.ofToken t with
  | none => rfl
  | some op =>
    dsimp only
    rw [expression]
    cases readExpression frames op.precedence tail <;> rfl

theorem atom_eq (frames : Frames) (ts : List Token) :
    atom frames ts =
      match frames.enter with
      | none => .error ⟨.tooDeep, ts⟩
      | some inner =>
        match ts with
        | .number n :: tail => .ok (.number n, tail)
        | .leftParen :: tail => expression inner 0 tail >>= fun r => closed r.1 r.2
        | t :: tail => .error (halt "expression" t tail)
        | [] => .error (halt "expression" .endOfInput []) := by
  rw [atom, readAtom.eq_def]
  cases frames.enter with
  | none => rfl
  | some inner =>
    dsimp only
    match ts with
    | [] | .number _ :: _ | .rightParen :: _ | .operator _ :: _ | .endOfInput :: _ => rfl
    | .leftParen :: tail =>
      dsimp only
      rw [expression]
      cases readExpression inner 0 tail with
      | error e => rfl
      | ok r => exact reading_close ..

theorem operators_nil (frames : Frames) (minimum : Int) (left : Tree) :
    operators frames minimum left [] = .ok (left, []) := by
  rw [operators, readTail]; rfl

theorem operators_cons (frames : Frames) (minimum : Int) (left : Tree) (t : Token)
    (tail : List Token) :
    operators frames minimum left (t :: tail) =
      match InfixOp.ofToken t with
      | some op =>
        if op.precedence < minimum then .ok (left, t :: tail)
        else expression frames op.rightMinimum tail >>= fun r =>
          operators frames minimum (.infixed left op r.1) r.2
      | none =>
        match PostfixOp.ofToken t with
        | some op =>
          if op.precedence < minimum then .ok (left, t :: tail)
          else operators frames minimum (.postfixed left op) tail
        | none => .ok (left, t :: tail) := by
  rw [operators, readTail]
  cases InfixOp.ofToken t with
  | some op =>
    dsimp only
    split
    · rfl
    · rw [expression]
      cases readExpression frames op.rightMinimum tail with
      | error e => rfl
      | ok r => exact reading_readTail ..
  | none =>
    dsimp only
    cases PostfixOp.ofToken t with
    | some op =>
      dsimp only
      split
      · rfl
      · exact reading_readTail ..
    | none => rfl

theorem length_lt_of_expression {frames : Frames} {minimum : Int} {ts : List Token}
    {r : Tree × List Token} (h : expression frames minimum ts = .ok r) :
    r.2.length < ts.length := by
  rw [expression] at h
  cases hr : readExpression frames minimum ts with
  | error e => rw [hr] at h; cases h
  | ok r' => rw [hr] at h; cases h; exact r'.property

def whole (frames : Frames) (ts : List Token) : Reading :=
  match expression frames 0 ts with
  | .ok (t, []) => .ok (t, [])
  | .ok (_, found :: rest) => .error (halt "end of input" found (found :: rest))
  | .error h => .error h

/-- A reader for which no frame was left is reported at the token where it would have
started. -/
def Halt.fault : Halt → Fault
  | ⟨.fault f, _⟩ => f
  | ⟨.tooDeep, rest⟩ => .expecting "shallower nesting" (.front rest)

end LineCalc.Parser

namespace LineCalc

/-- The tree of a text, read with so many frames. -/
def parseWithin (frames : Parser.Frames) (text : String) : Except Fault Tree :=
  match Parser.whole frames (Token.ofText text) with
  | .ok (t, _) => .ok t
  | .error h => .error h.fault

def calculateWithin (frames : Parser.Frames) (text : String) : Except Fault Int :=
  parseWithin frames text >>= Tree.evaluate

end LineCalc
