import LineCalc.Parser
import LineCalc.TokenStream

/-! The readers of expressions on a stream. They take tokens by moving the stream on, and when
they fail they leave it where they stopped, however many of them were active. That they read
what the readers of token lists read is proved of them, and not how they are defined. -/
namespace LineCalc.TokenStream

open LineCalc.Parser (Cause Frames)

structure Halt where
  cause : Cause
  stream : TokenStream
  deriving DecidableEq, Repr

abbrev Reading := Except Halt (Tree × TokenStream)

abbrev Shrinking (n : Nat) := Except Halt { r : Tree × TokenStream // r.2.pending.length < n }

def Shrinking.reading (r : Shrinking n) : Reading := r.map (·.val)

def misses (label : String) (s : TokenStream) : Halt :=
  ⟨.fault (.expecting label s.current), s⟩

theorem ne_endOfInput_of_role {role : Token → Option α} {t : Token} {op : α}
    (none : role .endOfInput = none) (h : role t = some op) : t ≠ .endOfInput := by
  rintro rfl
  cases none.symm.trans h

def close (t : Tree) (s : TokenStream) (h : s.pending.length < n) : Shrinking n :=
  if closes : s.current = .rightParen then
    .ok ⟨(t, s.advance), Nat.lt_trans (length_advance_lt (by rw [closes]; nofun)) h⟩
  else .error (misses ")" s)

mutual

def readExpression (frames : Frames) (minimum : Int) (s : TokenStream) :
    Shrinking s.pending.length :=
  match frames.enter with
  | none => .error ⟨.tooDeep, s⟩
  | some inner =>
    match readOperand inner s with
    | .error h => .error h
    | .ok ⟨(left, rest), h⟩ => readTail inner minimum left rest h
termination_by (s.pending.length, 2)

def readOperand (frames : Frames) (s : TokenStream) : Shrinking s.pending.length :=
  match role : PrefixOp.ofToken s.current with
  | none => readAtom frames s
  | some op =>
    have shorter := length_advance_lt (ne_endOfInput_of_role rfl role)
    match readExpression frames op.precedence s.advance with
    | .error h => .error h
    | .ok ⟨(operand, rest), h⟩ => .ok ⟨(.prefixed op operand, rest), Nat.lt_trans h shorter⟩
termination_by (s.pending.length, 1)

/-- A numeral or an expression between parentheses. The first token is taken before it is
looked at. -/
def readAtom (frames : Frames) (s : TokenStream) : Shrinking s.pending.length :=
  match frames.enter with
  | none => .error ⟨.tooDeep, s⟩
  | some inner =>
    match first : s.current with
    | .number n => .ok ⟨(.number n, s.advance), length_advance_lt (by rw [first]; nofun)⟩
    | .leftParen =>
      have shorter := length_advance_lt (s := s) (by rw [first]; nofun)
      match readExpression inner 0 s.advance with
      | .error h => .error h
      | .ok ⟨(t, rest), h⟩ => close t rest (Nat.lt_trans h shorter)
    | t => .error ⟨.fault (.expecting "expression" t), s.advance⟩
termination_by (s.pending.length, 0)

def readTail (frames : Frames) (minimum : Int) (left : Tree) (s : TokenStream)
    (h : s.pending.length < n) : Shrinking n :=
  match role : InfixOp.ofToken s.current with
  | some op =>
    have shorter := length_advance_lt (ne_endOfInput_of_role rfl role)
    if op.precedence < minimum then .ok ⟨(left, s), h⟩
    else
      match readExpression frames op.rightMinimum s.advance with
      | .error h => .error h
      | .ok ⟨(right, rest), hr⟩ =>
        have : rest.pending.length < s.pending.length := Nat.lt_trans hr shorter
        readTail frames minimum (.infixed left op right) rest (Nat.lt_trans this h)
  | none =>
    match role : PostfixOp.ofToken s.current with
    | some op =>
      have shorter := length_advance_lt (ne_endOfInput_of_role rfl role)
      if op.precedence < minimum then .ok ⟨(left, s), h⟩
      else readTail frames minimum (.postfixed left op) s.advance (Nat.lt_trans shorter h)
    | none => .ok ⟨(left, s), h⟩
termination_by (s.pending.length, 0)

end

def readWhole (frames : Frames) (s : TokenStream) : Reading :=
  match (readExpression frames 0 s).reading with
  | .error h => .error h
  | .ok (t, rest) =>
    if rest.current = .endOfInput then .ok (t, rest) else .error (misses "end of input" rest)

def Halt.fault : Halt → Fault
  | ⟨.fault f, _⟩ => f
  | ⟨.tooDeep, s⟩ => .expecting "shallower nesting" s.current

inductive Action where
  | current
  | advance
  | take
  | consume (wanted : Token) (label : String)
  | expression (minimum : Int)
  | atom
  | whole
  deriving DecidableEq, Repr

inductive Answer where
  | done
  | token (t : Token)
  | tree (t : Tree)
  deriving DecidableEq, Repr

def settle : Reading → Except Fault Answer × TokenStream
  | .ok (t, s) => (.ok (.tree t), s)
  | .error h => (.error h.fault, h.stream)

def perform (frames : Frames) (s : TokenStream) : Action → Except Fault Answer × TokenStream
  | .current => (.ok (.token s.current), s)
  | .advance => (.ok .done, s.advance)
  | .take => (.ok (.token s.current), s.advance)
  | .consume wanted label =>
    if s.current = wanted then (.ok .done, s.advance)
    else (.error (.expecting label s.current), s)
  | .expression minimum => settle (readExpression frames minimum s).reading
  | .atom => settle (readAtom frames s).reading
  | .whole => settle (readWhole frames s)

def performAll (frames : Frames) :
    TokenStream → List Action → List (Except Fault Answer × TokenStream)
  | _, [] => []
  | s, a :: as => s.perform frames a :: performAll frames (s.perform frames a).2 as

/-- Every token with the offset behind it, up to the end of input and with it. -/
def drain (s : TokenStream) : List (Token × Nat) :=
  if h : s.current = .endOfInput then [(s.current, s.position)]
  else
    have := length_advance_lt h
    (s.current, s.position) :: drain s.advance
termination_by s.pending.length

end LineCalc.TokenStream
