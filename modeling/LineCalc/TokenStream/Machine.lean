import LineCalc.TokenStream.Reader

/-! The readers of expressions one step at a time. A reader that calls another one waits on a
stack, where it keeps what it will do with the tree that comes back, and a step takes one token at
most. Nothing here says that a run ends; that it does, and that it comes to what the readers come
to, is proved. -/
namespace LineCalc

namespace Parser

def Frames.Allows : Frames → Nat → Prop
  | unlimited, _ => True
  | atMost count, depth => depth < count

instance : (frames : Frames) → (depth : Nat) → Decidable (frames.Allows depth)
  | .unlimited, _ => inferInstanceAs (Decidable True)
  | .atMost count, depth => inferInstanceAs (Decidable (depth < count))

end Parser

namespace TokenStream

open LineCalc.Parser (Frames)

inductive Procedure where
  | expression (minimum : Int)
  | atom
  deriving DecidableEq, Repr

def Procedure.read (frames : Frames) : Procedure → TokenStream → Reading
  | expression minimum, s => (readExpression frames minimum s).reading
  | atom, s => (readAtom frames s).reading

/-- What a reader waits for, with what it needs when a tree comes back. -/
inductive Wait where
  | first (minimum : Int)
  | prefixed (minimum : Int) (op : PrefixOp)
  | infixed (minimum : Int) (left : Tree) (op : InfixOp)
  | group
  deriving DecidableEq, Repr

structure Caller where
  wait : Wait
  /-- The stream as it was when the reader was called. -/
  start : TokenStream
  deriving DecidableEq, Repr

inductive Control where
  | call (p : Procedure)
  | operators (minimum : Int) (left : Tree)
  | done (t : Tree)
  deriving DecidableEq, Repr

structure Machine where
  control : Control
  start : TokenStream
  stream : TokenStream
  /-- The readers that wait, the last one that called first. -/
  callers : List Caller
  deriving DecidableEq, Repr

namespace Machine

def begin (p : Procedure) (s : TokenStream) : Machine := ⟨.call p, s, s, []⟩

def call (m : Machine) (wait : Wait) (p : Procedure) (s : TokenStream) : Machine :=
  ⟨.call p, s, s, ⟨wait, m.start⟩ :: m.callers⟩

def goOn (m : Machine) (control : Control) (s : TokenStream) : Machine :=
  { m with control := control, stream := s }

def enter (m : Machine) : Procedure → Machine ⊕ Reading
  | .expression minimum =>
    match PrefixOp.ofToken m.stream.current with
    | some op => .inl (m.call (.prefixed minimum op) (.expression op.precedence) m.stream.advance)
    | none => .inl (m.call (.first minimum) .atom m.stream)
  | .atom =>
    match m.stream.current with
    | .number n => .inl (m.goOn (.done (.number n)) m.stream.advance)
    | .leftParen => .inl (m.call .group (.expression 0) m.stream.advance)
    | t => .inr (.error ⟨.fault (.expecting "expression" t), m.stream.advance⟩)

def seek (m : Machine) (minimum : Int) (left : Tree) : Machine :=
  match InfixOp.ofToken m.stream.current with
  | some op =>
    if op.precedence < minimum then m.goOn (.done left) m.stream
    else m.call (.infixed minimum left op) (.expression op.rightMinimum) m.stream.advance
  | none =>
    match PostfixOp.ofToken m.stream.current with
    | some op =>
      if op.precedence < minimum then m.goOn (.done left) m.stream
      else m.goOn (.operators minimum (.postfixed left op)) m.stream.advance
    | none => m.goOn (.done left) m.stream

def resume (c : Caller) (callers : List Caller) (t : Tree) (s : TokenStream) : Machine ⊕ Reading :=
  match c.wait with
  | .first minimum => .inl ⟨.operators minimum t, c.start, s, callers⟩
  | .prefixed minimum op => .inl ⟨.operators minimum (.prefixed op t), c.start, s, callers⟩
  | .infixed minimum left op => .inl ⟨.operators minimum (.infixed left op t), c.start, s, callers⟩
  | .group =>
    if s.current = .rightParen then .inl ⟨.done t, c.start, s.advance, callers⟩
    else .inr (.error (misses ")" s))

/-- The machine after one step, or what has been read. -/
def step (frames : Frames) (m : Machine) : Machine ⊕ Reading :=
  match m.control with
  | .call p =>
    if frames.Allows m.callers.length then m.enter p else .inr (.error ⟨.tooDeep, m.stream⟩)
  | .operators minimum left => .inl (m.seek minimum left)
  | .done t =>
    match m.callers with
    | [] => .inr (.ok (t, m.stream))
    | c :: callers => resume c callers t m.stream

def after (frames : Frames) : Nat → Machine → Machine ⊕ Reading
  | 0, m => .inl m
  | n + 1, m =>
    match m.step frames with
    | .inl m' => after frames n m'
    | .inr r => .inr r

end Machine

end TokenStream

end LineCalc
