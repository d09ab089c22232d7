import LineCalc.Proofs.Acceptance
import LineCalc.Proofs.Grammar.Climbing

/-! What an expression with a lower minimum reads beyond one with a higher minimum: the operators
that the other one leaves. They lie around its tree in layers, and no layer binds tighter than the
one inside it, because a right operand ends at an operator that is no stronger than its own. -/
namespace LineCalc

/-- An operator behind a tree, with its right operand if it has one. -/
inductive Layer where
  | infixed (op : InfixOp) (right : Tree)
  | postfixed (op : PostfixOp)

namespace Layer

def precedence : Layer → Int
  | infixed op _ => op.precedence
  | postfixed op => op.precedence

def around : Layer → Tree → Tree
  | infixed op right, t => .infixed t op right
  | postfixed op, t => .postfixed t op

end Layer

def Tree.wrap (t : Tree) (layers : List Layer) : Tree :=
  layers.foldl (fun t layer => layer.around t) t

namespace Parser

/-- Layers that begin with the operator at a token: all bind tightly enough, none tighter than the
one inside it, and what is too strong for the token is too strong for all of them. -/
structure Layers (minimum : Int) (front : Token) (layers : List Layer) : Prop where
  binds : ∀ layer ∈ layers, minimum ≤ layer.precedence
  sorted : layers.Pairwise fun inner outer => outer.precedence ≤ inner.precedence
  weak : ∀ bound, Stops bound front → ∀ layer ∈ layers, layer.precedence < bound

theorem Layers.cons {minimum : Int} {t next : Token} {layer : Layer} {layers : List Layer}
    (binds : minimum ≤ layer.precedence)
    (weak : ∀ bound, Stops bound t → layer.precedence < bound)
    (stops : Stops (layer.precedence + 1) next) (others : Layers minimum next layers) :
    Layers minimum t (layer :: layers) := by
  have outer (other : Layer) (mem : other ∈ layers) : other.precedence ≤ layer.precedence :=
    Int.lt_add_one_iff.1 (others.weak _ stops other mem)
  refine ⟨List.forall_mem_cons.2 ⟨binds, others.binds⟩, .cons outer others.sorted, ?_⟩
  intro bound stops
  have first := weak bound stops
  exact List.forall_mem_cons.2
    ⟨first, fun other mem => Int.lt_of_le_of_lt (outer other mem) first⟩

def Reader.Wraps (ts : List Token) (t : Tree) : Reader → Prop
  | operators minimum left => ∃ layers, t = left.wrap layers ∧ Layers minimum (.front ts) layers
  | expression _ | operand | atom => True

theorem Reads.wraps (h : Reads frames reader ts r) :
    ∀ t rest, r = .ok (t, rest) → reader.Wraps ts t := by
  induction h with
  | @infixed t op _ _ _ right _ _ _ role binds operand _ _ ih =>
    intro tree rest hr
    obtain ⟨layers, rfl, others⟩ := ih tree rest hr
    have weak (bound : Int) (stops : Stops bound t) : op.precedence < bound :=
      stops.ofInfix op role
    exact ⟨.infixed op right :: layers, rfl, .cons binds weak operand.stops others⟩
  | @postfixed t op _ _ _ _ _ role binds _ ih =>
    intro tree rest hr
    obtain ⟨layers, rfl, others⟩ := ih tree rest hr
    have weak (bound : Int) (stops : Stops bound t) : op.precedence < bound :=
      stops.ofPostfix op role
    -- No operator is stronger than a postfix operator, so any may stand behind it.
    exact ⟨.postfixed op :: layers, rfl,
      .cons binds weak (stops_of_eleven_lt (Int.lt_succ 11) _) others⟩
  | stop =>
    rintro tree rest ⟨⟩
    exact ⟨[], rfl, List.forall_mem_nil _, .nil, fun _ _ => List.forall_mem_nil _⟩
  | expression | prefixed | plain | number | group => exact fun _ _ _ => trivial
  | _ => exact nofun

/-- A reader with the minimum `high` stops on the way of this one, which goes on from there as if
it had started there. -/
def Reader.PassesStop (frames : Frames) (high : Int) (ts : List Token) (r : Reading) :
    Reader → Prop
  | operators low left => low ≤ high → ∃ inner behind,
      Reads frames (.operators high left) ts (.ok (inner, behind)) ∧
        Reads frames (.operators low inner) behind r
  | expression _ | operand | atom => True

theorem Reads.passesStop (h : Reads frames reader ts r) (high : Int) :
    ∀ t rest, r = .ok (t, rest) → reader.PassesStop frames high ts r := by
  induction h with
  | @infixed _ op _ frames _ _ _ _ _ role binds operand others _ ih =>
    intro t rest hr le
    by_cases tight : high ≤ op.precedence
    · obtain ⟨inner, behind, first, second⟩ := ih t rest hr le
      exact ⟨inner, behind, .infixed role tight operand first, second⟩
    · exact ⟨_, _, .stop (stops_of_infixOp role (Int.not_le.1 tight)),
        .infixed role binds operand others⟩
  | @postfixed _ op _ frames _ _ _ role binds others ih =>
    intro t rest hr le
    by_cases tight : high ≤ op.precedence
    · obtain ⟨inner, behind, first, second⟩ := ih t rest hr le
      exact ⟨inner, behind, .postfixed role tight first, second⟩
    · exact ⟨_, _, .stop (stops_of_postfixOp role (Int.not_le.1 tight)),
        .postfixed role binds others⟩
  | stop stops =>
    intro t rest hr le
    exact ⟨_, _, .stop (stops.mono le), .stop stops⟩
  | expression | prefixed | plain | number | group => exact fun _ _ _ => trivial
  | _ => exact nofun

/-- Lowering the minimum extends an expression outwards only. With the higher minimum less is taken
of the same tokens, and what is read then lies inside what is read with the lower minimum, in
layers of operators from the lower minimum up to the higher one, none tighter than the one inside
it. No operator is left in front that binds as tightly as the minimum. -/
theorem expression_wraps {low high : Int} (le : low ≤ high) (frames : Frames) (ts : List Token) :
    (∀ t rest, expression frames low ts = .ok (t, rest) →
      ∃ inner behind layers, expression frames high ts = .ok (inner, behind) ∧
        behind <:+ ts ∧ rest <:+ behind ∧ t = inner.wrap layers ∧
        (∀ layer ∈ layers, low ≤ layer.precedence ∧ layer.precedence < high) ∧
        layers.Pairwise (fun inner outer => outer.precedence ≤ inner.precedence)) ∧
    ∀ minimum t rest, expression frames minimum ts = .ok (t, rest) →
      (∀ op, InfixOp.ofToken (.front rest) = some op → op.precedence < minimum) ∧
        ∀ op, PostfixOp.ofToken (.front rest) = some op → op.precedence < minimum := by
  have rules (minimum : Int) (t : Tree) (rest : List Token)
      (h : expression frames minimum ts = .ok (t, rest)) :
      Reads frames (.expression minimum) ts (.ok (t, rest)) :=
    h ▸ reads frames (.expression minimum) ts
  constructor
  · intro t rest h
    cases rules low t rest h with
    | expression enter operand operators =>
      obtain ⟨inner, behind, first, second⟩ := operators.passesStop high t rest rfl le
      obtain ⟨layers, wrapped, others⟩ := second.wraps t rest rfl
      have read := Reads.expression enter operand first
      exact ⟨inner, behind, layers, read.read_eq, read.isSuffix, second.isSuffix, wrapped,
        fun layer mem => ⟨others.binds layer mem, others.weak high read.stops layer mem⟩,
        others.sorted⟩
  · intro minimum t rest h
    have stops := (rules minimum t rest h).stops
    exact ⟨stops.ofInfix, stops.ofPostfix⟩

theorem expression_wraps_product :
    (4 : Int) ≤ 7 ∧
      expression (.atMost 20) 4 (Token.ofText "2*3!-4<5&6") =
        .ok (.infixed (.infixed (.infixed (.number 2) .multiply (.postfixed (.number 3) .factorial))
          .subtract (.number 4)) .less (.number 5), [.operator "&", .number 6]) ∧
      ∃ (inner : Tree) (behind : List Token) (layers : List Layer),
        expression (.atMost 20) 7 (Token.ofText "2*3!-4<5&6") = .ok (inner, behind) ∧
          [.operator "&", .number 6] <:+ behind ∧
          (∀ layer ∈ layers, 4 ≤ layer.precedence ∧ layer.precedence < 7) ∧
          layers.Pairwise fun inner outer => outer.precedence ≤ inner.precedence := by
  have tokens : Token.ofText "2*3!-4<5&6" = [.number 2, .operator "*", .number 3, .operator "!",
      .operator "-", .number 4, .operator "<", .number 5, .operator "&", .number 6] := by
    decide +kernel
  have read : expression (.atMost 20) 4 (Token.ofText "2*3!-4<5&6") =
      .ok (.infixed (.infixed (.infixed (.number 2) .multiply (.postfixed (.number 3) .factorial))
        .subtract (.number 4)) .less (.number 5), [.operator "&", .number 6]) := by
    rw [tokens]
    cbv
  have le : (4 : Int) ≤ 7 := by decide
  obtain ⟨inner, behind, layers, high, _, more, _, between, sorted⟩ :=
    (expression_wraps le (.atMost 20) (Token.ofText "2*3!-4<5&6")).1 _ _ read
  exact ⟨le, read, inner, behind, layers, high, more, between, sorted⟩

end Parser

end LineCalc
