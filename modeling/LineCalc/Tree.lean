import LineCalc.Operator

/-! Expression trees, and walking one without the machine's stack. Nodes wait on a stack of their
own, each put there twice: before its operands, and then behind them to be combined with their
results, which are sliced off a second stack. Both stacks stay in balance, so no slice is ever too
short and one result is left in the end. A walk combines nodes in any monad and is the form that
runs; the recursions are the form for proofs, and they agree. The value of a tree and its text are
two walks. -/
namespace LineCalc

/-- A hole is a leaf that has neither a value nor a text; a tree that was read has none. -/
inductive Tree where
  | number (value : Int)
  | prefixed (op : PrefixOp) (operand : Tree)
  | infixed (left : Tree) (op : InfixOp) (right : Tree)
  | postfixed (operand : Tree) (op : PostfixOp)
  | hole
  deriving DecidableEq, Repr, Inhabited

namespace Tree

structure Algebra (ε α : Type) where
  number : Int → Except ε α
  prefixed : PrefixOp → α → Except ε α
  infixed : InfixOp → α → α → Except ε α
  postfixed : PostfixOp → α → Except ε α
  hole : Except ε α

/-- Operands from left to right, then their operator; the first failure is the result. -/
def fold (alg : Algebra ε α) : Tree → Except ε α
  | number n => alg.number n
  | prefixed op t => fold alg t >>= alg.prefixed op
  | infixed l op r => fold alg l >>= fun a => fold alg r >>= alg.infixed op a
  | postfixed t op => fold alg t >>= alg.postfixed op
  | hole => alg.hole

def children : Tree → List Tree
  | number _ | hole => []
  | prefixed _ t | postfixed t _ => [t]
  | infixed l _ r => [l, r]

abbrev Operands (α : Type) (t : Tree) := { results : List α // results.length = t.children.length }

abbrev Combine (m : Type → Type) (α : Type) := (t : Tree) → Operands α t → m α

def Algebra.combine (alg : Algebra ε α) : Combine (Except ε) α
  | .number n, _ => alg.number n
  | .prefixed op _, ⟨[a], _⟩ => alg.prefixed op a
  | .infixed _ op _, ⟨[a, b], _⟩ => alg.infixed op a b
  | .postfixed _ op, ⟨[a], _⟩ => alg.postfixed op a
  | .hole, _ => alg.hole

/-- The results of the operands from left to right, and then of the node itself. -/
def recurse [Monad m] (combine : Combine m α) : Tree → m α
  | number n => combine (number n) ⟨[], rfl⟩
  | prefixed op t => do
    let a ← recurse combine t
    combine (prefixed op t) ⟨[a], rfl⟩
  | infixed l op r => do
    let a ← recurse combine l
    let b ← recurse combine r
    combine (infixed l op r) ⟨[a, b], rfl⟩
  | postfixed t op => do
    let a ← recurse combine t
    combine (postfixed t op) ⟨[a], rfl⟩
  | hole => combine hole ⟨[], rfl⟩

def size : Tree → Nat
  | number _ | hole => 1
  | prefixed _ t | postfixed t _ => t.size + 1
  | infixed l _ r => l.size + r.size + 1

/-- A node on the stack, with a mark that says whether its operands were put there too. -/
structure Visit where
  node : Tree
  expanded : Bool

def Visit.steps : Visit → Nat
  | ⟨t, false⟩ => 2 * t.size
  | ⟨_, true⟩ => 1

def stepsOf : List Visit → Nat
  | [] => 0
  | visit :: stack => visit.steps + stepsOf stack

/-- With so many results at hand, every visit finds those of its operands, and one is left. -/
def Balanced : List Visit → Nat → Prop
  | [], count => count = 1
  | ⟨_, false⟩ :: stack, count => Balanced stack (count + 1)
  | ⟨t, true⟩ :: stack, count =>
    t.children.length ≤ count ∧ Balanced stack (count - t.children.length + 1)

def visits (ts : List Tree) : List Visit := ts.map (⟨·, false⟩)

theorem balanced_visits (ts : List Tree) (stack : List Visit) (count : Nat) :
    Balanced (visits ts ++ stack) count ↔ Balanced stack (count + ts.length) := by
  induction ts generalizing count with
  | nil => rfl
  | cons t ts ih =>
    rw [List.length_cons, Nat.add_comm ts.length, ← Nat.add_assoc]
    exact ih (count + 1)

theorem Balanced.expand {t : Tree} {stack : List Visit} {count : Nat}
    (h : Balanced (⟨t, false⟩ :: stack) count) :
    Balanced (visits t.children ++ ⟨t, true⟩ :: stack) count := by
  rw [balanced_visits]
  refine ⟨Nat.le_add_left .., ?_⟩
  rw [Nat.add_sub_cancel]
  exact h

theorem Balanced.combine {t : Tree} {expanded : Bool} {stack : List Visit} {count : Nat}
    (h : Balanced (⟨t, expanded⟩ :: stack) count)
    (ready : ¬(t.children ≠ [] ∧ expanded = false)) :
    t.children.length ≤ count ∧ Balanced stack (count - t.children.length + 1) := by
  cases expanded with
  | true => exact h
  | false =>
    have none : t.children = [] := by simpa using ready
    rw [none]
    exact ⟨Nat.zero_le _, h⟩

theorem steps_expand_lt {t : Tree} (h : t.children ≠ []) (stack : List Visit) :
    stepsOf (visits t.children ++ ⟨t, true⟩ :: stack) < stepsOf (⟨t, false⟩ :: stack) := by
  cases t with
  | number | hole => exact absurd rfl h
  | prefixed | infixed | postfixed =>
    simp only [visits, children, List.map_cons, List.map_nil, List.cons_append, List.nil_append,
      stepsOf, Visit.steps, size]
    omega

theorem steps_pos (visit : Visit) : 0 < visit.steps := by
  obtain ⟨t, expanded⟩ := visit
  cases expanded with
  | true => exact Nat.one_pos
  | false => cases t <;> simp only [Visit.steps, size] <;> omega

/-- The results stand with the last one first, so those of the operands are the ones in front,
turned round. -/
@[specialize]
def walkOn [Monad m] (combine : Combine m α) (stack : List Visit) (results : List α)
    (balanced : Balanced stack results.length) : m α :=
  match stack with
  | [] => pure (results.head (List.ne_nil_of_length_eq_add_one balanced))
  | ⟨t, expanded⟩ :: stack =>
    if again : t.children ≠ [] ∧ expanded = false then
      walkOn combine (visits t.children ++ ⟨t, true⟩ :: stack) results
        (Balanced.expand (again.2 ▸ balanced))
    else
      have size : (results.take t.children.length).reverse.length = t.children.length := by
        rw [List.length_reverse, List.length_take_of_le (balanced.combine again).1]
      combine t ⟨(results.take t.children.length).reverse, size⟩ >>= fun result =>
      walkOn combine stack (result :: results.drop t.children.length) (by
        rw [List.length_cons, List.length_drop]
        exact (balanced.combine again).2)
termination_by stepsOf stack
decreasing_by
  · obtain ⟨operands, rfl⟩ := again
    exact steps_expand_lt operands stack
  · exact Nat.lt_add_of_pos_left (steps_pos ⟨t, expanded⟩)

theorem balanced_single (t : Tree) : Balanced [⟨t, false⟩] 0 := rfl

@[specialize]
def walk [Monad m] (combine : Combine m α) (t : Tree) : m α :=
  walkOn combine [⟨t, false⟩] [] (balanced_single t)

section Laws

variable {m : Type → Type} [Monad m] {combine : Combine m α} {stack : List Visit} {results : List α}

theorem walkOn_nil (a : α) (balanced : Balanced [] [a].length) :
    walkOn combine [] [a] balanced = pure a := by
  rw [walkOn, List.head_cons]

theorem walkOn_expand (t : Tree) (operands : t.children ≠ [])
    (balanced : Balanced (⟨t, false⟩ :: stack) results.length) :
    walkOn combine (⟨t, false⟩ :: stack) results balanced =
      walkOn combine (visits t.children ++ ⟨t, true⟩ :: stack) results balanced.expand := by
  rw [walkOn, dif_pos ⟨operands, rfl⟩]

theorem walkOn_combine (t : Tree) (expanded : Bool)
    (ready : ¬(t.children ≠ [] ∧ expanded = false)) (args : Operands α t) (results : List α)
    (balanced : Balanced (⟨t, expanded⟩ :: stack) (args.val.reverse ++ results).length)
    (rest : Balanced stack (results.length + 1)) :
    walkOn combine (⟨t, expanded⟩ :: stack) (args.val.reverse ++ results) balanced =
      combine t args >>= fun result => walkOn combine stack (result :: results) rest := by
  have size : args.val.reverse.length = t.children.length := by
    rw [List.length_reverse, args.property]
  have taken : ((args.val.reverse ++ results).take t.children.length).reverse = args.val := by
    rw [List.take_left' size, List.reverse_reverse]
  have left : (args.val.reverse ++ results).drop t.children.length = results :=
    List.drop_left' size
  rw [walkOn, dif_neg ready]
  simp only [taken, left]

/-- A walk comes out behind a node with the result of the recursion, on top of the others. -/
theorem walkOn_node [LawfulMonad m] (t : Tree)
    (balanced : Balanced (⟨t, false⟩ :: stack) results.length) :
    walkOn combine (⟨t, false⟩ :: stack) results balanced =
      recurse combine t >>= fun result => walkOn combine stack (result :: results) balanced := by
  induction t generalizing stack results with
  | number n =>
    let none : Operands α (number n) := ⟨[], rfl⟩
    exact walkOn_combine (number n) false (fun h => h.1 rfl) none results _ _
  | hole =>
    let none : Operands α hole := ⟨[], rfl⟩
    exact walkOn_combine hole false (fun h => h.1 rfl) none results _ _
  | prefixed op t ih =>
    refine (walkOn_expand (prefixed op t) (List.cons_ne_nil t []) balanced).trans ?_
    refine (ih _).trans ?_
    rw [recurse, bind_assoc]
    congr 1
    funext a
    exact walkOn_combine (prefixed op t) true (fun h => nomatch h.2) ⟨[a], rfl⟩ results _ _
  | infixed l op r ihl ihr =>
    refine (walkOn_expand (infixed l op r) (List.cons_ne_nil l [r]) balanced).trans ?_
    refine (ihl _).trans ?_
    rw [recurse, bind_assoc]
    congr 1
    funext a
    refine (ihr _).trans ?_
    rw [bind_assoc]
    congr 1
    funext b
    exact walkOn_combine (infixed l op r) true (fun h => nomatch h.2) ⟨[a, b], rfl⟩ results _ _
  | postfixed t op ih =>
    refine (walkOn_expand (postfixed t op) (List.cons_ne_nil t []) balanced).trans ?_
    refine (ih _).trans ?_
    rw [recurse, bind_assoc]
    congr 1
    funext a
    exact walkOn_combine (postfixed t op) true (fun h => nomatch h.2) ⟨[a], rfl⟩ results _ _

theorem walk_eq_recurse [LawfulMonad m] (combine : Combine m α) (t : Tree) :
    walk combine t = recurse combine t := by
  refine (walkOn_node t (balanced_single t)).trans ?_
  refine Eq.trans ?_ (bind_pure (recurse combine t))
  congr 1
  funext result
  exact walkOn_nil result _

end Laws

theorem recurse_combine (alg : Algebra ε α) (t : Tree) : recurse alg.combine t = fold alg t := by
  induction t with
  | number n => rfl
  | hole => rfl
  | prefixed op t ih => rw [recurse, fold, ih]; rfl
  | infixed l op r ihl ihr => rw [recurse, fold, ihl, ihr]; rfl
  | postfixed t op ih => rw [recurse, fold, ih]; rfl

theorem walk_eq_fold (alg : Algebra ε α) (t : Tree) : walk alg.combine t = fold alg t :=
  (walk_eq_recurse alg.combine t).trans (recurse_combine alg t)

/-- Both operands are always evaluated, so no value hides a fault on the other side. -/
def valueAlgebra : Algebra Fault Int where
  number := .ok
  prefixed := PrefixOp.apply
  infixed := InfixOp.apply
  postfixed := PostfixOp.apply
  hole := .error .hole

def evaluate (t : Tree) : Except Fault Int := t.walk valueAlgebra.combine

theorem evaluate_eq_fold (t : Tree) : t.evaluate = t.fold valueAlgebra := walk_eq_fold ..

def textAlgebra : Algebra Fault String where
  number := Decimal.text
  prefixed op operand := .ok ("(" ++ op.symbol ++ operand ++ ")")
  infixed op left right := .ok ("(" ++ left ++ " " ++ op.symbol ++ " " ++ right ++ ")")
  postfixed op operand := .ok ("(" ++ operand ++ op.symbol ++ ")")
  hole := .error .hole

def render (t : Tree) : Except Fault String := t.walk textAlgebra.combine

theorem render_eq_fold (t : Tree) : t.render = t.fold textAlgebra := walk_eq_fold ..

end Tree

end LineCalc
