import LineCalc.Tree

/-! What a walk does, and in which order. The nodes are combined in post-order, each one once and
with the results of its own operands, up to the first one that fails; its failure is the result.
The order is observed through a combination that writes down every call. -/
namespace LineCalc.Tree

/-- The nodes of a tree, each behind its operands, which stand from left to right. -/
def postorder : Tree → List Tree
  | number n => [number n]
  | prefixed op t => t.postorder ++ [prefixed op t]
  | infixed l op r => l.postorder ++ r.postorder ++ [infixed l op r]
  | postfixed t op => t.postorder ++ [postfixed t op]
  | hole => [hole]

structure Call (α : Type) where
  node : Tree
  results : Operands α node

def logged (combine : Combine (Except ε) α) :
    Combine (ExceptT ε (StateM (List (Call α)))) α :=
  fun t results => ExceptT.mk fun calls => (combine t results, calls ++ [⟨t, results⟩])

def failure? : Except ε α → Option ε
  | .ok _ => none
  | .error e => some e

theorem failure_eq_none_iff {x : Except ε α} : failure? x = none ↔ ∃ a, x = .ok a := by
  cases x <;> simp [failure?]

theorem failure_eq_some_iff {x : Except ε α} {e : ε} : failure? x = some e ↔ x = .error e := by
  cases x <;> simp [failure?]

def AreResults (combine : Combine (Except ε) α) (t : Tree) (results : Operands α t) : Prop :=
  t.children.map (recurse combine) = results.val.map .ok

/-- The calls that combine the nodes in their order: each node once with the results of its
operands, up to the first failure, and none behind it. -/
inductive Course (combine : Combine (Except ε) α) :
    List Tree → Option ε → List (Call α) → Prop where
  | done : Course combine [] none []
  | next {results : Operands α t} (operands : AreResults combine t results)
      (combined : combine t results = .ok a) (others : Course combine ts ending calls) :
      Course combine (t :: ts) ending (⟨t, results⟩ :: calls)
  | stop {results : Operands α t} (operands : AreResults combine t results)
      (failed : combine t results = .error e) : Course combine (t :: ts) (some e) [⟨t, results⟩]

/-- The first node in post-order that fails, though all of its operands have results, fails
with `e`. -/
def FailsFirst (combine : Combine (Except ε) α) (t : Tree) (e : ε) : Prop :=
  ∃ before node after, ∃ results : Operands α node,
    t.postorder = before ++ node :: after ∧ (∀ u ∈ before, ∃ a, recurse combine u = .ok a) ∧
      AreResults combine node results ∧ combine node results = .error e

section Order

variable {combine : Combine (Except ε) α} {ts : List Tree} {calls : List (Call α)}

theorem recurse_of_areResults {t : Tree} {results : Operands α t}
    (h : AreResults combine t results) : recurse combine t = combine t results := by
  obtain ⟨results, size⟩ := results
  cases t with
  | number | hole =>
    cases List.length_eq_zero_iff.1 size
    rfl
  | prefixed op t | postfixed t op =>
    obtain ⟨a, rfl⟩ := List.length_eq_one_iff.1 size
    have operand : recurse combine t = .ok a := (List.cons.inj h).1
    rw [recurse, operand]
    rfl
  | infixed l op r =>
    obtain ⟨a, others, rfl⟩ := List.exists_cons_of_length_eq_add_one size
    obtain ⟨b, rfl⟩ := List.length_eq_one_iff.1 (Nat.succ.inj size)
    obtain ⟨left, h⟩ := List.cons.inj h
    have right : recurse combine r = .ok b := (List.cons.inj h).1
    rw [recurse, left, right]
    rfl

theorem Course.own {t : Tree} {results : Operands α t} (operands : AreResults combine t results) :
    Course combine [t] (failure? (combine t results)) [⟨t, results⟩] := by
  cases combined : combine t results with
  | ok a => exact .next operands combined .done
  | error e => exact .stop operands combined

theorem Course.append {us : List Tree} {ending : Option ε} {more : List (Call α)}
    (h : Course combine ts none calls) (others : Course combine us ending more) :
    Course combine (ts ++ us) ending (calls ++ more) := by
  generalize none : (none : Option ε) = passed at h
  induction h with
  | done => exact others
  | next operands combined _ ih => exact .next operands combined (ih none)
  | stop => cases none

theorem Course.stopped {e : ε} (h : Course combine ts (some e) calls) (us : List Tree) :
    Course combine (ts ++ us) (some e) calls := by
  generalize failed : some e = ending at h
  induction h with
  | done => cases failed
  | next operands combined _ ih => exact .next operands combined (ih failed)
  | stop operands combined =>
    cases failed
    exact .stop operands combined

theorem Course.ok_of_mem (h : Course combine ts none calls) :
    ∀ u ∈ ts, ∃ a, recurse combine u = .ok a := by
  generalize none : (none : Option ε) = passed at h
  induction h with
  | done => nofun
  | next operands combined _ ih =>
    have own := (recurse_of_areResults operands).trans combined
    exact List.forall_mem_cons.2 ⟨⟨_, own⟩, ih none⟩
  | stop => cases none

theorem Course.exists_failure {e : ε} (h : Course combine ts (some e) calls) :
    ∃ before node after, ∃ results : Operands α node, ts = before ++ node :: after ∧
      (∀ u ∈ before, ∃ a, recurse combine u = .ok a) ∧ AreResults combine node results ∧
        combine node results = .error e := by
  generalize failed : some e = ending at h
  induction h with
  | done => cases failed
  | @next t a ts _ _ results operands combined _ ih =>
    obtain ⟨before, node, after, found, rfl, passed, fails⟩ := ih failed
    have own := (recurse_of_areResults operands).trans combined
    exact ⟨t :: before, node, after, found, rfl,
      List.forall_mem_cons.2 ⟨⟨a, own⟩, passed⟩, fails⟩
  | @stop t _ ts results operands combined =>
    cases failed
    exact ⟨[], t, ts, results, rfl, nofun, operands, combined⟩

end Order

section Log

variable {σ : Type} {x : ExceptT ε (StateM σ) α} {f : α → ExceptT ε (StateM σ) β} {s s' : σ}

theorem run_bind_of_ok {a : α} (h : x.run.run s = (.ok a, s')) :
    (x >>= f).run.run s = (f a).run.run s' := by
  rw [ExceptT.run_bind, StateT.run_bind, h]
  rfl

theorem run_bind_of_error {e : ε} (h : x.run.run s = (.error e, s')) :
    (x >>= f).run.run s = (.error e, s') := by
  rw [ExceptT.run_bind, StateT.run_bind, h]
  rfl

end Log

/-- Run with a log, the computation has the result `r` and writes down a course over the nodes,
whatever was written before. -/
def Traces (combine : Combine (Except ε) α) (ts : List Tree) (r : Except ε α)
    (x : ExceptT ε (StateM (List (Call α))) α) : Prop :=
  ∃ calls, Course combine ts (failure? r) calls ∧
    ∀ before, x.run.run before = (r, before ++ calls)

section Traces

variable {combine : Combine (Except ε) α}

theorem traces_own {t : Tree} {results : Operands α t} (operands : AreResults combine t results) :
    Traces combine [t] (combine t results) (logged combine t results) :=
  ⟨[⟨t, results⟩], Course.own operands, fun _ => rfl⟩

theorem Traces.bind {ts us : List Tree} {r : Except ε α} {g : α → Except ε α}
    {x : ExceptT ε (StateM (List (Call α))) α} {f : α → ExceptT ε (StateM (List (Call α))) α}
    (h : Traces combine ts r x) (others : ∀ a, r = .ok a → Traces combine us (g a) (f a)) :
    Traces combine (ts ++ us) (r >>= g) (x >>= f) := by
  obtain ⟨calls, course, run⟩ := h
  cases r with
  | error e => exact ⟨calls, course.stopped us, fun before => run_bind_of_error (run before)⟩
  | ok a =>
    obtain ⟨more, rest, runs⟩ := others a rfl
    refine ⟨calls ++ more, course.append rest, fun before => ?_⟩
    apply (run_bind_of_ok (run before)).trans
    rw [runs, List.append_assoc]
    rfl

theorem traces_recurse (combine : Combine (Except ε) α) (t : Tree) :
    Traces combine t.postorder (recurse combine t) (recurse (logged combine) t) := by
  induction t with
  | number | hole => exact traces_own rfl
  | prefixed op t ih | postfixed t op ih =>
    apply ih.bind
    intro a operand
    apply traces_own
    exact congrArg (fun r => [r]) operand
  | infixed l op r ihl ihr =>
    rw [postorder, List.append_assoc]
    apply ihl.bind
    intro a left
    apply ihr.bind
    intro b right
    apply traces_own
    show [recurse combine l, recurse combine r] = _
    rw [left, right]
    rfl

end Traces

theorem first_unique {p : α → Prop} {before before' after after' : List α} {a a' : α}
    (same : before ++ a :: after = before' ++ a' :: after') (none : ∀ b ∈ before, ¬p b)
    (none' : ∀ b ∈ before', ¬p b) (found : p a) (found' : p a') : before = before' ∧ a = a' := by
  induction before generalizing before' with
  | nil =>
    cases before' with
    | nil => exact ⟨rfl, (List.cons.inj same).1⟩
    | cons b before' =>
      obtain ⟨rfl, _⟩ := List.cons.inj same
      exact absurd found (none' a List.mem_cons_self)
  | cons b before ih =>
    cases before' with
    | nil =>
      obtain ⟨rfl, _⟩ := List.cons.inj same
      exact absurd found' (none b List.mem_cons_self)
    | cons b' before' =>
      obtain ⟨rfl, rest⟩ := List.cons.inj same
      obtain ⟨rfl, first⟩ :=
        ih rest (List.forall_mem_cons.1 none).2 (List.forall_mem_cons.1 none').2
      exact ⟨rfl, first⟩

section Failures

variable {combine : Combine (Except ε) α} {t : Tree}

theorem ok_of_mem_postorder {a : α} (h : recurse combine t = .ok a) :
    ∀ u ∈ t.postorder, ∃ b, recurse combine u = .ok b := by
  obtain ⟨calls, course, _⟩ := traces_recurse combine t
  rw [h] at course
  exact course.ok_of_mem

theorem failsFirst_of_recurse {e : ε} (h : recurse combine t = .error e) :
    FailsFirst combine t e := by
  obtain ⟨calls, course, _⟩ := traces_recurse combine t
  rw [h] at course
  exact course.exists_failure

theorem recurse_eq_error_iff {e : ε} : recurse combine t = .error e ↔ FailsFirst combine t e := by
  refine ⟨failsFirst_of_recurse, ?_⟩
  rintro ⟨before, node, after, results, order, passed, operands, failed⟩
  have fails : recurse combine node = .error e := (recurse_of_areResults operands).trans failed
  cases h : recurse combine t with
  | ok a =>
    have mem : node ∈ t.postorder := by rw [order]; simp
    obtain ⟨b, ok⟩ := ok_of_mem_postorder h node mem
    cases ok.symm.trans fails
  | error e' =>
    obtain ⟨before', node', after', results', order', passed', operands', failed'⟩ :=
      failsFirst_of_recurse h
    have fails' : recurse combine node' = .error e' :=
      (recurse_of_areResults operands').trans failed'
    have valued : ∀ u, (∃ a, recurse combine u = .ok a) → ¬∃ e, recurse combine u = .error e := by
      rintro u ⟨a, ok⟩ ⟨e, error⟩
      cases ok.symm.trans error
    obtain ⟨_, rfl⟩ := first_unique (order.symm.trans order')
      (fun u mem => valued u (passed u mem)) (fun u mem => valued u (passed' u mem))
      ⟨e, fails⟩ ⟨e', fails'⟩
    exact fails'.symm.trans fails

end Failures

/-- A walk is the recursion, in whatever way nodes are combined. It combines the nodes in
post-order up to the first failure, which is its result; so the value and the text of a tree are
those of the recursions over it, and so is the fault of a tree that has none. -/
theorem walk_in_postorder (t : Tree) :
    (∀ {m : Type → Type} [Monad m] [LawfulMonad m] {α : Type} (combine : Combine m α),
      walk combine t = recurse combine t) ∧
    (∀ {ε α : Type} (combine : Combine (Except ε) α),
      (∃ calls, (walk (logged combine) t).run.run [] = (walk combine t, calls) ∧
        Course combine t.postorder (failure? (walk combine t)) calls) ∧
      ∀ e, walk combine t = .error e ↔ FailsFirst combine t e) ∧
    t.evaluate = t.fold valueAlgebra ∧ t.render = t.fold textAlgebra ∧
    (∀ fault, t.evaluate = .error fault ↔ FailsFirst valueAlgebra.combine t fault) ∧
    ∀ fault, t.render = .error fault ↔ FailsFirst textAlgebra.combine t fault := by
  have first {ε α : Type} (combine : Combine (Except ε) α) (e : ε) :
      walk combine t = .error e ↔ FailsFirst combine t e := by
    rw [walk_eq_recurse]
    exact recurse_eq_error_iff
  refine ⟨fun combine => walk_eq_recurse combine t, fun combine => ⟨?_, first combine⟩,
    evaluate_eq_fold t, render_eq_fold t, first _, first _⟩
  obtain ⟨calls, course, run⟩ := traces_recurse combine t
  refine ⟨calls, ?_, ?_⟩
  · rw [walk_eq_recurse, walk_eq_recurse]
    exact run []
  · rw [walk_eq_recurse]
    exact course

def threeFaults (n : Int) : Tree := infixed (infixed (number n) .divide (number 0)) .add hole

theorem failsFirst_value (n : Int) :
    FailsFirst valueAlgebra.combine (threeFaults n) .divisionByZero := by
  refine ⟨[number n, number 0], _, [hole, threeFaults n], ⟨[n, 0], rfl⟩, rfl, ?_, rfl, rfl⟩
  intro u mem
  rcases List.mem_cons.1 mem with rfl | mem
  · exact ⟨n, rfl⟩
  · cases List.mem_singleton.1 mem
    exact ⟨0, rfl⟩

theorem failsFirst_text {n : Int} (large : ¬Decimal.IsPrintable n) :
    FailsFirst textAlgebra.combine (threeFaults n) .unprintable := by
  refine ⟨[], number n, _, ⟨[], rfl⟩, rfl, nofun, rfl, ?_⟩
  simp only [Algebra.combine, textAlgebra]
  exact Decimal.text_eq_error_iff.2 ⟨rfl, large⟩

theorem walk_threeFaults :
    walk valueAlgebra.combine (threeFaults (Decimal.bound Decimal.digitLimit)) =
        recurse valueAlgebra.combine (threeFaults (Decimal.bound Decimal.digitLimit)) ∧
      (threeFaults (Decimal.bound Decimal.digitLimit)).evaluate = .error .divisionByZero ∧
        (threeFaults (Decimal.bound Decimal.digitLimit)).render = .error .unprintable := by
  obtain ⟨recursion, _, _, _, value, text⟩ :=
    walk_in_postorder (threeFaults (Decimal.bound Decimal.digitLimit))
  exact ⟨recursion _, (value _).2 (failsFirst_value _),
    (text _).2 (failsFirst_text Decimal.not_isPrintable_bound)⟩

end LineCalc.Tree
