import LineCalc.Proofs.Parser.Limit

/-! Whether a line is accepted, and what is wrong with it otherwise, does not depend on
precedence. A scan that remembers one stage and one count decides both: an operator that a
reader leaves is always taken by a reader that called it. -/
namespace LineCalc

open LineCalc.Parser

namespace Scan

inductive Stage where
  | wanted | complete
  deriving DecidableEq, Repr

structure State where
  stage : Stage
  count : Nat
  deriving DecidableEq, Repr

structure Complaint where
  label : String
  found : Token
  deriving DecidableEq, Repr

def State.next : State → Token → Option State
  | ⟨.wanted, n⟩, t =>
    if (PrefixOp.ofToken t).isSome then some ⟨.wanted, n⟩
    else
      match t with
      | .leftParen => some ⟨.wanted, n + 1⟩
      | .number _ => some ⟨.complete, n⟩
      | _ => none
  | ⟨.complete, n⟩, t =>
    if (InfixOp.ofToken t).isSome then some ⟨.wanted, n⟩
    else if (PostfixOp.ofToken t).isSome then some ⟨.complete, n⟩
    else
      match t, n with
      | .rightParen, n + 1 => some ⟨.complete, n⟩
      | _, _ => none

def State.label : State → String
  | ⟨.wanted, _⟩ => "expression"
  | ⟨.complete, 0⟩ => "end of input"
  | ⟨.complete, _ + 1⟩ => ")"

def scan (s : State) : List Token → Option Complaint
  | [] => if s = ⟨.complete, 0⟩ then none else some ⟨s.label, .endOfInput⟩
  | t :: ts =>
    match s.next t with
    | some s' => scan s' ts
    | none => some ⟨s.label, t⟩

/-- The first token of a line that does not fit, and what was missed there. -/
def complaint (ts : List Token) : Option Complaint := scan ⟨.wanted, 0⟩ ts

theorem scan_next {s s' : State} {t : Token} (h : s.next t = some s') (ts : List Token) :
    scan s (t :: ts) = scan s' ts := by
  rw [scan, h]

def State.after (s : State) (ts : List Token) : Option State := ts.foldlM State.next s

theorem after_cons {s s' : State} {t : Token} (h : s.next t = some s') (ts : List Token) :
    s.after (t :: ts) = s'.after ts := by
  rw [State.after, List.foldlM_cons, h]
  rfl

theorem after_append {s s' : State} {front : List Token} (h : s.after front = some s')
    (back : List Token) : s.after (front ++ back) = s'.after back := by
  rw [State.after] at h
  rw [State.after, List.foldlM_append, h]
  rfl

theorem scan_after {s s' : State} {front : List Token} (h : s.after front = some s')
    (back : List Token) : scan s (front ++ back) = scan s' back := by
  induction front generalizing s with
  | nil =>
    cases h
    rfl
  | cons t front ih =>
    obtain ⟨middle, next, h⟩ := Option.bind_eq_some_iff.1 h
    exact (scan_next next _).trans (ih h)

theorem scan_misfit {s : State} {ts : List Token} (h : s.next (.front ts) = none)
    (open_ : ts ≠ [] ∨ s ≠ ⟨.complete, 0⟩) : scan s ts = some ⟨s.label, .front ts⟩ := by
  match ts with
  | [] =>
    rw [scan, if_neg (open_.resolve_left (fun h => h rfl))]
    rfl
  | t :: ts =>
    have h : s.next t = none := h
    rw [scan, h]
    rfl

theorem found_of_scan {s : State} {ts : List Token} {c : Complaint} (h : scan s ts = some c) :
    c.found ∈ ts ∨ c.found = .endOfInput := by
  induction ts generalizing s with
  | nil =>
    obtain ⟨_, ⟨⟩⟩ := Option.ite_none_left_eq_some.1 h
    exact .inr rfl
  | cons t ts ih =>
    rw [scan] at h
    split at h
    · exact (ih h).imp_left (List.mem_cons_of_mem t)
    · cases h
      exact .inl List.mem_cons_self

theorem next_prefixOp {t : Token} {op : PrefixOp} (role : PrefixOp.ofToken t = some op)
    (n : Nat) : State.next ⟨.wanted, n⟩ t = some ⟨.wanted, n⟩ := by
  simp [State.next, role]

theorem next_infixOp {t : Token} {op : InfixOp} (role : InfixOp.ofToken t = some op)
    (n : Nat) : State.next ⟨.complete, n⟩ t = some ⟨.wanted, n⟩ := by
  simp [State.next, role]

theorem next_postfixOp {t : Token} {op : PostfixOp} (role : PostfixOp.ofToken t = some op)
    (n : Nat) : State.next ⟨.complete, n⟩ t = some ⟨.complete, n⟩ := by
  simp [State.next, role, infixOp_eq_none role]

theorem next_wanted_eq_none {t : Token} (role : PrefixOp.ofToken t = none)
    (noNumber : ∀ n, t ≠ .number n) (noGroup : t ≠ .leftParen) (n : Nat) :
    State.next ⟨.wanted, n⟩ t = none := by
  simp only [State.next, role]
  cases t with
  | number m => exact absurd rfl (noNumber m)
  | leftParen => exact absurd rfl noGroup
  | rightParen | operator | endOfInput => rfl

theorem next_complete_eq_none {t : Token} (stops : Stops 0 t) {n : Nat}
    (noClose : t ≠ .rightParen ∨ n = 0) : State.next ⟨.complete, n⟩ t = none := by
  have hi : InfixOp.ofToken t = none := by
    cases hi : InfixOp.ofToken t with
    | none => rfl
    | some op => have := stops.ofInfix op hi; cases op <;> contradiction
  have hp : PostfixOp.ofToken t = none := by
    cases hp : PostfixOp.ofToken t with
    | none => rfl
    | some op => have := stops.ofPostfix op hp; cases op; contradiction
  simp only [State.next, hi, hp]
  rcases noClose with noClose | rfl
  · cases t <;> first | rfl | exact absurd rfl noClose
  · cases t <;> rfl

end Scan

open Scan

namespace Parser

def Reader.stage : Reader → Stage
  | operators _ _ => .complete
  | expression _ | operand | atom => .wanted

/-- A reader that succeeds has taken tokens that lead to a complete operand, with as many
parentheses open as before. -/
theorem Reads.after_ok (h : Reads frames reader ts r) :
    ∀ t rest, r = .ok (t, rest) → ∃ taken, ts = taken ++ rest ∧
      ∀ n, State.after ⟨reader.stage, n⟩ taken = some ⟨.complete, n⟩ := by
  induction h with
  | expression _ _ _ ih iht =>
    intro t rest hr
    obtain ⟨first, rfl, operand⟩ := ih _ _ rfl
    obtain ⟨second, rfl, operators⟩ := iht _ _ hr
    refine ⟨first ++ second, by rw [List.append_assoc], fun n => ?_⟩
    exact (after_append (operand n) second).trans (operators n)
  | @prefixed t op _ _ _ _ role _ ih =>
    intro _ _ hr
    cases hr
    obtain ⟨taken, rfl, operand⟩ := ih _ _ rfl
    exact ⟨t :: taken, rfl, fun n => (after_cons (next_prefixOp role n) taken).trans (operand n)⟩
  | plain _ _ ih => exact ih
  | @number _ _ n =>
    intro _ _ hr
    cases hr
    exact ⟨[.number n], rfl, fun _ => rfl⟩
  | group _ _ ih =>
    intro _ _ hr
    cases hr
    obtain ⟨taken, rfl, content⟩ := ih _ _ rfl
    refine ⟨.leftParen :: (taken ++ [.rightParen]), by simp, fun n => ?_⟩
    exact (after_cons rfl _).trans (after_append (content (n + 1)) [.rightParen])
  | @infixed t op _ _ _ _ _ _ _ role _ _ _ ih iht =>
    intro _ _ hr
    obtain ⟨first, rfl, right⟩ := ih _ _ rfl
    obtain ⟨second, rfl, others⟩ := iht _ _ hr
    refine ⟨t :: (first ++ second), by simp, fun n => ?_⟩
    calc State.after ⟨.complete, n⟩ (t :: (first ++ second))
        = State.after ⟨.wanted, n⟩ (first ++ second) := after_cons (next_infixOp role n) _
      _ = State.after ⟨.complete, n⟩ second := after_append (right n) second
      _ = some ⟨.complete, n⟩ := others n
  | @postfixed t op _ _ _ _ _ role _ _ ih =>
    intro _ _ hr
    obtain ⟨taken, rfl, others⟩ := ih _ _ hr
    exact ⟨t :: taken, rfl, fun n => (after_cons (next_postfixOp role n) taken).trans (others n)⟩
  | stop =>
    intro _ _ hr
    cases hr
    exact ⟨[], rfl, fun _ => rfl⟩
  | _ => exact nofun

theorem Reads.isSuffix (h : Reads frames reader ts (.ok (t, rest))) : rest <:+ ts := by
  obtain ⟨taken, rfl, _⟩ := h.after_ok t rest rfl
  exact List.suffix_append taken rest

theorem Reads.scan_ok (h : Reads frames reader ts r) :
    ∀ t rest, r = .ok (t, rest) →
      ∀ n, scan ⟨reader.stage, n⟩ ts = scan ⟨.complete, n⟩ rest := by
  intro t rest hr n
  obtain ⟨taken, rfl, after⟩ := h.after_ok t rest hr
  exact scan_after (after n) rest

/-- A reader that asks for an atom outright is not asked at a prefix operator. -/
theorem Reads.scan_error (h : Reads frames reader ts r) :
    (reader = .atom → PrefixOp.ofToken (.front ts) = none) →
      ∀ fault rest, r = .error ⟨.fault fault, rest⟩ →
        ∀ n, ∃ c, scan ⟨reader.stage, n⟩ ts = some c ∧ fault = .expecting c.label c.found := by
  induction h with
  | expressionHalts _ _ ih => exact fun _ => ih nofun
  | expression _ operand _ _ iht =>
    intro _ fault rest hr n
    obtain ⟨c, hc, hf⟩ := iht nofun fault rest hr n
    exact ⟨c, (operand.scan_ok _ _ rfl n).trans hc, hf⟩
  | prefixedHalts role _ ih =>
    intro _ fault rest hr n
    obtain ⟨c, hc, hf⟩ := ih nofun fault rest hr n
    exact ⟨c, (scan_next (next_prefixOp role n) _).trans hc, hf⟩
  | plain role _ ih => exact fun _ => ih fun _ => role
  | groupHalts _ _ ih =>
    intro _ fault rest hr n
    obtain ⟨c, hc, hf⟩ := ih nofun fault rest hr (n + 1)
    exact ⟨c, (scan_next rfl _).trans hc, hf⟩
  | @unclosed _ tail _ rest _ _ content found ih =>
    intro _ fault end_ hr n
    cases hr
    refine ⟨⟨")", .front rest⟩, ?_, rfl⟩
    calc scan ⟨.wanted, n⟩ (.leftParen :: tail)
        = scan ⟨.wanted, n + 1⟩ tail := scan_next rfl _
      _ = scan ⟨.complete, n + 1⟩ rest := content.scan_ok _ _ rfl (n + 1)
      _ = some ⟨")", .front rest⟩ :=
        scan_misfit (next_complete_eq_none content.stops (.inl found)) (.inr nofun)
  | missing _ noNumber noGroup =>
    intro plain fault rest hr n
    cases hr
    have misfit := next_wanted_eq_none (plain rfl) noNumber noGroup n
    exact ⟨⟨"expression", _⟩, scan_misfit misfit (.inr nofun), rfl⟩
  | infixedHalts role _ _ ih =>
    intro _ fault rest hr n
    obtain ⟨c, hc, hf⟩ := ih nofun fault rest hr n
    exact ⟨c, (scan_next (next_infixOp role n) _).trans hc, hf⟩
  | infixed role _ right _ _ iht =>
    intro _ fault rest hr n
    have first := (scan_next (next_infixOp role n) _).trans (right.scan_ok _ _ rfl n)
    obtain ⟨c, hc, hf⟩ := iht nofun fault rest hr n
    exact ⟨c, first.trans hc, hf⟩
  | postfixed role _ _ ih =>
    intro _ fault rest hr n
    obtain ⟨c, hc, hf⟩ := ih nofun fault rest hr n
    exact ⟨c, (scan_next (next_postfixOp role n) _).trans hc, hf⟩
  | _ => exact fun _ => nofun

theorem whole_of_complaint {frames : Frames} {ts : List Token}
    (fits : ¬HitsLimit (whole frames ts)) :
    (complaint ts = none → ∃ t, whole frames ts = .ok (t, [])) ∧
      ∀ c, complaint ts = some c →
        ∃ rest, whole frames ts = .error ⟨.fault (.expecting c.label c.found), rest⟩ := by
  have rules := reads frames (.expression 0) ts
  cases h : expression frames 0 ts with
  | error halt =>
    have same : whole frames ts = .error halt := by rw [whole, h]
    obtain ⟨cause, rest⟩ := halt
    cases cause with
    | tooDeep => exact absurd ⟨rest, same⟩ fits
    | fault fault =>
      obtain ⟨c, hc, rfl⟩ := rules.scan_error (by simp) fault rest h 0
      refine ⟨fun none => ?_, fun c' hc' => ?_⟩
      · cases hc.symm.trans none
      · cases hc.symm.trans hc'
        exact ⟨rest, same⟩
  | ok r =>
    obtain ⟨t, rest⟩ := r
    have last : complaint ts = scan ⟨.complete, 0⟩ rest := rules.scan_ok t rest h 0
    have read : Reads frames (.expression 0) ts (.ok (t, rest)) := h ▸ rules
    cases rest with
    | nil =>
      have same : whole frames ts = .ok (t, []) := by rw [whole, h]
      refine ⟨fun _ => ⟨t, same⟩, fun c hc => ?_⟩
      cases last.symm.trans hc
    | cons found rest =>
      have misfit := next_complete_eq_none read.stops (.inr rfl)
      have wrong : complaint ts = some ⟨"end of input", found⟩ :=
        last.trans (scan_misfit misfit (.inl (List.cons_ne_nil found rest)))
      refine ⟨fun none => ?_, fun c hc => ?_⟩
      · cases wrong.symm.trans none
      · cases wrong.symm.trans hc
        exact ⟨found :: rest, by rw [whole, h]; rfl⟩

end Parser

def Token.IsOversized (t : Token) : Prop :=
  ∃ n, t = .number n ∧ Decimal.digitLimit < Decimal.digitCount n

theorem Fault.expecting_of_isOversized {t : Token} (h : t.IsOversized) (label : String) :
    Fault.expecting label t = .unprintable := by
  obtain ⟨n, rfl, long⟩ := h
  refine Fault.expecting_eq_unprintable_iff.2 ⟨n, rfl, ?_⟩
  rw [Decimal.isPrintable_iff]
  exact Nat.not_le.2 long

theorem Fault.expecting_of_not_isOversized {t : Token} (h : ¬t.IsOversized) (label : String) :
    Fault.expecting label t = .expected label t := by
  unfold expecting
  refine if_pos (Option.isSome_iff_ne_none.2 fun none => h ?_)
  obtain ⟨n, rfl, long⟩ := Token.display?_eq_none_iff.1 none
  rw [Decimal.isPrintable_iff] at long
  exact ⟨n, rfl, Nat.not_le.1 long⟩

theorem parseWithin_of_complaint {frames : Frames} {text : String}
    (fits : ¬NestsTooDeep frames text) :
    (complaint (Token.ofText text) = none → ∃ t, parseWithin frames text = .ok t) ∧
      ∀ c, complaint (Token.ofText text) = some c →
        parseWithin frames text = .error (.expecting c.label c.found) := by
  obtain ⟨accepted, refused⟩ := whole_of_complaint fits
  constructor
  · intro none
    obtain ⟨t, h⟩ := accepted none
    exact ⟨t, by rw [parseWithin, h]⟩
  · intro c hc
    obtain ⟨rest, h⟩ := refused c hc
    rw [parseWithin, h]
    rfl

/-- Where the limit is not hit, a text is read exactly if the scan has no complaint, and it is
refused with the complaint of the scan otherwise. A token that has more digits than are printed
cannot be named, and its place is taken by the fault of printing it. -/
theorem parseWithin_eq_complaint {frames : Frames} {text : String}
    (fits : ¬NestsTooDeep frames text) :
    ((∃ t, parseWithin frames text = .ok t) ↔ complaint (Token.ofText text) = none) ∧
      ∀ c, complaint (Token.ofText text) = some c →
        (c.found.IsOversized → parseWithin frames text = .error .unprintable) ∧
          (¬c.found.IsOversized →
            parseWithin frames text = .error (.expected c.label c.found)) := by
  obtain ⟨accepted, wrong⟩ := parseWithin_of_complaint fits
  refine ⟨⟨?_, accepted⟩, fun c hc => ⟨fun big => ?_, fun small => ?_⟩⟩
  · rintro ⟨t, ht⟩
    cases hc : complaint (Token.ofText text) with
    | none => rfl
    | some c => cases ht.symm.trans (wrong c hc)
  · rw [wrong c hc, Fault.expecting_of_isOversized big]
  · rw [wrong c hc, Fault.expecting_of_not_isOversized small]

theorem complaint_unclosed_group :
    ¬NestsTooDeep (.atMost 20) "-(1*2!~3 $" ∧
      complaint (Token.ofText "-(1*2!~3 $") = some ⟨")", .operator "$"⟩ ∧
        parseWithin (.atMost 20) "-(1*2!~3 $" = .error (.expected ")" (.operator "$")) := by
  have tokens : Token.ofText "-(1*2!~3 $" = [.operator "-", .leftParen, .number 1, .operator "*",
      .number 2, .operator "!", .operator "~", .number 3, .operator "$"] := by decide +kernel
  have read : whole (.atMost 20) (Token.ofText "-(1*2!~3 $") =
      .error (halt ")" (.operator "$") [.operator "$"]) := by
    rw [tokens]
    cbv
  have fits : ¬NestsTooDeep (.atMost 20) "-(1*2!~3 $" := by
    rintro ⟨rest, deep⟩
    cases read.symm.trans deep
  have wrong : complaint (Token.ofText "-(1*2!~3 $") = some ⟨")", .operator "$"⟩ := by
    rw [tokens]
    decide
  refine ⟨fits, wrong, ((parseWithin_eq_complaint fits).2 _ wrong).2 ?_⟩
  rintro ⟨n, h, _⟩
  cases h

end LineCalc
