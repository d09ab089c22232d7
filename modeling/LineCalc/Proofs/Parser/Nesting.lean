import LineCalc.Proofs.Acceptance
import LineCalc.Proofs.Token.Spelling

/-! How many readers are active at once. The right operand of an operator is read at a higher level
than the operator's, and there are five levels; the operand of a prefix operator holds no infix
operator. So only groups and runs of prefix operators go deep, and a long line does not. -/
namespace LineCalc

open LineCalc.Parser

namespace Scan

/-- How many prefix operators the tokens begin with. -/
def signs (ts : List Token) : Nat := (ts.takeWhile fun t => (PrefixOp.ofToken t).isSome).length

/-- No first part of the tokens opens more than `d` parentheses beyond those that it closes. -/
def NestsWithin (d : Nat) (ts : List Token) : Prop :=
  ∀ i ≤ ts.length, (ts.take i).count .leftParen ≤ (ts.take i).count .rightParen + d

/-- Where an operand is wanted, no more than `p` prefix operators follow one another. -/
def SignsWithin (p : Nat) (ts : List Token) : Prop :=
  ∀ i ≤ ts.length, (State.after ⟨.wanted, 0⟩ (ts.take i)).map State.stage = some .wanted →
    signs (ts.drop i) ≤ p

instance (d : Nat) (ts : List Token) : Decidable (NestsWithin d ts) := by
  unfold NestsWithin
  infer_instance

instance (p : Nat) (ts : List Token) : Decidable (SignsWithin p ts) := by
  unfold SignsWithin
  infer_instance

def Bounded (d p : Nat) (s : State) (ts : List Token) : Prop :=
  ∀ front back s', ts = front ++ back → s.after front = some s' →
    s'.count ≤ d ∧ (s'.stage = .wanted → signs back ≤ p)

section Bounded

variable {d p : Nat} {s s' : State} {t : Token} {ts : List Token}

theorem Bounded.after {taken : List Token} (h : Bounded d p s (taken ++ ts))
    (after : s.after taken = some s') : Bounded d p s' ts := by
  rintro front back s'' rfl further
  refine h (taken ++ front) back s'' ?_ ((after_append after front).trans further)
  rw [List.append_assoc]

theorem Bounded.next (h : Bounded d p s (t :: ts)) (next : s.next t = some s') :
    Bounded d p s' ts := by
  have one : s.after [t] = some s' := after_cons next []
  apply Bounded.after _ one
  exact h

theorem Bounded.here (h : Bounded d p s ts) :
    s.count ≤ d ∧ (s.stage = .wanted → signs ts ≤ p) :=
  h [] ts s rfl rfl

theorem bounded_nil (count : s.count ≤ d) : Bounded d p s [] := by
  intro front back s' empty after
  obtain ⟨rfl, rfl⟩ := List.append_eq_nil_iff.1 empty.symm
  cases after
  exact ⟨count, fun _ => Nat.zero_le p⟩

theorem bounded_cons (count : s.count ≤ d) (run : s.stage = .wanted → signs (t :: ts) ≤ p)
    (others : ∀ s', s.next t = some s' → Bounded d p s' ts) : Bounded d p s (t :: ts) := by
  intro front back s'' split after
  cases front with
  | nil =>
    cases after
    cases split
    exact ⟨count, run⟩
  | cons u front =>
    obtain ⟨rfl, rfl⟩ := List.cons.inj split
    obtain ⟨s', next, after⟩ := Option.bind_eq_some_iff.1 after
    exact others s' next front back s'' rfl after

theorem count_next (h : s.next t = some s') :
    s'.count + [t].count .rightParen = s.count + [t].count .leftParen := by
  obtain ⟨stage, n⟩ := s
  cases stage with
  | wanted =>
    cases role : PrefixOp.ofToken t with
    | some op =>
      cases (next_prefixOp role n).symm.trans h
      rw [PrefixOp.ofToken_eq_some_iff.1 role]
      rfl
    | none =>
      simp only [State.next, role] at h
      cases t with
      | number | leftParen =>
        cases h
        rfl
      | rightParen | operator | endOfInput => cases h
  | complete =>
    cases infixed : InfixOp.ofToken t with
    | some op =>
      cases (next_infixOp infixed n).symm.trans h
      rw [InfixOp.ofToken_eq_some_iff.1 infixed]
      rfl
    | none =>
      cases postfixed : PostfixOp.ofToken t with
      | some op =>
        cases (next_postfixOp postfixed n).symm.trans h
        rw [PostfixOp.ofToken_eq_some_iff.1 postfixed]
        rfl
      | none =>
        simp only [State.next, infixed, postfixed] at h
        cases t with
        | rightParen =>
          cases n with
          | zero => cases h
          | succ n =>
            cases h
            rfl
        | number | leftParen | operator | endOfInput => cases n <;> cases h

theorem count_after (h : s.after ts = some s') :
    s'.count + ts.count .rightParen = s.count + ts.count .leftParen := by
  induction ts generalizing s with
  | nil =>
    cases h
    rfl
  | cons t ts ih =>
    obtain ⟨middle, next, h⟩ := Option.bind_eq_some_iff.1 h
    have first := count_next next
    have others := ih h
    rw [← List.singleton_append, List.count_append, List.count_append]
    omega

theorem bounded_of_within (nests : NestsWithin d ts) (run : SignsWithin p ts) :
    Bounded d p ⟨.wanted, 0⟩ ts := by
  rintro front back s' rfl after
  have shorter : front.length ≤ (front ++ back).length := by
    rw [List.length_append]
    exact Nat.le_add_right ..
  have open_ := nests front.length shorter
  have signs := run front.length shorter
  rw [List.take_left] at open_ signs
  rw [List.drop_left, after] at signs
  have count := count_after after
  exact ⟨by simp only at count; omega, fun wanted => signs (congrArg some wanted)⟩

theorem nestsWithin_length (ts : List Token) : NestsWithin ts.length ts := by
  intro i _
  calc (ts.take i).count .leftParen ≤ (ts.take i).length := List.count_le_length
    _ ≤ ts.length := List.length_take_le' i ts
    _ ≤ (ts.take i).count .rightParen + ts.length := Nat.le_add_left ..

theorem signsWithin_length (ts : List Token) : SignsWithin ts.length ts :=
  fun i _ _ => ((List.takeWhile_sublist _).trans (List.drop_sublist i ts)).length_le

end Bounded

inductive Link where
  | infixed (op : InfixOp) (n : Int)
  | postfixed (op : PostfixOp)

def Link.tokens : Link → List Token
  | infixed op n => [.operator op.symbol, .number n]
  | postfixed op => [.operator op.symbol]

def chain (first : Int) (links : List Link) : List Token :=
  .number first :: links.flatMap Link.tokens

theorem next_infixSymbol (op : InfixOp) :
    State.next ⟨.complete, 0⟩ (.operator op.symbol) = some ⟨.wanted, 0⟩ :=
  next_infixOp (InfixOp.ofToken_eq_some_iff.2 rfl) 0

theorem next_postfixSymbol (op : PostfixOp) :
    State.next ⟨.complete, 0⟩ (.operator op.symbol) = some ⟨.complete, 0⟩ :=
  next_postfixOp (PostfixOp.ofToken_eq_some_iff.2 rfl) 0

theorem scan_links (links : List Link) :
    scan ⟨.complete, 0⟩ (links.flatMap Link.tokens) = none := by
  induction links with
  | nil => rfl
  | cons link links ih =>
    rw [List.flatMap_cons]
    cases link with
    | infixed op n =>
      exact (scan_next (next_infixSymbol op) _).trans ((scan_next rfl _).trans ih)
    | postfixed op => exact (scan_next (next_postfixSymbol op) _).trans ih

theorem bounded_links (links : List Link) :
    Bounded 0 0 ⟨.complete, 0⟩ (links.flatMap Link.tokens) := by
  induction links with
  | nil => exact bounded_nil (Nat.le_refl 0)
  | cons link links ih =>
    rw [List.flatMap_cons]
    cases link with
    | infixed op n =>
      refine bounded_cons (Nat.le_refl 0) nofun fun s' next => ?_
      cases (next_infixSymbol op).symm.trans next
      refine bounded_cons (Nat.le_refl 0) (fun _ => Nat.le_refl 0) fun s' next => ?_
      cases next
      exact ih
    | postfixed op =>
      refine bounded_cons (Nat.le_refl 0) nofun fun s' next => ?_
      cases (next_postfixSymbol op).symm.trans next
      exact ih

theorem complaint_chain (first : Int) (links : List Link) : complaint (chain first links) = none :=
  (scan_next rfl _).trans (scan_links links)

theorem bounded_chain (first : Int) (links : List Link) :
    Bounded 0 0 ⟨.wanted, 0⟩ (chain first links) := by
  refine bounded_cons (Nat.le_refl 0) (fun _ => Nat.le_refl 0) fun s' next => ?_
  cases next
  exact bounded_links links

end Scan

open Scan

namespace Parser

def levels (minimum : Int) : Nat := (8 - max 3 minimum).toNat

theorem levels_rightMinimum_lt {minimum : Int} {op : InfixOp} (binds : minimum ≤ op.precedence) :
    levels op.rightMinimum < levels minimum := by
  have weakest : 3 ≤ op.precedence := by cases op <;> decide
  have tightest := precedence_le_seven op
  rw [InfixOp.rightMinimum_eq, levels, levels]
  omega

theorem levels_prefixOp (op : PrefixOp) : levels op.precedence = 0 := rfl

/-- The frames for an atom inside of which `g` groups stand in one another. -/
def atomFrames (p g : Nat) : Nat := g * (p + 7) + 1

/-- The frames for the operators behind an operand. Each level may add a reader, and the last of
them reads a run of prefix operators and an atom. -/
def operatorFrames (p g : Nat) (minimum : Int) : Nat :=
  if levels minimum = 0 then 0 else levels minimum + p + atomFrames p g

def Reader.frames (p g : Nat) (ts : List Token) : Reader → Nat
  | expression minimum => max (signs ts + atomFrames p g) (operatorFrames p g minimum) + 1
  | operand => signs ts + atomFrames p g
  | atom => atomFrames p g
  | operators minimum _ => operatorFrames p g minimum

/-- With `count` groups open the frames suffice for what the tokens may still hold. -/
structure Fits (d p n : Nat) (reader : Reader) (count : Nat) (ts : List Token) : Prop where
  bounded : Bounded d p ⟨reader.stage, count⟩ ts
  enough : reader.frames p (d - count) ts ≤ n

section Fits

variable {d p n count : Nat} {minimum : Int} {t : Token} {ts : List Token}

theorem Fits.operand (h : Fits d p (n + 1) (.expression minimum) count ts) :
    Fits d p n .operand count ts :=
  ⟨h.bounded, Nat.le_trans (Nat.le_max_left ..) (Nat.le_of_succ_le_succ h.enough)⟩

theorem Fits.operators {taken : List Token}
    (h : Fits d p (n + 1) (.expression minimum) count (taken ++ ts))
    (after : State.after ⟨.wanted, count⟩ taken = some ⟨.complete, count⟩) (left : Tree) :
    Fits d p n (.operators minimum left) count ts :=
  ⟨h.bounded.after after, Nat.le_trans (Nat.le_max_right ..) (Nat.le_of_succ_le_succ h.enough)⟩

theorem signs_cons {op : PrefixOp} (role : PrefixOp.ofToken t = some op) (ts : List Token) :
    signs (t :: ts) = signs ts + 1 := by
  rw [signs, List.takeWhile_cons_of_pos (by rw [role]; rfl)]
  rfl

theorem Fits.prefixed {op : PrefixOp} (h : Fits d p n .operand count (t :: ts))
    (role : PrefixOp.ofToken t = some op) : Fits d p n (.expression op.precedence) count ts := by
  have enough := h.enough
  refine ⟨h.bounded.next (next_prefixOp role count), ?_⟩
  rw [Reader.frames, signs_cons role] at enough
  rw [Reader.frames, operatorFrames, if_pos (levels_prefixOp op)]
  omega

theorem Fits.atom (h : Fits d p n .operand count ts) : Fits d p n .atom count ts :=
  ⟨h.bounded, Nat.le_trans (Nat.le_add_left ..) h.enough⟩

theorem Fits.group (h : Fits d p (n + 1) .atom count (.leftParen :: ts)) :
    Fits d p n (.expression 0) (count + 1) ts := by
  have bounded : Bounded d p ⟨.wanted, count + 1⟩ ts := h.bounded.next rfl
  refine ⟨bounded, ?_⟩
  obtain ⟨opened, signs⟩ := bounded.here
  have signs := signs rfl
  obtain ⟨g, rfl⟩ := Nat.exists_eq_add_of_le opened
  have outer : count + 1 + g - count = g + 1 := by omega
  have enough := h.enough
  rw [Reader.frames, atomFrames, outer, Nat.succ_mul] at enough
  rw [Reader.frames, operatorFrames, if_neg (by decide), Nat.add_sub_cancel_left, atomFrames]
  have five : levels 0 = 5 := rfl
  omega

theorem Fits.right {op : InfixOp} {left : Tree}
    (h : Fits d p n (.operators minimum left) count (t :: ts))
    (role : InfixOp.ofToken t = some op) (binds : minimum ≤ op.precedence) :
    Fits d p n (.expression op.rightMinimum) count ts := by
  have bounded : Bounded d p ⟨.wanted, count⟩ ts := h.bounded.next (next_infixOp role count)
  have signs := bounded.here.2 rfl
  have fewer := levels_rightMinimum_lt binds
  have enough := h.enough
  refine ⟨bounded, ?_⟩
  rw [Reader.frames, operatorFrames, if_neg (by omega)] at enough
  rw [Reader.frames, operatorFrames]
  split <;> omega

theorem Fits.others {taken : List Token} {op : InfixOp} {left : Tree}
    (h : Fits d p n (.operators minimum left) count (t :: (taken ++ ts)))
    (role : InfixOp.ofToken t = some op)
    (after : State.after ⟨.wanted, count⟩ taken = some ⟨.complete, count⟩) (left' : Tree) :
    Fits d p n (.operators minimum left') count ts :=
  ⟨(h.bounded.next (next_infixOp role count)).after after, h.enough⟩

theorem Fits.postfixed {op : PostfixOp} {left : Tree}
    (h : Fits d p n (.operators minimum left) count (t :: ts))
    (role : PostfixOp.ofToken t = some op) (left' : Tree) :
    Fits d p n (.operators minimum left') count ts :=
  ⟨h.bounded.next (next_postfixOp role count), h.enough⟩

end Fits

theorem exists_of_enter {n : Nat} {below : Frames} (h : (Frames.atMost n).enter = some below) :
    ∃ k, n = k + 1 ∧ below = .atMost k := by
  cases n with
  | zero => cases h
  | succ k =>
    cases h
    exact ⟨k, rfl, rfl⟩

theorem enter_ne_none {n : Nat} (h : 0 < n) : (Frames.atMost n).enter ≠ none := by
  cases n with
  | zero => exact absurd h (Nat.lt_irrefl 0)
  | succ k => nofun

theorem not_hitsLimit_halt (label : String) (found : Token) (rest : List Token) :
    ¬HitsLimit (.error (halt label found rest)) := by
  rintro ⟨_, h⟩
  cases h

/-- Where the frames suffice for a reader, they suffice for all readers under it. -/
theorem Reads.not_hitsLimit (h : Reads frames reader ts r) :
    ∀ n, frames = .atMost n → ∀ count, Fits d p n reader count ts → ¬HitsLimit r := by
  induction h with
  | expressionTooDeep enter | atomTooDeep enter =>
    rintro n rfl count fits
    exact absurd enter (enter_ne_none (Nat.lt_of_lt_of_le (Nat.succ_pos _) fits.enough))
  | expressionHalts enter _ ih =>
    rintro n rfl count fits
    obtain ⟨k, rfl, rfl⟩ := exists_of_enter enter
    exact ih k rfl count fits.operand
  | expression enter operand _ _ ih =>
    rintro n rfl count fits
    obtain ⟨k, rfl, rfl⟩ := exists_of_enter enter
    obtain ⟨taken, rfl, after⟩ := operand.after_ok _ _ rfl
    exact ih k rfl count (fits.operators (after count) _)
  | prefixedHalts role _ ih => exact fun n limit count fits => ih n limit count (fits.prefixed role)
  | plain role _ ih => exact fun n limit count fits => ih n limit count fits.atom
  | groupHalts enter _ ih =>
    rintro n rfl count fits
    obtain ⟨k, rfl, rfl⟩ := exists_of_enter enter
    exact ih k rfl (count + 1) fits.group
  | infixedHalts role binds _ ih =>
    exact fun n limit count fits => ih n limit count (fits.right role binds)
  | infixed role _ right _ _ ih =>
    intro n limit count fits
    obtain ⟨taken, rfl, after⟩ := right.after_ok _ _ rfl
    exact ih n limit count (fits.others role (after count) _)
  | postfixed role _ _ ih =>
    exact fun n limit count fits => ih n limit count (fits.postfixed role _)
  | unclosed | missing => exact fun _ _ _ _ => not_hitsLimit_halt _ _ _
  | prefixed | number | group | stop => exact fun _ _ _ _ => not_hitsLimit_ok _

theorem Reads.rest_isSuffix (h : Reads frames reader ts r) :
    ∀ halt, r = .error halt → halt.rest <:+ ts := by
  induction h with
  | expressionTooDeep | atomTooDeep =>
    rintro _ ⟨⟩
    exact List.suffix_refl _
  | expressionHalts _ _ ih | plain _ _ ih => exact ih
  | prefixedHalts _ _ ih | groupHalts _ _ ih | infixedHalts _ _ _ ih | postfixed _ _ _ ih =>
    exact fun halt same => (ih halt same).trans (List.suffix_cons _ _)
  | expression _ operand _ _ ih => exact fun halt same => (ih halt same).trans operand.isSuffix
  | unclosed _ content =>
    rintro _ ⟨⟩
    exact content.isSuffix.trans (List.suffix_cons _ _)
  | missing =>
    rintro _ ⟨⟩
    exact List.tail_suffix _
  | infixed _ _ right _ _ ih =>
    exact fun halt same => ((ih halt same).trans right.isSuffix).trans (List.suffix_cons _ _)
  | prefixed | number | group | stop => nofun

theorem expression_of_whole_tooDeep {frames : Frames} {ts rest : List Token}
    (h : whole frames ts = .error ⟨.tooDeep, rest⟩) :
    expression frames 0 ts = .error ⟨.tooDeep, rest⟩ := by
  rw [whole] at h
  split at h
  · cases h
  · cases h
  · next stopped => exact stopped.trans h

theorem whole_fits {d p limit : Nat} {ts : List Token} (bounded : Bounded d p ⟨.wanted, 0⟩ ts)
    (enough : (d + 1) * (p + 7) ≤ limit) : ¬HitsLimit (whole (.atMost limit) ts) := by
  have fits : Fits d p limit (.expression 0) 0 ts := by
    refine ⟨bounded, ?_⟩
    have signs := bounded.here.2 rfl
    rw [Nat.succ_mul] at enough
    rw [Reader.frames, operatorFrames, if_neg (by decide), Nat.sub_zero, atomFrames]
    have five : levels 0 = 5 := rfl
    omega
  rintro ⟨rest, deep⟩
  have read := reads (.atMost limit) (.expression 0) ts
  exact read.not_hitsLimit limit rfl 0 fits ⟨rest, expression_of_whole_tooDeep deep⟩

/-- There are limits that are large enough for a line, so it hits none if there is no limit. -/
theorem not_hitsLimit_unlimited (ts : List Token) : ¬HitsLimit (whole .unlimited ts) := by
  have bounded := bounded_of_within (nestsWithin_length ts) (signsWithin_length ts)
  have fits := whole_fits bounded (Nat.le_refl _)
  rw [← whole_eq_unlimited fits]
  exact fits

end Parser

theorem Scan.State.label_ne (s : State) : s.label ≠ "shallower nesting" := by
  rcases s with ⟨_ | _, _ | _⟩ <;> simp [State.label]

theorem Scan.label_ne_of_scan {s : State} {ts : List Token} {c : Complaint}
    (h : scan s ts = some c) : c.label ≠ "shallower nesting" := by
  induction ts generalizing s with
  | nil =>
    obtain ⟨_, ⟨⟩⟩ := Option.ite_none_left_eq_some.1 h
    exact s.label_ne
  | cons t ts ih =>
    rw [scan] at h
    split at h
    · exact ih h
    · cases h
      exact s.label_ne

theorem parseWithin_unlimited_ne (text : String) (found : Token) :
    parseWithin .unlimited text ≠ .error (.expected "shallower nesting" found) := by
  intro deep
  have fits : ¬NestsTooDeep .unlimited text := not_hitsLimit_unlimited (Token.ofText text)
  obtain ⟨accepted, refused⟩ := parseWithin_of_complaint fits
  cases hc : complaint (Token.ofText text) with
  | none =>
    obtain ⟨t, ok⟩ := accepted hc
    cases ok.symm.trans deep
  | some c =>
    have fault := Except.error.inj ((refused c hc).symm.trans deep)
    by_cases big : c.found.IsOversized
    · cases (Fault.expecting_of_isOversized big c.label).symm.trans fault
    · have same := (Fault.expecting_of_not_isOversized big c.label).symm.trans fault
      exact label_ne_of_scan hc (Fault.expected.inj same).1

theorem front_mem_of_isSuffix {ts rest : List Token} (h : rest <:+ ts) :
    Token.front rest ∈ ts ∨ Token.front rest = .endOfInput := by
  cases rest with
  | nil => exact .inr rfl
  | cons t rest => exact .inl (h.subset List.mem_cons_self)

theorem parseWithin_of_nestsTooDeep {frames : Frames} {text : String}
    (deep : NestsTooDeep frames text) :
    ∃ found, (found ∈ Token.ofText text ∨ found = .endOfInput) ∧
      parseWithin frames text = .error (.expecting "shallower nesting" found) := by
  obtain ⟨rest, deep⟩ := deep
  have read := reads frames (.expression 0) (Token.ofText text)
  have behind := read.rest_isSuffix _ (expression_of_whole_tooDeep deep)
  refine ⟨.front rest, front_mem_of_isSuffix behind, ?_⟩
  rw [parseWithin, deep]
  rfl

theorem parseWithin_chain {limit : Nat} {text : String} {first : Int} {links : List Link}
    (tokens : Token.ofText text = chain first links) (enough : 7 ≤ limit) :
    ∃ t, parseWithin (.atMost limit) text = .ok t := by
  have bounded : Bounded 0 0 ⟨.wanted, 0⟩ (Token.ofText text) := tokens ▸ bounded_chain first links
  have fits : ¬NestsTooDeep (.atMost limit) text := whole_fits bounded enough
  apply (parseWithin_of_complaint fits).1
  rw [tokens]
  exact complaint_chain first links

/-- A limit on the frames is seen only where it is hit, and then as its own fault: without a limit
there is no such fault. It is not hit if it is at least `(d + 1) * (p + 7)` for groups that nest
within `d` and runs of prefix operators within `p`; and seven frames are enough for a chain of
any length. -/
theorem parseWithin_atMost (limit : Nat) (text : String) :
    (parseWithin (.atMost limit) text = parseWithin .unlimited text ∨
      ∃ found, (found ∈ Token.ofText text ∨ found = .endOfInput) ∧
        (¬found.IsOversized →
          parseWithin (.atMost limit) text = .error (.expected "shallower nesting" found)) ∧
        (found.IsOversized → parseWithin (.atMost limit) text = .error .unprintable)) ∧
    (∀ found, parseWithin .unlimited text ≠ .error (.expected "shallower nesting" found)) ∧
    (∀ d p, NestsWithin d (Token.ofText text) → SignsWithin p (Token.ofText text) →
      (d + 1) * (p + 7) ≤ limit →
        parseWithin (.atMost limit) text = parseWithin .unlimited text) ∧
    ∀ first links, Token.ofText text = chain first links → 7 ≤ limit →
      ∃ t, parseWithin (.atMost limit) text = .ok t := by
  refine ⟨?_, parseWithin_unlimited_ne text, ?_, fun first links => parseWithin_chain⟩
  · by_cases deep : NestsTooDeep (.atMost limit) text
    · obtain ⟨found, mem, fault⟩ := parseWithin_of_nestsTooDeep deep
      refine .inr ⟨found, mem, fun small => ?_, fun big => ?_⟩
      · rw [fault, Fault.expecting_of_not_isOversized small]
      · rw [fault, Fault.expecting_of_isOversized big]
    · exact .inl (parseWithin_eq_unlimited deep)
  · intro d p nests signs enough
    exact parseWithin_eq_unlimited (whole_fits (bounded_of_within nests signs) enough)

theorem parseWithin_eighteen_frames :
    parseWithin (.atMost 18) "2*-(3+--4!)" = parseWithin .unlimited "2*-(3+--4!)" ∧
      ∃ t, parseWithin (.atMost 7) "1+2!*3" = .ok t := by
  have tokens : Token.ofText "2*-(3+--4!)" = [.number 2, .operator "*", .operator "-", .leftParen,
      .number 3, .operator "+", .operator "-", .operator "-", .number 4, .operator "!",
      .rightParen] := by decide +kernel
  have nests : NestsWithin 1 (Token.ofText "2*-(3+--4!)") := by
    rw [tokens]
    decide
  have signs : SignsWithin 2 (Token.ofText "2*-(3+--4!)") := by
    rw [tokens]
    decide
  have links : Token.ofText "1+2!*3" =
      chain 1 [.infixed .add 2, .postfixed .factorial, .infixed .multiply 3] := by decide +kernel
  exact ⟨(parseWithin_atMost 18 _).2.2.1 1 2 nests signs (by decide),
    (parseWithin_atMost 7 _).2.2.2 1 _ links (by decide)⟩

def signed (count n : Nat) : String :=
  String.ofList (List.replicate count '-' ++ Nat.toDigits 10 n)

def signedTree (n : Nat) : Nat → Tree
  | 0 => .number n
  | count + 1 => .prefixed .negative (signedTree n count)

theorem ofText_signed (count n : Nat) :
    Token.ofText (signed count n) = List.replicate count (.operator "-") ++ [.number n] := by
  rw [Token.ofText_eq_ofChars, signed, String.toList_ofList]
  induction count with
  | zero => exact Token.ofChars_toDigits n
  | succ count ih =>
    rw [List.replicate_succ, List.replicate_succ, List.cons_append, List.cons_append, ← ih]
    exact Token.ofChars_prefixOp _ .negative

theorem reads_signed (count n : Nat) (minimum : Int) :
    Reads (.atMost (count + 2)) (.expression minimum)
      (List.replicate count (.operator "-") ++ [.number n]) (.ok (signedTree n count, [])) := by
  induction count generalizing minimum with
  | zero =>
    exact .expression rfl (.plain rfl (.number rfl)) (.stop (stops_endOfInput minimum))
  | succ count ih =>
    exact .expression rfl (.prefixed rfl (ih PrefixOp.negative.precedence))
      (.stop (stops_endOfInput minimum))

theorem reads_signed_tooDeep (count n : Nat) {spare : Nat} (few : spare < 2) (minimum : Int) :
    Reads (.atMost (count + spare)) (.expression minimum)
      (List.replicate count (.operator "-") ++ [.number n])
      (.error ⟨.tooDeep, [.number n]⟩) := by
  induction count generalizing minimum with
  | zero =>
    rw [Nat.zero_add]
    match spare with
    | 0 => exact .expressionTooDeep rfl
    | 1 => exact .expressionHalts rfl (.plain rfl (.atomTooDeep rfl))
  | succ count ih =>
    rw [Nat.succ_add]
    exact .expressionHalts rfl (.prefixedHalts rfl (ih PrefixOp.negative.precedence))

theorem parseWithin_signed (count n : Nat) :
    parseWithin (.atMost (count + 2)) (signed count n) = .ok (signedTree n count) := by
  have read := (reads_signed count n 0).read_eq
  rw [← ofText_signed] at read
  have read : expression _ 0 (Token.ofText (signed count n)) = _ := read
  rw [parseWithin, whole, read]

theorem parseWithin_signed_tooDeep (count n : Nat) {spare : Nat} (few : spare < 2) :
    parseWithin (.atMost (count + spare)) (signed count n) =
      .error (.expecting "shallower nesting" (.number n)) := by
  have read := (reads_signed_tooDeep count n few 0).read_eq
  rw [← ofText_signed] at read
  have read : expression _ 0 (Token.ofText (signed count n)) = _ := read
  rw [parseWithin, whole, read]
  rfl

/-- At a numeral that is too long to be named the limit cannot be reported as what it is. -/
theorem limit_hidden_by_numeral :
    ¬(parseWithin (.atMost 950) (signed 949 (Decimal.bound Decimal.digitLimit)) =
        parseWithin .unlimited (signed 949 (Decimal.bound Decimal.digitLimit)) ∨
      ∃ found, parseWithin (.atMost 950) (signed 949 (Decimal.bound Decimal.digitLimit)) =
        .error (.expected "shallower nesting" found)) := by
  have deep : parseWithin (.atMost 950) (signed 949 (Decimal.bound Decimal.digitLimit)) = _ :=
    parseWithin_signed_tooDeep 949 (Decimal.bound Decimal.digitLimit) Nat.one_lt_two
  have flat := parseWithin_signed 949 (Decimal.bound Decimal.digitLimit)
  have oversized : Fault.expecting "shallower nesting"
      (.number (Decimal.bound Decimal.digitLimit)) = .unprintable :=
    Fault.expecting_eq_unprintable_iff.2 ⟨_, rfl, Decimal.not_isPrintable_bound⟩
  rw [deep, oversized, ← parseWithin_eq_unlimited (not_nestsTooDeep_of_ok flat), flat]
  rintro (same | ⟨found, same⟩) <;> cases same

end LineCalc
