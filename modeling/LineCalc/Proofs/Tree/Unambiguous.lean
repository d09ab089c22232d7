import LineCalc.Proofs.Session.Grouping
import LineCalc.Proofs.Token.Spelling

/-! No two trees are printed alike. The text of a tree ends where it has to, whatever is written
behind it, so the texts of operands cannot run into each other; and a minus that belongs to a
leaf is never taken for one that stands before an operand. Nothing is said here about reading, so
it does not matter how deep a tree is. -/
namespace LineCalc

open Decimal
open Token (EndsNumeral endsNumeral_cons endsNumeral_nil endsNumeral_postfixOp
  takeWhile_isDigit_append dropWhile_isDigit_append)

section Symbols

variable {x y : List Char}

/-- Symbols of one character that are all read back are told apart in front of any text. -/
theorem symbol_append_inj {symbol : α → String} {ofSymbol : String → Option α}
    (back : ∀ op, ofSymbol (symbol op) = some op) (single : ∀ op, (symbol op).toList.length = 1)
    {op op' : α} (h : (symbol op).toList ++ x = (symbol op').toList ++ y) : op = op' ∧ x = y := by
  obtain ⟨symbols, rest⟩ := List.append_inj h ((single op).trans (single op').symm)
  refine ⟨Option.some.inj ?_, rest⟩
  rw [← back op, ← back op', String.toList_inj.1 symbols]

theorem PrefixOp.symbol_append_inj {op op' : PrefixOp}
    (h : op.symbol.toList ++ x = op'.symbol.toList ++ y) : op = op' ∧ x = y :=
  LineCalc.symbol_append_inj ofSymbol_symbol (fun op => by cases op <;> rfl) h

theorem InfixOp.symbol_append_inj {op op' : InfixOp}
    (h : op.symbol.toList ++ x = op'.symbol.toList ++ y) : op = op' ∧ x = y :=
  LineCalc.symbol_append_inj ofSymbol_symbol (fun op => by cases op <;> rfl) h

end Symbols

section Numerals

variable {x y : List Char}

theorem toDigits_append_inj {m n : Nat} (hx : EndsNumeral x) (hy : EndsNumeral y)
    (h : Nat.toDigits 10 m ++ x = Nat.toDigits 10 n ++ y) : m = n ∧ x = y := by
  have digits (n : Nat) : ∀ c ∈ Nat.toDigits 10 n, c.isDigit := fun _ => isDigit_of_mem_toDigits
  have taken := congrArg (List.takeWhile Char.isDigit) h
  have left := congrArg (List.dropWhile Char.isDigit) h
  rw [takeWhile_isDigit_append (digits m) hx, takeWhile_isDigit_append (digits n) hy] at taken
  rw [dropWhile_isDigit_append (digits m) hx, dropWhile_isDigit_append (digits n) hy] at left
  refine ⟨?_, left⟩
  rw [← ofDigits_toDigits m, ← ofDigits_toDigits n, taken]

theorem toDigits_append_ne {c : Char} (h : ¬c.isDigit) (n : Nat) :
    Nat.toDigits 10 n ++ x ≠ c :: y := by
  obtain ⟨d, ds, eq⟩ := List.exists_cons_of_ne_nil (toDigits_ne_nil n)
  have digit : d.isDigit := isDigit_of_mem_toDigits (eq ▸ List.mem_cons_self)
  rw [eq, List.cons_append]
  rintro ⟨⟩
  exact h digit

theorem integer_append_ne_group {n : Int} : n.repr.toList ++ x ≠ '(' :: y := by
  match n with
  | .ofNat m =>
    rw [toList_repr_ofNat]
    exact toDigits_append_ne (by decide) m
  | .negSucc m =>
    rw [toList_repr_negSucc]
    rintro ⟨⟩

theorem integer_append_inj {m n : Int} (hx : EndsNumeral x) (hy : EndsNumeral y)
    (h : m.repr.toList ++ x = n.repr.toList ++ y) : m = n ∧ x = y := by
  match m, n with
  | .ofNat m, .ofNat n =>
    rw [toList_repr_ofNat, toList_repr_ofNat] at h
    exact (toDigits_append_inj hx hy h).imp_left (congrArg Int.ofNat)
  | .ofNat m, .negSucc n =>
    rw [toList_repr_ofNat, toList_repr_negSucc] at h
    exact absurd h (toDigits_append_ne (by decide) m)
  | .negSucc m, .ofNat n =>
    rw [toList_repr_ofNat, toList_repr_negSucc] at h
    exact absurd h.symm (toDigits_append_ne (by decide) n)
  | .negSucc m, .negSucc n =>
    rw [toList_repr_negSucc, toList_repr_negSucc] at h
    obtain ⟨same, rest⟩ := toDigits_append_inj hx hy (List.cons.inj h).2
    exact ⟨congrArg Int.negSucc (Nat.succ.inj same), rest⟩

end Numerals

namespace Tree

variable {p q : Int → Prop} {x y : List Char}

theorem number_append_inj {n : Int} {t : Tree} (numbers : t.Leaves p) (hx : EndsNumeral x)
    (hy : EndsNumeral y) (h : n.repr.toList ++ x = t.shown.toList ++ y) :
    t = number n ∧ x = y := by
  cases t with
  | number m => exact (integer_append_inj hx hy h).imp_left fun same => congrArg number same.symm
  | prefixed op s =>
    rw [toList_shown_prefixed] at h
    exact absurd h integer_append_ne_group
  | infixed l op r =>
    rw [toList_shown_infixed] at h
    exact absurd h integer_append_ne_group
  | postfixed s op =>
    rw [toList_shown_postfixed] at h
    exact absurd h integer_append_ne_group
  | hole => exact numbers.elim

/-- An operand behind a prefix operator is followed by a closing parenthesis. If a sign and what
follows it were a negative leaf, something else would stand behind the leaf. -/
theorem signed_append_ne_operand {op : PrefixOp} {t operand : Tree} {c : Char}
    (numbers : t.Leaves p) (numbers' : operand.Leaves q) (noDigit : ¬c.isDigit)
    (noClose : c ≠ ')') :
    op.symbol.toList ++ (t.shown.toList ++ ')' :: x) ≠ operand.shown.toList ++ c :: y := by
  intro h
  have noGroup (y : List Char) :
      op.symbol.toList ++ (t.shown.toList ++ ')' :: x) ≠ '(' :: y := by
    cases op <;> rintro ⟨⟩
  cases operand with
  | number n =>
    match n with
    | .ofNat m =>
      rw [shown, toList_repr_ofNat] at h
      cases op <;> exact toDigits_append_ne (by decide) m h.symm
    | .negSucc m =>
      rw [shown, toList_repr_negSucc] at h
      obtain ⟨rfl, rest⟩ := @PrefixOp.symbol_append_inj _ _ op .negative h
      rw [← toList_repr_ofNat] at rest
      obtain ⟨-, ends⟩ := number_append_inj numbers (endsNumeral_cons noDigit y)
        (endsNumeral_cons (by decide) x) rest.symm
      exact noClose (List.cons.inj ends).1
  | prefixed op' s => exact noGroup _ (h.trans (toList_shown_prefixed _ op' s))
  | infixed l op' r => exact noGroup _ (h.trans (toList_shown_infixed _ l op' r))
  | postfixed s op' => exact noGroup _ (h.trans (toList_shown_postfixed _ s op'))
  | hole => exact numbers'.elim

section Signed

variable {t s l r : Tree} {op : PrefixOp}

theorem prefixed_append_ne_infixed {op' : InfixOp} (ht : t.Leaves p) (hl : l.Leaves q) :
    (prefixed op t).shown.toList ++ x ≠ (infixed l op' r).shown.toList ++ y := by
  rw [toList_shown_prefixed, toList_shown_infixed]
  intro h
  exact signed_append_ne_operand ht hl (c := ' ') (by decide) (by decide) (List.cons.inj h).2

theorem prefixed_append_ne_postfixed {op' : PostfixOp} (ht : t.Leaves p) (hs : s.Leaves q) :
    (prefixed op t).shown.toList ++ x ≠ (postfixed s op').shown.toList ++ y := by
  rw [toList_shown_prefixed, toList_shown_postfixed]
  cases op'
  intro h
  exact signed_append_ne_operand ht hs (c := '!') (by decide) (by decide) (List.cons.inj h).2

end Signed

/-- The text of a tree determines the tree and where it ends. -/
theorem shown_append_inj {a b : Tree} (ha : a.Leaves p) (hb : b.Leaves q) (hx : EndsNumeral x)
    (hy : EndsNumeral y) (h : a.shown.toList ++ x = b.shown.toList ++ y) : a = b ∧ x = y := by
  have closes (rest : List Char) : EndsNumeral (')' :: rest) := endsNumeral_cons (by decide) rest
  have parts (rest : List Char) : EndsNumeral (' ' :: rest) := endsNumeral_cons (by decide) rest
  -- Without a sign both begin with an operand, so the text of the left operand is cut off first;
  -- what stands behind it tells an infix node from a postfix one.
  induction a generalizing b x y with
  | number n => exact (number_append_inj hb hx hy h).imp_left Eq.symm
  | prefixed op t ih =>
    cases b with
    | number n => exact (number_append_inj ha hy hx h.symm).imp_right Eq.symm
    | prefixed op' t' =>
      rw [toList_shown_prefixed, toList_shown_prefixed] at h
      obtain ⟨rfl, inner⟩ := PrefixOp.symbol_append_inj (List.cons.inj h).2
      obtain ⟨rfl, rest⟩ := ih (b := t') ha hb (closes x) (closes y) inner
      exact ⟨rfl, (List.cons.inj rest).2⟩
    | infixed l' op' r' => exact absurd h (prefixed_append_ne_infixed ha hb.1)
    | postfixed t' op' => exact absurd h (prefixed_append_ne_postfixed ha hb)
    | hole => exact hb.elim
  | infixed l op r ihl ihr =>
    cases b with
    | number n => exact (number_append_inj ha hy hx h.symm).imp_right Eq.symm
    | prefixed op' t' => exact absurd h.symm (prefixed_append_ne_infixed hb ha.1)
    | infixed l' op' r' =>
      rw [toList_shown_infixed, toList_shown_infixed] at h
      obtain ⟨rfl, middle⟩ := ihl ha.1 hb.1 (parts _) (parts _) (List.cons.inj h).2
      obtain ⟨rfl, right⟩ := InfixOp.symbol_append_inj (List.cons.inj middle).2
      obtain ⟨rfl, rest⟩ := ihr ha.2 hb.2 (closes x) (closes y) (List.cons.inj right).2
      exact ⟨rfl, (List.cons.inj rest).2⟩
    | postfixed t' op' =>
      rw [toList_shown_infixed, toList_shown_postfixed] at h
      obtain ⟨-, rest⟩ := ihl (b := t') ha.1 hb (parts _) (endsNumeral_postfixOp _ op')
        (List.cons.inj h).2
      cases op'
      cases rest
    | hole => exact hb.elim
  | postfixed t op ih =>
    cases b with
    | number n => exact (number_append_inj ha hy hx h.symm).imp_right Eq.symm
    | prefixed op' t' => exact absurd h.symm (prefixed_append_ne_postfixed hb ha)
    | infixed l' op' r' =>
      rw [toList_shown_postfixed, toList_shown_infixed] at h
      obtain ⟨-, rest⟩ := ih ha hb.1 (endsNumeral_postfixOp _ op) (parts _) (List.cons.inj h).2
      cases op
      cases rest
    | postfixed t' op' =>
      rw [toList_shown_postfixed, toList_shown_postfixed] at h
      obtain ⟨rfl, rest⟩ := ih (b := t') ha hb (endsNumeral_postfixOp _ op)
        (endsNumeral_postfixOp _ op') (List.cons.inj h).2
      cases op
      cases op'
      exact ⟨rfl, (List.cons.inj (List.cons.inj rest).2).2⟩
    | hole => exact hb.elim
  | hole => exact ha.elim

theorem eq_of_render_eq {a b : Tree} {text : String} (ha : a.render = .ok text)
    (hb : b.render = .ok text) : a = b := by
  obtain ⟨printable, rfl⟩ := render_eq_ok_iff.1 ha
  obtain ⟨printable', same⟩ := render_eq_ok_iff.1 hb
  exact (shown_append_inj printable printable' endsNumeral_nil endsNumeral_nil
    (congrArg (·.toList ++ []) same)).1

end Tree

namespace Session

theorem printed_grouped_inj {t t' : Tree} {v v' : Int} {out : String}
    (h : Printed true t v out) (h' : Printed true t' v' out) : t = t' ∧ v = v' := by
  obtain ⟨text, rendered, rfl⟩ := printed_true_iff.1 h
  obtain ⟨text', rendered', same⟩ := printed_true_iff.1 h'
  obtain ⟨printable, rfl⟩ := Tree.render_eq_ok_iff.1 rendered
  obtain ⟨printable', rfl⟩ := Tree.render_eq_ok_iff.1 rendered'
  have breaks (rest : List Char) : EndsNumeral ('\n' :: rest) := endsNumeral_cons (by decide) rest
  have chars : t.shown.toList ++ '\n' :: v.repr.toList =
      t'.shown.toList ++ '\n' :: v'.repr.toList := by
    simpa using congrArg String.toList same
  obtain ⟨rfl, rest⟩ := Tree.shown_append_inj printable printable' (breaks _) (breaks _) chars
  have values : v.repr.toList ++ [] = v'.repr.toList ++ [] := by
    rw [(List.cons.inj rest).2]
  exact ⟨rfl, (integer_append_inj endsNumeral_nil endsNumeral_nil values).1⟩

/-- A tree has a text exactly if no leaf has too many digits, and no two trees have the same,
however deep they are and whatever signs their leaves have. So two texts for which a session shows
the same tree, by itself or above a value, are read as the same tree. -/
theorem render_injective (frames : Parser.Frames) (settings : Settings) :
    (∀ t : Tree, (∃ text, t.render = .ok text) ↔
      t.Leaves fun n => digitCount n ≤ digitLimit) ∧
    (∀ (a b : Tree) (text : String), a.render = .ok text → b.render = .ok text → a = b) ∧
    (∀ text text' out, (respond frames settings (.tree text)).reply = .text true out →
      (respond frames settings (.tree text')).reply = .text true out →
        ∃ t, parseWithin (frames.below 2) text = .ok t ∧
          parseWithin (frames.below 2) text' = .ok t) ∧
    (settings.showTree = true → ∀ text text' out,
      (respond frames settings (.expression text)).reply = .text true out →
        (respond frames settings (.expression text')).reply = .text true out →
          ∃ t, parseWithin frames text = .ok t ∧ parseWithin frames text' = .ok t) := by
  refine ⟨fun t => ⟨?_, fun short => ?_⟩, fun a b text => Tree.eq_of_render_eq, ?_, ?_⟩
  · rintro ⟨text, rendered⟩
    exact (Tree.render_eq_ok_iff.1 rendered).1.imp fun n => (isPrintable_iff n).1
  · exact ⟨t.shown, Tree.render_eq_ok_iff.2 ⟨short.imp fun n => (isPrintable_iff n).2, rfl⟩⟩
  · intro text text' out h h'
    obtain ⟨t, read, rendered⟩ := showGrouping_eq_ok_iff.1 h
    obtain ⟨t', read', rendered'⟩ := showGrouping_eq_ok_iff.1 h'
    cases Tree.eq_of_render_eq rendered rendered'
    exact ⟨t, read, read'⟩
  · intro withTree text text' out h h'
    rw [respond, withTree] at h h'
    obtain ⟨t, v, read, -, -, printed⟩ := evaluateExpression_eq_ok_iff.1 h
    obtain ⟨t', v', read', -, -, printed'⟩ := evaluateExpression_eq_ok_iff.1 h'
    obtain ⟨rfl, -⟩ := printed_grouped_inj printed printed'
    exact ⟨t, read, read'⟩

theorem render_injective_product :
    (respond (.atMost 20) ⟨"> ", "", .warning, false, true⟩ (.tree "1+2*3")).reply =
        .text true "(1 + (2 * 3))" ∧
      (respond (.atMost 20) ⟨"> ", "", .warning, false, true⟩ (.tree "1+(2*3)")).reply =
        .text true "(1 + (2 * 3))" ∧
      (∃ t, parseWithin (.atMost 18) "1+2*3" = .ok t ∧ parseWithin (.atMost 18) "1+(2*3)" = .ok t) ∧
        (respond (.atMost 20) ⟨"> ", "", .warning, false, true⟩ (.expression "1+2*3")).reply =
            .text true "(1 + (2 * 3))\n7" ∧
          (respond (.atMost 20) ⟨"> ", "", .warning, false, true⟩ (.expression "1+(2*3)")).reply =
            .text true "(1 + (2 * 3))\n7" ∧
          ∃ t, parseWithin (.atMost 20) "1+2*3" = .ok t ∧
            parseWithin (.atMost 20) "1+(2*3)" = .ok t := by
  let settings : Settings := ⟨"> ", "", .warning, false, true⟩
  let t : Tree := .infixed (.number 1) .add (.infixed (.number 2) .multiply (.number 3))
  have tokens : Token.ofText "1+2*3" =
      [.number 1, .operator "+", .number 2, .operator "*", .number 3] := by decide +kernel
  have tokens' : Token.ofText "1+(2*3)" = [.number 1, .operator "+", .leftParen, .number 2,
      .operator "*", .number 3, .rightParen] := by decide +kernel
  have read : parseWithin (.atMost 18) "1+2*3" = .ok t := by
    rw [parseWithin, tokens]
    cbv
  have read' : parseWithin (.atMost 18) "1+(2*3)" = .ok t := by
    rw [parseWithin, tokens']
    cbv
  have more : Parser.Frames.atMost 18 ≤ .atMost 20 := Parser.Frames.below_le (.atMost 20) 2
  have above := (parseWithin_eq_of_le more (not_nestsTooDeep_of_ok read)).trans read
  have above' := (parseWithin_eq_of_le more (not_nestsTooDeep_of_ok read')).trans read'
  have rendered : t.render = .ok "(1 + (2 * 3))" := Tree.render_eq_ok_iff.2 ⟨by decide +kernel, rfl⟩
  have value : t.evaluate = .ok 7 := by
    rw [Tree.evaluate_eq_fold]
    rfl
  have printed : Printed true t 7 "(1 + (2 * 3))\n7" :=
    printed_true_iff.2 ⟨_, rendered, by decide +kernel⟩
  have small : IsPrintable 7 := by decide +kernel
  have asked : (respond (.atMost 20) settings (.tree "1+2*3")).reply = .text true "(1 + (2 * 3))" :=
    showGrouping_eq_ok_iff.2 ⟨t, read, rendered⟩
  have asked' : (respond (.atMost 20) settings (.tree "1+(2*3)")).reply =
      .text true "(1 + (2 * 3))" := showGrouping_eq_ok_iff.2 ⟨t, read', rendered⟩
  have reply : (respond (.atMost 20) settings (.expression "1+2*3")).reply =
      .text true "(1 + (2 * 3))\n7" :=
    evaluateExpression_eq_ok_iff.2 ⟨t, 7, above, value, small, printed⟩
  have reply' : (respond (.atMost 20) settings (.expression "1+(2*3)")).reply =
      .text true "(1 + (2 * 3))\n7" :=
    evaluateExpression_eq_ok_iff.2 ⟨t, 7, above', value, small, printed⟩
  obtain ⟨_, _, trees, values⟩ := render_injective (.atMost 20) settings
  exact ⟨asked, asked', trees _ _ _ asked asked', reply, reply', values rfl _ _ _ reply reply'⟩

end Session

end LineCalc
