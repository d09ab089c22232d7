import LineCalc.Proofs.Grammar
import LineCalc.Proofs.Token.Spelling
import LineCalc.Proofs.Tree.Leaves

/-! Reading a printed tree. A negative leaf is printed like the negation of its absolute
value and is read as one, outside of a postfix operator that stood behind the leaf. Apart
from that the grammar gives the tree back, and the value survives. -/
namespace LineCalc

namespace Tree

def tokens : Tree → List Token
  | number n => if n < 0 then [.operator "-", .number (-n)] else [.number n]
  | prefixed op t => .leftParen :: .operator op.symbol :: t.tokens ++ [.rightParen]
  | infixed l op r =>
    .leftParen :: l.tokens ++ .operator op.symbol :: r.tokens ++ [.rightParen]
  | postfixed t op => .leftParen :: t.tokens ++ [.operator op.symbol, .rightParen]
  | hole => []

/-- The tree that is read from the text of a tree. -/
def reread : Tree → Tree
  | number n => if n < 0 then .prefixed .negative (.number (-n)) else .number n
  | prefixed op t => .prefixed op t.reread
  | infixed l op r => .infixed l.reread op r.reread
  | postfixed (number n) op =>
    if n < 0 then .prefixed .negative (.postfixed (.number (-n)) op)
    else .postfixed (.number n) op
  | postfixed t op => .postfixed t.reread op
  | hole => .hole

end Tree

namespace Token

theorem ofChars_integer (n : Int) {rest : List Char} (ends : EndsNumeral rest) :
    ofChars (n.repr.toList ++ rest) = (Tree.number n).tokens ++ ofChars rest := by
  rw [Tree.tokens]
  match n with
  | .ofNat m =>
    rw [if_neg (by simp), Decimal.toList_repr_ofNat, ofChars_natural m ends]
    rfl
  | .negSucc m =>
    rw [if_pos (Int.negSucc_lt_zero m), Decimal.toList_repr_negSucc]
    exact (ofChars_prefixOp _ .negative).trans (congrArg _ (ofChars_natural (m + 1) ends))

theorem ofChars_shown {p : Int → Prop} {t : Tree} (h : t.Leaves p) {rest : List Char}
    (ends : EndsNumeral rest) : ofChars (t.shown.toList ++ rest) = t.tokens ++ ofChars rest := by
  induction t generalizing rest with
  | number n => exact ofChars_integer n ends
  | prefixed op t ih =>
    have close := endsNumeral_cons (c := ')') (by decide) rest
    rw [Tree.toList_shown_prefixed, ofChars_leftParen, ofChars_prefixOp, ih h close,
      ofChars_rightParen, Tree.tokens]
    simp
  | infixed l op r ihl ihr =>
    have close := endsNumeral_cons (c := ')') (by decide) rest
    have blank : Lexeme.isGap ' ' := by decide
    rw [Tree.toList_shown_infixed, ofChars_leftParen, ihl h.1 (endsNumeral_cons (by decide) _),
      ofChars_gap blank, ofChars_infixOp, ofChars_gap blank, ihr h.2 close, ofChars_rightParen,
      Tree.tokens]
    simp
  | postfixed t op ih =>
    have ends := endsNumeral_postfixOp (')' :: rest) op
    rw [Tree.toList_shown_postfixed, ofChars_leftParen, ih h ends, ofChars_postfixOp,
      ofChars_rightParen, Tree.tokens]
    simp
  | hole => cases h

theorem ofText_shown {p : Int → Prop} {t : Tree} (h : t.Leaves p) :
    ofText t.shown = t.tokens := by
  have read := ofChars_shown h endsNumeral_nil
  rwa [ofChars_nil, List.append_nil, List.append_nil] at read

end Token

namespace Tree

theorem reread_negative {n : Int} (h : n < 0) :
    (number n).reread = prefixed .negative (number (-n)) := if_pos h

theorem reread_postfixed_negative {n : Int} (h : n < 0) (op : PostfixOp) :
    (postfixed (number n) op).reread = prefixed .negative (postfixed (number (-n)) op) := if_pos h

theorem reread_postfixed {t : Tree} (h : ∀ n < 0, t ≠ number n) (op : PostfixOp) :
    (postfixed t op).reread = postfixed t.reread op := by
  cases t with
  | number n =>
    have nonneg : ¬n < 0 := fun neg => h n neg rfl
    rw [reread, reread, if_neg nonneg, if_neg nonneg]
  | prefixed | infixed | postfixed | hole => rfl

theorem reread_of_nonneg {t : Tree} (h : t.Leaves (0 ≤ ·)) : t.reread = t := by
  induction t with
  | number n => exact if_neg (Int.not_lt.2 h)
  | prefixed op t ih => rw [reread, ih h]
  | infixed l op r ihl ihr => rw [reread, ihl h.1, ihr h.2]
  | postfixed t op ih =>
    rw [reread_postfixed _ op, ih h]
    rintro n neg rfl
    exact absurd neg (Int.not_lt.2 h)
  | hole => rfl

theorem derives_negative {ts : List Token} {t : Tree} (h : Derives .signed ts t) :
    Derives .signed (.operator "-" :: ts) (.prefixed .negative t) :=
  .prefixed (Phrase.mem_prefixOps .negative) h

theorem derives_group {q : Phrase} {ts : List Token} {t : Tree} (h : Derives q ts t) :
    Derives .atom (.leftParen :: ts ++ [.rightParen]) t := by
  refine .group (h.loosen ?_)
  cases q <;> decide

/-- The text of a tree is a signed phrase, and an atom unless the tree is a negative leaf. -/
theorem derives_tokens {p : Int → Prop} {t : Tree} (h : t.Leaves p) :
    Derives .signed t.tokens t.reread ∧
      ((∀ n < 0, t ≠ number n) → Derives .atom t.tokens t.reread) := by
  have signed {ts : List Token} {t : Tree} (atom : Derives .atom ts t) : Derives .signed ts t :=
    atom.loosen (by decide)
  induction t with
  | number n =>
    by_cases neg : n < 0
    · refine ⟨?_, fun other => absurd rfl (other n neg)⟩
      rw [tokens, reread_negative neg, if_pos neg]
      exact derives_negative (signed (.number (-n)))
    · have atom : Derives .atom (number n).tokens (number n).reread := by
        rw [tokens, reread, if_neg neg, if_neg neg]
        exact .number n
      exact ⟨signed atom, fun _ => atom⟩
  | prefixed op t ih =>
    have node : Derives .atom (prefixed op t).tokens (prefixed op t).reread :=
      derives_group (.prefixed (Phrase.mem_prefixOps op) (ih h).1)
    exact ⟨signed node, fun _ => node⟩
  | infixed l op r ihl ihr =>
    have below : (Phrase.ofInfixOp op).strength < Phrase.signed.strength := by
      cases op <;> decide
    obtain ⟨q, next, le⟩ := Phrase.exists_tighter below
    have node : Derives .atom (infixed l op r).tokens (infixed l op r).reread :=
      derives_group (.infixed (Phrase.mem_infixOps_ofInfixOp op) next
        ((ihl h.1).1.loosen (Int.le_of_lt below)) ((ihr h.2).1.loosen le))
    exact ⟨signed node, fun _ => node⟩
  | postfixed t op ih =>
    have node : Derives .atom (postfixed t op).tokens (postfixed t op).reread := by
      by_cases negative : ∃ n < 0, t = number n
      · obtain ⟨n, neg, rfl⟩ := negative
        have digits : Derives .suffixed [.number (-n)] (number (-n)) :=
          Derives.loosen (.number (-n)) (by decide)
        have suffixed := Derives.postfixed (Phrase.mem_postfixOps op) digits
        rw [tokens, tokens, if_pos neg, reread_postfixed_negative neg]
        exact derives_group (derives_negative (suffixed.loosen (by decide)))
      · have other : ∀ n < 0, t ≠ number n := fun n neg ht => negative ⟨n, neg, ht⟩
        have operand : Derives .suffixed t.tokens t.reread := ((ih h).2 other).loosen (by decide)
        rw [tokens, reread_postfixed other]
        have group := derives_group (.postfixed (Phrase.mem_postfixOps op) operand)
        rwa [List.cons_append, List.append_assoc] at group
    exact ⟨signed node, fun _ => node⟩
  | hole => exact h.elim

/-- The negation of the absolute value is the number, and the factorial fails on both sides of
a minus. -/
theorem evaluate_reread (t : Tree) : t.reread.evaluate = t.evaluate := by
  rw [evaluate_eq_fold, evaluate_eq_fold]
  induction t with
  | number n =>
    by_cases neg : n < 0
    · rw [reread_negative neg]
      exact congrArg Except.ok (Int.neg_neg n)
    · rw [reread, if_neg neg]
  | prefixed op t ih => rw [reread, fold, fold, ih]
  | infixed l op r ihl ihr => rw [reread, fold, fold, ihl, ihr]
  | postfixed t op ih =>
    by_cases negative : ∃ n < 0, t = number n
    · obtain ⟨n, neg, rfl⟩ := negative
      rw [reread_postfixed_negative neg]
      cases op
      rfl
    · rw [reread_postfixed (fun n neg ht => negative ⟨n, neg, ht⟩), fold, fold, ih]
  | hole => rfl

end Tree

end LineCalc
