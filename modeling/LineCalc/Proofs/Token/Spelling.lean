import LineCalc.Operator
import LineCalc.Token.Lexer

/-! The tokens of a list of characters, one equation for each way in which a text goes on.
Only a numeral looks ahead: it ends where no further digit stands. -/
namespace LineCalc.Token

open Lexeme (isGap mark)

/-- The tokens that the characters spell, wherever in a text they stand. -/
def ofChars (cs : List Char) : List Token := (Lexeme.scan 0 cs).map Lexeme.token

theorem ofText_eq_ofChars (text : String) : ofText text = ofChars text.toList := rfl

theorem map_token_scan_eq (offset : Nat) (cs : List Char) :
    (Lexeme.scan offset cs).map Lexeme.token = ofChars cs :=
  Lexeme.map_token_scan offset 0 cs

theorem ofChars_nil : ofChars [] = [] := by
  rw [ofChars, Lexeme.scan_nil, List.map_nil]

theorem ofChars_gap {c : Char} (h : isGap c) (rest : List Char) :
    ofChars (c :: rest) = ofChars rest := by
  rw [ofChars, Lexeme.scan_gap h, map_token_scan_eq]

theorem scan_mark {c : Char} (noGap : ¬isGap c) (noDigit : ¬c.isDigit) (offset : Nat)
    (rest : List Char) :
    Lexeme.scan offset (c :: rest) = ⟨mark c, offset + 1⟩ :: Lexeme.scan (offset + 1) rest := by
  rw [Lexeme.scan, if_neg noGap, if_neg noDigit]

theorem ofChars_mark {c : Char} (noGap : ¬isGap c) (noDigit : ¬c.isDigit) (rest : List Char) :
    ofChars (c :: rest) = mark c :: ofChars rest := by
  rw [ofChars, scan_mark noGap noDigit, List.map_cons, map_token_scan_eq]

theorem not_isGap_of_isDigit {c : Char} (h : c.isDigit) : ¬isGap c := by
  intro gap
  simp only [isGap, Bool.or_eq_true, decide_eq_true_eq] at gap
  rcases gap with rfl | rfl <;> contradiction

/-- No digit that a numeral could go on with stands in front. -/
def EndsNumeral (rest : List Char) : Prop := ∀ c, rest.head? = some c → ¬c.isDigit

theorem endsNumeral_nil : EndsNumeral [] := nofun

theorem endsNumeral_cons {c : Char} (h : ¬c.isDigit) (rest : List Char) :
    EndsNumeral (c :: rest) := by
  intro d hd
  cases hd
  exact h

theorem takeWhile_isDigit_append {digits rest : List Char} (all : ∀ c ∈ digits, c.isDigit)
    (ends : EndsNumeral rest) : (digits ++ rest).takeWhile Char.isDigit = digits := by
  rw [List.takeWhile_append_of_pos all]
  cases rest with
  | nil => rw [List.takeWhile_nil, List.append_nil]
  | cons c rest => rw [List.takeWhile_cons_of_neg (ends c rfl), List.append_nil]

theorem dropWhile_isDigit_append {digits rest : List Char} (all : ∀ c ∈ digits, c.isDigit)
    (ends : EndsNumeral rest) : (digits ++ rest).dropWhile Char.isDigit = rest := by
  rw [List.dropWhile_append_of_pos all]
  cases rest with
  | nil => exact List.dropWhile_nil
  | cons c rest => exact List.dropWhile_cons_of_neg (ends c rfl)

theorem scan_digits {digits rest : List Char} (ne : digits ≠ []) (all : ∀ c ∈ digits, c.isDigit)
    (ends : EndsNumeral rest) (offset : Nat) :
    Lexeme.scan offset (digits ++ rest) =
      ⟨.number (Decimal.ofDigits digits), offset + digits.length⟩ ::
        Lexeme.scan (offset + digits.length) rest := by
  obtain ⟨d, ds, rfl⟩ := List.exists_cons_of_ne_nil ne
  obtain ⟨digit, others⟩ := List.forall_mem_cons.1 all
  rw [List.cons_append, Lexeme.scan, if_neg (not_isGap_of_isDigit digit), if_pos digit]
  simp only [takeWhile_isDigit_append others ends, dropWhile_isDigit_append others ends,
    List.length_cons, Nat.add_assoc, Nat.add_comm ds.length]

theorem ofChars_digits {digits rest : List Char} (ne : digits ≠ [])
    (all : ∀ c ∈ digits, c.isDigit) (ends : EndsNumeral rest) :
    ofChars (digits ++ rest) = .number (Decimal.ofDigits digits) :: ofChars rest := by
  rw [ofChars, scan_digits ne all ends, List.map_cons, map_token_scan_eq]

theorem ofChars_natural (n : Nat) {rest : List Char} (ends : EndsNumeral rest) :
    ofChars (Nat.toDigits 10 n ++ rest) = .number n :: ofChars rest := by
  have all : ∀ c ∈ Nat.toDigits 10 n, c.isDigit := fun _ => Decimal.isDigit_of_mem_toDigits
  rw [ofChars_digits (Decimal.toDigits_ne_nil n) all ends, Decimal.ofDigits_toDigits]

theorem ofChars_toDigits (n : Nat) : ofChars (Nat.toDigits 10 n) = [.number n] := by
  have digits := ofChars_natural n endsNumeral_nil
  rwa [List.append_nil, ofChars_nil] at digits

theorem mark_ne_number (c : Char) (n : Int) : mark c ≠ .number n := by
  unfold mark
  split
  · nofun
  · split <;> nofun

theorem nonneg_of_mem_scan {offset : Nat} {cs : List Char} {l : Lexeme} {n : Int}
    (h : l ∈ Lexeme.scan offset cs) (hn : l.token = .number n) : 0 ≤ n := by
  fun_induction Lexeme.scan offset cs with
  | case1 => cases h
  | case2 offset c rest _ ih => exact ih h
  | case3 offset c rest _ _ run stop ih =>
    rcases List.mem_cons.1 h with rfl | h
    · cases hn
      exact Int.natCast_nonneg _
    · exact ih h
  | case4 offset c rest _ _ ih =>
    rcases List.mem_cons.1 h with rfl | h
    · exact absurd hn (mark_ne_number c n)
    · exact ih h

theorem nonneg_of_mem_ofText {n : Int} {text : String} (h : .number n ∈ ofText text) :
    0 ≤ n := by
  obtain ⟨l, mem, hl⟩ := List.mem_map.1 h
  exact nonneg_of_mem_scan mem hl

section Symbols

variable (rest : List Char)

theorem ofChars_leftParen : ofChars ('(' :: rest) = .leftParen :: ofChars rest :=
  ofChars_mark (by decide) (by decide) rest

theorem ofChars_rightParen : ofChars (')' :: rest) = .rightParen :: ofChars rest :=
  ofChars_mark (by decide) (by decide) rest

theorem ofChars_prefixOp (op : PrefixOp) :
    ofChars (op.symbol.toList ++ rest) = .operator op.symbol :: ofChars rest := by
  cases op <;> exact ofChars_mark (by decide) (by decide) rest

theorem ofChars_infixOp (op : InfixOp) :
    ofChars (op.symbol.toList ++ rest) = .operator op.symbol :: ofChars rest := by
  cases op <;> exact ofChars_mark (by decide) (by decide) rest

theorem ofChars_postfixOp (op : PostfixOp) :
    ofChars (op.symbol.toList ++ rest) = .operator op.symbol :: ofChars rest := by
  cases op
  exact ofChars_mark (by decide) (by decide) rest

theorem endsNumeral_postfixOp (op : PostfixOp) : EndsNumeral (op.symbol.toList ++ rest) := by
  cases op
  exact endsNumeral_cons (by decide) rest

end Symbols

end LineCalc.Token
