import Mathlib.Data.List.DropRight
import LineCalc.Proofs.Token.Spelling

/-! The numerals of a text and where they stand. A numeral is a run of digits that no other
digit touches, so a text can be cut in front of it and behind it, and putting something else
between parentheses in its place changes no other token. -/
namespace LineCalc

def Token.number? : Token → Option Int
  | number n => some n
  | _ => none

namespace Lexeme

def numerals (text : String) : List Lexeme :=
  (ofText text).filter fun l => l.token.number?.isSome

end Lexeme

/-- The text with another one between parentheses in place of the numeral that ends at `stop`. -/
def substitute (context : String) (stop : Nat) (inner : String) : String :=
  let before := (context.toList.take stop).rdropWhile Char.isDigit
  String.ofList (before ++ '(' :: inner.toList ++ ')' :: context.toList.drop stop)

namespace Token

theorem endsNumeral_append {xs ys : List Char} (h : EndsNumeral xs)
    (hn : xs = [] → EndsNumeral ys) : EndsNumeral (xs ++ ys) := by
  cases xs with
  | nil => exact hn rfl
  | cons c xs => exact endsNumeral_cons (h c rfl) (xs ++ ys)

theorem endsNumeral_dropWhile (cs : List Char) : EndsNumeral (cs.dropWhile Char.isDigit) := by
  intro c hc
  have := List.head?_dropWhile_not Char.isDigit cs
  rw [hc] at this
  simpa using this

theorem isDigit_of_mem_run {c : Char} (digit : c.isDigit) (rest : List Char) :
    ∀ d ∈ c :: rest.takeWhile Char.isDigit, d.isDigit := by
  intro d hd
  rcases List.mem_cons.1 hd with rfl | hd
  · exact digit
  · exact List.mem_takeWhile_imp hd

theorem ofChars_append {ys : List Char} (ends : EndsNumeral ys) (xs : List Char) :
    ofChars (xs ++ ys) = ofChars xs ++ ofChars ys := by
  suffices ∀ offset : Nat, ofChars (xs ++ ys) = ofChars xs ++ ofChars ys from this 0
  intro offset
  fun_induction Lexeme.scan offset xs with
  | case1 => rw [ofChars_nil, List.nil_append, List.nil_append]
  | case2 offset c rest gap ih => rw [List.cons_append, ofChars_gap gap, ofChars_gap gap, ih]
  | case3 offset c rest _ digit run stop ih =>
    have all := isDigit_of_mem_run digit rest
    have cut : c :: rest = (c :: run) ++ rest.dropWhile Char.isDigit := by
      rw [List.cons_append, List.takeWhile_append_dropWhile]
    have behind := endsNumeral_dropWhile rest
    rw [cut, List.append_assoc, ofChars_digits (List.cons_ne_nil c run) all behind,
      ofChars_digits (List.cons_ne_nil c run) all (endsNumeral_append behind fun _ => ends), ih,
      List.cons_append]
  | case4 offset c rest gap digit ih =>
    rw [List.cons_append, ofChars_mark gap digit, ofChars_mark gap digit, ih, List.cons_append]

/-- A run of digits with what stands on both sides of it, where no digit stands next to it. -/
structure IsNumeral (before digits after : List Char) : Prop where
  ne_nil : digits ≠ []
  all : ∀ c ∈ digits, c.isDigit
  begins : EndsNumeral before.reverse
  ends : EndsNumeral after

theorem IsNumeral.extend {before digits after : List Char} (h : IsNumeral before digits after)
    (front : List Char) (apart : before = [] → EndsNumeral front.reverse) :
    IsNumeral (front ++ before) digits after := by
  refine ⟨h.ne_nil, h.all, ?_, h.ends⟩
  rw [List.reverse_append]
  exact endsNumeral_append h.begins fun none => apart (List.reverse_eq_nil_iff.1 none)

/-- A lexeme of a number is a numeral of the text, and the lexemes around it are those of what
stands around the numeral. -/
theorem exists_numeral_of_scan {offset stop : Nat} {cs : List Char} {ls ls' : List Lexeme}
    {n : Int} (h : Lexeme.scan offset cs = ls ++ ⟨.number n, stop⟩ :: ls') :
    ∃ before digits after, cs = before ++ digits ++ after ∧ IsNumeral before digits after ∧
      offset + (before ++ digits).length = stop ∧ (Decimal.ofDigits digits : Int) = n ∧
        ofChars before = ls.map Lexeme.token ∧ ofChars after = ls'.map Lexeme.token := by
  revert ls
  fun_induction Lexeme.scan offset cs with
  | case1 => simp
  | case2 offset c rest gap ih =>
    intro ls h
    obtain ⟨before, digits, after, rfl, numeral, length, value, front, back⟩ := ih h
    have apart : EndsNumeral [c] :=
      endsNumeral_cons (fun digit => not_isGap_of_isDigit digit gap) []
    refine ⟨c :: before, digits, after, rfl, numeral.extend [c] fun _ => apart, ?_, value, ?_,
      back⟩
    · simp only [List.cons_append, List.length_cons]; omega
    · rw [ofChars_gap gap, front]
  | case3 offset c rest _ digit run reached =>
    rename_i ih
    intro ls h
    have all := isDigit_of_mem_run digit rest
    have behind := endsNumeral_dropWhile rest
    cases ls with
    | nil =>
      obtain ⟨same, rfl⟩ := List.cons.inj h
      obtain ⟨value, length⟩ := Lexeme.mk.inj same
      refine ⟨[], c :: run, rest.dropWhile Char.isDigit, ?_,
        ⟨List.cons_ne_nil c run, all, endsNumeral_nil, behind⟩, ?_, Token.number.inj value,
        ofChars_nil, ?_⟩
      · rw [List.nil_append, List.cons_append, List.takeWhile_append_dropWhile]
      · rw [← length, List.nil_append, List.length_cons]
        exact Nat.add_right_comm offset run.length 1
      · exact (map_token_scan_eq ..).symm
    | cons l ls =>
      obtain ⟨rfl, others⟩ := List.cons.inj h
      obtain ⟨before, digits, after, cut, numeral, length, value, front, back⟩ := ih others
      have first : before ≠ [] := by
        rintro rfl
        obtain ⟨d, ds, rfl⟩ := List.exists_cons_of_ne_nil numeral.ne_nil
        exact behind d (by rw [cut]; rfl) (numeral.all d List.mem_cons_self)
      have seam : EndsNumeral before := by
        obtain ⟨d, ds, rfl⟩ := List.exists_cons_of_ne_nil first
        exact endsNumeral_cons (behind d (by rw [cut]; rfl)) ds
      refine ⟨c :: run ++ before, digits, after, ?_, numeral.extend _ fun none => absurd none first,
        ?_, value, ?_, back⟩
      · rw [List.append_assoc, List.append_assoc, ← List.append_assoc before, ← cut,
          List.cons_append, List.takeWhile_append_dropWhile]
      · simp only [List.length_append, List.length_cons] at length ⊢; omega
      · rw [ofChars_digits (List.cons_ne_nil c run) all seam, front]
        rfl
  | case4 offset c rest gap digit ih =>
    intro ls h
    cases ls with
    | nil =>
      obtain ⟨same, _⟩ := List.cons.inj h
      exact absurd (congrArg Lexeme.token same) (mark_ne_number c n)
    | cons l ls =>
      obtain ⟨rfl, others⟩ := List.cons.inj h
      obtain ⟨before, digits, after, rfl, numeral, length, value, front, back⟩ := ih others
      have apart : EndsNumeral [c] := endsNumeral_cons digit []
      refine ⟨c :: before, digits, after, rfl, numeral.extend [c] fun _ => apart, ?_, value, ?_,
        back⟩
      · simp only [List.cons_append, List.length_cons]; omega
      · rw [ofChars_mark gap digit, front]
        rfl

end Token

open Token

theorem substitute_of_isNumeral {context : String} {before digits after : List Char}
    (cut : context.toList = before ++ digits ++ after) (numeral : IsNumeral before digits after)
    (inner : String) :
    substitute context (before ++ digits).length inner =
      String.ofList (before ++ '(' :: inner.toList ++ ')' :: after) := by
  have front : (before ++ digits).rdropWhile Char.isDigit = before := by
    have reversed : ∀ c ∈ digits.reverse, c.isDigit := fun c hc =>
      numeral.all c (List.mem_reverse.1 hc)
    rw [List.rdropWhile, List.reverse_append,
      dropWhile_isDigit_append reversed numeral.begins, List.reverse_reverse]
  rw [substitute, cut, List.take_left, List.drop_left]
  simp only [front]

theorem ofText_substitute {context : String} {before digits after : List Char}
    (cut : context.toList = before ++ digits ++ after) (numeral : IsNumeral before digits after)
    (inner : String) :
    Token.ofText (substitute context (before ++ digits).length inner) =
      ofChars before ++ .leftParen :: Token.ofText inner ++ .rightParen :: ofChars after := by
  have opens : ∀ cs, EndsNumeral ('(' :: cs) := endsNumeral_cons (by decide)
  have closes : ∀ cs, EndsNumeral (')' :: cs) := endsNumeral_cons (by decide)
  rw [substitute_of_isNumeral cut numeral, ofText_eq_ofChars, String.toList_ofList,
    ofChars_append (closes _), ofChars_append (opens _), ofChars_leftParen, ofChars_rightParen,
    ofText_eq_ofChars]

/-- A numeral of a text by its number `j`: the tokens in front of it hold `j` numbers. -/
theorem exists_numeral {context : String} {j stop : Nat} {n : Int}
    (h : (Lexeme.numerals context)[j]? = some ⟨.number n, stop⟩) :
    ∃ before digits after, context.toList = before ++ digits ++ after ∧
      IsNumeral before digits after ∧ (before ++ digits).length = stop ∧
        (Decimal.ofDigits digits : Int) = n ∧
          Token.ofText context = ofChars before ++ .number n :: ofChars after ∧
            ((ofChars before).filterMap number?).length = j := by
  obtain ⟨short, same⟩ := List.getElem?_eq_some_iff.1 h
  have cut := (List.take_append_drop j (Lexeme.numerals context)).symm
  rw [List.drop_eq_getElem_cons short, same] at cut
  obtain ⟨ls, rest, split, front, back⟩ := List.filter_eq_append_iff.1 cut
  obtain ⟨others, ls', rfl, none, _, _⟩ := List.filter_eq_cons_iff.1 back
  rw [← List.append_assoc] at split
  obtain ⟨before, digits, after, cut, numeral, length, value, left, right⟩ :=
    exists_numeral_of_scan split
  refine ⟨before, digits, after, cut, numeral, (Nat.zero_add _).symm.trans length, value, ?_, ?_⟩
  · rw [left, right, Token.ofText, split, List.map_append, List.map_cons]
  · have passed : (ls ++ others).filter (fun l => l.token.number?.isSome) =
        (Lexeme.numerals context).take j := by
      rw [List.filter_append, front, List.filter_eq_nil_iff.2 none, List.append_nil]
    rw [left, List.length_filterMap_eq_countP, List.countP_map, List.countP_eq_length_filter]
    exact (congrArg List.length passed).trans (List.length_take_of_le (Nat.le_of_lt short))

end LineCalc
