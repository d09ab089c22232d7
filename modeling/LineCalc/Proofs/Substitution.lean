import LineCalc.Proofs.Grammar.Climbing
import LineCalc.Proofs.Token.Numerals

/-! Reading is compositional: an expression between parentheses in place of a numeral gives the
tree of the expression in place of the leaf of the numeral. A group is an atom of the grammar as
a number is, so the derivation around it stays what it was. -/
namespace LineCalc

open LineCalc.Parser

namespace Tree

/-- The numbers of a tree, from left to right. -/
def numbers : Tree → List Int
  | number n => [n]
  | prefixed _ t | postfixed t _ => t.numbers
  | infixed l _ r => l.numbers ++ r.numbers
  | hole => []

/-- The tree with `e` in place of its leaf `j`, counted from the left among the numbers. -/
def replaceNumber : Tree → Nat → Tree → Tree
  | number n, j, e => if j = 0 then e else number n
  | prefixed op t, j, e => prefixed op (t.replaceNumber j e)
  | postfixed t op, j, e => postfixed (t.replaceNumber j e) op
  | infixed l op r, j, e =>
    if j < l.numbers.length then infixed (l.replaceNumber j e) op r
    else infixed l op (r.replaceNumber (j - l.numbers.length) e)
  | hole, _, _ => hole

/-- A tree whose value is the number that it replaces changes no value and hides no fault. -/
theorem evaluate_replaceNumber {t e : Tree} {j : Nat} {n : Int} (h : t.numbers[j]? = some n)
    (he : e.evaluate = .ok n) : (t.replaceNumber j e).evaluate = t.evaluate := by
  rw [evaluate_eq_fold] at he ⊢
  rw [evaluate_eq_fold]
  induction t generalizing j with
  | number m =>
    cases j with
    | zero =>
      cases h
      exact he
    | succ j => cases h
  | prefixed op t ih | postfixed t op ih => rw [replaceNumber, fold, fold, ih h]
  | infixed l op r ihl ihr =>
    rw [numbers] at h
    rw [replaceNumber]
    split
    · next left =>
      rw [List.getElem?_append_left left] at h
      rw [fold, fold, ihl h]
    · next right =>
      rw [List.getElem?_append_right (Nat.not_lt.1 right)] at h
      rw [fold, fold, ihr h]
  | hole => cases h

end Tree

def Token.numberCount (ts : List Token) : Nat := (ts.filterMap Token.number?).length

theorem Derives.numbers (h : Derives p ts t) : t.numbers = ts.filterMap Token.number? := by
  induction h with
  | tighter _ _ ih => exact ih
  | infixed _ _ _ _ ihl ihr =>
    rw [Tree.numbers, ihl, ihr, List.filterMap_append]
    rfl
  | prefixed _ _ ih => exact ih
  | postfixed _ _ ih =>
    rw [Tree.numbers, ih, List.filterMap_append]
    exact (List.append_nil _).symm
  | number n => rfl
  | group _ ih =>
    rw [ih, List.filterMap_append]
    exact (List.append_nil _).symm

theorem split_around {a b : α} {xs ys before after : List α}
    (h : xs ++ a :: ys = before ++ b :: after) (ne : a ≠ b) :
    (∃ between, xs = before ++ b :: between ∧ after = between ++ a :: ys) ∨
      ∃ between, before = xs ++ a :: between ∧ ys = between ++ b :: after := by
  rcases List.append_eq_append_iff.1 h with ⟨between, rfl, seam⟩ | ⟨between, rfl, seam⟩
  · cases between with
    | nil => exact absurd (List.cons.inj seam).1 ne
    | cons c between =>
      obtain ⟨rfl, rfl⟩ := List.cons.inj seam
      exact .inr ⟨between, rfl, rfl⟩
  · cases between with
    | nil => exact absurd (List.cons.inj seam).1.symm ne
    | cons c between =>
      obtain ⟨rfl, rfl⟩ := List.cons.inj seam
      exact .inl ⟨between, rfl, rfl⟩

theorem Derives.replace {es : List Token} {e : Tree} (inner : Derives .bits es e)
    (h : Derives p ts t) : ∀ before n after, ts = before ++ .number n :: after →
      Derives p (before ++ (.leftParen :: es ++ [.rightParen]) ++ after)
        (t.replaceNumber (Token.numberCount before) e) := by
  induction h with
  | tighter next _ ih => exact fun before n after h => .tighter next (ih before n after h)
  | @infixed s op q p ts l us r mem next left right ihl ihr =>
    intro before n after h
    rcases split_around h nofun with ⟨between, rfl, rfl⟩ | ⟨between, rfl, rfl⟩
    · have inLeft : Token.numberCount before < l.numbers.length := by
        rw [left.numbers, List.filterMap_append, List.length_append]
        exact Nat.lt_add_of_pos_right (Nat.succ_pos _)
      have node := Derives.infixed mem next (ihl before n between rfl) right
      rw [Tree.replaceNumber, if_pos inLeft]
      rwa [List.append_assoc] at node
    · have skipped : Token.numberCount (ts ++ .operator s :: between) =
          l.numbers.length + Token.numberCount between := by
        rw [left.numbers, Token.numberCount, List.filterMap_append, List.length_append]
        rfl
      have inRight : ¬l.numbers.length + Token.numberCount between < l.numbers.length := by omega
      have node := Derives.infixed mem next left (ihr between n after rfl)
      rw [skipped, Tree.replaceNumber, if_neg inRight, Nat.add_sub_cancel_left]
      simpa only [List.append_assoc, List.cons_append] using node
  | @prefixed s op ts t mem _ ih =>
    intro before n after h
    cases before with
    | nil => cases h
    | cons u before =>
      obtain ⟨rfl, rfl⟩ := List.cons.inj h
      exact .prefixed mem (ih before n after rfl)
  | @postfixed s op ts t mem _ ih =>
    intro before n after h
    rcases split_around h nofun with ⟨between, rfl, rfl⟩ | ⟨between, _, h⟩
    · have node := Derives.postfixed mem (ih before n between rfl)
      rwa [List.append_assoc] at node
    · cases between <;> cases h
  | number m =>
    intro before n after h
    cases before with
    | nil =>
      obtain ⟨_, rfl⟩ := List.cons.inj h
      rw [List.nil_append, List.append_nil]
      exact .group inner
    | cons u before => cases before <;> cases h
  | @group ts t content ih =>
    intro before n after h
    rcases split_around h nofun with ⟨between, opened, rfl⟩ | ⟨between, _, closed⟩
    · cases before with
      | nil => cases opened
      | cons u before =>
        obtain ⟨rfl, rfl⟩ := List.cons.inj opened
        have node := Derives.group (ih before n between rfl)
        show Derives .atom _ (t.replaceNumber (Token.numberCount before) e)
        simpa only [List.append_assoc, List.cons_append] using node
    · cases between <;> cases closed

/-- Numeral `j` of a text that is read is leaf `j` of its tree. With any text that is read in its
place, between parentheses, the text is read as the tree with the other tree in place of that leaf,
unless it nests too deep then; and if the value of the other text is that of the numeral, the
outcome is what it was. -/
theorem parseWithin_substitute {frames : Frames} {context inner : String} {c e : Tree}
    {j stop : Nat} {n : Int} (hc : parseWithin frames context = .ok c)
    (he : parseWithin frames inner = .ok e)
    (numeral : (Lexeme.numerals context)[j]? = some ⟨.number n, stop⟩)
    (fits : ¬NestsTooDeep frames (substitute context stop inner)) :
    (∃ before digits after, context.toList = before ++ digits ++ after ∧
        (∀ d ∈ digits, d.isDigit) ∧ (Decimal.ofDigits digits : Int) = n ∧
          substitute context stop inner =
            String.ofList (before ++ '(' :: inner.toList ++ ')' :: after)) ∧
      c.numbers[j]? = some n ∧
        parseWithin frames (substitute context stop inner) = .ok (c.replaceNumber j e) ∧
          (calculateWithin frames inner = .ok n →
            calculateWithin frames (substitute context stop inner) =
              calculateWithin frames context) := by
  obtain ⟨before, digits, after, cut, apart, rfl, value, tokens, count⟩ := exists_numeral numeral
  have phrase := derives_of_parseWithin hc
  have leaf : c.numbers[j]? = some n := by
    rw [phrase.numbers, tokens, List.filterMap_append, ← count,
      List.getElem?_append_right (Nat.le_refl _), Nat.sub_self]
    rfl
  have whole := (derives_of_parseWithin he).replace phrase _ n _ tokens
  rw [Token.numberCount, count] at whole
  have read : parseWithin frames (substitute context (before ++ digits).length inner) =
      .ok (c.replaceNumber j e) := by
    refine parseWithin_of_derives fits ?_
    rw [ofText_substitute cut apart]
    simpa only [List.append_assoc, List.cons_append, List.nil_append] using whole
  refine ⟨⟨before, digits, after, cut, apart.all, value, substitute_of_isNumeral cut apart inner⟩,
    leaf, read, fun same => ?_⟩
  rw [calculateWithin, he] at same
  rw [calculateWithin, calculateWithin, read, hc]
  exact Tree.evaluate_replaceNumber leaf same

theorem parse_substitute_in_group :
    parseWithin (.atMost 20) "2*-(30-4)" = .ok (.infixed (.number 2) .multiply
        (.prefixed .negative (.infixed (.number 30) .subtract (.number 4)))) ∧
      parseWithin (.atMost 20) "5*6" = .ok (.infixed (.number 5) .multiply (.number 6)) ∧
        (Lexeme.numerals "2*-(30-4)")[1]? = some ⟨.number 30, 6⟩ ∧
          substitute "2*-(30-4)" 6 "5*6" = "2*-((5*6)-4)" ∧
            ¬NestsTooDeep (.atMost 20) "2*-((5*6)-4)" ∧
              calculateWithin (.atMost 20) "5*6" = .ok 30 ∧
                parseWithin (.atMost 20) "2*-((5*6)-4)" =
                  .ok (.infixed (.number 2) .multiply (.prefixed .negative (.infixed
                    (.infixed (.number 5) .multiply (.number 6)) .subtract (.number 4)))) ∧
                  calculateWithin (.atMost 20) "2*-((5*6)-4)" =
                    calculateWithin (.atMost 20) "2*-(30-4)" := by
  have outer : Token.ofText "2*-(30-4)" = [.number 2, .operator "*", .operator "-", .leftParen,
      .number 30, .operator "-", .number 4, .rightParen] := by decide +kernel
  have product : Token.ofText "5*6" = [.number 5, .operator "*", .number 6] := by decide +kernel
  have whole : Token.ofText "2*-((5*6)-4)" = [.number 2, .operator "*", .operator "-", .leftParen,
      .leftParen, .number 5, .operator "*", .number 6, .rightParen, .operator "-", .number 4,
      .rightParen] := by decide +kernel
  have hc : parseWithin (.atMost 20) "2*-(30-4)" = .ok (.infixed (.number 2) .multiply
      (.prefixed .negative (.infixed (.number 30) .subtract (.number 4)))) := by
    rw [parseWithin, outer]
    cbv
  have he : parseWithin (.atMost 20) "5*6" = .ok (.infixed (.number 5) .multiply (.number 6)) := by
    rw [parseWithin, product]
    cbv
  have numeral : (Lexeme.numerals "2*-(30-4)")[1]? = some ⟨.number 30, 6⟩ := by decide +kernel
  have text : substitute "2*-(30-4)" 6 "5*6" = "2*-((5*6)-4)" := by decide +kernel
  have read : (Parser.whole (.atMost 20) (Token.ofText "2*-((5*6)-4)")).isOk = true := by
    rw [whole]
    cbv
  have fits : ¬NestsTooDeep (.atMost 20) "2*-((5*6)-4)" := by
    rintro ⟨rest, deep⟩
    rw [deep] at read
    cases read
  have value : calculateWithin (.atMost 20) "5*6" = .ok 30 := by
    rw [calculateWithin, he]
    cbv
  have result := parseWithin_substitute hc he numeral (text ▸ fits)
  rw [text] at result
  exact ⟨hc, he, numeral, text, fits, value, result.2.2.1, result.2.2.2 value⟩

end LineCalc
