import Mathlib.Logic.Relation
import LineCalc.Parser
import LineCalc.Proofs.Token.Numerals

/-! Gaps separate numerals and mean nothing else. A run of gaps may come, go or change wherever no
two digits are split or brought together; all that reads the tokens reads the same. -/
namespace LineCalc

namespace Token

open Lexeme (isGap mark)

/-- One run of gaps in place of another. A run between two digits neither comes nor goes. -/
inductive Regap : List Char → List Char → Prop where
  | exchange {front old new back : List Char} (oldGaps : ∀ c ∈ old, isGap c)
      (newGaps : ∀ c ∈ new, isGap c)
      (apart : ∀ c ∈ front.getLast?, ∀ d ∈ back.head?, c.isDigit → d.isDigit →
        (old = [] ↔ new = [])) :
      Regap (front ++ old ++ back) (front ++ new ++ back)

def Respaced (s t : String) : Prop := Relation.ReflTransGen Regap s.toList t.toList

theorem ofChars_gaps {gaps : List Char} (h : ∀ c ∈ gaps, isGap c) (rest : List Char) :
    ofChars (gaps ++ rest) = ofChars rest := by
  rw [ofChars, Lexeme.scan_gaps h, map_token_scan_eq]

theorem endsNumeral_gaps {gaps : List Char} (h : ∀ c ∈ gaps, isGap c) : EndsNumeral gaps :=
  fun c first digit => not_isGap_of_isDigit digit (h c (List.mem_of_head? first))

theorem ofChars_append_left {xs : List Char} (ends : EndsNumeral xs.reverse) (ys : List Char) :
    ofChars (xs ++ ys) = ofChars xs ++ ofChars ys := by
  rcases List.eq_nil_or_concat' xs with rfl | ⟨init, c, rfl⟩
  · rw [ofChars_nil, List.nil_append, List.nil_append]
  · have digit : ¬c.isDigit := ends c (by rw [List.head?_reverse, List.getLast?_concat])
    have single : ofChars (c :: ys) = ofChars [c] ++ ofChars ys := by
      by_cases gap : isGap c
      · rw [ofChars_gap gap, ofChars_gap gap, ofChars_nil, List.nil_append]
      · rw [ofChars_mark gap digit, ofChars_mark gap digit, ofChars_nil, List.singleton_append]
    rw [List.append_assoc, List.singleton_append, ofChars_append (endsNumeral_cons digit ys),
      single, ofChars_append (endsNumeral_cons digit []), List.append_assoc]

theorem ofChars_around {front gaps back : List Char} (h : ∀ c ∈ gaps, isGap c)
    (apart : EndsNumeral front.reverse ∨ EndsNumeral back ∨ gaps ≠ []) :
    ofChars (front ++ gaps ++ back) = ofChars front ++ ofChars back := by
  rw [List.append_assoc]
  rcases apart with ends | begins
  · rw [ofChars_append_left ends, ofChars_gaps h]
  · have seam : EndsNumeral (gaps ++ back) :=
      endsNumeral_append (endsNumeral_gaps h) fun none => begins.resolve_right fun ne => ne none
    rw [ofChars_append seam, ofChars_gaps h]

theorem exists_digit_of_not_endsNumeral {cs : List Char} (h : ¬EndsNumeral cs) :
    ∃ c, cs.head? = some c ∧ c.isDigit := by
  simpa [EndsNumeral] using h

theorem Regap.ofChars_eq {xs ys : List Char} (h : Regap xs ys) : ofChars xs = ofChars ys := by
  obtain @⟨front, old, new, back, oldGaps, newGaps, apart⟩ := h
  by_cases ends : EndsNumeral front.reverse
  · rw [ofChars_around oldGaps (.inl ends), ofChars_around newGaps (.inl ends)]
  by_cases begins : EndsNumeral back
  · rw [ofChars_around oldGaps (.inr (.inl begins)), ofChars_around newGaps (.inr (.inl begins))]
  obtain ⟨c, last, digit⟩ := exists_digit_of_not_endsNumeral ends
  obtain ⟨d, first, digit'⟩ := exists_digit_of_not_endsNumeral begins
  rw [List.head?_reverse] at last
  have same := apart c last d first digit digit'
  by_cases none : old = []
  · rw [none, same.1 none]
  · rw [ofChars_around oldGaps (.inr (.inr none)),
      ofChars_around newGaps (.inr (.inr (mt same.2 none)))]

theorem ofChars_eq_of_changes {xs ys : List Char} (h : Relation.ReflTransGen Regap xs ys) :
    ofChars xs = ofChars ys := by
  induction h with
  | refl => rfl
  | tail _ change ih => exact ih.trans change.ofChars_eq

theorem ofText_respaced {s t : String} (h : Respaced s t) : ofText s = ofText t :=
  ofChars_eq_of_changes h

end Token

theorem parseWithin_respaced {s t : String} (h : Token.Respaced s t) (frames : Parser.Frames) :
    parseWithin frames s = parseWithin frames t := by
  rw [parseWithin, parseWithin, Token.ofText_respaced h]

end LineCalc
