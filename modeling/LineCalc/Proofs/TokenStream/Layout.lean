import Mathlib.Data.List.Chain
import LineCalc.Proofs.Token.Numerals
import LineCalc.Proofs.TokenStream.Entries

/-! What a text is made of: words with gaps around them, each word the spelling of one token. Only
two numerals need a gap between them. Every text can be written in this way, and the entries of a
stream are the tokens of the words with the offsets behind them, so nothing of a text is lost. -/
namespace LineCalc

/-- What digits come to in base ten, each by the place where it stands. -/
def Decimal.placeValue : List Char → Nat
  | [] => 0
  | c :: rest => (c.toNat - '0'.toNat) * Nat.pow 10 rest.length + placeValue rest

theorem Decimal.ofDigits_eq_placeValue (digits : List Char) :
    ofDigits digits = placeValue digits := by
  induction digits with
  | nil => rfl
  | cons c rest ih =>
    rw [ofDigits] at ih
    rw [ofDigits, Nat.ofDigitChars_cons, Nat.ofDigitChars_eq_ofDigitChars_zero, ih, placeValue,
      Nat.mul_zero, Nat.zero_add, Nat.mul_comm]
    rfl

def IsGap (cs : List Char) : Prop := ∀ c ∈ cs, c = ' ' ∨ c = '\t'

/-- The characters spell the token. Leading zeros are digits like the others, and a character
that begins no other word is an operator by itself. -/
inductive Spells : List Char → Token → Prop where
  | number (ne : digits ≠ []) (all : ∀ c ∈ digits, c.isDigit) :
      Spells digits (.number (Decimal.placeValue digits))
  | leftParen : Spells ['('] .leftParen
  | rightParen : Spells [')'] .rightParen
  | operator (noDigit : ¬c.isDigit) (noParen : c ≠ '(' ∧ c ≠ ')') (noGap : c ≠ ' ' ∧ c ≠ '\t') :
      Spells [c] (.operator c.toString)

structure Word where
  chars : List Char
  token : Token
  spells : Spells chars token
  gap : List Char
  isGap : IsGap gap

namespace Word

def written (w : Word) : List Char := w.chars ++ w.gap

/-- Between two numerals there is a gap. -/
def Apart (w w' : Word) : Prop :=
  w.token.number?.isSome → w'.token.number?.isSome → w.gap ≠ []

def lexemes (offset : Nat) : List Word → List Lexeme
  | [] => []
  | w :: ws => ⟨w.token, offset + w.chars.length⟩ :: lexemes (offset + w.written.length) ws

end Word

/-- A text as words with gaps around them. -/
structure Layout where
  lead : List Char
  isGap : IsGap lead
  words : List Word
  apart : words.IsChain Word.Apart

namespace Layout

def text (l : Layout) : String := String.ofList (l.lead ++ l.words.flatMap Word.written)

def tokens (l : Layout) : List Token := l.words.map Word.token

end Layout

open Token (EndsNumeral)
open Lexeme (scan mark)

theorem isGap_iff {c : Char} : Lexeme.isGap c ↔ c = ' ' ∨ c = '\t' := by
  simp [Lexeme.isGap]

theorem IsGap.all_isGap {cs : List Char} (h : IsGap cs) : ∀ c ∈ cs, Lexeme.isGap c :=
  fun c mem => isGap_iff.2 (h c mem)

theorem IsGap.endsNumeral {gap : List Char} (h : IsGap gap) : EndsNumeral gap :=
  fun c first digit => Token.not_isGap_of_isDigit digit (h.all_isGap c (List.mem_of_head? first))

theorem spells_mark {c : Char} (noGap : ¬Lexeme.isGap c) (noDigit : ¬c.isDigit) :
    Spells [c] (mark c) := by
  unfold mark
  split
  · next same => exact same ▸ .leftParen
  split
  · next same => exact same ▸ .rightParen
  · next noLeft noRight =>
    exact .operator noDigit ⟨noLeft, noRight⟩ (not_or.1 (mt isGap_iff.2 noGap))

namespace Spells

variable {chars : List Char} {token : Token}

theorem scan_append (h : Spells chars token) {rest : List Char}
    (ends : token.number?.isSome → EndsNumeral rest) (offset : Nat) :
    scan offset (chars ++ rest) =
      ⟨token, offset + chars.length⟩ :: scan (offset + chars.length) rest := by
  cases h with
  | number ne all =>
    rw [← Decimal.ofDigits_eq_placeValue]
    exact Token.scan_digits ne all (ends rfl) offset
  | leftParen | rightParen => exact Token.scan_mark (by decide) (by decide) offset rest
  | @operator c noDigit noParen noGap =>
    have own : mark c = .operator c.toString := by
      rw [mark, if_neg noParen.1, if_neg noParen.2]
    rw [← own]
    exact Token.scan_mark (mt isGap_iff.1 (not_or.2 noGap)) noDigit offset rest

theorem endsNumeral_append_iff (h : Spells chars token) (rest : List Char) :
    EndsNumeral (chars ++ rest) ↔ ¬token.number?.isSome := by
  cases h with
  | number ne all =>
    obtain ⟨d, ds, rfl⟩ := List.exists_cons_of_ne_nil ne
    exact iff_of_false (fun ends => ends d rfl (all d List.mem_cons_self)) (fun none => none rfl)
  | leftParen | rightParen => exact iff_of_true (Token.endsNumeral_cons (by decide) rest) nofun
  | operator noDigit => exact iff_of_true (Token.endsNumeral_cons noDigit rest) nofun

end Spells

namespace Word

/-- Words that are apart may stand behind a numeral and its gap, if the gap is not empty or the
first of them is no numeral. -/
theorem endsNumeral_iff {gap : List Char} (isGap : IsGap gap) (words : List Word) :
    EndsNumeral (gap ++ words.flatMap written) ↔
      ∀ w ∈ words.head?, w.token.number?.isSome → gap ≠ [] := by
  cases gap with
  | cons c gap => exact iff_of_true (Token.endsNumeral_append isGap.endsNumeral nofun) (by simp)
  | nil =>
    cases words with
    | nil => exact iff_of_true Token.endsNumeral_nil nofun
    | cons w words =>
      rw [List.nil_append, List.flatMap_cons, written, List.append_assoc,
        w.spells.endsNumeral_append_iff]
      simp

theorem scan_words {words : List Word} (apart : words.IsChain Apart) (offset : Nat) :
    scan offset (words.flatMap written) = lexemes offset words := by
  induction words generalizing offset with
  | nil => exact Lexeme.scan_nil offset
  | cons w ws ih =>
    have ends (number : w.token.number?.isSome) : EndsNumeral (w.gap ++ ws.flatMap written) :=
      (endsNumeral_iff w.isGap ws).2 fun w' first => apart.rel_head? first number
    rw [List.flatMap_cons, written, List.append_assoc, w.spells.scan_append ends,
      Lexeme.scan_gaps w.isGap.all_isGap, ih apart.tail, lexemes, written, List.length_append,
      Nat.add_assoc]

theorem map_token_lexemes (offset : Nat) (words : List Word) :
    (lexemes offset words).map Lexeme.token = words.map token := by
  induction words generalizing offset with
  | nil => rfl
  | cons w ws ih => exact congrArg (w.token :: ·) (ih _)

theorem getElem?_lexemes (offset : Nat) (before : List Word) (w : Word) (after : List Word) :
    (lexemes offset (before ++ w :: after))[before.length]? =
      some ⟨w.token, offset + (before.flatMap written ++ w.chars).length⟩ := by
  induction before generalizing offset with
  | nil => rfl
  | cons w' before ih =>
    rw [List.cons_append, lexemes, List.length_cons, List.getElem?_cons_succ, ih, List.flatMap_cons,
      List.append_assoc, @List.length_append _ w'.written, Nat.add_assoc]

end Word

namespace Layout

theorem ofText_text (l : Layout) :
    Lexeme.ofText l.text = Word.lexemes l.lead.length l.words := by
  rw [Lexeme.ofText, text, String.toList_ofList, Lexeme.scan_gaps l.isGap.all_isGap, Nat.zero_add,
    Word.scan_words l.apart]

theorem exists_words (cs : List Char) :
    ∃ (lead : List Char) (words : List Word), IsGap lead ∧ words.IsChain Word.Apart ∧
      cs = lead ++ words.flatMap Word.written := by
  suffices ∀ offset : Nat, _ from this 0
  intro offset
  fun_induction scan offset cs with
  | case1 => exact ⟨[], [], List.forall_mem_nil _, .nil, rfl⟩
  | case2 offset c rest gap ih =>
    obtain ⟨lead, words, isGap, apart, rfl⟩ := ih
    exact ⟨c :: lead, words, List.forall_mem_cons.2 ⟨isGap_iff.1 gap, isGap⟩, apart, rfl⟩
  | case3 offset c rest _ digit run _ ih =>
    obtain ⟨gap, words, isGap, apart, cut⟩ := ih
    have all := Token.isDigit_of_mem_run digit rest
    have ends := Token.endsNumeral_dropWhile rest
    rw [cut, Word.endsNumeral_iff isGap] at ends
    refine ⟨[], ⟨c :: run, _, .number (List.cons_ne_nil c run) all, gap, isGap⟩ :: words,
      List.forall_mem_nil _, apart.cons fun w first _ => ends w first, ?_⟩
    rw [List.nil_append, List.flatMap_cons, Word.written, List.append_assoc, ← cut,
      List.cons_append, List.takeWhile_append_dropWhile]
  | case4 offset c rest gap digit ih =>
    obtain ⟨gap, words, isGap, apart, rfl⟩ := ih
    have spells := spells_mark ‹_› digit
    have noNumber : ¬(mark c).number?.isSome :=
      (spells.endsNumeral_append_iff []).1 (Token.endsNumeral_cons digit [])
    exact ⟨[], ⟨[c], _, spells, gap, isGap⟩ :: words, List.forall_mem_nil _,
      apart.cons fun _ _ number => absurd number noNumber, rfl⟩

theorem exists_layout (text : String) : ∃ l : Layout, l.text = text := by
  obtain ⟨lead, words, isGap, apart, cut⟩ := exists_words text.toList
  refine ⟨⟨lead, isGap, words, apart⟩, ?_⟩
  rw [Layout.text, ← cut, String.ofList_toList]

end Layout

theorem pairwise_stop_scan (offset : Nat) (cs : List Char) :
    (scan offset cs).Pairwise fun l l' => l.stop < l'.stop := by
  fun_induction scan offset cs with
  | case1 => exact .nil
  | case2 _ _ _ _ ih => exact ih
  | case3 offset c rest _ _ run stop ih => exact .cons (fun _ => Lexeme.lt_stop_of_mem_scan) ih
  | case4 offset c rest _ _ ih => exact .cons (fun _ => Lexeme.lt_stop_of_mem_scan) ih

namespace TokenStream

/-- The tokens of a text are those of the words as which it can be written, and of no others. While
a token is current the stream stands behind its word, further on for each token, and in the end it
stands behind the whole text. -/
theorem entries_of_layout (text : String) :
    (∃ l : Layout, l.text = text) ∧
    (∀ ts, (entries text).map Prod.fst = ts ++ [.endOfInput] ↔
      ∃ l : Layout, l.text = text ∧ l.tokens = ts) ∧
    (∀ l : Layout, l.text = text → ∀ before w after, l.words = before ++ w :: after →
      (entries text)[before.length]? =
        some (w.token, (l.lead ++ before.flatMap Word.written ++ w.chars).length)) ∧
    ((entries text).dropLast.map Prod.snd).Pairwise (· < ·) ∧
    (entries text).getLast? = some (.endOfInput, text.length) := by
  have tokens (l : Layout) (h : l.text = text) :
      (entries text).map Prod.fst = l.tokens ++ [.endOfInput] := by
    rw [entries_eq, ← h, l.ofText_text, List.map_append, List.map_map]
    exact congrArg (· ++ [Token.endOfInput]) (Word.map_token_lexemes l.lead.length l.words)
  refine ⟨Layout.exists_layout text, fun ts => ⟨fun drained => ?_, ?_⟩, ?_, ?_, ?_⟩
  · obtain ⟨l, same⟩ := Layout.exists_layout text
    exact ⟨l, same, List.append_cancel_right ((tokens l same).symm.trans drained)⟩
  · rintro ⟨l, same, rfl⟩
    exact tokens l same
  · rintro l rfl before w after cut
    have word := Word.getElem?_lexemes l.lead.length before w after
    rw [← cut, ← l.ofText_text] at word
    have inside := (List.getElem?_eq_some_iff.1 word).1
    rw [entries_eq, List.getElem?_append_left (by rwa [List.length_map]), List.getElem?_map, word,
      List.append_assoc, @List.length_append _ l.lead]
    rfl
  · rw [entries_eq, List.dropLast_concat, List.map_map, List.pairwise_map]
    exact pairwise_stop_scan 0 text.toList
  · rw [entries_eq, List.getLast?_concat]

def paddedSum : Layout where
  lead := ['\t']
  isGap := by simp [IsGap]
  words := [
    ⟨['0', '1', '2'], _, .number (by simp) (by simp), [], by simp [IsGap]⟩,
    ⟨['+'], _, .operator (by decide) (by decide) (by decide), [], by simp [IsGap]⟩,
    ⟨['3'], _, .number (by simp) (by simp), [' '], by simp [IsGap]⟩]
  apart := by simp [Word.Apart, Token.number?]

theorem entries_paddedSum :
    paddedSum.text = "\t012+3 " ∧
      (entries "\t012+3 ").map Prod.fst =
        [.number 12, .operator "+", .number 3, .endOfInput] ∧
      (entries "\t012+3 ")[2]? = some (.number 3, 6) := by
  have text : paddedSum.text = "\t012+3 " := by decide
  obtain ⟨_, drained, entry, _⟩ := entries_of_layout "\t012+3 "
  exact ⟨text, (drained _).2 ⟨paddedSum, text, rfl⟩,
    entry paddedSum text (paddedSum.words.take 2) _ [] rfl⟩

end TokenStream

end LineCalc
