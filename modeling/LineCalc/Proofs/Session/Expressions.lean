import LineCalc.Proofs.Session.Replies
import LineCalc.Proofs.Session.Requests
import LineCalc.Proofs.Token.Gaps

/-! A line that can be read is answered as an expression. A session strips far more characters than
the lexer skips, and it looks for commands first; but no character of such a line is blank unless it
is a gap, and none begins a command. So the reply depends on the tokens of the line alone. -/
namespace LineCalc

theorem PrefixOp.isPlain_symbol (op : PrefixOp) : ∀ c ∈ op.symbol.toList, Text.IsPlain c := by
  cases op <;> exact List.forall_mem_singleton.2 (by decide)

theorem InfixOp.isPlain_symbol (op : InfixOp) : ∀ c ∈ op.symbol.toList, Text.IsPlain c := by
  cases op <;> exact List.forall_mem_singleton.2 (by decide)

theorem PostfixOp.isPlain_symbol (op : PostfixOp) : ∀ c ∈ op.symbol.toList, Text.IsPlain c := by
  cases op
  exact List.forall_mem_singleton.2 (by decide)

theorem Derives.isPlain (h : Derives p ts t) :
    ∀ text, .operator text ∈ ts → ∀ c ∈ text.toList, Text.IsPlain c := by
  induction h with
  | tighter _ _ ih => exact ih
  | @infixed _ op _ _ _ _ _ _ mem _ _ _ ihl ihr =>
    intro text found
    rcases List.mem_append.1 found with found | found
    · exact ihl text found
    rcases List.mem_cons.1 found with same | found
    · cases same
      rw [(Phrase.of_mem_infixOps mem).1]
      exact op.isPlain_symbol
    · exact ihr text found
  | @prefixed _ op _ _ mem _ ih =>
    intro text found
    rcases List.mem_cons.1 found with same | found
    · cases same.trans (PrefixOp.ofToken_eq_some_iff.1 (Phrase.ofToken_of_mem_prefixOps mem))
      exact op.isPlain_symbol
    · exact ih text found
  | @postfixed _ op _ _ mem _ ih =>
    intro text found
    rcases List.mem_append.1 found with found | found
    · exact ih text found
    · have same := List.mem_singleton.1 found
      cases same.trans (PostfixOp.ofToken_eq_some_iff.1 (Phrase.ofToken_of_mem_postfixOps mem))
      exact op.isPlain_symbol
  | number n => simp
  | group _ ih =>
    intro text found
    exact ih text (by simpa using found)

namespace Token

open Lexeme (isGap mark)

theorem mark_mem_ofChars {c : Char} {cs : List Char} (mem : c ∈ cs) (noGap : ¬isGap c)
    (noDigit : ¬c.isDigit) : mark c ∈ ofChars cs := by
  obtain ⟨front, back, rfl⟩ := List.append_of_mem mem
  rw [ofChars_append (endsNumeral_cons noDigit back), ofChars_mark noGap noDigit]
  exact List.mem_append_right _ List.mem_cons_self

theorem endsNumeral_of_blank {cs : List Char} (h : ∀ c ∈ cs, Text.isBlank c) : EndsNumeral cs :=
  fun c first digit => Text.not_isBlank_of_isDigit digit (h c (List.mem_of_head? first))

/-- No token lies across the seams where a text is stripped. -/
theorem exists_ofChars_around_strip (cs : List Char) :
    ∃ lead trail, (∀ c ∈ lead, c ∈ cs ∧ Text.isBlank c) ∧ (∀ c ∈ trail, c ∈ cs ∧ Text.isBlank c) ∧
      ofChars cs = ofChars lead ++ ofChars (Text.strip cs) ++ ofChars trail := by
  obtain ⟨lead, trail, cut, _, leads, trails⟩ := Text.exists_around_strip cs
  have begins : EndsNumeral lead.reverse :=
    endsNumeral_of_blank fun c mem => leads c (List.mem_reverse.1 mem)
  refine ⟨lead, trail, fun c mem => ⟨?_, leads c mem⟩, fun c mem => ⟨?_, trails c mem⟩, ?_⟩
  · rw [cut]
    simp [mem]
  · rw [cut]
    simp [mem]
  · calc ofChars cs
        = ofChars (lead ++ Text.strip cs ++ trail) := by rw [← cut]
      _ = ofChars (lead ++ Text.strip cs) ++ ofChars trail :=
        ofChars_append (endsNumeral_of_blank trails) _
      _ = ofChars lead ++ ofChars (Text.strip cs) ++ ofChars trail := by
        rw [ofChars_append_left begins]

theorem mem_ofText_of_mem_stripped {t : Token} {text : String}
    (h : t ∈ ofText (Text.stripped text)) : t ∈ ofText text := by
  obtain ⟨lead, trail, _, _, tokens⟩ := exists_ofChars_around_strip text.toList
  rw [ofText_eq_ofChars, Text.stripped, String.toList_ofList] at h
  rw [ofText_eq_ofChars, tokens]
  exact List.mem_append_left _ (List.mem_append_right _ h)

theorem ofChars_strip {cs : List Char} (gaps : ∀ c ∈ cs, Text.isBlank c → isGap c) :
    ofChars (Text.strip cs) = ofChars cs := by
  obtain ⟨lead, trail, leads, trails, tokens⟩ := exists_ofChars_around_strip cs
  have none : ∀ side, (∀ c ∈ side, c ∈ cs ∧ Text.isBlank c) → ofChars side = [] := by
    intro side blanks
    rw [← List.append_nil side, ofChars_gaps fun c mem => gaps c (blanks c mem).1 (blanks c mem).2,
      ofChars_nil]
  rw [tokens, none lead leads, none trail trails, List.nil_append, List.append_nil]

theorem isBlank_of_isGap {c : Char} (h : isGap c) : Text.isBlank c := by
  simp only [isGap, Bool.or_eq_true, decide_eq_true_eq] at h
  rcases h with rfl | rfl <;> decide

end Token

open Lexeme (isGap)

section Reading

variable {frames : Parser.Frames} {line : String} {t : Tree}

theorem isGap_or_isPlain (h : parseWithin frames line = .ok t) :
    ∀ c ∈ line.toList, isGap c ∨ Text.IsPlain c := by
  intro c mem
  by_cases gap : isGap c
  · exact .inl gap
  by_cases digit : c.isDigit
  · exact .inr (Text.isPlain_of_isDigit digit)
  have token := Token.mark_mem_ofChars mem gap digit
  unfold Lexeme.mark at token
  split at token
  · next same => exact .inr (same ▸ by decide)
  split at token
  · next same => exact .inr (same ▸ by decide)
  · exact .inr ((derives_of_parseWithin h).isPlain _ token c (by simp))

theorem exists_expression_of_parseWithin (h : parseWithin frames line = .ok t) :
    ∃ text, Request.ofLine line = .expression text ∧ Token.ofText text = Token.ofText line := by
  have chars := isGap_or_isPlain h
  refine ⟨String.ofList (Text.strip line.toList), ?_, ?_⟩
  · rw [Request.ofLine]
    cases stripped : Text.strip line.toList with
    | nil => rfl
    | cons c rest =>
      obtain ⟨lead, trail, cut, _⟩ := Text.exists_around_strip line.toList
      have mem : c ∈ line.toList := by rw [cut, stripped]; simp
      have noGap : ¬isGap c := mt Token.isBlank_of_isGap (Text.not_isBlank_of_strip stripped)
      exact Request.ofText_plain ((chars c mem).resolve_left noGap) rest
  · rw [Token.ofText_eq_ofChars, Token.ofText_eq_ofChars, String.toList_ofList]
    exact Token.ofChars_strip fun c mem blank => (chars c mem).resolve_right fun h => h.1 blank

end Reading

namespace Session

theorem reply_reject (text text' : String) (fault : Fault) :
    (reject text fault).reply = (reject text' fault).reply := by
  unfold reject
  split <;> rfl

theorem reply_of_parse_eq {frames frames' : Parser.Frames} {text text' : String}
    (h : parseWithin frames text = parseWithin frames' text') (withTree : Bool) :
    (evaluateExpression frames withTree text).reply =
      (evaluateExpression frames' withTree text').reply := by
  rw [evaluateExpression, evaluateExpression, h]
  cases parseWithin frames' text' with
  | error fault => exact reply_reject text text' fault
  | ok t =>
    dsimp only
    cases t.evaluate with
    | error fault => exact reply_reject text text' fault
    | ok value => rfl

theorem reply_of_readable {within : Parser.Frames} {line : String} {t : Tree}
    (h : parseWithin within line = .ok t) (frames : Parser.Frames) (settings : Settings) :
    (evaluateLine frames settings line).reply =
      (evaluateExpression frames settings.showTree line).reply := by
  obtain ⟨text, request, tokens⟩ := exists_expression_of_parseWithin h
  have same : parseWithin frames text = parseWithin frames line := by
    rw [parseWithin, parseWithin, tokens]
  rw [evaluateLine, request]
  exact reply_of_parse_eq same settings.showTree

/-- Gaps matter between two digits only. Texts that differ in other gaps are read as the same tree
or are refused with the same report, and they have the same value or fault; and a session replies
the same to both if one of them can be read. -/
theorem evaluateLine_respaced {s t : String} (h : Token.Respaced s t) :
    (∀ frames, parseWithin frames s = parseWithin frames t) ∧
      (∀ frames, calculateWithin frames s = calculateWithin frames t) ∧
        ∀ within tree, parseWithin within s = .ok tree → ∀ frames settings,
          (evaluateLine frames settings s).reply = (evaluateLine frames settings t).reply := by
  have read := parseWithin_respaced h
  refine ⟨read, fun frames => ?_, fun within tree ok frames settings => ?_⟩
  · rw [calculateWithin, calculateWithin, read frames]
  · have ok' : parseWithin within t = .ok tree := (read within).symm.trans ok
    rw [reply_of_readable ok, reply_of_readable ok']
    exact reply_of_parse_eq (read frames) settings.showTree

theorem respaced_signs : Token.Respaced "12 - -5" "12 --\t 5" := by
  have goes : Token.Regap ("12 -".toList ++ [' '] ++ "-5".toList)
      ("12 -".toList ++ [] ++ "-5".toList) :=
    .exchange (by simp [isGap]) nofun (by simp)
  have comes : Token.Regap ("12 --".toList ++ [] ++ "5".toList)
      ("12 --".toList ++ ['\t', ' '] ++ "5".toList) :=
    .exchange nofun (by simp [isGap]) (by simp)
  exact .tail (.single goes) comes

theorem reply_respaced_signs :
    Token.Respaced "12 - -5" "12 --\t 5" ∧
      parseWithin (.atMost 20) "12 - -5" =
        .ok (.infixed (.number 12) .subtract (.prefixed .negative (.number 5))) ∧
      (evaluateLine (.atMost 20) ⟨"> ", "", .warning, true, true⟩ "12 - -5").reply =
        (evaluateLine (.atMost 20) ⟨"> ", "", .warning, true, true⟩ "12 --\t 5").reply := by
  have tokens : Token.ofText "12 - -5" =
      [.number 12, .operator "-", .operator "-", .number 5] := by decide +kernel
  have read : parseWithin (.atMost 20) "12 - -5" =
      .ok (.infixed (.number 12) .subtract (.prefixed .negative (.number 5))) := by
    rw [parseWithin, tokens]
    cbv
  exact ⟨respaced_signs, read, (evaluateLine_respaced respaced_signs).2.2 _ _ read _ _⟩

end Session

end LineCalc
