import LineCalc.Decimal
import LineCalc.Proofs.Text.Strip
import LineCalc.Request

/-! What a line asks for, read off its first word. The bare word `help` is looked for before the
colon, and no word that begins with a colon or a digit is taken for it. -/
namespace LineCalc

namespace Text

theorem lower_ne_help {c : Char} (h : c.toLower ≠ 'h') (cs : List Char) :
    lower (String.ofList (c :: cs)) ≠ "help" := by
  intro eq
  have chars := congrArg String.toList eq
  rw [lower, String.toList_map, String.toList_ofList, List.map_cons] at chars
  exact h (List.cons.inj chars).1

theorem not_isBlank_of_isDigit {c : Char} (h : c.isDigit) : ¬isBlank c := by
  obtain ⟨low, high⟩ := Char.isDigit_iff_toNat.1 h
  change 48 ≤ c.toNat at low
  change c.toNat ≤ 57 at high
  intro blank
  simp only [isBlank, blanks, CodePoints.contains, Bool.and_eq_true, Bool.or_eq_true,
    decide_eq_true_eq] at blank
  omega

theorem toLower_of_isDigit {c : Char} (h : c.isDigit) : c.toLower = c := by
  have high : c.toNat ≤ 57 := (Char.isDigit_iff_toNat.1 h).2
  refine dif_neg fun upper => ?_
  have letter : 65 ≤ c.toNat := UInt32.le_iff_toNat_le.1 upper.1
  omega

def IsPlain (c : Char) : Prop := ¬isBlank c ∧ c ≠ ':' ∧ c.toLower ≠ 'h'

instance (c : Char) : Decidable (IsPlain c) :=
  inferInstanceAs (Decidable (¬isBlank c ∧ c ≠ ':' ∧ c.toLower ≠ 'h'))

theorem isPlain_of_isDigit {c : Char} (h : c.isDigit) : IsPlain c := by
  refine ⟨not_isBlank_of_isDigit h, ?_, ?_⟩
  · rintro rfl
    contradiction
  · rw [toLower_of_isDigit h]
    rintro rfl
    contradiction

end Text

namespace Request

/-- Without the blanks around it the line is a colon and text behind it, whose first word is
`exit` or `quit` in any case. -/
def IsExit (line : String) : Prop :=
  ∃ body word rest, Text.strip line.toList = ':' :: body ∧
    Text.firstWord body = some (word, rest) ∧
      Text.lower (String.ofList word) ∈ ["exit", "quit"]

theorem ofCommand_eq_leave_iff {word rest : String} :
    ofCommand word rest = leave ↔ Text.lower word ∈ ["exit", "quit"] := by
  unfold ofCommand
  split <;> simp_all

theorem ofColon_eq_leave_iff {body : List Char} :
    ofColon body = leave ↔ ∃ word rest, Text.firstWord body = some (word, rest) ∧
      Text.lower (String.ofList word) ∈ ["exit", "quit"] := by
  rw [ofColon]
  cases Text.firstWord body with
  | none => simp
  | some found =>
    obtain ⟨word, rest⟩ := found
    simp [ofCommand_eq_leave_iff]

theorem ofText_colon (body : List Char) : ofText (':' :: body) = ofColon body := by
  rw [ofText, Text.firstWord_cons (by decide) body]
  exact if_neg (Text.lower_ne_help (by decide) _)

theorem ofText_no_colon {c : Char} (h : c ≠ ':') (cs : List Char) :
    ofText (c :: cs) ≠ leave := by
  unfold ofText
  split
  · nofun
  · split
    · nofun
    · split
      · next eq => exact absurd (List.cons.inj eq).1 h
      · nofun

theorem ofLine_eq_leave_iff {line : String} : ofLine line = leave ↔ IsExit line := by
  rw [ofLine, IsExit]
  match Text.strip line.toList with
  | [] => simp [ofText, Text.firstWord]
  | c :: cs =>
    by_cases colon : c = ':'
    · subst colon
      rw [ofText_colon, ofColon_eq_leave_iff]
      constructor
      · rintro ⟨word, rest, first, leaves⟩
        exact ⟨cs, word, rest, rfl, first, leaves⟩
      · rintro ⟨body, word, rest, same, first, leaves⟩
        cases same
        exact ⟨word, rest, first, leaves⟩
    · refine iff_of_false (ofText_no_colon colon cs) ?_
      rintro ⟨body, _, _, same, _⟩
      exact colon (List.cons.inj same).1

theorem ofText_expression {c : Char} {cs : List Char} (blank : ¬Text.isBlank c) (colon : c ≠ ':')
    (bare : Text.lower (String.ofList (c :: cs.takeWhile (!Text.isBlank ·))) ≠ "help") :
    ofText (c :: cs) = expression (String.ofList (c :: cs)) := by
  unfold ofText
  rw [Text.firstWord_cons blank cs]
  simp only [bare, if_false]
  split
  · next eq => exact absurd (List.cons.inj eq).1 colon
  · rfl

theorem ofText_plain {c : Char} (h : Text.IsPlain c) (cs : List Char) :
    ofText (c :: cs) = expression (String.ofList (c :: cs)) :=
  ofText_expression h.1 h.2.1 (Text.lower_ne_help h.2.2 _)

theorem ofText_digits {digits : List Char} (ne : digits ≠ []) (all : ∀ c ∈ digits, c.isDigit) :
    ofText digits = expression (String.ofList digits) := by
  match digits with
  | d :: ds => exact ofText_plain (Text.isPlain_of_isDigit (all d List.mem_cons_self)) ds

theorem ofLine_natural (n : Nat) : ofLine n.repr = expression n.repr := by
  have all : ∀ c ∈ Nat.toDigits 10 n, c.isDigit := fun _ => Decimal.isDigit_of_mem_toDigits
  have noBlank : ∀ c ∈ Nat.toDigits 10 n, ¬Text.isBlank c := fun c h =>
    Text.not_isBlank_of_isDigit (all c h)
  rw [ofLine, Nat.repr, String.toList_ofList, Text.strip_of_no_blank noBlank,
    ofText_digits (Decimal.toDigits_ne_nil n) all]

/-- Without the blanks around it the line begins with a colon, or its first word is `help` in any
case. -/
def IsCommand (line : String) : Prop :=
  (∃ body, Text.strip line.toList = ':' :: body) ∨
    ∃ word rest, Text.firstWord (Text.strip line.toList) = some (word, rest) ∧
      Text.lower (String.ofList word) = "help"

theorem ofCommand_ne_expression (word rest text : String) :
    ofCommand word rest ≠ expression text := by
  unfold ofCommand
  split <;> nofun

theorem ofColon_ne_expression (body : List Char) (text : String) :
    ofColon body ≠ expression text := by
  unfold ofColon
  split
  · nofun
  · exact ofCommand_ne_expression _ _ text

/-- A line that is no command is an expression, as it stands without the blanks around it. -/
theorem ofLine_eq_expression_iff {line text : String} :
    ofLine line = expression text ↔ ¬IsCommand line ∧ text = Text.stripped line := by
  rw [ofLine, IsCommand, Text.stripped]
  cases stripped : Text.strip line.toList with
  | nil =>
    have none : ¬((∃ body, ([] : List Char) = ':' :: body) ∨ ∃ word rest,
        Text.firstWord [] = some (word, rest) ∧ Text.lower (String.ofList word) = "help") := by
      simp [Text.firstWord]
    rw [show ofText [] = expression "" from rfl, expression.injEq, eq_comm]
    exact (and_iff_right none).symm
  | cons c cs =>
    have blank := Text.not_isBlank_of_strip stripped
    have word := Text.firstWord_cons blank cs
    by_cases colon : c = ':'
    · subst colon
      rw [ofText_colon]
      exact iff_of_false (ofColon_ne_expression cs text) fun h => h.1 (.inl ⟨cs, rfl⟩)
    by_cases bare : Text.lower (String.ofList (c :: cs.takeWhile (!Text.isBlank ·))) = "help"
    · refine iff_of_false ?_ fun h => h.1 (.inr ⟨_, _, word, bare⟩)
      unfold ofText
      rw [word]
      simp only [bare, if_true]
      rintro ⟨⟩
    · rw [ofText_expression blank colon bare, expression.injEq, eq_comm]
      refine (and_iff_right ?_).symm
      rintro (⟨body, same⟩ | ⟨_, _, same, help⟩)
      · exact colon (List.cons.inj same).1
      · cases word.symm.trans same
        exact bare help

theorem ofCommand_tree {word : String} (h : Text.lower word = "tree") (rest : String) :
    ofCommand word rest = tree (Text.stripped rest) := by
  unfold ofCommand
  rw [h]
  rfl

theorem ofLine_tree {gap text : String} (apart : gap ≠ "")
    (blank : ∀ c ∈ gap.toList, Text.isBlank c) (full : ∃ c ∈ text.toList, ¬Text.isBlank c) :
    ofLine (":tree" ++ gap ++ text) = tree (Text.stripped text) := by
  have ne : Text.strip text.toList ≠ [] := by
    obtain ⟨c, mem, solid⟩ := full
    exact fun none => solid (Text.strip_eq_nil_iff.1 none c mem)
  have front : ∀ c ∈ (":tree".toList ++ gap.toList).head?, ¬Text.isBlank c := by
    rintro _ ⟨⟩
    decide
  obtain ⟨lead, leads, whole⟩ := Text.exists_strip_append (by simp) front ne
  have wide : gap.toList ++ lead ≠ [] := fun none =>
    apart (String.toList_eq_nil_iff.1 (List.append_eq_nil_iff.1 none).1)
  have blanks : ∀ c ∈ gap.toList ++ lead, Text.isBlank c := List.forall_mem_append.2 ⟨blank, leads⟩
  have solid : ∀ c ∈ "tree".toList, ¬Text.isBlank c := by
    have letters : "tree".toList.all (!Text.isBlank ·) := by decide
    simpa using letters
  have word : Text.firstWord ("tree".toList ++ (gap.toList ++ lead) ++ Text.strip text.toList) =
      some ("tree".toList, Text.strip text.toList) :=
    Text.firstWord_append (by simp) solid wide blanks (Text.not_isBlank_head_strip _)
  have command : (":tree" ++ gap ++ text).toList = ":tree".toList ++ gap.toList ++ text.toList := by
    simp
  have body : ":tree".toList ++ gap.toList ++ lead ++ Text.strip text.toList =
      ':' :: ("tree".toList ++ (gap.toList ++ lead) ++ Text.strip text.toList) := by
    simp
  rw [ofLine, command, whole, body, ofText_colon, ofColon, word]
  refine (ofCommand_tree (by decide +kernel) _).trans ?_
  rw [Text.stripped, String.toList_ofList, Text.strip_strip, Text.stripped]

end Request

end LineCalc
