import LineCalc.Text.Basic

/-! Lines that are put together to one text, and found in it again. Only an empty last line is
lost where no break is put behind it. -/
namespace LineCalc.Text

def IsOneLine (line : String) : Prop := ∀ c ∈ line.toList, ¬isBreak c

theorem linesFrom_cons {c : Char} (h : ¬isBreak c) (current rest : List Char) :
    linesFrom current (c :: rest) = linesFrom (c :: current) rest := by
  have noReturn : c ≠ '\r' := by
    rintro rfl
    exact h (by decide)
  rw [linesFrom]
  · exact if_neg h
  · intro _ isReturn
    exact absurd isReturn noReturn

theorem linesFrom_append {cs : List Char} (h : ∀ c ∈ cs, ¬isBreak c) (current rest : List Char) :
    linesFrom current (cs ++ rest) = linesFrom (cs.reverse ++ current) rest := by
  induction cs generalizing current with
  | nil => rfl
  | cons c cs ih =>
    obtain ⟨plain, others⟩ := List.forall_mem_cons.1 h
    rw [List.cons_append, linesFrom_cons plain, ih others, List.reverse_cons, List.append_assoc,
      List.singleton_append]

theorem linesFrom_lineFeed (current rest : List Char) :
    linesFrom current ('\n' :: rest) = current.reverse :: linesFrom [] rest := by
  rw [linesFrom]
  · exact if_pos (by decide)
  · intro _ isReturn
    cases isReturn

theorem lines_append {line : String} (h : IsOneLine line) (rest : String) :
    lines (line ++ "\n" ++ rest) = line :: lines rest := by
  have chars : (line ++ "\n" ++ rest).toList = line.toList ++ '\n' :: rest.toList := by simp
  rw [lines, lines, chars, linesFrom_append h, linesFrom_lineFeed, List.map_cons, List.append_nil,
    List.reverse_reverse, String.ofList_toList]

theorem lines_of_isOneLine {line : String} (h : IsOneLine line) :
    lines line = if line = "" then [] else [line] := by
  have read := linesFrom_append h [] []
  rw [List.append_nil, List.append_nil] at read
  rw [lines, read, linesFrom]
  split
  · next empty =>
    rw [if_pos (by simpa using empty)]
    rfl
  · next some =>
    rw [if_neg (by simpa using some)]
    simp

/-- Every line with a break behind it. -/
theorem lines_join {lines : List String} (h : ∀ line ∈ lines, IsOneLine line) :
    Text.lines (String.join (lines.map (· ++ "\n"))) = lines := by
  induction lines with
  | nil => rfl
  | cons line rest ih =>
    obtain ⟨one, others⟩ := List.forall_mem_cons.1 h
    rw [List.map_cons, String.join_cons, lines_append one, ih others]

theorem lines_intercalate {lines : List String} (h : ∀ line ∈ lines, IsOneLine line) :
    Text.lines ("\n".intercalate lines) = lines ∨
      Text.lines ("\n".intercalate lines) ++ [""] = lines := by
  induction lines with
  | nil => exact .inl rfl
  | cons line rest ih =>
    obtain ⟨one, others⟩ := List.forall_mem_cons.1 h
    cases rest with
    | nil =>
      rw [String.intercalate_singleton, lines_of_isOneLine one]
      split
      · next empty => exact .inr (by rw [empty]; rfl)
      · exact .inl rfl
    | cons next rest =>
      rw [String.intercalate_cons_cons, lines_append one]
      exact (ih others).imp (congrArg (line :: ·)) (congrArg (line :: ·))

end LineCalc.Text
