import LineCalc.Token

/-! Lexing never fails: every character that is not a digit, a parenthesis or a gap is
an operator token of its own, and whether it means anything is for the parser to say.
Each token is kept with its stop, the offset just after its last character, because
that is where a cursor stands while the token is current. -/
namespace LineCalc

structure Lexeme where
  token : Token
  stop : Nat
  deriving DecidableEq, Repr

namespace Lexeme

/-- Only spaces and tabs separate tokens; a line break is an operator token. -/
def isGap (c : Char) : Bool := c = ' ' || c = '\t'

def mark (c : Char) : Token :=
  if c = '(' then .leftParen else if c = ')' then .rightParen else .operator c.toString

def scan (offset : Nat) : List Char → List Lexeme
  | [] => []
  | c :: rest =>
    if isGap c then scan (offset + 1) rest
    else if c.isDigit then
      let run := rest.takeWhile Char.isDigit
      let stop := offset + 1 + run.length
      ⟨.number (Decimal.ofDigits (c :: run)), stop⟩ :: scan stop (rest.dropWhile Char.isDigit)
    else ⟨mark c, offset + 1⟩ :: scan (offset + 1) rest
termination_by cs => cs.length
decreasing_by
  · simp
  · have := (List.dropWhile_sublist (l := rest) Char.isDigit).length_le
    simp only [List.length_cons]; omega
  · simp

theorem scan_nil (offset : Nat) : scan offset [] = [] := by rw [scan]

theorem scan_gap {c : Char} (h : isGap c) (offset : Nat) (rest : List Char) :
    scan offset (c :: rest) = scan (offset + 1) rest := by
  rw [scan, if_pos h]

theorem scan_gaps {gaps : List Char} (h : ∀ c ∈ gaps, isGap c) (offset : Nat) (rest : List Char) :
    scan offset (gaps ++ rest) = scan (offset + gaps.length) rest := by
  induction gaps generalizing offset with
  | nil => rfl
  | cons c gaps ih =>
    obtain ⟨gap, others⟩ := List.forall_mem_cons.1 h
    rw [List.cons_append, scan_gap gap, ih others, List.length_cons, Nat.add_assoc,
      Nat.add_comm 1]

theorem map_token_scan (offset offset' : Nat) (cs : List Char) :
    (scan offset cs).map token = (scan offset' cs).map token := by
  fun_induction scan offset cs generalizing offset' with
  | case1 => rw [scan_nil]
  | case2 offset c rest h ih => rw [scan, if_pos h]; exact ih _
  | case3 offset c rest h hd run stop ih =>
    rw [scan, if_neg h, if_pos hd]
    simp only [List.map_cons]
    exact congrArg _ (ih _)
  | case4 offset c rest h hd ih =>
    rw [scan, if_neg h, if_neg hd]
    simp only [List.map_cons]
    exact congrArg _ (ih _)

theorem lt_stop_of_mem_scan {offset : Nat} {cs : List Char} {l : Lexeme}
    (h : l ∈ scan offset cs) : offset < l.stop := by
  fun_induction scan offset cs with
  | case1 => cases h
  | case2 offset c rest _ ih => exact Nat.lt_of_succ_lt (ih h)
  | case3 offset c rest _ _ run stop ih =>
    rcases List.mem_cons.1 h with rfl | h
    · show offset < offset + 1 + _; omega
    · have := ih h; omega
  | case4 offset c rest _ _ ih =>
    rcases List.mem_cons.1 h with rfl | h
    · exact Nat.lt_succ_self _
    · exact Nat.lt_of_succ_lt (ih h)

def ofText (text : String) : List Lexeme := scan 0 text.toList

end Lexeme

def Token.ofText (text : String) : List Token := (Lexeme.ofText text).map Lexeme.token

end LineCalc
