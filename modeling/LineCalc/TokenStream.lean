import LineCalc.Token.Lexer

/-! A text that is read one token ahead. The state is the text, an offset that only grows, and
the one token that was read last and is not yet taken. The lexemes that are still to come are
no part of the state; that they are those of the text is a fact about it. -/
namespace LineCalc

structure TokenStream where
  text : List Char
  /-- The offset behind the current token. -/
  position : Nat
  current : Token
  deriving DecidableEq, Repr

namespace TokenStream

/-- The characters that were not looked at. -/
def ahead (s : TokenStream) : List Char := s.text.drop s.position

def advance (s : TokenStream) : TokenStream :=
  let start := s.position + (s.ahead.takeWhile Lexeme.isGap).length
  match s.ahead.dropWhile Lexeme.isGap with
  | [] => { s with position := start, current := .endOfInput }
  | c :: rest =>
    if c.isDigit then
      let run := rest.takeWhile Char.isDigit
      { s with
        position := start + 1 + run.length
        current := .number (Decimal.ofDigits (c :: run)) }
    else { s with position := start + 1, current := Lexeme.mark c }

def ofText (text : String) : TokenStream := advance ⟨text.toList, 0, .endOfInput⟩

/-- The lexemes that are still to come, the current one first. -/
def pending (s : TokenStream) : List Lexeme :=
  if s.current = .endOfInput then []
  else ⟨s.current, s.position⟩ :: Lexeme.scan s.position s.ahead

def tokens (s : TokenStream) : List Token := s.pending.map Lexeme.token

theorem mark_ne_endOfInput (c : Char) : Lexeme.mark c ≠ .endOfInput := by
  unfold Lexeme.mark
  split
  · nofun
  · split <;> nofun

theorem scan_dropWhile_isGap (offset : Nat) (cs : List Char) :
    Lexeme.scan offset cs =
      Lexeme.scan (offset + (cs.takeWhile Lexeme.isGap).length) (cs.dropWhile Lexeme.isGap) := by
  have gaps : ∀ c ∈ cs.takeWhile Lexeme.isGap, Lexeme.isGap c :=
    List.all_eq_true.1 List.all_takeWhile
  rw [← Lexeme.scan_gaps gaps, List.takeWhile_append_dropWhile]

theorem drop_of_ahead {s : TokenStream} {first rest : List Char} (h : s.ahead = first ++ rest) :
    s.text.drop (s.position + first.length) = rest := by
  rw [← List.drop_drop]
  show s.ahead.drop first.length = rest
  rw [h, List.drop_left]

theorem pending_advance (s : TokenStream) :
    s.advance.pending = Lexeme.scan s.position s.ahead := by
  have whole := (List.takeWhile_append_dropWhile (p := Lexeme.isGap) (l := s.ahead)).symm
  rw [scan_dropWhile_isGap]
  unfold advance
  cases h : s.ahead.dropWhile Lexeme.isGap with
  | nil => exact (Lexeme.scan_nil _).symm
  | cons c rest =>
    have gap : ¬Lexeme.isGap c := by
      have := List.head?_dropWhile_not Lexeme.isGap s.ahead
      rw [h] at this
      simpa using this
    rw [h] at whole
    rw [Lexeme.scan, if_neg gap]
    by_cases digit : c.isDigit
    · have run := List.takeWhile_append_dropWhile (p := Char.isDigit) (l := rest)
      have cut : s.ahead = s.ahead.takeWhile Lexeme.isGap ++ (c :: rest.takeWhile Char.isDigit) ++
          rest.dropWhile Char.isDigit := by
        rw [List.append_assoc, List.cons_append, run]
        exact whole
      have behind := drop_of_ahead cut
      have stop : s.position + (s.ahead.takeWhile Lexeme.isGap ++
          c :: rest.takeWhile Char.isDigit).length = s.position +
            (s.ahead.takeWhile Lexeme.isGap).length + 1 + (rest.takeWhile Char.isDigit).length := by
        rw [List.length_append, List.length_cons]; omega
      rw [stop] at behind
      simp only [if_pos digit]
      exact (if_neg (by simp)).trans (congrArg (_ :: Lexeme.scan _ ·) behind)
    · have cut : s.ahead = s.ahead.takeWhile Lexeme.isGap ++ [c] ++ rest := by
        rw [List.append_assoc]
        exact whole
      have behind := drop_of_ahead cut
      rw [List.length_append, ← Nat.add_assoc] at behind
      simp only [if_neg digit]
      exact (if_neg (mark_ne_endOfInput c)).trans (congrArg (_ :: Lexeme.scan _ ·) behind)

theorem pending_cons {s : TokenStream} (h : s.current ≠ .endOfInput) :
    s.pending = ⟨s.current, s.position⟩ :: s.advance.pending := by
  rw [pending, if_neg h, pending_advance]

theorem length_advance_lt {s : TokenStream} (h : s.current ≠ .endOfInput) :
    s.advance.pending.length < s.pending.length := by
  rw [pending_cons h]
  exact Nat.lt_succ_self _

end TokenStream

end LineCalc
