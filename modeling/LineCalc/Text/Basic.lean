import LineCalc.Text.CodePoints

/-! Blanks, words and lines as a session sees them. White space is a table and not the ASCII class,
because a line may be padded with any Unicode space; the lexer of expressions skips far less. -/
namespace LineCalc.Text

def blanks : CodePoints :=
  [(0x0009, 0x000D), (0x001C, 0x0020), (0x0085, 0x0085), (0x00A0, 0x00A0), (0x1680, 0x1680),
   (0x2000, 0x200A), (0x2028, 0x2029), (0x202F, 0x202F), (0x205F, 0x205F), (0x3000, 0x3000)]

def isBlank (c : Char) : Bool := blanks.contains c

def trim (drops : Char → Bool) (cs : List Char) : List Char :=
  ((cs.dropWhile drops).reverse.dropWhile drops).reverse

def strip (cs : List Char) : List Char := trim isBlank cs

theorem strip_nil : strip [] = [] := rfl

theorem dropWhile_isBlank_eq_nil_iff {cs : List Char} :
    cs.dropWhile isBlank = [] ↔ ∀ c ∈ cs, isBlank c := by
  induction cs with
  | nil => simp
  | cons c cs ih => by_cases h : isBlank c <;> simp [h, ih]

theorem strip_eq_nil_iff {cs : List Char} : strip cs = [] ↔ ∀ c ∈ cs, isBlank c := by
  rw [strip, trim, List.reverse_eq_nil_iff, dropWhile_isBlank_eq_nil_iff]
  constructor
  · intro h
    by_cases hd : cs.dropWhile isBlank = []
    · exact dropWhile_isBlank_eq_nil_iff.1 hd
    · have := List.head_dropWhile_not (p := isBlank) hd
      rw [h _ (by simp)] at this
      contradiction
  · intro h c hc
    exact h c ((List.dropWhile_sublist isBlank).mem (by simpa using hc))

theorem exists_around_strip (cs : List Char) :
    ∃ lead trail, cs = lead ++ strip cs ++ trail ∧ cs.dropWhile isBlank = strip cs ++ trail ∧
      (∀ c ∈ lead, isBlank c) ∧ ∀ c ∈ trail, isBlank c := by
  let rest := cs.dropWhile isBlank
  have back : rest = strip cs ++ (rest.reverse.takeWhile isBlank).reverse := by
    rw [strip, trim, ← List.reverse_append, List.takeWhile_append_dropWhile, List.reverse_reverse]
  refine ⟨cs.takeWhile isBlank, (rest.reverse.takeWhile isBlank).reverse, ?_, back, ?_, ?_⟩
  · rw [List.append_assoc, ← back, List.takeWhile_append_dropWhile]
  · exact List.all_eq_true.1 List.all_takeWhile
  · exact fun c mem => List.all_eq_true.1 List.all_takeWhile c (List.mem_reverse.1 mem)

theorem not_isBlank_of_strip {cs rest : List Char} {c : Char} (h : strip cs = c :: rest) :
    ¬isBlank c := by
  obtain ⟨_, trail, _, back, _, _⟩ := exists_around_strip cs
  have first := List.head?_dropWhile_not isBlank cs
  rw [back, h] at first
  simpa using first

/-- The first word and what follows it, whose own leading blanks are dropped and
whose trailing blanks stay; `none` if there is no word. -/
def firstWord (cs : List Char) : Option (List Char × List Char) :=
  match cs.dropWhile isBlank with
  | [] => none
  | c :: rest =>
    some ((c :: rest).takeWhile (!isBlank ·),
      ((c :: rest).dropWhile (!isBlank ·)).dropWhile isBlank)

theorem firstWord_eq_none_iff {cs : List Char} : firstWord cs = none ↔ ∀ c ∈ cs, isBlank c := by
  rw [← dropWhile_isBlank_eq_nil_iff, firstWord]
  split <;> simp_all

/-- Lowers ASCII letters. No other character lowers to a letter of a command or of a
help topic, so this decides which one a word names. -/
def lower (s : String) : String := s.map Char.toLower

/-- Two letters beyond ASCII have a capital inside it: the dotless i and the long s. -/
def upperChar (c : Char) : Char :=
  if c = 'ı' then 'I' else if c = 'ſ' then 'S' else c.toUpper

def upper (s : String) : String := s.map upperChar

def isBreak (c : Char) : Bool :=
  c ∈ ['\n', '\r', '\x0b', '\x0c', '\x1c', '\x1d', '\x1e', '\u0085', '\u2028', '\u2029']

/-- `current` holds the characters of the unfinished line, last one first. -/
def linesFrom (current : List Char) : List Char → List (List Char)
  | [] => if current.isEmpty then [] else [current.reverse]
  | '\r' :: '\n' :: rest => current.reverse :: linesFrom [] rest
  | c :: rest =>
    if isBreak c then current.reverse :: linesFrom [] rest else linesFrom (c :: current) rest

def lines (text : String) : List String :=
  (linesFrom [] text.toList).map String.ofList

end LineCalc.Text
