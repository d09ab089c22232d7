import Mathlib.Data.List.Basic
import LineCalc.Text.Basic

/-! What stripping leaves begins and ends with no blank, and a text that does so is left as it is.
The first word of a text ends where its first gap begins. -/
namespace LineCalc.Text

def stripped (s : String) : String := String.ofList (strip s.toList)

theorem dropWhile_isBlank_eq_self {cs : List Char} (first : ∀ c ∈ cs.head?, ¬isBlank c) :
    cs.dropWhile isBlank = cs := by
  cases cs with
  | nil => exact List.dropWhile_nil
  | cons c cs => exact List.dropWhile_cons_of_neg (first c rfl)

theorem strip_eq_self {cs : List Char} (first : ∀ c ∈ cs.head?, ¬isBlank c)
    (last : ∀ c ∈ cs.getLast?, ¬isBlank c) : strip cs = cs := by
  rw [← List.head?_reverse] at last
  rw [strip, trim, dropWhile_isBlank_eq_self first, dropWhile_isBlank_eq_self last,
    List.reverse_reverse]

theorem strip_of_no_blank {cs : List Char} (h : ∀ c ∈ cs, ¬isBlank c) : strip cs = cs :=
  strip_eq_self (fun c first => h c (List.mem_of_head? first))
    fun c last => h c (List.mem_of_getLast? last)

theorem not_isBlank_head_strip (cs : List Char) : ∀ c ∈ (strip cs).head?, ¬isBlank c := by
  intro c first
  obtain ⟨rest, same⟩ := List.head?_eq_some_iff.1 first
  exact not_isBlank_of_strip same

theorem not_isBlank_last_strip (cs : List Char) : ∀ c ∈ (strip cs).getLast?, ¬isBlank c := by
  intro c last
  rw [strip, trim, List.getLast?_reverse] at last
  have stops := List.head?_dropWhile_not isBlank (cs.dropWhile isBlank).reverse
  rw [last] at stops
  simpa using stops

theorem strip_strip (cs : List Char) : strip (strip cs) = strip cs :=
  strip_eq_self (not_isBlank_head_strip cs) (not_isBlank_last_strip cs)

theorem strip_append_blank {trail : List Char} (h : ∀ c ∈ trail, isBlank c) (cs : List Char) :
    strip (cs ++ trail) = strip cs := by
  rw [strip, strip, trim, trim, List.dropWhile_append]
  split
  · next none =>
    rw [dropWhile_isBlank_eq_nil_iff.2 h, List.isEmpty_iff.1 none]
  · rw [List.reverse_append, List.dropWhile_append_of_pos fun c mem => h c (List.mem_reverse.1 mem)]

theorem exists_strip_append {front cs : List Char} (ne : front ≠ [])
    (first : ∀ c ∈ front.head?, ¬isBlank c) (full : strip cs ≠ []) :
    ∃ lead, (∀ c ∈ lead, isBlank c) ∧ strip (front ++ cs) = front ++ lead ++ strip cs := by
  obtain ⟨lead, trail, cut, _, leads, trails⟩ := exists_around_strip cs
  refine ⟨lead, leads, ?_⟩
  have whole : front ++ cs = front ++ lead ++ strip cs ++ trail := by
    rw [List.append_assoc front, List.append_assoc front, ← cut]
  rw [whole, strip_append_blank trails]
  refine strip_eq_self ?_ ?_
  · rwa [List.append_assoc, List.head?_append_of_ne_nil _ ne]
  · rw [List.getLast?_append_of_ne_nil _ full]
    exact not_isBlank_last_strip cs

theorem firstWord_cons {c : Char} (h : ¬isBlank c) (cs : List Char) :
    firstWord (c :: cs) =
      some (c :: cs.takeWhile (!isBlank ·), (cs.dropWhile (!isBlank ·)).dropWhile isBlank) := by
  have word : (!isBlank c) = true := by simp [h]
  have split : firstWord (c :: cs) = some ((c :: cs).takeWhile (!isBlank ·),
      ((c :: cs).dropWhile (!isBlank ·)).dropWhile isBlank) := by
    rw [firstWord, List.dropWhile_cons_of_neg h]
  rw [split, List.takeWhile_cons, List.dropWhile_cons, if_pos word, if_pos word]

theorem firstWord_append {word gap rest : List Char} (ne : word ≠ [])
    (solid : ∀ c ∈ word, ¬isBlank c) (apart : gap ≠ []) (blank : ∀ c ∈ gap, isBlank c)
    (first : ∀ c ∈ rest.head?, ¬isBlank c) :
    firstWord (word ++ gap ++ rest) = some (word, rest) := by
  obtain ⟨c, cs, rfl⟩ := List.exists_cons_of_ne_nil ne
  obtain ⟨g, gs, rfl⟩ := List.exists_cons_of_ne_nil apart
  obtain ⟨here, others⟩ := List.forall_mem_cons.1 solid
  have inWord : ∀ c ∈ cs, (!isBlank c) = true := fun c mem => by simp [others c mem]
  have ends : ¬(!isBlank g) = true := by simp [blank g List.mem_cons_self]
  have behind : (g :: gs ++ rest).dropWhile isBlank = rest := by
    rw [List.dropWhile_append_of_pos blank, dropWhile_isBlank_eq_self first]
  rw [List.append_assoc, List.cons_append, firstWord_cons here,
    List.takeWhile_append_of_pos inWord, List.dropWhile_append_of_pos inWord, List.cons_append,
    List.takeWhile_cons_of_neg (p := (!isBlank ·)) ends,
    List.dropWhile_cons_of_neg (p := (!isBlank ·)) ends, List.append_nil]
  exact congrArg (fun others => some (c :: cs, others)) behind

end LineCalc.Text
