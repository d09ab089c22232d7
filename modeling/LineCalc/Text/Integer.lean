import LineCalc.Decimal
import LineCalc.Text.Basic

/-! Decimal digits of all scripts, by Unicode 14, and integers as the environment may hold them:
with a sign, digits of any script, single underscores between digits, and blanks around the whole.
Expressions have the ASCII digits alone, and their numerals are plainer. -/
namespace LineCalc.Text

def decimalDigits : CodePoints :=
  [(0x0030, 0x0039), (0x0660, 0x0669), (0x06F0, 0x06F9), (0x07C0, 0x07C9), (0x0966, 0x096F),
   (0x09E6, 0x09EF), (0x0A66, 0x0A6F), (0x0AE6, 0x0AEF), (0x0B66, 0x0B6F), (0x0BE6, 0x0BEF),
   (0x0C66, 0x0C6F), (0x0CE6, 0x0CEF), (0x0D66, 0x0D6F), (0x0DE6, 0x0DEF), (0x0E50, 0x0E59),
   (0x0ED0, 0x0ED9), (0x0F20, 0x0F29), (0x1040, 0x1049), (0x1090, 0x1099), (0x17E0, 0x17E9),
   (0x1810, 0x1819), (0x1946, 0x194F), (0x19D0, 0x19D9), (0x1A80, 0x1A89), (0x1A90, 0x1A99),
   (0x1B50, 0x1B59), (0x1BB0, 0x1BB9), (0x1C40, 0x1C49), (0x1C50, 0x1C59), (0xA620, 0xA629),
   (0xA8D0, 0xA8D9), (0xA900, 0xA909), (0xA9D0, 0xA9D9), (0xA9F0, 0xA9F9), (0xAA50, 0xAA59),
   (0xABF0, 0xABF9), (0xFF10, 0xFF19), (0x104A0, 0x104A9), (0x10D30, 0x10D39), (0x11066, 0x1106F),
   (0x110F0, 0x110F9), (0x11136, 0x1113F), (0x111D0, 0x111D9), (0x112F0, 0x112F9),
   (0x11450, 0x11459), (0x114D0, 0x114D9), (0x11650, 0x11659), (0x116C0, 0x116C9),
   (0x11730, 0x11739), (0x118E0, 0x118E9), (0x11950, 0x11959), (0x11C50, 0x11C59),
   (0x11D50, 0x11D59), (0x11DA0, 0x11DA9), (0x16A60, 0x16A69), (0x16AC0, 0x16AC9),
   (0x16B50, 0x16B59), (0x1D7CE, 0x1D7FF), (0x1E140, 0x1E149), (0x1E2F0, 0x1E2F9),
   (0x1E950, 0x1E959), (0x1FBF0, 0x1FBF9)]

def isDecimalDigit (c : Char) : Bool := decimalDigits.contains c

/-- The ten digits of a script stand in order, and scripts in a row fill one range. -/
def digitValue? (c : Char) : Option Nat := (decimalDigits.offset? c).map (· % 10)

theorem isSome_digitValue? (c : Char) : (digitValue? c).isSome = isDecimalDigit c := by
  rw [digitValue?, Option.isSome_map, CodePoints.isSome_offset?, isDecimalDigit]

theorem digitValue?_lt {c : Char} {d : Nat} (h : digitValue? c = some d) : d < 10 := by
  obtain ⟨n, _, rfl⟩ := Option.map_eq_some_iff.1 h
  exact Nat.mod_lt n (by decide)

theorem isDecimalDigit_of_isDigit {c : Char} (h : c.isDigit) : isDecimalDigit c := by
  simp only [Char.isDigit, Bool.and_eq_true, decide_eq_true_eq, ge_iff_le,
    UInt32.le_iff_toNat_le] at h
  simp only [isDecimalDigit, decimalDigits, CodePoints.contains, Bool.or_eq_true,
    Bool.and_eq_true, decide_eq_true_eq]
  exact ⟨h.1, Or.inl h.2⟩

/-- The blanks that may stand around an integer are all but the four separator controls. -/
def isPadding (c : Char) : Bool := isBlank c && !(0x1C ≤ c.toNat && c.toNat ≤ 0x1F)

def digitValues : List Char → Option (List Nat)
  | [] => none
  | [c] => (digitValue? c).map ([·])
  | c :: '_' :: rest => do return (← digitValue? c) :: (← digitValues rest)
  | c :: rest => do return (← digitValue? c) :: (← digitValues rest)

def natural? (cs : List Char) : Option Nat := do
  let digits ← digitValues cs
  if digits.length ≤ Decimal.digitLimit then some (digits.foldl (fun n d => 10 * n + d) 0)
  else none

def integer? (text : String) : Option Int :=
  match trim isPadding text.toList with
  | '-' :: digits => (natural? digits).map fun n => -n
  | '+' :: digits | digits => (natural? digits).map Int.ofNat

theorem length_le_of_natural? {cs : List Char} {n : Nat} (h : natural? cs = some n) :
    ∃ digits, digitValues cs = some digits ∧ digits.length ≤ Decimal.digitLimit := by
  obtain ⟨digits, hd, h⟩ := Option.bind_eq_some_iff.1 h
  refine ⟨digits, hd, ?_⟩
  split at h
  · assumption
  · contradiction

end LineCalc.Text
