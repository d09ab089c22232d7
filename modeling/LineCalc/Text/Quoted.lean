import LineCalc.Text.Graphic

/-! Texts as reports and log records show them: between quotes, of which those are chosen that make
escapes rare, with an escape for what is not graphic, and without the middle if they are long. -/
namespace LineCalc.Text

def quoteFor (cs : List Char) : Char :=
  if '\'' ∈ cs ∧ '"' ∉ cs then '"' else '\''

def hexDigits (width n : Nat) : List Char :=
  let digits := Nat.toDigits 16 n
  List.replicate (width - digits.length) '0' ++ digits

def escapeCode (n : Nat) : List Char :=
  if n < 0x100 then '\\' :: 'x' :: hexDigits 2 n
  else if n < 0x10000 then '\\' :: 'u' :: hexDigits 4 n
  else '\\' :: 'U' :: hexDigits 8 n

def escape (quote c : Char) : List Char :=
  if c = quote ∨ c = '\\' then ['\\', c]
  else if c = '\n' then ['\\', 'n']
  else if c = '\r' then ['\\', 'r']
  else if c = '\t' then ['\\', 't']
  else if isGraphic c then [c]
  else escapeCode c.toNat

def quoted (s : String) : String :=
  let quote := quoteFor s.toList
  String.ofList (quote :: s.toList.flatMap (escape quote) ++ [quote])

/-- The longest text of which a report leaves nothing out, in bytes. -/
def longestShown : Nat := 50

/-- As many characters from the start as there is room for, in bytes. -/
def fitting (room : Nat) : List Char → List Char
  | [] => []
  | c :: cs => if c.utf8Size ≤ room then c :: fitting (room - c.utf8Size) cs else []

def abridged (s : String) : String :=
  if s.utf8ByteSize ≤ longestShown then s
  else
    let start := fitting (longestShown / 2) s.toList
    let finish := (fitting (longestShown / 2 - 1) s.toList.reverse).reverse
    String.ofList (start ++ "...".toList ++ finish)

end LineCalc.Text
