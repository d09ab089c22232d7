/-! Words on lines of bounded width, as many on each as fit. -/
namespace LineCalc.Text

def wrapOnto (width : Nat) (line : String) : List String → List String
  | [] => [line]
  | word :: rest =>
    if line.length + 1 + word.length ≤ width then wrapOnto width (line ++ " " ++ word) rest
    else line :: wrapOnto width word rest

def wrap (width : Nat) : List String → List String
  | [] => []
  | word :: rest => wrapOnto width word rest

def cut (width : Nat) (word : List Char) : List (List Char) × List Char :=
  if 0 < width ∧ width < word.length then
    let (pieces, last) := cut width (word.drop width)
    (word.take width :: pieces, last)
  else ([], word)
termination_by word.length
decreasing_by simp only [List.length_drop]; omega

/-- A word that is wider than a line begins on the line that is being filled, if there is room
for a space behind it. -/
def fillOnto (width : Nat) (line : List Char) : List (List Char) → List (List Char)
  | [] => [line]
  | word :: rest =>
    if line.length + 1 + word.length ≤ width then fillOnto width (line ++ ' ' :: word) rest
    else if word.length ≤ width then line :: fillOnto width word rest
    else
      let room := width - line.length
      let begun := if 0 < room then line ++ ' ' :: word.take (room - 1) else line
      let (pieces, last) := cut width (word.drop (room - 1))
      begun :: pieces ++ fillOnto width last rest

def fill (width : Nat) (text : String) : List String :=
  match (text.splitOn " ").map String.toList with
  | [] => []
  | word :: rest =>
    let (pieces, last) := cut width word
    (pieces ++ fillOnto width last rest).map String.ofList

end LineCalc.Text
