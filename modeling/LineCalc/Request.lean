import LineCalc.Text.Basic

/-! What a line asks for. A command begins with a colon, except that the bare word `help`
is one too; every other line is an expression. -/
namespace LineCalc

inductive Request where
  | expression (text : String)
  | help (topic : String)
  | operators
  | tree (text : String)
  | leave
  | nothing
  | unknown (word : String)
  deriving DecidableEq, Repr

namespace Request

def ofCommand (word rest : String) : Request :=
  match Text.lower word with
  | "help" => help rest
  | "operators" => operators
  | "tree" => tree (String.ofList (Text.strip rest.toList))
  | "exit" | "quit" => leave
  | _ => unknown word

def ofColon (body : List Char) : Request :=
  match Text.firstWord body with
  | none => nothing
  | some (word, rest) => ofCommand (String.ofList word) (String.ofList rest)

def ofText (cs : List Char) : Request :=
  match Text.firstWord cs with
  | none => expression ""
  | some (word, rest) =>
    if Text.lower (String.ofList word) = "help" then help (String.ofList rest)
    else
      match cs with
      | ':' :: body => ofColon body
      | _ => expression (String.ofList cs)

def ofLine (line : String) : Request := ofText (Text.strip line.toList)

end Request

end LineCalc
