/-! Paths that begin at a home directory. A tilde stands for the caller's own home, and with a
name behind it for the home of that account. -/
namespace LineCalc

structure Homes where
  own : Option String
  ofAccount : String → Option String

def Homes.only (own : String) : Homes := ⟨some own, fun _ => none⟩

namespace Home

/-- What is below a home directory, which gives up the slashes at its end. -/
def below (home : String) (tail : List Char) : String :=
  let path := (home.toList.reverse.dropWhile (· = '/')).reverse ++ tail
  if path.isEmpty then "/" else String.ofList path

/-- A path with the home directory in its place, and without change if that is not known. There
is none if the account cannot have that name, because it holds a NUL. -/
def expand? (homes : Homes) (path : String) : Option String :=
  match path.toList with
  | '~' :: rest =>
    let account := rest.takeWhile (· ≠ '/')
    let tail := rest.dropWhile (· ≠ '/')
    if '\x00' ∈ account then none
    else
      let home := if account.isEmpty then homes.own else homes.ofAccount (String.ofList account)
      some ((home.map (below · tail)).getD path)
  | _ => some path

end Home

end LineCalc
