/-
Cutting a text at the places where a separator stands.

`breakAt?` cuts at the first place, `breakLast?` at the last, `split` at every place from left to right; separators
found do not overlap.
-/
namespace LogRelay.Text

/-- what stands before and after the first `sep` in a text -/
def breakAt? (sep : List Char) : List Char → Option (List Char × List Char)
  | [] => if sep.isEmpty then some ([], []) else none
  | c :: r =>
    if sep.isPrefixOf (c :: r) then some ([], (c :: r).drop sep.length)
    else (breakAt? sep r).map fun (a, b) => (c :: a, b)

/-- what stands before and after the last `sep` in a text -/
def breakLast? (sep : List Char) : List Char → Option (List Char × List Char)
  | [] => if sep.isEmpty then some ([], []) else none
  | c :: r =>
    match breakLast? sep r with
    | some (a, b) => some (c :: a, b)
    | none => if sep.isPrefixOf (c :: r) then some ([], (c :: r).drop sep.length) else none

/-- a text cut at every `sep`; `skip` counts the characters left of a separator already found -/
def splitFrom (sep : List Char) : Nat → List Char → List (List Char)
  | _, [] => [[]]
  | k + 1, _ :: r => splitFrom sep k r
  | 0, c :: r =>
    if !sep.isEmpty && sep.isPrefixOf (c :: r) then [] :: splitFrom sep (sep.length - 1) r
    else match splitFrom sep 0 r with
      | p :: ps => (c :: p) :: ps
      | [] => [[c]]

/-- a text cut at every `sep`, from left to right -/
def split (sep s : List Char) : List (List Char) := splitFrom sep 0 s

/-- what follows a beginning that a text must have -/
def afterPrefix? (p s : List Char) : Option (List Char) := if p.isPrefixOf s then some (s.drop p.length) else none

/-- the lines of a text: each ends at a line feed, without it and without one carriage return before it -/
def lines (s : List Char) : List (List Char) :=
  let parts := split ['\n'] s
  let whole := parts.dropLast.map fun l => if l.getLast? = some '\r' then l.dropLast else l
  match parts.getLast? with
  | some [] | none => whole
  | some last => whole ++ [last]

end LogRelay.Text
