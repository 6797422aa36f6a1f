/-
Names of hosts.

A name is labels with points between them, and one may stand at the end. A label has one to sixty-three characters,
which are letters, digits, hyphens and underscores; a name does not begin with a hyphen, and it has at most 255 octets
when each label is written behind its length. A backslash before three digits stands for the octet with that number,
and before any other character for that character, even if it is a point.
-/
import LogRelay.Text.Natural

namespace LogRelay.Address.Name

open Text

/-- what a name is made of: characters, and the points that end labels, which are none -/
abbrev Mark := Option Char

/-- the marks of a name, its escapes read; nothing when an escape is broken off -/
def marks? : List Char → Option (List Mark)
  | [] => some []
  | '.' :: r => (marks? r).map (none :: ·)
  | ['\\'] => none
  | '\\' :: a :: b :: c :: r =>
    if a.isDigit then (natural? UInt8.size [a, b, c]).bind fun n => (marks? r).map (some (Char.ofNat n) :: ·)
    else (marks? (b :: c :: r)).map (some a :: ·)
  | '\\' :: a :: r => if a.isDigit then none else (marks? r).map (some a :: ·)
  | c :: r => (marks? r).map (some c :: ·)

/-- a mark before the labels of a name -/
def consMark (m : Mark) (ls : List (List Char)) : List (List Char) :=
  match m, ls with
  | none, ls => [] :: ls
  | some c, l :: ls => (c :: l) :: ls
  | some c, [] => [[c]]

/-- the labels between the points of a name -/
def labels (ms : List Mark) : List (List Char) := ms.foldr consMark [[]]

/-- whether a label may stand in a name -/
def isLabel (l : List Char) : Bool :=
  !l.isEmpty && l.length < 64 && l.all fun c => c.isAlphanum || c = '-' || c = '_'

/-- the octets of a name with each label behind its length -/
def wireSize (ls : List (List Char)) : Nat := ls.foldr (fun l n => l.length + 1 + n) 1

def isNameOf (ls : List (List Char)) : Bool :=
  ls.all isLabel && (ls.head?.bind List.head?) != some '-' && wireSize ls ≤ 255

/-- whether a text is a name; a point alone is the root of all names -/
def isName (s : List Char) : Bool :=
  match marks? s with
  | none | some [] => false
  | some [none] => true
  | some ms => isNameOf (labels (if ms.getLast? = some none then ms.dropLast else ms))

/-- whether a text is the name by which every host calls itself; case does not matter -/
def isOwn (s : List Char) : Bool := s.map Char.toLower == "localhost".toList

end LogRelay.Address.Name
