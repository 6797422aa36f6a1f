/-
Texts in quotes, as JSON is written here.

The quote, the backslash and the characters below the space are escaped, each in one way; every other character stands
for itself. A text is put down in parts: the quotes, the runs of characters that stand for themselves, and the escapes
between them. The parts make up the text in quotes.
-/
namespace LogRelay.Json

/-- a hexadecimal digit in lower case -/
def hexFigure (n : Nat) : Char := Char.ofNat (if n < 10 then '0'.toNat + n else 'a'.toNat + (n - 10))

/-- a character inside quotes -/
def escape (c : Char) : List Char :=
  if c = '"' then ['\\', '"']
  else if c = '\\' then ['\\', '\\']
  else if c = '\x08' then ['\\', 'b']
  else if c = '\t' then ['\\', 't']
  else if c = '\n' then ['\\', 'n']
  else if c = '\x0c' then ['\\', 'f']
  else if c = '\r' then ['\\', 'r']
  else if c < ' ' then ['\\', 'u', '0', '0', hexFigure (c.toNat / 16), hexFigure (c.toNat % 16)]
  else [c]

def quote (s : List Char) : List Char := '"' :: s.flatMap escape ++ ['"']

/-! ## Parts -/

/-- a character before the parts of a text, of which the first is a run: it joins the run, or its escape precedes it -/
def consPart (c : Char) (ps : List (List Char)) : List (List Char) :=
  if escape c = [c] then
    match ps with
    | [] => [[c]]
    | run :: ps => (c :: run) :: ps
  else [] :: escape c :: ps

/-- a text in quotes, in the parts in which it is put down -/
def quoteParts (s : List Char) : List (List Char) := ['"'] :: s.foldr consPart [[]] ++ [['"']]

theorem flatten_consPart (c : Char) (ps : List (List Char)) :
    (consPart c ps).flatten = escape c ++ ps.flatten := by
  unfold consPart
  split
  · next h => cases ps <;> simp [h]
  · simp

theorem flatten_foldr_consPart (s : List Char) : (s.foldr consPart [[]]).flatten = s.flatMap escape := by
  induction s with
  | nil => rfl
  | cons c s ih => simp [flatten_consPart, ih]

@[simp] theorem flatten_quoteParts (s : List Char) : (quoteParts s).flatten = quote s := by
  simp [quoteParts, quote, flatten_foldr_consPart]

end LogRelay.Json
