/-
Natural numbers in digits, as they stand in texts, addresses and places of a program.

`natural?` reads decimal digits: there is at least one, a plus sign may stand before the first, and the number lies
below a bound. `literal?` reads a number whose beginning tells its base.
-/
namespace LogRelay.Text

/-- the number with these decimal digits, the first the most significant -/
def ofFigures (ds : List Char) : Nat := ds.foldl (fun a c => a * 10 + (c.toNat - '0'.toNat)) 0

/-- digits without the plus sign before them -/
def unsigned : List Char → List Char
  | '+' :: r => r
  | s => s

/-- the number below `bound` that a text gives -/
def natural? (bound : Nat) (s : List Char) : Option Nat :=
  let ds := unsigned s
  if ds.isEmpty || !ds.all Char.isDigit then none
  else if ofFigures ds < bound then some (ofFigures ds) else none

/-! ## Other bases -/

def hexDigit? (c : Char) : Option Nat :=
  if '0' ≤ c ∧ c ≤ '9' then some (c.toNat - '0'.toNat)
  else if 'a' ≤ c ∧ c ≤ 'f' then some (c.toNat - 'a'.toNat + 10)
  else if 'A' ≤ c ∧ c ≤ 'F' then some (c.toNat - 'A'.toNat + 10)
  else none

/-- the digit `c` of a base written after the number `n` -/
def pushDigit? (base n : Nat) (c : Char) : Option Nat :=
  (hexDigit? c).bind fun d => if d < base then some (n * base + d) else none

/-- the number with these digits in a base of at most sixteen, the first the most significant; no digits give zero -/
def ofDigits? (base : Nat) (s : List Char) : Option Nat := s.foldlM (pushDigit? base) 0

/-- a number whose beginning tells its base: sixteen after a zero and an x, eight after any other zero, else ten -/
def literal? : List Char → Option Nat
  | [] => none
  | '0' :: 'x' :: r => if r.isEmpty then none else ofDigits? 16 r
  | '0' :: 'X' :: r => if r.isEmpty then none else ofDigits? 16 r
  | '0' :: r => ofDigits? 8 r
  | s => ofDigits? 10 s

end LogRelay.Text
