/-
Numerals of JSON and the numbers they stand for.

A numeral keeps its digits as written. Its significand takes digits while it stays below 2^64; a whole digit that no
longer fits counts as a power of ten, a fraction digit that no longer fits is dropped. A numeral without fraction and
exponent is a whole number where one fits, from -2^63 to 2^64 - 1; every other numeral, and `-0`, is a floating-point
number: the rounded significand times the rounded power of ten. A numeral too large for that is no number.
-/
import LogRelay.Decimal.Double

namespace LogRelay.Json

open Decimal

/-- a numeral as written -/
structure Numeral where
  negative : Bool
  whole : List Nat
  fraction : List Nat
  /-- the sign and the digits of the exponent -/
  exponent : Option (Bool × List Nat)
  /-- a point or an exponent is written -/
  marked : Bool
  deriving DecidableEq, Repr

/-- what a numeral stands for -/
inductive Number where
  | natural (n : Nat)
  /-- the number below zero with magnitude `n` -/
  | negative (n : Nat)
  | float (x : Double)
  deriving DecidableEq, Repr

/-- the largest exponent that is looked at: a number other than zero with a larger one is too large -/
def exponentLimit : Nat := 2147483647

namespace Numeral

/-- digits appended to a number below 2^64 while they fit, and how many were left over -/
def absorb (n : Nat) : List Nat → Nat × Nat
  | [] => (n, 0)
  | d :: ds => if n * 10 + d < UInt64.size then absorb (n * 10 + d) ds else (n, ds.length + 1)

/-- the significand and the power of ten that goes with it, the written exponent left out -/
def significand (n : Numeral) : Nat × Int :=
  let (s, spilled) := absorb 0 n.whole
  let (s, lost) := absorb s n.fraction
  (s, (spilled : Int) - ((n.fraction.length : Int) - lost))

/-- the written exponent -/
def written (n : Numeral) : Int :=
  match n.exponent with
  | none => 0
  | some (neg, ds) => let e : Nat := ds.foldl (fun a d => a * 10 + d) 0; if neg then -(e : Int) else e

/-- the floating-point number of a numeral; none when it is too large -/
def float? (n : Numeral) : Option Double :=
  let (s, e) := n.significand
  ((Double.ofNat? s).bind (·.scale? (e + n.written))).map fun x => if n.negative then x.neg else x

/-- the number of a numeral; none when it is too large -/
def number? (n : Numeral) : Option Number :=
  let (s, spilled) := absorb 0 n.whole
  if n.marked || spilled != 0 then n.float?.map .float
  else if !n.negative then some (.natural s)
  else if s = 0 || Nat.pow 2 63 < s then (Double.ofNat? s).map fun x => .float x.neg
  else some (.negative s)

end Numeral
end LogRelay.Json
