/-
The shortest decimal that reads back as a given floating-point number.

Of the decimals with the fewest digits that round to the number, the nearest is taken; two equally near are told apart
by `tieUp`. `shortest` looks at one, two, … seventeen digits in turn, and for each at the two neighbours of the number
on that decimal grid, in exact arithmetic.
-/
import LogRelay.Decimal.Double

namespace LogRelay.Decimal

/-- a decimal in scientific form: the first digit stands before the point, and ten to `exponent` scales it -/
structure Digits where
  digits : List Nat
  exponent : Int
  deriving DecidableEq, Repr

/-- the decimal digits of a number, the first the most significant -/
def digitsOf (n : Nat) : List Nat := (Nat.toDigits 10 n).map fun c => c.toNat - '0'.toNat

def digitCount (n : Nat) : Nat := (Nat.toDigits 10 n).length

/-- the greatest `k` for which ten to the `k` is at most a quotient above zero -/
def log10 (num den : Nat) : Int :=
  if den ≤ num then (digitCount (num / den) : Int) - 1 else -(digitCount ((den + num - 1) / num - 1) : Int)

/-- the magnitudes that round to a number lie between `low` and `high` over `den`; `closed` says whether the ends do -/
structure Interval where
  low : Nat
  value : Nat
  high : Nat
  den : Nat
  closed : Bool

/-- what rounds to a finite number: half a step to either side, a quarter below a power of two -/
def Double.interval (x : Double) : Interval :=
  let m := x.mantissa
  let below := if x.fraction = 0 ∧ 1 < x.exponentField then 1 else 2
  let up := Nat.pow 2 x.exponent.toNat
  ⟨(4 * m - below) * up, 4 * m * up, (4 * m + 2) * up, 4 * Nat.pow 2 (-x.exponent).toNat, m % 2 == 0⟩

/-- whether `d` times ten to the `k` rounds to the number -/
def Interval.has (i : Interval) (d : Nat) (k : Int) : Bool :=
  let a := d * Nat.pow 10 k.toNat * i.den
  let s := Nat.pow 10 (-k).toNat
  if i.closed then i.low * s ≤ a && a ≤ i.high * s else i.low * s < a && a < i.high * s

/-- the decimal with `n` digits that rounds to the number and is nearest to it, as a count of its last place -/
def Interval.onGrid? (i : Interval) (tieUp : Bool) (k : Int) : Option Nat :=
  let num := i.value * Nat.pow 10 (-k).toNat
  let den := i.den * Nat.pow 10 k.toNat
  let d := num / den
  match i.has d k, i.has (d + 1) k with
  | true, true =>
    let r := num % den
    some (if 2 * r < den then d else if den < 2 * r then d + 1 else if tieUp || d % 2 == 1 then d + 1 else d)
  | true, false => some d
  | false, true => some (d + 1)
  | false, false => none

def Interval.search (i : Interval) (tieUp : Bool) (top : Int) : Nat → Nat → Digits
  | 0, _ => ⟨[0], 0⟩
  | fuel + 1, n =>
    let k := top - n + 1
    match i.onGrid? tieUp k with
    | some d =>
      let ds := digitsOf d
      ⟨(ds.reverse.dropWhile (· == 0)).reverse, k + ds.length - 1⟩
    | none => i.search tieUp top fuel (n + 1)

def Double.shortest (x : Double) (tieUp : Bool) : Digits :=
  if x.mantissa = 0 then ⟨[0], 0⟩
  else
    let i := x.interval
    i.search tieUp (log10 i.value i.den) 17 1

example : (Double.mk 0x3FB999999999999A).shortest false = ⟨[1], -1⟩ := by decide +kernel
example : (Double.mk 1).shortest false = ⟨[5], -324⟩ := by decide +kernel

end LogRelay.Decimal
