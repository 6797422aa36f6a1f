/-
Binary floating-point numbers of 64 bits, by their bits.

A finite number is `mantissa * 2 ^ exponent` with a sign; all arithmetic here is exact on natural numbers until
`nearest?` rounds a quotient once, to the nearest number and on a tie to the even one. `scale?` multiplies a number by a
power of ten that is itself rounded, so a decimal numeral read through it is rounded twice.
-/
namespace LogRelay.Decimal

/-- a floating-point number, sign, eleven bits of exponent and fifty-two of fraction from the top -/
structure Double where
  bits : UInt64
  deriving DecidableEq, Repr, Inhabited

/-- the quotient of two numbers rounded to the nearest whole number, a tie to the even one -/
def roundDiv (a b : Nat) : Nat :=
  let q := a / b
  let r := a % b
  if 2 * r < b then q else if b < 2 * r then q + 1 else if q % 2 = 0 then q else q + 1

namespace Double

def negative (x : Double) : Bool := x.bits.toNat / Nat.pow 2 63 == 1

def exponentField (x : Double) : Nat := x.bits.toNat / Nat.pow 2 52 % 2048

def fraction (x : Double) : Nat := x.bits.toNat % Nat.pow 2 52

def isNaN (x : Double) : Bool := x.exponentField == 2047 && x.fraction != 0

def isInfinite (x : Double) : Bool := x.exponentField == 2047 && x.fraction == 0

def isFinite (x : Double) : Bool := x.exponentField != 2047

/-- the whole number that a power of two scales to the magnitude -/
def mantissa (x : Double) : Nat := if x.exponentField = 0 then x.fraction else Nat.pow 2 52 + x.fraction

/-- the power of two that scales the mantissa -/
def exponent (x : Double) : Int := (max x.exponentField 1 : Int) - 1075

def isZero (x : Double) : Bool := x.isFinite && x.mantissa == 0

/-- the magnitude of a finite number as a quotient -/
def ratio (x : Double) : Nat × Nat := (x.mantissa * Nat.pow 2 x.exponent.toNat, Nat.pow 2 (-x.exponent).toNat)

/-- equal as numbers: zeros of either sign are, and what is no number equals nothing -/
def same (x y : Double) : Bool := !x.isNaN && !y.isNaN && (x.bits == y.bits || x.isZero && y.isZero)

def neg (x : Double) : Double := ⟨x.bits ^^^ 0x8000000000000000⟩

def zero : Double := ⟨0⟩

/-- a quotient over a power of two, as a quotient of whole numbers -/
def overPow2 (num den : Nat) (e : Int) : Nat × Nat := (num * Nat.pow 2 (-e).toNat, den * Nat.pow 2 e.toNat)

/-- the exponent at which a quotient has fifty-three bits, or the least one there is -/
def exponentFor (num den : Nat) : Int :=
  let e : Int := (num.log2 : Int) - den.log2 - 52
  let (a, b) := overPow2 num den e
  max (if a / b < Nat.pow 2 52 then e - 1 else e) (-1074)

/-- the number nearest to a quotient, a tie to the even one; none when the quotient is too large -/
def nearest? (num den : Nat) : Option Double :=
  if num = 0 then some zero
  else
    let e := exponentFor num den
    let (a, b) := overPow2 num den e
    let n := (e + 1074).toNat * Nat.pow 2 52 + roundDiv a b
    if n < 2047 * Nat.pow 2 52 then some ⟨n.toUInt64⟩ else none

/-- the number nearest to ten to the `n` -/
def pow10? (n : Nat) : Option Double := nearest? (Nat.pow 10 n) 1

def mul? (x y : Double) : Option Double :=
  nearest? (x.ratio.1 * y.ratio.1) (x.ratio.2 * y.ratio.2)

def div? (x y : Double) : Option Double :=
  nearest? (x.ratio.1 * y.ratio.2) (x.ratio.2 * y.ratio.1)

/-- the largest power of ten that is a finite number -/
def maxPow10 : Nat := 308

/-- a number times ten to the `n`; none when that is too large -/
def scaleUp? (x : Double) (n : Nat) : Option Double :=
  if n ≤ maxPow10 then (pow10? n).bind (x.mul? ·) else if x.isZero then some x else none

/-- a number over ten to the `n`, in steps of the largest power of ten -/
def scaleDown? (x : Double) (n : Nat) : Option Double :=
  if n ≤ maxPow10 then (pow10? n).bind (x.div? ·)
  else if x.isZero then some x
  else (pow10? maxPow10).bind fun p => (x.div? p).bind (scaleDown? · (n - maxPow10))
termination_by n
decreasing_by simp only [maxPow10] at *; omega

/-- a number times a power of ten, each factor rounded before the product is -/
def scale? (x : Double) : Int → Option Double
  | .ofNat n => x.scaleUp? n
  | .negSucc n => x.scaleDown? (n + 1)

def ofNat? (n : Nat) : Option Double := nearest? n 1

example : nearest? 1 10 = some ⟨0x3FB999999999999A⟩ := by decide +kernel
example : nearest? 1 (Nat.pow 2 1074) = some ⟨1⟩ := by decide +kernel
example : (ofNat? 1).bind (·.scale? 309) = none := by decide +kernel

end Double
end LogRelay.Decimal
