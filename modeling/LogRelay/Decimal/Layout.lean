/-
How the digits of a number are laid out.

One record holds what a format decides: the range of exponents written in plain decimal, whether a whole number keeps
`.0`, whether an exponent above zero has a plus sign, which of two equally near decimals is taken, and the texts for
what is no finite number.
-/
import LogRelay.Decimal.Shortest

namespace LogRelay.Decimal

/-- the decisions of a number format -/
structure Layout where
  /-- the exponents written in plain decimal; none means all -/
  plain : Option (Int × Int)
  /-- a whole number in plain decimal ends in `.0` -/
  fraction : Bool
  /-- an exponent above zero has a plus sign -/
  plus : Bool
  /-- of two equally near decimals the greater is taken, and else the even one -/
  tieUp : Bool
  nan : String
  infinity : String
  negativeInfinity : String

def figures (ds : List Nat) : String := String.join (ds.map fun d => toString d)

def zeros (n : Nat) : String := String.ofList (List.replicate n '0')

def Layout.positional (l : Layout) (d : Digits) : String :=
  let n : Int := d.digits.length
  if d.exponent < 0 then "0." ++ zeros (-d.exponent - 1).toNat ++ figures d.digits
  else if n - 1 ≤ d.exponent then
    figures d.digits ++ zeros (d.exponent - (n - 1)).toNat ++ (if l.fraction then ".0" else "")
  else
    let k := (d.exponent + 1).toNat
    figures (d.digits.take k) ++ "." ++ figures (d.digits.drop k)

/-- one digit, the others after a point, and the exponent -/
def Layout.scientific (l : Layout) (d : Digits) : String :=
  figures (d.digits.take 1) ++ (if d.digits.length > 1 then "." ++ figures (d.digits.drop 1) else "") ++ "e"
    ++ (if d.exponent < 0 then "-" else if l.plus then "+" else "") ++ toString d.exponent.natAbs

def Layout.render (l : Layout) (x : Double) : String :=
  if x.isNaN then l.nan
  else if x.isInfinite then (if x.negative then l.negativeInfinity else l.infinity)
  else
    let d := x.shortest l.tieUp
    let isPlain := match l.plain with
      | none => true
      | some (lo, hi) => lo ≤ d.exponent && d.exponent ≤ hi
    (if x.negative then "-" else "") ++ (if isPlain then l.positional d else l.scientific d)

/-- numbers in JSON: exponents from -5 to 15 are plain, a whole number keeps `.0`, and what is not finite is null -/
def json : Layout := ⟨some (-5, 15), true, true, false, "null", "null", "null"⟩

/-- numbers as shown alone: always plain, a whole number without a fraction -/
def shown : Layout := ⟨none, false, false, true, "NaN", "inf", "-inf"⟩

/-- numbers in the fields of a diagnostic: plain from -4 to 15, a whole number keeps `.0` -/
def diagnostic : Layout := ⟨some (-4, 15), true, false, true, "NaN", "inf", "-inf"⟩

end LogRelay.Decimal
