/-
Moments of universal time and their text.

A moment is a count of seconds since the start of 1970 and a part of a second in nanoseconds; a leap second is written
as a part of a second and more, at the last second of a minute. Dates are those of the Gregorian calendar, extended to
all years; a year of four digits has no sign, every other has one and at least four digits. The fraction of a second
drops the zeros it ends in, and is left out when nothing remains.
-/
namespace LogRelay

/-- a moment: seconds since 1970 began, and nanoseconds -/
structure Timestamp where
  seconds : Int
  nanos : Nat
  deriving DecidableEq, Repr, Inhabited

structure Date where
  year : Int
  month : Nat
  day : Nat
  deriving DecidableEq, Repr

namespace Date

/-- the days before the first of March of year zero, counted from the start of 1970 -/
def epochShift : Int := 719468

/-- the days of four hundred years -/
def eraDays : Int := 146097

/-- the day that comes `n` days after the first of January 1970; years are counted from March here -/
def ofDays (n : Int) : Date :=
  let z := n + epochShift
  let era := z / eraDays
  let doe := (z % eraDays).toNat
  let yoe := (doe - doe / 1460 + doe / 36524 - doe / 146096) / 365
  let doy := doe - (365 * yoe + yoe / 4 - yoe / 100)
  let mp := (5 * doy + 2) / 153
  let month := if mp < 10 then mp + 3 else mp - 9
  ⟨yoe + era * 400 + (if month ≤ 2 then 1 else 0), month, doy - (153 * mp + 2) / 5 + 1⟩

end Date

namespace Timestamp

def nanosPerSecond : Nat := 1000000000

def date (t : Timestamp) : Date := Date.ofDays (t.seconds / 86400)

def secondOfDay (t : Timestamp) : Nat := (t.seconds % 86400).toNat

/-- whether there is such a moment: the years go from -262143 to 262142, and a leap second ends a minute -/
def isRepresentable (t : Timestamp) : Bool :=
  -262143 ≤ t.date.year && t.date.year ≤ 262142
    && (t.nanos < nanosPerSecond || t.nanos < 2 * nanosPerSecond && t.secondOfDay % 60 == 59)

/-- a number in decimal with at least `width` digits -/
def padded (width n : Nat) : List Char :=
  let ds := Nat.toDigits 10 n
  List.replicate (width - ds.length) '0' ++ ds

/-- a year: four digits, or a sign and at least four -/
def yearText (y : Int) : List Char :=
  if 0 ≤ y ∧ y ≤ 9999 then padded 4 y.toNat else (if y < 0 then '-' else '+') :: padded 4 y.natAbs

/-- a fraction of a second after its point, without the zeros it ends in; nothing for a whole second -/
def fractionText (nanos : Nat) : List Char :=
  match ((padded 9 nanos).reverse.dropWhile (· == '0')).reverse with
  | [] => []
  | ds => '.' :: ds

/-- a moment as text -/
def text (t : Timestamp) : List Char :=
  let d := t.date
  let s := t.secondOfDay
  let leap := nanosPerSecond ≤ t.nanos
  yearText d.year ++ '-' :: padded 2 d.month ++ '-' :: padded 2 d.day ++ 'T' :: padded 2 (s / 3600)
    ++ ':' :: padded 2 (s / 60 % 60) ++ ':' :: padded 2 (if leap then 60 else s % 60)
    ++ fractionText (if leap then t.nanos - nanosPerSecond else t.nanos) ++ ['Z']

end Timestamp
end LogRelay
