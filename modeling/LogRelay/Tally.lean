/-
How many records were sent and how many were lost.
-/
namespace LogRelay

/-- the records sent and lost so far, one after the other: a word of 64 bits would come to its end only after 2 ^ 64
of them -/
structure Tally where
  sent : Nat := 0
  lost : Nat := 0
  deriving DecidableEq, Repr, Inhabited

namespace Tally

def addSent (t : Tally) : Tally := { t with sent := t.sent + 1 }

def addLost (t : Tally) : Tally := { t with lost := t.lost + 1 }

/-- the share of records lost, in percent; nothing is lost while there are no records -/
def lossRate (t : Tally) : Float :=
  if t.sent + t.lost = 0 then 0 else t.lost.toFloat / (t.sent + t.lost).toFloat * 100

end Tally
end LogRelay
