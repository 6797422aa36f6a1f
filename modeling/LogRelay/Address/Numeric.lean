/-
Hosts in numbers.

A host of the fourth version is one to four numbers with points between them. One of the sixth version is eight groups
of hexadecimal digits with colons between them, of which two colons together leave some out; it may end in a zone, the
link that it is on.
-/
import LogRelay.Text.Natural
import LogRelay.Text.Split

namespace LogRelay

inductive Family where
  | v4
  | v6
  deriving DecidableEq, Repr

/-- a host in numbers -/
inductive Inet where
  | v4 (number : Nat)
  /-- eight groups of sixteen bits; a zone of zero is none -/
  | v6 (groups : List Nat) (zone : Nat)
  deriving DecidableEq, Repr

namespace Inet

open Text

def family : Inet → Family
  | v4 _ => .v4
  | v6 _ _ => .v6

/-- the host itself -/
def loopback : Inet := v4 0x7f000001

/-! ## The fourth version -/

/-- the number that octets make, the first the most significant -/
def ofOctets (os : List Nat) : Nat := os.foldl (fun n o => n * UInt8.size + o) 0

/-- numbers with points between them: all but the last are octets, and the last fills what is left of four octets -/
def v4? (s : List Char) : Option Nat := do
  let ns ← (split ['.'] s).mapM literal?
  let last ← ns.getLast?
  let room := Nat.pow UInt8.size (5 - ns.length)
  if ns.length ≤ 4 && ns.dropLast.all (· < UInt8.size) && last < room then
    some (ofOctets ns.dropLast * room + last)
  else none

/-! ## The sixth version -/

/-- a decimal octet, without leading zeros -/
def octet? (s : List Char) : Option Nat :=
  if s.all Char.isDigit && s.length ≤ 3 && (s.head? != some '0' || s.length == 1) then natural? UInt8.size s else none

/-- the two groups that four decimal octets with points between them make -/
def quad? (s : List Char) : Option (List Nat) :=
  match (split ['.'] s).mapM octet? with
  | some [a, b, c, d] => some [ofOctets [a, b], ofOctets [c, d]]
  | _ => none

/-- one to four hexadecimal digits -/
def group? (s : List Char) : Option Nat := if s.isEmpty || 4 < s.length then none else ofDigits? 16 s

/-- the groups between colons; where `quad` says so, the last text may be four octets -/
def groups? (quad : Bool) : List (List Char) → Option (List Nat)
  | [] => some []
  | [s] =>
    match group? s with
    | some n => some [n]
    | none => if quad then quad? s else none
  | s :: ss => (group? s).bind fun n => (groups? quad ss).map (n :: ·)

/-- the texts between the colons of a text that may be empty -/
def fields (s : List Char) : List (List Char) := if s.isEmpty then [] else split [':'] s

/-- eight groups with colons between them; two colons together stand for one or more groups of zeros -/
def v6? (s : List Char) : Option (List Nat) :=
  match breakAt? "::".toList s with
  | none => (groups? true (fields s)).bind fun gs => if gs.length = 8 then some gs else none
  | some (a, b) =>
    match groups? false (fields a), groups? true (fields b) with
    | some m, some n =>
      if m.length + n.length < 8 then some (m ++ List.replicate (8 - m.length - n.length) 0 ++ n) else none
    | _, _ => none

/-- whether groups stand for a host of the fourth version -/
def isMapped (groups : List Nat) : Bool := groups.take 6 == [0, 0, 0, 0, 0, 0xffff]

/-- whether groups name one host on a link -/
def isLinkLocal (groups : List Nat) : Bool := groups.head?.any fun n => n / 64 == 0xfe80 / 64

/-- whether groups name many hosts -/
def isMulticast (groups : List Nat) : Bool := groups.head?.any fun n => n / 256 == 0xff

/-- how far many hosts are spread: one for an interface, two for a link, more for what is larger -/
def reach (groups : List Nat) : Nat := groups.headD 0 % 16

/-- whether groups mean something on one link only -/
def isOfOneLink (groups : List Nat) : Bool :=
  isLinkLocal groups || (isMulticast groups && (reach groups == 1 || reach groups == 2))

/-! ## Zones -/

/-- a host and the zone after it, if there is one -/
def parted (s : List Char) : List Char × Option (List Char) :=
  match breakAt? ['%'] s with
  | some (host, zone) => (host, some zone)
  | none => (s, none)

def zoneNumber? (zone : List Char) : Option Nat := if zone.all Char.isDigit then natural? UInt32.size zone else none

/-- the one interface of a host that is on no network, by name -/
def interface : String := "lo"

/-- a zone of groups: by number, or for what is on one link by the name of an interface -/
def zone? (groups : List Nat) (zone : List Char) : Option Nat :=
  match zoneNumber? zone with
  | some n => some n
  | none =>
    if isOfOneLink groups && zone == interface.toList then some 1 else none

/-- a host of the sixth version in brackets, its zone by number -/
def bracketed? (s : List Char) : Option Inet :=
  match s with
  | '[' :: r =>
    let (host, zone) := parted r.dropLast
    match v6? host, zone with
    | some gs, none => if r.getLast? = some ']' then some (v6 gs 0) else none
    | some gs, some z => if r.getLast? = some ']' then (zoneNumber? z).map (v6 gs ·) else none
    | none, _ => none
  | _ => none

end Inet
end LogRelay
