/-
Addresses of network sockets: a host and a port, parted at the last colon.

The port is read before the host. A host is given in numbers or by name; one of the sixth version may stand in
brackets. Of all names only that of the host itself is known here: for another name no answer comes, and what is no
name is not asked for. A kind of socket may be bound to one family of addresses.
-/
import LogRelay.Address.Name
import LogRelay.Address.Numeric

namespace LogRelay.Address

open Text

/-- why a text is no address of a socket -/
inductive Flaw where
  | noPort
  | badPort
  | nullInHost
  /-- the host has no name that could be asked for -/
  | unknownHost
  /-- nobody answers for the name of the host -/
  | noAnswer
  | wrongFamily
  deriving DecidableEq, Repr

def Flaw.message : Flaw → String
  | noPort => "invalid socket address"
  | badPort => "invalid port value"
  | nullInHost => "file name contained an unexpected NUL byte"
  | unknownHost => "failed to lookup address information: Name or service not known"
  | noAnswer => "failed to lookup address information: Temporary failure in name resolution"
  | wrongFamily => "no address for this network"

/-- the host with a name -/
def named (s : List Char) : Except Flaw Inet :=
  if Name.isOwn s then .ok .loopback
  else if Name.isName s then .error .noAnswer
  else .error .unknownHost

/-- a host without brackets -/
def lookUp (s : List Char) : Except Flaw Inet :=
  if s.contains '\x00' then .error .nullInHost
  else
    match Inet.v4? s with
    | some n => .ok (.v4 n)
    | none =>
      let (host, zone) := Inet.parted s
      match Inet.v6? host, zone with
      | none, _ => named s
      | some gs, none => .ok (.v6 gs 0)
      | some gs, some z =>
        match Inet.zone? gs z with
        | some n => .ok (.v6 gs n)
        | none => .error .unknownHost

/-- a host, when `plain` says that its port is digits alone; brackets need such a port -/
def host (s : List Char) (plain : Bool) : Except Flaw Inet :=
  match Inet.bracketed? s with
  | some a => if plain then .ok a else lookUp s
  | none => lookUp s

/-- the host of an address; `only` is the one family a kind of socket is bound to, if it is -/
def find (only : Option Family) (s : String) : Except Flaw Inet :=
  match breakLast? [':'] s.toList with
  | none => .error .noPort
  | some (h, port) =>
    if (natural? UInt16.size port).isNone then .error .badPort
    else
      match host h (port.all Char.isDigit) with
      | .error f => .error f
      | .ok a => if only.all (· == a.family) then .ok a else .error .wrongFamily

end LogRelay.Address
