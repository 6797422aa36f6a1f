/-
A network of the connections a host can open.

Several sinks may share one host. Each is an owner with a number, and its connections go by the owner and by the
number of the dial that opened them.
-/
import LogRelay.Connection
import LogRelay.Redial

namespace LogRelay.Redial

/-- a host with the connections opened on it, by owner and dial -/
structure Switchboard where
  host : Host := {}
  connections : List ((Nat × Nat) × Connection) := []
  deriving Inhabited

namespace Switchboard

/-- a connection takes its place -/
def plug (b : Switchboard) (key : Nat × Nat) (c : Connection) : Switchboard :=
  { b with connections := (key, c) :: b.connections.filter fun x => x.1 != key }

def dial (owner : Nat) (policy : Backoff) (b : Switchboard) (network address : String) (number : Nat) :
    Except Failure String × Switchboard :=
  match Connection.dial policy b.host network address with
  | (.ok c, h) => (.ok c.name, { b with host := h }.plug (owner, number) c)
  | (.error f, h) => (.error f, { b with host := h })

def write (owner : Nat) (b : Switchboard) (number : Nat) (text : Octets) : Except Failure Nat × Switchboard :=
  match b.connections.lookup (owner, number) with
  | some c =>
    let (r, c, h) := c.write b.host text
    (r, { b with host := h }.plug (owner, number) c)
  | none => (.error .notConnected, b)

/-- the close of a connection, which never fails -/
def close (owner : Nat) (b : Switchboard) (number : Nat) : Option Failure × Switchboard :=
  match b.connections.lookup (owner, number) with
  | some c => (none, b.plug (owner, number) c.close)
  | none => (none, b)

/-- the network one owner sees -/
def network (owner : Nat) (policy : Backoff) : Network Switchboard where
  dial := dial owner policy
  write := write owner
  close := close owner

end Switchboard
end LogRelay.Redial
