/-
What a transport writes to: a memory that keeps every record, or a sink that dials again.
-/
import LogRelay.Redial

namespace LogRelay

/-- what a transport writes to -/
inductive Outlet where
  /-- every record is kept, the last first -/
  | memory (records : List Octets)
  /-- a sink that dials again, with the retry policy of its connections -/
  | redial (policy : Backoff) (system : Redial.System)

namespace Outlet

def name : Outlet → String
  | memory _ => "memory"
  | redial _ _ => "reconnecting"

/-- how often a connection was asked for -/
def dials : Outlet → Nat
  | memory _ => 0
  | redial _ s => s.sink.generation

/-- the records that were taken, whole or in part, the last first -/
def taken : Outlet → List Octets
  | memory records => records
  | redial _ s => s.links.filterMap fun
    | .wrote _ text (.ok _) => some text
    | _ => none

/-- the networks that outlets write to: one for each owner and retry policy -/
abbrev Networks (ε : Type) := Nat → Backoff → Redial.Network ε

variable {ε : Type} (net : Networks ε) (owner : Nat)

/-- an outlet that dials at once -/
def dialing (policy : Backoff) (network address : String) (e : ε) : Outlet × ε :=
  let (s, e) := (net owner policy).start e network address
  (redial policy s, e)

def write (o : Outlet) (e : ε) (text : Octets) : Except Failure Nat × Outlet × ε :=
  match o with
  | memory records => (.ok text.length, memory (text :: records), e)
  | redial policy s =>
    let (r, s, e) := (net owner policy).deliver s e text
    (r, redial policy s, e)

def close (o : Outlet) (e : ε) : Outlet × ε :=
  match o with
  | memory records => (memory records, e)
  | redial policy s =>
    let (_, s, e) := (net owner policy).closeSink s e
    (redial policy s, e)

end Outlet
end LogRelay
