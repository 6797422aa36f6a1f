/-
A network that answers from a script.

Each dial takes the next entry of the plan: a failure, or a connection with a script of its own. When the plan is used
up a dial makes a connection with an empty script, and a connection with an empty script takes every record whole.
-/
import LogRelay.Redial
import LogRelay.Transport.Gate

namespace LogRelay.Redial

/-- a connection with its answers: those to writes in their order, and the one to its close -/
structure Scripted where
  answers : List Transport.Answer := []
  closing : Option Failure := none
  deriving Inhabited

/-- a network that answers from a script: the dials still planned, and the connections made by number -/
structure Stage where
  plan : List (Except Failure Scripted)
  connections : List (Nat × Scripted) := []
  deriving Inhabited

namespace Stage

def dial (st : Stage) (number : Nat) : Except Failure String × Stage :=
  match st.plan with
  | .error f :: rest => (.error f, { st with plan := rest })
  | .ok c :: rest => (.ok "scripted", ⟨rest, (number, c) :: st.connections⟩)
  | [] => (.ok "scripted", { st with connections := (number, {}) :: st.connections })

def write (st : Stage) (number : Nat) (text : Octets) : Except Failure Nat × Stage :=
  let c := (st.connections.lookup number).getD {}
  match c.answers with
  | [] => (.ok text.length, st)
  | a :: rest =>
    let st := { st with connections := (number, { c with answers := rest }) :: st.connections }
    match a with
    | .whole => (.ok text.length, st)
    | .count n => (.ok n, st)
    | .failure f => (.error f, st)
    | .panic => (.error .notConnected, st)

def close (st : Stage) (number : Nat) : Option Failure × Stage :=
  ((st.connections.lookup number).bind (·.closing), st)

/-- the network a script plays -/
def network : Network Stage where
  dial st _ _ number := st.dial number
  write := write
  close := close

end Stage
end LogRelay.Redial
