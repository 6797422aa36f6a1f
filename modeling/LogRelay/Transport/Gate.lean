/-
A transport in front of a gate.

The sink behind a gate lets one write through for each permit and answers from a script; when the script is used up it
takes every record whole. `Gated.rest` lets the workers go on until nothing more can happen: idle workers take what is
queued, permitted writes end in the order in which their records were handed in, and after the close the workers leave.
-/
import LogRelay.Transport.Shutdown

namespace LogRelay.Transport

/-- what the sink answers to a write -/
inductive Answer where
  /-- the record is taken whole -/
  | whole
  /-- so many octets are taken -/
  | count (n : Nat)
  | failure (f : Failure)
  | panic
  deriving DecidableEq, Repr

/-- a transport with a gated sink -/
structure Gated where
  transport : Transport
  script : List Answer
  /-- the permits left; none means that every write is let through -/
  permits : Option Nat
  /-- the records whose write was answered, the last first -/
  written : List Octets
  deriving Inhabited

namespace Gated

/-- whether the gate lets a write through -/
def isOpen (g : Gated) : Bool := g.permits != some 0

/-- the worker whose record was handed in first, among those that are writing -/
def firstWriter (t : Transport) : Option (Nat × Parcel) :=
  let writers := t.workers.zipIdx.filterMap fun (x, w) =>
    match x with
    | .writing p => some (w, p)
    | _ => none
  writers.foldl (fun best x => match best with
    | none => some x
    | some b => if x.2.ticket < b.2.ticket then some x else some b) none

/-- the write of a worker goes through the gate -/
def pass (g : Gated) (w : Nat) (p : Parcel) : Gated :=
  let (answer, script) := match g.script with
    | a :: as => (a, as)
    | [] => (.whole, [])
  let permits := g.permits.map (· - 1)
  match answer with
  | .panic => { g with transport := g.transport.panic w, script := script, permits := permits }
  | .whole => done g w p script permits (.ok p.buffer.size)
  | .count n => done g w p script permits (.ok n)
  | .failure f => done g w p script permits (.error f)
where
  /-- the write was answered -/
  done (g : Gated) (w : Nat) (p : Parcel) (script : List Answer) (permits : Option Nat)
      (answer : Except Failure Nat) : Gated :=
    ⟨g.transport.finish w answer, script, permits, p.buffer.content :: g.written⟩

/-- one thing that can happen, if there is one -/
def next? (g : Gated) : Option Gated :=
  let t := g.transport
  match t.workers.findIdx? (· = .idle), t.queue with
  | some w, _ :: _ => some { g with transport := t.take w }
  | idle, queue =>
    match if g.isOpen then firstWriter t else none with
    | some (w, p) => some (g.pass w p)
    | none =>
      match idle, queue with
      | some w, [] => if t.closed then some { g with transport := t.leave w } else none
      | _, _ => none

/-- up to `fuel` things happen -/
def restFor : Nat → Gated → Gated
  | 0, g => g
  | fuel + 1, g =>
    match g.next? with
    | some g => restFor fuel g
    | none => g

/-- everything that can happen does: each record is taken and written once, and each worker leaves once -/
def rest (g : Gated) : Gated := restFor (2 * (g.transport.queue.length + g.transport.workers.length)) g

/-- a gated transport that has just been set up, without permits; its threads are started -/
def new (o : Options) (script : List Answer) : Except Failure Gated :=
  (Transport.new o fun _ => none).map fun t => ⟨t, script, some 0, []⟩

def submit (g : Gated) (d : Draft) : Except Failure Unit × Gated :=
  let (r, t) := g.transport.submit d
  (r, { g with transport := t }.rest)

def permit (g : Gated) : Gated := { g with permits := g.permits.map (· + 1) }.rest

/-- every write is let through from now on -/
def openUp (g : Gated) : Gated := { g with permits := none }.rest

def close (g : Gated) : Gated := { g with transport := g.transport.close }.rest

/-- the transport is shut down, and the time given to the workers is up -/
def shutdown (g : Gated) (millis : Nat) : Bool × Gated :=
  let (s, t) := g.transport.beginShutdown
  let g := { g with transport := t }.rest
  match look (some millis) s.waiting s.clean g.transport with
  | (.answered clean, t) => (clean, { g with transport := t })
  | (.waiting _, t) => (false, { g with transport := t })

/-- the transport is dropped -/
def drop (g : Gated) : Gated :=
  let g := (g.shutdown patience).2
  { g with transport := g.transport.finale }

end Gated
end LogRelay.Transport
