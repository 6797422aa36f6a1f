/-
Loggers that share transports.

A registry holds for each key the transport that loggers with this key share. A logger is made with the transport
registered under its key if that is open, and else with a new one, which takes its place. The first close of a logger
removes what is registered under its key and closes its transport for all who share it. `step` makes loggers, closes
them, shuts them down and removes entries, in any order; loggers and transports go by number and are never forgotten.
-/
import LogRelay.Logger
import LogRelay.Transport.Shutdown

namespace LogRelay

/-- the loggers of a process, their transports, and the transports registered by key -/
structure Registry where
  /-- the name of this host -/
  localName : String
  transports : List Transport := []
  loggers : List Logger := []
  entries : List (Key × Nat) := []
  deriving Inhabited

namespace Registry

/-! ## Entries -/

/-- the number of the transport registered under a key -/
def get? (r : Registry) (k : Key) : Option Nat := r.entries.lookup k

def contains (r : Registry) (k : Key) : Bool := (r.get? k).isSome

def size (r : Registry) : Nat := r.entries.length

def isEmpty (r : Registry) : Bool := r.entries.isEmpty

/-- nothing is registered under a key any more -/
def remove (r : Registry) (k : Key) : Registry := { r with entries := r.entries.filter fun e => e.1 != k }

/-- a transport takes its place under a key -/
def insert (r : Registry) (k : Key) (n : Nat) : Registry := { r with entries := (k, n) :: (r.remove k).entries }

/-! ## Transports -/

/-- whether a transport takes no more records -/
def isClosed (r : Registry) (n : Nat) : Bool := r.transports[n]?.all (·.closed)

def setTransport (r : Registry) (n : Nat) (t : Transport) : Registry := { r with transports := r.transports.set n t }

/-- a transport is closed, if there is one with this number -/
def closeTransport (r : Registry) (n : Nat) : Registry :=
  { r with transports := r.transports.modify n Transport.close }

/-- the open transport registered under a key -/
def shared? (r : Registry) (k : Key) : Option Nat := (r.get? k).filter fun n => !r.isClosed n

/-- one more transport, if its threads are started: its number, and the registry after the attempt -/
def addTransport (r : Registry) (c : Config) (denied : Nat → Option IoFailure) : Except Failure Nat × Registry :=
  match Transport.new (.ofConfig c) denied with
  | .ok t => (.ok r.transports.length, { r with transports := r.transports ++ [t] })
  | .error f => (.error f, r)

/-! ## Loggers -/

def addLogger (r : Registry) (l : Logger) : Nat × Registry := (r.loggers.length, { r with loggers := r.loggers ++ [l] })

/-- the transport of a logger, with its number -/
def transportOf? (r : Registry) (i : Nat) : Option (Nat × Transport) := do
  let l ← r.loggers[i]?
  let t ← r.transports[l.transport]?
  return (l.transport, t)

def setLogger (r : Registry) (i : Nat) (l : Logger) : Registry := { r with loggers := r.loggers.set i l }

/-- a logger with a transport of its own: its number, and the registry after the call -/
def ownLogger (r : Registry) (c : Config) (denied : Nat → Option IoFailure) : Except Failure Nat × Registry :=
  match c.validate with
  | .error f => (.error f, r)
  | .ok () =>
    match r.addTransport c denied with
    | (.error f, r) => (.error f, r)
    | (.ok n, r) =>
      let (i, r) := r.addLogger (.ofConfig c r.localName n none)
      (.ok i, r)

/-- the transport for a key: the open one that is registered, or else a new one, which is registered -/
def transportFor (r : Registry) (c : Config) (denied : Nat → Option IoFailure) : Except Failure Nat × Registry :=
  match r.shared? c.key with
  | some n => (.ok n, r)
  | none =>
    match r.addTransport c denied with
    | (.error f, r) => (.error f, r)
    | (.ok n, r) => (.ok n, r.insert c.key n)

/-- a logger that shares the transport of its key: its number, and the registry after the call -/
def logger (r : Registry) (c : Config) (denied : Nat → Option IoFailure) : Except Failure Nat × Registry :=
  match c.validate with
  | .error f => (.error f, r)
  | .ok () =>
    match r.transportFor c denied with
    | (.error f, r) => (.error f, r)
    | (.ok n, r) =>
      let (i, r) := r.addLogger (.ofConfig c r.localName n (some c.key))
      (.ok i, r)

def setLevel (r : Registry) (i : Nat) (s : Severity) : Registry :=
  match r.loggers[i]? with
  | some l => r.setLogger i (l.setLevel s)
  | none => r

/-- a logger is closed; a second close does nothing -/
def close (r : Registry) (i : Nat) : Registry :=
  match r.loggers[i]? with
  | none => r
  | some l =>
    if l.closed then r
    else
      let r := r.setLogger i { l with closed := true }
      let r := match l.key with
        | some k => r.remove k
        | none => r
      r.closeTransport l.transport

/-- a logger is closed and the shutdown of its transport begins -/
def beginShutdown (r : Registry) (i : Nat) : Transport.Shutdown × Registry :=
  let r := r.close i
  match r.transportOf? i with
  | some (n, t) =>
    let (s, t) := t.beginShutdown
    (s, r.setTransport n t)
  | none => (⟨[], true⟩, r)

/-- a call to a logger at a moment, with the transport of the logger -/
def log (r : Registry) (i : Nat) (c : Call) (now : Timestamp) (stack : List Frame) : Except Failure Unit × Registry :=
  match r.loggers[i]?, r.transportOf? i with
  | some l, some (n, t) =>
    let (answer, t) := l.call t c now stack
    (answer, r.setTransport n t)
  | _, _ => (.ok (), r)

/-! ## The machine -/

/-- the calls; for which workers of a new transport the system starts no thread, and why, comes with the call -/
inductive Op where
  | logger (c : Config) (denied : Nat → Option IoFailure := fun _ => none)
  | close (i : Nat)
  | shutdown (i : Nat)
  | remove (k : Key)

def step (r : Registry) : Op → Registry
  | .logger c denied => (r.logger c denied).2
  | .close i => r.close i
  | .shutdown i => (r.beginShutdown i).2
  | .remove k => r.remove k

def run (r : Registry) (ops : List Op) : Registry := ops.foldl step r

end Registry
end LogRelay
