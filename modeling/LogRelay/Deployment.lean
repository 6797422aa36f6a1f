/-
The loggers of a registry with the outlets behind their transports.

The workers of a transport are not seen at work here: `settle` lets them do what there is to do, so that after each call
all records handed in have been written, and the workers of a closed transport have left.
-/
import LogRelay.Outlet
import LogRelay.Registry

namespace LogRelay

/-- a registry, the outlet of each of its transports, and the world outside -/
structure Deployment (ε : Type) where
  registry : Registry
  outlets : List Outlet := []
  outside : ε

namespace Deployment

variable {ε : Type}

/-! ## The workers at work -/

/-- a transport with its outlet and the world outside -/
structure Line (ε : Type) where
  transport : Transport
  outlet : Outlet
  outside : ε

namespace Line

variable (net : Outlet.Networks ε) (owner : Nat)

/-- the first idle worker takes the head of the queue and writes it -/
def writeNext (l : Line ε) : Line ε :=
  match l.transport.workers.findIdx? (· = .idle) with
  | none => l
  | some w =>
    let t := l.transport.take w
    match t.workers[w]? with
    | some (.writing p) =>
      let (answer, o, e) := l.outlet.write net owner l.outside p.buffer.content
      ⟨t.finish w answer, o, e⟩
    | _ => l

/-- a worker leaves if it can; the last one closes the outlet -/
def leave (l : Line ε) (w : Nat) : Line ε :=
  let t := l.transport.leave w
  if t.sinkCloses = l.transport.sinkCloses then { l with transport := t }
  else
    let (o, e) := l.outlet.close net owner l.outside
    ⟨t, o, e⟩

/-- the queue is written, and after the close the workers leave -/
def settle (l : Line ε) : Line ε :=
  let l := (List.range l.transport.queue.length).foldl (fun l _ => l.writeNext net owner) l
  (List.range l.transport.workers.length).foldl (fun l w => l.leave net owner w) l

end Line

variable (net : Outlet.Networks ε)

/-- a transport does what there is to do -/
def settle (d : Deployment ε) (n : Nat) : Deployment ε :=
  match d.registry.transports[n]?, d.outlets[n]? with
  | some t, some o =>
    let l := Line.settle net n ⟨t, o, d.outside⟩
    ⟨d.registry.setTransport n l.transport, d.outlets.set n l.outlet, l.outside⟩
  | _, _ => d

/-- the transport of a logger does what there is to do -/
def settleOf (d : Deployment ε) (i : Nat) : Deployment ε :=
  match d.registry.loggers[i]? with
  | some l => d.settle net l.transport
  | none => d

/-! ## Loggers

Every thread that is asked for is started here, so a logger is refused only for a flaw in its configuration. Nothing
has changed then, and there is no other deployment to go on with.
-/

/-- what has become of an attempt to make a logger, when `go` is the deployment with its registry -/
def made (go : Registry → Deployment ε) : Except Failure Nat × Registry → Except Failure (Nat × Deployment ε)
  | (.ok i, r) => .ok (i, go r)
  | (.error f, _) => .error f

/-- a logger that keeps its records in memory -/
def keepingLogger (d : Deployment ε) (c : Config) : Except Failure (Nat × Deployment ε) :=
  made (fun r => { d with registry := r, outlets := d.outlets ++ [.memory []] }) (d.registry.ownLogger c fun _ => none)

/-- outlets are dialed for the transports that have none -/
def dialed (d : Deployment ε) (c : Config) (r : Registry) : Deployment ε :=
  if r.transports.length ≤ d.outlets.length then { d with registry := r }
  else
    let (o, e) := Outlet.dialing net d.outlets.length c.backoff c.network c.address d.outside
    ⟨r, d.outlets ++ [o], e⟩

/-- a logger with a transport of its own, dialed as its configuration says -/
def ownLogger (d : Deployment ε) (c : Config) : Except Failure (Nat × Deployment ε) :=
  made (d.dialed net c) (d.registry.ownLogger c fun _ => none)

/-- a logger that shares the transport of its key -/
def logger (d : Deployment ε) (c : Config) : Except Failure (Nat × Deployment ε) :=
  made (d.dialed net c) (d.registry.logger c fun _ => none)

/-! ## Calls -/

/-- a call to a logger at a moment: the record it asks for is handed in and written -/
def log (d : Deployment ε) (i : Nat) (c : Call) (now : Timestamp) (stack : List Frame) :
    Except Failure Unit × Deployment ε :=
  let (r, registry) := d.registry.log i c now stack
  (r, { d with registry := registry }.settleOf net i)

/-- what a flush answers, when all that was handed in has been written -/
def flush (d : Deployment ε) (i : Nat) : Except Failure Unit :=
  match d.registry.transportOf? i with
  | some (_, t) => t.flush .deadlineExceeded
  | none => .error .closed

/-- a logger is closed -/
def close (d : Deployment ε) (i : Nat) : Deployment ε := { d with registry := d.registry.close i }.settleOf net i

/-- a transport is closed, though none of its loggers is -/
def closeTransport (d : Deployment ε) (n : Nat) : Deployment ε :=
  { d with registry := d.registry.closeTransport n }.settle net n

/-- a logger is shut down: whether all its workers had left -/
def shutdown (d : Deployment ε) (i : Nat) : Bool × Deployment ε :=
  let (s, registry) := d.registry.beginShutdown i
  let d := { d with registry := registry }.settleOf net i
  match d.registry.transportOf? i with
  | some (n, t) =>
    match t.look (some Transport.patience) s.waiting s.clean with
    | (.answered clean, t) => (clean, { d with registry := d.registry.setTransport n t })
    | (.waiting _, _) => (false, d)
  | none => (true, d)

/-- the name of what a logger writes to -/
def outletName (d : Deployment ε) (i : Nat) : String :=
  (((d.registry.loggers[i]?).bind fun l => d.outlets[l.transport]?).map Outlet.name).getD ""

end Deployment
end LogRelay
