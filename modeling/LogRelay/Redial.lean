/-
A sink that dials again when its connection fails.

The connection is shared by all who write. A write has three sections, each of which happens as one: it tries the
connection there is; if that fails, and not for good, it makes a new connection, unless another write has done so
meanwhile; and it tries once more. `generation` counts the dials, and a write that saw an older generation than the
one in force finds the work done. A close is final.

`System` is the sink with any number of writes under way and the record of what was done to its connections. The answers
of the network, of a write, of a dial, of the close of a connection, are given with each step.
-/
import LogRelay.Failure
import LogRelay.Transport.Shutdown

namespace LogRelay.Redial

/-- what a sink is at -/
inductive Status where
  | disconnected
  | connecting
  | connected
  /-- for good -/
  | closed
  deriving DecidableEq, Repr, Inhabited

def Status.name : Status → String
  | disconnected => "Disconnected"
  | connecting => "Connecting"
  | connected => "Connected"
  | closed => "Closed"

/-- a sink that dials again; a connection goes by the number of the dial that made it -/
structure Sink where
  network : String
  address : String
  status : Status := .disconnected
  /-- the connection there is -/
  held : Option Nat := none
  /-- the dials so far; a word of 64 bits would come to its end only after 2 ^ 64 of them -/
  generation : Nat := 0
  deriving DecidableEq, Repr, Inhabited

/-- what is done to a connection -/
inductive Link where
  /-- a dial, with the name of the connection it makes or the failure -/
  | dialed (number : Nat) (answer : Except Failure String)
  | wrote (connection : Nat) (text : Octets) (answer : Except Failure Nat)
  | closed (connection : Nat)

/-- how far a write has come -/
inductive Phase where
  | begun
  /-- the first try failed, or there was no connection, in this generation -/
  | failed (observed : Nat)
  /-- there is a connection to try once more -/
  | renewed
  | answered (r : Except Failure Nat)

/-- the diagnostic of a first try that failed -/
def retrying (s : Sink) (f : Failure) : Diagnostic :=
  ⟨.debug, "write failed, reconnecting", [("network", s.network), ("error", f.message)]⟩

/-- the diagnostic of an old connection that could not be closed -/
def staleClose (s : Sink) (f : Failure) : Diagnostic :=
  ⟨.debug, "closing stale connection failed", [("network", s.network), ("error", f.message)]⟩

/-- the diagnostic of a dial -/
def dialing (s : Sink) : Except Failure String → Diagnostic
  | .ok name =>
    ⟨.debug, "log sink connected", [("network", s.network), ("address", s.address), ("writer", name)]⟩
  | .error f =>
    ⟨.debug, "log sink dial failed", [("network", s.network), ("address", s.address), ("error", f.message)]⟩

/-! ## Sections -/

/-- the first section: the sink is closed, or the connection there is answers -/
def Sink.first (s : Sink) (answer : Except Failure Nat) : Phase :=
  if s.status = .closed then .answered (.error .closed)
  else
    match s.held, answer with
    | none, _ => .failed s.generation
    | some _, .ok n => .answered (.ok n)
    | some _, .error f => if f.permanent then .answered (.error f) else .failed s.generation

/-- the connection the first section writes to, if it does -/
def Sink.target? (s : Sink) : Option Nat := if s.status = .closed then none else s.held

/-- whether the second section dials, for a write that saw generation `observed` -/
def Sink.dials (s : Sink) (observed : Nat) : Bool :=
  s.status != .closed && !(s.held.isSome && s.generation != observed)

/-- the sink after a dial -/
def Sink.dialed (s : Sink) : Except Failure String → Sink
  | .ok _ => { s with status := .connected, held := some (s.generation + 1), generation := s.generation + 1 }
  | .error _ => { s with status := .disconnected, held := none, generation := s.generation + 1 }

/-- the second section: what the write goes on with -/
def Sink.renewal (s : Sink) (observed : Nat) (answer : Except Failure String) : Phase :=
  if s.status = .closed then .answered (.error .closed)
  else if s.dials observed then
    match answer with
    | .ok _ => .renewed
    | .error _ => .answered (.error .notConnected)
  else .renewed

/-- the third section: the connection there is answers -/
def Sink.retry (s : Sink) (answer : Except Failure Nat) : Phase :=
  match s.held with
  | some _ => .answered answer
  | none => .answered (.error .notConnected)

/-! ## The machine -/

/-- a sink, the writes to it by number, and what was done to its connections and said about it, the last first -/
structure System where
  sink : Sink
  writes : List (Octets × Phase) := []
  links : List Link := []
  diagnostics : List Diagnostic := []
  deriving Inhabited

/-- the steps of the machine, with the answers of the network -/
inductive Op where
  /-- a write begins -/
  | start (text : Octets)
  | first (i : Nat) (answer : Except Failure Nat)
  /-- the second section, with what the close of the old connection and the dial answer -/
  | renew (i : Nat) (closing : Option Failure) (answer : Except Failure String)
  | retry (i : Nat) (answer : Except Failure Nat)
  | close

namespace System

/-- a write comes to another phase -/
def setPhase (s : System) (i : Nat) (text : Octets) (p : Phase) : System :=
  { s with writes := s.writes.set i (text, p) }

def link (s : System) (l : Link) : System := { s with links := l :: s.links }

def say (s : System) (d : Diagnostic) : System := { s with diagnostics := d :: s.diagnostics }

/-- the connection there is, if any, is closed and let go -/
def letGo (s : System) (closing : Option Failure) : System :=
  match s.sink.held with
  | none => s
  | some c =>
    let s := { s with sink := { s.sink with held := none } }.link (.closed c)
    match closing with
    | some f => s.say (staleClose s.sink f)
    | none => s

/-- a connection takes the place of the one there is -/
def connect (s : System) (closing : Option Failure) (answer : Except Failure String) : System :=
  let s := s.letGo closing
  { s with sink := s.sink.dialed answer }.link (.dialed (s.sink.generation + 1) answer)
    |>.say (dialing s.sink answer)

def first (s : System) (i : Nat) (text : Octets) (answer : Except Failure Nat) : System :=
  let t := match s.sink.target? with
    | some c => s.link (.wrote c text answer)
    | none => s
  let t := match s.sink.target?, s.sink.first answer, answer with
    | some _, .failed _, .error f => t.say (retrying s.sink f)
    | _, _, _ => t
  t.setPhase i text (s.sink.first answer)

/-- a new connection, if one is needed -/
def renew (s : System) (i : Nat) (text : Octets) (observed : Nat) (closing : Option Failure)
    (answer : Except Failure String) : System :=
  let t := if s.sink.dials observed then s.connect closing answer else s
  t.setPhase i text (s.sink.renewal observed answer)

def retry (s : System) (i : Nat) (text : Octets) (answer : Except Failure Nat) : System :=
  let t := match s.sink.held with
    | some c => s.link (.wrote c text answer)
    | none => s
  t.setPhase i text (s.sink.retry answer)

/-- the sink is closed; a second close does nothing -/
def close (s : System) : System :=
  if s.sink.status = .closed then s
  else
    let t := { s with sink := { s.sink with status := .closed, held := none } }
    match s.sink.held with
    | some c => t.link (.closed c)
    | none => t

/-- one step; a step that is not possible changes nothing -/
def step (s : System) : Op → System
  | .start text => { s with writes := s.writes ++ [(text, .begun)] }
  | .first i answer =>
    match s.writes[i]? with
    | some (text, .begun) => s.first i text answer
    | _ => s
  | .renew i closing answer =>
    match s.writes[i]? with
    | some (text, .failed observed) => s.renew i text observed closing answer
    | _ => s
  | .retry i answer =>
    match s.writes[i]? with
    | some (text, .renewed) => s.retry i text answer
    | _ => s
  | .close => s.close

/-- a run of steps -/
def run (s : System) (ops : List Op) : System := ops.foldl step s

def start (network address : String) (answer : Except Failure String) : System :=
  connect { sink := { network := network, address := address } } none answer

end System

/-! ## Against a network -/

/-- a network with a state: it dials, writes and closes; the connection a dial makes goes by a number it is given -/
structure Network (ε : Type) where
  dial : ε → String → String → Nat → Except Failure String × ε
  write : ε → Nat → Octets → Except Failure Nat × ε
  close : ε → Nat → Option Failure × ε

namespace Network

variable {ε : Type} (net : Network ε)

def start (e : ε) (network address : String) : System × ε :=
  let (answer, e) := net.dial e network address 1
  (System.start network address answer, e)

def first (s : System) (e : ε) (i : Nat) (text : Octets) : System × ε :=
  match s.sink.target? with
  | some c =>
    let (answer, e) := net.write e c text
    (s.step (.first i answer), e)
  | none => (s.step (.first i (.error .notConnected)), e)

/-- the second section of write `i`, if it comes to that -/
def renew (s : System) (e : ε) (i : Nat) : System × ε :=
  match s.writes[i]? with
  | some (_, .failed observed) =>
    if s.sink.dials observed then
      let (closing, e) := match s.sink.held with
        | some c => net.close e c
        | none => (none, e)
      let (answer, e) := net.dial e s.sink.network s.sink.address (s.sink.generation + 1)
      (s.step (.renew i closing answer), e)
    else (s.step (.renew i none (.error .notConnected)), e)
  | _ => (s, e)

/-- the third section of write `i`, if it comes to that -/
def retry (s : System) (e : ε) (i : Nat) : System × ε :=
  match s.writes[i]? with
  | some (text, .renewed) =>
    match s.sink.held with
    | some c =>
      let (answer, e) := net.write e c text
      (s.step (.retry i answer), e)
    | none => (s.step (.retry i (.error .notConnected)), e)
  | _ => (s, e)

/-- what write `i` answered -/
def answerOf (s : System) (i : Nat) : Except Failure Nat :=
  match s.writes[i]? with
  | some (_, .answered r) => r
  | _ => .error .notConnected

/-- a write from begin to end, with no other between -/
def deliver (s : System) (e : ε) (text : Octets) : Except Failure Nat × System × ε :=
  let i := s.writes.length
  let (s, e) := net.first (s.step (.start text)) e i text
  let (s, e) := net.renew s e i
  let (s, e) := net.retry s e i
  (answerOf s i, s, e)

/-- two writes of which each section of the one is followed by the same section of the other -/
def deliverPair (s : System) (e : ε) (a b : Octets) : Except Failure Nat × Except Failure Nat × System × ε :=
  let i := s.writes.length
  let (s, e) := net.first (s.step (.start a)) e i a
  let (s, e) := net.first (s.step (.start b)) e (i + 1) b
  let (s, e) := net.renew s e i
  let (s, e) := net.renew s e (i + 1)
  let (s, e) := net.retry s e i
  let (s, e) := net.retry s e (i + 1)
  (answerOf s i, answerOf s (i + 1), s, e)

/-- the sink is closed; a second close does nothing -/
def closeSink (s : System) (e : ε) : Except Failure Unit × System × ε :=
  match s.sink.target? with
  | some c =>
    let (closing, e) := net.close e c
    ((match closing with
      | some f => .error f
      | none => .ok ()), s.step .close, e)
  | none => (.ok (), s.step .close, e)

end Network
end LogRelay.Redial
