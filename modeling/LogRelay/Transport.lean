/-
The transport: records are put into buffers by the callers, queued, and written to the sink by workers.

Two ceilings bound what is on its way: the number of records queued, and the octets of all buffers that are queued or
being written, counted by capacity. A record that would pass a ceiling is lost at once. The steps of the machine are
those that happen as one: a call hands in a record, an idle worker takes the head of the queue, a write ends, a write
panics and ends its worker, a worker leaves after the transport is closed and the queue is empty, and the transport is
closed. `step` takes any of them in any state, and changes nothing when the step is not possible there.

A flush waits until as many octets are released as had been queued when it began.
-/
import LogRelay.Config
import LogRelay.Pool
import LogRelay.Tally

namespace LogRelay

/-- a record that is still to be put into a buffer -/
structure Draft where
  text : Octets
  /-- the capacity of a buffer once the text is in it, from the capacity before -/
  room : Nat → Nat

/-- an empty buffer with a record put into it -/
def Draft.fill (d : Draft) (b : Buffer) : Buffer := ⟨b.content ++ d.text, d.room b.capacity⟩

/-- a record for which a buffer has room for at least `capacity` octets, exactly that when there was less -/
def Draft.sized (text : Octets) (capacity : Nat) : Draft := ⟨text, fun c => max c (max capacity text.length)⟩

/-- a record appended part by part to a buffer that grows as it must -/
def Draft.appended (parts : List Octets) : Draft :=
  ⟨parts.flatten, fun c => Buffer.grownBy c 0 parts⟩

/-- a buffer on its way, with the number of the call that handed it in -/
structure Parcel where
  ticket : Nat
  buffer : Buffer
  deriving DecidableEq, Repr, Inhabited

/-- what a worker is at -/
inductive Worker where
  | idle
  | writing (p : Parcel)
  /-- the worker has left in the ordinary way -/
  | left
  /-- the worker ended in a panic of the sink -/
  | dead
  deriving DecidableEq, Repr, Inhabited

/-- what the transport tells those who measure it -/
inductive Report where
  /-- the octets of a record handed in -/
  | size (n : Nat)
  /-- a change of the number of records on their way -/
  | messages (d : Int)
  /-- a change of the octets on their way -/
  | bytes (d : Int)
  | lost (c : LostCategory)
  /-- a write took its time -/
  | latency
  deriving DecidableEq, Repr

/-- what the transport tells those who watch it -/
inductive Notice where
  /-- records are being lost: how many, and the last one to what -/
  | losing (lost : Nat) (cause : Failure)
  /-- a lost record, on standard error -/
  | echo (record : Octets) (cause : Failure)
  /-- a worker was found dead, on standard error -/
  | workerDead
  /-- a worker was still busy when the time was up, on standard error -/
  | workerBusy (millis : Nat)
  /-- the transport ended with records lost -/
  | ended (tally : Tally)
  deriving DecidableEq, Repr

namespace Transport

/-- the settings of a transport -/
structure Options where
  workers : Nat
  queueCapacity : Nat
  bufferSize : Nat
  echo : Bool
  maxReusable : Nat
  deriving DecidableEq, Repr, Inhabited

/-- the settings of the transport of a logger -/
def Options.ofConfig (c : Config) : Options :=
  ⟨c.workerCount.toNat, c.queueCapacity.toNat, c.bufferSize.toNat, c.errorWriter, c.maxReusableBuffer.toNat⟩

end Transport

/-- The state of a transport. Its counts have no end: the octets on their way are memory in use, and of the other
counts a word of 64 bits would come to its end only after 2 ^ 64 records or octets. -/
structure Transport where
  options : Transport.Options
  pool : Pool
  /-- the parcels waiting, the first in first -/
  queue : List Parcel
  workers : List Worker
  tally : Tally
  /-- the octets on their way, and those ever queued and ever released -/
  inFlight : Nat
  enqueued : Nat
  completed : Nat
  closed : Bool
  /-- the workers that have not left in the ordinary way -/
  live : Nat
  /-- how often the sink was closed -/
  sinkCloses : Nat
  /-- the workers nobody has waited for yet -/
  unjoined : List Nat
  /-- what was told, the last first -/
  reports : List Report
  notices : List Notice
  deriving DecidableEq, Repr, Inhabited

namespace Transport

def start (o : Options) : Transport where
  options := o
  pool := Pool.new o.maxReusable Pool.defaultSlots
  queue := []
  workers := List.replicate o.workers .idle
  tally := {}
  inFlight := 0
  enqueued := 0
  completed := 0
  closed := false
  live := o.workers
  sinkCloses := 0
  unjoined := List.range o.workers
  reports := []
  notices := []

/-- A transport, if the settings allow one and each worker has a thread: `denied` says why the system starts none for
a worker, where it does not. The workers that had been started by then find nothing to do, and leave. -/
def new (o : Options) (denied : Nat → Option IoFailure) : Except Failure Transport :=
  if o.workers = 0 then .error (.invalidConfiguration "transport" "worker_count must be positive")
  else if o.queueCapacity = 0 then .error (.invalidConfiguration "transport" "queue_capacity must be positive")
  else
    match (List.range o.workers).findSome? denied with
    | some f => .error (.io f)
    | none => .ok (start o)

def report (t : Transport) (r : Report) : Transport := { t with reports := r :: t.reports }

def notify (t : Transport) (n : Notice) : Transport := { t with notices := n :: t.notices }

/-- whether the loss of a record is announced, when `before` were lost before it: the first is, and every thousandth -/
def announces (before : Nat) : Bool := before = 0 || (before + 1) % 1000 = 0

/-- a record is lost -/
def lose (t : Transport) (b : Buffer) (cause : Failure) : Transport :=
  let before := t.tally.lost
  let t := { t with tally := t.tally.addLost }.report (.lost cause.category)
  let t := if announces before then t.notify (.losing (before + 1) cause) else t
  if t.options.echo then t.notify (.echo b.content cause) else t

/-! ## Handing in -/

/-- octets are reserved, before it is known whether they fit -/
def reserve (t : Transport) (c : Nat) : Transport := { t with inFlight := t.inFlight + c }

/-- a reservation is taken back -/
def takeBack (t : Transport) (c : Nat) : Transport := { t with inFlight := t.inFlight - c }

/-- a parcel joins the queue, if the transport is open, its octets fit and there is a place -/
def enqueue (t : Transport) (p : Parcel) : Except Failure Unit × Transport :=
  if t.closed then (.error .closed, t)
  else
    let c := p.buffer.capacity
    let before := t.inFlight
    let t := t.reserve c
    if t.options.bufferSize < before + c then (.error (.memoryLimit before c t.options.bufferSize), t.takeBack c)
    else if t.options.queueCapacity ≤ t.queue.length then
      (.error (.queueFull t.queue.length t.options.queueCapacity), t.takeBack c)
    else
      let t := { t with queue := t.queue ++ [p], enqueued := t.enqueued + c }
      (.ok (), t.report (.messages 1) |>.report (.bytes c))

/-- what is left to do when a buffer has joined the queue, or has not: then its record is lost, and it goes back to
the pool -/
def afterEnqueue (b : Buffer) : Except Failure Unit × Transport → Except Failure Unit × Transport
  | (.ok (), t) => (.ok (), t)
  | (.error f, t) =>
    let t := t.lose b f
    (.error f, { t with pool := t.pool.put b })

/-- a call hands in a record: the answer, and the transport after it -/
def submit (t : Transport) (d : Draft) : Except Failure Unit × Transport :=
  let (empty, pool) := t.pool.get
  let b := d.fill empty
  let ticket := pool.count
  let t := { t with pool := pool.observe b.size }.report (.size b.size)
  afterEnqueue b (t.enqueue ⟨ticket, b⟩)

/-! ## Workers -/

/-- a worker turns to something else -/
def setWorker (t : Transport) (w : Nat) (x : Worker) : Transport := { t with workers := t.workers.set w x }

/-- an idle worker takes the head of the queue -/
def take (t : Transport) (w : Nat) : Transport :=
  match t.workers[w]?, t.queue with
  | some .idle, p :: ps => { t with queue := ps }.setWorker w (.writing p)
  | _, _ => t

def release (t : Transport) (c : Nat) : Transport :=
  { t with inFlight := t.inFlight - c, completed := t.completed + c
  }.report (.messages (-1)) |>.report (.bytes (-c))

/-- a buffer after its write, by what the sink answered: how many octets it took, or why it failed -/
def settle (t : Transport) (b : Buffer) : Except Failure Nat → Transport
  | .ok n =>
    if n = b.size then { t with pool := t.pool.put b, tally := t.tally.addSent }
    else t.lose b (.shortWrite n b.size)
  | .error f => t.lose b f

/-- the write of a worker ends -/
def finish (t : Transport) (w : Nat) (answer : Except Failure Nat) : Transport :=
  match t.workers[w]? with
  | some (.writing p) => (((t.report .latency).settle p.buffer answer).release p.buffer.capacity).setWorker w .idle
  | _ => t

/-- the sink panics in the write of a worker, which ends the worker -/
def panic (t : Transport) (w : Nat) : Transport :=
  match t.workers[w]? with
  | some (.writing _) => t.setWorker w .dead
  | _ => t

/-- an idle worker leaves, once there is nothing more to come; the last one closes the sink -/
def leave (t : Transport) (w : Nat) : Transport :=
  match t.workers[w]?, t.queue with
  | some .idle, [] =>
    if t.closed then
      { t.setWorker w .left with live := t.live - 1, sinkCloses := t.sinkCloses + if t.live = 1 then 1 else 0 }
    else t
  | _, _ => t

/-- no more records are taken -/
def close (t : Transport) : Transport := { t with closed := true }

/-! ## The machine -/

/-- the steps of the machine -/
inductive Op where
  | submit (d : Draft)
  | take (w : Nat)
  | finish (w : Nat) (answer : Except Failure Nat)
  | panic (w : Nat)
  | leave (w : Nat)
  | close

def step (t : Transport) : Op → Transport
  | .submit d => (t.submit d).2
  | .take w => t.take w
  | .finish w answer => t.finish w answer
  | .panic w => t.panic w
  | .leave w => t.leave w
  | .close => t.close

def run (t : Transport) (ops : List Op) : Transport := ops.foldl step t

/-! ## Flushing -/

/-- the octets whose release a flush waits for; there is no flush after the close -/
def beginFlush (t : Transport) : Except Failure Nat := if t.closed then .error .closed else .ok t.enqueued

/-- whether a flush that waits for `target` octets is done -/
def flushed (t : Transport) (target : Nat) : Bool := target ≤ t.completed

/-- what a flush answers when it looks for the last time, and else ends for `cause` -/
def endFlush (t : Transport) (target : Nat) (cause : Failure) : Except Failure Unit :=
  if t.flushed target then .ok () else .error cause

/-- what a flush answers while nothing is written: done already, or ended for `cause` -/
def flush (t : Transport) (cause : Failure) : Except Failure Unit :=
  t.beginFlush.bind fun target => t.endFlush target cause

end Transport
end LogRelay
