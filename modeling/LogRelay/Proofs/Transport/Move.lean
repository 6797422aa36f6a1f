/-
What one step of a transport does.

`Move t op t'` lists all that can happen in a step, each with the condition under which it happens and the state it
leads to:
- a record handed in is accepted (it joins the queue) or refused (it is lost, and its buffer goes back to the pool);
- an idle worker takes the head of the queue; a write ends; a write panics; an idle worker leaves;
- the transport is closed;
- the step is not possible in this state, and nothing changes.
`step_move`: every step is one of these, so what each of them preserves is preserved by every run.

A parcel is pending from the moment it joins the queue until its write ends. The lemmas `pending_accept`, `pending_take`
and `pending_finish` say how the pending parcels change, up to their order: one comes in, none is lost, one goes.
-/
import Mathlib.Tactic
import LogRelay.Transport

namespace LogRelay

def Worker.parcel? : Worker → Option Parcel
  | writing p => some p
  | _ => none

namespace Transport

/-! ## Runs -/

/-- the record a step hands in -/
def Op.draft? : Op → Option Draft
  | submit d => some d
  | _ => none

def Op.isPanic : Op → Bool
  | panic _ => true
  | _ => false

/-- the records handed in by a run, in order -/
def drafts (ops : List Op) : List Draft := ops.filterMap Op.draft?

/-- the sink never panics -/
def Calm (ops : List Op) : Prop := ∀ op ∈ ops, op.isPanic = false

instance (ops : List Op) : Decidable (Calm ops) := by unfold Calm; infer_instance

theorem drafts_append (a b : List Op) : drafts (a ++ b) = drafts a ++ drafts b := by simp [drafts]

theorem Calm.head {op : Op} {ops : List Op} (h : Calm (op :: ops)) : op.isPanic = false := h op List.mem_cons_self

theorem Calm.tail {op : Op} {ops : List Op} (h : Calm (op :: ops)) : Calm ops :=
  fun o ho => h o (List.mem_cons_of_mem op ho)

theorem run_cons (t : Transport) (op : Op) (ops : List Op) : t.run (op :: ops) = (t.step op).run ops := rfl

/-! ## Parcels on their way -/

/-- the parcels being written -/
def writing (t : Transport) : List Parcel := t.workers.filterMap Worker.parcel?

/-- the parcels on their way: those that wait and those being written -/
def pending (t : Transport) : List Parcel := t.queue ++ t.writing

@[simp] theorem writing_start (o : Options) : (start o).writing = [] := by
  simp only [writing, start]
  exact List.filterMap_replicate_of_none rfl

@[simp] theorem pending_start (o : Options) : (start o).pending = [] := by
  rw [pending, writing_start]
  rfl

/-- the octets that parcels take up -/
def load (ps : List Parcel) : Nat := (ps.map fun p => p.buffer.capacity).sum

@[simp] theorem load_nil : load [] = 0 := rfl

@[simp] theorem load_cons (p : Parcel) (ps : List Parcel) : load (p :: ps) = p.buffer.capacity + load ps := by
  simp [load]

@[simp] theorem load_append (a b : List Parcel) : load (a ++ b) = load a + load b := by simp [load]

theorem load_perm {a b : List Parcel} (h : a.Perm b) : load a = load b := (h.map _).sum_eq

/-- parcels of at least `m` octets each take up at least that many together -/
theorem length_mul_le_load (m : Nat) (ps : List Parcel) (h : ∀ p ∈ ps, m ≤ p.buffer.capacity) :
    ps.length * m ≤ load ps := by
  induction ps with
  | nil => simp
  | cons p ps ih =>
    have h1 := h p List.mem_cons_self
    have h2 := ih fun q hq => h q (List.mem_cons_of_mem p hq)
    rw [List.length_cons, load_cons, Nat.succ_mul]
    omega

/-! ## Lost records and settled writes -/

section Frame

variable (t : Transport) (b : Buffer) (f : Failure)

/-- a loss touches the tally, the reports and the notices -/
theorem lose_eq : t.lose b f =
    { t with
      tally := t.tally.addLost, reports := .lost f.category :: t.reports, notices := (t.lose b f).notices } := by
  unfold lose
  dsimp only
  split_ifs <;> rfl

@[simp] theorem lose_options : (t.lose b f).options = t.options := by rw [lose_eq]

@[simp] theorem lose_pool : (t.lose b f).pool = t.pool := by rw [lose_eq]

@[simp] theorem lose_queue : (t.lose b f).queue = t.queue := by rw [lose_eq]

@[simp] theorem lose_workers : (t.lose b f).workers = t.workers := by rw [lose_eq]

@[simp] theorem lose_tally : (t.lose b f).tally = t.tally.addLost := by rw [lose_eq]

@[simp] theorem lose_inFlight : (t.lose b f).inFlight = t.inFlight := by rw [lose_eq]

@[simp] theorem lose_enqueued : (t.lose b f).enqueued = t.enqueued := by rw [lose_eq]

@[simp] theorem lose_completed : (t.lose b f).completed = t.completed := by rw [lose_eq]

@[simp] theorem lose_reports : (t.lose b f).reports = .lost f.category :: t.reports := by rw [lose_eq]

@[simp] theorem lose_closed : (t.lose b f).closed = t.closed := by rw [lose_eq]

@[simp] theorem lose_live : (t.lose b f).live = t.live := by rw [lose_eq]

@[simp] theorem lose_sinkCloses : (t.lose b f).sinkCloses = t.sinkCloses := by rw [lose_eq]

@[simp] theorem lose_unjoined : (t.lose b f).unjoined = t.unjoined := by rw [lose_eq]

end Frame

/-- whether the sink took a record whole -/
def tookWhole (b : Buffer) : Except Failure Nat → Bool
  | .ok n => n == b.size
  | .error _ => false

/-- a write that took the record whole is settled as sent, every other one as a loss -/
theorem settle_cases (t : Transport) (b : Buffer) (answer : Except Failure Nat) :
    (tookWhole b answer = true ∧ t.settle b answer = { t with pool := t.pool.put b, tally := t.tally.addSent }) ∨
      tookWhole b answer = false ∧ ∃ f, t.settle b answer = t.lose b f := by
  cases answer with
  | ok n =>
    by_cases h : n = b.size
    · exact Or.inl ⟨by simp [tookWhole, h], by simp [settle, h]⟩
    · exact Or.inr ⟨by simp [tookWhole, h], .shortWrite n b.size, by simp [settle, h]⟩
  | error f => exact Or.inr ⟨rfl, f, rfl⟩

section Frame

variable (t : Transport) (b : Buffer) (answer : Except Failure Nat)

@[simp] theorem settle_options : (t.settle b answer).options = t.options := by
  rcases settle_cases t b answer with ⟨-, h⟩ | ⟨-, f, h⟩ <;> simp [h]

@[simp] theorem settle_queue : (t.settle b answer).queue = t.queue := by
  rcases settle_cases t b answer with ⟨-, h⟩ | ⟨-, f, h⟩ <;> simp [h]

@[simp] theorem settle_workers : (t.settle b answer).workers = t.workers := by
  rcases settle_cases t b answer with ⟨-, h⟩ | ⟨-, f, h⟩ <;> simp [h]

@[simp] theorem settle_inFlight : (t.settle b answer).inFlight = t.inFlight := by
  rcases settle_cases t b answer with ⟨-, h⟩ | ⟨-, f, h⟩ <;> simp [h]

@[simp] theorem settle_enqueued : (t.settle b answer).enqueued = t.enqueued := by
  rcases settle_cases t b answer with ⟨-, h⟩ | ⟨-, f, h⟩ <;> simp [h]

@[simp] theorem settle_completed : (t.settle b answer).completed = t.completed := by
  rcases settle_cases t b answer with ⟨-, h⟩ | ⟨-, f, h⟩ <;> simp [h]

@[simp] theorem settle_closed : (t.settle b answer).closed = t.closed := by
  rcases settle_cases t b answer with ⟨-, h⟩ | ⟨-, f, h⟩ <;> simp [h]

@[simp] theorem settle_live : (t.settle b answer).live = t.live := by
  rcases settle_cases t b answer with ⟨-, h⟩ | ⟨-, f, h⟩ <;> simp [h]

@[simp] theorem settle_sinkCloses : (t.settle b answer).sinkCloses = t.sinkCloses := by
  rcases settle_cases t b answer with ⟨-, h⟩ | ⟨-, f, h⟩ <;> simp [h]

@[simp] theorem settle_unjoined : (t.settle b answer).unjoined = t.unjoined := by
  rcases settle_cases t b answer with ⟨-, h⟩ | ⟨-, f, h⟩ <;> simp [h]

end Frame

/-! ## Moves -/

/-- the parcel a call makes of its record -/
def incoming (t : Transport) (d : Draft) : Parcel := ⟨t.pool.count, d.fill t.pool.get.1⟩

/-- the transport once a record is in a buffer and its length is known -/
def prepared (t : Transport) (d : Draft) : Transport :=
  { t with pool := t.pool.get.2.observe (t.incoming d).buffer.size }.report (.size (t.incoming d).buffer.size)

/-- why a buffer of capacity `c` is refused, if it is -/
def refusal? (t : Transport) (c : Nat) : Option Failure :=
  if t.closed then some .closed
  else if t.options.bufferSize < t.inFlight + c then some (.memoryLimit t.inFlight c t.options.bufferSize)
  else if t.options.queueCapacity ≤ t.queue.length then some (.queueFull t.queue.length t.options.queueCapacity)
  else none

/-- the transport once a parcel has joined the queue -/
def joined (t : Transport) (p : Parcel) : Transport :=
  { t with
    queue := t.queue ++ [p]
    inFlight := t.inFlight + p.buffer.capacity
    enqueued := t.enqueued + p.buffer.capacity
  }.report (.messages 1) |>.report (.bytes p.buffer.capacity)

/-- the transport once a record is refused for `f` -/
def refused (t : Transport) (d : Draft) (f : Failure) : Transport :=
  { (t.prepared d).lose (t.incoming d).buffer f with pool := (t.prepared d).pool.put (t.incoming d).buffer }

section Frame

variable (t : Transport) (d : Draft) (f : Failure)

@[simp] theorem refused_options : (t.refused d f).options = t.options := by simp [refused, prepared, report]

@[simp] theorem refused_queue : (t.refused d f).queue = t.queue := by simp [refused, prepared, report]

@[simp] theorem refused_workers : (t.refused d f).workers = t.workers := by simp [refused, prepared, report]

@[simp] theorem refused_inFlight : (t.refused d f).inFlight = t.inFlight := by simp [refused, prepared, report]

@[simp] theorem refused_enqueued : (t.refused d f).enqueued = t.enqueued := by simp [refused, prepared, report]

@[simp] theorem refused_completed : (t.refused d f).completed = t.completed := by simp [refused, prepared, report]

@[simp] theorem refused_closed : (t.refused d f).closed = t.closed := by simp [refused, prepared, report]

@[simp] theorem refused_live : (t.refused d f).live = t.live := by simp [refused, prepared, report]

@[simp] theorem refused_sinkCloses : (t.refused d f).sinkCloses = t.sinkCloses := by simp [refused, prepared, report]

@[simp] theorem refused_unjoined : (t.refused d f).unjoined = t.unjoined := by simp [refused, prepared, report]

end Frame

/-- the transport once a worker has taken a parcel, which leaves `ps` in the queue -/
def taken (t : Transport) (w : Nat) (p : Parcel) (ps : List Parcel) : Transport :=
  { t with queue := ps }.setWorker w (.writing p)

/-- the transport once a worker has left; the last one closes the sink -/
def quit (t : Transport) (w : Nat) : Transport :=
  { t.setWorker w .left with live := t.live - 1, sinkCloses := t.sinkCloses + if t.live = 1 then 1 else 0 }

/-- the transport once the write of a parcel was answered -/
def finished (t : Transport) (w : Nat) (p : Parcel) (answer : Except Failure Nat) : Transport :=
  (((t.report .latency).settle p.buffer answer).release p.buffer.capacity).setWorker w .idle

section Frame

variable (t : Transport) (w : Nat) (p : Parcel) (answer : Except Failure Nat)

@[simp] theorem finished_workers : (t.finished w p answer).workers = t.workers.set w .idle := by
  simp [finished, setWorker, release, report]

@[simp] theorem finished_queue : (t.finished w p answer).queue = t.queue := by
  simp [finished, setWorker, release, report]

@[simp] theorem finished_inFlight : (t.finished w p answer).inFlight = t.inFlight - p.buffer.capacity := by
  simp [finished, setWorker, release, report]

@[simp] theorem finished_enqueued : (t.finished w p answer).enqueued = t.enqueued := by
  simp [finished, setWorker, release, report]

@[simp] theorem finished_completed : (t.finished w p answer).completed = t.completed + p.buffer.capacity := by
  simp [finished, setWorker, release, report]

@[simp] theorem finished_closed : (t.finished w p answer).closed = t.closed := by
  simp [finished, setWorker, release, report]

@[simp] theorem finished_live : (t.finished w p answer).live = t.live := by simp [finished, setWorker, release, report]

@[simp] theorem finished_sinkCloses : (t.finished w p answer).sinkCloses = t.sinkCloses := by
  simp [finished, setWorker, release, report]

@[simp] theorem finished_unjoined : (t.finished w p answer).unjoined = t.unjoined := by
  simp [finished, setWorker, release, report]

end Frame

def Enabled (t : Transport) : Op → Prop
  | .submit _ => True
  | .take w => t.workers[w]? = some .idle ∧ t.queue ≠ []
  | .finish w _ => ∃ p, t.workers[w]? = some (.writing p)
  | .panic w => ∃ p, t.workers[w]? = some (.writing p)
  | .leave w => t.workers[w]? = some .idle ∧ t.queue = [] ∧ t.closed = true
  | .close => True

/-- what a step does, by its kind and by what it finds -/
inductive Move (t : Transport) : Op → Transport → Prop
  | accept (d : Draft) (h : t.refusal? (t.incoming d).buffer.capacity = none) :
      Move t (.submit d) ((t.prepared d).joined (t.incoming d))
  | refuse (d : Draft) (f : Failure) (h : t.refusal? (t.incoming d).buffer.capacity = some f) :
      Move t (.submit d) (t.refused d f)
  | take (w : Nat) (p : Parcel) (ps : List Parcel) (hw : t.workers[w]? = some .idle) (hq : t.queue = p :: ps) :
      Move t (.take w) (t.taken w p ps)
  | finish (w : Nat) (p : Parcel) (answer : Except Failure Nat) (hw : t.workers[w]? = some (.writing p)) :
      Move t (.finish w answer) (t.finished w p answer)
  | panic (w : Nat) (p : Parcel) (hw : t.workers[w]? = some (.writing p)) : Move t (.panic w) (t.setWorker w .dead)
  | leave (w : Nat) (hw : t.workers[w]? = some .idle) (hq : t.queue = []) (hc : t.closed = true) :
      Move t (.leave w) (t.quit w)
  | close : Move t .close t.close
  | rest (op : Op) (h : ¬ t.Enabled op) : Move t op t

/-- a buffer is accepted when the transport is open, the octets fit and there is a place in the queue -/
theorem refusal?_eq_none {t : Transport} {c : Nat} : t.refusal? c = none ↔
    t.closed = false ∧ t.inFlight + c ≤ t.options.bufferSize ∧ t.queue.length < t.options.queueCapacity := by
  unfold refusal?
  split_ifs with h1 h2 h3
  · simp [h1]
  · simp; omega
  · simp; omega
  · simp only [true_iff]
    exact ⟨by simpa using h1, by omega, by omega⟩

/-- a record can always be handed in, so a step that is not possible hands in none -/
theorem drafts_of_not_enabled {t : Transport} {op : Op} (h : ¬ t.Enabled op) : drafts [op] = [] := by
  cases op with
  | submit d => exact absurd trivial h
  | _ => rfl

theorem get_count (p : Pool) : p.get.2.count = p.count := by
  unfold Pool.get
  split <;> rfl

@[simp] theorem reserve_options (t : Transport) (c : Nat) : (t.reserve c).options = t.options := rfl

@[simp] theorem reserve_queue (t : Transport) (c : Nat) : (t.reserve c).queue = t.queue := rfl

@[simp] theorem takeBack_reserve (t : Transport) (c : Nat) : (t.reserve c).takeBack c = t := by
  simp [takeBack, reserve]

/-- what was reserved for a parcel that finds no place is taken back, and nothing is left of the attempt -/
theorem enqueue_eq (t : Transport) (p : Parcel) :
    t.enqueue p = match t.refusal? p.buffer.capacity with
      | some f => (.error f, t)
      | none => (.ok (), t.joined p) := by
  simp only [enqueue, refusal?, reserve_options, reserve_queue, takeBack_reserve]
  split_ifs <;> rfl

/-- a call finds the transport as it is: whether its record is accepted depends on the state before it -/
theorem submit_eq (t : Transport) (d : Draft) :
    t.submit d = match t.refusal? (t.incoming d).buffer.capacity with
      | some f => (.error f, t.refused d f)
      | none => (.ok (), (t.prepared d).joined (t.incoming d)) := by
  have hcall : t.submit d = afterEnqueue (t.incoming d).buffer ((t.prepared d).enqueue (t.incoming d)) := by
    -- to take a buffer counts no record, so the parcel has the number of the calls before it
    have hticket : t.incoming d = ⟨t.pool.get.2.count, d.fill t.pool.get.1⟩ := by
      rw [get_count]
      rfl
    rw [hticket]
    rfl
  have hreason : (t.prepared d).refusal? = t.refusal? := rfl
  rw [hcall, enqueue_eq, hreason]
  cases t.refusal? (t.incoming d).buffer.capacity with
  | none => rfl
  | some f =>
    show afterEnqueue (t.incoming d).buffer (.error f, t.prepared d) = (.error f, t.refused d f)
    simp only [afterEnqueue, refused, lose_pool]

/-- **Every step is a move.** -/
theorem step_move (t : Transport) (op : Op) : Move t op (t.step op) := by
  cases op with
  | submit d =>
    simp only [step, submit_eq]
    split
    · rename_i f h; exact .refuse d f h
    · rename_i h; exact .accept d h
  | take w =>
    simp only [step, Transport.take]
    split
    · rename_i p ps hw hq; exact .take w p ps hw hq
    · rename_i hno
      refine .rest _ ?_
      rintro ⟨hw, hq⟩
      obtain ⟨p, ps, hq'⟩ := List.exists_cons_of_ne_nil hq
      exact hno p ps hw hq'
  | finish w answer =>
    simp only [step, Transport.finish]
    split
    · rename_i p hw; exact .finish w p answer hw
    · rename_i hno; exact .rest _ fun ⟨p, hw⟩ => hno p hw
  | panic w =>
    simp only [step, Transport.panic]
    split
    · rename_i p hw; exact .panic w p hw
    · rename_i hno; exact .rest _ fun ⟨p, hw⟩ => hno p hw
  | leave w =>
    simp only [step, Transport.leave]
    split
    · rename_i hw hq
      by_cases hc : t.closed = true
      · rw [if_pos hc]; exact .leave w hw hq hc
      · rw [if_neg hc]; exact .rest _ fun h => hc h.2.2
    · rename_i hno; exact .rest _ fun h => hno h.1 h.2.1
  | close => exact .close

/-! ## How the pending parcels change -/

/-- the place of a worker among the others -/
theorem exists_around {ws : List Worker} {w : Nat} {x : Worker} (h : ws[w]? = some x) :
    ∃ a b, ws = a ++ x :: b ∧ ∀ y, ws.set w y = a ++ y :: b := by
  obtain ⟨hw, rfl⟩ := List.getElem?_eq_some_iff.1 h
  refine ⟨ws.take w, ws.drop (w + 1), ?_, fun y => List.set_eq_take_append_cons_drop.trans (by simp [hw])⟩
  rw [List.cons_getElem_drop_succ, List.take_append_drop]

/-- how many workers are at something changes by the worker that turns to something else -/
theorem countP_workers_set {ws : List Worker} {w : Nat} {x : Worker} (q : Worker → Bool)
    (h : ws[w]? = some x) (y : Worker) :
    (ws.set w y).countP q + (if q x then 1 else 0) = ws.countP q + (if q y then 1 else 0) := by
  obtain ⟨a, b, h1, h2⟩ := exists_around h
  rw [h2, h1, List.countP_append, List.countP_append, List.countP_cons, List.countP_cons]
  omega

/-- a step changes at most one worker, and none that has left or is dead -/
theorem step_workers (t : Transport) (op : Op) : (t.step op).workers = t.workers ∨
    ∃ w x y, t.workers[w]? = some x ∧ x ≠ .left ∧ x ≠ .dead ∧ (t.step op).workers = t.workers.set w y := by
  have hm := step_move t op
  generalize t.step op = t' at hm ⊢
  cases hm with
  | accept d hr => exact Or.inl rfl
  | refuse d f hr => exact Or.inl (refused_workers t d f)
  | take w p ps hw hq => exact Or.inr ⟨w, .idle, .writing p, hw, by simp, by simp, rfl⟩
  | finish w p answer hw =>
    exact Or.inr ⟨w, .writing p, .idle, hw, by simp, by simp, finished_workers t w p answer⟩
  | panic w p hw => exact Or.inr ⟨w, .writing p, .dead, hw, by simp, by simp, rfl⟩
  | leave w hw hq hc => exact Or.inr ⟨w, .idle, .left, hw, by simp, by simp, rfl⟩
  | close => exact Or.inl rfl
  | rest op hr => exact Or.inl rfl

/-- no worker comes or goes for good -/
theorem step_workers_length (t : Transport) (op : Op) : (t.step op).workers.length = t.workers.length := by
  rcases step_workers t op with h | ⟨w, x, y, -, -, -, h⟩
  · rw [h]
  · rw [h, List.length_set]

theorem run_workers_length (t : Transport) (ops : List Op) : (t.run ops).workers.length = t.workers.length := by
  induction ops generalizing t with
  | nil => rfl
  | cons op ops ih => rw [run_cons, ih, step_workers_length]

theorem pending_accept (t : Transport) (d : Draft) (p : Parcel) :
    ((t.prepared d).joined p).pending.Perm (p :: t.pending) := by
  show ((t.queue ++ [p]) ++ t.writing).Perm (p :: (t.queue ++ t.writing))
  rw [List.append_assoc]
  exact List.perm_middle

theorem writing_take {t : Transport} {w : Nat} (p : Parcel) (ps : List Parcel) (hw : t.workers[w]? = some .idle) :
    (t.taken w p ps).writing.Perm (p :: t.writing) := by
  obtain ⟨a, b, h1, h2⟩ := exists_around hw
  simp only [writing, taken, setWorker, h2]
  rw [h1]
  simp only [List.filterMap_append, List.filterMap_cons, Worker.parcel?]
  exact List.perm_middle

theorem pending_take {t : Transport} {w : Nat} {p : Parcel} {ps : List Parcel} (hw : t.workers[w]? = some .idle)
    (hq : t.queue = p :: ps) : (t.taken w p ps).pending.Perm t.pending := by
  have h : (t.taken w p ps).pending.Perm (ps ++ p :: t.writing) := (writing_take p ps hw).append_left ps
  refine h.trans (List.perm_middle.trans ?_)
  simp [pending, hq]

theorem writing_finish {t : Transport} {w : Nat} {p : Parcel} (answer : Except Failure Nat)
    (hw : t.workers[w]? = some (.writing p)) : t.writing.Perm (p :: (t.finished w p answer).writing) := by
  obtain ⟨a, b, h1, h2⟩ := exists_around hw
  simp only [writing, finished_workers, h2]
  rw [h1]
  simp only [List.filterMap_append, List.filterMap_cons, Worker.parcel?]
  exact List.perm_middle

theorem pending_finish {t : Transport} {w : Nat} {p : Parcel} (answer : Except Failure Nat)
    (hw : t.workers[w]? = some (.writing p)) : t.pending.Perm (p :: (t.finished w p answer).pending) := by
  have h : t.pending.Perm (t.queue ++ p :: (t.finished w p answer).writing) :=
    (writing_finish answer hw).append_left t.queue
  refine h.trans (List.perm_middle.trans ?_)
  simp [pending]

theorem pending_refused (t : Transport) (d : Draft) (f : Failure) : (t.refused d f).pending = t.pending := by
  simp [pending, writing]

/-- a worker that leaves had nothing in its hands -/
theorem writing_quit {t : Transport} {w : Nat} (hw : t.workers[w]? = some .idle) : (t.quit w).writing = t.writing := by
  obtain ⟨a, b, h1, h2⟩ := exists_around hw
  simp only [writing, quit, setWorker, h2]
  rw [h1]
  simp only [List.filterMap_append, List.filterMap_cons, Worker.parcel?]

theorem pending_quit {t : Transport} {w : Nat} (hw : t.workers[w]? = some .idle) : (t.quit w).pending = t.pending := by
  rw [pending, writing_quit hw]
  rfl

/-- the settings never change -/
theorem step_options (t : Transport) (op : Op) : (t.step op).options = t.options := by
  have hm := step_move t op
  generalize t.step op = t' at hm ⊢
  cases hm with
  | refuse d f => exact refused_options t d f
  | finish w p answer => exact settle_options _ p.buffer answer
  | _ => rfl

theorem run_options (t : Transport) (ops : List Op) : (t.run ops).options = t.options := by
  induction ops generalizing t with
  | nil => rfl
  | cons op ops ih => rw [run_cons, ih, step_options]

/-! ## A small run -/

/-- two workers, two places in the queue and forty octets -/
def smallOptions : Options := ⟨2, 2, 40, false, 16⟩

/-- a record of which both the text and the buffer have `n` octets -/
def draftOf (n : Nat) : Draft := Draft.sized (List.replicate n 120) n

/-- five records: the third takes too many octets, the second is written only in part, the first whole; in the end the
fourth is being written, in the buffer of the first, and the fifth waits -/
def smallRun : List Op :=
  [.submit (draftOf 8), .take 0, .submit (draftOf 12), .take 1, .submit (draftOf 24), .finish 1 (.ok 3),
    .finish 0 (.ok 8), .submit (draftOf 16), .take 0, .submit (draftOf 8), .close]

end Transport
end LogRelay
