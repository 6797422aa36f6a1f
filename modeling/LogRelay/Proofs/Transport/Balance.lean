/-
The books of a transport: what it counts agrees with what is on its way.

The octets in flight are counted up when a record joins the queue and down when its write ends, whatever the sink
answered; a refused record is not counted at all. `Balanced` ties the three counts (in flight, ever queued, ever
released), the two ceilings and the changes told to those who measure to the parcels that are pending.
- `step_balanced`: every step but a panic of the sink keeps the balance.
- `run_balanced`: so does every run, whatever the order of its steps.
- `books_balance`: the balance in every state that a run reaches.
A panic is left out because it breaks the balance: the octets of its parcel stay in flight.
-/
import LogRelay.Proofs.Transport.Move

namespace LogRelay

/-- by how much a report changes the octets on their way -/
def Report.octets : Report → Int
  | bytes d => d
  | _ => 0

/-- by how much a report changes the number of records on their way -/
def Report.records : Report → Int
  | messages d => d
  | _ => 0

namespace Transport

/-! ## What was told -/

/-- the sum of what a reading makes of each report -/
def gauge (g : Report → Int) (t : Transport) : Int := (t.reports.map g).sum

/-- the octets on their way, as added up by those who are told of every change -/
def octetGauge (t : Transport) : Int := t.gauge Report.octets

/-- the records on their way, as added up by those who are told of every change -/
def recordGauge (t : Transport) : Int := t.gauge Report.records

section Gauge

variable (g : Report → Int) (t : Transport)

theorem gauge_report (r : Report) : (t.report r).gauge g = g r + t.gauge g := rfl

/-- a settled write shows only in a reading that counts losses -/
theorem gauge_settle (hlost : ∀ c, g (.lost c) = 0) (b : Buffer) (answer : Except Failure Nat) :
    (t.settle b answer).gauge g = t.gauge g := by
  rcases settle_cases t b answer with ⟨-, h⟩ | ⟨-, f, h⟩
  · rw [h]; rfl
  · rw [h, gauge, lose_reports, List.map_cons, List.sum_cons, hlost, zero_add]
    rfl

theorem gauge_accept (d : Draft) (p : Parcel) : ((t.prepared d).joined p).gauge g =
    g (.bytes p.buffer.capacity) + (g (.messages 1) + (g (.size (t.incoming d).buffer.size) + t.gauge g)) := rfl

theorem gauge_refused (hlost : ∀ c, g (.lost c) = 0) (d : Draft) (f : Failure) :
    (t.refused d f).gauge g = g (.size (t.incoming d).buffer.size) + t.gauge g := by
  have h : (t.refused d f).reports = .lost f.category :: (t.prepared d).reports := lose_reports _ _ f
  rw [gauge, h, List.map_cons, List.sum_cons, hlost, zero_add]
  rfl

theorem gauge_finished (hlost : ∀ c, g (.lost c) = 0) (w : Nat) (p : Parcel) (answer : Except Failure Nat) :
    (t.finished w p answer).gauge g =
      g (.bytes (-p.buffer.capacity)) + (g (.messages (-1)) + (g .latency + t.gauge g)) := by
  rw [← gauge_report g t, ← gauge_settle g (t.report .latency) hlost p.buffer answer]
  rfl

end Gauge

/-! ## The balance -/

/-- the counts of a transport agree with the parcels on their way -/
structure Balanced (t : Transport) : Prop where
  inFlight : t.inFlight = load t.pending
  ceiling : t.inFlight ≤ t.options.bufferSize
  throughput : t.enqueued = t.completed + t.inFlight
  places : t.queue.length ≤ t.options.queueCapacity
  octets : t.octetGauge = t.inFlight
  records : t.recordGauge = t.pending.length

theorem start_balanced (o : Options) : Balanced (start o) where
  inFlight := by rw [pending_start]; rfl
  ceiling := Nat.zero_le _
  throughput := rfl
  places := Nat.zero_le _
  octets := rfl
  records := by rw [pending_start]; rfl

theorem accept_balanced {t : Transport} (h : Balanced t) (d : Draft)
    (hr : t.refusal? (t.incoming d).buffer.capacity = none) : Balanced ((t.prepared d).joined (t.incoming d)) := by
  obtain ⟨-, hfit, hplace⟩ := refusal?_eq_none.1 hr
  have hp := pending_accept t d (t.incoming d)
  have hload := load_perm hp
  have hlen := hp.length_eq
  rw [load_cons, ← h.inFlight] at hload
  rw [List.length_cons] at hlen
  constructor
  · rw [hload]; exact Nat.add_comm _ _
  · exact hfit
  · have := h.throughput
    simp only [joined, prepared, report]
    omega
  · simpa [joined, prepared, report] using hplace
  · have := h.octets
    simp only [octetGauge, gauge_accept, Report.octets] at this ⊢
    simp only [joined, prepared, report]
    omega
  · have := h.records
    simp only [recordGauge, gauge_accept, Report.records] at this ⊢
    omega

theorem refuse_balanced {t : Transport} (h : Balanced t) (d : Draft) (f : Failure) : Balanced (t.refused d f) := by
  constructor
  · rw [refused_inFlight, pending_refused]; exact h.inFlight
  · rw [refused_inFlight, refused_options]; exact h.ceiling
  · rw [refused_enqueued, refused_completed, refused_inFlight]; exact h.throughput
  · rw [refused_queue, refused_options]; exact h.places
  · rw [octetGauge, gauge_refused _ _ fun _ => rfl, refused_inFlight]
    exact (zero_add _).trans h.octets
  · rw [recordGauge, gauge_refused _ _ fun _ => rfl, pending_refused]
    exact (zero_add _).trans h.records

theorem finish_balanced {t : Transport} (h : Balanced t) {w : Nat} {p : Parcel} (answer : Except Failure Nat)
    (hw : t.workers[w]? = some (.writing p)) : Balanced (t.finished w p answer) := by
  have hp := pending_finish answer hw
  have hload := load_perm hp
  have hlen := hp.length_eq
  rw [load_cons, ← h.inFlight] at hload
  rw [List.length_cons] at hlen
  have hin : (t.finished w p answer).inFlight = t.inFlight - p.buffer.capacity := by
    simp [finished, setWorker, release, report]
  constructor
  · omega
  · have := h.ceiling
    simp only [finished, setWorker, release, report, settle_inFlight, settle_options]
    omega
  · have := h.throughput
    simp only [finished, setWorker, release, report, settle_inFlight, settle_enqueued, settle_completed]
    omega
  · simpa [finished, setWorker, release, report] using h.places
  · have := h.octets
    rw [octetGauge, gauge_finished _ _ fun _ => rfl, hin]
    simp only [octetGauge, Report.octets] at this ⊢
    omega
  · have := h.records
    rw [recordGauge, gauge_finished _ _ fun _ => rfl]
    simp only [recordGauge, Report.records] at this ⊢
    omega

theorem take_balanced {t : Transport} (h : Balanced t) {w : Nat} {p : Parcel} {ps : List Parcel}
    (hw : t.workers[w]? = some .idle) (hq : t.queue = p :: ps) : Balanced (t.taken w p ps) := by
  have hp := pending_take hw hq
  refine ⟨?_, h.ceiling, h.throughput, ?_, h.octets, ?_⟩
  · rw [load_perm hp]; exact h.inFlight
  · have := h.places
    rw [hq, List.length_cons] at this
    exact Nat.le_of_succ_le this
  · rw [hp.length_eq]; exact h.records

/-- **One step keeps the balance**, unless the sink panics in it -/
theorem step_balanced {t : Transport} (h : Balanced t) (op : Op) (hop : op.isPanic = false) : Balanced (t.step op) := by
  have hm := step_move t op
  generalize t.step op = t' at hm ⊢
  cases hm with
  | accept d hr => exact accept_balanced h d hr
  | refuse d f => exact refuse_balanced h d f
  | take w p ps hw hq => exact take_balanced h hw hq
  | finish w p answer hw => exact finish_balanced h answer hw
  | panic w p => simp [Op.isPanic] at hop
  | leave w hw hq hc =>
    have hp := pending_quit hw
    exact ⟨hp ▸ h.inFlight, h.ceiling, h.throughput, h.places, h.octets, hp ▸ h.records⟩
  | close => exact ⟨h.inFlight, h.ceiling, h.throughput, h.places, h.octets, h.records⟩
  | rest op => exact h

/-- **Every run keeps the balance**, as long as the sink does not panic -/
theorem run_balanced {t : Transport} (h : Balanced t) (ops : List Op) (hops : Calm ops) : Balanced (t.run ops) := by
  induction ops generalizing t with
  | nil => exact h
  | cons op ops ih => rw [run_cons]; exact ih (step_balanced h op hops.head) hops.tail

/-- **The books balance.** From the start, after any steps in any order but a panic of the sink:
- the octets in flight are those of the buffers queued or being written, and never pass their ceiling;
- the octets ever queued are those released and those in flight;
- the queue never passes its ceiling;
- the changes told add up to the octets in flight and to the number of records queued or being written. -/
theorem books_balance (o : Options) (ops : List Op) (hops : Calm ops) :
    let t := (start o).run ops
    t.inFlight = (t.queue.map fun p => p.buffer.capacity).sum + (t.writing.map fun p => p.buffer.capacity).sum ∧
      t.inFlight ≤ o.bufferSize ∧ t.enqueued = t.completed + t.inFlight ∧ t.queue.length ≤ o.queueCapacity ∧
      t.octetGauge = t.inFlight ∧ t.recordGauge = t.queue.length + t.writing.length ∧
      (t.queue = [] → t.writing = [] → t.inFlight = 0) := by
  intro t
  have h : Balanced t := run_balanced (start_balanced o) ops hops
  have ho : t.options = o := run_options (start o) ops
  have hin : t.inFlight = load t.queue + load t.writing := by rw [h.inFlight, pending, load_append]
  refine ⟨hin, ho ▸ h.ceiling, h.throughput, ho ▸ h.places, h.octets, ?_, fun hq hw => ?_⟩
  · rw [h.records, pending, List.length_append, Nat.cast_add]
  · rw [hin, hq, hw]; rfl

/-- after `smallRun` a record of 16 octets is being written and one of 8 waits, and 20 octets are released -/
theorem books_balance_small :
    Calm smallRun ∧ ((start smallOptions).run smallRun).inFlight = 8 + 16 ∧
      ((start smallOptions).run smallRun).enqueued = 20 + (8 + 16) ∧
      ((start smallOptions).run smallRun).recordGauge = 1 + 1 := by
  obtain ⟨h1, -, h3, -, -, h6, -⟩ := books_balance smallOptions smallRun (by decide)
  exact ⟨by decide, h1.trans (by decide), h3.trans (by decide), h6.trans (by decide)⟩

end Transport
end LogRelay
