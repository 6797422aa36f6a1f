/-
What a panic of the sink leaves behind.

A panic ends the worker whose write it was, and nothing is done for the record that worker had in its hands: its
octets are not released, and it is counted neither as sent nor as lost. `broken` lists the records lost to panics
along a run, and `Audited` says what the counts of the transport come to with them.
- `step_audited`, `run_audited`: every step, and so every run, keeps it, panics included.
- `accounts_restored_iff`: by how much the counts are off, in every state; in one where nothing waits and nothing is
  being written they are right exactly when no worker has died, and a flush that begins then answers exactly when the
  records lost to panics took no octets.
- `panic_keeps_octets`: a run that shows it.
-/
import LogRelay.Proofs.Transport.Flush

namespace LogRelay.Transport

/-! ## Records lost to panics -/

/-- the parcel whose write panics in a step -/
def Op.broken? (t : Transport) : Op → Option Parcel
  | .panic w => (t.workers[w]?).bind Worker.parcel?
  | _ => none

/-- the parcels whose write panicked in a run, the first one first -/
def broken (t : Transport) : List Op → List Parcel
  | [] => []
  | op :: ops => (op.broken? t).toList ++ broken (t.step op) ops

/-- the sink panics in the write of a worker only -/
theorem broken?_of_not_enabled {t : Transport} {op : Op} (h : ¬ t.Enabled op) : op.broken? t = none := by
  cases op with
  | panic w =>
    simp only [Op.broken?, Option.bind_eq_none_iff]
    intro x hx
    cases x with
    | writing p => exact absurd ⟨p, hx⟩ h
    | _ => rfl
  | _ => rfl

theorem writing_panic {t : Transport} {w : Nat} {p : Parcel} (hw : t.workers[w]? = some (.writing p)) :
    t.writing.Perm (p :: (t.setWorker w .dead).writing) := by
  obtain ⟨a, b, h1, h2⟩ := exists_around hw
  simp only [writing, setWorker, h2]
  rw [h1]
  simp only [List.filterMap_append, List.filterMap_cons, Worker.parcel?]
  exact List.perm_middle

theorem pending_panic {t : Transport} {w : Nat} {p : Parcel} (hw : t.workers[w]? = some (.writing p)) :
    t.pending.Perm (p :: (t.setWorker w .dead).pending) := by
  have h : t.pending.Perm (t.queue ++ p :: (t.setWorker w .dead).writing) := (writing_panic hw).append_left t.queue
  exact h.trans List.perm_middle

/-- a write that ended is counted once, as sent or as lost -/
theorem finished_counted (t : Transport) (w : Nat) (p : Parcel) (answer : Except Failure Nat) :
    (t.finished w p answer).tally.sent + (t.finished w p answer).tally.lost = t.tally.sent + t.tally.lost + 1 := by
  have htally : (t.finished w p answer).tally = ((t.report .latency).settle p.buffer answer).tally := rfl
  rw [htally]
  rcases settle_cases (t.report .latency) p.buffer answer with ⟨-, h⟩ | ⟨-, f, h⟩
  · rw [h]
    simp only [report, Tally.addSent]
    omega
  · rw [h, lose_tally]
    simp only [report, Tally.addLost]
    omega

theorem refused_counted (t : Transport) (d : Draft) (f : Failure) :
    (t.refused d f).tally.sent + (t.refused d f).tally.lost = t.tally.sent + t.tally.lost + 1 := by
  simp only [refused, prepared, report, lose_tally, Tally.addLost]
  omega

/-! ## The workers that died -/

/-- how many workers ended in a panic -/
def deaths (t : Transport) : Nat := t.workers.count .dead

theorem deaths_set {t t' : Transport} {w : Nat} {x y : Worker} (h : t.workers[w]? = some x) (hx : x ≠ .dead)
    (hy : y ≠ .dead) (ht : t'.workers = t.workers.set w y) : t'.deaths = t.deaths := by
  have hcount := countP_workers_set (· == .dead) h y
  simpa [deaths, List.count, ht, hx, hy] using hcount

theorem deaths_panic {t : Transport} {w : Nat} {p : Parcel} (h : t.workers[w]? = some (.writing p)) :
    (t.setWorker w .dead).deaths = t.deaths + 1 := by
  have hcount := countP_workers_set (· == .dead) h .dead
  simpa [deaths, List.count, setWorker] using hcount

/-! ## The counts -/

/-- what the counts come to after `calls` records were handed in, of which `bs` were lost to panics -/
structure Audited (calls : Nat) (bs : List Parcel) (t : Transport) : Prop where
  inFlight : t.inFlight = load t.pending + load bs
  throughput : t.enqueued = t.completed + t.inFlight
  records : calls = t.tally.sent + t.tally.lost + t.pending.length + bs.length
  deaths : bs.length = t.deaths

theorem start_audited (o : Options) : Audited 0 [] (start o) where
  inFlight := by rw [pending_start]; rfl
  throughput := rfl
  records := by rw [pending_start]; rfl
  deaths := by simp [deaths, start, List.count_replicate]

section Moves

variable {calls : Nat} {bs : List Parcel} {t : Transport}

theorem accept_audited (h : Audited calls bs t) (d : Draft) (p : Parcel) :
    Audited (calls + 1) bs ((t.prepared d).joined p) := by
  have hp := pending_accept t d p
  have hload := load_perm hp
  have hlen := hp.length_eq
  obtain ⟨h1, h2, h3, h4⟩ := h
  rw [load_cons] at hload
  rw [List.length_cons] at hlen
  constructor
  · rw [hload]
    simp only [joined, prepared, report]
    omega
  · simp only [joined, prepared, report]
    omega
  · rw [hlen]
    simp only [joined, prepared, report]
    omega
  · exact h4

theorem refuse_audited (h : Audited calls bs t) (d : Draft) (f : Failure) : Audited (calls + 1) bs (t.refused d f) := by
  obtain ⟨h1, h2, h3, h4⟩ := h
  have hcount := refused_counted t d f
  refine ⟨?_, ?_, ?_, ?_⟩
  · rw [refused_inFlight, pending_refused]; exact h1
  · rw [refused_enqueued, refused_completed, refused_inFlight]; exact h2
  · rw [pending_refused]
    omega
  · rw [h4, Transport.deaths, Transport.deaths, refused_workers]

theorem finish_audited (h : Audited calls bs t) {w : Nat} {p : Parcel} (answer : Except Failure Nat)
    (hw : t.workers[w]? = some (.writing p)) : Audited calls bs (t.finished w p answer) := by
  have hp := pending_finish answer hw
  have hload := load_perm hp
  have hlen := hp.length_eq
  obtain ⟨h1, h2, h3, h4⟩ := h
  rw [load_cons] at hload
  rw [List.length_cons] at hlen
  constructor
  · rw [finished_inFlight]
    omega
  · rw [finished_enqueued, finished_completed, finished_inFlight]
    omega
  · rw [finished_counted]
    omega
  · rw [h4]
    exact (deaths_set hw (by simp) (y := .idle) (by simp) (finished_workers t w p answer)).symm

theorem panic_audited (h : Audited calls bs t) {w : Nat} {p : Parcel} (hw : t.workers[w]? = some (.writing p)) :
    Audited calls (bs ++ [p]) (t.setWorker w .dead) := by
  have hp := pending_panic hw
  have hload := load_perm hp
  have hlen := hp.length_eq
  obtain ⟨h1, h2, h3, h4⟩ := h
  rw [load_cons] at hload
  rw [List.length_cons] at hlen
  refine ⟨?_, h2, ?_, ?_⟩
  · rw [load_append, load_cons, load_nil]
    show t.inFlight = _
    omega
  · rw [List.length_append, List.length_singleton]
    show calls = t.tally.sent + t.tally.lost + _ + _
    omega
  · rw [deaths_panic hw, List.length_append, List.length_singleton, h4]

theorem take_audited (h : Audited calls bs t) {w : Nat} {p : Parcel} {ps : List Parcel}
    (hw : t.workers[w]? = some .idle) (hq : t.queue = p :: ps) : Audited calls bs (t.taken w p ps) := by
  have hp := pending_take hw hq
  refine ⟨?_, h.throughput, ?_, ?_⟩
  · rw [load_perm hp]; exact h.inFlight
  · rw [hp.length_eq]; exact h.records
  · rw [h.deaths]
    exact (deaths_set hw (by simp) (y := .writing p) (by simp) rfl).symm

theorem quit_audited (h : Audited calls bs t) {w : Nat} (hw : t.workers[w]? = some .idle) :
    Audited calls bs (t.quit w) := by
  have hp := pending_quit hw
  refine ⟨hp ▸ h.inFlight, h.throughput, hp ▸ h.records, ?_⟩
  rw [h.deaths]
  exact (deaths_set hw (by simp) (y := .left) (by simp) rfl).symm

/-- a step in which the sink does not panic adds no record to those lost in panics -/
theorem audited_of_no_panic {t' : Transport} {op : Op} {n : Nat} (hd : (drafts [op]).length = n)
    (hb : op.broken? t = none) (h : Audited (calls + n) bs t') :
    Audited (calls + (drafts [op]).length) (bs ++ (op.broken? t).toList) t' := by
  rw [hd, hb, Option.toList_none, List.append_nil]
  exact h

/-- **One step keeps the counts**, with the record lost in it if the sink panics -/
theorem step_audited (h : Audited calls bs t) (op : Op) :
    Audited (calls + (drafts [op]).length) (bs ++ (op.broken? t).toList) (t.step op) := by
  have hm := step_move t op
  generalize t.step op = t' at hm ⊢
  cases hm with
  | accept d hr => exact audited_of_no_panic rfl rfl (accept_audited h d (t.incoming d))
  | refuse d f hr => exact audited_of_no_panic rfl rfl (refuse_audited h d f)
  | take w p ps hw hq => exact audited_of_no_panic rfl rfl (take_audited h hw hq)
  | finish w p answer hw => exact audited_of_no_panic rfl rfl (finish_audited h answer hw)
  | panic w p hw =>
    have hb : (Op.panic w).broken? t = some p := by simp [Op.broken?, hw, Worker.parcel?]
    rw [hb]
    exact panic_audited h hw
  | leave w hw hq hc => exact audited_of_no_panic rfl rfl (quit_audited h hw)
  | close => exact audited_of_no_panic rfl rfl ⟨h.inFlight, h.throughput, h.records, h.deaths⟩
  | rest op hr =>
    exact audited_of_no_panic (n := 0) (by rw [drafts_of_not_enabled hr]; rfl) (broken?_of_not_enabled hr) h

/-- **Every run keeps the counts**, with the records lost in it to panics -/
theorem run_audited (h : Audited calls bs t) (ops : List Op) :
    Audited (calls + (drafts ops).length) (bs ++ broken t ops) (t.run ops) := by
  induction ops generalizing calls bs t with
  | nil =>
    rw [broken, List.append_nil]
    exact h
  | cons op ops ih =>
    have hrun := ih (step_audited h op)
    rw [Nat.add_assoc, ← List.length_append, ← drafts_append, List.append_assoc] at hrun
    exact hrun

end Moves

/-! ## Main result -/

/-- **What panics of the sink leave behind.** After any steps in any order, where `bs` are the records lost to panics:
- the octets in flight are those of the records queued or being written, and those of `bs`, which are never released;
- as many records were handed in as are sent, lost, waiting or being written, and the records `bs`, one for each
  worker that died;
- when nothing waits and nothing is being written, no octets are in flight, all octets queued are released and every
  record is counted exactly when no worker has died; and a flush that begins then answers at once exactly when the
  records `bs` took no octets. -/
theorem accounts_restored_iff (o : Options) (ops : List Op) :
    let t := (start o).run ops
    let bs := broken (start o) ops
    (t.inFlight = load t.queue + load t.writing + load bs ∧ t.enqueued = t.completed + t.inFlight) ∧
      ((drafts ops).length = t.tally.sent + t.tally.lost + t.queue.length + t.writing.length + bs.length ∧
        bs.length = t.workers.count .dead) ∧
      (t.queue = [] → t.writing = [] →
        (t.inFlight = 0 ∧ t.completed = t.enqueued ∧ t.tally.sent + t.tally.lost = (drafts ops).length ↔
            .dead ∉ t.workers) ∧
          (t.closed = false → ∀ cause, t.flush cause = .ok () ↔ load bs = 0)) := by
  intro t bs
  have h : Audited (drafts ops).length bs t := by
    have hrun := run_audited (start_audited o) ops
    rwa [Nat.zero_add] at hrun
  obtain ⟨h1, h2, h3, h4⟩ := h
  rw [pending, load_append] at h1
  rw [pending, List.length_append] at h3
  refine ⟨⟨h1, h2⟩, ⟨by omega, h4⟩, ?_⟩
  intro hq hw
  rw [hq, hw, load_nil] at h1
  rw [hq, hw, List.length_nil] at h3
  have hdead : .dead ∉ t.workers ↔ bs.length = 0 := by rw [h4, deaths, List.count_eq_zero]
  constructor
  · rw [hdead]
    constructor
    · rintro ⟨-, -, hcount⟩
      omega
    · intro hnone
      rw [List.eq_nil_of_length_eq_zero hnone, load_nil] at h1
      exact ⟨h1, by omega, by omega⟩
  · intro hopen cause
    have hflush : t.flush cause = t.endFlush t.enqueued cause := by simp [flush, beginFlush, hopen, Except.bind]
    rw [hflush, endFlush_eq_ok]
    omega

/-- two workers and two records of 8 octets: the sink panics in the first write, and takes the second record whole -/
def stricken : List Op := [.submit (draftOf 8), .take 0, .panic 0, .submit (draftOf 8), .take 1, .finish 1 (.ok 8)]

/-- after `stricken` nothing waits and nothing is being written, but no flush answers and one record is not counted -/
theorem accounts_restored_iff_stricken :
    let t := (start smallOptions).run stricken
    t.queue = [] ∧ t.writing = [] ∧ t.closed = false ∧ t.flush .deadlineExceeded ≠ .ok () ∧
      ¬ (t.inFlight = 0 ∧ t.completed = t.enqueued ∧ t.tally.sent + t.tally.lost = (drafts stricken).length) := by
  obtain ⟨-, -, h⟩ := accounts_restored_iff smallOptions stricken
  obtain ⟨h1, h2⟩ := h (by decide) (by decide)
  exact ⟨by decide, by decide, by decide, fun hok => absurd ((h2 (by decide) _).1 hok) (by decide),
    fun hall => absurd (h1.1 hall) (by decide)⟩

/-- after `stricken` 8 octets stay in flight, one of two records is counted, and a flush runs out of time -/
theorem panic_keeps_octets :
    let t := (start ⟨2, 64, 1048576, false, 16384⟩).run stricken
    t.queue = [] ∧ t.writing = [] ∧ t.inFlight = 8 ∧ t.enqueued = 16 ∧ t.completed = 8 ∧
      t.flush .deadlineExceeded = .error .deadlineExceeded ∧ (drafts stricken).length = 2 ∧
      t.tally.sent + t.tally.lost = 1 := by
  decide

end LogRelay.Transport
