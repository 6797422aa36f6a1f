/-
Which records a transport takes, and what a refusal leaves behind.

A record is refused for the first of three reasons that applies: the transport is closed, its octets would pass the
ceiling, or the queue has no place left. A refusal is a loss: it is counted and told once, and the buffer goes back to
the pool. The queue, the workers, the octets in flight and the totals are those from before.
- `step_seated`, `run_seated`: the queue is never beyond its places, panics of the sink included.
- `refusal?_eq`, `refusal?_category`: the reason of a refusal, and the heading it is counted under.
- `admission`: the answer to a call in every state that a run reaches, and all that a refusal changes.
-/
import LogRelay.Proofs.Transport.Balance
import LogRelay.Proofs.Transport.Ending

namespace LogRelay.Transport

/-! ## Places in the queue -/

/-- the queue has no more records than places -/
def Seated (t : Transport) : Prop := t.queue.length ≤ t.options.queueCapacity

theorem accept_seated {t : Transport} {d : Draft} (h : t.refusal? (t.incoming d).buffer.capacity = none) :
    Seated ((t.prepared d).joined (t.incoming d)) := by
  obtain ⟨-, -, hplace⟩ := refusal?_eq_none.1 h
  simpa [Seated, joined, prepared, report] using hplace

/-- **One step keeps the queue within its places**, a panic of the sink included -/
theorem step_seated {t : Transport} (h : Seated t) (op : Op) : Seated (t.step op) := by
  have hm := step_move t op
  generalize t.step op = t' at hm ⊢
  cases hm with
  | accept d hr => exact accept_seated hr
  | refuse d f hr => simpa [Seated] using h
  | take w p ps hw hq =>
    have hqueue : t.queue.length = ps.length + 1 := congrArg List.length hq
    unfold Seated at h
    show ps.length ≤ t.options.queueCapacity
    omega
  | finish w p answer hw => simpa [Seated, finished, setWorker, release, report] using h
  | panic w p hw => exact h
  | leave w hw hq hc => exact h
  | close => exact h
  | rest op hr => exact h

/-- **Every run keeps the queue within its places** -/
theorem run_seated {t : Transport} (h : Seated t) (ops : List Op) : Seated (t.run ops) := by
  induction ops generalizing t with
  | nil => exact h
  | cons op ops ih =>
    rw [run_cons]
    exact ih (step_seated h op)

/-! ## Refusals -/

/-- why a buffer of capacity `c` is refused when the queue is not beyond its places: then a full queue has as many
records as places -/
theorem refusal?_eq {t : Transport} (h : Seated t) (c : Nat) : t.refusal? c =
    if t.closed then some .closed
    else if t.options.bufferSize < t.inFlight + c then some (.memoryLimit t.inFlight c t.options.bufferSize)
    else if t.queue.length = t.options.queueCapacity then
      some (.queueFull t.options.queueCapacity t.options.queueCapacity)
    else none := by
  unfold Seated at h
  have hfull : t.options.queueCapacity ≤ t.queue.length ↔ t.queue.length = t.options.queueCapacity :=
    ⟨fun hle => Nat.le_antisymm h hle, fun heq => heq.ge⟩
  unfold refusal?
  simp only [hfull]
  split_ifs with hclosed hmemory hqueue
  · rfl
  · rfl
  · rw [hqueue]
  · rfl

theorem refusal?_category {t : Transport} {c : Nat} {f : Failure} (h : t.refusal? c = some f) : f.category =
    if t.closed then .unknown else if t.options.bufferSize < t.inFlight + c then .memory else .capacity := by
  unfold refusal? at h
  split_ifs at h with hclosed hmemory hqueue <;> cases h
  · rw [if_pos hclosed]
    rfl
  · rw [if_neg hclosed, if_pos hmemory]
    rfl
  · rw [if_neg hclosed, if_neg hmemory]
    rfl

/-- all that a refusal changes: a loss is counted and told, after the length of the record, and the buffer is put back
-/
theorem refused_eq (t : Transport) (d : Draft) (f : Failure) : t.refused d f =
    { t with
      pool := (t.pool.get.2.observe (t.incoming d).buffer.size).put (t.incoming d).buffer
      tally := { t.tally with lost := t.tally.lost + 1 }
      reports := .lost f.category :: .size (t.incoming d).buffer.size :: t.reports
      notices := (t.refused d f).notices } := by
  unfold refused
  rw [lose_eq]
  rfl

/-! ## Main result -/

/-- **Admission and refusal.** A call hands in a record after any steps in any order, and `b` is the buffer it was put
into.
- The answer is `closed` if the transport is closed, which it is once its close was called for; else `memoryLimit` if
  the octets in flight and the capacity of `b` pass the ceiling; else `queueFull` if the queue has as many records as
  places; else the record is taken.
- With an error the transport is the one from before but for the loss: one more record is counted as lost, and is told
  once, under the heading of the reason; `b` is put back into the pool. What was told adds up to the same gauges. -/
theorem admission (o : Options) (ops : List Op) (d : Draft) :
    let t := (start o).run ops
    let b := d.fill t.pool.get.1
    let t' := (t.submit d).2
    (t.closed = true ↔ .close ∈ ops) ∧
      ((t.submit d).1 =
        if t.closed then .error .closed
        else if o.bufferSize < t.inFlight + b.capacity then .error (.memoryLimit t.inFlight b.capacity o.bufferSize)
        else if t.queue.length = o.queueCapacity then .error (.queueFull o.queueCapacity o.queueCapacity)
        else .ok ()) ∧
      ∀ f, (t.submit d).1 = .error f →
        t' = { t with
          pool := (t.pool.get.2.observe b.size).put b
          tally := { t.tally with lost := t.tally.lost + 1 }
          reports := .lost f.category :: .size b.size :: t.reports
          notices := t'.notices } ∧
        (f.category =
          if t.closed then .unknown else if o.bufferSize < t.inFlight + b.capacity then .memory else .capacity) ∧
        t'.octetGauge = t.octetGauge ∧ t'.recordGauge = t.recordGauge := by
  intro t b t'
  have hseated : Seated t := run_seated (Nat.zero_le _) ops
  have ho : t.options = o := run_options (start o) ops
  have hreason := refusal?_eq hseated b.capacity
  rw [ho] at hreason
  have hsubmit := submit_eq t d
  refine ⟨?_, ?_, ?_⟩
  · rw [run_closed]
    simp [start]
  · show (t.submit d).1 = _
    rw [hsubmit]
    change t.refusal? (t.incoming d).buffer.capacity = _ at hreason
    rw [hreason]
    split_ifs <;> rfl
  · intro f hf
    -- an error is the answer to a refusal only, so the call is the move of a refusal
    obtain ⟨hr, ht'⟩ : t.refusal? (t.incoming d).buffer.capacity = some f ∧ t' = t.refused d f := by
      show _ ∧ (t.submit d).2 = _
      rw [hsubmit] at hf ⊢
      cases hr : t.refusal? (t.incoming d).buffer.capacity with
      | none =>
        rw [hr] at hf
        cases hf
      | some g =>
        rw [hr] at hf
        cases hf
        exact ⟨rfl, rfl⟩
    rw [ht']
    refine ⟨refused_eq t d f, ?_, ?_, ?_⟩
    · rw [← ho]
      exact refusal?_category hr
    · rw [octetGauge, gauge_refused _ _ fun _ => rfl]
      exact zero_add _
    · rw [recordGauge, gauge_refused _ _ fun _ => rfl]
      exact zero_add _

/-- with 20 octets being written and a ceiling of 40, a record of 24 octets is refused; its buffer has become too large
for the pool, which counts it as skipped -/
theorem admission_above_ceiling :
    let t := (start smallOptions).run [.submit (draftOf 8), .take 0, .submit (draftOf 12), .take 1]
    let t' := (t.submit (draftOf 24)).2
    (t.submit (draftOf 24)).1 = .error (.memoryLimit 20 24 40) ∧ t'.inFlight = 20 ∧ t'.enqueued = 20 ∧
      t'.tally = ⟨0, 1⟩ ∧ t'.reports = .lost .memory :: .size 24 :: t.reports ∧ t'.pool.skipped = 1 ∧
      t'.octetGauge = t.octetGauge ∧ t'.recordGauge = t.recordGauge := by
  intro t t'
  obtain ⟨-, hanswer, hrefused⟩ := admission smallOptions
    [.submit (draftOf 8), .take 0, .submit (draftOf 12), .take 1] (draftOf 24)
  have hmemory : (t.submit (draftOf 24)).1 = .error (.memoryLimit 20 24 40) := hanswer.trans (by decide)
  obtain ⟨heq, -, hoctets, hrecords⟩ := hrefused _ hmemory
  have hleft : t' = _ := heq
  refine ⟨hmemory, ?_, ?_, ?_, ?_, ?_, hoctets, hrecords⟩ <;> rw [hleft] <;> decide

end LogRelay.Transport
