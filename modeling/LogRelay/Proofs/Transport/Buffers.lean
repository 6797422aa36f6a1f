/-
Where the buffers of a transport are.

A buffer is made when a record comes and none is kept. It waits and is written with its record, and comes back to the
pool when the record is refused or was taken whole; there it is kept, unless it has become too large or no slot is
free. The buffer of a write that failed or fell short is let go.
- `get_created`, `put_kept`: what one call to the pool does to its counts.
- `step_housed`, `run_housed`: every step, and so every run without a panic, accounts for each buffer that was ever
  made.
- `buffers_accounted`: the account in every state that a run reaches. A record is always put into an empty buffer, so
  the sink is given what its call asked for and nothing of the records that were in the buffer before.
-/
import LogRelay.Proofs.Transport.History

namespace LogRelay

/-! ## One call to the pool -/

namespace Pool

/-- whether a buffer that may be kept finds no slot free -/
def turnsAway (p : Pool) (b : Buffer) : Bool := !p.isOversized b && p.slots ≤ p.idle.length

section Counts

variable (p : Pool) (b : Buffer)

theorem get_created : p.get.2.created + p.idle.length = p.created + p.get.2.idle.length + 1 := by
  unfold get
  split
  · rename_i b bs hidle
    simp only [hidle, List.length_cons]
    omega
  · rename_i hidle
    simp only [hidle, List.length_nil]

theorem get_skipped : p.get.2.skipped = p.skipped := by
  unfold get
  split <;> rfl

theorem put_created : (p.put b).created = p.created := by
  unfold put
  split_ifs <;> rfl

/-- a buffer that comes back is kept, is counted as skipped, or finds no slot free -/
theorem put_kept : (p.put b).idle.length + (p.put b).skipped + (if p.turnsAway b then 1 else 0) =
    p.idle.length + p.skipped + 1 := by
  unfold put turnsAway
  by_cases hover : p.isOversized b = true
  · simp [hover, Nat.add_assoc]
  · by_cases hslot : p.idle.length < p.slots
    · simp [hover, hslot, Nat.not_le.2 hslot, Nat.add_right_comm]
    · simp [hover, hslot, Nat.not_lt.1 hslot]

end Counts

end Pool

namespace Transport

/-! ## Buffers that find no slot -/

/-- the buffer a step gives back, with the pool that it comes back to -/
def Op.returned? (t : Transport) : Op → Option (Pool × Buffer)
  | .submit d =>
    match (t.submit d).1 with
    | .ok _ => none
    | .error _ => some ((t.prepared d).pool, (t.incoming d).buffer)
  | .finish w answer =>
    match t.workers[w]? with
    | some (.writing p) => if tookWhole p.buffer answer then some (t.pool, p.buffer) else none
    | _ => none
  | _ => none

/-- how many buffers find no slot in a step -/
def Op.turnedAway (t : Transport) (op : Op) : Nat := (op.returned? t).elim 0 fun x => if x.1.turnsAway x.2 then 1 else 0

/-- how many buffers found no slot in a run -/
def turnedAway (t : Transport) : List Op → Nat
  | [] => 0
  | op :: ops => op.turnedAway t + turnedAway (t.step op) ops

section Returned

variable {t : Transport}

theorem turnedAway_accept {d : Draft} (h : t.refusal? (t.incoming d).buffer.capacity = none) :
    (Op.submit d).turnedAway t = 0 := by
  simp [Op.turnedAway, Op.returned?, submit_eq, h]

theorem turnedAway_refuse {d : Draft} {f : Failure} (h : t.refusal? (t.incoming d).buffer.capacity = some f) :
    (Op.submit d).turnedAway t = if (t.prepared d).pool.turnsAway (t.incoming d).buffer then 1 else 0 := by
  simp [Op.turnedAway, Op.returned?, submit_eq, h]

theorem turnedAway_finish {w : Nat} {p : Parcel} (answer : Except Failure Nat) (h : t.workers[w]? = some (.writing p)) :
    (Op.finish w answer).turnedAway t =
      if tookWhole p.buffer answer then if t.pool.turnsAway p.buffer then 1 else 0 else 0 := by
  simp only [Op.turnedAway, Op.returned?, h]
  split_ifs <;> simp_all

theorem turnedAway_of_not_enabled {op : Op} (h : ¬ t.Enabled op) : op.turnedAway t = 0 := by
  cases op with
  | submit d => exact absurd trivial h
  | finish w answer =>
    simp only [Op.turnedAway, Op.returned?]
    split
    · rename_i p hw; exact absurd ⟨p, hw⟩ h
    · rfl
  | _ => rfl

end Returned

/-! ## The account -/

/-- each buffer ever made is kept, on its way, skipped, let go after a write that failed or fell short, or one of the
`away` that found no slot -/
def Housed (away : Nat) (s : Watched) : Prop :=
  s.transport.pool.created = s.transport.pool.idle.length + s.transport.pending.length + s.transport.pool.skipped +
    misses s.history.finished + away

section Moves

variable {away : Nat} {t : Transport} {y : History}

theorem accept_housed (h : Housed away ⟨t, y⟩) (d : Draft) :
    Housed away ⟨(t.prepared d).joined (t.incoming d), { y with accepted := y.accepted ++ [t.incoming d] }⟩ := by
  have hget := t.pool.get_created
  have hskip := t.pool.get_skipped
  have hlen := (pending_accept t d (t.incoming d)).length_eq
  simp only [Housed, List.length_cons] at h hlen ⊢
  rw [hlen]
  simp only [joined, prepared, report, Pool.observe]
  omega

theorem refuse_housed (h : Housed away ⟨t, y⟩) (d : Draft) (f : Failure) :
    Housed (away + if (t.prepared d).pool.turnsAway (t.incoming d).buffer then 1 else 0)
      ⟨t.refused d f, { y with refused := y.refused ++ [t.incoming d] }⟩ := by
  have hget := t.pool.get_created
  have hskip := t.pool.get_skipped
  have hput := (t.prepared d).pool.put_kept (t.incoming d).buffer
  have hmade := (t.prepared d).pool.put_created (t.incoming d).buffer
  simp only [Housed, pending_refused] at h ⊢
  simp only [refused, prepared, report, Pool.observe] at hput hmade ⊢
  omega

theorem take_housed (h : Housed away ⟨t, y⟩) {w : Nat} {p : Parcel} {ps : List Parcel}
    (hw : t.workers[w]? = some .idle) (hq : t.queue = p :: ps) :
    Housed away ⟨t.taken w p ps, { y with handed := y.handed ++ [p] }⟩ := by
  have hlen := (pending_take hw hq).length_eq
  simp only [Housed] at h ⊢
  rw [hlen]
  exact h

theorem finish_housed (h : Housed away ⟨t, y⟩) {w : Nat} {p : Parcel} (answer : Except Failure Nat)
    (hw : t.workers[w]? = some (.writing p)) :
    Housed (away + if tookWhole p.buffer answer then if t.pool.turnsAway p.buffer then 1 else 0 else 0)
      ⟨t.finished w p answer, { y with finished := y.finished ++ [(p, answer)] }⟩ := by
  have hlen := (pending_finish answer hw).length_eq
  have hpool : (t.finished w p answer).pool = ((t.report .latency).settle p.buffer answer).pool := rfl
  simp only [Housed, List.length_cons] at h hlen ⊢
  rw [misses_snoc, hpool]
  rcases settle_cases (t.report .latency) p.buffer answer with ⟨hwhole, hr⟩ | ⟨hmiss, f, hr⟩
  · have hput := t.pool.put_kept p.buffer
    have hmade := t.pool.put_created p.buffer
    rw [hr, hwhole]
    simp only [report, if_true]
    omega
  · rw [hr, hmiss, lose_pool]
    simp only [report, Bool.false_eq_true, if_false]
    omega

/-- **One step keeps the account**, unless the sink panics in it -/
theorem step_housed {s : Watched} (h : Housed away s) (op : Op) (hop : op.isPanic = false) :
    Housed (away + op.turnedAway s.transport) (s.step op) := by
  obtain ⟨t, y⟩ := s
  have hm := step_move t op
  simp only [Watched.step]
  generalize t.step op = t' at hm ⊢
  cases hm with
  | accept d hr => rw [after_accept y d hr, turnedAway_accept hr]; exact accept_housed h d
  | refuse d f hr => rw [after_refuse y d f hr, turnedAway_refuse hr]; exact refuse_housed h d f
  | take w p ps hw hq => rw [after_take y hw hq]; exact take_housed h hw hq
  | finish w p answer hw => rw [after_finish y answer hw, turnedAway_finish answer hw]; exact finish_housed h answer hw
  | panic w p => simp [Op.isPanic] at hop
  | leave w hw hq hc =>
    simp only [Housed] at h ⊢
    rw [pending_quit hw]
    exact h
  | close => exact h
  | rest op hr => rw [after_rest y hr, turnedAway_of_not_enabled hr]; exact h

/-- **Every run keeps the account**, as long as the sink does not panic -/
theorem run_housed {s : Watched} (h : Housed away s) (ops : List Op) (hops : Calm ops) :
    Housed (away + turnedAway s.transport ops) (s.run ops) := by
  induction ops generalizing away s with
  | nil => exact h
  | cons op ops ih =>
    rw [turnedAway, ← Nat.add_assoc]
    apply ih
    · exact step_housed h op hops.head
    · exact hops.tail

end Moves

/-! ## Main result -/

/-- **Every buffer is accounted for, and none carries a record into another.** From the start, after any steps in any
order but a panic of the sink:
- each buffer that was ever made is kept, waits with its record, is being written, was skipped, was let go after a
  write that failed or fell short, or found no slot free when it came back;
- the buffer that the next record is put into is empty;
- the octets given to the sink for a record are those that its call makes of an empty buffer. -/
theorem buffers_accounted (o : Options) (ops : List Op) (hops : Calm ops) :
    let s := (Watched.start o).run ops
    let t := s.transport
    let y := s.history
    t.pool.created = t.pool.idle.length + t.queue.length + t.writing.length + t.pool.skipped +
        (y.finished.filter fun x => !tookWhole x.1.buffer x.2).length + turnedAway (start o) ops ∧
      t.pool.get.1.size = 0 ∧
      ∀ p ∈ y.handed, ∃ d, (drafts ops)[p.ticket]? = some d ∧ p.buffer.content = (d.fill {}).content := by
  intro s t y
  have hrec : Recorded (drafts ops) s := run_recorded (start_recorded o) ops hops
  have hstart : Housed 0 (Watched.start o) := by
    simp only [Housed, Watched.start, pending_start]
    rfl
  have hhoused : Housed (0 + turnedAway (start o) ops) s := run_housed hstart ops hops
  refine ⟨?_, ?_, ?_⟩
  · have hmisses : misses y.finished = (y.finished.filter fun x => !tookWhole x.1.buffer x.2).length :=
      List.countP_eq_length_filter
    have hlen : t.pending.length = t.queue.length + t.writing.length := List.length_append
    calc t.pool.created
        = t.pool.idle.length + t.pending.length + t.pool.skipped + misses y.finished +
            (0 + turnedAway (start o) ops) := hhoused
      _ = t.pool.idle.length + t.queue.length + t.writing.length + t.pool.skipped + misses y.finished +
            turnedAway (start o) ops := by rw [hlen, Nat.zero_add, ← Nat.add_assoc]
      _ = _ := by rw [hmisses]
  · have hempty : t.pool.get.1.content = [] := (get_clean hrec.clean).1
    rw [Buffer.size, hempty]
    rfl
  · intro p hp
    have hmem : p ∈ y.accepted ++ y.refused := by
      have horder : y.accepted = y.handed ++ t.queue := hrec.order
      rw [horder]
      exact List.mem_append_left _ (List.mem_append_left _ hp)
    obtain ⟨d, hd, hcontent⟩ := hrec.texts p hmem
    exact ⟨d, hd, hcontent⟩

/-- in `smallRun` five records need only four buffers: the fourth record is put into the buffer that the first one
left, and goes to the sink as it would from a new one -/
theorem buffers_accounted_small :
    let s := (Watched.start smallOptions).run smallRun
    Calm smallRun ∧ (drafts smallRun).length = 5 ∧ s.transport.pool.created = 0 + 1 + 1 + 1 + 1 + 0 ∧
      s.transport.pool.get.1.size = 0 ∧ s.history.handed.map Parcel.ticket = [0, 1, 3] ∧
      ∀ p ∈ s.history.handed, ∃ d, (drafts smallRun)[p.ticket]? = some d ∧ p.buffer.content = (d.fill {}).content := by
  obtain ⟨hmade, hempty, htexts⟩ := buffers_accounted smallOptions smallRun (by decide)
  exact ⟨by decide, by decide, hmade.trans (by decide), hempty, by decide, htexts⟩

end Transport
end LogRelay
