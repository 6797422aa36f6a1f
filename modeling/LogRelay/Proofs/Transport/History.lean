/-
What becomes of each record handed to a transport.

`Watched` runs a transport and writes down, beside it, what happens to the records: which were accepted and which
refused, which were handed to the sink, and which writes ended with which answer. The watcher only looks
(`run_transport`). `Recorded` is the invariant that ties these lists to the state of the transport.
- `step_recorded`, `run_recorded`: every step, and so every run, keeps it, as long as the sink does not panic.
- `every_record_accounted`: each record handed in is sent, lost, waiting or being written, and is counted once; the
  accepted ones go to the sink once each and in the order in which they were accepted, the refused ones never.
- `accepted_grows`: what was accepted stays accepted, and comes before what is accepted later.
-/
import LogRelay.Proofs.Transport.Move

namespace LogRelay.Transport

/-- what was seen of the records so far, the oldest first -/
structure History where
  accepted : List Parcel := []
  refused : List Parcel := []
  /-- the records given to the sink, also those it still writes -/
  handed : List Parcel := []
  /-- the writes that ended, and what the sink answered -/
  finished : List (Parcel × Except Failure Nat) := []

/-- what is seen of a step taken in state `t` -/
def History.after (y : History) (t : Transport) : Op → History
  | .submit d =>
    match (t.submit d).1 with
    | .ok _ => { y with accepted := y.accepted ++ [t.incoming d] }
    | .error _ => { y with refused := y.refused ++ [t.incoming d] }
  | .take w =>
    match t.workers[w]?, (t.take w).workers[w]? with
    | some .idle, some (.writing p) => { y with handed := y.handed ++ [p] }
    | _, _ => y
  | .finish w answer =>
    match t.workers[w]? with
    | some (.writing p) => { y with finished := y.finished ++ [(p, answer)] }
    | _ => y
  | .panic _ => y
  | .leave _ => y
  | .close => y

/-- a transport and what was seen of its records -/
structure Watched where
  transport : Transport
  history : History

namespace Watched

def start (o : Options) : Watched := ⟨Transport.start o, {}⟩

def step (s : Watched) (op : Op) : Watched := ⟨s.transport.step op, s.history.after s.transport op⟩

def run (s : Watched) (ops : List Op) : Watched := ops.foldl step s

theorem run_cons (s : Watched) (op : Op) (ops : List Op) : s.run (op :: ops) = (s.step op).run ops := rfl

theorem run_append (s : Watched) (a b : List Op) : s.run (a ++ b) = (s.run a).run b := by simp [run, List.foldl_append]

/-- watching changes nothing -/
theorem run_transport (s : Watched) (ops : List Op) : (s.run ops).transport = s.transport.run ops := by
  induction ops generalizing s with
  | nil => rfl
  | cons op ops ih => rw [run_cons, ih]; rfl

end Watched

/-! ## What is seen of each move -/

section Seen

variable {t : Transport} (y : History)

theorem after_accept (d : Draft) (h : t.refusal? (t.incoming d).buffer.capacity = none) :
    y.after t (.submit d) = { y with accepted := y.accepted ++ [t.incoming d] } := by
  simp [History.after, submit_eq, h]

theorem after_refuse (d : Draft) (f : Failure) (h : t.refusal? (t.incoming d).buffer.capacity = some f) :
    y.after t (.submit d) = { y with refused := y.refused ++ [t.incoming d] } := by
  simp [History.after, submit_eq, h]

theorem after_take {w : Nat} {p : Parcel} {ps : List Parcel} (hw : t.workers[w]? = some .idle)
    (hq : t.queue = p :: ps) : y.after t (.take w) = { y with handed := y.handed ++ [p] } := by
  obtain ⟨hlt, -⟩ := List.getElem?_eq_some_iff.1 hw
  have hp : (t.take w).workers[w]? = some (.writing p) := by
    simp only [Transport.take, hw, hq, setWorker]
    exact List.getElem?_set_self hlt
  simp only [History.after, hw, hp]

theorem after_finish {w : Nat} {p : Parcel} (answer : Except Failure Nat) (hw : t.workers[w]? = some (.writing p)) :
    y.after t (.finish w answer) = { y with finished := y.finished ++ [(p, answer)] } := by
  simp only [History.after, hw]

/-- a step that is not possible shows nothing -/
theorem after_rest {op : Op} (h : ¬ t.Enabled op) : y.after t op = y := by
  cases op with
  | submit d => exact absurd trivial h
  | take w =>
    simp only [History.after]
    split
    · rename_i p hw hp
      -- the worker was idle, so it was the queue that had nothing to take
      have hq : t.queue = [] := by
        by_contra hq
        exact h ⟨hw, hq⟩
      simp [Transport.take, hw, hq] at hp
    · rfl
  | finish w answer =>
    simp only [History.after]
    split
    · rename_i p hw; exact absurd ⟨p, hw⟩ h
    · rfl
  | panic w => rfl
  | leave w => rfl
  | close => rfl

theorem watched_accept (d : Draft) (h : t.refusal? (t.incoming d).buffer.capacity = none) :
    Watched.step ⟨t, y⟩ (.submit d) =
      ⟨(t.prepared d).joined (t.incoming d), { y with accepted := y.accepted ++ [t.incoming d] }⟩ := by
  simp only [Watched.step, step, submit_eq, h, after_accept y d h]

theorem watched_take {w : Nat} {p : Parcel} {ps : List Parcel} (hw : t.workers[w]? = some .idle)
    (hq : t.queue = p :: ps) :
    Watched.step ⟨t, y⟩ (.take w) = ⟨t.taken w p ps, { y with handed := y.handed ++ [p] }⟩ := by
  simp only [Watched.step, after_take y hw hq, step, Transport.take, hw, hq]
  rfl

theorem watched_finish {w : Nat} {p : Parcel} (answer : Except Failure Nat) (hw : t.workers[w]? = some (.writing p)) :
    Watched.step ⟨t, y⟩ (.finish w answer) =
      ⟨t.finished w p answer, { y with finished := y.finished ++ [(p, answer)] }⟩ := by
  simp only [Watched.step, after_finish y answer hw, step, Transport.finish, hw]
  rfl

end Seen

/-! ## Buffers that come from the pool are empty -/

/-- every buffer that is kept is empty -/
def Clean (p : Pool) : Prop := ∀ b ∈ p.idle, b.content = []

theorem get_clean {p : Pool} (h : Clean p) : p.get.1.content = [] ∧ Clean p.get.2 := by
  unfold Pool.get
  split
  · rename_i b bs hi
    exact ⟨h b (by simp [hi]), fun c hc => h c (by simp [hi, hc])⟩
  · rename_i hi
    exact ⟨rfl, fun c hc => h c hc⟩

theorem put_clean {p : Pool} (h : Clean p) (b : Buffer) : Clean (p.put b) := by
  unfold Pool.put
  split_ifs
  · exact h
  · intro c hc
    rcases List.mem_append.1 hc with hc | hc
    · exact h c hc
    · rw [List.mem_singleton] at hc; rw [hc]
  · exact h

theorem put_count (p : Pool) (b : Buffer) : (p.put b).count = p.count := by
  unfold Pool.put
  split_ifs <;> rfl

/-- the pool after a write is the one before it, or has the buffer put back -/
theorem settle_pool (t : Transport) (b : Buffer) (answer : Except Failure Nat) :
    (t.settle b answer).pool = t.pool.put b ∨ (t.settle b answer).pool = t.pool := by
  rcases settle_cases t b answer with ⟨-, h⟩ | ⟨-, f, h⟩
  · exact Or.inl (by rw [h])
  · exact Or.inr (by rw [h, lose_pool])

/-! ## The invariant -/

/-- how many of some writes took the record whole -/
def wholes (xs : List (Parcel × Except Failure Nat)) : Nat := xs.countP fun x => tookWhole x.1.buffer x.2

/-- how many of some writes did not -/
def misses (xs : List (Parcel × Except Failure Nat)) : Nat := xs.countP fun x => !tookWhole x.1.buffer x.2

theorem wholes_snoc (xs : List (Parcel × Except Failure Nat)) (p : Parcel) (answer : Except Failure Nat) :
    wholes (xs ++ [(p, answer)]) = wholes xs + if tookWhole p.buffer answer = true then 1 else 0 := by
  simp [wholes, List.countP_append, List.countP_singleton]

theorem misses_snoc (xs : List (Parcel × Except Failure Nat)) (p : Parcel) (answer : Except Failure Nat) :
    misses (xs ++ [(p, answer)]) = misses xs + if tookWhole p.buffer answer = true then 0 else 1 := by
  cases h : tookWhole p.buffer answer <;> simp [misses, List.countP_append, h]

theorem length_eq_wholes_add_misses (xs : List (Parcel × Except Failure Nat)) :
    xs.length = wholes xs + misses xs := by
  induction xs using List.reverseRecOn with
  | nil => rfl
  | append_singleton xs x ih =>
    obtain ⟨p, answer⟩ := x
    rw [wholes_snoc, misses_snoc, List.length_append, List.length_singleton]
    split_ifs <;> omega

/-- what was seen agrees with the state of the transport, when the records `ds` were handed in -/
structure Recorded (ds : List Draft) (s : Watched) : Prop where
  calls : s.transport.pool.count = ds.length
  answers : s.history.accepted.length + s.history.refused.length = ds.length
  /-- the parcel of a call holds the text handed in by it, and nothing else -/
  texts : ∀ p ∈ s.history.accepted ++ s.history.refused, ∃ d, ds[p.ticket]? = some d ∧ p.buffer.content = d.text
  tickets : ((s.history.accepted ++ s.history.refused).map Parcel.ticket).Nodup
  order : s.history.accepted = s.history.handed ++ s.transport.queue
  hands : s.history.handed.Perm (s.history.finished.map Prod.fst ++ s.transport.writing)
  sent : s.transport.tally.sent = wholes s.history.finished
  lost : s.transport.tally.lost = s.history.refused.length + misses s.history.finished
  queued : s.transport.enqueued = load s.history.accepted
  released : s.transport.completed = load (s.history.finished.map Prod.fst)
  clean : Clean s.transport.pool

theorem start_recorded (o : Options) : Recorded [] (Watched.start o) where
  calls := rfl
  answers := rfl
  texts := by intro p hp; cases hp
  tickets := List.nodup_nil
  order := rfl
  hands := by
    simp only [Watched.start, writing_start]
    exact List.Perm.refl _
  sent := rfl
  lost := rfl
  queued := rfl
  released := rfl
  clean := by intro b hb; cases hb

/-- a call more: its number is new, and its text is the last one handed in -/
theorem calls_snoc {ds : List Draft} {old new : List Parcel} {p : Parcel} {d : Draft} (hp : new.Perm (p :: old))
    (ht : p.ticket = ds.length) (hc : p.buffer.content = d.text)
    (texts : ∀ q ∈ old, ∃ e, ds[q.ticket]? = some e ∧ q.buffer.content = e.text)
    (tickets : (old.map Parcel.ticket).Nodup) :
    (∀ q ∈ new, ∃ e, (ds ++ [d])[q.ticket]? = some e ∧ q.buffer.content = e.text) ∧
      (new.map Parcel.ticket).Nodup := by
  constructor
  · intro q hq
    rcases List.mem_cons.1 (hp.mem_iff.1 hq) with rfl | hq
    · exact ⟨d, by rw [ht]; exact List.getElem?_concat_length, hc⟩
    · obtain ⟨e, he, hqe⟩ := texts q hq
      have hlt := (List.getElem?_eq_some_iff.1 he).1
      exact ⟨e, by rw [List.getElem?_append_left hlt]; exact he, hqe⟩
  · refine (hp.map Parcel.ticket).nodup_iff.2 (List.nodup_cons.2 ⟨?_, tickets⟩)
    intro hmem
    obtain ⟨q, hq, hqt⟩ := List.mem_map.1 hmem
    obtain ⟨e, he, -⟩ := texts q hq
    have hlt := (List.getElem?_eq_some_iff.1 he).1
    omega

section Moves

variable {ds : List Draft} {t : Transport} {y : History}

theorem incoming_content (h : Recorded ds ⟨t, y⟩) (d : Draft) : (t.incoming d).buffer.content = d.text := by
  have hclean : t.pool.get.1.content = [] := (get_clean h.clean).1
  simp [incoming, Draft.fill, hclean]

theorem accept_recorded (h : Recorded ds ⟨t, y⟩) (d : Draft) :
    Recorded (ds ++ [d])
      ⟨(t.prepared d).joined (t.incoming d), { y with accepted := y.accepted ++ [t.incoming d] }⟩ := by
  have hp : (y.accepted ++ [t.incoming d] ++ y.refused).Perm (t.incoming d :: (y.accepted ++ y.refused)) := by
    rw [List.append_assoc]
    exact List.perm_middle
  obtain ⟨htexts, htickets⟩ := calls_snoc hp h.calls (incoming_content h d) h.texts h.tickets
  constructor
  · have := h.calls
    simp only [joined, prepared, report, Pool.observe, get_count, List.length_append, List.length_singleton] at this ⊢
    omega
  · have := h.answers
    simp only [List.length_append, List.length_singleton] at this ⊢
    omega
  · exact htexts
  · exact htickets
  · have := h.order
    simp only [joined, prepared, report] at this ⊢
    rw [this, List.append_assoc]
  · exact h.hands
  · exact h.sent
  · exact h.lost
  · have := h.queued
    simp only [joined, prepared, report, load_append, load_cons, load_nil] at this ⊢
    omega
  · exact h.released
  · exact (get_clean h.clean).2

theorem refuse_recorded (h : Recorded ds ⟨t, y⟩) (d : Draft) (f : Failure) :
    Recorded (ds ++ [d]) ⟨t.refused d f, { y with refused := y.refused ++ [t.incoming d] }⟩ := by
  have hp : (y.accepted ++ (y.refused ++ [t.incoming d])).Perm (t.incoming d :: (y.accepted ++ y.refused)) := by
    rw [← List.append_assoc]
    exact List.perm_append_singleton _ _
  obtain ⟨htexts, htickets⟩ := calls_snoc hp h.calls (incoming_content h d) h.texts h.tickets
  constructor
  · have := h.calls
    simp only [refused, prepared, report, put_count, Pool.observe, get_count, List.length_append,
      List.length_singleton] at this ⊢
    omega
  · have := h.answers
    simp only [List.length_append, List.length_singleton] at this ⊢
    omega
  · exact htexts
  · exact htickets
  · simpa using h.order
  · simpa [writing] using h.hands
  · have := h.sent
    simpa [refused, prepared, report, Tally.addLost] using this
  · have := h.lost
    simp only [refused, prepared, report, lose_tally, Tally.addLost, List.length_append,
      List.length_singleton] at this ⊢
    omega
  · simpa using h.queued
  · simpa using h.released
  · have hc : Clean (t.prepared d).pool := (get_clean h.clean).2
    exact put_clean hc _

theorem take_recorded (h : Recorded ds ⟨t, y⟩) {w : Nat} {p : Parcel} {ps : List Parcel}
    (hw : t.workers[w]? = some .idle) (hq : t.queue = p :: ps) :
    Recorded ds ⟨t.taken w p ps, { y with handed := y.handed ++ [p] }⟩ := by
  refine { h with order := ?_, hands := ?_ }
  · have := h.order
    simp only [taken, setWorker, hq] at this ⊢
    rw [this]
    simp
  · calc List.Perm (y.handed ++ [p]) (p :: y.handed) := List.perm_append_singleton _ _
      List.Perm _ (p :: (y.finished.map Prod.fst ++ t.writing)) := h.hands.cons p
      List.Perm _ (y.finished.map Prod.fst ++ p :: t.writing) := List.perm_middle.symm
      List.Perm _ (y.finished.map Prod.fst ++ (t.taken w p ps).writing) :=
        ((writing_take p ps hw).append_left (y.finished.map Prod.fst)).symm

theorem finish_recorded (h : Recorded ds ⟨t, y⟩) {w : Nat} {p : Parcel} (answer : Except Failure Nat)
    (hw : t.workers[w]? = some (.writing p)) :
    Recorded ds ⟨t.finished w p answer, { y with finished := y.finished ++ [(p, answer)] }⟩ := by
  set r := t.report .latency
  have hpool := settle_pool r p.buffer answer
  have htally := settle_cases r p.buffer answer
  constructor
  · have hc : (r.settle p.buffer answer).pool.count = t.pool.count := by
      rcases hpool with hpool | hpool <;> rw [hpool]
      · exact put_count _ _
      · rfl
    exact hc.trans h.calls
  · exact h.answers
  · exact h.texts
  · exact h.tickets
  · have hq : (t.finished w p answer).queue = t.queue := by simp [finished, setWorker, release, report]
    simp only [hq]
    exact h.order
  · have h1 := (writing_finish answer hw).append_left (y.finished.map Prod.fst)
    simp only [List.map_append, List.map_cons, List.map_nil, List.append_assoc]
    exact h.hands.trans h1
  · have hs : (r.settle p.buffer answer).tally.sent = wholes (y.finished ++ [(p, answer)]) := by
      rw [wholes_snoc, ← h.sent]
      rcases htally with ⟨hwhole, hr⟩ | ⟨hmiss, f, hr⟩
      · rw [hr, if_pos hwhole]; rfl
      · rw [hr, lose_tally, hmiss]; rfl
    exact hs
  · have hl : (r.settle p.buffer answer).tally.lost = y.refused.length + misses (y.finished ++ [(p, answer)]) := by
      rw [misses_snoc, ← Nat.add_assoc, ← h.lost]
      rcases htally with ⟨hwhole, hr⟩ | ⟨hmiss, f, hr⟩
      · rw [hr, if_pos hwhole]; rfl
      · rw [hr, lose_tally, hmiss]; rfl
    exact hl
  · have hq : (t.finished w p answer).enqueued = t.enqueued := by simp [finished, setWorker, release, report]
    simp only [hq]
    exact h.queued
  · have hr : (t.finished w p answer).completed = t.completed + p.buffer.capacity := by
      simp [finished, setWorker, release, report]
    have := h.released
    simp only [hr, List.map_append, List.map_cons, List.map_nil, load_append, load_cons, load_nil] at this ⊢
    omega
  · have hc : Clean (r.settle p.buffer answer).pool := by
      rcases hpool with hpool | hpool <;> rw [hpool]
      · exact put_clean h.clean _
      · exact h.clean
    exact hc

theorem quit_recorded (h : Recorded ds ⟨t, y⟩) {w : Nat} (hw : t.workers[w]? = some .idle) :
    Recorded ds ⟨t.quit w, y⟩ :=
  { h with hands := by simpa only [writing_quit hw] using h.hands }

end Moves

/-- a step that hands in no record leaves the records handed in as they are -/
theorem recorded_of_no_draft {ds : List Draft} {s : Watched} {op : Op} (hop : drafts [op] = []) (h : Recorded ds s) :
    Recorded (ds ++ drafts [op]) s := by
  rw [hop, List.append_nil]
  exact h

/-- **One step keeps the record**, unless the sink panics in it -/
theorem step_recorded {ds : List Draft} {s : Watched} (h : Recorded ds s) (op : Op) (hop : op.isPanic = false) :
    Recorded (ds ++ drafts [op]) (s.step op) := by
  obtain ⟨t, y⟩ := s
  have hm := step_move t op
  simp only [Watched.step]
  generalize t.step op = t' at hm ⊢
  cases hm with
  | accept d hr => rw [after_accept y d hr]; exact accept_recorded h d
  | refuse d f hr => rw [after_refuse y d f hr]; exact refuse_recorded h d f
  | take w p ps hw hq => rw [after_take y hw hq]; exact recorded_of_no_draft rfl (take_recorded h hw hq)
  | finish w p answer hw => rw [after_finish y answer hw]; exact recorded_of_no_draft rfl (finish_recorded h answer hw)
  | panic w p => simp [Op.isPanic] at hop
  | leave w hw hq hc => exact recorded_of_no_draft rfl (quit_recorded h hw)
  | close => exact recorded_of_no_draft rfl { h with }
  | rest op hr => rw [after_rest y hr]; exact recorded_of_no_draft (drafts_of_not_enabled hr) h

/-- **Every run keeps the record**, as long as the sink does not panic -/
theorem run_recorded {ds : List Draft} {s : Watched} (h : Recorded ds s) (ops : List Op) (hops : Calm ops) :
    Recorded (ds ++ drafts ops) (s.run ops) := by
  induction ops generalizing ds s with
  | nil => rw [show drafts [] = [] from rfl, List.append_nil]; exact h
  | cons op ops ih =>
    have h1 := ih (step_recorded h op hops.head) hops.tail
    rw [List.append_assoc, ← drafts_append] at h1
    exact h1

/-- what was accepted stays accepted, and comes before what is accepted later -/
theorem accepted_grows (s : Watched) (ops : List Op) : s.history.accepted <+: (s.run ops).history.accepted := by
  induction ops generalizing s with
  | nil => exact List.prefix_refl _
  | cons op ops ih =>
    refine List.IsPrefix.trans ?_ (ih (s.step op))
    obtain ⟨t, y⟩ := s
    cases op with
    | submit d =>
      simp only [Watched.step, History.after]
      split
      · exact List.prefix_append _ _
      · exact List.prefix_refl _
    | _ =>
      simp only [Watched.step, History.after]
      repeat' split
      all_goals exact List.prefix_refl _

/-! ## Main result -/

/-- **Every record is accounted for.** From the start, after any steps in any order but a panic of the sink:
- as many records were handed in as are sent, lost, waiting or being written, and as many were observed by the pool;
- the records handed to the sink and those that wait are the accepted ones, in the order in which they were accepted,
  each once; no refused record is among them;
- those handed to the sink are those whose write ended and those being written;
- the parcel of a call holds the text that was handed in by that call;
- the records sent are the writes that took the record whole; the records lost are the refused ones and all other writes
  that ended. -/
theorem every_record_accounted (o : Options) (ops : List Op) (hops : Calm ops) :
    let s := (Watched.start o).run ops
    let t := s.transport
    let y := s.history
    t = (start o).run ops ∧
      ((drafts ops).length = t.tally.sent + t.tally.lost + t.queue.length + t.writing.length ∧
        (drafts ops).length = t.pool.count) ∧
      (y.handed ++ t.queue = y.accepted ∧ (y.accepted.map Parcel.ticket).Nodup ∧
        ∀ p ∈ y.refused, p.ticket ∉ (y.handed ++ t.queue).map Parcel.ticket) ∧
      y.handed.Perm (y.finished.map Prod.fst ++ t.writing) ∧
      (y.accepted.length + y.refused.length = (drafts ops).length ∧
        ∀ p ∈ y.accepted ++ y.refused, ∃ d, (drafts ops)[p.ticket]? = some d ∧ p.buffer.content = d.text) ∧
      t.tally.sent = (y.finished.filter fun x => tookWhole x.1.buffer x.2).length ∧
      t.tally.lost = y.refused.length + (y.finished.filter fun x => !tookWhole x.1.buffer x.2).length := by
  intro s t y
  have h : Recorded (drafts ops) s := run_recorded (start_recorded o) ops hops
  have hsplit := length_eq_wholes_add_misses y.finished
  have horder : y.accepted.length = (y.handed ++ t.queue).length := congrArg List.length h.order
  have hhands : y.handed.length = (y.finished.map Prod.fst ++ t.writing).length := h.hands.length_eq
  have hsent : t.tally.sent = wholes y.finished := h.sent
  have hlost : t.tally.lost = y.refused.length + misses y.finished := h.lost
  have hanswers : y.accepted.length + y.refused.length = (drafts ops).length := h.answers
  rw [List.length_append] at horder
  rw [List.length_append, List.length_map] at hhands
  obtain ⟨hnodup, -, hapart⟩ := List.nodup_append.1 (List.map_append ▸ h.tickets)
  refine ⟨Watched.run_transport _ ops, ⟨?_, h.calls.symm⟩, ⟨h.order.symm, hnodup, ?_⟩, h.hands, ⟨hanswers, h.texts⟩,
    ?_, ?_⟩
  · omega
  · intro p hp hmem
    rw [← h.order] at hmem
    exact hapart _ hmem _ (List.mem_map_of_mem hp) rfl
  · rw [← List.countP_eq_length_filter]; exact hsent
  · rw [← List.countP_eq_length_filter]; exact hlost

/-- in `smallRun` the third record is refused and the second is lost to a short write; all but the third went to the
sink or wait -/
theorem every_record_accounted_small :
    let s := (Watched.start smallOptions).run smallRun
    Calm smallRun ∧ (drafts smallRun).length = 1 + 2 + 1 + 1 ∧
      (s.history.handed ++ s.transport.queue).map Parcel.ticket = [0, 1, 3, 4] ∧ s.transport.tally.lost = 1 + 1 := by
  obtain ⟨-, ⟨h1, -⟩, ⟨h2, -, -⟩, -, -, -, h3⟩ := every_record_accounted smallOptions smallRun (by decide)
  exact ⟨by decide, h1.trans (by decide), h2 ▸ (by decide), h3.trans (by decide)⟩

end LogRelay.Transport
