/-
How a transport ends.

After the close no record is accepted. The workers empty the queue and leave one by one, and the last one closes the
sink. `Manned` ties the count of those who are still there, and of the closes of the sink, to the workers themselves,
whatever the sink does: a worker that dies in a panic is not counted out, so after a panic the sink is never closed.
- `step_manned`, `run_manned`: every step, and so every run, keeps it, panics included.
- `last_worker_closes_sink`: the sink is closed at most once, when all workers have left and nothing waits or is being
  written; no write begins after it. Without a panic, all that was accepted has been handed to the sink by then.
-/
import LogRelay.Proofs.Transport.History
import LogRelay.Transport.Shutdown

namespace LogRelay.Transport

/-! ## After the close -/

theorem step_closed {t : Transport} (h : t.closed = true) (op : Op) : (t.step op).closed = true := by
  have hm := step_move t op
  generalize t.step op = t' at hm ⊢
  cases hm with
  | refuse d f hr => rw [refused_closed]; exact h
  | finish w p answer hw => rw [finished_closed]; exact h
  | close => rfl
  | _ => exact h

/-- only a close closes a transport -/
theorem closed_of_step {t : Transport} {op : Op} (h : (t.step op).closed = true) : t.closed = true ∨ op = .close := by
  have hm := step_move t op
  generalize t.step op = t' at hm h
  cases hm with
  | refuse d f hr => rw [refused_closed] at h; exact Or.inl h
  | finish w p answer hw => rw [finished_closed] at h; exact Or.inl h
  | close => exact Or.inr rfl
  | _ => exact Or.inl h

/-- a transport is closed once its close was called for -/
theorem run_closed (t : Transport) (ops : List Op) : (t.run ops).closed = true ↔ t.closed = true ∨ .close ∈ ops := by
  induction ops generalizing t with
  | nil => simp [run]
  | cons op ops ih =>
    rw [run_cons, ih, List.mem_cons, ← or_assoc]
    refine or_congr_left ⟨fun h => (closed_of_step h).imp_right Eq.symm, ?_⟩
    rintro (h | rfl)
    · exact step_closed h op
    · rfl

/-- after the close no record is accepted -/
theorem step_accepted_of_closed {s : Watched} (h : s.transport.closed = true) (op : Op) :
    (s.step op).history.accepted = s.history.accepted := by
  obtain ⟨t, y⟩ := s
  have hm := step_move t op
  simp only [Watched.step]
  generalize t.step op = t' at hm
  cases hm with
  | accept d hr =>
    obtain ⟨hopen, -, -⟩ := refusal?_eq_none.1 hr
    exact absurd (h.symm.trans hopen) (by decide)
  | refuse d f hr => rw [after_refuse y d f hr]
  | take w p ps hw hq => rw [after_take y hw hq]
  | finish w p answer hw => rw [after_finish y answer hw]
  | panic w p hw => rfl
  | leave w hw hq hc => rfl
  | close => rfl
  | rest op hr => rw [after_rest y hr]

theorem run_accepted_of_closed {s : Watched} (h : s.transport.closed = true) (ops : List Op) :
    (s.run ops).history.accepted = s.history.accepted := by
  induction ops generalizing s with
  | nil => rfl
  | cons op ops ih =>
    rw [Watched.run_cons, ih (step_closed h op)]
    exact step_accepted_of_closed h op

/-! ## The workers that are there -/

/-- how many workers have not left in the ordinary way -/
def staff (ws : List Worker) : Nat := ws.countP fun x => x ≠ .left

/-- all workers have left in the ordinary way -/
def Deserted (t : Transport) : Prop := ∀ x ∈ t.workers, x = .left

theorem staff_eq_zero {t : Transport} : staff t.workers = 0 ↔ Deserted t := by simp [staff, Deserted]

theorem staff_replicate (n : Nat) : staff (List.replicate n .idle) = n := by
  simp [staff, List.countP_replicate]

/-- a worker that turns to something else and does not leave is still there -/
theorem staff_set {ws : List Worker} {w : Nat} {x y : Worker} (h : ws[w]? = some x) (hx : x ≠ .left) (hy : y ≠ .left) :
    staff (ws.set w y) = staff ws := by
  have hcount := countP_workers_set (fun x => decide (x ≠ .left)) h y
  simpa [staff, hx, hy] using hcount

theorem staff_leave {ws : List Worker} {w : Nat} {x : Worker} (h : ws[w]? = some x) (hx : x ≠ .left) :
    staff (ws.set w .left) + 1 = staff ws := by
  have hcount := countP_workers_set (fun x => decide (x ≠ .left)) h .left
  simpa [staff, hx] using hcount

/-- who left among workers one of whom turned to something else had left before -/
theorem left_mem_of_set {ws : List Worker} {w : Nat} {y : Worker} (h : .left ∈ ws.set w y) (hy : y ≠ .left) :
    .left ∈ ws :=
  (List.mem_or_eq_of_mem_set h).resolve_right fun e => hy e.symm

theorem writing_of_deserted {t : Transport} (h : Deserted t) : t.writing = [] := by
  refine List.filterMap_eq_nil_iff.2 fun x hx => ?_
  rw [h x hx]
  rfl

theorem not_deserted {t : Transport} {w : Nat} {x : Worker} (h : t.workers[w]? = some x) (hx : x ≠ .left) :
    ¬ Deserted t := fun hall => hx (hall x (List.mem_of_getElem? h))

/-- the counts of a transport agree with its workers; none leaves before the close, nor while a record waits -/
structure Manned (t : Transport) : Prop where
  nonempty : t.workers ≠ []
  live : t.live = staff t.workers
  closes : t.sinkCloses = if t.live = 0 then 1 else 0
  emptied : .left ∈ t.workers → t.closed = true ∧ t.queue = []

theorem start_manned {o : Options} (h : o.workers ≠ 0) : Manned (start o) where
  nonempty := by simpa [start] using h
  live := (staff_replicate o.workers).symm
  closes := (if_neg h).symm
  emptied hmem := by
    have := List.eq_of_mem_replicate hmem
    cases this

/-- the sink is closed once when all have left, and not before -/
theorem Manned.closes_eq_one {t : Transport} (h : Manned t) : t.sinkCloses = 1 ↔ Deserted t := by
  rw [h.closes, h.live, ← staff_eq_zero]
  split_ifs with hzero <;> simp [hzero]

/-- once all have left nothing waits or is being written, and the sink is closed -/
theorem Manned.deserted {t : Transport} (h : Manned t) (hall : Deserted t) :
    t.queue = [] ∧ t.writing = [] ∧ t.sinkCloses = 1 := by
  obtain ⟨x, hx⟩ := List.exists_mem_of_ne_nil _ h.nonempty
  obtain ⟨-, hqueue⟩ := h.emptied (hall x hx ▸ hx)
  exact ⟨hqueue, writing_of_deserted hall, h.closes_eq_one.2 hall⟩

theorem Manned.closed {t : Transport} (h : Manned t) : Manned t.close :=
  ⟨h.nonempty, h.live, h.closes, fun hmem => ⟨rfl, (h.emptied hmem).2⟩⟩

/-- a worker that turns to something else and stays changes no count -/
theorem Manned.of_set {t t' : Transport} (h : Manned t) {w : Nat} {x y : Worker} (hw : t.workers[w]? = some x)
    (hx : x ≠ .left) (hy : y ≠ .left) (hworkers : t'.workers = t.workers.set w y) (hlive : t'.live = t.live)
    (hcloses : t'.sinkCloses = t.sinkCloses) (hclosed : t'.closed = t.closed) (hqueue : t.queue = [] → t'.queue = []) :
    Manned t' where
  nonempty := by rw [hworkers]; simpa using h.nonempty
  live := by rw [hlive, hworkers, staff_set hw hx hy, h.live]
  closes := by rw [hcloses, hlive]; exact h.closes
  emptied hmem := by
    rw [hworkers] at hmem
    obtain ⟨hc, hq⟩ := h.emptied (left_mem_of_set hmem hy)
    exact ⟨hclosed.trans hc, hqueue hq⟩

theorem accept_manned {t : Transport} (h : Manned t) (d : Draft)
    (hr : t.refusal? (t.incoming d).buffer.capacity = none) : Manned ((t.prepared d).joined (t.incoming d)) where
  nonempty := h.nonempty
  live := h.live
  closes := h.closes
  emptied hmem := by
    -- nobody has left a transport that still accepts
    obtain ⟨hopen, -, -⟩ := refusal?_eq_none.1 hr
    have hclosed : t.closed = true := (h.emptied hmem).1
    exact absurd (hclosed.symm.trans hopen) (by decide)

theorem quit_manned {t : Transport} (h : Manned t) {w : Nat} (hw : t.workers[w]? = some .idle) (hq : t.queue = [])
    (hc : t.closed = true) : Manned (t.quit w) := by
  have hstaff : staff (t.quit w).workers + 1 = t.live := (staff_leave hw (by simp)).trans h.live.symm
  refine ⟨?_, ?_, ?_, fun _ => ⟨hc, hq⟩⟩
  · show t.workers.set w .left ≠ []
    simpa using h.nonempty
  · show t.live - 1 = _
    omega
  · have hcloses : t.sinkCloses = 0 := by rw [h.closes, if_neg (by omega)]
    show t.sinkCloses + (if t.live = 1 then 1 else 0) = if t.live - 1 = 0 then 1 else 0
    rw [hcloses, Nat.zero_add]
    exact if_congr (by omega) rfl rfl

/-- **One step keeps the count of the workers**, also when the sink panics in it -/
theorem step_manned {t : Transport} (h : Manned t) (op : Op) : Manned (t.step op) := by
  have hm := step_move t op
  generalize t.step op = t' at hm ⊢
  cases hm with
  | accept d hr => exact accept_manned h d hr
  | refuse d f hr =>
    exact ⟨by simpa using h.nonempty, by simpa using h.live, by simpa using h.closes, by simpa using h.emptied⟩
  | take w p ps hw hq =>
    exact h.of_set hw (by simp) (by simp) rfl rfl rfl rfl fun hnil => absurd (hq.symm.trans hnil) (by simp)
  | finish w p answer hw =>
    exact h.of_set hw (by simp) (by simp) (finished_workers t w p answer) (finished_live t w p answer)
      (finished_sinkCloses t w p answer) (finished_closed t w p answer) (finished_queue t w p answer).trans
  | panic w p hw => exact h.of_set hw (by simp) (by simp) rfl rfl rfl rfl id
  | leave w hw hq hc => exact quit_manned h hw hq hc
  | close => exact h.closed
  | rest op hr => exact h

/-- **Every run keeps the count of the workers** -/
theorem run_manned {t : Transport} (h : Manned t) (ops : List Op) : Manned (t.run ops) := by
  induction ops generalizing t with
  | nil => exact h
  | cons op ops ih => exact ih (step_manned h op)

/-! ## The close of the sink -/

/-- the step that closes the sink: the last worker leaves, nothing waits and nothing is being written -/
theorem sinkCloses_of_step {t : Transport} (h : Manned t) {op : Op} (hop : (t.step op).sinkCloses ≠ t.sinkCloses) :
    t.closed = true ∧ t.queue = [] ∧ t.writing = [] := by
  have hmanned := step_manned h op
  have hm := step_move t op
  generalize t.step op = t' at hm hop hmanned
  cases hm with
  | refuse d f hr => simp at hop
  | finish w p answer hw => simp at hop
  | leave w hw hq hc =>
    have hone : t.live = 1 := by
      by_contra hno
      exact hop (by simp [quit, hno])
    have hdeserted : Deserted (t.quit w) := by
      refine staff_eq_zero.1 (hmanned.live.symm.trans ?_)
      show t.live - 1 = 0
      omega
    exact ⟨hc, hq, (writing_quit hw).symm.trans (writing_of_deserted hdeserted)⟩
  | _ => exact absurd rfl hop

/-- once all workers have left nothing more is handed to the sink, and nobody comes back -/
theorem step_deserted {s : Watched} (h : Deserted s.transport) (op : Op) :
    (s.step op).history.handed = s.history.handed ∧ Deserted (s.step op).transport := by
  obtain ⟨t, y⟩ := s
  have hm := step_move t op
  simp only [Watched.step]
  generalize t.step op = t' at hm ⊢
  cases hm with
  | accept d hr => rw [after_accept y d hr]; exact ⟨rfl, h⟩
  | refuse d f hr =>
    rw [after_refuse y d f hr]
    exact ⟨rfl, by simpa [Deserted] using h⟩
  | take w p ps hw hq => exact absurd h (not_deserted hw (by simp))
  | finish w p answer hw => exact absurd h (not_deserted hw (by simp))
  | panic w p hw => exact absurd h (not_deserted hw (by simp))
  | leave w hw hq hc => exact absurd h (not_deserted hw (by simp))
  | close => exact ⟨rfl, h⟩
  | rest op hr => rw [after_rest y hr]; exact ⟨rfl, h⟩

theorem run_deserted {s : Watched} (h : Deserted s.transport) (ops : List Op) :
    (s.run ops).history.handed = s.history.handed := by
  induction ops generalizing s with
  | nil => rfl
  | cons op ops ih =>
    obtain ⟨hhanded, hall⟩ := step_deserted h op
    exact (ih hall).trans hhanded

/-! ## What was handed to the sink by then -/

/-- what was accepted was handed to the sink or waits -/
def InOrder (s : Watched) : Prop := s.history.accepted = s.history.handed ++ s.transport.queue

/-- the order is kept by every step, also when the sink panics in it -/
theorem step_inOrder {s : Watched} (h : InOrder s) (op : Op) : InOrder (s.step op) := by
  obtain ⟨t, y⟩ := s
  have hm := step_move t op
  simp only [InOrder, Watched.step] at h ⊢
  generalize t.step op = t' at hm ⊢
  cases hm with
  | accept d hr =>
    rw [after_accept y d hr]
    simp [joined, prepared, report, h]
  | refuse d f hr => rw [after_refuse y d f hr]; simpa using h
  | take w p ps hw hq =>
    rw [after_take y hw hq]
    simp [taken, setWorker, h, hq]
  | finish w p answer hw =>
    rw [after_finish y answer hw]
    simpa using h
  | panic w p hw => exact h
  | leave w hw hq hc => exact h
  | close => exact h
  | rest op hr => rw [after_rest y hr]; exact h

theorem run_inOrder {s : Watched} (h : InOrder s) (ops : List Op) : InOrder (s.run ops) := by
  induction ops generalizing s with
  | nil => exact h
  | cons op ops ih => exact ih (step_inOrder h op)

/-- nobody dies while the sink does not panic -/
theorem run_no_dead {t : Transport} (h : .dead ∉ t.workers) (ops : List Op) (hops : Calm ops) :
    .dead ∉ (t.run ops).workers := by
  induction ops generalizing t with
  | nil => exact h
  | cons op ops ih =>
    apply ih _ hops.tail
    intro hmem
    have hop := hops.head
    have hm := step_move t op
    generalize t.step op = t' at hm hmem
    cases hm with
    | refuse d f hr => rw [refused_workers] at hmem; exact h hmem
    | take w p ps hw hq => exact h ((List.mem_or_eq_of_mem_set hmem).resolve_right (by simp))
    | finish w p answer hw =>
      rw [finished_workers] at hmem
      exact h ((List.mem_or_eq_of_mem_set hmem).resolve_right (by simp))
    | panic w p hw => simp [Op.isPanic] at hop
    | leave w hw hq hc => exact h ((List.mem_or_eq_of_mem_set hmem).resolve_right (by simp))
    | _ => exact h hmem

/-- workers that are all gone, none of them dead, have all left -/
theorem deserted_of_gone {t : Transport} (hgone : ∀ w < t.workers.length, t.isGone w = true)
    (hdead : .dead ∉ t.workers) : Deserted t := by
  intro x hx
  obtain ⟨w, hw, rfl⟩ := List.getElem_of_mem hx
  have h := hgone w hw
  unfold isGone at h
  split at h
  · rename_i hleft
    exact (List.getElem?_eq_some_iff.1 hleft).2
  · rename_i hd
    exact absurd (List.mem_of_getElem? hd) hdead
  · cases h

theorem new_eq_ok {o : Options} {denied : Nat → Option IoFailure} {t : Transport} (h : new o denied = .ok t) :
    t = start o ∧ o.workers ≠ 0 := by
  unfold new at h
  split_ifs at h with hworkers hplaces
  split at h
  · cases h
  · cases h
    exact ⟨rfl, hworkers⟩

/-! ## Main result -/

/-- **The last worker closes the sink.** From the start, after any steps in any order, panics of the sink included:
- the sink was closed at most once, and it was closed exactly when all workers have left in the ordinary way;
- the step that closes it comes after a close, when nothing waits and nothing is being written;
- after it nothing more is handed to the sink, and after the close nothing more is accepted;
- if the sink did not panic and all workers are gone, the sink was closed and was handed all that was accepted. -/
theorem last_worker_closes_sink (o : Options) (denied : Nat → Option IoFailure) (t₀ : Transport)
    (hnew : new o denied = .ok t₀) (ops : List Op) :
    let s := Watched.run ⟨t₀, {}⟩ ops
    let t := s.transport
    (t.sinkCloses ≤ 1 ∧ (t.sinkCloses = 1 ↔ ∀ x ∈ t.workers, x = .left)) ∧
      (∀ op, (t.step op).sinkCloses ≠ t.sinkCloses → .close ∈ ops ∧ t.queue = [] ∧ t.writing = []) ∧
      (t.sinkCloses = 1 → ∀ more, (s.run more).history.handed = s.history.handed) ∧
      (.close ∈ ops → ∀ more, (s.run more).history.accepted = s.history.accepted) ∧
      (Calm ops → (∀ w < o.workers, t.isGone w = true) →
        t.sinkCloses = 1 ∧ s.history.handed = s.history.accepted) := by
  intro s t
  obtain ⟨rfl, hworkers⟩ := new_eq_ok hnew
  have hrun : t = (start o).run ops := Watched.run_transport _ ops
  have hmanned : Manned t := by rw [hrun]; exact run_manned (start_manned hworkers) ops
  have hclosed : t.closed = true ↔ .close ∈ ops := by
    rw [hrun, run_closed]
    simp [start]
  have hlength : t.workers.length = o.workers := by
    rw [hrun, run_workers_length]
    exact List.length_replicate
  refine ⟨⟨?_, hmanned.closes_eq_one⟩, ?_, ?_, ?_, ?_⟩
  · rw [hmanned.closes]
    split_ifs <;> omega
  · intro op hop
    obtain ⟨hc, hq, hw⟩ := sinkCloses_of_step hmanned hop
    exact ⟨hclosed.1 hc, hq, hw⟩
  · intro hone more
    apply run_deserted
    exact hmanned.closes_eq_one.1 hone
  · intro hmem more
    apply run_accepted_of_closed
    exact hclosed.2 hmem
  · intro hcalm hgone
    have hnobody : .dead ∉ (start o).workers := by
      intro hmem
      cases List.eq_of_mem_replicate hmem
    have hdead : .dead ∉ t.workers := by rw [hrun]; exact run_no_dead hnobody ops hcalm
    have hall : Deserted t := deserted_of_gone (by rw [hlength]; exact hgone) hdead
    obtain ⟨hqueue, -, hone⟩ := hmanned.deserted hall
    have horder : InOrder s := run_inOrder (s := ⟨start o, {}⟩) rfl ops
    refine ⟨hone, ?_⟩
    calc s.history.handed = s.history.handed ++ t.queue := by rw [hqueue, List.append_nil]
      _ = s.history.accepted := horder.symm

/-- what is left to do after `smallRun`: the first worker leaves while the second one still writes the last record -/
def emptying : List Op := [.finish 0 (.ok 16), .take 1, .leave 0, .finish 1 (.ok 8), .leave 1]

/-- after `smallRun` and `emptying` the sink was closed once and was handed the four records accepted, and it is
handed none after that; it was closed by the last of these steps -/
theorem last_worker_closes_sink_small :
    let s := Watched.run ⟨start smallOptions, {}⟩ (smallRun ++ emptying)
    new smallOptions (fun _ => none) = .ok (start smallOptions) ∧ s.transport.sinkCloses = 1 ∧
      s.history.accepted.length = 4 ∧ s.history.handed = s.history.accepted ∧
      (s.run [.submit (draftOf 4), .take 0]).history.handed = s.history.handed ∧
      (s.run [.submit (draftOf 4), .take 0]).history.accepted = s.history.accepted := by
  have hmem : Op.close ∈ smallRun ++ emptying := List.mem_append_left _ (by simp [smallRun])
  obtain ⟨-, -, h1, h2, h3⟩ :=
    last_worker_closes_sink smallOptions (fun _ => none) (start smallOptions) rfl (smallRun ++ emptying)
  obtain ⟨h4, h5⟩ := h3 (by decide) (by decide)
  exact ⟨rfl, h4, by decide, h5, h1 h4 _, h2 hmem _⟩

end LogRelay.Transport
