/-
What a flush can be trusted with.

A flush notes how many octets were ever queued when it begins, and answers that all is written once as many octets are
released. It does not ask which records they belong to. `FlushSound o m` says that a transport with settings `o` keeps
the word of its flushes, as long as every record takes a buffer of at least `m` octets: when a flush answers, every
record accepted before it began has been written.
- `flush_sound_iff`: this holds exactly when the queue has no place at all, or when no record takes no octets and at
  most one record can be written at a time: because there is at most one worker, or because two records do not fit
  into the transport.
- `overtaken`: with two workers, a record accepted after the flush began can be written before one accepted before it;
  its octets stand in for those of the other, and the flush answers while the other is still being written.
- `flush_ignores_empty_record`: a record that takes no octets is not waited for at all.
What carries the positive half is `InTurn`: with one record written at a time, writes end in the order in which the
records were accepted, so the records written and those accepted before the flush are beginnings of one list, and the
one with more octets is the longer one.
-/
import LogRelay.Proofs.Transport.Balance
import LogRelay.Proofs.Transport.History

namespace LogRelay.Transport

/-- every record handed in takes at least `m` octets, whatever buffer it is put into -/
def Roomy (m : Nat) (ops : List Op) : Prop := ∀ d ∈ drafts ops, ∀ c, m ≤ d.room c

/-- with these settings a flush that answers is right, as long as every record takes at least `m` octets: it begins
after the steps `before`, looks for the last time after the steps `during`, and finds all written that was accepted
before it began -/
def FlushSound (o : Options) (m : Nat) : Prop :=
  ∀ before during : List Op, Calm (before ++ during) → Roomy m (before ++ during) →
    let s := (Watched.start o).run before
    let s' := s.run during
    ∀ target cause, s.transport.beginFlush = .ok target → s'.transport.endFlush target cause = .ok () →
      ∀ p ∈ s.history.accepted, p ∈ s'.history.finished.map Prod.fst

theorem calm_append {a b : List Op} : Calm (a ++ b) ↔ Calm a ∧ Calm b := List.forall_mem_append

theorem roomy_append {m : Nat} {a b : List Op} : Roomy m (a ++ b) ↔ Roomy m a ∧ Roomy m b := by
  unfold Roomy
  rw [drafts_append]
  exact List.forall_mem_append

theorem beginFlush_eq_ok {t : Transport} {target : Nat} (h : t.beginFlush = .ok target) : target = t.enqueued := by
  unfold beginFlush at h
  split_ifs at h
  cases h
  rfl

theorem endFlush_eq_ok {t : Transport} {target : Nat} {cause : Failure} :
    t.endFlush target cause = .ok () ↔ target ≤ t.completed := by
  unfold endFlush flushed
  split_ifs with h <;> simpa using h

/-! ## Records written in turn -/

/-- the writes ended in the order in which the records were handed to the sink -/
def InTurn (s : Watched) : Prop := s.history.handed = s.history.finished.map Prod.fst ++ s.transport.writing

/-- at most one record is being written -/
def Narrow (t : Transport) : Prop := t.writing.length ≤ 1

theorem perm_cons_narrow {a b : List Parcel} {p : Parcel} (h : a.Perm (p :: b)) (ha : a.length ≤ 1) :
    a = [p] ∧ b = [] := by
  have hlen := h.length_eq
  rw [List.length_cons] at hlen
  have hb : b = [] := List.eq_nil_of_length_eq_zero (by omega)
  subst hb
  exact ⟨List.perm_singleton.1 h, rfl⟩

/-- as long as at most one record is written at a time, writes end in turn -/
theorem step_inTurn {s : Watched} (h : InTurn s) (op : Op) (hop : op.isPanic = false) (hn : Narrow s.transport)
    (hn' : Narrow (s.step op).transport) : InTurn (s.step op) := by
  obtain ⟨t, y⟩ := s
  have hm := step_move t op
  simp only [InTurn, Narrow, Watched.step] at h hn hn' ⊢
  generalize t.step op = t' at hm hn' ⊢
  cases hm with
  | accept d hr => rw [after_accept y d hr]; exact h
  | refuse d f hr => rw [after_refuse y d f hr]; simpa [writing] using h
  | take w p ps hw hq =>
    obtain ⟨h1, h2⟩ := perm_cons_narrow (writing_take p ps hw) hn'
    rw [after_take y hw hq, h1]
    rw [h2, List.append_nil] at h
    simp only [h]
  | finish w p answer hw =>
    obtain ⟨h1, h2⟩ := perm_cons_narrow (writing_finish answer hw) hn
    rw [after_finish y answer hw, h2]
    rw [h1] at h
    simpa using h
  | panic w p => simp [Op.isPanic] at hop
  | leave w hw hq hc => rw [writing_quit hw]; exact h
  | close => exact h
  | rest op hr => rw [after_rest y hr]; exact h

/-! ## When at most one record is written at a time -/

/-- every accepted record takes at least `m` octets -/
def Wide (m : Nat) (s : Watched) : Prop := ∀ p ∈ s.history.accepted, m ≤ p.buffer.capacity

theorem step_wide {m : Nat} {s : Watched} (h : Wide m s) (op : Op) (hop : Roomy m [op]) : Wide m (s.step op) := by
  obtain ⟨t, y⟩ := s
  cases op with
  | submit d =>
    simp only [Wide, Watched.step, History.after] at h ⊢
    split
    · intro p hp
      rcases List.mem_append.1 hp with hp | hp
      · exact h p hp
      · rw [List.mem_singleton] at hp
        subst hp
        exact hop d (by simp [drafts, Op.draft?]) _
    · exact h
  | _ =>
    simp only [Wide, Watched.step, History.after] at h ⊢
    repeat' split
    all_goals exact h

theorem run_wide {m : Nat} {s : Watched} (h : Wide m s) (ops : List Op) (hops : Roomy m ops) : Wide m (s.run ops) := by
  induction ops generalizing s with
  | nil => exact h
  | cons op ops ih =>
    obtain ⟨h1, h2⟩ := (roomy_append (a := [op])).1 hops
    exact ih (step_wide h op h1) h2

/-- all that is pending was accepted -/
theorem pending_subset {ds : List Draft} {s : Watched} (h : Recorded ds s) :
    ∀ p ∈ s.transport.pending, p ∈ s.history.accepted := by
  intro p hp
  rw [h.order]
  rcases List.mem_append.1 hp with hp | hp
  · exact List.mem_append_right _ hp
  · exact List.mem_append_left _ (h.hands.mem_iff.2 (List.mem_append_right _ hp))

/-- **One at a time**: with at most one worker, or when two records do not fit, two are never written at once -/
theorem run_narrow (o : Options) (m : Nat) (hseq : o.workers ≤ 1 ∨ o.bufferSize < 2 * m) (ops : List Op)
    (hops : Calm ops) (hroom : Roomy m ops) : Narrow ((Watched.start o).run ops).transport := by
  set s := (Watched.start o).run ops
  have hs : s.transport = (start o).run ops := Watched.run_transport _ ops
  rcases hseq with hw | hb
  · have hlen : s.transport.workers.length = o.workers := by
      rw [hs, run_workers_length]
      exact List.length_replicate
    have hle : s.transport.writing.length ≤ s.transport.workers.length := List.length_filterMap_le _ _
    exact hle.trans (hlen.trans_le hw)
  · have hrec : Recorded (drafts ops) s := run_recorded (start_recorded o) ops hops
    have hwide : Wide m s := run_wide (by intro p hp; cases hp) ops hroom
    have hbal : Balanced s.transport := by rw [hs]; exact run_balanced (start_balanced o) ops hops
    have hopt : s.transport.options = o := by rw [hs]; exact run_options _ ops
    have hload := length_mul_le_load m s.transport.pending fun p hp => hwide p (pending_subset hrec p hp)
    have hceil := hbal.ceiling
    rw [hbal.inFlight, hopt] at hceil
    have hlt : s.transport.pending.length * m < 2 * m := by omega
    have hone : s.transport.pending.length < 2 := Nat.lt_of_mul_lt_mul_right hlt
    rw [pending, List.length_append] at hone
    unfold Narrow
    omega

theorem run_inTurn (o : Options) (m : Nat) (hseq : o.workers ≤ 1 ∨ o.bufferSize < 2 * m) (ops : List Op)
    (hops : Calm ops) (hroom : Roomy m ops) : InTurn ((Watched.start o).run ops) := by
  induction ops using List.reverseRecOn with
  | nil =>
    simp only [InTurn, Watched.run, Watched.start, List.foldl_nil, writing_start]
    rfl
  | append_singleton ops op ih =>
    obtain ⟨hc1, hc2⟩ := calm_append.1 hops
    obtain ⟨hr1, hr2⟩ := roomy_append.1 hroom
    have hn := run_narrow o m hseq ops hc1 hr1
    have hn' := run_narrow o m hseq (ops ++ [op]) hops hroom
    rw [Watched.run_append] at hn' ⊢
    exact step_inTurn (ih hc1 hr1) op hc2.head hn hn'

/-! ## Flushes that keep their word -/

/-- of two beginnings of one list, the one that takes up more octets is the longer one, when every parcel takes some -/
theorem prefix_of_load_le {m : Nat} (hm : 0 < m) {l a b : List Parcel} (ha : a <+: l) (hb : b <+: l)
    (hwide : ∀ p ∈ l, m ≤ p.buffer.capacity) (h : load a ≤ load b) : a <+: b := by
  rcases List.prefix_or_prefix_of_prefix ha hb with hab | hba
  · exact hab
  · obtain ⟨c, rfl⟩ := hba
    have hc := length_mul_le_load m c fun p hp => hwide p (ha.subset (List.mem_append_right b hp))
    rw [load_append] at h
    have hzero : c.length * m = 0 := by omega
    have hnil : c = [] := by
      rcases Nat.mul_eq_zero.1 hzero with hc | hm0
      · exact List.eq_nil_of_length_eq_zero hc
      · omega
    rw [hnil, List.append_nil]

theorem sound_of_one_at_a_time (o : Options) (m : Nat) (hm : 0 < m) (hseq : o.workers ≤ 1 ∨ o.bufferSize < 2 * m) :
    FlushSound o m := by
  intro before during hcalm hroom s s' target cause hbegin hend p hp
  have hrun : s' = (Watched.start o).run (before ++ during) := (Watched.run_append _ before during).symm
  have hrec : Recorded (drafts before) s := run_recorded (start_recorded o) before (calm_append.1 hcalm).1
  have hrec' : Recorded (drafts (before ++ during)) s' := by
    rw [hrun]; exact run_recorded (start_recorded o) _ hcalm
  have hwide : Wide m s' := by
    rw [hrun]; exact run_wide (by intro q hq; cases hq) _ hroom
  have hturn : InTurn s' := by
    rw [hrun]; exact run_inTurn o m hseq _ hcalm hroom
  have hdone : s'.history.finished.map Prod.fst <+: s'.history.accepted := by
    rw [hrec'.order, hturn, List.append_assoc]
    exact List.prefix_append _ _
  have hload : load s.history.accepted ≤ load (s'.history.finished.map Prod.fst) := by
    rw [← hrec.queued, ← hrec'.released, ← beginFlush_eq_ok hbegin]
    exact endFlush_eq_ok.1 hend
  exact (prefix_of_load_le hm (accepted_grows s during) hdone hwide hload).subset hp

/-- a queue without places accepts nothing -/
theorem run_accepts_nothing {s : Watched} (hq : s.transport.options.queueCapacity = 0) (h : s.history.accepted = [])
    (ops : List Op) : (s.run ops).history.accepted = [] := by
  induction ops generalizing s with
  | nil => exact h
  | cons op ops ih =>
    have hopt : (s.step op).transport.options = s.transport.options := step_options _ op
    refine ih (by rw [hopt]; exact hq) ?_
    obtain ⟨t, y⟩ := s
    have hm := step_move t op
    simp only [Watched.step]
    generalize t.step op = t' at hm
    cases hm with
    | accept d hr =>
      obtain ⟨-, -, hplace⟩ := refusal?_eq_none.1 hr
      have hq' : t.options.queueCapacity = 0 := hq
      omega
    | refuse d f hr => rw [after_refuse y d f hr]; exact h
    | take w p ps hw hq => rw [after_take y hw hq]; exact h
    | finish w p answer hw => rw [after_finish y answer hw]; exact h
    | panic w p hw => exact h
    | leave w hw hq hc => exact h
    | close => exact h
    | rest op hr => rw [after_rest y hr]; exact h

/-! ## Flushes that do not -/

theorem incoming_draftOf (t : Transport) (m : Nat) (h : t.pool.idle = []) :
    (t.incoming (draftOf m)).buffer.capacity = m := by
  simp [incoming, Pool.get, h, Draft.fill, draftOf, Draft.sized]

theorem roomy_draftOf (m : Nat) (ops : List Op) (h : ∀ d ∈ drafts ops, d = draftOf m) : Roomy m ops := by
  intro d hd c
  rw [h d hd]
  exact (Nat.le_max_left m _).trans (Nat.le_max_right c _)

/-- a record that takes no octets is not waited for: it still waits in the queue when the flush answers -/
theorem empty_not_awaited (o : Options) (hq : 0 < o.queueCapacity) :
    let s := (Watched.start o).run [.submit (draftOf 0)]
    s.transport.beginFlush = .ok 0 ∧ s.history.accepted.map Parcel.ticket = [0] ∧ s.history.finished = [] := by
  intro s
  have hr : (start o).refusal? ((start o).incoming (draftOf 0)).buffer.capacity = none :=
    refusal?_eq_none.2 ⟨rfl, Nat.zero_le _, hq⟩
  have hs : s = _ := watched_accept {} (draftOf 0) hr
  rw [hs]
  exact ⟨rfl, rfl, rfl⟩

/-- **Overtaken.** With two workers, two records of `m` octets, the second accepted after the flush began: the second
worker is done with its record first, and as many octets are released as the flush waits for. -/
theorem overtaken (o : Options) (m n : Nat) (hw : o.workers = n + 2) (hq : 0 < o.queueCapacity)
    (hb : 2 * m ≤ o.bufferSize) :
    let s := (Watched.start o).run [.submit (draftOf m), .take 0]
    let s' := s.run [.submit (draftOf m), .take 1, .finish 1 (.ok m)]
    s.transport.beginFlush = .ok m ∧ s'.transport.completed = m ∧ s.history.accepted.map Parcel.ticket = [0] ∧
      s'.history.finished.map (fun x => x.1.ticket) = [1] := by
  obtain ⟨k, places, limit, e, r⟩ := o
  simp only at hw hq hb
  subst hw
  intro s s'
  -- the first record is accepted and taken
  set t := start ⟨n + 2, places, limit, e, r⟩
  set p := t.incoming (draftOf m)
  have hp : p.buffer.capacity = m := incoming_draftOf t m rfl
  have hr : t.refusal? p.buffer.capacity = none := by
    refine refusal?_eq_none.2 ⟨rfl, ?_, hq⟩
    show 0 + p.buffer.capacity ≤ limit
    omega
  set t1 := ((t.prepared (draftOf m)).joined p).taken 0 p []
  have hs : s = ⟨t1, ⟨[p], [], [p], []⟩⟩ := by
    have h1 : Watched.step ⟨t, {}⟩ (.submit (draftOf m)) = ⟨(t.prepared (draftOf m)).joined p, ⟨[p], [], [], []⟩⟩ :=
      watched_accept {} (draftOf m) hr
    have h2 : Watched.step ⟨(t.prepared (draftOf m)).joined p, ⟨[p], [], [], []⟩⟩ (.take 0) =
        ⟨t1, ⟨[p], [], [p], []⟩⟩ := watched_take _ rfl rfl
    exact (congrArg (fun x => Watched.step x (.take 0)) h1).trans h2
  -- so is the second, while the first is still being written
  set q := t1.incoming (draftOf m)
  have hq1 : q.buffer.capacity = m := incoming_draftOf t1 m rfl
  have hr1 : t1.refusal? q.buffer.capacity = none := by
    refine refusal?_eq_none.2 ⟨rfl, ?_, hq⟩
    show 0 + p.buffer.capacity + q.buffer.capacity ≤ limit
    omega
  set t2 := ((t1.prepared (draftOf m)).joined q).taken 1 q []
  have hs' : s' = ⟨t2.finished 1 q (.ok m), ⟨[p, q], [], [p, q], [(q, .ok m)]⟩⟩ := by
    have h1 : Watched.step s (.submit (draftOf m)) =
        ⟨(t1.prepared (draftOf m)).joined q, ⟨[p, q], [], [p], []⟩⟩ := by
      rw [hs]; exact watched_accept _ (draftOf m) hr1
    have h2 : Watched.step ⟨(t1.prepared (draftOf m)).joined q, ⟨[p, q], [], [p], []⟩⟩ (.take 1) =
        ⟨t2, ⟨[p, q], [], [p, q], []⟩⟩ := watched_take _ rfl rfl
    have h3 : Watched.step ⟨t2, ⟨[p, q], [], [p, q], []⟩⟩ (.finish 1 (.ok m)) =
        ⟨t2.finished 1 q (.ok m), ⟨[p, q], [], [p, q], [(q, .ok m)]⟩⟩ := watched_finish _ (.ok m) rfl
    rw [← h3, ← h2, ← h1]
    rfl
  rw [hs, hs']
  refine ⟨?_, ?_, rfl, rfl⟩
  · show Except.ok (0 + p.buffer.capacity) = Except.ok m
    rw [hp, Nat.zero_add]
  · simp only [finished, setWorker, release, report, settle_completed]
    show 0 + q.buffer.capacity = m
    omega

theorem exists_of_tickets {l : List Parcel} {k : Nat} (h : l.map Parcel.ticket = [k]) : ∃ p, p ∈ l := by
  obtain ⟨p, rfl, -⟩ := List.map_eq_singleton_iff.1 h
  exact ⟨p, List.mem_singleton_self p⟩

theorem unsound_of_room (o : Options) (m : Nat) (hq : 0 < o.queueCapacity)
    (hm : m = 0 ∨ 2 ≤ o.workers ∧ 2 * m ≤ o.bufferSize) : ¬ FlushSound o m := by
  intro h
  rcases hm with rfl | ⟨hw, hb⟩
  · obtain ⟨h1, h2, h3⟩ := empty_not_awaited o hq
    have hdone := h [.submit (draftOf 0)] [] (by decide) (fun _ _ _ => Nat.zero_le _) 0 .cancelled h1
      (endFlush_eq_ok.2 (Nat.zero_le _))
    obtain ⟨p, hp⟩ := exists_of_tickets h2
    have hfin := hdone p hp
    rw [Watched.run, List.foldl_nil, h3] at hfin
    cases hfin
  · obtain ⟨n, hn⟩ : ∃ n, o.workers = n + 2 := ⟨o.workers - 2, by omega⟩
    obtain ⟨h1, h2, h3, h4⟩ := overtaken o m n hn hq hb
    have hroom : Roomy m [.submit (draftOf m), .take 0, .submit (draftOf m), .take 1, .finish 1 (.ok m)] :=
      roomy_draftOf m _ (by simp [drafts, Op.draft?])
    have hdone := h [.submit (draftOf m), .take 0] [.submit (draftOf m), .take 1, .finish 1 (.ok m)]
      (by simp [Calm, Op.isPanic]) hroom m .cancelled h1 (endFlush_eq_ok.2 h2.ge)
    obtain ⟨p, hp⟩ := exists_of_tickets h3
    -- it has the number 0, and what was written has the number 1
    have h0 : p.ticket ∈ [0] := h3 ▸ List.mem_map_of_mem hp
    obtain ⟨x, hx, hxp⟩ := List.mem_map.1 (hdone p hp)
    have h1 : x.1.ticket ∈ [1] := h4 ▸ List.mem_map.2 ⟨x, hx, rfl⟩
    rw [hxp] at h1
    rw [List.mem_singleton] at h0 h1
    omega

/-! ## Main result -/

/-- **A flush counts octets, not records.** A flush that answers is right in every run exactly when nothing can ever be
queued, or when every record takes octets and at most one record can be written at a time: because there is at most one
worker, or because two records do not fit. -/
theorem flush_sound_iff (o : Options) (m : Nat) :
    FlushSound o m ↔ o.queueCapacity = 0 ∨ (0 < m ∧ (o.workers ≤ 1 ∨ o.bufferSize < 2 * m)) := by
  constructor
  · intro h
    by_contra hno
    push Not at hno
    obtain ⟨hq, hm⟩ := hno
    refine unsound_of_room o m (Nat.pos_of_ne_zero hq) ?_ h
    rcases Nat.eq_zero_or_pos m with h0 | hpos
    · exact Or.inl h0
    · obtain ⟨hw, hb⟩ := hm hpos
      exact Or.inr ⟨hw, hb⟩
  · rintro (hq | ⟨hm, hseq⟩)
    · intro before during _ _ s s' target cause _ _ p hp
      have hnone : s.history.accepted = [] := run_accepts_nothing hq rfl before
      rw [hnone] at hp
      cases hp
    · exact sound_of_one_at_a_time o m hm hseq

/-- one worker, and a record that takes no octets: the flush answers while the record is being written -/
theorem flush_ignores_empty_record :
    let s := (Watched.start ⟨1, 64, 1048576, false, 16384⟩).run [.submit (draftOf 0), .take 0]
    s.transport.flush .deadlineExceeded = .ok () ∧ s.history.accepted.length = 1 ∧ s.history.finished.length = 0 ∧
      s.transport.writing = s.history.accepted := by
  decide

end LogRelay.Transport
