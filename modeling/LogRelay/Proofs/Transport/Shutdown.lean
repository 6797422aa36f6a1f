/-
What the answer of a shutdown is worth.

`Attended` runs a transport together with the shutdowns called for, any number of them and at any time: a shutdown
begins, passes the workers it finds gone one by one, whenever it comes to look at them, and at some moment gives its
answer, because it has passed all or because its time is up. Between any two of these steps the transport may do
whatever it can.
- `look_eq_of_pass`: to pass a worker first and then look is to look, so every order of the looks is covered.
- `shutdown_answer_iff`: the first shutdown answers yes exactly when all workers have left in the ordinary way at that
  moment; then nothing waits, nothing is being written and the sink is closed. Every later one answers yes, whatever
  the workers do, because the first one took all workers it could have looked at.
- `beginShutdown_logger`: a shutdown called for through a logger is one of its transport.
-/
import LogRelay.Proofs.Registry.Move
import LogRelay.Proofs.Transport.Ending

namespace LogRelay.Transport

/-! ## The machine -/

/-- a shutdown passes the next worker, if that one is gone -/
def pass (t : Transport) (s : Shutdown) : Option (Shutdown × Transport) :=
  match s.waiting with
  | [] => none
  | w :: ws =>
    match t.workers[w]? with
    | some .left => some (⟨ws, s.clean⟩, t)
    | some .dead => some (⟨ws, false⟩, t.notify .workerDead)
    | _ => none

/-- a transport and the shutdowns called for so far, the first one first -/
structure Attended where
  transport : Transport
  calls : List Progress

namespace Attended

inductive Op where
  | work (op : Transport.Op)
  | shutdown
  /-- a shutdown passes one worker -/
  | pass (i : Nat)
  /-- a shutdown looks at all workers it has not passed; `expired` is its time once that is up -/
  | look (i : Nat) (expired : Option Nat)

def start (o : Options) : Attended := ⟨Transport.start o, []⟩

def step (a : Attended) : Op → Attended
  | .work op => { a with transport := a.transport.step op }
  | .shutdown =>
    let (s, t) := a.transport.beginShutdown
    ⟨t, a.calls ++ [.waiting s]⟩
  | .pass i =>
    match a.calls[i]? with
    | some (.waiting s) =>
      match a.transport.pass s with
      | some (s, t) => ⟨t, a.calls.set i (.waiting s)⟩
      | none => a
    | _ => a
  | .look i expired =>
    match a.calls[i]? with
    | some (.waiting s) =>
      let (p, t) := a.transport.look expired s.waiting s.clean
      ⟨t, a.calls.set i p⟩
    | _ => a

def run (a : Attended) (ops : List Op) : Attended := ops.foldl step a

/-- what a shutdown answers if it looks now, unless it waits on or has answered -/
def answer? (a : Attended) (i : Nat) (expired : Option Nat) : Option Bool :=
  match a.calls[i]? with
  | some (.waiting s) =>
    match (a.transport.look expired s.waiting s.clean).1 with
    | .answered clean => some clean
    | .waiting _ => none
  | _ => none

end Attended

/-! ## Looking at the workers -/

/-- a shutdown passes workers that have left and workers that are dead -/
theorem pass_cases {t t' : Transport} {s s' : Shutdown} (h : t.pass s = some (s', t')) : ∃ w ws, s.waiting = w :: ws ∧
    ((t.workers[w]? = some .left ∧ s' = ⟨ws, s.clean⟩ ∧ t' = t) ∨
      (t.workers[w]? = some .dead ∧ s' = ⟨ws, false⟩ ∧ t' = t.notify .workerDead)) := by
  unfold pass at h
  split at h
  · cases h
  · rename_i w ws hwaiting
    split at h
    · rename_i hleft
      cases h
      exact ⟨w, ws, hwaiting, Or.inl ⟨hleft, rfl, rfl⟩⟩
    · rename_i hdead
      cases h
      exact ⟨w, ws, hwaiting, Or.inr ⟨hdead, rfl, rfl⟩⟩
    · cases h

theorem look_cons (expired : Option Nat) (w : Nat) (ws : List Nat) (clean : Bool) (t : Transport) :
    look expired (w :: ws) clean t =
      if t.isGone w then
        if t.workers[w]? = some .dead then look expired ws false (t.notify .workerDead) else look expired ws clean t
      else expired.elim (.waiting ⟨w :: ws, clean⟩, t) fun m => (.answered false, t.notify (.workerBusy m)) := by
  cases expired <;> rfl

/-- a look touches nothing but the notices -/
theorem look_eq (expired : Option Nat) (ws : List Nat) (clean : Bool) (t : Transport) :
    (look expired ws clean t).2 = { t with notices := (look expired ws clean t).2.notices } := by
  induction ws generalizing clean t with
  | nil => rfl
  | cons w ws ih =>
    rw [look_cons]
    split_ifs
    · exact ih false (t.notify .workerDead)
    · exact ih clean t
    · cases expired <;> rfl

/-- to pass a worker touches nothing but the notices -/
theorem pass_eq {t t' : Transport} {s s' : Shutdown} (h : t.pass s = some (s', t')) :
    t' = { t with notices := t'.notices } := by
  obtain ⟨-, -, -, ⟨-, -, rfl⟩ | ⟨-, -, rfl⟩⟩ := pass_cases h <;> rfl

/-- **A look passes the workers one by one**: to pass the next one and then look is to look at once -/
theorem look_eq_of_pass {t t' : Transport} {s s' : Shutdown} (h : t.pass s = some (s', t')) (expired : Option Nat) :
    look expired s.waiting s.clean t = look expired s'.waiting s'.clean t' := by
  obtain ⟨w, ws, hwaiting, ⟨hw, rfl, rfl⟩ | ⟨hw, rfl, rfl⟩⟩ := pass_cases h <;> rw [hwaiting, look_cons] <;>
    simp [isGone, hw]

/-- where no worker can be passed, a look ends: all are passed, the time is up, or it waits on -/
theorem look_eq_of_no_pass {t : Transport} {s : Shutdown} (h : t.pass s = none) (expired : Option Nat) :
    (s.waiting = [] ∧ look expired s.waiting s.clean t = (.answered s.clean, t)) ∨
      ∃ w ws, s.waiting = w :: ws ∧ t.isGone w = false ∧
        look expired s.waiting s.clean t =
          expired.elim (.waiting s, t) fun m => (.answered false, t.notify (.workerBusy m)) := by
  obtain ⟨waiting, clean⟩ := s
  cases waiting with
  | nil => exact Or.inl ⟨rfl, rfl⟩
  | cons w ws =>
    refine Or.inr ⟨w, ws, rfl, ?_⟩
    have hgone : t.isGone w = false := by
      unfold pass at h
      unfold isGone
      split <;> simp_all
    refine ⟨hgone, ?_⟩
    rw [look_cons, hgone]
    rfl

/-- what a shutdown that took all workers knows of them -/
structure Seen (workers : List Worker) (s : Shutdown) : Prop where
  within : ∀ w ∈ s.waiting, w < workers.length
  /-- the workers passed have left or are dead, and a dead one is remembered -/
  passed : ∀ w < workers.length, w ∉ s.waiting →
    workers[w]? = some .left ∨ workers[w]? = some .dead ∧ s.clean = false
  unclean : s.clean = false → .dead ∈ workers

theorem seen_range (workers : List Worker) : Seen workers ⟨List.range workers.length, true⟩ where
  within w hw := List.mem_range.1 hw
  passed w hw hno := absurd (List.mem_range.2 hw) hno
  unclean h := by cases h

/-- all passed: none was dead exactly when all have left -/
theorem Seen.clean_iff {workers : List Worker} {clean : Bool} (h : Seen workers ⟨[], clean⟩) :
    clean = true ↔ ∀ x ∈ workers, x = .left := by
  constructor
  · intro hclean x hx
    obtain ⟨w, hw, rfl⟩ := List.getElem_of_mem hx
    rcases h.passed w hw List.not_mem_nil with hleft | ⟨-, hfalse⟩
    · exact (List.getElem?_eq_some_iff.1 hleft).2
    · exact absurd (hclean.symm.trans hfalse) (by decide)
  · intro hall
    by_contra hno
    have hdead := h.unclean (by simpa using hno)
    cases hall _ hdead

theorem pass_seen {t t' : Transport} {s s' : Shutdown} (h : Seen t.workers s) (hp : t.pass s = some (s', t')) :
    Seen t.workers s' := by
  obtain ⟨w, ws, hwaiting, hnext⟩ := pass_cases hp
  have hws : ∀ v ∈ ws, v < t.workers.length := fun v hv => h.within v (hwaiting ▸ List.mem_cons_of_mem w hv)
  have hold : ∀ v < t.workers.length, v ∉ ws → v ≠ w →
      t.workers[v]? = some .left ∨ t.workers[v]? = some .dead ∧ s.clean = false := by
    intro v hv hno hvw
    apply h.passed v hv
    rw [hwaiting]
    exact List.not_mem_cons_of_ne_of_not_mem hvw hno
  rcases hnext with ⟨hw, rfl, -⟩ | ⟨hw, rfl, -⟩
  · refine ⟨hws, ?_, h.unclean⟩
    intro v hv hno
    by_cases hvw : v = w
    · exact Or.inl (hvw ▸ hw)
    · exact hold v hv hno hvw
  · refine ⟨hws, ?_, fun _ => List.mem_of_getElem? hw⟩
    intro v hv hno
    by_cases hvw : v = w
    · exact Or.inr ⟨hvw ▸ hw, rfl⟩
    · exact (hold v hv hno hvw).imp_right fun hdead => ⟨hdead.1, rfl⟩

/-- a shutdown tells the truth of the workers: as long as it waits by what it has seen, and at the end by its answer -/
def Progress.Truthful (workers : List Worker) : Progress → Prop
  | waiting s => Seen workers s
  | answered clean => clean = true ↔ ∀ x ∈ workers, x = .left

/-- a worker that is still there has not left -/
theorem not_deserted_of_not_gone {t : Transport} {w : Nat} (hw : w < t.workers.length) (h : t.isGone w = false) :
    ¬ ∀ x ∈ t.workers, x = .left := by
  intro hall
  have hleft : t.workers[w]? = some .left := by
    rw [List.getElem?_eq_getElem hw, hall _ (List.getElem_mem hw)]
  simp [isGone, hleft] at h

/-- **A look at all workers tells the truth.** By induction on the workers that are still to be passed. -/
theorem look_truthful {t : Transport} {s : Shutdown} (h : Seen t.workers s) (expired : Option Nat) :
    (look expired s.waiting s.clean t).1.Truthful t.workers := by
  obtain ⟨waiting, clean⟩ := s
  induction waiting generalizing clean t with
  | nil => exact h.clean_iff
  | cons w ws ih =>
    cases hp : t.pass ⟨w :: ws, clean⟩ with
    | some next =>
      obtain ⟨⟨ws', clean'⟩, t'⟩ := next
      have hseen := pass_seen h hp
      have hworkers : t'.workers = t.workers := by rw [pass_eq hp]
      have hws : ws' = ws := by
        obtain ⟨_, _, hwaiting, ⟨-, hnext, -⟩ | ⟨-, hnext, -⟩⟩ := pass_cases hp
          <;> cases hwaiting <;> cases hnext <;> rfl
      subst hws
      rw [look_eq_of_pass hp, ← hworkers]
      exact ih clean' (hworkers.symm ▸ hseen)
    | none =>
      rcases look_eq_of_no_pass hp expired with ⟨hnil, -⟩ | ⟨w, ws, hwaiting, hgone, hlook⟩
      · cases hnil
      · rw [hlook]
        cases expired with
        | none => exact h
        | some m =>
          have hw : w < t.workers.length := h.within w (by rw [hwaiting]; exact List.mem_cons_self)
          simpa [Progress.Truthful] using not_deserted_of_not_gone hw hgone

/-! ## The invariant -/

/-- who is gone stays gone -/
theorem step_gone {t : Transport} {w : Nat} {x : Worker} (h : t.workers[w]? = some x) (hx : x = .left ∨ x = .dead)
    (op : Op) : (t.step op).workers[w]? = some x := by
  rcases step_workers t op with hsame | ⟨v, z, y, hv, hleft, hdead, hset⟩
  · rw [hsame]; exact h
  · have hvw : v ≠ w := by
      rintro rfl
      rw [h] at hv
      cases hv
      exact hx.elim hleft hdead
    rw [hset, List.getElem?_set_ne hvw]
    exact h

/-- what was seen of the workers stays true -/
theorem Seen.step {t : Transport} {s : Shutdown} (h : Seen t.workers s) (op : Op) : Seen (t.step op).workers s where
  within w hw := by rw [step_workers_length]; exact h.within w hw
  passed w hw hno := by
    rw [step_workers_length] at hw
    rcases h.passed w hw hno with hleft | ⟨hdead, hclean⟩
    · exact Or.inl (step_gone hleft (Or.inl rfl) op)
    · exact Or.inr ⟨step_gone hdead (Or.inr rfl) op, hclean⟩
  unclean hclean := by
    obtain ⟨w, hw⟩ := List.mem_iff_getElem?.1 (h.unclean hclean)
    exact List.mem_of_getElem? (step_gone hw (Or.inr rfl) op)

/-- no step of the workers or of a caller waits for a worker -/
theorem step_unjoined (t : Transport) (op : Op) : (t.step op).unjoined = t.unjoined := by
  have hm := step_move t op
  generalize t.step op = t' at hm ⊢
  cases hm with
  | refuse d f hr => exact refused_unjoined t d f
  | finish w p answer hw => exact finished_unjoined t w p answer
  | _ => rfl

/-- a shutdown that had no workers to look at -/
def Progress.IsVoid (p : Progress) : Prop := p = .waiting ⟨[], true⟩ ∨ p = .answered true

/-- the first shutdown took all workers, and has seen of them what is true; the later ones took none -/
def Attending (a : Attended) : Prop :=
  match a.calls with
  | [] => a.transport.unjoined = List.range a.transport.workers.length
  | first :: later => a.transport.unjoined = [] ∧ (∀ p ∈ later, p.IsVoid) ∧
      ∀ s, first = .waiting s → Seen a.transport.workers s

theorem start_attending (o : Options) : Attending (Attended.start o) := by
  show List.range o.workers = List.range (List.replicate o.workers Worker.idle).length
  rw [List.length_replicate]

theorem work_attending {a : Attended} (h : Attending a) (op : Transport.Op) : Attending (a.step (.work op)) := by
  obtain ⟨t, calls⟩ := a
  cases calls with
  | nil =>
    simp only [Attending, Attended.step, step_unjoined, step_workers_length] at h ⊢
    exact h
  | cons first later =>
    obtain ⟨hnone, hvoid, hseen⟩ := h
    exact ⟨(step_unjoined t op).trans hnone, hvoid, fun s hs => (hseen s hs).step op⟩

theorem shutdown_attending {a : Attended} (h : Attending a) : Attending (a.step .shutdown) := by
  obtain ⟨t, calls⟩ := a
  cases calls with
  | nil =>
    refine ⟨rfl, List.forall_mem_nil _, fun s hs => ?_⟩
    cases hs
    have hall : t.unjoined = List.range t.workers.length := h
    rw [hall]
    exact seen_range t.workers
  | cons first later =>
    -- the workers are taken already, so this shutdown begins with none to look at
    obtain ⟨hnone, hvoid, hseen⟩ := h
    refine ⟨rfl, ?_, hseen⟩
    intro p hp
    rcases List.mem_append.1 hp with hp | hp
    · exact hvoid p hp
    · rw [List.mem_singleton] at hp
      left
      calc p = .waiting ⟨t.unjoined, true⟩ := hp
        _ = .waiting ⟨[], true⟩ := by rw [hnone]

/-- a shutdown that waits gets on: what it has seen stays true, and one that had no workers to look at still has none -/
theorem Attending.advance {t t' : Transport} {calls : List Progress} (h : Attending ⟨t, calls⟩) {i : Nat} {s : Shutdown}
    {p : Progress} (hi : calls[i]? = some (.waiting s)) (hworkers : t'.workers = t.workers)
    (hunjoined : t'.unjoined = t.unjoined) (hseen : Seen t.workers s → ∀ s', p = .waiting s' → Seen t.workers s')
    (hvoid : s = ⟨[], true⟩ → p.IsVoid) : Attending ⟨t', calls.set i p⟩ := by
  cases calls with
  | nil => cases hi
  | cons first later =>
    obtain ⟨hnone, hlater, hfirst⟩ := h
    cases i with
    | zero =>
      cases hi
      refine ⟨hunjoined.trans hnone, hlater, ?_⟩
      intro s' hs'
      rw [hworkers]
      exact hseen (hfirst s rfl) s' hs'
    | succ j =>
      refine ⟨hunjoined.trans hnone, ?_, fun s' hs' => hworkers ▸ hfirst s' hs'⟩
      intro q hq
      rcases List.mem_or_eq_of_mem_set hq with hq | rfl
      · exact hlater q hq
      · rcases hlater _ (List.mem_of_getElem? hi) with hwaiting | hanswered
        · cases hwaiting
          exact hvoid rfl
        · cases hanswered

theorem pass_attending {a : Attended} (h : Attending a) (i : Nat) : Attending (a.step (.pass i)) := by
  simp only [Attended.step]
  split
  · rename_i s hi
    split
    · rename_i s' t' hp
      refine h.advance hi (by rw [pass_eq hp]) (by rw [pass_eq hp]) (fun hseen s'' hs'' => ?_) fun hs => ?_
      · cases hs''
        exact pass_seen hseen hp
      · subst hs
        cases hp
    · exact h
  · exact h

theorem look_attending {a : Attended} (h : Attending a) (i : Nat) (expired : Option Nat) :
    Attending (a.step (.look i expired)) := by
  simp only [Attended.step]
  split
  · rename_i s hi
    have ht := look_eq expired s.waiting s.clean a.transport
    refine h.advance hi (by rw [ht]) (by rw [ht]) (fun hseen s' hs' => ?_) fun hs => ?_
    · have htrue := look_truthful hseen expired
      rw [hs'] at htrue
      exact htrue
    · subst hs
      exact Or.inr rfl
  · exact h

/-- **One step keeps what the shutdowns know true** -/
theorem step_attending {a : Attended} (h : Attending a) (op : Attended.Op) : Attending (a.step op) := by
  cases op with
  | work op => exact work_attending h op
  | shutdown => exact shutdown_attending h
  | pass i => exact pass_attending h i
  | look i expired => exact look_attending h i expired

/-- **Every run keeps what the shutdowns know true** -/
theorem run_attending {a : Attended} (h : Attending a) (ops : List Attended.Op) : Attending (a.run ops) := by
  induction ops generalizing a with
  | nil => exact h
  | cons op ops ih => exact ih (step_attending h op)

/-- waiting for workers does not change how many there are -/
theorem step_attended_manned {a : Attended} (h : Manned a.transport) (op : Attended.Op) :
    Manned (a.step op).transport := by
  cases op with
  | work op => exact step_manned h op
  | shutdown => exact ⟨h.closed.nonempty, h.closed.live, h.closed.closes, h.closed.emptied⟩
  | pass i =>
    simp only [Attended.step]
    split
    · split
      · rename_i hp
        rw [pass_eq hp]
        exact ⟨h.nonempty, h.live, h.closes, h.emptied⟩
      · exact h
    · exact h
  | look i expired =>
    simp only [Attended.step]
    split
    · rw [look_eq]
      exact ⟨h.nonempty, h.live, h.closes, h.emptied⟩
    · exact h

theorem run_attended_manned {a : Attended} (h : Manned a.transport) (ops : List Attended.Op) :
    Manned (a.run ops).transport := by
  induction ops generalizing a with
  | nil => exact h
  | cons op ops ih => exact ih (step_attended_manned h op)

/-! ## Answers -/

/-- the answer of the first shutdown is the truth about the workers, that of a later one is yes -/
theorem Attending.answer_iff {a : Attended} (h : Attending a) {i : Nat} {expired : Option Nat} {b : Bool}
    (hb : a.answer? i expired = some b) : b = true ↔ i ≠ 0 ∨ Deserted a.transport := by
  obtain ⟨t, calls⟩ := a
  simp only [Attended.answer?] at hb
  split at hb
  · rename_i s hi
    split at hb
    · rename_i clean hlook
      cases hb
      cases calls with
      | nil => cases hi
      | cons first later =>
        obtain ⟨-, hlater, hfirst⟩ := h
        cases i with
        | zero =>
          cases hi
          have htrue := look_truthful (hfirst s rfl) expired
          rw [hlook] at htrue
          simpa [Progress.Truthful, Deserted] using htrue
        | succ j =>
          have hvoid := hlater _ (List.mem_of_getElem? hi)
          have hs : s = ⟨[], true⟩ := by
            rcases hvoid with hwaiting | hanswered
            · cases hwaiting; rfl
            · cases hanswered
          subst hs
          cases hlook
          simp
    · cases hb
  · cases hb

/-! ## Through a logger -/

theorem transportOf?_eq_some {r : Registry} {i n : Nat} {t : Transport} : r.transportOf? i = some (n, t) ↔
    ∃ l, r.loggers[i]? = some l ∧ l.transport = n ∧ r.transports[n]? = some t := by
  simp only [Registry.transportOf?, Option.bind_eq_bind, Option.bind_eq_some_iff, Option.pure_def, Option.some.injEq,
    Prod.mk.injEq]
  constructor
  · rintro ⟨l, hl, t', ht, rfl, rfl⟩
    exact ⟨l, hl, rfl, ht⟩
  · rintro ⟨l, hl, rfl, ht⟩
    exact ⟨l, hl, t, ht, rfl, rfl⟩

/-- a shutdown called for through a logger is a shutdown of its transport -/
theorem beginShutdown_logger {r : Registry} {i n : Nat} {t : Transport} (h : r.transportOf? i = some (n, t)) :
    (r.beginShutdown i).1 = t.beginShutdown.1 ∧ (r.beginShutdown i).2.transports[n]? = some t.beginShutdown.2 := by
  obtain ⟨l, hl, rfl, ht⟩ := transportOf?_eq_some.1 h
  -- the close of the logger closes the transport or does nothing, and the shutdown closes it in any case
  obtain ⟨t', ht', hbegin⟩ : ∃ t', (r.close i).transportOf? i = some (l.transport, t') ∧
      t'.beginShutdown = t.beginShutdown := by
    cases hclosed : l.closed with
    | true =>
      refine ⟨t, ?_, rfl⟩
      rw [Registry.close_idle fun l' hl' => by rw [hl] at hl'; cases hl'; exact hclosed]
      exact h
    | false =>
      refine ⟨t.close, transportOf?_eq_some.2 ⟨{ l with closed := true }, ?_, rfl, ?_⟩, rfl⟩
      · rw [Registry.close_letGo hl hclosed, Registry.letGo_loggers]
        exact List.getElem?_set_self (List.getElem?_eq_some_iff.1 hl).1
      · rw [Registry.close_letGo hl hclosed, Registry.letGo_transports, List.getElem?_modify]
        simp [ht]
  have hlength : l.transport < (r.close i).transports.length := by
    obtain ⟨-, -, -, hget⟩ := transportOf?_eq_some.1 ht'
    exact (List.getElem?_eq_some_iff.1 hget).1
  simp only [Registry.beginShutdown, ht', hbegin, true_and]
  exact List.getElem?_set_self hlength

/-! ## Main result -/

/-- **What a shutdown answers.** After any steps in any order, panics of the sink included, and with any number of
shutdowns called for at any time: when a shutdown answers,
- the first one answers yes exactly when all workers have left in the ordinary way at that moment, every later one
  answers yes in any case;
- once all workers have left nothing waits, nothing is being written and the sink is closed.
A shutdown called for through a logger is one of its transport. -/
theorem shutdown_answer_iff (o : Options) (denied : Nat → Option IoFailure) (t₀ : Transport)
    (hnew : new o denied = .ok t₀) (ops : List Attended.Op) :
    let a := Attended.run ⟨t₀, []⟩ ops
    let t := a.transport
    (∀ i expired b, a.answer? i expired = some b → (b = true ↔ i ≠ 0 ∨ ∀ x ∈ t.workers, x = .left)) ∧
      ((∀ x ∈ t.workers, x = .left) → t.queue = [] ∧ t.writing = [] ∧ t.sinkCloses = 1) ∧
      ∀ (r : Registry) (i n : Nat), r.transportOf? i = some (n, t) →
        (r.beginShutdown i).1 = t.beginShutdown.1 ∧ (r.beginShutdown i).2.transports[n]? = some t.beginShutdown.2 := by
  intro a t
  obtain ⟨rfl, hworkers⟩ := new_eq_ok hnew
  have hattending : Attending a := run_attending (start_attending o) ops
  have hmanned : Manned t := run_attended_manned (start_manned hworkers) ops
  exact ⟨fun i expired b hb => hattending.answer_iff hb, hmanned.deserted, fun r i n hr => beginShutdown_logger hr⟩

/-- two workers, of which the second one dies while it writes; the first one empties the queue and leaves -/
def mournful : List Attended.Op :=
  [.work (.submit (draftOf 8)), .work (.take 0), .work (.submit (draftOf 12)), .work (.take 1), .shutdown,
    .work (.panic 1), .work (.finish 0 (.ok 8)), .look 0 none, .work (.leave 0), .pass 0]

/-- after `mournful` the first shutdown answers no, because a worker is dead, and another one answers yes -/
theorem shutdown_answer_iff_mournful :
    let a := Attended.run ⟨start smallOptions, []⟩ (mournful ++ [.shutdown])
    new smallOptions (fun _ => none) = .ok (start smallOptions) ∧ a.answer? 0 none = some false ∧
      a.answer? 1 none = some true ∧ ¬ (∀ x ∈ a.transport.workers, x = .left) := by
  obtain ⟨h, -, -⟩ :=
    shutdown_answer_iff smallOptions (fun _ => none) (start smallOptions) rfl (mournful ++ [.shutdown])
  have hno := (h 0 none false (by decide)).not.1 (by decide)
  exact ⟨rfl, by decide, by decide, fun hall => hno (Or.inr hall)⟩

/-- one worker, and a record that is being written: the first shutdown gives up after 20 ms, and the second one
answers yes at once, with the record still being written -/
theorem second_shutdown_sees_nobody :
    let a := (Attended.start ⟨1, 64, 1048576, false, 16384⟩).run
      [.work (.submit (draftOf 1)), .work (.take 0), .shutdown, .look 0 (some 20), .shutdown]
    a.calls = [.answered false, .waiting ⟨[], true⟩] ∧ a.answer? 1 (some 20) = some true ∧
      a.transport.writing.length = 1 ∧ ¬ (∀ x ∈ a.transport.workers, x = .left) := by
  decide

end LogRelay.Transport
