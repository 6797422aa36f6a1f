/-
What one call to a registry does.

`Move r op r'` lists all that can happen in a call, each with the condition under which it happens and the registry it
leads to:
- a logger is asked for with a flawed configuration, or needs a transport for which a thread is denied: nothing changes;
- a logger is made, with the open transport registered under its key (`share`) or with a new one, which is registered
  (`make`);
- a logger is closed for the first time, by itself or in a shutdown: what is registered under its key goes, and its
  transport is closed (`letGo`);
- a logger that was closed before, or that is not there, is closed, and nothing changes;
- an entry is removed.
`step_move`: every call is one of these. A shutdown also takes the workers of the transport away, to wait for them; of
that nothing is seen here, where a transport is only open or closed (`Agrees`, `join_agrees`).
-/
import Mathlib.Tactic
import LogRelay.Registry

namespace LogRelay

/-- why the system starts no thread for a worker of a new transport, if it starts none for one of them -/
def Config.denied? (c : Config) (denied : Nat → Option IoFailure) : Option IoFailure :=
  (List.range c.workerCount.toNat).findSome? denied

namespace Registry

def empty (localName : String) : Registry := { localName := localName }

/-- one logger with the default settings, and its transport -/
def relay : Registry :=
  { localName := "relay", transports := [.start (.ofConfig {})], loggers := [.ofConfig {} "relay" 0 none] }

theorem run_append (r : Registry) (a b : List Op) : r.run (a ++ b) = (r.run a).run b := by simp [run, List.foldl_append]

theorem run_snoc (r : Registry) (ops : List Op) (op : Op) : r.run (ops ++ [op]) = (r.run ops).step op := by
  rw [run_append]
  rfl

/-- the logger a call closes, if it closes one -/
def Op.closes? : Op → Option Nat
  | close i => some i
  | shutdown i => some i
  | _ => none

def Op.isRemove : Op → Bool
  | remove _ => true
  | _ => false

/-! ## Entries and transports -/

section Entries

variable (r : Registry)

@[simp] theorem get?_remove (k k' : Key) : (r.remove k).get? k' = if k' = k then none else r.get? k' := by
  show (r.entries.filter fun e => e.1 != k).lookup k' = if k' = k then none else r.entries.lookup k'
  induction r.entries with
  | nil => simp
  | cons e es ih =>
    obtain ⟨a, n⟩ := e
    by_cases hak : a = k
    · rw [List.filter_cons_of_neg (by simpa using hak), ih]
      by_cases hk : k' = k
      · rw [if_pos hk, if_pos hk]
      · have hb : (k' == a) = false := by simpa [hak] using hk
        rw [if_neg hk, if_neg hk, List.lookup_cons, hb]
    · rw [List.filter_cons_of_pos (by simpa using hak), List.lookup_cons, List.lookup_cons, ih]
      by_cases hk : k' = a
      · subst hk; simp [hak]
      · have hb : (k' == a) = false := by simpa using hk
        rw [hb]

@[simp] theorem get?_insert (k k' : Key) (n : Nat) :
    (r.insert k n).get? k' = if k' = k then some n else r.get? k' := by
  have h : (r.insert k n).get? k' = if k' == k then some n else (r.remove k).get? k' := by
    unfold get? insert
    rw [List.lookup_cons]
    cases k' == k <;> rfl
  rw [h, get?_remove]
  by_cases hk : k' = k <;> simp [hk]

@[simp] theorem isClosed_closeTransport (n m : Nat) :
    (r.closeTransport n).isClosed m = (r.isClosed m || m == n) := by
  unfold isClosed closeTransport
  rw [List.getElem?_modify]
  by_cases hmn : n = m
  · subst hmn; cases r.transports[n]? <;> simp [Transport.close]
  · have hb : (m == n) = false := by simpa using Ne.symm hmn
    cases r.transports[m]? <;> simp [hmn, hb]

/-- a closed transport that takes the place of one of the transports -/
theorem isClosed_setTransport {n : Nat} {t : Transport} (ht : t.closed = true) (m : Nat) :
    (r.setTransport n t).isClosed m = (r.isClosed m || m == n) := by
  unfold isClosed setTransport
  rw [List.getElem?_set]
  by_cases hmn : n = m
  · subst hmn
    by_cases hlt : n < r.transports.length <;> simp [hlt, ht]
  · have hb : (m == n) = false := by simpa using Ne.symm hmn
    simp [hmn, hb]

theorem isClosed_of_le {n : Nat} (h : r.transports.length ≤ n) : r.isClosed n = true := by
  unfold isClosed
  rw [List.getElem?_eq_none h]
  rfl

/-- a transport that can be shared is the one that is registered, and open -/
theorem shared?_eq_some {k : Key} {n : Nat} : r.shared? k = some n ↔ r.get? k = some n ∧ r.isClosed n = false := by
  simp [shared?, Option.filter_eq_some_iff]

end Entries

/-! ## The effects of a call -/

/-- one more logger, with a given transport -/
def share (r : Registry) (c : Config) (n : Nat) : Registry := (r.addLogger (.ofConfig c r.localName n (some c.key))).2

/-- one more logger, with a new transport -/
def make (r : Registry) (c : Config) : Registry :=
  ({ r with transports := r.transports ++ [Transport.start (.ofConfig c)] }.insert c.key r.transports.length).share c
    r.transports.length

/-- a logger is closed for the first time -/
def letGo (r : Registry) (i : Nat) (l : Logger) : Registry :=
  ((l.key.elim id fun k r => r.remove k) (r.setLogger i { l with closed := true })).closeTransport l.transport

/-- the workers of the transport of a logger are taken away, to be waited for -/
def join (r : Registry) (i : Nat) : Registry :=
  match r.transportOf? i with
  | some (n, t) => r.setTransport n t.beginShutdown.2
  | none => r

section Effects

variable (r : Registry) (c : Config) (n m : Nat) (k : Key)

@[simp] theorem share_loggers :
    (r.share c n).loggers = r.loggers ++ [.ofConfig c r.localName n (some c.key)] := rfl

theorem mem_share {l : Logger} :
    l ∈ (r.share c n).loggers ↔ l ∈ r.loggers ∨ l = .ofConfig c r.localName n (some c.key) := by
  rw [share_loggers, List.mem_append, List.mem_singleton]

@[simp] theorem share_get? : (r.share c n).get? k = r.get? k := rfl

@[simp] theorem share_transports : (r.share c n).transports = r.transports := rfl

@[simp] theorem share_isClosed : (r.share c n).isClosed m = r.isClosed m := rfl

@[simp] theorem make_loggers :
    (r.make c).loggers = r.loggers ++ [.ofConfig c r.localName r.transports.length (some c.key)] := rfl

theorem mem_make {l : Logger} :
    l ∈ (r.make c).loggers ↔ l ∈ r.loggers ∨ l = .ofConfig c r.localName r.transports.length (some c.key) := by
  rw [make_loggers, List.mem_append, List.mem_singleton]

@[simp] theorem make_transports : (r.make c).transports = r.transports ++ [.start (.ofConfig c)] := rfl

@[simp] theorem make_get? :
    (r.make c).get? k = if k = c.key then some r.transports.length else r.get? k := by
  rw [make, share_get?, get?_insert]
  rfl

/-- the new transport is open, and nothing happens to the others -/
@[simp] theorem make_isClosed :
    (r.make c).isClosed m = (r.isClosed m && m != r.transports.length) := by
  unfold isClosed
  rw [make_transports]
  rcases Nat.lt_trichotomy m r.transports.length with hlt | heq | hgt
  · have hb : (m != r.transports.length) = true := by simpa using hlt.ne
    rw [List.getElem?_append_left hlt, hb, Bool.and_true]
  · subst heq
    simp [Transport.start]
  · have hb : (m != r.transports.length) = true := by simpa using hgt.ne'
    rw [List.getElem?_eq_none (by simpa using hgt), List.getElem?_eq_none hgt.le, hb]
    rfl

variable (i : Nat) (l : Logger)

@[simp] theorem letGo_loggers : (r.letGo i l).loggers = r.loggers.set i { l with closed := true } := by
  unfold letGo
  cases l.key <;> rfl

@[simp] theorem letGo_transports : (r.letGo i l).transports = r.transports.modify l.transport Transport.close := by
  unfold letGo
  cases l.key <;> rfl

@[simp] theorem letGo_get? : (r.letGo i l).get? k = if l.key = some k then none else r.get? k := by
  unfold letGo
  cases l.key with
  | none => simp; rfl
  | some k' =>
    show ((r.setLogger i { l with closed := true }).remove k').get? k = _
    rw [get?_remove]
    simp only [Option.some.injEq, eq_comm (a := k)]
    rfl

@[simp] theorem letGo_isClosed : (r.letGo i l).isClosed m = (r.isClosed m || m == l.transport) := by
  unfold letGo
  rw [isClosed_closeTransport]
  cases l.key <;> rfl

end Effects

/-! ## Registries that agree -/

/-- the same entries and loggers, and as many transports, of which the same are closed -/
structure Agrees (r r' : Registry) : Prop where
  entries : r'.entries = r.entries
  loggers : r'.loggers = r.loggers
  count : r'.transports.length = r.transports.length
  closed : ∀ n, r'.isClosed n = r.isClosed n

theorem Agrees.refl (r : Registry) : Agrees r r := ⟨rfl, rfl, rfl, fun _ => rfl⟩

theorem Agrees.get? {r r' : Registry} (h : Agrees r r') (k : Key) : r'.get? k = r.get? k :=
  congrArg (List.lookup k) h.entries

/-- the transport of a closed logger is closed -/
def Settled (r : Registry) : Prop := ∀ l ∈ r.loggers, l.closed = true → r.isClosed l.transport = true

/-- nothing is seen of it when the workers of a closed transport are taken away -/
theorem join_agrees {r : Registry} {i : Nat} (h : ∀ l, r.loggers[i]? = some l → r.isClosed l.transport = true) :
    Agrees r (r.join i) := by
  unfold join
  split
  · rename_i n t ht
    obtain ⟨l, hl, hn⟩ : ∃ l, r.loggers[i]? = some l ∧ l.transport = n := by
      simp only [transportOf?, Option.bind_eq_bind, Option.bind_eq_some_iff] at ht
      obtain ⟨l, hl, t', -, hp⟩ := ht
      exact ⟨l, hl, by cases hp; rfl⟩
    refine ⟨rfl, rfl, by simp [setTransport], fun m => ?_⟩
    rw [isClosed_setTransport r rfl m]
    by_cases hm : m = n
    · subst hm; rw [← hn, h l hl]; rfl
    · have hb : (m == n) = false := by simpa using hm
      rw [hb, Bool.or_false]
  · exact .refl r

/-! ## Calls -/

/-- why a logger is not made, if it is not: its configuration has a flaw, or the transport it needs lacks a thread -/
def failure? (r : Registry) (c : Config) (denied : Nat → Option IoFailure) : Option Failure :=
  match c.validate, r.shared? c.key with
  | .error f, _ => some f
  | .ok (), some _ => none
  | .ok (), none => (c.denied? denied).map .io

section Calls

variable {r : Registry} {c : Config} {denied : Nat → Option IoFailure} {op : Op} {i : Nat} {l : Logger}

/-- a configuration without a flaw leaves only the threads to be denied -/
theorem new_of_validate (hc : c.validate = .ok ()) (denied : Nat → Option IoFailure) :
    Transport.new (.ofConfig c) denied = match c.denied? denied with
      | some f => .error (.io f)
      | none => .ok (.start (.ofConfig c)) := by
  have hflaw : c.flaw? = none := by
    unfold Config.validate at hc
    split at hc
    · cases hc
    · assumption
  have hw : c.workerCount ≠ 0 := by
    intro h
    rw [Config.flaw?, if_pos h] at hflaw
    cases hflaw
  have hq : c.queueCapacity ≠ 0 := by
    intro h
    rw [Config.flaw?, if_neg hw, if_pos h] at hflaw
    cases hflaw
  have hw' : (Transport.Options.ofConfig c).workers ≠ 0 := fun h => hw (UInt64.toNat_inj.1 h)
  have hq' : (Transport.Options.ofConfig c).queueCapacity ≠ 0 := fun h => hq (UInt64.toNat_inj.1 h)
  rw [Transport.new, if_neg hw', if_neg hq']
  rfl

/-- a logger that is not made leaves nothing behind -/
theorem logger_failed {f : Failure} (hf : r.failure? c denied = some f) : r.logger c denied = (.error f, r) := by
  unfold failure? at hf
  cases hc : c.validate with
  | error g =>
    rw [hc] at hf
    cases hf
    simp only [logger, hc]
  | ok u =>
    cases hn : r.shared? c.key with
    | some n => simp only [hc, hn, reduceCtorEq] at hf
    | none =>
      simp only [hc, hn, Option.map_eq_some_iff] at hf
      obtain ⟨g, hg, rfl⟩ := hf
      simp only [logger, hc, transportFor, hn, addTransport, new_of_validate hc, hg]

theorem logger_share {n : Nat} (hc : c.validate = .ok ()) (hn : r.shared? c.key = some n) :
    r.logger c denied = (.ok r.loggers.length, r.share c n) := by
  simp only [logger, hc, transportFor, hn]
  rfl

theorem logger_make (hc : c.validate = .ok ()) (hn : r.shared? c.key = none) (hd : c.denied? denied = none) :
    r.logger c denied = (.ok r.loggers.length, r.make c) := by
  simp only [logger, hc, transportFor, hn, addTransport, new_of_validate hc, hd]
  rfl

theorem failure?_eq_none : r.failure? c denied = none ↔
    c.validate = .ok () ∧ (r.shared? c.key = none → c.denied? denied = none) := by
  unfold failure?
  cases c.validate with
  | error f => simp
  | ok u => cases r.shared? c.key <;> simp

theorem close_letGo (hl : r.loggers[i]? = some l) (ho : l.closed = false) : r.close i = r.letGo i l := by
  simp only [close, hl, ho, Bool.false_eq_true, if_false, letGo]
  cases l.key <;> rfl

theorem close_idle (h : ∀ l, r.loggers[i]? = some l → l.closed = true) : r.close i = r := by
  unfold close
  split
  · rfl
  · rename_i l hl
    rw [if_pos (h l hl)]

theorem step_shutdown : r.step (.shutdown i) = (r.close i).join i := by
  simp only [step, beginShutdown, join]
  cases (r.close i).transportOf? i <;> rfl

theorem step_letGo (hop : op.closes? = some i) (hl : r.loggers[i]? = some l) (ho : l.closed = false) :
    Agrees (r.letGo i l) (r.step op) := by
  cases op with
  | close j =>
    cases hop
    rw [step, close_letGo hl ho]
    exact .refl _
  | shutdown j =>
    cases hop
    rw [step_shutdown, close_letGo hl ho]
    apply join_agrees
    intro l' hl'
    obtain ⟨hlt, -⟩ := List.getElem?_eq_some_iff.1 hl
    rw [letGo_loggers, List.getElem?_set_self hlt] at hl'
    cases hl'
    simp
  | logger c denied => cases hop
  | remove k => cases hop

/-- a later close, or one of a logger that is not there -/
theorem step_idle (hs : r.Settled) (hop : op.closes? = some i) (h : ∀ l, r.loggers[i]? = some l → l.closed = true) :
    Agrees r (r.step op) := by
  cases op with
  | close j =>
    cases hop
    rw [step, close_idle h]
    exact .refl r
  | shutdown j =>
    cases hop
    rw [step_shutdown, close_idle h]
    exact join_agrees fun l hl => hs l (List.mem_of_getElem? hl) (h l hl)
  | logger c denied => cases hop
  | remove k => cases hop

end Calls

/-! ## Moves -/

/-- what a call does, by its kind and by what it finds -/
inductive Move (r : Registry) : Op → Registry → Prop
  | failed (c : Config) (denied : Nat → Option IoFailure) (f : Failure) (hf : r.failure? c denied = some f) :
      Move r (.logger c denied) r
  | share (c : Config) (denied : Nat → Option IoFailure) (n : Nat) (hc : c.validate = .ok ())
      (hn : r.shared? c.key = some n) : Move r (.logger c denied) (r.share c n)
  | make (c : Config) (denied : Nat → Option IoFailure) (hc : c.validate = .ok ()) (hn : r.shared? c.key = none)
      (hd : c.denied? denied = none) : Move r (.logger c denied) (r.make c)
  | letGo (op : Op) (i : Nat) (l : Logger) (hop : op.closes? = some i) (hl : r.loggers[i]? = some l)
      (ho : l.closed = false) : Move r op (r.letGo i l)
  | idle (op : Op) (i : Nat) (hop : op.closes? = some i) (h : ∀ l, r.loggers[i]? = some l → l.closed = true) :
      Move r op r
  | remove (k : Key) : Move r (.remove k) (r.remove k)

theorem logger_move (r : Registry) (c : Config) (denied : Nat → Option IoFailure) :
    Move r (.logger c denied) (r.step (.logger c denied)) := by
  rw [step]
  cases hf : r.failure? c denied with
  | some f =>
    rw [logger_failed hf]
    exact .failed c denied f hf
  | none =>
    obtain ⟨hc, hthreads⟩ := failure?_eq_none.1 hf
    cases hn : r.shared? c.key with
    | some n =>
      rw [logger_share hc hn]
      exact .share c denied n hc hn
    | none =>
      have hd := hthreads hn
      rw [logger_make hc hn hd]
      exact .make c denied hc hn hd

theorem closing_move {r : Registry} (hs : r.Settled) {op : Op} {i : Nat} (hop : op.closes? = some i) :
    ∃ r', Move r op r' ∧ Agrees r' (r.step op) := by
  by_cases h : ∀ l, r.loggers[i]? = some l → l.closed = true
  · exact ⟨r, .idle op i hop h, step_idle hs hop h⟩
  · obtain ⟨l, h⟩ := not_forall.1 h
    obtain ⟨hl, ho⟩ := Classical.not_imp.1 h
    have ho' : l.closed = false := by simpa using ho
    exact ⟨r.letGo i l, .letGo op i l hop hl ho', step_letGo hop hl ho'⟩

/-- **Every call is a move**, but for the workers of a transport that is closed. -/
theorem step_move {r : Registry} (hs : r.Settled) (op : Op) : ∃ r', Move r op r' ∧ Agrees r' (r.step op) := by
  cases op with
  | logger c denied => exact ⟨_, logger_move r c denied, .refl _⟩
  | close i => exact closing_move hs rfl
  | shutdown i => exact closing_move hs rfl
  | remove k => exact ⟨_, .remove k, .refl _⟩

end Registry
end LogRelay
