/-
What is registered is open, and a call touches one key.

A registry is to hand out transports that still take records, and a call about one key is to leave the others alone.
Loggers of one key close their transport for each other, at any time and in any number, and entries are replaced and
removed meanwhile; so both are read off what holds in every run.
- `Distinct`: a key has one entry at most, so each entry is what a logger of its key would find (`get?_of_mem`). With
  `Sound`, each entry is open (`entry_open`).
- `logger_ready`: a logger that is made has the transport registered under its key, which is open. `logger_error`: a
  call that makes none leaves the registry as it was, since a transport is registered only once it has its threads.
- `step_untouched`: the entry, the loggers' transports and the state of these transports stay as they are for every
  key but the one a call is about. That takes `Sound.apart`: a transport that is closed, or whose workers are taken
  away, is of no other key.
- `entries_open`: all of it, after any run.
-/
import LogRelay.Proofs.Registry.Sharing
import LogRelay.Proofs.Transport.Shutdown

namespace LogRelay.Registry

/-! ## Entries -/

/-- no key has two entries -/
def Distinct (r : Registry) : Prop := (r.entries.map Prod.fst).Nodup

section Entries

variable {r : Registry} {k : Key} {n : Nat}

theorem get?_of_mem (h : Distinct r) (hm : (k, n) ∈ r.entries) : r.get? k = some n := by
  obtain ⟨pre, post, he⟩ := List.append_of_mem hm
  refine List.lookup_eq_some_iff.2 ⟨pre, post, he, fun p hp => ?_⟩
  rw [Distinct, he, List.map_append, List.nodup_append] at h
  have hne : p.1 ≠ k := h.2.2 p.1 (List.mem_map_of_mem hp) k (by simp)
  simpa using hne.symm

theorem remove_distinct (h : Distinct r) : Distinct (r.remove k) := h.sublist (List.filter_sublist.map Prod.fst)

theorem insert_distinct (h : Distinct r) : Distinct (r.insert k n) := by
  refine List.nodup_cons.2 ⟨fun hk => ?_, remove_distinct h⟩
  obtain ⟨e, he, hek⟩ := List.mem_map.1 hk
  obtain ⟨-, hne⟩ := List.mem_filter.1 he
  exact absurd hek (by simpa using hne)

theorem letGo_distinct (h : Distinct r) {i : Nat} {l : Logger} : Distinct (r.letGo i l) := by
  unfold letGo
  cases l.key with
  | none => exact h
  | some k => exact remove_distinct h

theorem step_distinct (hs : Sound r) (h : Distinct r) (op : Op) : Distinct (r.step op) := by
  obtain ⟨r', hm, ha⟩ := step_move hs.settled op
  rw [Distinct, ha.entries]
  cases hm with
  | failed c denied f hf => exact h
  | share c denied n hc hn => exact h
  | make c denied hc hn hd => exact insert_distinct h
  | letGo op i l hop hl ho => exact letGo_distinct h
  | idle op i hop hi => exact h
  | remove k => exact remove_distinct h

theorem run_distinct (hs : Sound r) (h : Distinct r) (ops : List Op) : Distinct (r.run ops) := by
  induction ops generalizing r with
  | nil => exact h
  | cons op ops ih => exact ih (step_sound hs op) (step_distinct hs h op)

theorem exists_of_open (h : r.isClosed n = false) : ∃ t, r.transports[n]? = some t ∧ t.closed = false := by
  unfold isClosed at h
  cases ht : r.transports[n]? with
  | none => rw [ht] at h; cases h
  | some t => rw [ht] at h; exact ⟨t, rfl, h⟩

theorem entry_open (hs : Sound r) (h : Distinct r) {e : Key × Nat} (he : e ∈ r.entries) :
    ∃ t, r.transports[e.2]? = some t ∧ t.closed = false :=
  exists_of_open (hs.live e.1 e.2 (get?_of_mem h he))

end Entries

theorem distinct_empty (localName : String) : Distinct (empty localName) := List.nodup_nil

/-! ## Loggers -/

/-- a logger of a key has the transport registered under it, which is open -/
def Ready (r : Registry) (i : Nat) (k : Key) : Prop :=
  ∃ l t, r.loggers[i]? = some l ∧ l.key = some k ∧ r.get? k = some l.transport ∧
    r.transports[l.transport]? = some t ∧ t.closed = false

section Loggers

variable {r : Registry} {c : Config} {denied : Nat → Option IoFailure}

theorem logger_made (hf : r.failure? c denied = none) : (r.logger c denied).1 = .ok r.loggers.length := by
  obtain ⟨hc, hthreads⟩ := failure?_eq_none.1 hf
  cases hn : r.shared? c.key with
  | some n => rw [logger_share hc hn]
  | none => rw [logger_make hc hn (hthreads hn)]

theorem logger_ok {i : Nat} (h : (r.logger c denied).1 = .ok i) : r.failure? c denied = none := by
  cases hf : r.failure? c denied with
  | none => rfl
  | some f =>
    rw [logger_failed hf] at h
    cases h

/-- **A call that makes no logger leaves nothing behind.** -/
theorem logger_error {f : Failure} (h : (r.logger c denied).1 = .error f) :
    r.failure? c denied = some f ∧ (r.logger c denied).2 = r := by
  cases hf : r.failure? c denied with
  | none =>
    rw [logger_made hf] at h
    cases h
  | some g =>
    rw [logger_failed hf] at h ⊢
    cases h
    exact ⟨rfl, rfl⟩

/-- the same goes for a logger with a transport of its own -/
theorem ownLogger_error {f : Failure} (h : (r.ownLogger c denied).1 = .error f) : (r.ownLogger c denied).2 = r := by
  cases hc : c.validate with
  | error g => simp only [ownLogger, hc]
  | ok u =>
    cases hnew : Transport.new (.ofConfig c) denied with
    | error g => simp only [ownLogger, hc, addTransport, hnew]
    | ok t =>
      simp only [ownLogger, hc, addTransport, hnew] at h
      cases h

/-- a logger that is made takes records -/
theorem logger_ready (hs : Sound r) {i : Nat} (h : (r.logger c denied).1 = .ok i) :
    Ready (r.logger c denied).2 i c.key := by
  obtain ⟨hc, hthreads⟩ := failure?_eq_none.1 (logger_ok h)
  obtain ⟨l, hl, hkey, hget⟩ : ∃ l, (r.logger c denied).2.loggers[i]? = some l ∧ l.key = some c.key ∧
      (r.logger c denied).2.get? c.key = some l.transport := by
    cases hn : r.shared? c.key with
    | some n =>
      rw [logger_share hc hn] at h ⊢
      cases h
      exact ⟨.ofConfig c r.localName n (some c.key), by simp, rfl, ((shared?_eq_some r).1 hn).1⟩
    | none =>
      rw [logger_make hc hn (hthreads hn)] at h ⊢
      cases h
      exact ⟨.ofConfig c r.localName r.transports.length (some c.key), by simp, rfl, by simp [Logger.ofConfig]⟩
  obtain ⟨t, ht, ho⟩ := exists_of_open ((step_sound hs (.logger c denied)).live c.key l.transport hget)
  exact ⟨l, t, hl, hkey, hget, ht, ho⟩

end Loggers

/-! ## Other keys -/

/-- the key a call is about: that of a configuration or of a logger, or the one whose entry is removed -/
def key? (r : Registry) : Op → Option Key
  | .logger c _ => some c.key
  | .close i => (r.loggers[i]?).bind (·.key)
  | .shutdown i => (r.loggers[i]?).bind (·.key)
  | .remove k => some k

/-- the transports of a key: the one registered under it, and those its loggers have -/
def Holds (r : Registry) (k : Key) (n : Nat) : Prop :=
  r.get? k = some n ∨ ∃ l ∈ r.loggers, l.key = some k ∧ l.transport = n

/-- nothing is different for a key: neither its entry, nor which transports it has, nor any of these -/
structure Untouched (k : Key) (r r' : Registry) : Prop where
  entry : r'.get? k = r.get? k
  holds : ∀ n, r'.Holds k n ↔ r.Holds k n
  transports : ∀ n, r.Holds k n → r'.transports[n]? = r.transports[n]?

section Others

variable {r r' r'' : Registry} {k : Key} {n i : Nat} {l : Logger} {c : Config}

theorem Untouched.refl (k : Key) (r : Registry) : Untouched k r r := ⟨rfl, fun _ => .rfl, fun _ _ => rfl⟩

theorem Untouched.trans (h : Untouched k r r') (h' : Untouched k r' r'') : Untouched k r r'' where
  entry := h'.entry.trans h.entry
  holds n := (h'.holds n).trans (h.holds n)
  transports n hn := (h'.transports n ((h.holds n).2 hn)).trans (h.transports n hn)

/-- what is registered under a key is a transport of one of its loggers -/
theorem Sound.exists_of_holds (h : Sound r) (hn : r.Holds k n) : ∃ l ∈ r.loggers, l.key = some k ∧ l.transport = n :=
  hn.elim (h.owned k n) id

/-- the transport of a logger is of no key but its own -/
theorem Sound.ne_of_holds (h : Sound r) (hl : l ∈ r.loggers) (hk : l.key ≠ some k) (hn : r.Holds k n) :
    l.transport ≠ n := by
  obtain ⟨lo, hlo, hkey, htr⟩ := h.exists_of_holds hn
  intro heq
  exact hk ((h.apart l hl lo hlo (heq.trans htr.symm)).trans hkey)

theorem share_untouched (hk : c.key ≠ k) : Untouched k r (r.share c n) where
  entry := rfl
  holds m := by
    unfold Holds
    simp [or_and_right, exists_or, Logger.ofConfig, hk]
  transports _ _ := rfl

theorem make_untouched (h : Sound r) (hk : c.key ≠ k) : Untouched k r (r.make c) where
  entry := by rw [make_get?, if_neg hk.symm]
  holds m := by
    unfold Holds
    rw [make_get?, if_neg hk.symm]
    simp [or_and_right, exists_or, Logger.ofConfig, hk]
  transports m hm := by
    obtain ⟨l, hl, -, rfl⟩ := h.exists_of_holds hm
    rw [make_transports, List.getElem?_append_left (h.placed l hl)]

theorem letGo_untouched (h : Sound r) (hl : r.loggers[i]? = some l) (hk : l.key ≠ some k) :
    Untouched k r (r.letGo i l) where
  entry := by rw [letGo_get?, if_neg hk]
  holds m := by
    unfold Holds
    rw [letGo_get?, if_neg hk]
    refine or_congr_right ⟨?_, ?_⟩
    · rintro ⟨l', hl', hkey, htr⟩
      rcases mem_letGo hl' with hl' | rfl
      · exact ⟨l', hl', hkey, htr⟩
      · exact absurd hkey hk
    · rintro ⟨l', hl', hkey, htr⟩
      obtain ⟨l'', hl'', hkey', htr'⟩ := exists_letGo hl hl'
      exact ⟨l'', hl'', hkey'.trans hkey, htr'.trans htr⟩
  transports m hm := by
    rw [letGo_transports, List.getElem?_modify_ne _ _ (h.ne_of_holds (List.mem_of_getElem? hl) hk hm)]

theorem join_untouched (h : Sound r) (hk : (r.loggers[i]?).bind (·.key) ≠ some k) : Untouched k r (r.join i) := by
  unfold join
  split
  · rename_i n t ht
    obtain ⟨l, hl, rfl, -⟩ := Transport.transportOf?_eq_some.1 ht
    rw [hl] at hk
    refine ⟨rfl, fun _ => .rfl, fun m hm => ?_⟩
    exact List.getElem?_set_ne (h.ne_of_holds (List.mem_of_getElem? hl) hk hm)
  · exact .refl k r

theorem remove_untouched {k' : Key} (hk : k' ≠ k) : Untouched k r (r.remove k') where
  entry := by rw [get?_remove, if_neg hk.symm]
  holds m := by
    unfold Holds
    rw [get?_remove, if_neg hk.symm]
    rfl
  transports _ _ := rfl

/-- a close is the first one of a logger, or it does nothing -/
theorem close_cases (r : Registry) (i : Nat) :
    r.close i = r ∨ ∃ l, r.loggers[i]? = some l ∧ r.close i = r.letGo i l := by
  by_cases hidle : ∀ l, r.loggers[i]? = some l → l.closed = true
  · exact Or.inl (close_idle hidle)
  · obtain ⟨l, hl, ho⟩ : ∃ l, r.loggers[i]? = some l ∧ l.closed = false := by simpa using hidle
    exact Or.inr ⟨l, hl, close_letGo hl ho⟩

theorem close_untouched (h : Sound r) (hk : r.key? (.close i) ≠ some k) : Untouched k r (r.close i) := by
  rcases close_cases r i with heq | ⟨l, hl, heq⟩
  · rw [heq]
    exact .refl k r
  · rw [key?, hl] at hk
    rw [heq]
    exact letGo_untouched h hl hk

/-- a close leaves a logger its key -/
theorem close_key? (r : Registry) (i : Nat) : (r.close i).key? (.close i) = r.key? (.close i) := by
  rcases close_cases r i with heq | ⟨l, hl, heq⟩
  · rw [heq]
  · obtain ⟨hlt, -⟩ := List.getElem?_eq_some_iff.1 hl
    simp only [key?]
    rw [heq, letGo_loggers, List.getElem?_set_self hlt, hl]
    rfl

/-- **A call about one key leaves the others alone.** -/
theorem step_untouched (h : Sound r) {op : Op} (hk : r.key? op ≠ some k) : Untouched k r (r.step op) := by
  cases op with
  | logger c denied =>
    have hck : c.key ≠ k := fun he => hk (congrArg some he)
    have hm := logger_move r c denied
    generalize r.step (.logger c denied) = r' at hm ⊢
    cases hm with
    | failed _ _ f hf => exact .refl k r
    | share _ _ n hc hn => exact share_untouched hck
    | make _ _ hc hn hd => exact make_untouched h hck
    | letGo _ i l hop hl ho => cases hop
    | idle _ i hop hi => cases hop
  | close i => exact close_untouched h hk
  | shutdown i =>
    rw [step_shutdown]
    -- the close leaves the logger its key, so the workers taken away are of a transport of that key, too
    refine (close_untouched h hk).trans (join_untouched (step_sound h (.close i)) ?_)
    exact (close_key? r i).trans_ne hk
  | remove k' => exact remove_untouched fun he => hk (congrArg some he)

end Others

/-- **What is registered is open.** However loggers are made, closed and shut down and entries removed, whatever
threads the system denies: every entry is that of an open transport. A call that makes a logger gives it the transport
registered under its key, which is open. A call that makes none leaves the registry as it was; the configuration has a
flaw, or the logger needs a new transport and a thread is denied to one of its workers. A logger with a transport of
its own leaves nothing behind either when it is not made. And a call changes nothing for any key but its own. -/
theorem entries_open (localName : String) (ops : List Op) :
    let r := (empty localName).run ops
    (Distinct r ∧ ∀ e ∈ r.entries, ∃ t, r.transports[e.2]? = some t ∧ t.closed = false) ∧
    (∀ c denied i, (r.logger c denied).1 = .ok i → r.failure? c denied = none ∧ Ready (r.logger c denied).2 i c.key) ∧
    (∀ c denied f, (r.logger c denied).1 = .error f → r.failure? c denied = some f ∧ (r.logger c denied).2 = r) ∧
    (∀ c denied f, (r.ownLogger c denied).1 = .error f → (r.ownLogger c denied).2 = r) ∧
    ∀ op k, r.key? op ≠ some k → Untouched k r (r.step op) := by
  intro r
  have hs : Sound r := run_sound (sound_empty localName) ops
  have hd : Distinct r := run_distinct (sound_empty localName) (distinct_empty localName) ops
  refine ⟨⟨hd, fun e he => entry_open hs hd he⟩, ?_, ?_, ?_, fun op k hk => step_untouched hs hk⟩
  · intro c denied i h
    exact ⟨logger_ok h, logger_ready hs h⟩
  · intro c denied f h
    exact logger_error h
  · intro c denied f h
    exact ownLogger_error h

/-- Two loggers share a transport and a third has another key. The first is closed and its key taken anew, so that a
close of the second would be late. -/
def crossedRun : List Op := [.logger {}, .logger {}, .logger { service := "other" }, .close 0, .logger {}]

/-- the system starts a thread for the first worker, and for no other -/
def oneThread : Nat → Option IoFailure
  | 0 => none
  | _ => some ⟨.wouldBlock, "Resource temporarily unavailable (os error 11)"⟩

/-- where only one thread is started, another logger of a key shares a transport, and none of a new key is made -/
theorem entries_open_crossed :
    let r := (empty "host").run crossedRun
    let c : Config := { service := "other" }
    let d : Config := { service := "new" }
    (∃ t, r.transports[1]? = some t ∧ t.closed = false) ∧ Ready (r.logger c oneThread).2 4 c.key ∧
      (∃ f, (r.logger d oneThread).1 = .error (.io f)) ∧ (r.logger d oneThread).2 = r ∧
      (r.logger { workerCount := 0 } oneThread).2 = r ∧ Untouched c.key r (r.step (.close 1)) := by
  intro r c d
  obtain ⟨⟨-, hopen⟩, hok, herror, -, hother⟩ := entries_open "host" crossedRun
  have hentry : (c.key, 1) ∈ r.entries := by decide
  have hmade : (r.logger c oneThread).1 = .ok 4 := logger_made (by decide)
  obtain ⟨f, hfailed⟩ : ∃ f, (r.logger d oneThread).1 = .error (.io f) := ⟨_, rfl⟩
  obtain ⟨g, hflaw⟩ : ∃ g, (r.logger { workerCount := 0 } oneThread).1 = .error g := ⟨_, rfl⟩
  exact ⟨hopen (c.key, 1) hentry, (hok c oneThread 4 hmade).2, ⟨f, hfailed⟩, (herror d oneThread _ hfailed).2,
    (herror _ oneThread g hflaw).2, hother (.close 1) c.key (by decide)⟩

end LogRelay.Registry
