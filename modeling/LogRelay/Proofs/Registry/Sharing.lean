/-
Which loggers share a transport.

Loggers of one key are meant to share a transport as long as it is open, and a logger that is closed is meant to take
no entry but its own away. Entries go by key, though: a logger whose transport was closed through another logger still
holds its key, and its own close removes what has been registered under it since.
- `Sound` holds in every run. A registered transport is open, and one of the loggers of its key has it; loggers with one
  transport have one key.
- `Kept`: the transport of a logger is registered as long as it is open. As long as this holds, loggers of one key share
  (`Kept.shares`), and every call keeps it but one that takes the entry of another transport away (`step_kept`).
- `not_late_of_takesOwn`, `takesOwn_of_not_late`: the calls that do are the late closes, no more and no less.
  `late_splits`: after one, the next logger of the key has a transport of its own, beside the one that is still open.
- `shares_iff_timely`: in every run closes take nothing but their own entries away exactly when none is late, and so
  it is with the sharing of transports.
- `late_close_parts`: three loggers of one key, the second closed late; the fourth does not share with the third.
-/
import LogRelay.Proofs.Registry.Move

namespace LogRelay.Registry

/-! ## What holds in every run -/

structure Sound (r : Registry) : Prop where
  placed : ∀ l ∈ r.loggers, l.transport < r.transports.length
  settled : r.Settled
  /-- loggers with one transport have one key -/
  apart : ∀ l ∈ r.loggers, ∀ l' ∈ r.loggers, l.transport = l'.transport → l.key = l'.key
  live : ∀ k n, r.get? k = some n → r.isClosed n = false
  owned : ∀ k n, r.get? k = some n → ∃ l ∈ r.loggers, l.key = some k ∧ l.transport = n
  /-- an entry was made for a configuration without a flaw -/
  usable : ∀ k n, r.get? k = some n → ∃ c : Config, c.validate = .ok () ∧ c.key = k

/-- the transport of a logger is registered as long as it is open -/
def Kept (r : Registry) : Prop :=
  ∀ l ∈ r.loggers, ∀ k, l.key = some k → r.isClosed l.transport = false → r.get? k = some l.transport

/-- loggers of one key whose transports are open have the same -/
def Shares (r : Registry) : Prop :=
  ∀ l ∈ r.loggers, ∀ l' ∈ r.loggers, ∀ k, l.key = some k → l'.key = some k →
    r.isClosed l.transport = false → r.isClosed l'.transport = false → l.transport = l'.transport

theorem Kept.shares {r : Registry} (h : Kept r) : Shares r := by
  intro l hl l' hl' k hk hk' ho ho'
  have h1 : r.get? k = some l.transport := h l hl k hk ho
  have h2 : r.get? k = some l'.transport := h l' hl' k hk' ho'
  rw [h1] at h2
  exact Option.some.inj h2

section Moves

variable {r r' : Registry}

theorem Agrees.sound (ha : Agrees r r') (h : Sound r) : Sound r' := by
  constructor
  · rw [ha.loggers, ha.count]; exact h.placed
  · intro l hl
    rw [ha.loggers] at hl
    rw [ha.closed]
    exact h.settled l hl
  · rw [ha.loggers]; exact h.apart
  · intro k n hn
    rw [ha.get?] at hn
    rw [ha.closed]
    exact h.live k n hn
  · intro k n hn
    rw [ha.get?] at hn
    rw [ha.loggers]
    exact h.owned k n hn
  · intro k n hn
    rw [ha.get?] at hn
    exact h.usable k n hn

theorem Agrees.kept (ha : Agrees r r') (h : Kept r) : Kept r' := by
  intro l hl k hk ho
  rw [ha.loggers] at hl
  rw [ha.closed] at ho
  rw [ha.get?]
  exact h l hl k hk ho

/-- an open transport is one of those there are -/
theorem lt_of_open {n : Nat} (h : r.isClosed n = false) : n < r.transports.length := by
  by_contra hn
  rw [isClosed_of_le r (by omega)] at h
  cases h

/-- but for one that has been closed, the loggers are still the same -/
theorem mem_letGo {i : Nat} {l l' : Logger} (h : l' ∈ (r.letGo i l).loggers) :
    l' ∈ r.loggers ∨ l' = { l with closed := true } := by
  rw [letGo_loggers] at h
  exact List.mem_or_eq_of_mem_set h

/-- no logger loses its key or its transport by a close -/
theorem exists_letGo {i : Nat} {l l' : Logger} (hl : r.loggers[i]? = some l) (h : l' ∈ r.loggers) :
    ∃ l'' ∈ (r.letGo i l).loggers, l''.key = l'.key ∧ l''.transport = l'.transport := by
  rw [letGo_loggers]
  obtain ⟨j, hj⟩ := List.mem_iff_getElem?.1 h
  by_cases hij : i = j
  · subst hij
    rw [hl] at hj
    cases hj
    obtain ⟨hlt, -⟩ := List.getElem?_eq_some_iff.1 hl
    exact ⟨_, List.mem_set hlt _, rfl, rfl⟩
  · refine ⟨l', List.mem_iff_getElem?.2 ⟨j, ?_⟩, rfl, rfl⟩
    rw [List.getElem?_set_ne hij]
    exact hj

/-- a new transport is none that a logger has -/
theorem make_isClosed_of_mem (h : Sound r) {l : Logger} (hl : l ∈ r.loggers) {c : Config} :
    (r.make c).isClosed l.transport = r.isClosed l.transport := by
  have hne : (l.transport != r.transports.length) = true := by simpa using (h.placed l hl).ne
  rw [make_isClosed, hne, Bool.and_true]

theorem share_sound (h : Sound r) {c : Config} {n : Nat} (hn : r.shared? c.key = some n) : Sound (r.share c n) := by
  obtain ⟨hget, hopen⟩ := (shared?_eq_some r).1 hn
  obtain ⟨lo, hlo, hkey, htr⟩ := h.owned _ _ hget
  -- whoever has the shared transport has the key under which it is registered
  have hsame : ∀ l ∈ r.loggers, l.transport = n → l.key = some c.key := fun l hl ht =>
    (h.apart l hl lo hlo (ht.trans htr.symm)).trans hkey
  constructor
  · intro l hl
    rw [share_transports]
    rcases (mem_share r c n).1 hl with hl | rfl
    · exact h.placed l hl
    · exact lt_of_open hopen
  · intro l hl hc
    rw [share_isClosed]
    rcases (mem_share r c n).1 hl with hl | rfl
    · exact h.settled l hl hc
    · cases hc
  · intro l hl l' hl' ht
    rcases (mem_share r c n).1 hl with hl | rfl <;> rcases (mem_share r c n).1 hl' with hl' | rfl
    · exact h.apart l hl l' hl' ht
    · exact hsame l hl ht
    · exact (hsame l' hl' ht.symm).symm
    · rfl
  · exact h.live
  · intro k m hm
    obtain ⟨l, hl, hp⟩ := h.owned k m hm
    exact ⟨l, (mem_share r c n).2 (Or.inl hl), hp⟩
  · exact h.usable

theorem make_sound (h : Sound r) {c : Config} (hc : c.validate = .ok ()) : Sound (r.make c) := by
  constructor
  · intro l hl
    rw [make_transports, List.length_append]
    rcases (mem_make r c).1 hl with hl | rfl
    · exact Nat.lt_add_right _ (h.placed l hl)
    · exact Nat.lt_succ_self _
  · intro l hl hcl
    rcases (mem_make r c).1 hl with hl | rfl
    · rw [make_isClosed_of_mem h hl]; exact h.settled l hl hcl
    · cases hcl
  · intro l hl l' hl' ht
    rcases (mem_make r c).1 hl with hl | rfl <;> rcases (mem_make r c).1 hl' with hl' | rfl
    · exact h.apart l hl l' hl' ht
    · exact absurd ht (h.placed l hl).ne
    · exact absurd ht.symm (h.placed l' hl').ne
    · rfl
  · intro k n hn
    rw [make_get?] at hn
    rw [make_isClosed]
    split_ifs at hn with hk
    · cases hn; simp
    · rw [h.live k n hn]; rfl
  · intro k n hn
    rw [make_get?] at hn
    split_ifs at hn with hk
    · cases hn
      exact ⟨_, (mem_make r c).2 (Or.inr rfl), by rw [hk]; rfl, rfl⟩
    · obtain ⟨l, hl, hp⟩ := h.owned k n hn
      exact ⟨l, (mem_make r c).2 (Or.inl hl), hp⟩
  · intro k n hn
    rw [make_get?] at hn
    split_ifs at hn with hk
    · exact ⟨c, hc, hk.symm⟩
    · exact h.usable k n hn

theorem letGo_sound (h : Sound r) {i : Nat} {l : Logger} (hl : r.loggers[i]? = some l) : Sound (r.letGo i l) := by
  have hmem : l ∈ r.loggers := List.mem_of_getElem? hl
  constructor
  · intro l' hl'
    rw [letGo_transports, List.length_modify]
    rcases mem_letGo hl' with hl' | rfl
    · exact h.placed l' hl'
    · exact h.placed l hmem
  · intro l' hl' hc
    rw [letGo_isClosed]
    rcases mem_letGo hl' with hl' | rfl
    · rw [h.settled l' hl' hc]; rfl
    · simp
  · intro l1 hl1 l2 hl2 ht
    rcases mem_letGo hl1 with hl1 | rfl <;> rcases mem_letGo hl2 with hl2 | rfl
    · exact h.apart l1 hl1 l2 hl2 ht
    · exact h.apart l1 hl1 l hmem ht
    · exact h.apart l hmem l2 hl2 ht
    · rfl
  · intro k n hn
    rw [letGo_get?] at hn
    split_ifs at hn with hk
    -- an entry of the transport that is closed is one under the key of the logger
    have hne : n ≠ l.transport := by
      intro hnl
      obtain ⟨lo, hlo, hkey, htr⟩ := h.owned k n hn
      exact hk ((h.apart lo hlo l hmem (htr.trans hnl)).symm.trans hkey)
    have hb : (n == l.transport) = false := by simpa using hne
    rw [letGo_isClosed, h.live k n hn, hb]
    rfl
  · intro k n hn
    rw [letGo_get?] at hn
    split_ifs at hn with hk
    obtain ⟨lo, hlo, hkey, htr⟩ := h.owned k n hn
    obtain ⟨lo', hlo', hkey', htr'⟩ := exists_letGo hl hlo
    exact ⟨lo', hlo', hkey'.trans hkey, htr'.trans htr⟩
  · intro k n hn
    rw [letGo_get?] at hn
    split_ifs at hn with hk
    exact h.usable k n hn

theorem remove_sound (h : Sound r) (k : Key) : Sound (r.remove k) := by
  have hget : ∀ k' n, (r.remove k).get? k' = some n → r.get? k' = some n := by
    intro k' n hn
    rw [get?_remove] at hn
    split_ifs at hn
    exact hn
  exact ⟨h.placed, h.settled, h.apart, fun k' n hn => h.live k' n (hget k' n hn),
    fun k' n hn => h.owned k' n (hget k' n hn), fun k' n hn => h.usable k' n (hget k' n hn)⟩

/-- every call keeps a registry sound, also one that removes an entry -/
theorem step_sound (h : Sound r) (op : Op) : Sound (r.step op) := by
  obtain ⟨r', hm, ha⟩ := step_move h.settled op
  refine ha.sound ?_
  cases hm with
  | failed c denied f hf => exact h
  | share c denied n hc hn => exact share_sound h hn
  | make c denied hc hn hd => exact make_sound h hc
  | letGo op i l hop hl ho => exact letGo_sound h hl
  | idle op i hop hi => exact h
  | remove k => exact remove_sound h k

theorem run_sound (h : Sound r) (ops : List Op) : Sound (r.run ops) := by
  induction ops generalizing r with
  | nil => exact h
  | cons op ops ih => exact ih (step_sound h op)

end Moves

theorem sound_empty (localName : String) : Sound (empty localName) := by
  constructor <;> intro _ h
  · cases h
  · cases h
  · cases h
  · intro hn; cases hn
  · intro hn; cases hn
  · intro hn; cases hn

/-! ## Closes that take another entry away -/

/-- of the entries a close takes none away but that of the transport of its logger -/
def TakesOwn (r : Registry) (op : Op) : Prop :=
  ∀ i k n, op.closes? = some i → r.get? k = some n →
    (r.step op).get? k = some n ∨ ∃ l, r.loggers[i]? = some l ∧ l.transport = n

/-- a logger is closed for the first time after its transport was closed, while something is registered under its key -/
def Late (r : Registry) (op : Op) : Prop :=
  ∃ i l k n, op.closes? = some i ∧ r.loggers[i]? = some l ∧ l.closed = false ∧ l.key = some k ∧
    r.isClosed l.transport = true ∧ r.get? k = some n

section Closes

variable {r : Registry} {op : Op}

/-- a late close leaves nothing under the key of its logger, but other loggers of the key have an open transport -/
theorem late_takes (h : Sound r) (hl : Late r op) :
    ∃ i l k n, op.closes? = some i ∧ r.loggers[i]? = some l ∧ r.get? k = some n ∧ n ≠ l.transport ∧
      (r.step op).get? k = none ∧ (r.step op).isClosed n = false ∧
      ∃ l' ∈ (r.step op).loggers, l'.key = some k ∧ l'.transport = n := by
  obtain ⟨i, l, k, n, hop, hli, ho, hk, hc, hn⟩ := hl
  have ha := step_letGo hop hli ho
  have hne : n ≠ l.transport := by
    intro hnl
    rw [← hnl, h.live k n hn] at hc
    cases hc
  refine ⟨i, l, k, n, hop, hli, hn, hne, ?_, ?_, ?_⟩
  · rw [ha.get?, letGo_get?, if_pos hk]
  · have hb : (n == l.transport) = false := by simpa using hne
    rw [ha.closed, letGo_isClosed, h.live k n hn, hb]
    rfl
  · obtain ⟨lo, hlo, hkey, htr⟩ := h.owned k n hn
    obtain ⟨l', hl', hkey', htr'⟩ := exists_letGo hli hlo
    rw [ha.loggers]
    exact ⟨l', hl', hkey'.trans hkey, htr'.trans htr⟩

theorem not_late_of_takesOwn (h : Sound r) (ht : TakesOwn r op) : ¬ Late r op := by
  intro hl
  obtain ⟨i, l, k, n, hop, hli, hn, hne, hgone, -⟩ := late_takes h hl
  rcases ht i k n hop hn with hstays | ⟨l', hli', htr⟩
  · rw [hgone] at hstays; cases hstays
  · rw [hli] at hli'
    cases hli'
    exact hne htr.symm

theorem takesOwn_of_not_late (h : Sound r) (hk : Kept r) (hl : ¬ Late r op) : TakesOwn r op := by
  intro i k n hop hn
  obtain ⟨r', hm, ha⟩ := step_move h.settled op
  rw [ha.get?]
  cases hm with
  | letGo op j l hop' hli ho =>
    rw [hop] at hop'
    cases hop'
    rw [letGo_get?]
    by_cases hkey : l.key = some k
    · right
      have hopen : r.isClosed l.transport = false := by
        by_contra hc
        exact hl ⟨i, l, k, n, hop, hli, ho, hkey, by simpa using hc, hn⟩
      have hreg : r.get? k = some l.transport := hk l (List.mem_of_getElem? hli) k hkey hopen
      rw [hn] at hreg
      exact ⟨l, hli, (Option.some.inj hreg).symm⟩
    · rw [if_neg hkey]; exact Or.inl hn
  | idle op j hop' hi => exact Or.inl hn
  | failed c denied f hf => cases hop
  | share c denied m hc hm => cases hop
  | make c denied hc hm hd => cases hop
  | remove k' => cases hop

/-- a call that takes no other entry away leaves every open transport registered -/
theorem step_kept (h : Sound r) (hk : Kept r) (hop : op.isRemove = false) (ht : TakesOwn r op) : Kept (r.step op) := by
  obtain ⟨r', hm, ha⟩ := step_move h.settled op
  refine ha.kept ?_
  cases hm with
  | failed c denied f hf => exact hk
  | idle op i hop' hi => exact hk
  | remove k => cases hop
  | share c denied n hc hn =>
    intro l hl k hkey ho
    rw [share_get?]
    rcases (mem_share r c n).1 hl with hl | rfl
    · exact hk l hl k hkey ho
    · cases hkey
      exact ((shared?_eq_some r).1 hn).1
  | make c denied hc hn hd =>
    intro l hl k hkey ho
    rw [make_get?]
    rcases (mem_make r c).1 hl with hl | rfl
    · rw [make_isClosed_of_mem h hl] at ho
      have hreg : r.get? k = some l.transport := hk l hl k hkey ho
      -- an open transport under the key of the new logger would have been shared
      have hck : k ≠ c.key := by
        rintro rfl
        rw [(shared?_eq_some r).2 ⟨hreg, ho⟩] at hn
        cases hn
      rw [if_neg hck]
      exact hreg
    · cases hkey
      exact if_pos rfl
  | letGo op i l hop' hli ho' =>
    intro l' hl' k hkey ho
    have hmem : ∃ l2 ∈ r.loggers, l2.key = l'.key ∧ l2.transport = l'.transport := by
      rcases mem_letGo hl' with hl' | rfl
      · exact ⟨l', hl', rfl, rfl⟩
      · exact ⟨l, List.mem_of_getElem? hli, rfl, rfl⟩
    obtain ⟨l2, hl2, hkey2, htr2⟩ := hmem
    rw [letGo_isClosed, Bool.or_eq_false_iff] at ho
    have hne : l'.transport ≠ l.transport := by simpa using ho.2
    have hreg : r.get? k = some l'.transport := by
      rw [← htr2]
      exact hk l2 hl2 k (hkey2.trans hkey) (by rw [htr2]; exact ho.1)
    rcases ht i k l'.transport hop' hreg with hstays | ⟨l3, hl3, htr3⟩
    · rw [ha.get?] at hstays
      exact hstays
    · rw [hli] at hl3
      cases hl3
      exact absurd htr3.symm hne

/-- **After a late close, the next logger of the key does not share** with those whose transport is still open. -/
theorem late_splits (h : Sound r) (hl : Late r op) : ∃ c, ¬ Shares ((r.step op).step (.logger c)) := by
  obtain ⟨i, l, k, n, -, -, hn, -, hgone, hopen, lo, hlo, hkey, htr⟩ := late_takes h hl
  obtain ⟨c, hc, rfl⟩ := h.usable k n hn
  have hmake : (r.step op).step (.logger c) = (r.step op).make c := by
    have hnone : (r.step op).shared? c.key = none := by
      rw [shared?, hgone]
      rfl
    rw [step, logger_make hc hnone (List.findSome?_eq_none_iff.2 fun _ _ => rfl)]
  refine ⟨c, fun hsh => ?_⟩
  rw [hmake] at hsh
  have hold : ((r.step op).make c).isClosed lo.transport = false := by rw [make_isClosed, htr, hopen]; rfl
  have hnew : ((r.step op).make c).isClosed (r.step op).transports.length = false := by simp
  have heq : lo.transport = (r.step op).transports.length :=
    hsh lo ((mem_make _ c).2 (Or.inl hlo)) _ ((mem_make _ c).2 (Or.inr rfl)) c.key hkey rfl hold hnew
  exact absurd heq ((step_sound h op).placed lo hlo).ne

end Closes

/-! ## Runs -/

/-- no close of a run is late -/
def Timely (r : Registry) (ops : List Op) : Prop := ∀ pre op, pre ++ [op] <+: ops → ¬ Late (r.run pre) op

section Runs

variable {r : Registry} {ops : List Op}

theorem run_kept (h : Sound r) (hk : Kept r) (hops : ∀ op ∈ ops, op.isRemove = false) (ht : Timely r ops) :
    Kept (r.run ops) := by
  induction ops using List.reverseRecOn with
  | nil => exact hk
  | append_singleton ops op ih =>
    have hsub : ops <+: ops ++ [op] := List.prefix_append ops [op]
    have hk' : Kept (r.run ops) := ih (fun o ho => hops o (hsub.subset ho)) fun pre o hp => ht pre o (hp.trans hsub)
    have hs : Sound (r.run ops) := run_sound h ops
    rw [run_snoc]
    exact step_kept hs hk' (hops op (by simp)) (takesOwn_of_not_late hs hk' (ht ops op (List.prefix_refl _)))

theorem prefix_kept (h : Sound r) (hk : Kept r) (hops : ∀ op ∈ ops, op.isRemove = false) (ht : Timely r ops)
    {pre : List Op} (hp : pre <+: ops) : Kept (r.run pre) :=
  run_kept h hk (fun op ho => hops op (hp.subset ho)) fun pre' op hp' => ht pre' op (hp'.trans hp)

end Runs

theorem kept_empty (localName : String) : Kept (empty localName) := by
  intro l hl
  cases hl

/-- **Sharing lasts exactly as long as no close is late.** However loggers are made, closed and shut down: every close
takes at most the entry of its own transport away exactly when none is late; and at every moment of the run all
loggers of one key with an open transport share it, the next logger included, exactly when none is late. -/
theorem shares_iff_timely (localName : String) (ops : List Op) (hops : ∀ op ∈ ops, op.isRemove = false) :
    ((∀ pre op, pre ++ [op] <+: ops → TakesOwn ((empty localName).run pre) op) ↔ Timely (empty localName) ops) ∧
    ((∀ pre, pre <+: ops → Shares ((empty localName).run pre) ∧
        ∀ c denied, Shares (((empty localName).run pre).step (.logger c denied))) ↔ Timely (empty localName) ops) := by
  have hs : ∀ pre, Sound ((empty localName).run pre) := fun pre => run_sound (sound_empty localName) pre
  have hk : Timely (empty localName) ops → ∀ pre, pre <+: ops → Kept ((empty localName).run pre) := fun ht pre hp =>
    prefix_kept (sound_empty localName) (kept_empty localName) hops ht hp
  refine ⟨⟨?_, ?_⟩, ⟨?_, ?_⟩⟩
  · intro hown pre op hp
    exact not_late_of_takesOwn (hs pre) (hown pre op hp)
  · intro ht pre op hp
    have hpre : pre <+: ops := (List.prefix_append pre [op]).trans hp
    exact takesOwn_of_not_late (hs pre) (hk ht pre hpre) (ht pre op hp)
  · intro hsh pre op hp hl
    obtain ⟨c, hc⟩ := late_splits (hs pre) hl
    rw [← run_snoc] at hc
    exact hc ((hsh (pre ++ [op]) hp).2 c fun _ => none)
  · intro ht pre hp
    have hkp := hk ht pre hp
    refine ⟨hkp.shares, fun c denied => ?_⟩
    have hnl : ¬ Late ((empty localName).run pre) (.logger c denied) := by
      rintro ⟨i, l, k, n, hop, -⟩
      cases hop
    exact (step_kept (hs pre) hkp rfl (takesOwn_of_not_late (hs pre) hkp hnl)).shares

/-- Two loggers share a transport and the first is closed. A third one gets a new transport, and then the second is
closed. -/
def lateRun : List Op := [.logger {}, .logger {}, .close 0, .logger {}, .close 1, .logger {}]

theorem shares_iff_timely_late :
    (∀ op ∈ lateRun, op.isRemove = false) ∧
    ((∀ pre op, pre ++ [op] <+: lateRun → TakesOwn ((empty "host").run pre) op) ↔ Timely (empty "host") lateRun) ∧
    ((∀ pre, pre <+: lateRun → Shares ((empty "host").run pre) ∧
        ∀ c denied, Shares (((empty "host").run pre).step (.logger c denied))) ↔ Timely (empty "host") lateRun) :=
  ⟨by decide, shares_iff_timely "host" lateRun (by decide)⟩

/-- **A late close parts the loggers of a key.** It takes away the entry of the transport that the third logger has,
which is open, so the fourth gets another. -/
theorem late_close_parts :
    (∀ op ∈ lateRun, op.isRemove = false) ∧ ¬ TakesOwn ((empty "host").run (lateRun.take 4)) (.close 1) ∧
      ¬ Shares ((empty "host").run lateRun) := by
  refine ⟨by decide, fun h => ?_, fun h => ?_⟩
  · have hentry : ((empty "host").run (lateRun.take 4)).get? (Config.key {}) = some 1 := by decide
    rcases h 1 _ 1 rfl hentry with hstays | ⟨l, hl, htr⟩
    · exact absurd hstays (by decide)
    · have htr0 : (((empty "host").run (lateRun.take 4)).loggers[1]?).map (·.transport) = some 0 := by decide
      rw [hl] at htr0
      cases htr.symm.trans (Option.some.inj htr0)
  · have hthird : Logger.ofConfig {} "host" 1 (some (Config.key {})) ∈ ((empty "host").run lateRun).loggers := by decide
    have hfourth :
      Logger.ofConfig {} "host" 2 (some (Config.key {})) ∈ ((empty "host").run lateRun).loggers := by decide
    have heq : 1 = 2 := h _ hthird _ hfourth (Config.key {}) rfl rfl (by decide) (by decide)
    cases heq

end LogRelay.Registry
