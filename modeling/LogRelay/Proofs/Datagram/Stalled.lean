/-
A sender whose receiver has stalled.

When every send would block, the first write of a round uses up all attempts, and each one after it is left with a
single attempt, so that the count grows by one with each write. A round ends with the write whose count exceeds what
the policy allows: it asks for a new connection, and the next round begins with nothing counted.
- `step_stalled`: what one write does on such a network.
- `run_stalled`: what is counted after any number of writes.
- `stalled_receiver`: which write of a round asks for a new connection, and how often each sends.
-/
import LogRelay.Proofs.Datagram.Turns

namespace LogRelay

/-! ## Rounds -/

namespace Backoff

/-- the writes of a round: the first, and one for each error that the policy allows beyond those of the first -/
def roundLength (p : Backoff) : Nat := 1 + (p.errorsBeforeReconnect.toNat + 1 - p.maxAttempts.toNat)

/-- what is counted before write `k` of a round, the first being number 0 -/
def countedBefore (p : Backoff) (k : Nat) : Nat := if k = 0 then 0 else p.maxAttempts.toNat + k - 1

/-- the attempts of write `k` of a round -/
def attemptsOf (p : Backoff) (k : Nat) : Nat := if k = 0 then p.maxAttempts.toNat else 1

variable {p : Backoff} {k : Nat}

theorem attempts_countedBefore (h : 1 ≤ p.maxAttempts.toNat) (k : Nat) :
    max 1 (p.maxAttempts.toNat - p.countedBefore k) = p.attemptsOf k := by
  unfold countedBefore attemptsOf
  split <;> omega

theorem countedBefore_add (h : 1 ≤ p.maxAttempts.toNat) (k : Nat) :
    p.countedBefore k + p.attemptsOf k = p.maxAttempts.toNat + k := by
  unfold countedBefore attemptsOf
  split <;> omega

/-- the write whose count exceeds what the policy allows is the last of its round -/
theorem lt_add_iff (hk : k < p.roundLength) :
    p.errorsBeforeReconnect.toNat < p.maxAttempts.toNat + k ↔ k + 1 = p.roundLength := by
  unfold roundLength at hk ⊢
  omega

theorem countedBefore_next (hk : k < p.roundLength) :
    p.countedBefore ((k + 1) % p.roundLength) = if k + 1 = p.roundLength then 0 else p.maxAttempts.toNat + k := by
  split
  · next h =>
    rw [h, Nat.mod_self]
    rfl
  · rw [Nat.mod_eq_of_lt (by omega), countedBefore, if_neg (Nat.succ_ne_zero k)]
    omega

end Backoff

namespace Datagram

variable {ε : Type}

/-! ## Writes to a stalled receiver -/

theorem forall_mem_noted {send : ε → Reply × ε} {P : Reply → Prop} (h : ∀ e, P (send e).1) (p : Backoff)
    (more errors : Nat) (e : ε) {rs : List Reply} (hrs : ∀ r ∈ rs, P r) :
    ∀ r ∈ (sendFor p (noted send) more errors (e, rs)).2.2, P r := by
  have hnext : ∀ r ∈ rs ++ [(send e).1], P r := by
    rw [List.forall_mem_append, List.forall_mem_singleton]
    exact ⟨hrs, h e⟩
  induction more generalizing errors e rs with
  | zero =>
    rw [sendFor_eq]
    split <;> exact hnext
  | succ more ih =>
    rw [sendFor_eq]
    split
    · apply ih _ _ hnext
      rw [List.forall_mem_append, List.forall_mem_singleton]
      exact ⟨hnext, h _⟩
    · exact hnext

theorem forall_mem_sends {d : Datagram} (hopen : d.isOpen) {send : ε → Reply × ε} {P : Reply → Prop}
    (h : ∀ e, P (send e).1) (e : ε) : ∀ r ∈ d.sends send e, P r := by
  have hsend : d.reply send = send := by simp [reply, hopen]
  rw [sends, hsend]
  exact forall_mem_noted h _ _ _ e (by simp)

namespace History

variable {p : Backoff} {send : Octets → ε → Reply × ε}

/-- a write to a stalled receiver uses up its attempts and fails, and each attempt counts as an error -/
theorem step_stalled (hstall : ∀ text e, blocked (send text e).1) {s : History ε} (hopen : s.sender.isOpen)
    (hpolicy : s.sender.policy = p) (text : Octets) :
    ∃ t f, (s.step send (.write text)).turns = t :: s.turns ∧ f.kind = .wouldBlock ∧
      t.sends.length = max 1 (p.maxAttempts.toNat - s.sender.errors) ∧
      let errors := s.sender.errors + t.sends.length
      t.answer = .error (if p.errorsBeforeReconnect.toNat < errors then .write f else .doNotRetry f) ∧
      (s.step send (.write text)).sender =
        { s.sender with errors := if p.errorsBeforeReconnect.toNat < errors then 0 else errors } := by
  obtain ⟨hturn, hsender⟩ := write_follows s.sender (send text) s.network
  rw [hpolicy] at hturn
  generalize ht : Turn.mk _ _ = t at hturn hsender
  have hall : ∀ r ∈ t.sends, blocked r := by
    rw [← ht]
    exact forall_mem_sends hopen (hstall text) s.network
  have hblocks : t.blocks = t.sends.length := List.countP_eq_length.2 hall
  have hstep : (s.step send (.write text)).sender =
      { s.sender with errors := if t.resets then 0 else s.sender.errors + t.sends.length } := hblocks ▸ hsender
  -- the last of the sends is a failure
  obtain ⟨r, hlast⟩ : ∃ r, t.sends.getLast? = some r := by
    rw [← Option.isSome_iff_exists, List.getLast?_isSome, ← List.length_pos_iff]
    exact hturn.tried
  have hr := hall r (List.mem_of_getLast? hlast)
  obtain ⟨f, rfl, hkind⟩ : ∃ f, r = .error f ∧ f.kind = .wouldBlock := by
    rcases r with f | n
    · exact ⟨f, rfl, of_decide_eq_true hr⟩
    · cases hr
  refine ⟨t, f, by rw [← ht]; rfl, hkind, hturn.exhausted hall, ?_⟩
  rw [hstep]
  by_cases hmany : p.errorsBeforeReconnect.toNat < s.sender.errors + t.sends.length
  · have hanswer : t.answer = .error (.write f) := (hturn.transient f).2 ⟨hlast, hblocks ▸ hmany⟩
    simp [Turn.resets, hanswer, Failure.permanent, hmany]
  · have hanswer : t.answer = .error (.doNotRetry f) := (hturn.final f).2 ⟨hlast, hblocks ▸ Nat.not_lt.1 hmany⟩
    simp [Turn.resets, hanswer, Failure.permanent, hmany]

/-- after any number of writes to a stalled receiver, the errors counted are those before the next write of its round -/
theorem run_stalled (hattempts : 1 ≤ p.maxAttempts.toNat) (hstall : ∀ text e, blocked (send text e).1) (e : ε)
    (texts : List Octets) :
    ((start p e).run send (texts.map .write)).sender =
      { policy := p, errors := p.countedBefore (texts.length % p.roundLength) } := by
  induction texts using List.reverseRecOn with
  | nil => rfl
  | append_singleton texts text ih =>
    rw [List.map_append, List.map_singleton, run_snoc]
    set s := (start p e).run send (texts.map .write)
    obtain ⟨t, f, -, -, hsends, -, hsender⟩ := step_stalled (p := p) hstall (s := s) (by rw [ih]) (by rw [ih]) text
    have hk : texts.length % p.roundLength < p.roundLength := Nat.mod_lt _ (Nat.lt_add_right _ Nat.zero_lt_one)
    rw [ih, Backoff.attempts_countedBefore hattempts] at hsends
    rw [ih, hsends, Backoff.countedBefore_add hattempts] at hsender
    rw [hsender, List.length_append, List.length_singleton, ← Nat.mod_add_mod, Backoff.countedBefore_next hk]
    simp only [Backoff.lt_add_iff hk]

end History

/-! ## Main result -/

open History in
/-- **A stalled receiver.** When every send would block, the writes of a new sender go in rounds. The first write of a
round makes as many sends as there are attempts, and each other write a single one. All but the last of a round answer
that they must not be tried again; the last asks for a new connection and sets the count back, and the next round is
like the first. A round has one write for each error that the policy allows beyond those of its first write, and one
more. -/
theorem stalled_receiver (p : Backoff) (hattempts : 1 ≤ p.maxAttempts.toNat) (send : Octets → ε → Reply × ε)
    (hstall : ∀ text e, blocked (send text e).1) (e : ε) (texts : List Octets) (text : Octets) :
    let round := 1 + (p.errorsBeforeReconnect.toNat + 1 - p.maxAttempts.toNat)
    let k := texts.length % round
    let s := (start p e).run send (texts.map .write)
    let s' := s.step send (.write text)
    s.sender.errors = (if k = 0 then 0 else p.maxAttempts.toNat + k - 1) ∧
    ∃ t f, s'.turns = t :: s.turns ∧ f.kind = .wouldBlock ∧
      t.sends.length = (if k = 0 then p.maxAttempts.toNat else 1) ∧
      (k + 1 < round → t.answer = .error (.doNotRetry f) ∧ s'.sender.errors = p.maxAttempts.toNat + k) ∧
      (k + 1 = round → t.answer = .error (.write f) ∧ s'.sender.errors = 0) := by
  intro round k s s'
  have hs : s.sender = { policy := p, errors := p.countedBefore k } := run_stalled hattempts hstall e texts
  obtain ⟨t, f, hturns, hkind, hsends, hanswer, hsender⟩ :=
    step_stalled (p := p) hstall (s := s) (by rw [hs]) (by rw [hs]) text
  have hk : k < p.roundLength := Nat.mod_lt _ (Nat.lt_add_right _ Nat.zero_lt_one)
  rw [hs, Backoff.attempts_countedBefore hattempts] at hsends
  rw [hs, hsends, Backoff.countedBefore_add hattempts] at hanswer hsender
  simp only [Backoff.lt_add_iff hk] at hanswer hsender
  refine ⟨by rw [hs]; rfl, t, f, hturns, hkind, hsends, ?_, ?_⟩
  · intro hmore
    have hnot : k + 1 ≠ p.roundLength := Nat.ne_of_lt hmore
    rw [if_neg hnot] at hanswer hsender
    exact ⟨hanswer, congrArg errors hsender⟩
  · intro hlast
    have hround : k + 1 = p.roundLength := hlast
    rw [if_pos hround] at hanswer hsender
    exact ⟨hanswer, congrArg errors hsender⟩

open History in
/-- two attempts, three errors allowed: the third write asks for a new connection -/
theorem stalled_receiver_third :
    let p : Backoff := { maxAttempts := 2, errorsBeforeReconnect := 3 }
    let send : Octets → Nat → Reply × Nat := fun _ n => (.error ⟨.wouldBlock, "full"⟩, n + 1)
    let s' := ((start p 0).run send ([[97], [98]].map .write)).step send (.write [99])
    1 ≤ p.maxAttempts.toNat ∧ (∀ text e, blocked (send text e).1) ∧
    ∃ t f, s'.turns.head? = some t ∧ t.sends.length = 1 ∧ t.answer = .error (.write f) ∧ s'.sender.errors = 0 := by
  intro p send s'
  have hattempts : 1 ≤ p.maxAttempts.toNat := by decide
  have hstall : ∀ text e, blocked (send text e).1 := fun _ _ => rfl
  obtain ⟨-, t, f, hturns, -, hsends, -, hlast⟩ := stalled_receiver p hattempts send hstall 0 [[97], [98]] [99]
  obtain ⟨hanswer, herrors⟩ := hlast (by decide)
  exact ⟨hattempts, hstall, t, f, by rw [hturns]; rfl, hsends, hanswer, herrors⟩

end Datagram
end LogRelay
