/-
What the writes of a sender do, whatever the network answers.

A write sends its record until a send succeeds, fails for good, or no attempt is left, and all sends but the last
would have blocked (`sendFor_turn`). `History` runs a sender on a network in any state and notes of each write what
its sends answered and what it answered itself (`Turn`); noting changes nothing (`sendFor_noted`). A send on a closed
sender is one that fails for good.
- `sinceReset`: the sends that would have blocked since the last write that set the count back.
- `step_counted`, `run_counted`: that is what a sender counts, after every run, and never more than its policy allows.
- `attempts_accounted`: how often each write sends, what it answers, and when it sets the count back.
-/
import Mathlib.Tactic
import LogRelay.Datagram

namespace LogRelay

theorem Backoff.attempts_eq (p : Backoff) (errors : Nat) :
    p.attempts errors = max 1 (p.maxAttempts.toNat - errors) := by
  unfold attempts
  split <;> omega

namespace Datagram

abbrev Reply := Except IoFailure Nat

def blocked : Reply → Bool
  | .ok _ => false
  | .error f => f.kind = .wouldBlock

/-- one write: what its sends answered, the first first, and what it answered itself -/
structure Turn where
  sends : List Reply
  answer : Except Failure Nat

namespace Turn

/-- how many of the sends would have blocked -/
def blocks (t : Turn) : Nat := t.sends.countP blocked

/-- whether the write sets the count back: it succeeded, or asks for a new connection -/
def resets (t : Turn) : Bool :=
  match t.answer with
  | .ok _ => true
  | .error f => !f.permanent

/-- what a write may do that finds `errors` counted -/
structure Follows (p : Backoff) (errors : Nat) (t : Turn) : Prop where
  /-- the record is sent at least once -/
  tried : 1 ≤ t.sends.length
  bounded : t.sends.length ≤ max 1 (p.maxAttempts.toNat - errors)
  /-- it is sent again only after a send that would have blocked -/
  retried : ∀ r ∈ t.sends.dropLast, blocked r
  /-- and as long as there are attempts left -/
  exhausted : (∀ r ∈ t.sends, blocked r) → t.sends.length = max 1 (p.maxAttempts.toNat - errors)
  succeeds : ∀ n, t.answer = .ok n ↔ .ok n ∈ t.sends
  /-- a new connection is asked for when more errors are counted than the policy allows -/
  transient : ∀ f, t.answer = .error (.write f) ↔
    t.sends.getLast? = some (.error f) ∧ p.errorsBeforeReconnect.toNat < errors + t.blocks
  final : ∀ f, t.answer = .error (.doNotRetry f) ↔
    t.sends.getLast? = some (.error f) ∧ errors + t.blocks ≤ p.errorsBeforeReconnect.toNat

end Turn

/-- the sends that would have blocked since the last write that set the count back; the last write comes first -/
def sinceReset : List Turn → Nat
  | [] => 0
  | t :: ts => if t.resets then 0 else sinceReset ts + t.blocks

section

variable {ε : Type}

/-- a way to send that notes its answers -/
def noted (send : ε → Reply × ε) : ε × List Reply → Reply × ε × List Reply
  | (e, rs) => ((send e).1, (send e).2, rs ++ [(send e).1])

/-- what a send on a sender answers: a closed one has no socket -/
def reply (d : Datagram) (send : ε → Reply × ε) : ε → Reply × ε :=
  if d.isOpen then send else fun e => (.error socketClosed, e)

/-- what the sends of a write answer -/
def sends (d : Datagram) (send : ε → Reply × ε) (e : ε) : List Reply :=
  (sendFor d.policy (noted (d.reply send)) (d.policy.attempts d.errors - 1) d.errors (e, [])).2.2

/-- a sender, the network it sends on, and its writes so far, the last first -/
structure History (ε : Type) where
  sender : Datagram
  network : ε
  turns : List Turn := []

inductive Act where
  | write (text : Octets)
  | close

namespace History

variable (send : Octets → ε → Reply × ε)

def step (s : History ε) : Act → History ε
  | .write text =>
    let (answer, d, e) := s.sender.write (send text) s.network
    ⟨d, e, ⟨s.sender.sends (send text) s.network, answer⟩ :: s.turns⟩
  | .close => { s with sender := s.sender.close }

def run (s : History ε) (acts : List Act) : History ε := acts.foldl (step send) s

def start (p : Backoff) (e : ε) : History ε := { sender := { policy := p }, network := e }

end History

/-! ## One write -/

/-- what a write answers whose last send answered `r`, with all errors counted, and what it leaves counted -/
def conclude (p : Backoff) (errors : Nat) : Reply → Except Failure Nat × Nat
  | .ok n => (.ok n, 0)
  | .error f => giveUp p errors f

/-- a send that would have blocked is followed by another while there are attempts left; any other is the last -/
theorem sendFor_eq (p : Backoff) (send : ε → Reply × ε) (more errors : Nat) (e : ε) :
    sendFor p send more errors e =
      if blocked (send e).1 then
        match more with
        | 0 => (conclude p (errors + 1) (send e).1, (send e).2)
        | more + 1 => sendFor p send more (errors + 1) (send e).2
      else (conclude p errors (send e).1, (send e).2) := by
  rw [sendFor.eq_def]
  rcases hsend : send e with ⟨f | n, e'⟩
  · by_cases hkind : f.kind = .wouldBlock
    · cases more <;> simp [hsend, blocked, conclude, hkind]
    · simp [hsend, blocked, conclude, hkind]
  · simp [hsend, blocked, conclude]

/-- noting the answers of the sends changes nothing else -/
theorem sendFor_noted (p : Backoff) (send : ε → Reply × ε) (more errors : Nat) (e : ε) (rs : List Reply) :
    (sendFor p (noted send) more errors (e, rs)).1 = (sendFor p send more errors e).1 ∧
    (sendFor p (noted send) more errors (e, rs)).2.1 = (sendFor p send more errors e).2 := by
  induction more generalizing errors e rs with
  | zero =>
    rw [sendFor_eq p send, sendFor_eq p (noted send)]
    cases h : blocked (send e).1 <;> simp [noted, h]
  | succ more ih =>
    rw [sendFor_eq p send, sendFor_eq p (noted send)]
    cases h : blocked (send e).1 with
    | false => simp [noted, h]
    | true =>
      simp only [noted, h, if_true]
      exact ih _ _ _

/-- **One record.** All sends but the last would have blocked, and if the last would have too, no attempt was left. -/
theorem sendFor_turn (p : Backoff) (send : ε → Reply × ε) (more errors : Nat) (e : ε) (rs : List Reply) :
    ∃ bs r, (sendFor p (noted send) more errors (e, rs)).2.2 = rs ++ (bs ++ [r]) ∧
      (∀ b ∈ bs, blocked b) ∧ bs.length ≤ more ∧ (blocked r → bs.length = more) ∧
      (sendFor p (noted send) more errors (e, rs)).1 = conclude p (errors + (bs ++ [r]).countP blocked) r := by
  induction more generalizing errors e rs with
  | zero =>
    refine ⟨[], (send e).1, ?_⟩
    rw [sendFor_eq]
    cases h : blocked (send e).1 <;> simp [noted, h]
  | succ more ih =>
    rw [sendFor_eq]
    cases h : blocked (send e).1 with
    | false =>
      refine ⟨[], (send e).1, ?_⟩
      simp [noted, h]
    | true =>
      -- the sends of the rest come behind this one
      obtain ⟨bs, r, hnoted, hbs, hmore, hlast, hanswer⟩ := ih (errors + 1) (send e).2 (rs ++ [(send e).1])
      simp only [noted, h, if_true]
      refine ⟨(send e).1 :: bs, r, ?_, ?_, Nat.succ_le_succ hmore, ?_, ?_⟩
      · rw [hnoted, List.append_assoc]
        rfl
      · exact List.forall_mem_cons.2 ⟨h, hbs⟩
      · intro hr
        rw [List.length_cons, hlast hr]
      · rw [hanswer, List.cons_append, List.countP_cons_of_pos h, Nat.add_assoc, Nat.add_comm 1]

theorem conclude_ok (p : Backoff) (errors : Nat) (r : Reply) (n : Nat) :
    (conclude p errors r).1 = .ok n ↔ r = .ok n := by
  rcases r with f | m
  · rw [conclude, giveUp]
    split <;> simp
  · simp [conclude]

theorem conclude_write (p : Backoff) (errors : Nat) (r : Reply) (f : IoFailure) :
    (conclude p errors r).1 = .error (.write f) ↔ r = .error f ∧ p.errorsBeforeReconnect.toNat < errors := by
  rcases r with g | m
  · rw [conclude, giveUp]
    split <;> simp_all
  · simp [conclude]

theorem conclude_doNotRetry (p : Backoff) (errors : Nat) (r : Reply) (f : IoFailure) :
    (conclude p errors r).1 = .error (.doNotRetry f) ↔ r = .error f ∧ errors ≤ p.errorsBeforeReconnect.toNat := by
  rcases r with g | m
  · rw [conclude, giveUp]
    split <;> simp_all
  · simp [conclude]

/-- the count is kept exactly when the write must not be tried again -/
theorem conclude_left (p : Backoff) (errors : Nat) (r : Reply) (sends : List Reply) :
    (conclude p errors r).2 = if (Turn.mk sends (conclude p errors r).1).resets then 0 else errors := by
  rcases r with f | n
  · rw [conclude, giveUp]
    split <;> rfl
  · rfl

/-- **One write**, on an open sender or a closed one: how often it sends, what it answers and what it leaves counted. -/
theorem write_follows (d : Datagram) (send : ε → Reply × ε) (e : ε) :
    let t : Turn := ⟨d.sends send e, (d.write send e).1⟩
    t.Follows d.policy d.errors ∧
    (d.write send e).2.1 = { d with errors := if t.resets then 0 else d.errors + t.blocks } := by
  intro t
  obtain ⟨bs, r, hsends, hbs, hmore, hlast, hconclude⟩ :=
    sendFor_turn d.policy (d.reply send) (d.policy.attempts d.errors - 1) d.errors e []
  have hnoted := (sendFor_noted d.policy (d.reply send) (d.policy.attempts d.errors - 1) d.errors e []).1
  have ht : t.sends = bs ++ [r] := hsends
  have hblocks : t.blocks = (bs ++ [r]).countP blocked := by rw [Turn.blocks, ht]
  rw [hnoted, ← hblocks] at hconclude
  have hanswer : t.answer = (conclude d.policy (d.errors + t.blocks) r).1 := congrArg Prod.fst hconclude
  have hlength : t.sends.length = bs.length + 1 := by rw [ht, List.length_append, List.length_singleton]
  have hend : t.sends.getLast? = some r := by rw [ht, List.getLast?_concat]
  rw [Backoff.attempts_eq] at hmore hlast
  refine ⟨⟨by omega, by omega, ?_, ?_, ?_, ?_, ?_⟩, ?_⟩
  · rw [ht, List.dropLast_concat]
    exact hbs
  · intro hall
    have hr := hlast (hall r (by simp [ht]))
    omega
  · intro n
    rw [hanswer, conclude_ok, ht, List.mem_append, List.mem_singleton, eq_comm]
    -- what would have blocked is no success
    refine ⟨Or.inr, fun h => h.resolve_left fun hmem => ?_⟩
    exact absurd (hbs _ hmem) Bool.false_ne_true
  · intro f
    rw [hanswer, conclude_write, hend, Option.some_inj]
  · intro f
    rw [hanswer, conclude_doNotRetry, hend, Option.some_inj]
  · have hleft : (d.write send e).2.1 = { d with errors := (conclude d.policy (d.errors + t.blocks) r).2 } := by
      rw [← hconclude]
      rfl
    rw [hleft, conclude_left _ _ _ t.sends, ← hanswer]

/-- the sends of an open sender are those that its write makes: a network that notes them sees just these -/
theorem write_noted {d : Datagram} (h : d.isOpen) (send : ε → Reply × ε) (e : ε) :
    d.write (noted send) (e, []) =
      ((d.write send e).1, (d.write send e).2.1, (d.write send e).2.2, d.sends send e) := by
  obtain ⟨hanswer, hnetwork⟩ := sendFor_noted d.policy send (d.policy.attempts d.errors - 1) d.errors e []
  simp only [write, sends, reply, h, if_true, ← hanswer, ← hnetwork]

/-- a closed sender has no socket for the first send, and makes no other -/
theorem sends_of_closed {d : Datagram} (h : d.isOpen = false) (send : ε → Reply × ε) (e : ε) :
    d.sends send e = [.error socketClosed] := by
  have hreply : d.reply send = fun e => (.error socketClosed, e) := by simp [reply, h]
  rw [sends, hreply, sendFor_eq]
  rfl

/-! ## Runs of writes -/

theorem Turn.exists_doNotRetry {t : Turn} (h : t.resets = false) : ∃ f, t.answer = .error (.doNotRetry f) := by
  unfold resets at h
  split at h
  · cases h
  · next f hf =>
    cases f with
    | doNotRetry f => exact ⟨f, hf⟩
    | _ => cases h

namespace History

/-- what a sender has counted -/
structure Counted (p : Backoff) (s : History ε) : Prop where
  policy : s.sender.policy = p
  errors : s.sender.errors = sinceReset s.turns
  within : s.sender.errors ≤ p.errorsBeforeReconnect.toNat

variable (send : Octets → ε → Reply × ε)

theorem run_snoc (s : History ε) (acts : List Act) (a : Act) :
    s.run send (acts ++ [a]) = (s.run send acts).step send a := by
  simp [run, List.foldl_append]

theorem step_counted {p : Backoff} {s : History ε} (h : Counted p s) (a : Act) : Counted p (s.step send a) := by
  cases a with
  | close => exact ⟨h.policy, h.errors, h.within⟩
  | write text =>
    obtain ⟨hturn, hsender⟩ := write_follows s.sender (send text) s.network
    generalize ht : Turn.mk _ _ = t at hturn hsender
    have hturns : (s.step send (.write text)).turns = t :: s.turns := by rw [← ht]; rfl
    have hsender' : (s.step send (.write text)).sender =
        { s.sender with errors := if t.resets then 0 else s.sender.errors + t.blocks } := hsender
    refine ⟨?_, ?_, ?_⟩
    · rw [hsender']
      exact h.policy
    · rw [hsender', hturns, sinceReset, h.errors]
    · rw [hsender']
      cases hreset : t.resets with
      | true => exact Nat.zero_le _
      | false =>
        obtain ⟨f, hf⟩ := t.exists_doNotRetry hreset
        rw [← h.policy]
        exact ((hturn.final f).1 hf).2

theorem run_counted (p : Backoff) (e : ε) (acts : List Act) : Counted p ((start p e).run send acts) := by
  induction acts using List.reverseRecOn with
  | nil => exact ⟨rfl, rfl, Nat.zero_le _⟩
  | append_singleton acts a ih =>
    rw [run_snoc]
    exact step_counted send ih a

end History

/-! ## Main result -/

open History in
/-- **Attempts are accounted for.** After any run of writes, whatever the network answered to their sends, a sender
has counted the sends that would have blocked since the last write that set the count back, and no more than its
policy allows. The next write sends its record at least once, and at most as often as the count leaves attempts; it
answers the success of a send, or else the failure of the last, which asks for a new connection exactly when more
errors are counted then than the policy allows; and it sets the count back when it succeeds or asks for a new
connection. A word holds the count at all times, unless the policy allows as many errors as a word holds. -/
theorem attempts_accounted (p : Backoff) (send : Octets → ε → Reply × ε) (e : ε) (acts : List Act) (text : Octets) :
    let s := (start p e).run send acts
    let s' := s.step send (.write text)
    s.sender.errors = sinceReset s.turns ∧ s.sender.errors ≤ p.errorsBeforeReconnect.toNat ∧
    ∃ t, s'.turns = t :: s.turns ∧
      (s.sender.isOpen →
        s.sender.write (noted (send text)) (s.network, []) = (t.answer, s'.sender, s'.network, t.sends)) ∧
      (s.sender.isOpen = false → t.sends = [.error socketClosed]) ∧
      t.Follows p s.sender.errors ∧
      s'.sender.errors = (if t.resets then 0 else s.sender.errors + t.blocks) ∧
      s.sender.errors + t.blocks ≤ max (p.errorsBeforeReconnect.toNat + 1) p.maxAttempts.toNat := by
  intro s s'
  have hcounted : Counted p s := run_counted send p e acts
  obtain ⟨hturn, hsender⟩ := write_follows s.sender (send text) s.network
  rw [hcounted.policy] at hturn
  refine ⟨hcounted.errors, hcounted.within, _, rfl, ?_, ?_, hturn, congrArg errors hsender, ?_⟩
  · intro hopen
    exact write_noted hopen (send text) s.network
  · intro hclosed
    exact sends_of_closed hclosed (send text) s.network
  · have hblocks := List.countP_le_length (p := blocked) (l := s.sender.sends (send text) s.network)
    have hbounded := hturn.bounded
    have hwithin := hcounted.within
    rw [Turn.blocks]
    dsimp only at hbounded ⊢
    omega

end

end Datagram
end LogRelay
