/-
What a flush waits for.

The octets a flush waits for are those of the records accepted before it began, and each of these records gives its
octets back when its write ends. Records accepted later can only add to what is released. So a flush may answer too
early (`flush_sound_iff`), but never too late: nothing but the records accepted before it holds it up. `Metered` ties
the two totals of a transport to the records behind them, whatever the sink does.
- `step_metered`, `run_metered`: every step, and so every run, keeps it, panics included.
- `flush_waits_for_earlier_only`: once the records accepted before a flush began are written, the flush answers at its
  next look, whatever was accepted since, and whether that waits, is being written or was lost in a panic.
-/
import LogRelay.Proofs.Transport.Flush

namespace LogRelay.Transport

/-! ## The totals and the records behind them -/

/-- the octets ever queued are those of the accepted records, and the octets ever released those of the writes that
ended; each accepted record has a number of its own, below that of the next call -/
structure Metered (s : Watched) : Prop where
  queued : s.transport.enqueued = load s.history.accepted
  released : s.transport.completed = load (s.history.finished.map Prod.fst)
  tickets : (s.history.accepted.map Parcel.ticket).Nodup
  calls : ∀ p ∈ s.history.accepted, p.ticket < s.transport.pool.count

theorem start_metered (o : Options) : Metered (Watched.start o) where
  queued := rfl
  released := rfl
  tickets := List.nodup_nil
  calls := by intro p hp; cases hp

/-- the pool counts the calls, and a write that ends is none -/
theorem finished_count (t : Transport) (w : Nat) (p : Parcel) (answer : Except Failure Nat) :
    (t.finished w p answer).pool.count = t.pool.count := by
  have hpool : (t.finished w p answer).pool = ((t.report .latency).settle p.buffer answer).pool := rfl
  rw [hpool]
  rcases settle_pool (t.report .latency) p.buffer answer with h | h <;> rw [h]
  · exact put_count _ _
  · rfl

theorem refused_count (t : Transport) (d : Draft) (f : Failure) : (t.refused d f).pool.count = t.pool.count + 1 := by
  simp [refused, prepared, report, put_count, Pool.observe, get_count]

section Moves

variable {t : Transport} {y : History}

theorem accept_metered (h : Metered ⟨t, y⟩) (d : Draft) :
    Metered ⟨(t.prepared d).joined (t.incoming d), { y with accepted := y.accepted ++ [t.incoming d] }⟩ := by
  have hcount : ((t.prepared d).joined (t.incoming d)).pool.count = t.pool.count + 1 := by
    simp [joined, prepared, report, Pool.observe, get_count]
  refine ⟨?_, h.released, ?_, ?_⟩
  · rw [load_append, load_cons, load_nil, ← h.queued]
    rfl
  · -- the number of the call is above those given out before
    rw [List.map_append, List.nodup_append]
    refine ⟨h.tickets, List.nodup_singleton _, ?_⟩
    intro a ha b hb
    obtain ⟨p, hp, rfl⟩ := List.mem_map.1 ha
    obtain ⟨q, hq, rfl⟩ := List.mem_map.1 hb
    rw [List.mem_singleton] at hq
    subst hq
    exact Nat.ne_of_lt (h.calls p hp)
  · intro p hp
    rw [hcount]
    rcases List.mem_append.1 hp with hp | hp
    · exact Nat.lt_succ_of_lt (h.calls p hp)
    · rw [List.mem_singleton] at hp
      subst hp
      exact Nat.lt_succ_self t.pool.count

theorem refuse_metered (h : Metered ⟨t, y⟩) (d : Draft) (f : Failure) :
    Metered ⟨t.refused d f, { y with refused := y.refused ++ [t.incoming d] }⟩ := by
  refine ⟨?_, ?_, h.tickets, ?_⟩
  · rw [refused_enqueued]
    exact h.queued
  · rw [refused_completed]
    exact h.released
  · intro p hp
    rw [refused_count]
    exact Nat.lt_succ_of_lt (h.calls p hp)

theorem finish_metered (h : Metered ⟨t, y⟩) (w : Nat) (p : Parcel) (answer : Except Failure Nat) :
    Metered ⟨t.finished w p answer, { y with finished := y.finished ++ [(p, answer)] }⟩ := by
  refine ⟨?_, ?_, h.tickets, ?_⟩
  · rw [finished_enqueued]
    exact h.queued
  · have hreleased : t.completed = load (y.finished.map Prod.fst) := h.released
    rw [finished_completed, List.map_append, load_append, hreleased]
    rfl
  · intro q hq
    rw [finished_count]
    exact h.calls q hq

/-- **One step keeps the totals tied to the records**, a panic of the sink included -/
theorem step_metered {s : Watched} (h : Metered s) (op : Op) : Metered (s.step op) := by
  obtain ⟨t, y⟩ := s
  have hm := step_move t op
  simp only [Watched.step]
  generalize t.step op = t' at hm ⊢
  cases hm with
  | accept d hr => rw [after_accept y d hr]; exact accept_metered h d
  | refuse d f hr => rw [after_refuse y d f hr]; exact refuse_metered h d f
  | take w p ps hw hq => rw [after_take y hw hq]; exact ⟨h.queued, h.released, h.tickets, h.calls⟩
  | finish w p answer hw => rw [after_finish y answer hw]; exact finish_metered h w p answer
  | panic w p hw => exact ⟨h.queued, h.released, h.tickets, h.calls⟩
  | leave w hw hq hc => exact ⟨h.queued, h.released, h.tickets, h.calls⟩
  | close => exact ⟨h.queued, h.released, h.tickets, h.calls⟩
  | rest op hr => rw [after_rest y hr]; exact h

/-- **Every run keeps the totals tied to the records** -/
theorem run_metered {s : Watched} (h : Metered s) (ops : List Op) : Metered (s.run ops) := by
  induction ops generalizing s with
  | nil => exact h
  | cons op ops ih =>
    rw [Watched.run_cons]
    exact ih (step_metered h op)

end Moves

/-! ## Main result -/

/-- parcels that are different from each other and all among others take up no more octets than those -/
theorem load_le_of_subset {a b : List Parcel} (ha : a.Nodup) (hab : ∀ p ∈ a, p ∈ b) : load a ≤ load b := by
  obtain ⟨c, hc, hsub⟩ := ha.subperm hab
  have hmap := List.Sublist.map (fun p : Parcel => p.buffer.capacity) hsub
  calc load a = load c := (load_perm hc).symm
    _ ≤ load b := hmap.sum_le_sum fun _ _ => Nat.zero_le _

/-- **Later records never hold up a flush.** A flush begins after any steps `before`. In whatever state any further
steps `during` lead to, if the write of every record accepted before the flush has ended, then the flush is done at its
next look, and answers so whether or not its time is up. Nothing is asked of the records accepted since: they may wait,
be in the hands of the sink, or have been lost in a panic. -/
theorem flush_waits_for_earlier_only (o : Options) (before during : List Op) :
    let s := (Watched.start o).run before
    let s' := s.run during
    ∀ target, s.transport.beginFlush = .ok target →
      (∀ p ∈ s.history.accepted, p ∈ s'.history.finished.map Prod.fst) →
      s'.transport.flushed target = true ∧ ∀ cause, s'.transport.endFlush target cause = .ok () := by
  intro s s' target hbegin hdone
  have hs : Metered s := run_metered (start_metered o) before
  have hs' : Metered s' := run_metered hs during
  have hreached : target ≤ s'.transport.completed := by
    calc target = s.transport.enqueued := beginFlush_eq_ok hbegin
      _ = load s.history.accepted := hs.queued
      _ ≤ load (s'.history.finished.map Prod.fst) := load_le_of_subset hs.tickets.of_map hdone
      _ = s'.transport.completed := hs'.released.symm
  refine ⟨?_, ?_⟩
  · exact decide_eq_true hreached
  · intro cause
    exact endFlush_eq_ok.2 hreached

/-- two records are accepted and the flush begins; of three accepted later one is lost in a panic and two wait when the
second of the earlier ones, cut short, is done -/
theorem flush_waits_for_earlier_only_crowded :
    let o : Options := ⟨2, 4, 100, false, 16⟩
    let s := (Watched.start o).run [.submit (draftOf 8), .take 0, .submit (draftOf 12), .take 1]
    let s' := s.run [.submit (draftOf 16), .finish 0 (.ok 8), .take 0, .panic 0, .submit (draftOf 24),
      .submit (draftOf 8), .finish 1 (.ok 3)]
    s.transport.beginFlush = .ok 20 ∧ (∀ p ∈ s.history.accepted, p ∈ s'.history.finished.map Prod.fst) ∧
      s'.transport.queue.length = 2 ∧ s'.transport.flushed 20 = true ∧
      s'.transport.endFlush 20 .deadlineExceeded = .ok () := by
  intro o s s'
  obtain ⟨h1, h2⟩ := flush_waits_for_earlier_only o
    [.submit (draftOf 8), .take 0, .submit (draftOf 12), .take 1]
    [.submit (draftOf 16), .finish 0 (.ok 8), .take 0, .panic 0, .submit (draftOf 24), .submit (draftOf 8),
      .finish 1 (.ok 3)] 20 (by decide) (by decide)
  exact ⟨by decide, by decide, by decide, h1, h2 .deadlineExceeded⟩

end LogRelay.Transport
