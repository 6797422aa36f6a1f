/-
The idle buffers of a pool.

`Watched` runs a pool and writes down, beside it, the calls, the buffers that were kept as they came, and the buffers
that were idle and left. `Stocked` is the invariant that ties these lists to the pool: what was kept has left or is
idle, in one order, and was small enough when it came. The average it was measured by changes with every record, and
is taken of a sum that may have passed 64 bits; it is then too small, never too large.
- `get_cases`, `put_cases`: all that a call can do.
- `step_stocked`, `run_stocked`: every call, and so every run, keeps the invariant.
- `idle_accounted`: what is idle after any run, and what the next call does.
-/
import Mathlib.Tactic
import LogRelay.Pool

namespace LogRelay

def Buffer.emptied (b : Buffer) : Buffer := { b with content := [] }

namespace Pool

/-! ## Calls -/

inductive Op where
  | get
  | put (b : Buffer)
  | observe (n : Nat)
  deriving DecidableEq, Repr

def step (p : Pool) : Op → Pool
  | .get => p.get.2
  | .put b => p.put b
  | .observe n => p.observe n

def run (p : Pool) (ops : List Op) : Pool := ops.foldl step p

/-- the length a call takes note of, if it does -/
def Op.observed? : Op → Option Nat
  | observe n => some n
  | _ => none

def observed (ops : List Op) : List Nat := ops.filterMap Op.observed?

def average (ns : List Nat) : Nat := ns.sum / ns.length

/-- a buffer is small enough to be kept: not above the ceiling, nor above three times the average of what was seen -/
def Fits (maxReusable : Nat) (ns : List Nat) (b : Buffer) : Prop :=
  b.capacity ≤ maxReusable ∧ (ns ≠ [] → b.capacity ≤ 3 * average ns)

/-- what a pool knows of the lengths observed: how many they are, and their sum as a word -/
structure Knows (p : Pool) (ns : List Nat) : Prop where
  count : p.count = ns.length
  length : p.length = ns.sum % UInt64.size

section Cases

variable (p : Pool) (b : Buffer)

/-- a buffer is made, or the one that was idle longest is taken -/
theorem get_cases : (p.idle = [] ∧ p.get = ({}, { p with created := p.created + 1 })) ∨
    ∃ b bs, p.idle = b :: bs ∧ p.get = (b, { p with idle := bs }) := by
  cases hidle : p.idle with
  | nil => exact Or.inl ⟨rfl, by rw [get, hidle]⟩
  | cons b bs => exact Or.inr ⟨b, bs, rfl, by rw [get, hidle]⟩

/-- a buffer that comes back is skipped, is kept, or finds no slot -/
theorem put_cases : (p.isOversized b = true ∧ p.put b = { p with skipped := p.skipped + 1 }) ∨
    (p.isOversized b = false ∧ p.idle.length < p.slots ∧ p.put b = { p with idle := p.idle ++ [b.emptied] }) ∨
    (p.isOversized b = false ∧ p.slots ≤ p.idle.length ∧ p.put b = p) := by
  cases hover : p.isOversized b with
  | true => exact Or.inl ⟨rfl, by rw [put, if_pos hover]⟩
  | false =>
    have hnot : ¬ p.isOversized b = true := by rw [hover]; exact Bool.false_ne_true
    by_cases hslot : p.idle.length < p.slots
    · exact Or.inr (Or.inl ⟨rfl, hslot, by rw [put, if_neg hnot, if_pos hslot]; rfl⟩)
    · exact Or.inr (Or.inr ⟨rfl, Nat.not_lt.1 hslot, by rw [put, if_neg hnot, if_neg hslot]⟩)

end Cases

/-- a pool is the same size for good -/
theorem step_limits (p : Pool) (op : Op) : (p.step op).maxReusable = p.maxReusable ∧ (p.step op).slots = p.slots := by
  cases op with
  | get => rcases p.get_cases with ⟨-, h⟩ | ⟨b, bs, -, h⟩ <;> rw [step, h] <;> exact ⟨rfl, rfl⟩
  | put b => rcases p.put_cases b with ⟨-, h⟩ | ⟨-, -, h⟩ | ⟨-, -, h⟩ <;> rw [step, h] <;> exact ⟨rfl, rfl⟩
  | observe n => exact ⟨rfl, rfl⟩

theorem run_limits (p : Pool) (ops : List Op) :
    (p.run ops).maxReusable = p.maxReusable ∧ (p.run ops).slots = p.slots := by
  induction ops generalizing p with
  | nil => exact ⟨rfl, rfl⟩
  | cons op ops ih =>
    obtain ⟨hmax, hslots⟩ := step_limits p op
    obtain ⟨hmax', hslots'⟩ := ih (p.step op)
    exact ⟨hmax'.trans hmax, hslots'.trans hslots⟩

/-! ## Capacities -/

section Capacities

variable {p : Pool} {ns : List Nat} (h : Knows p ns)

include h

/-- a sum that has passed 64 bits makes the average too small, never too large -/
theorem allowance_le : p.allowance ≤ 3 * average ns := by
  rw [allowance, average, h.count, h.length]
  refine (Nat.mod_le _ _).trans (Nat.mul_le_mul_left 3 ?_)
  exact Nat.div_le_div_right (Nat.mod_le _ _)

theorem allowance_eq (hsum : 3 * ns.sum < UInt64.size) : p.allowance = 3 * average ns := by
  have hword : ns.sum % UInt64.size = ns.sum := Nat.mod_eq_of_lt (by omega)
  have hle : 3 * (ns.sum / ns.length) ≤ 3 * ns.sum := Nat.mul_le_mul_left 3 (Nat.div_le_self _ _)
  rw [allowance, average, h.count, h.length, hword, Nat.mod_eq_of_lt (hle.trans_lt hsum)]

/-- a pool keeps a buffer by what it knows -/
theorem isOversized_eq_false_iff (b : Buffer) :
    p.isOversized b = false ↔ b.capacity ≤ p.maxReusable ∧ (ns ≠ [] → b.capacity ≤ p.allowance) := by
  have hpos : 0 < p.count ↔ ns ≠ [] := by rw [h.count, List.length_pos_iff]
  simp only [isOversized, Bool.or_eq_false_iff, Bool.and_eq_false_imp, decide_eq_false_iff_not, decide_eq_true_eq,
    Nat.not_lt, hpos]

theorem fits_of_isOversized_eq_false {b : Buffer} (hb : p.isOversized b = false) : Fits p.maxReusable ns b := by
  obtain ⟨hmax, hallowed⟩ := (isOversized_eq_false_iff h b).1 hb
  exact ⟨hmax, fun hne => (hallowed hne).trans (allowance_le h)⟩

theorem isOversized_eq_false_iff_fits (hsum : 3 * ns.sum < UInt64.size) (b : Buffer) :
    p.isOversized b = false ↔ Fits p.maxReusable ns b := by
  rw [isOversized_eq_false_iff h, Fits, allowance_eq h hsum]

end Capacities

/-! ## What is seen of the buffers -/

/-- a buffer that was kept, as it came, and the calls before it came -/
structure Kept where
  before : List Op
  buffer : Buffer
  deriving DecidableEq, Repr

/-- a pool, and what was seen of it so far -/
structure Watched where
  pool : Pool
  calls : List Op := []
  /-- the buffers that were kept, in the order in which they came -/
  kept : List Kept := []
  /-- the buffers that were idle and left, in the order in which they left -/
  left : List Buffer := []

namespace Watched

def start (maxReusable slots : Nat) : Watched := { pool := Pool.new maxReusable slots }

/-- the buffer that a call leaves idle, if one more is idle after it -/
def kept? (w : Watched) : Op → Option Kept
  | .put b => if w.pool.idle.length < (w.pool.put b).idle.length then some ⟨w.calls, b⟩ else none
  | _ => none

/-- the buffer that a call hands out, if one was idle -/
def left? (w : Watched) : Op → Option Buffer
  | .get => if w.pool.idle.isEmpty then none else some w.pool.get.1
  | _ => none

def step (w : Watched) (op : Op) : Watched :=
  ⟨w.pool.step op, w.calls ++ [op], w.kept ++ (w.kept? op).toList, w.left ++ (w.left? op).toList⟩

def run (w : Watched) (ops : List Op) : Watched := ops.foldl step w

theorem run_cons (w : Watched) (op : Op) (ops : List Op) : w.run (op :: ops) = (w.step op).run ops := rfl

/-- watching changes nothing -/
theorem run_pool (w : Watched) (ops : List Op) : (w.run ops).pool = w.pool.run ops := by
  induction ops generalizing w with
  | nil => rfl
  | cons op ops ih => rw [run_cons, ih]; rfl

theorem run_calls (w : Watched) (ops : List Op) : (w.run ops).calls = w.calls ++ ops := by
  induction ops generalizing w with
  | nil => exact (List.append_nil _).symm
  | cons op ops ih => rw [run_cons, ih, step, List.append_assoc, List.singleton_append]

end Watched

section Seen

variable {w : Watched}

theorem watched_make (hidle : w.pool.idle = []) :
    w.step .get = ⟨{ w.pool with created := w.pool.created + 1 }, w.calls ++ [.get], w.kept, w.left⟩ := by
  simp [Watched.step, step, Watched.kept?, Watched.left?, get, hidle]

theorem watched_take {b : Buffer} {bs : List Buffer} (hidle : w.pool.idle = b :: bs) :
    w.step .get = ⟨{ w.pool with idle := bs }, w.calls ++ [.get], w.kept, w.left ++ [b]⟩ := by
  simp [Watched.step, step, Watched.kept?, Watched.left?, get, hidle]

theorem watched_keep {b : Buffer} (hput : w.pool.put b = { w.pool with idle := w.pool.idle ++ [b.emptied] }) :
    w.step (.put b) = ⟨{ w.pool with idle := w.pool.idle ++ [b.emptied] }, w.calls ++ [.put b],
      w.kept ++ [⟨w.calls, b⟩], w.left⟩ := by
  simp [Watched.step, step, Watched.kept?, Watched.left?, hput]

/-- a buffer that is not kept is not seen -/
theorem watched_drop {b : Buffer} (hidle : (w.pool.put b).idle = w.pool.idle) :
    w.step (.put b) = ⟨w.pool.put b, w.calls ++ [.put b], w.kept, w.left⟩ := by
  simp [Watched.step, step, Watched.kept?, Watched.left?, hidle]

theorem watched_observe (n : Nat) :
    w.step (.observe n) = ⟨w.pool.observe n, w.calls ++ [.observe n], w.kept, w.left⟩ := by
  simp [Watched.step, step, Watched.kept?, Watched.left?]

end Seen

/-! ## The invariant -/

/-- a buffer came in a run of calls, and was small enough when it came -/
structure Kept.Came (k : Kept) (maxReusable : Nat) (calls : List Op) : Prop where
  called : k.before ++ [.put k.buffer] <+: calls
  fits : Fits maxReusable (observed k.before) k.buffer

structure Stocked (w : Watched) : Prop where
  knows : Knows w.pool (observed w.calls)
  room : w.pool.idle.length ≤ w.pool.slots
  /-- what was kept has left or is idle, in the order in which it came -/
  order : w.kept.map (fun k => k.buffer.emptied) = w.left ++ w.pool.idle
  came : ∀ k ∈ w.kept, k.Came w.pool.maxReusable w.calls
  sorted : w.kept.Pairwise fun k l => k.before.length < l.before.length

theorem Kept.Came.snoc {k : Kept} {maxReusable : Nat} {calls : List Op} (h : k.Came maxReusable calls) (op : Op) :
    k.Came maxReusable (calls ++ [op]) := ⟨h.called.trans (List.prefix_append _ _), h.fits⟩

theorem Kept.Came.length_lt {k : Kept} {maxReusable : Nat} {calls : List Op} (h : k.Came maxReusable calls) :
    k.before.length < calls.length := by
  have hle := h.called.length_le
  rw [List.length_append, List.length_singleton] at hle
  omega

theorem start_stocked (maxReusable slots : Nat) : Stocked (.start maxReusable slots) where
  knows := ⟨rfl, rfl⟩
  room := Nat.zero_le _
  order := rfl
  came := fun _ h => absurd h List.not_mem_nil
  sorted := List.Pairwise.nil

theorem observed_snoc (calls : List Op) (op : Op) :
    observed (calls ++ [op]) = observed calls ++ op.observed?.toList := by
  rw [observed, List.filterMap_append]
  cases op <;> rfl

section Steps

variable {w : Watched} (h : Stocked w)

include h

/-- a call that takes no note of a length leaves a pool what it knows -/
theorem knows_of_unobserved {op : Op} (hop : op.observed? = none) : Knows w.pool (observed (w.calls ++ [op])) := by
  rw [observed_snoc, hop, Option.toList_none, List.append_nil]
  exact h.knows

theorem still_stocked {p : Pool} {op : Op} (hknows : Knows p (observed (w.calls ++ [op])))
    (hidle : p.idle = w.pool.idle) (hmax : p.maxReusable = w.pool.maxReusable) (hslots : p.slots = w.pool.slots) :
    Stocked ⟨p, w.calls ++ [op], w.kept, w.left⟩ where
  knows := hknows
  room := by rw [hidle, hslots]; exact h.room
  order := by rw [hidle]; exact h.order
  came := fun k hk => by rw [hmax]; exact (h.came k hk).snoc op
  sorted := h.sorted

theorem get_stocked : Stocked (w.step .get) := by
  have hknows : Knows w.pool (observed (w.calls ++ [.get])) := knows_of_unobserved h rfl
  rcases w.pool.get_cases with ⟨hidle, -⟩ | ⟨b, bs, hidle, -⟩
  · rw [watched_make hidle]
    exact still_stocked h ⟨hknows.count, hknows.length⟩ rfl rfl rfl
  · rw [watched_take hidle]
    have hroom := h.room
    have horder := h.order
    rw [hidle] at hroom horder
    refine ⟨⟨hknows.count, hknows.length⟩, ?_, ?_, fun k hk => (h.came k hk).snoc _, h.sorted⟩
    · exact (Nat.le_succ _).trans hroom
    · rw [horder, List.append_assoc, List.singleton_append]

theorem put_stocked (b : Buffer) : Stocked (w.step (.put b)) := by
  have hknows : Knows w.pool (observed (w.calls ++ [.put b])) := knows_of_unobserved h rfl
  rcases w.pool.put_cases b with ⟨-, hput⟩ | ⟨hfits, hslot, hput⟩ | ⟨-, -, hput⟩
  · rw [watched_drop (by rw [hput]), hput]
    exact still_stocked h ⟨hknows.count, hknows.length⟩ rfl rfl rfl
  · rw [watched_keep hput]
    have hcame : Kept.Came ⟨w.calls, b⟩ w.pool.maxReusable (w.calls ++ [.put b]) :=
      ⟨List.prefix_refl _, fits_of_isOversized_eq_false h.knows hfits⟩
    refine ⟨⟨hknows.count, hknows.length⟩, ?_, ?_, ?_, ?_⟩
    · simpa using hslot
    · rw [List.map_append, h.order, List.map_singleton, List.append_assoc]
    · intro k hk
      rcases List.mem_append.1 hk with hk | hk
      · exact (h.came k hk).snoc _
      · rw [List.mem_singleton.1 hk]
        exact hcame
    · refine List.pairwise_append.2 ⟨h.sorted, List.pairwise_singleton _ _, fun k hk l hl => ?_⟩
      rw [List.mem_singleton.1 hl]
      exact (h.came k hk).length_lt
  · rw [watched_drop (by rw [hput]), hput]
    exact still_stocked h hknows rfl rfl rfl

theorem observe_stocked (n : Nat) : Stocked (w.step (.observe n)) := by
  rw [watched_observe]
  refine still_stocked h ⟨?_, ?_⟩ rfl rfl rfl
  · rw [observed_snoc, List.length_append, observe, h.knows.count]
    rfl
  · rw [observed_snoc, List.sum_append, observe, h.knows.length]
    simp [Op.observed?]

/-- **Every call keeps the invariant.** -/
theorem step_stocked (op : Op) : Stocked (w.step op) := by
  cases op with
  | get => exact get_stocked h
  | put b => exact put_stocked h b
  | observe n => exact observe_stocked h n

/-- **Every run keeps the invariant.** -/
theorem run_stocked (ops : List Op) : Stocked (w.run ops) := by
  induction ops generalizing w with
  | nil => exact h
  | cons op ops ih => exact ih (step_stocked h op)

end Steps

/-! ## Main result -/

/-- **What is idle in a pool.** After any calls in any order:
- no more buffers are idle than there are slots, or one when there are none;
- each idle buffer is empty, and had a capacity that was allowed when it came: by the ceiling, and by three times the
  average of the lengths observed until then, if there were any;
- the buffers that were kept have left or are idle, in the order in which they came;
- the next buffer taken is made, and counted, or is the one that was idle longest;
- the next buffer that comes back is counted as skipped, or becomes one more idle buffer, or finds all slots taken,
  and the pool stays as it is. As long as three times the lengths observed make no more than a word, it is skipped
  exactly when it is not allowed. -/
theorem idle_accounted (maxReusable slots : Nat) (ops : List Op) :
    let w := (Watched.start maxReusable slots).run ops
    let p := (new maxReusable slots).run ops
    p.idle.length ≤ max slots 1 ∧
    (∀ b ∈ p.idle, b.content = [] ∧ ∃ k ∈ w.kept, b = k.buffer.emptied ∧ Fits maxReusable (observed k.before) b) ∧
    (w.kept.map (fun k => k.buffer.emptied) = w.left ++ p.idle ∧
      w.kept.Pairwise (fun k l => k.before.length < l.before.length) ∧
      ∀ k ∈ w.kept, k.before ++ [.put k.buffer] <+: ops) ∧
    ((p.idle = [] ∧ p.get = ({}, { p with created := p.created + 1 })) ∨
      ∃ b bs, p.idle = b :: bs ∧ p.get = (b, { p with idle := bs })) ∧
    ∀ b, (p.put b = { p with skipped := p.skipped + 1 } ∨
        (Fits maxReusable (observed ops) b ∧ p.idle.length < max slots 1 ∧
          p.put b = { p with idle := p.idle ++ [b.emptied] }) ∨
        (Fits maxReusable (observed ops) b ∧ p.idle.length = max slots 1 ∧ p.put b = p)) ∧
      (3 * (observed ops).sum < UInt64.size →
        ((p.put b).skipped = p.skipped + 1 ↔ ¬ Fits maxReusable (observed ops) b)) := by
  intro w p
  have hpool : w.pool = p := Watched.run_pool _ ops
  have hcalls : w.calls = ops := (Watched.run_calls _ ops).trans (List.nil_append ops)
  obtain ⟨hmax, hslots⟩ : p.maxReusable = maxReusable ∧ p.slots = max slots 1 := run_limits (new maxReusable slots) ops
  have hstocked : Stocked w := run_stocked (start_stocked maxReusable slots) ops
  obtain ⟨hknows, hroom, horder, hcame, hsorted⟩ := hstocked
  rw [hpool, hcalls] at hknows
  rw [hpool, hslots] at hroom
  rw [hpool] at horder
  rw [hpool, hcalls, hmax] at hcame
  refine ⟨hroom, ?_, ⟨horder, hsorted, fun k hk => (hcame k hk).called⟩, p.get_cases, fun b => ⟨?_, fun hsum => ?_⟩⟩
  · intro b hb
    have hmem : b ∈ w.kept.map fun k => k.buffer.emptied := by rw [horder]; exact List.mem_append_right _ hb
    obtain ⟨k, hk, rfl⟩ := List.mem_map.1 hmem
    exact ⟨rfl, k, hk, rfl, (hcame k hk).fits⟩
  · rcases p.put_cases b with ⟨-, hput⟩ | ⟨hfits, hslot, hput⟩ | ⟨hfits, hfull, hput⟩
    · exact Or.inl hput
    · exact Or.inr (Or.inl ⟨hmax ▸ fits_of_isOversized_eq_false hknows hfits, hslots ▸ hslot, hput⟩)
    · exact Or.inr (Or.inr ⟨hmax ▸ fits_of_isOversized_eq_false hknows hfits, hroom.antisymm (hslots ▸ hfull), hput⟩)
  · rw [← hmax, ← isOversized_eq_false_iff_fits hknows hsum, Bool.not_eq_false]
    rcases p.put_cases b with ⟨hover, hput⟩ | ⟨hfits, -, hput⟩ | ⟨hfits, -, hput⟩
    · exact iff_of_true (by rw [hput]) hover
    · exact iff_of_false (by rw [hput]; simp) (by rw [hfits]; exact Bool.false_ne_true)
    · exact iff_of_false (by rw [hput]; simp) (by rw [hfits]; exact Bool.false_ne_true)

/-- two records of 75 octets on average; then a buffer that is allowed, one that is not, another that is allowed, one
that is taken, and two more that come back -/
def busyRun : List Op :=
  [.observe 100, .observe 50, .put ⟨[1, 2], 225⟩, .put ⟨[], 226⟩, .put ⟨[3], 10⟩, .get, .put ⟨[4], 7⟩, .put ⟨[5], 5⟩]

/-- in a pool with two slots the buffer that came first has left, the second is idle with the third, and the fourth
found no slot -/
theorem idle_accounted_busy :
    let w := (Watched.start 1024 2).run busyRun
    let p := (new 1024 2).run busyRun
    (p.idle = [⟨[], 10⟩, ⟨[], 7⟩] ∧ w.left = [⟨[], 225⟩] ∧ p.skipped = 1 ∧ p.created = 0) ∧
      (∀ b ∈ p.idle, b.content = [] ∧ ∃ k ∈ w.kept, b = k.buffer.emptied ∧ Fits 1024 (observed k.before) b) ∧
      (w.kept.map (·.before.length) = [2, 4, 6] ∧ ∀ k ∈ w.kept, k.before ++ [.put k.buffer] <+: busyRun) ∧
      3 * (observed busyRun).sum < UInt64.size ∧ ¬ Fits 1024 (observed busyRun) ⟨[], 226⟩ ∧
      (p.put ⟨[], 226⟩).skipped = p.skipped + 1 := by
  intro w p
  obtain ⟨-, hidle, ⟨-, -, hcame⟩, -, hput⟩ := idle_accounted 1024 2 busyRun
  have hsum : 3 * (observed busyRun).sum < UInt64.size := by decide
  have hlarge : ¬ Fits 1024 (observed busyRun) ⟨[], 226⟩ := by
    rintro ⟨-, h⟩
    exact absurd (h (by decide)) (by decide)
  exact ⟨by decide, hidle, ⟨by decide, hcame⟩, hsum, hlarge, ((hput _).2 hsum).2 hlarge⟩

end Pool
end LogRelay
