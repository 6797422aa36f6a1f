/-
Buffers that are used again.

A pool keeps up to `slots` empty buffers, and the one kept longest is taken first. A buffer that comes back is let go
when its capacity is above the fixed ceiling, or above three times the average length of the records observed so far;
such a buffer is counted as skipped. A buffer for which there is no slot is let go too. The lengths add up in a word
of 64 bits, whose end a few calls can reach. The other counts go up by one a call, so that a word would hold them for
2 ^ 64 calls; they have no end here.
-/
import LogRelay.Text.Octets

namespace LogRelay

/-- octets being put together, and how many there is room for -/
structure Buffer where
  content : Octets := []
  capacity : Nat := 0
  deriving DecidableEq, Repr, Inhabited

namespace Buffer

def size (b : Buffer) : Nat := b.content.length

/-- the capacity once `n` octets are appended to `size`: when there is no room it doubles, or grows to what is needed -/
def grown (capacity size n : Nat) : Nat :=
  if size + n ≤ capacity then capacity else max (max (2 * capacity) (size + n)) 8

/-- a buffer with octets appended -/
def append (b : Buffer) (s : Octets) : Buffer :=
  if s.isEmpty then b else ⟨b.content ++ s, grown b.capacity b.size s.length⟩

/-- the capacity once texts are appended one after the other to `size` octets -/
def grownBy (capacity size : Nat) : List Octets → Nat
  | [] => capacity
  | s :: ss => grownBy (if s.isEmpty then capacity else grown capacity size s.length) (size + s.length) ss

theorem size_append (b : Buffer) (s : Octets) : (b.append s).size = b.size + s.length := by
  unfold append
  split
  · next h => simp [List.isEmpty_iff.mp h]
  · simp [size]

/-- what is known of the growth is what appending does -/
theorem capacity_foldl_append (ss : List Octets) (b : Buffer) :
    (ss.foldl append b).capacity = grownBy b.capacity b.size ss := by
  induction ss generalizing b with
  | nil => rfl
  | cons s ss ih =>
    rw [List.foldl_cons, ih, size_append, grownBy]
    unfold append
    split <;> simp_all

end Buffer

/-- the buffers kept for use again, and what is known of the records -/
structure Pool where
  /-- the greatest capacity of a buffer that is kept -/
  maxReusable : Nat
  slots : Nat
  /-- the buffers kept, the one kept longest first -/
  idle : List Buffer := []
  /-- the buffers made, and those let go as too large; as `count`, one a call and so without end -/
  created : Nat := 0
  skipped : Nat := 0
  /-- the records observed -/
  count : Nat := 0
  /-- their octets together, as a word -/
  length : Nat := 0
  deriving DecidableEq, Repr, Inhabited

namespace Pool

def defaultMaxReusable : Nat := 16384

def defaultSlots : Nat := 1024

/-- an empty pool, which has at least one slot -/
def new (maxReusable slots : Nat) : Pool := { maxReusable := maxReusable, slots := max slots 1 }

/-- a buffer that was kept, or a new one without capacity -/
def get (p : Pool) : Buffer × Pool :=
  match p.idle with
  | b :: bs => (b, { p with idle := bs })
  | [] => ({}, { p with created := p.created + 1 })

/-- the greatest capacity that goes with the records observed: three times their average length, as a word -/
def allowance (p : Pool) : Nat := 3 * (p.length / p.count) % UInt64.size

/-- whether a buffer has become too large to be kept -/
def isOversized (p : Pool) (b : Buffer) : Bool :=
  p.maxReusable < b.capacity || (0 < p.count && p.allowance < b.capacity)

/-- a buffer that comes back: emptied and kept, or let go -/
def put (p : Pool) (b : Buffer) : Pool :=
  if p.isOversized b then { p with skipped := p.skipped + 1 }
  else if p.idle.length < p.slots then { p with idle := p.idle ++ [{ b with content := [] }] }
  else p

/-- takes note of the length of a record -/
def observe (p : Pool) (n : Nat) : Pool :=
  { p with count := p.count + 1, length := (p.length + n) % UInt64.size }

end Pool
end LogRelay
