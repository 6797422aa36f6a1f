/-
What one step of a sink does.

`Move s op s'` lists all that can happen in a step, each with the condition under which it happens and the state it
leads to:
- a write begins;
- a write makes its first try;
- a write dials again, and the connection there was is closed first (`redial`);
- a write finds that it need not dial, or that it may not (`spare`);
- a write makes its second try;
- the sink is closed;
- the step is not possible in this state, and nothing changes.
`step_move`: every step is one of these. Three of them touch the connections: a try writes to the one there is, a
redial closes it and puts another in its place, a close closes it for good. The `_sink`, `_links` and `_writes` lemmas
say so field by field.

A connection goes by the number of the dial that made it. `made` and `released` are the connections dialed and closed so
far, the last first.
-/
import Mathlib.Tactic
import LogRelay.Redial

namespace LogRelay.Redial

/-! ## What was done to the connections -/

def Link.isDial : Link → Bool
  | dialed _ _ => true
  | _ => false

/-- the connection a dial made, if it did -/
def Link.made? : Link → Option Nat
  | dialed n (.ok _) => some n
  | _ => none

def Link.written? : Link → Option Nat
  | wrote c _ _ => some c
  | _ => none

def Link.closed? : Link → Option Nat
  | closed c => some c
  | _ => none

namespace System

def dialCount (s : System) : Nat := s.links.countP Link.isDial

/-- the connections that were dialed, the last first -/
def made (s : System) : List Nat := s.links.filterMap Link.made?

/-- the connections that were closed, the last first -/
def released (s : System) : List Nat := s.links.filterMap Link.closed?

theorem run_cons (s : System) (op : Op) (ops : List Op) : s.run (op :: ops) = (s.step op).run ops := rfl

theorem run_append (s : System) (a b : List Op) : s.run (a ++ b) = (s.run a).run b := by simp [run, List.foldl_append]

theorem run_snoc (s : System) (ops : List Op) (op : Op) : s.run (ops ++ [op]) = (s.run ops).step op := by
  rw [run_append]
  rfl

/-! ## Field by field -/

section Frame

variable (s : System) (i : Nat) (text : Octets) (answer : Except Failure Nat)

@[simp] theorem setPhase_sink (p : Phase) : (s.setPhase i text p).sink = s.sink := rfl

@[simp] theorem setPhase_links (p : Phase) : (s.setPhase i text p).links = s.links := rfl

@[simp] theorem setPhase_writes (p : Phase) : (s.setPhase i text p).writes = s.writes.set i (text, p) := rfl

/-- a first try is a write to the connection there is, if any; but for what is said of it, only the write changes -/
theorem first_eq : ∃ ds, s.first i text answer =
    { s with
      writes := s.writes.set i (text, s.sink.first answer)
      links := (s.sink.target?.map fun c => Link.wrote c text answer).toList ++ s.links
      diagnostics := ds } := by
  unfold first
  cases ht : s.sink.target? with
  | none => exact ⟨_, rfl⟩
  | some c =>
    dsimp only
    split
    · exact ⟨_, rfl⟩
    · exact ⟨_, rfl⟩

@[simp] theorem first_sink : (s.first i text answer).sink = s.sink := by
  obtain ⟨ds, h⟩ := first_eq s i text answer
  rw [h]

@[simp] theorem first_links : (s.first i text answer).links =
    (s.sink.target?.map fun c => Link.wrote c text answer).toList ++ s.links := by
  obtain ⟨ds, h⟩ := first_eq s i text answer
  rw [h]

@[simp] theorem first_writes : (s.first i text answer).writes = s.writes.set i (text, s.sink.first answer) := by
  obtain ⟨ds, h⟩ := first_eq s i text answer
  rw [h]

theorem retry_eq : s.retry i text answer =
    { s with
      writes := s.writes.set i (text, s.sink.retry answer)
      links := (s.sink.held.map fun c => Link.wrote c text answer).toList ++ s.links } := by
  unfold retry
  cases s.sink.held <;> rfl

@[simp] theorem retry_sink : (s.retry i text answer).sink = s.sink := by rw [retry_eq]

@[simp] theorem retry_links : (s.retry i text answer).links =
    (s.sink.held.map fun c => Link.wrote c text answer).toList ++ s.links := by rw [retry_eq]

@[simp] theorem retry_writes : (s.retry i text answer).writes = s.writes.set i (text, s.sink.retry answer) := by
  rw [retry_eq]

end Frame

section Frame

variable (s : System) (closing : Option Failure) (answer : Except Failure String)

/-- the connection there is is closed before the dial, whatever its close answers -/
theorem connect_eq : ∃ ds, s.connect closing answer =
    { s with
      sink := s.sink.dialed answer
      links := .dialed (s.sink.generation + 1) answer :: ((s.sink.held.map Link.closed).toList ++ s.links)
      diagnostics := ds } := by
  unfold connect letGo
  cases hh : s.sink.held with
  | none => cases answer <;> exact ⟨_, rfl⟩
  | some c => cases closing <;> cases answer <;> exact ⟨_, rfl⟩

@[simp] theorem connect_sink : (s.connect closing answer).sink = s.sink.dialed answer := by
  obtain ⟨ds, h⟩ := connect_eq s closing answer
  rw [h]

@[simp] theorem connect_links : (s.connect closing answer).links =
    .dialed (s.sink.generation + 1) answer :: ((s.sink.held.map Link.closed).toList ++ s.links) := by
  obtain ⟨ds, h⟩ := connect_eq s closing answer
  rw [h]

@[simp] theorem connect_writes : (s.connect closing answer).writes = s.writes := by
  obtain ⟨ds, h⟩ := connect_eq s closing answer
  rw [h]

theorem redial_writes (i : Nat) (text : Octets) (p : Phase) :
    ((s.connect closing answer).setPhase i text p).writes = s.writes.set i (text, p) := by
  rw [setPhase_writes, connect_writes]

/-- whether it succeeds or not, a dial moves the generation on -/
@[simp] theorem dialed_generation (k : Sink) : (k.dialed answer).generation = k.generation + 1 := by
  cases answer <;> rfl

end Frame

theorem close_eq {s : System} (h : s.sink.status ≠ .closed) : s.close =
    { s with
      sink := { s.sink with status := .closed, held := none }
      links := (s.sink.held.map Link.closed).toList ++ s.links } := by
  unfold close
  rw [if_neg h]
  cases s.sink.held <;> rfl

/-- a write dials in its second section unless the sink is closed, or there is a connection of another generation -/
theorem dials_iff {k : Sink} {observed : Nat} :
    k.dials observed = true ↔ k.status ≠ .closed ∧ (k.held.isSome = true → k.generation = observed) := by
  cases hh : k.held <;> simp [Sink.dials, hh]

/-- of the writes only the one that is set changes -/
theorem phase_of_set {s s' : System} {i j : Nat} {text text' : Octets} {p p' : Phase}
    (hs : s'.writes = s.writes.set i (text, p)) (hw : s'.writes[j]? = some (text', p')) :
    (i = j ∧ p' = p) ∨ (i ≠ j ∧ s.writes[j]? = some (text', p')) := by
  rw [hs] at hw
  by_cases hij : i = j
  · subst hij
    obtain ⟨hlt, hw⟩ := List.getElem?_eq_some_iff.1 hw
    rw [List.getElem_set_self] at hw
    exact Or.inl ⟨rfl, (Prod.mk.inj hw).2.symm⟩
  · rw [List.getElem?_set_ne hij] at hw
    exact Or.inr ⟨hij, hw⟩

theorem phase_of_start {s : System} {j : Nat} {text text' : Octets} {p : Phase}
    (hw : (s.writes ++ [(text, Phase.begun)])[j]? = some (text', p)) :
    p = .begun ∨ s.writes[j]? = some (text', p) := by
  by_cases hlt : j < s.writes.length
  · rw [List.getElem?_append_left hlt] at hw
    exact Or.inr hw
  · rw [List.getElem?_append_right (by omega)] at hw
    have hmem := List.mem_of_getElem? hw
    rw [List.mem_singleton] at hmem
    exact Or.inl (Prod.mk.inj hmem).2

/-! ## Moves -/

def Enabled (s : System) : Op → Prop
  | .start _ => True
  | .first i _ => ∃ text, s.writes[i]? = some (text, .begun)
  | .renew i _ _ => ∃ text observed, s.writes[i]? = some (text, .failed observed)
  | .retry i _ => ∃ text, s.writes[i]? = some (text, .renewed)
  | .close => s.sink.status ≠ .closed

/-- what a step does, by its kind and by what it finds -/
inductive Move (s : System) : Op → System → Prop
  | start (text : Octets) : Move s (.start text) { s with writes := s.writes ++ [(text, .begun)] }
  | first (i : Nat) (text : Octets) (answer : Except Failure Nat) (hw : s.writes[i]? = some (text, .begun)) :
      Move s (.first i answer) (s.first i text answer)
  | redial (i : Nat) (text : Octets) (observed : Nat) (closing : Option Failure) (answer : Except Failure String)
      (hw : s.writes[i]? = some (text, .failed observed)) (hd : s.sink.dials observed = true) :
      Move s (.renew i closing answer) ((s.connect closing answer).setPhase i text (s.sink.renewal observed answer))
  | spare (i : Nat) (text : Octets) (observed : Nat) (closing : Option Failure) (answer : Except Failure String)
      (hw : s.writes[i]? = some (text, .failed observed)) (hd : s.sink.dials observed = false) :
      Move s (.renew i closing answer) (s.setPhase i text (s.sink.renewal observed answer))
  | retry (i : Nat) (text : Octets) (answer : Except Failure Nat) (hw : s.writes[i]? = some (text, .renewed)) :
      Move s (.retry i answer) (s.retry i text answer)
  | close (h : s.sink.status ≠ .closed) : Move s .close s.close
  | rest (op : Op) (h : ¬ s.Enabled op) : Move s op s

/-- **Every step is a move.** -/
theorem step_move (s : System) (op : Op) : Move s op (s.step op) := by
  cases op with
  | start text => exact .start text
  | first i answer =>
    simp only [step]
    split
    · rename_i text hw; exact .first i text answer hw
    · rename_i hno; exact .rest _ fun ⟨text, hw⟩ => hno text hw
  | renew i closing answer =>
    simp only [step]
    split
    · rename_i text observed hw
      unfold renew
      by_cases hd : s.sink.dials observed = true
      · rw [if_pos hd]; exact .redial i text observed closing answer hw hd
      · rw [if_neg hd]; exact .spare i text observed closing answer hw (by simpa using hd)
    · rename_i hno; exact .rest _ fun ⟨text, observed, hw⟩ => hno text observed hw
  | retry i answer =>
    simp only [step]
    split
    · rename_i text hw; exact .retry i text answer hw
    · rename_i hno; exact .rest _ fun ⟨text, hw⟩ => hno text hw
  | close =>
    by_cases h : s.sink.status = .closed
    · have hs : s.step .close = s := if_pos h
      rw [hs]
      exact .rest _ fun hno => hno h
    · exact .close h

/-- only a redial and a close touch the sink -/
theorem step_sink (s : System) (op : Op) :
    (s.step op).sink = s.sink ∨
      (op = .close ∧ (s.step op).sink = { s.sink with status := .closed, held := none }) ∨
      ∃ i text observed closing answer, op = .renew i closing answer ∧ s.writes[i]? = some (text, .failed observed) ∧
        s.sink.dials observed = true ∧ (s.step op).sink = s.sink.dialed answer := by
  have hm := step_move s op
  generalize s.step op = s' at hm ⊢
  cases hm with
  | first i text answer hw => exact Or.inl (first_sink s i text answer)
  | redial i text observed closing answer hw hd =>
    exact Or.inr (Or.inr ⟨i, text, observed, closing, answer, rfl, hw, hd, connect_sink s closing answer⟩)
  | retry i text answer hw => exact Or.inl (retry_sink s i text answer)
  | close hopen => exact Or.inr (Or.inl ⟨rfl, by rw [close_eq hopen]⟩)
  | _ => exact Or.inl rfl

end System
end LogRelay.Redial
