/-
What one write does.

A write takes its sections one after the other, and what others do in between may change the connection under it.
`turns` lists the sections that one write has taken in a run, each with the system it found; `Course` says which lists
of sections lead to which phase. Nothing is assumed of the system in which the write begins.
- `step_course`, `run_course`: every step, and so every run, keeps a write on its course.
- `Course.answers_spec`: what the connections answered, and what the write answers from it.
- `two_tries_and_one_dial`: a write tries twice at most and dials once at most; it tries again only after a failure
  that is not for good, or for want of a connection.
-/
import LogRelay.Proofs.Redial.Guard

namespace LogRelay.Redial

/-! ## Phases -/

/-- what a connection answered, if it was written to -/
def Link.answer? : Link → Option (Except Failure Nat)
  | wrote _ _ answer => some answer
  | _ => none

/-- a failure after which a write may try again -/
def Transient (answer : Except Failure Nat) : Prop := ∃ f, answer = .error f ∧ f.permanent = false

theorem first_or (k : Sink) (a : Except Failure Nat) :
    k.first a = .failed k.generation ∨ ∃ r, k.first a = .answered r := by
  unfold Sink.first
  split_ifs
  · exact Or.inr ⟨_, rfl⟩
  · split
    · exact Or.inl rfl
    · exact Or.inr ⟨_, rfl⟩
    · split_ifs
      · exact Or.inr ⟨_, rfl⟩
      · exact Or.inl rfl

theorem renewal_or (k : Sink) (g : Nat) (a : Except Failure String) :
    k.renewal g a = .renewed ∨ ∃ f, k.renewal g a = .answered (.error f) := by
  unfold Sink.renewal
  split_ifs
  · exact Or.inr ⟨_, rfl⟩
  · split
    · exact Or.inl rfl
    · exact Or.inr ⟨_, rfl⟩
  · exact Or.inl rfl

theorem retry_answered (k : Sink) (a : Except Failure Nat) : ∃ r, k.retry a = .answered r := by
  unfold Sink.retry
  split <;> exact ⟨_, rfl⟩

/-- how many of its three sections a write is past; all of them when it has answered -/
def Phase.rank : Phase → Nat
  | begun => 0
  | failed _ => 1
  | renewed => 2
  | answered _ => 3

/-- a first try is counted as the connection counts it -/
theorem first_ok_iff (k : Sink) (a : Except Failure Nat) (n : Nat) :
    k.first a = .answered (.ok n) ↔ k.target?.map (fun _ => a) = some (.ok n) := by
  unfold Sink.first Sink.target?
  split_ifs with hc
  · simp
  · cases k.held with
    | none => simp
    | some c =>
      cases a with
      | ok m => simp
      | error f => cases hf : f.permanent <;> simp [hf]

/-- a second try is counted as the connection counts it -/
theorem retry_ok_iff (k : Sink) (a : Except Failure Nat) (n : Nat) :
    k.retry a = .answered (.ok n) ↔ k.held.map (fun _ => a) = some (.ok n) := by
  unfold Sink.retry
  cases k.held <;> simp

/-- a first try that failed was answered by a failure that is not for good, if by anything -/
theorem first_answers {k : Sink} {a : Except Failure Nat} {g : Nat} (h : k.first a = .failed g) :
    k.target?.map (fun _ => a) = none ∨ ∃ b, k.target?.map (fun _ => a) = some b ∧ Transient b := by
  obtain ⟨-, hopen, hnone | ⟨c, f, ht, -, rfl, hf⟩⟩ := first_eq_failed h
  · rw [Sink.target?, if_neg hopen, hnone]
    exact Or.inl rfl
  · rw [ht]
    exact Or.inr ⟨_, rfl, f, rfl, hf⟩

theorem first_of_permanent {k : Sink} {c : Nat} {f : Failure} (ht : k.target? = some c) (hf : f.permanent = true) :
    k.first (.error f) = .answered (.error f) := by
  unfold Sink.target? at ht
  split_ifs at ht with hc
  simp [Sink.first, hc, ht, hf]

/-- two answers, each of them there or not, of which the first is no count -/
theorem two_answers {o : Option (Except Failure Nat)} (ho : o = none ∨ ∃ a, o = some a ∧ Transient a)
    (o' : Option (Except Failure Nat)) :
    (o.toList ++ o'.toList).length ≤ 2 ∧ (o.toList ++ o'.toList).Pairwise (fun a _ => Transient a) ∧
      ∀ n, (o.toList ++ o'.toList).getLast? = some (.ok n) ↔ o' = some (.ok n) := by
  rcases ho with rfl | ⟨a, rfl, f, rfl, hf⟩
  · cases o' <;> simp
  · cases o' <;> simp [Transient, hf]

/-! ## Turns -/

/-- whether a step is the section that write `i` takes next when it has come to a phase -/
def Op.isDue (i : Nat) : Op → Phase → Bool
  | first j _, .begun => j == i
  | renew j _ _, .failed _ => j == i
  | retry j _, .renewed => j == i
  | _, _ => false

/-- a section of a write: the system it finds, and the step with the answers of the network -/
structure Turn where
  found : System
  op : Op

namespace Turn

def left (u : Turn) : System := u.found.step u.op

/-- what is done to connections in the section, in order -/
def links (u : Turn) : List Link := (u.left.links.take (u.left.links.length - u.found.links.length)).reverse

theorem links_eq {u : Turn} (ls : List Link) (h : u.left.links = ls ++ u.found.links) : u.links = ls.reverse := by
  rw [links, h, List.length_append, Nat.add_sub_cancel, List.take_left]

end Turn

namespace System

/-- the sections that write `i` takes in a run -/
def turns (s : System) (i : Nat) : List Op → List Turn
  | [] => []
  | op :: ops => (if s.writes[i]?.any (fun w => op.isDue i w.2) then [⟨s, op⟩] else []) ++ (s.step op).turns i ops

theorem turns_append (s : System) (i : Nat) (a b : List Op) :
    s.turns i (a ++ b) = s.turns i a ++ (s.run a).turns i b := by
  induction a generalizing s with
  | nil => rfl
  | cons op a ih => rw [List.cons_append, turns, turns, ih, run_cons, List.append_assoc]

/-! ## What a section does -/

section Sections

variable {s : System} {i : Nat} {text : Octets}

theorem links_first (hw : s.writes[i]? = some (text, .begun)) (a : Except Failure Nat) :
    (Turn.mk s (.first i a)).links = (s.sink.target?.map fun c => Link.wrote c text a).toList := by
  have hleft : (Turn.mk s (.first i a)).left = s.first i text a := by simp [Turn.left, step, hw]
  rw [Turn.links_eq (s.sink.target?.map fun c => Link.wrote c text a).toList (by rw [hleft, first_links])]
  cases s.sink.target? <;> rfl

theorem links_retry (hw : s.writes[i]? = some (text, .renewed)) (a : Except Failure Nat) :
    (Turn.mk s (.retry i a)).links = (s.sink.held.map fun c => Link.wrote c text a).toList := by
  have hleft : (Turn.mk s (.retry i a)).left = s.retry i text a := by simp [Turn.left, step, hw]
  rw [Turn.links_eq (s.sink.held.map fun c => Link.wrote c text a).toList (by rw [hleft, retry_links])]
  cases s.sink.held <;> rfl

/-- a second section that dials closes the connection there is, and dials -/
theorem turn_redial {g : Nat} (hw : s.writes[i]? = some (text, .failed g)) (hd : s.sink.dials g = true)
    (closing : Option Failure) (a : Except Failure String) :
    let u : Turn := ⟨s, .renew i closing a⟩
    u.links = (s.sink.held.map Link.closed).toList ++ [.dialed (s.sink.generation + 1) a] ∧
      u.left.sink = s.sink.dialed a := by
  have hleft : (Turn.mk s (.renew i closing a)).left =
      (s.connect closing a).setPhase i text (s.sink.renewal g a) := by simp [Turn.left, step, hw, renew, hd]
  constructor
  · rw [Turn.links_eq (.dialed (s.sink.generation + 1) a :: (s.sink.held.map Link.closed).toList)
      (by rw [hleft, setPhase_links, connect_links]; rfl)]
    cases s.sink.held <;> rfl
  · rw [hleft, setPhase_sink, connect_sink]

/-- a second section that does not dial does nothing to a connection -/
theorem links_spare {g : Nat} (hw : s.writes[i]? = some (text, .failed g)) (hd : s.sink.dials g = false)
    (closing : Option Failure) (a : Except Failure String) : (Turn.mk s (.renew i closing a)).links = [] := by
  have hleft : (Turn.mk s (.renew i closing a)).left = s.setPhase i text (s.sink.renewal g a) := by
    simp [Turn.left, step, hw, renew, hd]
  exact Turn.links_eq [] (by rw [hleft, setPhase_links]; rfl)

end Sections

/-! ## Courses -/

section Courses

variable (i : Nat) (text : Octets)

/-- the sections a write with a text may have taken, and the phase to which they lead -/
inductive Course : List Turn → Phase → Prop
  | begun : Course [] .begun
  | first {s : System} {a : Except Failure Nat} {p : Phase} (hw : s.writes[i]? = some (text, .begun))
      (hp : s.sink.first a = p) : Course [⟨s, .first i a⟩] p
  | renew {s s' : System} {a : Except Failure Nat} {closing : Option Failure} {b : Except Failure String} {g : Nat}
      {p : Phase} (hw : s.writes[i]? = some (text, .begun)) (hfailed : s.sink.first a = .failed g)
      (hw' : s'.writes[i]? = some (text, .failed g)) (hp : s'.sink.renewal g b = p) :
      Course [⟨s, .first i a⟩, ⟨s', .renew i closing b⟩] p
  | retry {s s' s'' : System} {a c : Except Failure Nat} {closing : Option Failure}
      {b : Except Failure String} {g : Nat} {p : Phase} (hw : s.writes[i]? = some (text, .begun))
      (hfailed : s.sink.first a = .failed g) (hw' : s'.writes[i]? = some (text, .failed g))
      (hrenewed : s'.sink.renewal g b = .renewed) (hw'' : s''.writes[i]? = some (text, .renewed))
      (hp : s''.sink.retry c = p) :
      Course [⟨s, .first i a⟩, ⟨s', .renew i closing b⟩, ⟨s'', .retry i c⟩] p

end Courses

namespace Course

variable {i : Nat} {text : Octets} {us : List Turn}

/-! A phase tells how many sections have been taken, and so how the course goes on. -/

theorem then_first (h : Course i text us .begun) {s : System} {a : Except Failure Nat}
    (hw : s.writes[i]? = some (text, .begun)) : Course i text (us ++ [⟨s, .first i a⟩]) (s.sink.first a) := by
  cases h with
  | begun => exact .first hw rfl
  | first hw hp => rcases first_or _ _ with h | ⟨r, h⟩ <;> cases h.symm.trans hp
  | renew hw hfailed hw' hp => rcases renewal_or _ _ _ with h | ⟨f, h⟩ <;> cases h.symm.trans hp
  | retry hw hfailed hw' hrenewed hw'' hp => obtain ⟨r, h⟩ := retry_answered _ _; cases h.symm.trans hp

theorem then_renew {g : Nat} (h : Course i text us (.failed g)) {s : System} {closing : Option Failure}
    {b : Except Failure String} (hw : s.writes[i]? = some (text, .failed g)) :
    Course i text (us ++ [⟨s, .renew i closing b⟩]) (s.sink.renewal g b) := by
  cases h with
  | first hw hp => exact .renew hw hp ‹_› rfl
  | renew hw hfailed hw' hp => rcases renewal_or _ _ _ with h | ⟨f, h⟩ <;> cases h.symm.trans hp
  | retry hw hfailed hw' hrenewed hw'' hp => obtain ⟨r, h⟩ := retry_answered _ _; cases h.symm.trans hp

theorem then_retry (h : Course i text us .renewed) {s : System} {c : Except Failure Nat}
    (hw : s.writes[i]? = some (text, .renewed)) : Course i text (us ++ [⟨s, .retry i c⟩]) (s.sink.retry c) := by
  cases h with
  | first hw hp => rcases first_or _ _ with h | ⟨r, h⟩ <;> cases h.symm.trans hp
  | renew hw hfailed hw' hp => exact .retry hw hfailed hw' hp ‹_› rfl
  | retry hw hfailed hw' hrenewed hw'' hp => obtain ⟨r, h⟩ := retry_answered _ _; cases h.symm.trans hp

end Course

/-- a step that is not the next section of a write leaves it where it is -/
theorem step_phase {s : System} {i : Nat} {text : Octets} {p : Phase} (hw : s.writes[i]? = some (text, p)) {op : Op}
    (hdue : op.isDue i p = false) : (s.step op).writes[i]? = some (text, p) := by
  obtain ⟨hlt, -⟩ := List.getElem?_eq_some_iff.1 hw
  -- the section of another write leaves this one alone
  have hother : ∀ {j : Nat} {text' : Octets} {q : Phase} (w : Octets × Phase), s.writes[j]? = some (text', q) →
      op.isDue j q = true → (s.writes.set j w)[i]? = some (text, p) := by
    intro j text' q w hj hown
    rw [List.getElem?_set_ne, hw]
    rintro rfl
    cases hw.symm.trans hj
    rw [hown] at hdue
    cases hdue
  have hm := step_move s op
  generalize s.step op = s' at hm ⊢
  cases hm with
  | start text' => rw [List.getElem?_append_left hlt, hw]
  | first j text' a hj => rw [first_writes]; exact hother _ hj (by simp [Op.isDue])
  | redial j text' g closing a hj hd => rw [redial_writes]; exact hother _ hj (by simp [Op.isDue])
  | spare j text' g closing a hj hd => exact hother _ hj (by simp [Op.isDue])
  | retry j text' a hj => rw [retry_writes]; exact hother _ hj (by simp [Op.isDue])
  | close hopen => rw [close_eq hopen]; exact hw
  | rest op hno => exact hw

/-- the next section of a write takes it further -/
theorem step_due {s : System} {i : Nat} {text : Octets} {p : Phase} (hw : s.writes[i]? = some (text, p)) {op : Op}
    (hdue : op.isDue i p = true) :
    ∃ p', (s.step op).writes[i]? = some (text, p') ∧ p.rank < p'.rank ∧
      ∀ us, Course i text us p → Course i text (us ++ [⟨s, op⟩]) p' := by
  obtain ⟨hlt, -⟩ := List.getElem?_eq_some_iff.1 hw
  have hset : ∀ p', (s.writes.set i (text, p'))[i]? = some (text, p') := fun p' => List.getElem?_set_self hlt
  cases op with
  | start text' => simp [Op.isDue] at hdue
  | close => simp [Op.isDue] at hdue
  | first j a =>
    cases p <;> simp only [Op.isDue, beq_iff_eq, Bool.false_eq_true] at hdue
    subst hdue
    refine ⟨s.sink.first a, ?_, ?_, ?_⟩
    · simp only [step, hw, first_writes, hset]
    · rcases first_or s.sink a with h | ⟨r, h⟩ <;> rw [h] <;> exact Nat.succ_pos _
    · exact fun us hc => hc.then_first hw
  | renew j closing a =>
    cases p <;> simp only [Op.isDue, beq_iff_eq, Bool.false_eq_true] at hdue
    subst hdue
    rename_i g
    refine ⟨s.sink.renewal g a, ?_, ?_, fun us hc => hc.then_renew hw⟩
    · simp only [step, hw, renew, setPhase_writes]
      split_ifs
      · rw [connect_writes, hset]
      · rw [hset]
    · rcases renewal_or s.sink g a with h | ⟨f, h⟩ <;> rw [h, Phase.rank, Phase.rank] <;> decide
  | retry j a =>
    cases p <;> simp only [Op.isDue, beq_iff_eq, Bool.false_eq_true] at hdue
    subst hdue
    refine ⟨s.sink.retry a, ?_, ?_, fun us hc => hc.then_retry hw⟩
    · simp only [step, hw, retry_writes, hset]
    · obtain ⟨r, h⟩ := retry_answered s.sink a
      rw [h]
      exact Nat.lt_succ_self 2

/-- **One step keeps a write on its course**, and never sets it back -/
theorem step_course {s : System} {i : Nat} {text : Octets} {p : Phase} (hw : s.writes[i]? = some (text, p)) (op : Op) :
    ∃ p', (s.step op).writes[i]? = some (text, p') ∧ p.rank ≤ p'.rank ∧
      ∀ us, Course i text us p → Course i text (us ++ s.turns i [op]) p' := by
  have hturns : s.turns i [op] = if op.isDue i p then [⟨s, op⟩] else [] := by simp [turns, hw]
  cases hdue : op.isDue i p with
  | false =>
    refine ⟨p, step_phase hw hdue, le_rfl, fun us hc => ?_⟩
    rwa [hturns, hdue, if_neg Bool.false_ne_true, List.append_nil]
  | true =>
    obtain ⟨p', hp', hrank, hcourse⟩ := step_due hw hdue
    refine ⟨p', hp', hrank.le, fun us hc => ?_⟩
    rw [hturns, hdue, if_pos rfl]
    exact hcourse us hc

/-- **Every run keeps a write on its course**, and never sets it back -/
theorem run_course {s : System} {i : Nat} {text : Octets} {p : Phase} (hw : s.writes[i]? = some (text, p))
    (ops : List Op) :
    ∃ p', (s.run ops).writes[i]? = some (text, p') ∧ p.rank ≤ p'.rank ∧
      ∀ us, Course i text us p → Course i text (us ++ s.turns i ops) p' := by
  induction ops using List.reverseRecOn with
  | nil => exact ⟨p, hw, le_rfl, fun us hc => by rwa [turns, List.append_nil]⟩
  | append_singleton ops op ih =>
    obtain ⟨q, hq, hle, hcourse⟩ := ih
    obtain ⟨p', hp', hle', hcourse'⟩ := step_course hq op
    refine ⟨p', by rw [run_snoc]; exact hp', hle.trans hle', fun us hc => ?_⟩
    rw [turns_append, ← List.append_assoc]
    exact hcourse' _ (hcourse us hc)

/-! ## The answer -/

/-- what connections answered in some sections, in order -/
def answers (us : List Turn) : List (Except Failure Nat) := (us.flatMap Turn.links).filterMap Link.answer?

/-- how often there was a dial in some sections -/
def dialsIn (us : List Turn) : Nat := (us.flatMap Turn.links).countP Link.isDial

section Sections

variable {s : System} {i : Nat} {text : Octets} (us : List Turn)

theorem answers_first (hw : s.writes[i]? = some (text, .begun)) (a : Except Failure Nat) :
    answers (⟨s, .first i a⟩ :: us) = (s.sink.target?.map fun _ => a).toList ++ answers us ∧
      dialsIn (⟨s, .first i a⟩ :: us) = dialsIn us := by
  rw [answers, dialsIn, List.flatMap_cons, links_first hw]
  cases s.sink.target? <;> exact ⟨rfl, rfl⟩

theorem answers_retry (hw : s.writes[i]? = some (text, .renewed)) (a : Except Failure Nat) :
    answers (⟨s, .retry i a⟩ :: us) = (s.sink.held.map fun _ => a).toList ++ answers us ∧
      dialsIn (⟨s, .retry i a⟩ :: us) = dialsIn us := by
  rw [answers, dialsIn, List.flatMap_cons, links_retry hw]
  cases s.sink.held <;> exact ⟨rfl, rfl⟩

theorem answers_renew {g : Nat} (hw : s.writes[i]? = some (text, .failed g)) (closing : Option Failure)
    (a : Except Failure String) :
    answers (⟨s, .renew i closing a⟩ :: us) = answers us ∧
      dialsIn (⟨s, .renew i closing a⟩ :: us) ≤ dialsIn us + 1 := by
  rw [answers, dialsIn, List.flatMap_cons]
  cases hd : s.sink.dials g with
  | false => rw [links_spare hw hd]; exact ⟨rfl, Nat.le_succ _⟩
  | true =>
    rw [(turn_redial hw hd closing a).1]
    refine ⟨by cases s.sink.held <;> rfl, ?_⟩
    rw [List.countP_append, Nat.add_comm]
    exact Nat.add_le_add_left (by cases s.sink.held <;> exact le_rfl) _

end Sections

namespace Course

variable {i : Nat} {text : Octets} {us : List Turn} {p : Phase}

theorem dialsIn_le (h : Course i text us p) : dialsIn us ≤ 1 := by
  have hnil : dialsIn [] = 0 := rfl
  cases h with
  | begun => exact Nat.zero_le 1
  | first hw hp => rw [(answers_first _ hw _).2]; exact Nat.zero_le 1
  | renew hw hfailed hw' hp =>
    rw [(answers_first _ hw _).2]
    exact (answers_renew _ hw' _ _).2
  | retry hw hfailed hw' hrenewed hw'' hp =>
    rw [(answers_first _ hw _).2]
    refine (answers_renew _ hw' _ _).2.trans ?_
    rw [(answers_retry _ hw'' _).2, hnil]

/-- what a write answers: the count of the last connection it wrote to, or a failure -/
theorem answers_spec (h : Course i text us p) :
    (answers us).length ≤ 2 ∧ (answers us).Pairwise (fun a _ => Transient a) ∧
      ∀ n, p = .answered (.ok n) ↔ (answers us).getLast? = some (.ok n) := by
  have hnil : answers [] = [] := rfl
  cases h with
  | begun => simp [hnil]
  | first hw hp =>
    obtain ⟨hlength, hpairwise, hlast⟩ := two_answers (Or.inl rfl) (_ : Option (Except Failure Nat))
    rw [(answers_first _ hw _).1, hnil, List.append_nil, ← hp]
    exact ⟨hlength, hpairwise, fun n => (first_ok_iff _ _ n).trans (hlast n).symm⟩
  | renew hw hfailed hw' hp =>
    obtain ⟨hlength, hpairwise, hlast⟩ := two_answers (first_answers hfailed) none
    rw [(answers_first _ hw _).1, (answers_renew _ hw' _ _).1, hnil, ← hp]
    refine ⟨hlength, hpairwise, fun n => (iff_of_false ?_ (by simp)).trans (hlast n).symm⟩
    rcases renewal_or _ _ _ with h | ⟨f, h⟩ <;> rw [h] <;> exact nofun
  | retry hw hfailed hw' hrenewed hw'' hp =>
    rw [(answers_first _ hw _).1, (answers_renew _ hw' _ _).1, (answers_retry _ hw'' _).1, hnil, List.append_nil, ← hp]
    obtain ⟨hlength, hpairwise, hlast⟩ := two_answers (first_answers hfailed) (_ : Option (Except Failure Nat))
    exact ⟨hlength, hpairwise, fun n => (retry_ok_iff _ _ n).trans (hlast n).symm⟩

/-- each section of a write, with what it says of the course -/
theorem turn_cases (h : Course i text us p) {u : Turn} (hu : u ∈ us) :
    (∃ a, u.op = .first i a ∧ u.found.writes[i]? = some (text, .begun) ∧
        (us = [u] ∧ u.found.sink.first a = p ∨ ∃ g, u.found.sink.first a = .failed g)) ∨
      (∃ g closing b, u.op = .renew i closing b ∧ u.found.writes[i]? = some (text, .failed g) ∧
        (u.found.sink.renewal g b = p ∨ u.found.sink.renewal g b = .renewed)) ∨
      ∃ c, u.op = .retry i c ∧ u.found.writes[i]? = some (text, .renewed) ∧
        ∃ v ∈ us, ∃ a g, v.op = .first i a ∧ v.found.sink.first a = .failed g := by
  cases h with
  | begun => cases hu
  | @first s a _ hw hp =>
    cases List.mem_singleton.1 hu
    exact Or.inl ⟨a, rfl, hw, Or.inl ⟨rfl, hp⟩⟩
  | @renew s s' a closing b g _ hw hfailed hw' hp =>
    simp only [List.mem_cons, List.not_mem_nil, or_false] at hu
    rcases hu with rfl | rfl
    · exact Or.inl ⟨a, rfl, hw, Or.inr ⟨g, hfailed⟩⟩
    · exact Or.inr (Or.inl ⟨g, closing, b, rfl, hw', Or.inl hp⟩)
  | @retry s s' s'' a c closing b g _ hw hfailed hw' hrenewed hw'' hp =>
    simp only [List.mem_cons, List.not_mem_nil, or_false] at hu
    rcases hu with rfl | rfl | rfl
    · exact Or.inl ⟨a, rfl, hw, Or.inr ⟨g, hfailed⟩⟩
    · exact Or.inr (Or.inl ⟨g, closing, b, rfl, hw', Or.inr hrenewed⟩)
    · exact Or.inr (Or.inr ⟨c, rfl, hw'', _, List.mem_cons_self, a, g, rfl, hfailed⟩)

/-- a write writes its own text -/
theorem own_text (h : Course i text us p) {u : Turn} (hu : u ∈ us) {c : Nat} {x : Octets} {a : Except Failure Nat}
    (hl : .wrote c x a ∈ u.links) : x = text := by
  obtain ⟨found, op⟩ := u
  rcases h.turn_cases hu with ⟨b, rfl, hw, -⟩ | ⟨g, closing, b, rfl, hw, -⟩ | ⟨b, rfl, hw, -⟩
  · rw [links_first hw, Option.mem_toList, Option.map_eq_some_iff] at hl
    obtain ⟨d, -, heq⟩ := hl
    cases heq
    rfl
  · cases hd : found.sink.dials g with
    | false => rw [links_spare hw hd] at hl; cases hl
    | true =>
      rw [(turn_redial hw hd closing b).1] at hl
      cases found.sink.held <;> simp at hl
  · rw [links_retry hw, Option.mem_toList, Option.map_eq_some_iff] at hl
    obtain ⟨d, -, heq⟩ := hl
    cases heq
    rfl

/-- a second try is made for want of a connection in the first, or because that failed, though not for good -/
theorem first_of_retry (h : Course i text us p) {u : Turn} (hu : u ∈ us) {c : Except Failure Nat}
    (hop : u.op = .retry i c) :
    ∃ v ∈ us, ∃ a, v.op = .first i a ∧ v.found.sink.status ≠ .closed ∧
      (v.found.sink.held = none ∨ ∃ d, v.found.sink.held = some d ∧ Transient a) := by
  rcases h.turn_cases hu with ⟨b, hop', -⟩ | ⟨g, closing, b, hop', -⟩ | ⟨b, -, -, v, hv, a, g, hopv, hfailed⟩
  · cases hop.symm.trans hop'
  · cases hop.symm.trans hop'
  · obtain ⟨-, hopen, hwhy⟩ := first_eq_failed hfailed
    refine ⟨v, hv, a, hopv, hopen, hwhy.imp_right ?_⟩
    rintro ⟨d, f, -, hheld, rfl, hf⟩
    exact ⟨d, hheld, f, rfl, hf⟩

/-- a failure for good ends a write at its first try, and the sink stays as it was found -/
theorem of_permanent (h : Course i text us p) {u : Turn} (hu : u ∈ us) {f : Failure} (hop : u.op = .first i (.error f))
    {c : Nat} {x : Octets} (hl : .wrote c x (.error f) ∈ u.links) (hf : f.permanent = true) :
    p = .answered (.error f) ∧ us = [u] ∧ u.left.sink = u.found.sink := by
  obtain ⟨found, op⟩ := u
  cases hop
  rcases h.turn_cases hu with ⟨b, hop, hw, hend⟩ | ⟨g, closing, b, hop, -⟩ | ⟨b, hop, -⟩
  · cases hop
    rw [links_first hw, Option.mem_toList, Option.map_eq_some_iff] at hl
    obtain ⟨d, ht, -⟩ := hl
    have hanswer : found.sink.first (.error f) = .answered (.error f) := first_of_permanent ht hf
    rcases hend with ⟨husu, hp⟩ | ⟨g, hfailed⟩
    · refine ⟨hp.symm.trans hanswer, husu, ?_⟩
      simp only [Turn.left, step, hw, first_sink]
    · cases hanswer.symm.trans hfailed
  · cases hop
  · cases hop

theorem of_undialed (h : Course i text us p) {u : Turn} (hu : u ∈ us) {n : Nat} {f : Failure}
    (hl : .dialed n (.error f) ∈ u.links) :
    p = .answered (.error .notConnected) ∧ (∀ c, u.found.sink.held = some c → .closed c ∈ u.links) ∧
      u.left.sink.status = .disconnected ∧ u.left.sink.held = none := by
  obtain ⟨found, op⟩ := u
  rcases h.turn_cases hu with ⟨b, rfl, hw, -⟩ | ⟨g, closing, b, rfl, hw, hend⟩ | ⟨b, rfl, hw, -⟩
  · rw [links_first hw, Option.mem_toList, Option.map_eq_some_iff] at hl
    obtain ⟨d, -, heq⟩ := hl
    cases heq
  · cases hd : found.sink.dials g with
    | false => rw [links_spare hw hd] at hl; cases hl
    | true =>
      obtain ⟨hlinks, hsink⟩ := turn_redial hw hd closing b
      obtain rfl : b = .error f := by
        rw [hlinks] at hl
        cases hheld : found.sink.held <;> rw [hheld] at hl <;> simp at hl <;> exact hl.2.symm
      have hanswer : found.sink.renewal g (.error f) = .answered (.error .notConnected) := by
        rw [Sink.renewal, if_neg (dials_iff.1 hd).1, if_pos hd]
      refine ⟨?_, ?_, ?_, ?_⟩
      · rcases hend with hp | hrenewed
        · exact hp.symm.trans hanswer
        · cases hanswer.symm.trans hrenewed
      · intro c hc
        rw [hlinks]
        simp [show found.sink.held = some c from hc]
      · rw [hsink]
        rfl
      · rw [hsink]
        rfl
  · rw [links_retry hw, Option.mem_toList, Option.map_eq_some_iff] at hl
    obtain ⟨d, -, heq⟩ := hl
    cases heq

end Course

/-! ## Progress -/

/-- the section that is due at a rank takes a write past it, unless it is past it already -/
theorem step_past {s : System} {i k : Nat} {text : Octets} {p : Phase} (hw : s.writes[i]? = some (text, p))
    (hk : k ≤ p.rank) (op : Op) (hdue : ∀ q : Phase, q.rank = k → op.isDue i q = true) :
    ∃ p', (s.step op).writes[i]? = some (text, p') ∧ k + 1 ≤ p'.rank := by
  rcases hk.lt_or_eq with hlt | heq
  · obtain ⟨p', hp', hle, -⟩ := step_course hw op
    exact ⟨p', hp', hlt.trans_le hle⟩
  · obtain ⟨p', hp', hlt, -⟩ := step_due hw (hdue p heq.symm)
    exact ⟨p', hp', heq ▸ hlt⟩

/-- a write that takes its three sections comes to an answer, whatever happens in between -/
theorem answered_of_sections {s : System} {i : Nat} {text : Octets} {p : Phase} (hw : s.writes[i]? = some (text, p))
    (before between after rest : List Op) (x z : Except Failure Nat) (closing : Option Failure)
    (y : Except Failure String) :
    ∃ r, (s.run (before ++ .first i x :: (between ++ .renew i closing y :: (after ++ .retry i z :: rest)))).writes[i]? =
      some (text, .answered r) := by
  rw [run_append, run_cons, run_append, run_cons, run_append, run_cons]
  obtain ⟨p₁, hw₁, -, -⟩ := run_course hw before
  obtain ⟨p₂, hw₂, hone⟩ := step_past hw₁ (Nat.zero_le _) (.first i x)
    (by rintro (_ | _ | _ | _) hq <;> simp [Phase.rank, Op.isDue] at hq ⊢)
  obtain ⟨p₃, hw₃, hle, -⟩ := run_course hw₂ between
  obtain ⟨p₄, hw₄, htwo⟩ := step_past hw₃ (hone.trans hle) (.renew i closing y)
    (by rintro (_ | _ | _ | _) hq <;> simp [Phase.rank, Op.isDue] at hq ⊢)
  obtain ⟨p₅, hw₅, hle', -⟩ := run_course hw₄ after
  obtain ⟨p₆, hw₆, hthree⟩ := step_past hw₅ (htwo.trans hle') (.retry i z)
    (by rintro (_ | _ | _ | _) hq <;> simp [Phase.rank, Op.isDue] at hq ⊢)
  obtain ⟨p₇, hw₇, hle'', -⟩ := run_course hw₆ rest
  have hrank : 3 ≤ p₇.rank := hthree.trans hle''
  cases p₇ with
  | answered r => exact ⟨r, hw₇⟩
  | _ => simp [Phase.rank] at hrank

/-! ## Main result -/

/-- **Two tries and one dial.** Take a write that begins in any system, whatever that holds, and any run from there:
its own sections, with other writes and closes in between, whatever the network answers.
- It writes to connections at most twice, and its own text only; and it dials at most once.
- Only a failure that is not for good is followed by another write to a connection; a second try comes after a first one
  that failed so, or for which there was no connection.
- It answers a count exactly when the last connection it wrote to did, and the same count.
- If its first try fails for good, it answers that failure, has taken no other section, and leaves the sink as it
  found it.
- If its dial fails, it answers that there is no connection; the connection there was is closed, and the sink is left
  disconnected, without a connection.
- Once it has taken its three sections it has an answer. -/
theorem two_tries_and_one_dial (s : System) (text : Octets) (ops : List Op) :
    let i := s.writes.length
    let s₁ := s.step (.start text)
    let t := s₁.run ops
    let us := s₁.turns i ops
    ((answers us).length ≤ 2 ∧ dialsIn us ≤ 1 ∧ ∀ u ∈ us, ∀ c x a, .wrote c x a ∈ u.links → x = text) ∧
      ((answers us).Pairwise (fun a _ => Transient a) ∧
        ∀ u ∈ us, ∀ c, u.op = .retry i c → ∃ v ∈ us, ∃ a, v.op = .first i a ∧ v.found.sink.status ≠ .closed ∧
          (v.found.sink.held = none ∨ ∃ d, v.found.sink.held = some d ∧ Transient a)) ∧
      (∀ n, t.writes[i]? = some (text, .answered (.ok n)) ↔ (answers us).getLast? = some (.ok n)) ∧
      (∀ u ∈ us, ∀ c x f, u.op = .first i (.error f) → .wrote c x (.error f) ∈ u.links → f.permanent = true →
        t.writes[i]? = some (text, .answered (.error f)) ∧ us = [u] ∧ u.left.sink = u.found.sink) ∧
      (∀ u ∈ us, ∀ n f, .dialed n (.error f) ∈ u.links →
        t.writes[i]? = some (text, .answered (.error .notConnected)) ∧
          (∀ c, u.found.sink.held = some c → .closed c ∈ u.links) ∧
          u.left.sink.status = .disconnected ∧ u.left.sink.held = none) ∧
      ∀ before between after rest x y z closing,
        ops = before ++ .first i x :: (between ++ .renew i closing y :: (after ++ .retry i z :: rest)) →
          ∃ r, t.writes[i]? = some (text, .answered r) := by
  intro i s₁ t us
  have hw : s₁.writes[i]? = some (text, .begun) := by simp [s₁, i, step]
  obtain ⟨p, hp, -, hcourse⟩ := run_course hw ops
  have h : Course i text us p := hcourse [] .begun
  obtain ⟨htwo, hpairwise, hlast⟩ := h.answers_spec
  refine ⟨⟨htwo, h.dialsIn_le, fun u hu c x a hl => h.own_text hu hl⟩,
    ⟨hpairwise, fun u hu c hop => h.first_of_retry hu hop⟩, ?_, ?_, ?_, ?_⟩
  · intro n
    rw [← hlast n, hp]
    simp
  · intro u hu c x f hop hl hf
    obtain ⟨hanswer, halone⟩ := h.of_permanent hu hop hl hf
    exact ⟨by rw [hp, hanswer], halone⟩
  · intro u hu n f hl
    obtain ⟨hanswer, hleft⟩ := h.of_undialed hu hl
    exact ⟨by rw [hp, hanswer], hleft⟩
  · rintro before between after rest x y z closing rfl
    exact answered_of_sections hw before between after rest x z closing y

end System
end LogRelay.Redial
