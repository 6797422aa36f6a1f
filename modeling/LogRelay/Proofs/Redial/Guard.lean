/-
Which writes dial.

A write that failed remembers the generation it failed in. `FailedOn s ops i c` says that in a run the first try of
write `i` went to connection `c` and failed, though not for good; `Traced` ties this to what the writes remember. A
write may also have found no connection at all: then its generation is that of a dial that failed, and no connection
ever bears its number.
- `step_traced`, `run_traced`: every step, and so every run, keeps the trace.
- `generation_guard`: only a write that failed on a connection has another one dialed in its place; that happens at most
  once for each connection, and when the dial succeeds, all writes that failed on it make do with this one dial.
-/
import LogRelay.Proofs.Redial.Connections

namespace LogRelay.Redial

/-- whether a write is past its second section -/
def Phase.IsPast : Phase → Prop
  | begun => False
  | failed _ => False
  | renewed => True
  | answered _ => True

theorem Phase.IsPast.ne_failed {p : Phase} (h : p.IsPast) (g : Nat) : .failed g ≠ p := by
  rintro rfl
  exact h

theorem renewal_isPast (k : Sink) (observed : Nat) (answer : Except Failure String) :
    (k.renewal observed answer).IsPast := by
  unfold Sink.renewal
  split_ifs
  · trivial
  · split <;> trivial
  · trivial

theorem retry_isPast (k : Sink) (answer : Except Failure Nat) : (k.retry answer).IsPast := by
  unfold Sink.retry
  split <;> trivial

/-- a first try that fails remembers the generation; it failed on the connection there is, or there was none -/
theorem first_eq_failed {k : Sink} {answer : Except Failure Nat} {g : Nat} (h : k.first answer = .failed g) :
    g = k.generation ∧ k.status ≠ .closed ∧
      (k.held = none ∨ ∃ c f, k.target? = some c ∧ k.held = some c ∧ answer = .error f ∧ f.permanent = false) := by
  unfold Sink.first at h
  split_ifs at h with hc
  cases hh : k.held with
  | none =>
    rw [hh] at h
    cases h
    exact ⟨rfl, hc, Or.inl rfl⟩
  | some c =>
    rw [hh] at h
    cases answer with
    | ok n => cases h
    | error f =>
      simp only at h
      split_ifs at h with hp
      cases h
      exact ⟨rfl, hc, Or.inr ⟨c, f, by rw [Sink.target?, if_neg hc, hh], rfl, rfl, by simpa using hp⟩⟩

theorem first_of_failing {k : Sink} {c : Nat} {f : Failure} (ht : k.target? = some c) (hf : f.permanent = false) :
    k.first (.error f) = .failed k.generation := by
  unfold Sink.target? at ht
  split_ifs at ht with hc
  simp [Sink.first, hc, ht, hf]

namespace System

/-! ## Writes that failed on a connection -/

/-- in a run from `s`, the first try of write `i` went to connection `c` and failed, though not for good -/
def FailedOn (s : System) (ops : List Op) (i c : Nat) : Prop :=
  ∃ before f after text, ops = before ++ .first i (.error f) :: after ∧ f.permanent = false ∧
    (s.run before).writes[i]? = some (text, .begun) ∧ (s.run before).sink.target? = some c

section FailedOn

variable {s : System} {ops : List Op} {i c : Nat}

theorem FailedOn.append (h : FailedOn s ops i c) (more : List Op) : FailedOn s (ops ++ more) i c := by
  obtain ⟨before, f, after, text, rfl, hf, hw, ht⟩ := h
  exact ⟨before, f, after ++ more, text, by simp, hf, hw, ht⟩

theorem failedOn_last {f : Failure} {text : Octets} (hf : f.permanent = false)
    (hw : (s.run ops).writes[i]? = some (text, .begun)) (ht : (s.run ops).sink.target? = some c) :
    FailedOn s (ops ++ [.first i (.error f)]) i c :=
  ⟨ops, f, [], text, rfl, hf, hw, ht⟩

theorem failedOn_snoc {op : Op} (h : FailedOn s (ops ++ [op]) i c) :
    FailedOn s ops i c ∨ ∃ f text, op = .first i (.error f) ∧ f.permanent = false ∧
      (s.run ops).writes[i]? = some (text, .begun) ∧ (s.run ops).sink.target? = some c := by
  obtain ⟨before, f, after, text, heq, hf, hw, ht⟩ := h
  rcases List.eq_nil_or_concat after with rfl | ⟨more, last, rfl⟩
  · obtain ⟨rfl, hop⟩ := List.append_inj' heq rfl
    exact Or.inr ⟨f, text, (List.cons.inj hop).1, hf, hw, ht⟩
  · have heq' : ops ++ [op] = (before ++ .first i (.error f) :: more) ++ [last] := by simpa using heq
    obtain ⟨rfl, -⟩ := List.append_inj' heq' rfl
    exact Or.inl ⟨before, f, more, text, rfl, hf, hw, ht⟩

end FailedOn

/-! ## What the writes remember -/

/-- a write that has just failed did so in the present generation, on the connection there is or for want of one -/
theorem failed_of_step (s : System) (op : Op) {j g : Nat} {text : Octets}
    (hw : (s.step op).writes[j]? = some (text, .failed g)) :
    s.writes[j]? = some (text, .failed g) ∨ (g = s.sink.generation ∧ s.sink.status ≠ .closed ∧
      (s.sink.held = none ∨ ∃ c f text', s.sink.held = some c ∧ s.sink.target? = some c ∧ op = .first j (.error f) ∧
        f.permanent = false ∧ s.writes[j]? = some (text', .begun))) := by
  have hm := step_move s op
  generalize s.step op = s' at hm hw
  cases hm with
  | start text' =>
    rcases phase_of_start hw with hp | hw
    · cases hp
    · exact Or.inl hw
  | first i text' answer hb =>
    rcases phase_of_set (first_writes s i text' answer) hw with ⟨rfl, hp⟩ | ⟨-, hw⟩
    · obtain ⟨hg, hopen, hnone | ⟨c, f, ht, hheld, rfl, hf⟩⟩ := first_eq_failed hp.symm
      · exact Or.inr ⟨hg, hopen, Or.inl hnone⟩
      · exact Or.inr ⟨hg, hopen, Or.inr ⟨c, f, text', hheld, ht, rfl, hf, hb⟩⟩
    · exact Or.inl hw
  | redial i text' observed closing answer hb hd =>
    rcases phase_of_set (redial_writes s closing answer i text' _) hw with ⟨rfl, hp⟩ | ⟨-, hw⟩
    · exact absurd hp ((renewal_isPast s.sink observed answer).ne_failed g)
    · exact Or.inl hw
  | spare i text' observed closing answer hb hd =>
    rcases phase_of_set rfl hw with ⟨rfl, hp⟩ | ⟨-, hw⟩
    · exact absurd hp ((renewal_isPast s.sink observed answer).ne_failed g)
    · exact Or.inl hw
  | retry i text' answer hb =>
    rcases phase_of_set (retry_writes s i text' answer) hw with ⟨rfl, hp⟩ | ⟨-, hw⟩
    · exact absurd hp ((retry_isPast s.sink answer).ne_failed g)
    · exact Or.inl hw
  | close hopen => rw [close_eq hopen] at hw; exact Or.inl hw
  | rest op hno => exact Or.inl hw

/-- generations only grow, and a connection that is new has a number past the generation before -/
theorem step_newer (s : System) (op : Op) :
    s.sink.generation ≤ (s.step op).sink.generation ∧
      ∀ c ∈ (s.step op).made, c ∈ s.made ∨ s.sink.generation < c := by
  have hm := step_move s op
  generalize s.step op = s' at hm ⊢
  cases hm with
  | start text => exact ⟨le_rfl, fun c hc => Or.inl hc⟩
  | first i text answer hw =>
    refine ⟨by simp, fun c hc => Or.inl ?_⟩
    rw [made, first_links] at hc
    cases ht : s.sink.target? <;> rw [ht] at hc <;> exact hc
  | redial i text observed closing answer hw hd =>
    refine ⟨by simp, fun c hc => ?_⟩
    rw [made, setPhase_links, connect_links] at hc
    have hold := (letGo_released s.sink.held s.links).2.1
    cases answer with
    | ok name =>
      rw [List.filterMap_cons_some (f := Link.made?) rfl, hold] at hc
      rcases List.mem_cons.1 hc with rfl | hc
      · exact Or.inr (Nat.lt_succ_self _)
      · exact Or.inl hc
    | error f =>
      rw [List.filterMap_cons_none rfl, hold] at hc
      exact Or.inl hc
  | spare i text observed closing answer hw hd => exact ⟨le_rfl, fun c hc => Or.inl hc⟩
  | retry i text answer hw =>
    refine ⟨by simp, fun c hc => Or.inl ?_⟩
    rw [made, retry_links] at hc
    cases ht : s.sink.held <;> rw [ht] at hc <;> exact hc
  | close hopen =>
    rw [close_eq hopen]
    refine ⟨le_rfl, fun c hc => Or.inl ?_⟩
    exact (letGo_released s.sink.held s.links).2.1.subst (motive := fun ls => c ∈ ls) hc
  | rest op hno => exact ⟨le_rfl, fun c hc => Or.inl hc⟩

/-- a write that failed on connection `c` has yet to dial, or is past that -/
def AfterFailure (s : System) (i c : Nat) : Prop :=
  ∃ text p, s.writes[i]? = some (text, p) ∧ (p = .failed c ∨ p.IsPast)

theorem afterFailure_set {s s' : System} {i j c : Nat} {text : Octets} {p : Phase} (h : AfterFailure s j c)
    (hs : s'.writes = s.writes.set i (text, p)) (hp : i = j → p = .failed c ∨ p.IsPast) : AfterFailure s' j c := by
  obtain ⟨text', p', hw, hp'⟩ := h
  unfold AfterFailure
  rw [hs]
  by_cases hij : i = j
  · subst hij
    obtain ⟨hlt, -⟩ := List.getElem?_eq_some_iff.1 hw
    exact ⟨text, p, List.getElem?_set_self hlt, hp rfl⟩
  · rw [List.getElem?_set_ne hij]
    exact ⟨text', p', hw, hp'⟩

theorem step_afterFailure {s : System} {j c : Nat} (h : AfterFailure s j c) (op : Op) :
    AfterFailure (s.step op) j c := by
  have hm := step_move s op
  generalize s.step op = s' at hm ⊢
  cases hm with
  | start text =>
    obtain ⟨text', p, hw, hp⟩ := h
    obtain ⟨hlt, -⟩ := List.getElem?_eq_some_iff.1 hw
    exact ⟨text', p, by rw [List.getElem?_append_left hlt]; exact hw, hp⟩
  | first i text answer hb =>
    refine afterFailure_set h (first_writes s i text answer) ?_
    -- a write that is to try for the first time cannot have failed
    rintro rfl
    obtain ⟨text', p, hw, hp⟩ := h
    rw [hb] at hw
    cases hw
    rcases hp with hp | hp
    · cases hp
    · exact hp.elim
  | redial i text observed closing answer hb hd =>
    exact afterFailure_set h (redial_writes s closing answer i text _) fun _ =>
      Or.inr (renewal_isPast s.sink observed answer)
  | spare i text observed closing answer hb hd =>
    exact afterFailure_set h rfl fun _ => Or.inr (renewal_isPast s.sink observed answer)
  | retry i text answer hb =>
    exact afterFailure_set h (retry_writes s i text answer) fun _ => Or.inr (retry_isPast s.sink answer)
  | close hopen => rw [close_eq hopen]; exact h
  | rest op hno => exact h

/-- what the writes remember agrees with what happened in the run -/
structure Traced (s : System) (ops : List Op) : Prop where
  seen : ∀ i text g, (s.run ops).writes[i]? = some (text, .failed g) →
    g ≤ (s.run ops).sink.generation ∧ (FailedOn s ops i g ∨ g ∉ (s.run ops).made)
  told : ∀ i c, FailedOn s ops i c → AfterFailure (s.run ops) i c

theorem start_traced (network address : String) (answer : Except Failure String) :
    Traced (start network address answer) [] where
  seen := by
    intro i text g hw
    have hnone : (start network address answer).writes = [] := connect_writes _ _ _
    rw [run, List.foldl_nil, hnone] at hw
    cases hw
  told := by
    rintro i c ⟨before, f, after, text, heq, -⟩
    cases before <;> cases heq

/-- **One step keeps the trace** -/
theorem step_traced {s : System} {ops : List Op} (ha : Accounted (s.run ops)) (h : Traced s ops) (op : Op) :
    Traced s (ops ++ [op]) := by
  obtain ⟨hgrow, hmade⟩ := step_newer (s.run ops) op
  constructor
  · intro i text g hw
    rw [run_snoc] at hw ⊢
    rcases failed_of_step _ op hw with hold | ⟨rfl, hopen, hnone | ⟨c, f, text', hheld, ht, rfl, hf, hb⟩⟩
    · obtain ⟨hle, hon⟩ := h.seen i text g hold
      refine ⟨hle.trans hgrow, ?_⟩
      rcases hon with hon | hnot
      · exact Or.inl (hon.append _)
      · refine Or.inr fun hmem => ?_
        rcases hmade g hmem with hmem | hlt
        · exact hnot hmem
        · omega
    · refine ⟨hgrow, Or.inr fun hmem => ?_⟩
      -- the last dial had failed, so there is no connection with its number
      have hnot : (s.run ops).sink.generation ∉ (s.run ops).made := by
        intro hmem
        have := ha.newest hopen hmem
        rw [hnone] at this
        cases this
      rcases hmade _ hmem with hmem | hlt
      · exact hnot hmem
      · exact lt_irrefl _ hlt
    · refine ⟨hgrow, Or.inl ?_⟩
      rw [← ha.number c hheld]
      exact failedOn_last hf hb ht
  · intro i c hon
    rw [run_snoc]
    rcases failedOn_snoc hon with hon | ⟨f, text, rfl, hf, hb, ht⟩
    · exact step_afterFailure (h.told i c hon) op
    · have hheld : (s.run ops).sink.held = some c := by
        unfold Sink.target? at ht
        split_ifs at ht
        exact ht
      have hlt := (List.getElem?_eq_some_iff.1 hb).1
      refine ⟨text, .failed c, ?_, Or.inl rfl⟩
      rw [ha.number c hheld, ← first_of_failing ht hf]
      simp only [step, hb, first_writes]
      exact List.getElem?_set_self hlt

/-- **Every run keeps the trace** -/
theorem run_traced {s : System} (ha : Accounted s) (h : Traced s []) (ops : List Op) : Traced s ops := by
  induction ops using List.reverseRecOn with
  | nil => exact h
  | append_singleton ops op ih => exact step_traced (run_accounted ha ops) ih op

/-! ## Connections that are replaced -/

/-- how often a run dials while connection `c` is held, and so puts another in its place -/
def replacements (s : System) (c : Nat) : List Op → Nat
  | [] => 0
  | op :: ops =>
    (if s.sink.held = some c ∧ s.dialCount < (s.step op).dialCount then 1 else 0) + (s.step op).replacements c ops

/-- a connection of an older generation is not there to be replaced -/
theorem replacements_of_lt {s : System} (h : Accounted s) {c : Nat} (hc : c < s.sink.generation) (ops : List Op) :
    s.replacements c ops = 0 := by
  induction ops generalizing s with
  | nil => rfl
  | cons op ops ih =>
    have hheld : s.sink.held ≠ some c := by
      intro hheld
      have := h.number c hheld
      omega
    have hgrow := (step_newer s op).1
    rw [replacements, if_neg fun hr => hheld hr.1, zero_add]
    exact ih (step_accounted h op) (hc.trans_le hgrow)

theorem replacements_le_one {s : System} (h : Accounted s) (c : Nat) (ops : List Op) : s.replacements c ops ≤ 1 := by
  induction ops generalizing s with
  | nil => exact Nat.zero_le 1
  | cons op ops ih =>
    have h' := step_accounted h op
    rw [replacements]
    split_ifs with hr
    · obtain ⟨hheld, hlt⟩ := hr
      rw [← h.count, ← h'.count] at hlt
      rw [replacements_of_lt h' (by rw [h.number c hheld]; exact hlt)]
    · rw [zero_add]
      exact ih h'

/-- **Only a write that failed on a connection has it replaced**: while the sink holds a connection, it loses it only
to a close, or in the second section of a write that failed on it -/
theorem lost_to {s : System} {ops : List Op} (ha : Accounted (s.run ops)) (h : Traced s ops) {c : Nat} {op : Op}
    (hheld : (s.run ops).sink.held = some c) (hlost : ((s.run ops).step op).sink.held ≠ some c) :
    op = .close ∨ ∃ i closing answer, op = .renew i closing answer ∧ FailedOn s ops i c := by
  rcases step_sink (s.run ops) op with hsame | ⟨hclose, -⟩ | ⟨i, text, observed, closing, answer, rfl, hw, hd, -⟩
  · rw [hsame] at hlost
    exact absurd hheld hlost
  · exact Or.inl hclose
  · have hobs : c = observed := (ha.number c hheld).trans ((dials_iff.1 hd).2 (by rw [hheld]; rfl))
    subst hobs
    rcases (h.seen i text c hw).2 with hon | hnot
    · exact Or.inr ⟨i, closing, answer, rfl, hon⟩
    · exact absurd (held_open ha hheld).1 hnot

/-! ## One dial for all -/

/-- a write that failed on the connection that is held dials in its second section -/
theorem redial_of_failedOn {s : System} {ops : List Op} (ha : Accounted (s.run ops)) (h : Traced s ops)
    {c i observed : Nat} {text : Octets} (hheld : (s.run ops).sink.held = some c) (hon : FailedOn s ops i c)
    (hw : (s.run ops).writes[i]? = some (text, .failed observed)) (closing : Option Failure)
    (answer : Except Failure String) :
    ((s.run ops).step (.renew i closing answer)).sink = (s.run ops).sink.dialed answer := by
  obtain ⟨text', p, hw', hp⟩ := h.told i c hon
  rw [hw] at hw'
  cases hw'
  -- what it remembers is the generation of the connection it failed on
  have hobs : observed = c := by
    rcases hp with hp | hp
    · exact Phase.failed.inj hp
    · exact hp.elim
  have hopen : (s.run ops).sink.status ≠ .closed := by
    have hc := ha.connected.2 (by rw [hheld]; rfl)
    rw [hc]
    decide
  have hd : (s.run ops).sink.dials observed = true :=
    dials_iff.2 ⟨hopen, fun _ => ((ha.number c hheld).symm).trans hobs.symm⟩
  simp [step, hw, renew, hd]

/-- the connection of generation `g` is there, unless the sink is closed, and no write remembers that it failed on it -/
structure Fresh (g : Nat) (s : System) : Prop where
  generation : s.sink.generation = g
  held : s.sink.status ≠ .closed → s.sink.held = some g
  unblamed : ∀ (j : Nat) (text : Octets), s.writes[j]? ≠ some (text, .failed g)

/-- as long as no write fails on it, the connection stays, and nobody dials -/
theorem run_fresh {s : System} {g : Nat} (h : Fresh g s) (ops : List Op) (hcalm : ∀ j, ¬ FailedOn s ops j g) :
    Fresh g (s.run ops) := by
  induction ops using List.reverseRecOn with
  | nil => exact h
  | append_singleton ops op ih =>
    have ih := ih fun j hon => hcalm j (hon.append _)
    have hnew : ∀ (j : Nat) (text : Octets), ((s.run ops).step op).writes[j]? ≠ some (text, .failed g) := by
      intro j text hj
      rcases failed_of_step _ op hj with hold | ⟨-, hopen, hnone | ⟨c, f, text', hheld, ht, rfl, hf, hb⟩⟩
      · exact ih.unblamed j text hold
      · rw [ih.held hopen] at hnone
        cases hnone
      · rw [ih.held hopen] at hheld
        cases hheld
        exact hcalm j (failedOn_last hf hb ht)
    rw [run_snoc]
    rcases step_sink (s.run ops) op with hsame | ⟨-, hclosed⟩ | ⟨i, text, observed, closing, answer, -, hw, hd, -⟩
    · exact ⟨hsame ▸ ih.generation, hsame ▸ ih.held, hnew⟩
    · exact ⟨hclosed ▸ ih.generation, hclosed ▸ fun hno => absurd rfl hno, hnew⟩
    · -- it would have failed on this very connection
      obtain ⟨hopen, hobs⟩ := dials_iff.1 hd
      have hobs := hobs (by rw [ih.held hopen]; rfl)
      rw [← hobs, ih.generation] at hw
      exact absurd hw (ih.unblamed i text)

/-! ## Main result -/

/-- **The generation guards the connection.** From the first dial, after any steps of any number of writes and of
closes in any order, whatever the network answers:
- a connection that is held is lost only to a close, or in the second section of a write whose own first try went to
  this connection and failed, though not for good;
- each connection is replaced at most once;
- while it is held there has been no dial since its own; the first of the writes that failed on it to come to its
  second section dials, and if that makes a connection, then from there on, until a first try on the new one fails
  though not for good, nobody dials again. -/
theorem generation_guard (network address : String) (answer : Except Failure String) (ops : List Op) :
    let s₀ := start network address answer
    let s := s₀.run ops
    (∀ c op, s.sink.held = some c → (s.step op).sink.held ≠ some c →
        op = .close ∨ ∃ i closing answer, op = .renew i closing answer ∧ FailedOn s₀ ops i c) ∧
      (∀ c, s₀.replacements c ops ≤ 1) ∧
      ∀ c i text observed closing name, s.sink.held = some c → FailedOn s₀ ops i c →
        s.writes[i]? = some (text, .failed observed) →
          let s' := s.step (.renew i closing (.ok name))
          s.dialCount = c ∧ s'.dialCount = c + 1 ∧ s'.sink.held = some (c + 1) ∧
            ∀ more, (∀ j, ¬ FailedOn s' more j (c + 1)) → (s'.run more).dialCount = c + 1 := by
  intro s₀ s
  have ha₀ : Accounted s₀ := start_accounted network address answer
  have ha : Accounted s := run_accounted ha₀ ops
  have ht : Traced s₀ ops := run_traced ha₀ (start_traced network address answer) ops
  refine ⟨fun c op hheld hlost => lost_to ha ht hheld hlost, fun c => replacements_le_one ha₀ c ops, ?_⟩
  intro c i text observed closing name hheld hon hw s'
  have hg : c = s.sink.generation := ha.number c hheld
  have hs' : s'.sink = s.sink.dialed (.ok name) := redial_of_failedOn ha ht hheld hon hw closing (.ok name)
  have hgen : s'.sink.generation = c + 1 := by rw [hs', dialed_generation, ← hg]
  have hheld' : s'.sink.held = some (c + 1) := by rw [hs', hg]; rfl
  have ha' : Accounted s' := step_accounted ha _
  refine ⟨hg ▸ ha.count.symm, hgen ▸ ha'.count.symm, hheld', ?_⟩
  intro more hcalm
  have hf : Fresh (c + 1) s' := by
    refine ⟨hgen, fun _ => hheld', ?_⟩
    intro j text' hj
    rcases failed_of_step s _ hj with hold | ⟨hnew, -⟩
    · have hle : c + 1 ≤ s.sink.generation := (ht.seen j text' _ hold).1
      omega
    · omega
  rw [← (run_accounted ha' more).count, (run_fresh hf more hcalm).generation]

end System
end LogRelay.Redial
