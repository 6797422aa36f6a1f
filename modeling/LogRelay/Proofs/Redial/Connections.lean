/-
What becomes of the connections of a sink.

Any number of writes share a sink, and their sections may be taken in any order, with a close at any moment, whatever
the network answers. `Accounted` ties what was done to the connections to the state of the sink.
- `step_accounted`, `run_accounted`: every step, and so every run, keeps it.
- `closed_for_good`: nothing is done to any connection after the close, and a write that begins then is refused.
- `connections_accounted`: each connection dialed is closed exactly once, but for the one that is held; none is
  written to after its close.
-/
import LogRelay.Proofs.Redial.Move

namespace LogRelay.Redial.System

/-! ## The invariant -/

/-- what was done to the connections agrees with the sink -/
structure Accounted (s : System) : Prop where
  connected : s.sink.status = .connected ↔ s.sink.held.isSome = true
  count : s.sink.generation = s.dialCount
  /-- connections are closed in the order in which they were dialed -/
  ledger : s.made = s.sink.held.toList ++ s.released
  once : s.made.Nodup
  below : ∀ c ∈ s.made, c ≤ s.sink.generation
  number : ∀ c, s.sink.held = some c → c = s.sink.generation
  /-- as long as the sink is open, what the last dial made is still there -/
  newest : s.sink.status ≠ .closed → s.sink.generation ∈ s.made → s.sink.held = some s.sink.generation
  known : ∀ l ∈ s.links, ∀ c, l.written? = some c → c ∈ s.made
  orderly : s.links.Pairwise fun later earlier => ∀ c, later.written? = some c → earlier.closed? ≠ some c

section Moves

variable {s s' : System}

/-- only the sink and its links matter -/
theorem accounted_congr (h : Accounted s) (hs : s'.sink = s.sink) (hl : s'.links = s.links) : Accounted s' := by
  have hmade : s'.made = s.made := congrArg (List.filterMap Link.made?) hl
  have hreleased : s'.released = s.released := congrArg (List.filterMap Link.closed?) hl
  have hcount : s'.dialCount = s.dialCount := congrArg (List.countP Link.isDial) hl
  constructor
  · rw [hs]; exact h.connected
  · rw [hs, hcount]; exact h.count
  · rw [hmade, hs, hreleased]; exact h.ledger
  · rw [hmade]; exact h.once
  · rw [hmade, hs]; exact h.below
  · rw [hs]; exact h.number
  · rw [hs, hmade]; exact h.newest
  · rw [hl, hmade]; exact h.known
  · rw [hl]; exact h.orderly

/-- the connection that is held was dialed and has not been closed -/
theorem held_open (h : Accounted s) {c : Nat} (hc : s.sink.held = some c) : c ∈ s.made ∧ c ∉ s.released := by
  have hledger := h.ledger
  have honce := h.once
  rw [hledger, hc] at honce
  rw [hc] at hledger
  refine ⟨by rw [hledger]; exact List.mem_cons_self, ?_⟩
  exact (List.nodup_cons.1 honce).1

theorem wrote_accounted (h : Accounted s) {c : Nat} (hc : s.sink.held = some c) {text : Octets}
    {answer : Except Failure Nat} (hs : s'.sink = s.sink) (hl : s'.links = .wrote c text answer :: s.links) :
    Accounted s' := by
  obtain ⟨hmem, hnot⟩ := held_open h hc
  have hmade : s'.made = s.made := by rw [made, hl]; rfl
  have hreleased : s'.released = s.released := by rw [released, hl]; rfl
  have hcount : s'.dialCount = s.dialCount := by rw [dialCount, hl]; rfl
  constructor
  · rw [hs]; exact h.connected
  · rw [hs, hcount]; exact h.count
  · rw [hmade, hs, hreleased]; exact h.ledger
  · rw [hmade]; exact h.once
  · rw [hmade, hs]; exact h.below
  · rw [hs]; exact h.number
  · rw [hs, hmade]; exact h.newest
  · rw [hl, hmade]
    intro l hmem' d hd
    rcases List.mem_cons.1 hmem' with rfl | hmem'
    · cases hd; exact hmem
    · exact h.known l hmem' d hd
  · rw [hl]
    refine List.pairwise_cons.2 ⟨?_, h.orderly⟩
    intro l hl' d hd hcl
    cases hd
    exact hnot (List.mem_filterMap.2 ⟨l, hl', hcl⟩)

/-- a try writes to the connection that is held, or to none -/
theorem try_accounted (h : Accounted s) {o : Option Nat} (ho : ∀ c, o = some c → s.sink.held = some c) {text : Octets}
    {answer : Except Failure Nat} (hs : s'.sink = s.sink)
    (hl : s'.links = (o.map fun c => Link.wrote c text answer).toList ++ s.links) : Accounted s' := by
  cases o with
  | none => exact accounted_congr h hs hl
  | some c => exact wrote_accounted h (ho c rfl) hs hl

/-- a connection that is let go is closed -/
theorem letGo_released (held : Option Nat) (ls : List Link) :
    ((held.map Link.closed).toList ++ ls).filterMap Link.closed? = held.toList ++ ls.filterMap Link.closed? ∧
      ((held.map Link.closed).toList ++ ls).filterMap Link.made? = ls.filterMap Link.made? ∧
      ((held.map Link.closed).toList ++ ls).countP Link.isDial = ls.countP Link.isDial := by
  cases held <;> exact ⟨rfl, rfl, rfl⟩

/-- the connection there is, if any, is closed, and the sink with it -/
theorem letGo_accounted (h : Accounted s) (hs : s'.sink = { s.sink with status := .closed, held := none })
    (hl : s'.links = (s.sink.held.map Link.closed).toList ++ s.links) : Accounted s' := by
  obtain ⟨h1, h2, h3⟩ := letGo_released s.sink.held s.links
  have hmade : s'.made = s.made := by rw [made, hl]; exact h2
  have hreleased : s'.released = s.sink.held.toList ++ s.released := by rw [released, hl]; exact h1
  have hcount : s'.dialCount = s.dialCount := by rw [dialCount, hl]; exact h3
  have hclosed : ∀ l ∈ (s.sink.held.map Link.closed).toList, l.written? = none := by
    intro l hmem
    cases hh : s.sink.held with
    | none => rw [hh] at hmem; cases hmem
    | some c => rw [hh] at hmem; rw [List.mem_singleton.1 hmem]; rfl
  constructor
  · rw [hs]; simp
  · rw [hs, hcount]; exact h.count
  · rw [hmade, hreleased, hs]; exact h.ledger
  · rw [hmade]; exact h.once
  · rw [hmade, hs]; exact h.below
  · rw [hs]; rintro c ⟨⟩
  · rw [hs]; intro hno; exact absurd rfl hno
  · intro l hmem c hc
    rw [hl] at hmem
    rw [hmade]
    rcases List.mem_append.1 hmem with hmem | hmem
    · rw [hclosed l hmem] at hc; cases hc
    · exact h.known l hmem c hc
  · rw [hl]
    refine List.pairwise_append.2 ⟨?_, h.orderly, ?_⟩
    · cases s.sink.held <;> simp
    · intro l hmem _ _ c hc
      rw [hclosed l hmem] at hc
      cases hc

theorem dial_accounted (h : Accounted s) (hnone : s.sink.held = none) {answer : Except Failure String}
    (hs : s'.sink = s.sink.dialed answer) (hl : s'.links = .dialed (s.sink.generation + 1) answer :: s.links) :
    Accounted s' := by
  have hledger : s.made = s.released := by
    have hled := h.ledger
    rwa [hnone] at hled
  have hreleased : s'.released = s.released := by rw [released, hl, List.filterMap_cons_none rfl]; rfl
  have hcount : s'.sink.generation = s'.dialCount := by
    rw [hs, dialed_generation, dialCount, hl, List.countP_cons_of_pos rfl, h.count]
    rfl
  have hgen : s'.sink.generation = s.sink.generation + 1 := by rw [hs, dialed_generation]
  have hnew : s.sink.generation + 1 ∉ s.made := by
    intro hmem
    have := h.below _ hmem
    omega
  have hknown : ∀ l ∈ s'.links, ∀ c, l.written? = some c → c ∈ s.made := by
    intro l hmem c hc
    rw [hl] at hmem
    rcases List.mem_cons.1 hmem with rfl | hmem
    · cases hc
    · exact h.known l hmem c hc
  have horderly : s'.links.Pairwise fun later earlier => ∀ c, later.written? = some c → earlier.closed? ≠ some c := by
    rw [hl]
    refine List.pairwise_cons.2 ⟨?_, h.orderly⟩
    intro l _ c hc
    cases hc
  cases answer with
  | ok name =>
    have hmade : s'.made = (s.sink.generation + 1) :: s.made := by
      rw [made, hl, List.filterMap_cons_some (f := Link.made?) rfl]
      rfl
    have hheld : s'.sink.held = some (s.sink.generation + 1) := by rw [hs]; rfl
    have hstatus : s'.sink.status = .connected := by rw [hs]; rfl
    constructor
    · simp [hheld, hstatus]
    · exact hcount
    · rw [hmade, hheld, hreleased, hledger]; rfl
    · rw [hmade]; exact List.nodup_cons.2 ⟨hnew, h.once⟩
    · rw [hmade, hgen]
      intro c hc
      rcases List.mem_cons.1 hc with rfl | hc
      · exact le_rfl
      · exact Nat.le_succ_of_le (h.below c hc)
    · rw [hheld, hgen]; rintro c ⟨⟩; rfl
    · rw [hheld, hgen]; exact fun _ _ => rfl
    · rw [hmade]; exact fun l hmem c hc => List.mem_cons_of_mem _ (hknown l hmem c hc)
    · exact horderly
  | error f =>
    have hmade : s'.made = s.made := by rw [made, hl, List.filterMap_cons_none rfl]; rfl
    have hheld : s'.sink.held = none := by rw [hs]; rfl
    have hstatus : s'.sink.status = .disconnected := by rw [hs]; rfl
    constructor
    · simp [hheld, hstatus]
    · exact hcount
    · rw [hmade, hheld, hreleased, hledger]; rfl
    · rw [hmade]; exact h.once
    · rw [hmade, hgen]; exact fun c hc => Nat.le_succ_of_le (h.below c hc)
    · rw [hheld]; rintro c ⟨⟩
    · rw [hmade, hgen]; exact fun _ hmem => absurd hmem hnew
    · rw [hmade]; exact hknown
    · exact horderly

/-- a redial: the old connection goes, and then there is a dial -/
theorem redial_accounted (h : Accounted s) {answer : Except Failure String} (hs : s'.sink = s.sink.dialed answer)
    (hl : s'.links =
      .dialed (s.sink.generation + 1) answer :: ((s.sink.held.map Link.closed).toList ++ s.links)) :
    Accounted s' := by
  let t : System :=
    { s with
      sink := { s.sink with status := .closed, held := none }
      links := (s.sink.held.map Link.closed).toList ++ s.links }
  have ht : Accounted t := letGo_accounted h rfl rfl
  -- a dial does not look at the status it finds
  have hdialed : t.sink.dialed answer = s.sink.dialed answer := by cases answer <;> rfl
  exact dial_accounted ht rfl (hs.trans hdialed.symm) hl

theorem close_accounted (h : Accounted s) (hopen : s.sink.status ≠ .closed) : Accounted s.close := by
  rw [close_eq hopen]
  exact letGo_accounted h rfl rfl

end Moves

theorem start_accounted (network address : String) (answer : Except Failure String) :
    Accounted (start network address answer) := by
  have hempty : Accounted { sink := { network := network, address := address } } := by
    constructor <;> simp [made, released, dialCount]
  exact dial_accounted hempty rfl (connect_sink _ _ _) (connect_links _ _ _)

/-- **One step keeps the account** -/
theorem step_accounted {s : System} (h : Accounted s) (op : Op) : Accounted (s.step op) := by
  have hm := step_move s op
  generalize s.step op = s' at hm ⊢
  cases hm with
  | start text => exact accounted_congr h rfl rfl
  | first i text answer hw =>
    refine try_accounted h ?_ (first_sink s i text answer) (first_links s i text answer)
    intro c hc
    unfold Sink.target? at hc
    split_ifs at hc
    exact hc
  | redial i text observed closing answer hw hd =>
    exact redial_accounted h (connect_sink s closing answer) (connect_links s closing answer)
  | spare i text observed closing answer hw hd => exact accounted_congr h rfl rfl
  | retry i text answer hw =>
    exact try_accounted h (fun c hc => hc) (retry_sink s i text answer) (retry_links s i text answer)
  | close hopen => exact close_accounted h hopen
  | rest op hno => exact h

/-- **Every run keeps the account** -/
theorem run_accounted {s : System} (h : Accounted s) (ops : List Op) : Accounted (s.run ops) := by
  induction ops generalizing s with
  | nil => exact h
  | cons op ops ih => rw [run_cons]; exact ih (step_accounted h op)

/-! ## After the close -/

/-- the writes from number `n` on have not been tried yet, or were refused because the sink is closed -/
def Refused (n : Nat) (s : System) : Prop :=
  ∀ i text p, n ≤ i → s.writes[i]? = some (text, p) → p = .begun ∨ p = .answered (.error .closed)

theorem first_of_closed {k : Sink} (h : k.status = .closed) (answer : Except Failure Nat) :
    k.first answer = .answered (.error .closed) := if_pos h

theorem refused_set {n i : Nat} {s s' : System} {text : Octets} {p : Phase} (h : Refused n s)
    (hs : s'.writes = s.writes.set i (text, p)) (hp : n ≤ i → p = .begun ∨ p = .answered (.error .closed)) :
    Refused n s' := by
  intro j text' p' hj hw
  rcases phase_of_set hs hw with ⟨rfl, rfl⟩ | ⟨-, hw⟩
  · exact hp hj
  · exact h j text' p' hj hw

/-- one step of a closed sink: the sink stays as it is, nothing is done to a connection, no write gets further than to
be refused -/
theorem step_closed {s : System} (h : Accounted s) (hc : s.sink.status = .closed)
    {n : Nat} (hr : Refused n s) (op : Op) :
    (s.step op).sink = s.sink ∧ (s.step op).links = s.links ∧ Refused n (s.step op) := by
  have hheld : s.sink.held = none := by
    have hno := mt h.connected.2 (by rw [hc]; decide)
    simpa using hno
  have hm := step_move s op
  generalize s.step op = s' at hm ⊢
  cases hm with
  | start text =>
    refine ⟨rfl, rfl, ?_⟩
    intro i text' p hi hw
    rcases phase_of_start hw with hp | hw
    · exact Or.inl hp
    · exact hr i text' p hi hw
  | first i text answer hw =>
    refine ⟨by simp, by simp [Sink.target?, hc], ?_⟩
    exact refused_set hr (first_writes s i text answer) fun _ => Or.inr (first_of_closed hc answer)
  | redial i text observed closing answer hw hd => exact absurd hc (dials_iff.1 hd).1
  | spare i text observed closing answer hw hd =>
    refine ⟨rfl, rfl, refused_set hr rfl fun _ => Or.inr ?_⟩
    exact if_pos hc
  | retry i text answer hw =>
    refine ⟨by simp, by simp [hheld], refused_set hr (retry_writes s i text answer) ?_⟩
    intro hi
    rcases hr i text .renewed hi hw with hp | hp <;> cases hp
  | close hopen => exact absurd hc hopen
  | rest op hno => exact ⟨rfl, rfl, hr⟩

/-- **A close is for good**: whatever happens afterwards, the sink stays as it is, nothing is done to a connection,
and no write that begins then gets further than to be refused -/
theorem closed_for_good {s : System} (h : Accounted s) (hc : s.sink.status = .closed) {n : Nat} (hr : Refused n s)
    (ops : List Op) :
    (s.run ops).sink = s.sink ∧ (s.run ops).links = s.links ∧ Refused n (s.run ops) := by
  induction ops generalizing s with
  | nil => exact ⟨rfl, rfl, hr⟩
  | cons op ops ih =>
    obtain ⟨h1, h2, h3⟩ := step_closed h hc hr op
    obtain ⟨i1, i2, i3⟩ := ih (step_accounted h op) (by rw [h1]; exact hc) h3
    rw [run_cons]
    exact ⟨i1.trans h1, i2.trans h2, i3⟩

/-- a write that has not been tried when the sink is closed is refused at its first try -/
theorem refused_at_once {s : System} (hc : s.sink.status = .closed) {i : Nat} {text : Octets}
    (hw : s.writes[i]? = some (text, .begun)) (answer : Except Failure Nat) :
    (s.step (.first i answer)).writes[i]? = some (text, .answered (.error .closed)) := by
  obtain ⟨hlt, -⟩ := List.getElem?_eq_some_iff.1 hw
  simp only [step, hw, first_writes, first_of_closed hc]
  exact List.getElem?_set_self hlt

/-! ## Main result -/

/-- **Every connection is accounted for.** From the first dial, after any steps of any number of writes and of closes
in any order, whatever the network answers:
- the sink is connected exactly when it holds a connection, and holds none once it is closed;
- the generation is the number of dials;
- no two dials make the same connection; each connection made is closed exactly once, but for the one that is held,
  which is not closed; no other is closed or held;
- every write goes to a connection that was made, and to none after its close;
- once the sink is closed it stays as it is, and nothing more is done to a connection; every write that begins then is
  refused as closed, and answers so as soon as it is tried. -/
theorem connections_accounted (network address : String) (answer : Except Failure String) (ops : List Op) :
    let s := (start network address answer).run ops
    (s.sink.status = .connected ↔ s.sink.held.isSome = true) ∧ (s.sink.status = .closed → s.sink.held = none) ∧
      s.sink.generation = s.dialCount ∧
      (s.made.Nodup ∧ (∀ c ∈ s.made, s.released.count c = if s.sink.held = some c then 0 else 1) ∧
        ∀ c, c ∉ s.made → c ∉ s.released ∧ s.sink.held ≠ some c) ∧
      ((∀ l ∈ s.links, ∀ c, l.written? = some c → c ∈ s.made) ∧
        s.links.Pairwise fun later earlier => ∀ c, later.written? = some c → earlier.closed? ≠ some c) ∧
      (s.sink.status = .closed → ∀ more, let s' := s.run more
        s'.sink = s.sink ∧ s'.links = s.links ∧
          (∀ i text p, s.writes.length ≤ i → s'.writes[i]? = some (text, p) →
            p = .begun ∨ p = .answered (.error .closed)) ∧
          ∀ i text a, s'.writes[i]? = some (text, .begun) →
            (s'.step (.first i a)).writes[i]? = some (text, .answered (.error .closed))) := by
  intro s
  have h : Accounted s := run_accounted (start_accounted network address answer) ops
  refine ⟨h.connected, ?_, h.count, ⟨h.once, ?_, ?_⟩, ⟨h.known, h.orderly⟩, ?_⟩
  · intro hc
    have hno := mt h.connected.2 (by rw [hc]; decide)
    simpa using hno
  · intro c hmem
    split_ifs with hheld
    · exact List.count_eq_zero.2 (held_open h hheld).2
    · have honce := h.once
      rw [h.ledger] at hmem honce
      have hrel : c ∈ s.released := by
        rcases List.mem_append.1 hmem with hm | hm
        · exact absurd (Option.mem_toList.1 hm) hheld
        · exact hm
      exact List.count_eq_one_of_mem (List.nodup_append.1 honce).2.1 hrel
  · intro c hno
    rw [h.ledger, List.mem_append] at hno
    push Not at hno
    exact ⟨hno.2, fun hheld => hno.1 (Option.mem_toList.2 hheld)⟩
  · intro hc more s'
    have hr : Refused s.writes.length s := by
      intro i text p hi hw
      rw [List.getElem?_eq_none hi] at hw
      cases hw
    obtain ⟨h1, h2, h3⟩ := closed_for_good h hc hr more
    refine ⟨h1, h2, h3, ?_⟩
    intro i text a hw
    exact refused_at_once (by rw [h1]; exact hc) hw a

end LogRelay.Redial.System
