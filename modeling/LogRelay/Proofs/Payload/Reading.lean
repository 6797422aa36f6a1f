/-
Payloads that are read.

What is read without an objection is an object without faults of which the entries stand for values; and what is read is
in order, whatever the order of the entries.
- `foldlM_readEntry_eq_ok`, `read_eq_ok`: what a tree is that is read as a payload.
- `isOrdered_of_ofTree`, `isOrdered_of_ofJson`: values and payloads that are read are in order.
-/
import LogRelay.Proofs.Payload.RoundTrip

namespace LogRelay

open Json Text

/-! ## Trees that are read -/

namespace Value

theorem read_eq_ok {d : Nat} {t : Tree} {v : Value} :
    read d t = .ok v ↔ t.fault? d = none ∧ ofTree? t = some v := by
  rw [read]
  cases t.fault? d with
  | some f => simp [refuse]
  | none => cases ofTree? t <;> simp [unsuitable]

end Value

namespace Payload

open Value

theorem readEntry_eq_ok {p q : Payload} {k : Json.Key} {t : Tree} :
    readEntry p (k, t) = .ok q ↔
      ∃ key v, k.text = .ok key ∧ Value.read (depthLimit - 1) t = .ok v ∧ p.insert key v = q := by
  rw [readEntry]
  cases k.text with
  | error f => simp [refuse]
  | ok key => cases Value.read (depthLimit - 1) t <;> simp [Except.map, Except.mapError]

/-- entries are read when there is no fault in them and each stands for a value -/
theorem foldlM_readEntry_eq_ok {es : List (Json.Key × Tree)} {p q : Payload} :
    es.foldlM readEntry p = .ok q ↔ ∃ fs, ofEntries? es = some fs ∧
      Tree.faultOfEntries? (depthLimit - 1) es = none ∧ fs.foldl (fun p f => p.insert f.1 f.2) p = q := by
  constructor
  · intro h
    induction es generalizing p with
    | nil =>
      cases h
      exact ⟨[], rfl, rfl, rfl⟩
    | cons e es ih =>
      obtain ⟨k, t⟩ := e
      rw [List.foldlM_cons] at h
      obtain ⟨p', hentry, hrest⟩ : ∃ p', readEntry p (k, t) = .ok p' ∧ es.foldlM readEntry p' = .ok q := by
        cases hentry : readEntry p (k, t) with
        | error o =>
          rw [hentry] at h
          cases h
        | ok p' =>
          rw [hentry] at h
          exact ⟨p', rfl, h⟩
      obtain ⟨key, v, hk, hread, rfl⟩ := readEntry_eq_ok.1 hentry
      obtain ⟨hfault, hv⟩ := Value.read_eq_ok.1 hread
      obtain ⟨fs, hfs, hfaults, rfl⟩ := ih hrest
      refine ⟨(key, v) :: fs, ?_, ?_, rfl⟩
      · simp [ofEntries?, hv, hfs, hk, Except.toOption]
      · simp [Tree.faultOfEntries?, hk, hfault, hfaults]
  · rintro ⟨fs, hfs, hfault, rfl⟩
    exact foldlM_readEntry hfs hfault p

theorem unexpected_ne_ok {α : Type} (x : Expected) (t : Tree) (a : α) : t.unexpected x ≠ .ok a := by
  cases t <;> simp [Tree.unexpected, mismatched, refuse]

/-- a payload is read from an object without faults of which the entries stand for values -/
theorem read_eq_ok {t : Tree} {p : Payload} :
    read t = .ok p ↔ ∃ e es fs, t = .object e es none ∧ ofEntries? es = some fs ∧
      Tree.faultOfEntries? (depthLimit - 1) es = none ∧ ofList fs = p := by
  constructor
  · intro h
    rw [read.eq_def] at h
    split at h
    · next e es stop =>
      cases hentries : es.foldlM readEntry empty with
      | error o =>
        rw [hentries] at h
        cases h
      | ok q =>
        rw [hentries] at h
        cases stop with
        | some b => cases h
        | none =>
          cases h
          obtain ⟨fs, hfs, hfault, hp⟩ := foldlM_readEntry_eq_ok.1 hentries
          exact ⟨e, es, fs, rfl, hfs, hfault, hp⟩
    · next hobject => exact absurd h (unexpected_ne_ok _ _ p)
  · rintro ⟨e, es, fs, rfl, hfs, hfault, rfl⟩
    rw [read, foldlM_readEntry hfs hfault]
    rfl

end Payload

/-! ## Order -/

namespace Value

theorem isOrdered_ofScalar (s : Scalar) : (ofScalar s).isOrdered = true := by
  have hnumber : ∀ n, (ofNumber n).isOrdered = true := by
    intro n
    cases n with
    | natural n =>
      rw [ofNumber]
      split <;> rw [isOrdered] <;> simp
    | negative n => rw [ofNumber, isOrdered]; simp
    | float x => rw [ofNumber, isOrdered]; simp
  cases s with
  | number n => exact hnumber n
  | _ => rw [ofScalar, isOrdered]; simp

mutual

theorem isOrdered_of_ofTree (t : Tree) {v : Value} (h : ofTree? t = some v) : v.isOrdered = true := by
  match t with
  | .scalar s _ =>
    rw [ofTree?] at h
    cases h
    exact isOrdered_ofScalar s
  | .array _ _ _ => rw [ofTree?] at h; cases h
  | .flawed _ => rw [ofTree?] at h; cases h
  | .broken _ => rw [ofTree?] at h; cases h
  | .object _ entries _ =>
    rw [ofTree?, Option.map_eq_some_iff] at h
    obtain ⟨fs, hfs, rfl⟩ := h
    rw [isOrdered]
    exact Payload.isOrdered_ofList (isOrdered_of_ofEntries entries hfs)

theorem isOrdered_of_ofEntries (es : List (Json.Key × Tree)) {fs : List (String × Value)}
    (h : ofEntries? es = some fs) : ∀ f ∈ fs, f.2.isOrdered = true := by
  match es with
  | [] =>
    rw [ofEntries?] at h
    cases h
    simp
  | (k, t) :: es =>
    simp only [ofEntries?, Option.bind_eq_bind, Option.bind_eq_some_iff, Option.pure_def, Option.some.injEq] at h
    obtain ⟨v, hv, fs, hfs, key, -, rfl⟩ := h
    exact List.forall_mem_cons.2 ⟨isOrdered_of_ofTree t hv, isOrdered_of_ofEntries es hfs⟩

end

theorem isOrdered_of_ofJson {s : List Char} {v : Value} (h : Value.ofJson s = .ok v) : v.isOrdered = true :=
  isOrdered_of_ofTree _ (read_eq_ok.1 (ofText_eq_ok h)).2

end Value

/-- a payload that is read is in order -/
theorem Payload.isOrdered_of_ofJson {s : List Char} {p : Payload} (h : Payload.ofJson s = .ok p) :
    p.isOrdered = true := by
  obtain ⟨_, es, fs, _, hfs, -, rfl⟩ := read_eq_ok.1 (ofText_eq_ok h)
  exact isOrdered_ofList (Value.isOrdered_of_ofEntries es hfs)

end LogRelay
