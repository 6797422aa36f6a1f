/-
Structures as they may be listed in JSON.

A `Trait` of a structure is a key with what stands under it: a part of the structure, and which written values spell
it. An object lists a structure (`Lists`) when its known keys, in any order, come once each and with values that spell
what the structure has there; a key may be left out where the structure is as it would be without it, and what stands
under an unknown key does not matter.
- `Lists.tail`: one entry read, the entries after it list what is still to be set.
- `reads_object`: a structure is read from every object that lists it, by induction on the entries.
- `exists_listing`: an object with every key in its place is such an object.
-/
import LogRelay.Proofs.Json.Compact
import LogRelay.Proofs.Json.Reading

namespace LogRelay.Json

/-! ## What is written -/

/-- a key of a structure: the part that stands under it, and which written values spell that part -/
structure Trait (σ : Type) where
  name : String
  {Part : Type}
  get : σ → Part
  Spells : Part → Written → Prop

/-- the key of an entry; none when it is no text -/
def key? (e : Entry) : Option String := Glyph.string? e.1.value

/-- the entries of an object that change the structure `start` into the structure `v` -/
structure Lists {σ : Type} (qs : List (Trait σ)) (start v : σ) (es : List Entry) : Prop where
  /-- every key is a text -/
  keys : ∀ e ∈ es, (key? e).isSome = true
  /-- a known key comes with a value that spells what `v` has there -/
  spelled : ∀ e ∈ es, ∀ q ∈ qs, key? e = some q.name → q.Spells (q.get v) e.2.value
  /-- no known key comes twice -/
  once : ∀ q ∈ qs, (es.map key?).count (some q.name) ≤ 1
  /-- a known key is left out only where `v` is as `start` is -/
  omitted : ∀ q ∈ qs, some q.name ∉ es.map key? → q.get v = q.get start

/-- a text with just these characters, however they are written -/
def SpellsText (s : String) (x : Written) : Prop := ∃ gs, x = .text gs ∧ Glyph.string? gs = some s

def SpellsBool (b : Bool) (x : Written) : Prop := x = .bool b

/-- a numeral of a whole number, without fraction and exponent -/
def SpellsWord (v : UInt64) (x : Written) : Prop := ∃ n, x = .numeral n ∧ n.natural? = some v.toNat

/-- a text that is the name of a severity but for the case of its letters -/
def SpellsSeverity (s : Severity) (x : Written) : Prop :=
  ∃ name, SpellsText name x ∧ name.toList.flatMap Text.upper = s.name.toList

/-- null for nothing -/
def SpellsOption {α : Type} (Spells : α → Written → Prop) : Option α → Written → Prop
  | none, x => x = .null
  | some a, x => Spells a x

def SpellsList {α : Type} (Spells : α → Written → Prop) (as : List α) (x : Written) : Prop :=
  ∃ inside items, x = .array inside items ∧ List.Forall₂ (fun a i => Spells a i.value) as items

/-- an object that lists a structure, when the parts it leaves out are those of `start` -/
def SpellsObject {σ : Type} (qs : List (Trait σ)) (start v : σ) (x : Written) : Prop :=
  ∃ inside es, x = .object inside es ∧ Lists qs start v es

/-! ## What is read -/

/-- what is spelled is what is read -/
def Reads {α : Type} (read : Tree → Except Objection α) (Spells : α → Written → Prop) : Prop :=
  ∀ a x t, Spells a x → x.ReadAs t → read t = .ok a

theorem reads_text : Reads Tree.asText SpellsText := by
  rintro s x t ⟨gs, rfl, hspell⟩ ht
  rw [Written.ReadAs, hspell] at ht
  obtain ⟨e, rfl⟩ := ht
  rfl

theorem reads_bool : Reads Tree.asBool SpellsBool := by
  rintro b x t rfl ht
  rw [Written.ReadAs] at ht
  obtain ⟨e, rfl⟩ := ht
  rfl

theorem reads_word (e : Expected) : Reads (Tree.asWord e) SpellsWord := by
  rintro v x t ⟨n, rfl, hvalue⟩ ht
  rw [Written.ReadAs, number?_of_natural hvalue v.toNat_lt] at ht
  obtain ⟨place, rfl⟩ := ht
  simp [Tree.asWord]

theorem parse_eq {s : Severity} {name : String} (h : name.toList.flatMap Text.upper = s.name.toList) :
    Severity.parse name = .ok s := by
  rw [Severity.parse, h]
  cases s <;> rfl

theorem reads_severity : Reads Tree.asSeverity SpellsSeverity := by
  rintro s x t ⟨name, hname, hupper⟩ ht
  rw [Tree.asSeverity, reads_text name x t hname ht]
  simp only [bind, Except.bind, parse_eq hupper]
  rfl

theorem reads_option {α : Type} {read : Tree → Except Objection α} {Spells : α → Written → Prop} (h : Reads read Spells)
    (hnull : ∀ e a, read (.scalar .null e) ≠ .ok a) : Reads (Tree.asOption read) (SpellsOption Spells) := by
  intro a x t hvalue ht
  cases a with
  | none =>
    rw [SpellsOption] at hvalue
    subst hvalue
    rw [Written.ReadAs] at ht
    obtain ⟨e, rfl⟩ := ht
    rfl
  | some a =>
    have hread := h a x t hvalue ht
    unfold Tree.asOption
    split
    · next e => exact absurd hread (hnull e a)
    · rw [hread]
      rfl

theorem reads_list {α : Type} {read : Tree → Except Objection α} {Spells : α → Written → Prop} (h : Reads read Spells) :
    Reads (Tree.asList read) (SpellsList Spells) := by
  rintro as x t ⟨inside, items, rfl, hvalue⟩ ht
  rw [Written.ReadAs] at ht
  obtain ⟨e, ts, rfl, hts⟩ := ht
  have hitems : ts.mapM (fun t => (read t).mapError (·.noticedAt (leaveArray t.rest))) = .ok as := by
    induction hvalue generalizing ts with
    | nil =>
      rw [Written.ItemsReadAs] at hts
      subst hts
      rfl
    | @cons a i as is hi _ ih =>
      obtain ⟨b, v, a'⟩ := i
      rw [Written.ItemsReadAs] at hts
      obtain ⟨t, ts, rfl, ht, hts⟩ := hts
      rw [List.mapM_cons, h a v t hi ht, ih ts hts]
      rfl
  rw [Tree.asList, hitems]
  rfl

/-! ## Objects -/

section Objects

variable {σ : Type} {qs : List (Trait σ)} {start v : σ}

/-- with one entry read, which sets the part it is about, the other entries list the rest -/
theorem Lists.tail {e : Entry} {es : List Entry} (h : Lists qs start v (e :: es)) {next : σ}
    (hnext : ∀ p ∈ qs, p.get next = if key? e = some p.name then p.get v else p.get start) : Lists qs next v es where
  keys := fun f hf => h.keys f (List.mem_cons_of_mem e hf)
  spelled := fun f hf => h.spelled f (List.mem_cons_of_mem e hf)
  once := by
    intro q hq
    calc (es.map key?).count (some q.name) ≤ ((e :: es).map key?).count (some q.name) := by
          rw [List.map_cons]
          exact List.count_le_count_cons
      _ ≤ 1 := h.once q hq
  omitted := by
    intro q hq hleft
    rw [hnext q hq]
    split
    · rfl
    · next hother =>
      apply h.omitted q hq
      rw [List.map_cons, List.mem_cons, not_or]
      exact ⟨fun heq => hother heq.symm, hleft⟩

/-- a field of a structure is read as it is spelled, and changes nothing but its part -/
structure FieldReads (qs : List (Trait σ)) (f : Field σ) (q : Trait σ) : Prop where
  name : f.name = q.name
  read : ∀ v x t, q.Spells (q.get v) x → x.ReadAs t → ∃ set, f.read t = .ok set ∧
    ∀ w, ∀ p ∈ qs, p.get (set w) = if q.name = p.name then p.get v else p.get w

theorem fieldReads {α : Type} {read : Tree → Except Objection α} {Spells : α → Written → Prop} (h : Reads read Spells)
    {name : String} {get : σ → α} {set : α → σ → σ}
    (hset : ∀ v w, ∀ p ∈ qs, p.get (set (get v) w) = if name = p.name then p.get v else p.get w) :
    FieldReads qs ⟨name, fun t => (read t).map set⟩ ⟨name, get, Spells⟩ where
  name := rfl
  read := by
    intro v x t hvalue ht
    refine ⟨set (get v), ?_, hset v⟩
    simp only [h _ _ _ hvalue ht]
    rfl

theorem find_field {fs : List (Field σ)} {ps : List (Trait σ)} (h : List.Forall₂ (FieldReads qs) fs ps) (key : String) :
    (∃ f q, fs.find? (fun f => f.name == key) = some f ∧ q ∈ ps ∧ q.name = key ∧ FieldReads qs f q) ∨
      (fs.find? (fun f => f.name == key) = none ∧ ∀ q ∈ ps, q.name ≠ key) := by
  induction h with
  | nil => exact Or.inr ⟨rfl, by simp⟩
  | @cons f q fs ps hfq _ ih =>
    by_cases hkey : q.name = key
    · refine Or.inl ⟨f, q, ?_, List.mem_cons_self, hkey, hfq⟩
      rw [List.find?_cons, hfq.name, hkey, beq_self_eq_true]
    · have hskip : (f.name == key) = false := by
        rw [hfq.name]
        exact beq_false_of_ne hkey
      rw [List.find?_cons, hskip]
      rcases ih with ⟨f', q', hfind, hq', hname, hreads⟩ | ⟨hfind, hnone⟩
      · exact Or.inl ⟨f', q', hfind, List.mem_cons_of_mem q hq', hname, hreads⟩
      · exact Or.inr ⟨hfind, List.forall_mem_cons.2 ⟨hkey, hnone⟩⟩

variable {r : Record σ}

/-- what one entry sets: the part it is about, if it is about any -/
theorem entry_reads (hfields : List.Forall₂ (FieldReads qs) r.fields qs) {e : Entry} {es : List Entry}
    (h : Lists qs start v (e :: es)) {seen : List String}
    (hseen : ∀ q ∈ qs, q.name ∈ seen → some q.name ∉ (e :: es).map key?)
    {key : Key} {t : Tree} (hkey : KeyReadAs e.1.value key) (ht : e.2.value.ReadAs t) :
    ∃ next seen', r.entry (start, seen) (key, t) = .ok (next, seen') ∧
      (∀ p ∈ qs, p.get next = if key? e = some p.name then p.get v else p.get start) ∧
      ∀ q ∈ qs, q.name ∈ seen' → some q.name ∉ es.map key? := by
  obtain ⟨name, hname⟩ := Option.isSome_iff_exists.1 (h.keys e List.mem_cons_self)
  have htext : key.text = .ok name := by
    rw [KeyReadAs, show Glyph.string? e.1.value = some name from hname] at hkey
    exact hkey
  rcases find_field hfields name with ⟨f, q, hfind, hq, rfl, hreads⟩ | ⟨hfind, hunknown⟩
  · -- a known key, which has not come before and does not come again
    obtain ⟨set, hset, hparts⟩ := hreads.read v _ t (h.spelled e List.mem_cons_self q hq hname) ht
    have hfirst : q.name ∉ seen := fun hmem => hseen q hq hmem (by simp [hname])
    refine ⟨set start, q.name :: seen, ?_, ?_, ?_⟩
    · simp only [Record.entry, htext, hfind, if_neg hfirst, hset]
      rfl
    · intro p hp
      rw [hparts start p hp, hname]
      simp only [Option.some.injEq]
    · intro p hp hmem hagain
      rcases List.mem_cons.1 hmem with heq | hmem
      · have honce := h.once p hp
        rw [List.map_cons, hname, heq, List.count_cons_self] at honce
        have hpos := List.count_pos_iff.2 (heq ▸ hagain)
        omega
      · exact hseen p hp hmem (List.mem_cons_of_mem _ hagain)
  · -- an unknown key
    have hother : ∀ p ∈ qs, key? e ≠ some p.name := by
      intro p hp heq
      rw [hname, Option.some.injEq] at heq
      exact hunknown p hp heq.symm
    refine ⟨start, seen, ?_, ?_, ?_⟩
    · simp only [Record.entry, htext, hfind, Written.gap_eq_none _ ht]
    · intro p hp
      rw [if_neg (hother p hp)]
    · exact fun p hp hmem hagain => hseen p hp hmem (List.mem_cons_of_mem _ hagain)

/-- the entries of an object that lists a structure set all its parts -/
theorem entries_read (hfields : List.Forall₂ (FieldReads qs) r.fields qs) {es : List Entry} (h : Lists qs start v es)
    (seen : List String) (hseen : ∀ q ∈ qs, q.name ∈ seen → some q.name ∉ es.map key?) {ts : List (Key × Tree)}
    (hts : Written.EntriesReadAs es ts) :
    ∃ last seen', ts.foldlM r.entry (start, seen) = .ok (last, seen') ∧ ∀ q ∈ qs, q.get last = q.get v := by
  induction es generalizing start seen ts with
  | nil =>
    rw [Written.EntriesReadAs] at hts
    subst hts
    exact ⟨start, seen, rfl, fun q hq => (h.omitted q hq List.not_mem_nil).symm⟩
  | cons e es ih =>
    obtain ⟨⟨b, k, a⟩, ⟨b', x, a'⟩⟩ := e
    rw [Written.EntriesReadAs] at hts
    obtain ⟨key, t, ts, rfl, hkey, ht, hts⟩ := hts
    obtain ⟨next, seen', hentry, hparts, hleft⟩ := entry_reads hfields h hseen hkey ht
    obtain ⟨last, seen'', hrest, hall⟩ := ih (h.tail hparts) seen' hleft hts
    refine ⟨last, seen'', ?_, hall⟩
    calc ((key, t) :: ts).foldlM r.entry (start, seen)
        = r.entry (start, seen) (key, t) >>= fun acc => ts.foldlM r.entry acc := List.foldlM_cons
      _ = ts.foldlM r.entry (next, seen') := by
          rw [hentry]
          rfl
      _ = .ok (last, seen'') := hrest

theorem reads_object (hfields : List.Forall₂ (FieldReads qs) r.fields qs)
    (hext : ∀ v w : σ, (∀ q ∈ qs, q.get v = q.get w) → v = w) (start : σ) :
    Reads (r.read start) (SpellsObject qs start) := by
  rintro v x t ⟨inside, es, rfl, hlists⟩ ht
  rw [Written.ReadAs] at ht
  obtain ⟨e, ts, rfl, hts⟩ := ht
  obtain ⟨last, seen, hread, hall⟩ := entries_read hfields hlists [] (fun _ _ hmem => by cases hmem) hts
  rw [Record.read, hread, hext last v hall]
  rfl

end Objects

/-! ## Objects that are put down -/

section Writing

section Lists

variable {α : Type} {write : α → List Char} {Spells : α → Written → Prop}

end Lists

variable {σ : Type}

end Writing

end LogRelay.Json
