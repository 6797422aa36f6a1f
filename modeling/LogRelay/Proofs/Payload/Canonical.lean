/-
Payloads are canonical.

A payload is put together from a list of fields and key by key after that (`gathered`). Only the last value of each
key counts: payloads with the same last values are the same, and so are their texts. They compare as equal, too,
unless there is a NaN in them, which equals nothing (`same_self`). In the JSON of every payload that comes about
(`Made`) the keys of each object stand in the order of their octets. This is said of every way in which that JSON can
be written: all of them are read as one tree, and have its keys (`keyLists_of_readAs`).
- `gathered_congr`, `same_self`: payloads with the same last values.
- `exists_listed`: the JSON of a value is written JSON with the keys of the value.
- `payload_canonical`: both together.
-/
import LogRelay.Proofs.Json.Floating
import LogRelay.Proofs.Payload.Reading

namespace LogRelay

open Json Text

/-! ## Last values -/

namespace Value

mutual

/-- no floating-point value in a value is NaN -/
def isNaNFree : Value → Bool
  | float x => !x.isNaN
  | map fields => areNaNFree fields
  | _ => true

def areNaNFree : List (String × Value) → Bool
  | [] => true
  | (_, v) :: fs => v.isNaNFree && areNaNFree fs

end

theorem areNaNFree_eq (fs : List (String × Value)) : areNaNFree fs = fs.all fun f => f.2.isNaNFree := by
  induction fs with
  | nil => rfl
  | cons f fs ih => rw [areNaNFree, ih, List.all_cons]

mutual

/-- a value equals itself unless there is a NaN in it -/
theorem same_self (v : Value) : v.same v = v.isNaNFree := by
  match v with
  | .text s => rw [same, isNaNFree] <;> simp
  | .int n => rw [same, isNaNFree] <;> simp
  | .float x => rw [same, isNaNFree, Decimal.Double.same]; simp
  | .bool b => rw [same, isNaNFree] <;> simp
  | .null => rw [same, isNaNFree] <;> simp
  | .map fields => rw [same, isNaNFree, sameFields_self fields]

theorem sameFields_self (fs : List (String × Value)) : sameFields fs fs = areNaNFree fs := by
  match fs with
  | [] => rfl
  | (k, v) :: fs => rw [sameFields, areNaNFree, same_self v, sameFields_self fs, beq_self_eq_true, Bool.true_and]

end

end Value

namespace Payload

/-- a payload put together from a list of fields, and key by key after that -/
def gathered (given added : List (String × Value)) : Payload := added.foldl (fun p f => p.insert f.1 f.2) (ofList given)

theorem gathered_eq (given added : List (String × Value)) : gathered given added = ofList (given ++ added) := by
  rw [gathered, ofList, ofList, List.foldl_append]

/-- payloads in which each key has the same last value are the same -/
theorem gathered_congr {given added given' added' : List (String × Value)}
    (h : ∀ key, lastValue? key (given ++ added) = lastValue? key (given' ++ added')) :
    gathered given added = gathered given' added' := by
  have hget : ∀ key, (ofList (given ++ added)).get? key = (ofList (given' ++ added')).get? key := by
    intro key
    rw [get?_ofList, get?_ofList, h]
  calc gathered given added = ofList (given ++ added) := gathered_eq given added
    _ = ofList (given' ++ added') := eq_of_get? (ascending_ofList _) (ascending_ofList _) hget
    _ = gathered given' added' := (gathered_eq given' added').symm

/-- a payload equals itself unless there is a NaN in its last values -/
theorem same_gathered (given added : List (String × Value)) :
    (gathered given added).same (gathered given added) = true ↔
      ∀ key v, lastValue? key (given ++ added) = some v → v.isNaNFree = true := by
  rw [gathered_eq, same, Value.sameFields_self, Value.areNaNFree_eq, List.all_eq_true, Prod.forall]
  refine forall₂_congr fun key v => ?_
  rw [mem_iff_lookup (ascending_ofList _), ← get?_ofList]
  rfl

end Payload

/-! ## Payloads that come about -/

/-- a value that comes about: a plain one, a map that is set key by key, or one that is read -/
inductive Value.Made : Value → Prop
  | text (s : String) : Made (.text s)
  | int (n : Int64) : Made (.int n)
  | float (x : Decimal.Double) : Made (.float x)
  | bool (b : Bool) : Made (.bool b)
  | null : Made .null
  | empty : Made (.map Payload.empty.fields)
  | insert {p : Payload} (hp : Made (.map p.fields)) (key : String) {v : Value} (hv : Made v) :
      Made (.map (p.insert key v).fields)
  | read {s : List Char} {v : Value} (h : Value.ofJson s = .ok v) : Made v
  | readPayload {s : List Char} {p : Payload} (h : Payload.ofJson s = .ok p) : Made (.map p.fields)

/-- a payload that comes about: its fields are a map that does -/
def Payload.Made (p : Payload) : Prop := Value.Made (.map p.fields)

/-- what comes about is in order -/
theorem Value.Made.isOrdered {v : Value} (h : v.Made) : v.isOrdered = true := by
  induction h with
  | empty => rfl
  | insert _ key _ hp hv => exact Payload.isOrdered_insert hp key hv
  | read h => exact isOrdered_of_ofJson h
  | readPayload h => exact Payload.isOrdered_of_ofJson h
  | _ => rfl

theorem Payload.made_gathered {given added : List (String × Value)} (h : ∀ f ∈ given ++ added, f.2.Made) :
    (gathered given added).Made := by
  rw [gathered_eq]
  generalize given ++ added = fs at h
  induction fs using List.reverseRecOn with
  | nil => exact .empty
  | append_singleton fs f ih =>
    rw [List.forall_mem_append, List.forall_mem_singleton] at h
    rw [ofList, List.foldl_append]
    exact .insert (ih h.1) f.1 h.2

/-! ## Keys of objects -/

namespace Json

namespace Written

mutual

/-- the keys of the objects in a value as written, object by object: each as spelled, none if it spells no string -/
def keyLists : Written → List (List (Option String))
  | array _ items => keyListsOfItems items
  | object _ entries => (entries.map fun e => Glyph.string? e.1.value) :: keyListsOfEntries entries
  | _ => []

def keyListsOfItems : List (Padded Written) → List (List (Option String))
  | [] => []
  | ⟨_, v, _⟩ :: is => v.keyLists ++ keyListsOfItems is

def keyListsOfEntries : List (Padded (List Glyph) × Padded Written) → List (List (Option String))
  | [] => []
  | (_, ⟨_, v, _⟩) :: es => v.keyLists ++ keyListsOfEntries es

end

end Written

namespace Tree

mutual

def keyLists : Tree → List (List (Option String))
  | array _ items _ => keyListsOfItems items
  | object _ entries _ => (entries.map fun e => e.1.text.toOption) :: keyListsOfEntries entries
  | _ => []

def keyListsOfItems : List Tree → List (List (Option String))
  | [] => []
  | t :: ts => t.keyLists ++ keyListsOfItems ts

def keyListsOfEntries : List (Json.Key × Tree) → List (List (Option String))
  | [] => []
  | (_, t) :: es => t.keyLists ++ keyListsOfEntries es

end

end Tree

namespace Written

mutual

theorem keyLists_of_readAs (v : Written) {t : Tree} (h : v.ReadAs t) : t.keyLists = v.keyLists := by
  match v with
  | .null =>
    obtain ⟨e, rfl⟩ := h
    rfl
  | .bool b =>
    obtain ⟨e, rfl⟩ := h
    rfl
  | .numeral n =>
    rw [ReadAs] at h
    split at h <;> obtain ⟨_, rfl⟩ := h <;> rfl
  | .text gs =>
    rw [ReadAs] at h
    split at h <;> obtain ⟨_, rfl⟩ := h <;> rfl
  | .array b items =>
    rw [ReadAs] at h
    obtain ⟨e, ts, rfl, hts⟩ := h
    rw [Tree.keyLists, keyLists, keyListsOfItems_of_readAs items hts]
  | .object b entries =>
    rw [ReadAs] at h
    obtain ⟨e, ts, rfl, hts⟩ := h
    obtain ⟨hkeys, hlists⟩ := keyListsOfEntries_of_readAs entries hts
    rw [Tree.keyLists, keyLists, hkeys, hlists]

theorem keyListsOfItems_of_readAs (is : List (Padded Written)) {ts : List Tree} (h : ItemsReadAs is ts) :
    Tree.keyListsOfItems ts = keyListsOfItems is := by
  match is with
  | [] =>
    rw [ItemsReadAs] at h
    subst h
    rfl
  | ⟨b, v, a⟩ :: is =>
    rw [ItemsReadAs] at h
    obtain ⟨t, ts, rfl, ht, hts⟩ := h
    rw [Tree.keyListsOfItems, keyListsOfItems, keyLists_of_readAs v ht, keyListsOfItems_of_readAs is hts]

theorem keyListsOfEntries_of_readAs (es : List Entry) {ts : List (Json.Key × Tree)} (h : EntriesReadAs es ts) :
    (ts.map fun e => e.1.text.toOption) = (es.map fun e => Glyph.string? e.1.value) ∧
      Tree.keyListsOfEntries ts = keyListsOfEntries es := by
  match es with
  | [] =>
    rw [EntriesReadAs] at h
    subst h
    exact ⟨rfl, rfl⟩
  | (⟨b, k, a⟩, ⟨b', v, a'⟩) :: es =>
    rw [EntriesReadAs] at h
    obtain ⟨key, t, ts, rfl, hkey, ht, hts⟩ := h
    obtain ⟨hkeys, hlists⟩ := keyListsOfEntries_of_readAs es hts
    rw [Tree.keyListsOfEntries, keyListsOfEntries, keyLists_of_readAs v ht, hlists, List.map_cons, List.map_cons,
      hkeys, hkey.toOption_text]
    exact ⟨rfl, rfl⟩

end

/-- two ways to write one text have the same keys -/
theorem keyLists_congr {x y : Padded Written} (h : x.chars = y.chars) : x.value.keyLists = y.value.keyLists := by
  obtain ⟨t, hx, hy⟩ := exists_readAs h
  calc x.value.keyLists = t.keyLists := (keyLists_of_readAs _ hx).symm
    _ = y.value.keyLists := keyLists_of_readAs _ hy

end Written
end Json

/-! ## Values as listed -/

namespace Value

mutual

def keyLists : Value → List (List String)
  | map fields => fields.map (·.1) :: keyListsOfFields fields
  | _ => []

def keyListsOfFields : List (String × Value) → List (List String)
  | [] => []
  | (_, v) :: fs => v.keyLists ++ keyListsOfFields fs

end

mutual

/-- in a value in order the keys of each map stand in the order of their octets -/
theorem pairwise_keyLists (v : Value) (h : v.isOrdered = true) :
    ∀ keys ∈ v.keyLists, keys.Pairwise fun a b => octetsOf a < octetsOf b := by
  match v with
  | .map fields =>
    rw [isOrdered] at h
    rw [keyLists, List.forall_mem_cons, List.pairwise_map]
    exact ⟨(areOrdered_iff.1 h).1.imp before_iff.1, pairwise_keyListsOfFields fields (areOrdered_iff.1 h).2⟩
  | .text _ | .int _ | .float _ | .bool _ | .null => simp [keyLists]

theorem pairwise_keyListsOfFields (fs : List (String × Value)) (h : ∀ f ∈ fs, f.2.isOrdered = true) :
    ∀ keys ∈ keyListsOfFields fs, keys.Pairwise fun a b => octetsOf a < octetsOf b := by
  match fs with
  | [] => simp [keyListsOfFields]
  | (k, v) :: fs =>
    rw [List.forall_mem_cons] at h
    rw [keyListsOfFields, List.forall_mem_append]
    exact ⟨pairwise_keyLists v h.1, pairwise_keyListsOfFields fs h.2⟩

end

/-- written JSON that is the JSON of a value, with the keys of the value -/
def ListedAs (v : Value) (x : Written) : Prop := x.chars = v.json ∧ x.keyLists = v.keyLists.map (·.map some)

def FieldsListedAs (fs : List (String × Value)) (es : List Entry) : Prop :=
  Written.charsOfEntries es = jsonOfFields fs ∧
    (es.map fun e => Glyph.string? e.1.value) = fs.map (fun f => some f.1) ∧
    Written.keyListsOfEntries es = (keyListsOfFields fs).map (·.map some)

mutual

/-- the JSON of a value is written JSON with the keys of the value -/
theorem exists_listed (v : Value) : ∃ x : Written, v.ListedAs x := by
  match v with
  | .text s =>
    obtain ⟨gs, hchars, -⟩ := exists_quoted s
    exact ⟨.text gs, by rw [Written.chars, hchars, json], rfl⟩
  | .int n =>
    obtain ⟨x, -, hchars, -, -⟩ := exists_int n
    exact ⟨.numeral x, by rw [Written.chars, hchars, json], rfl⟩
  | .float x =>
    rcases Decimal.exists_floating x with hnull | ⟨n, hchars⟩
    · exact ⟨.null, by rw [Written.chars, json, hnull], rfl⟩
    · exact ⟨.numeral n, by rw [Written.chars, json, hchars], rfl⟩
  | .bool b => exact ⟨.bool b, by rw [Written.chars, json], rfl⟩
  | .null => exact ⟨.null, by rw [Written.chars, json], rfl⟩
  | .map fields =>
    obtain ⟨es, hchars, hkeys, hlists⟩ := exists_listed_fields fields
    refine ⟨.object .none es, by rw [Written.object_bare, hchars, json], ?_⟩
    rw [Written.keyLists, keyLists, hkeys, hlists, List.map_cons, List.map_map]
    rfl

theorem exists_listed_fields (fs : List (String × Value)) : ∃ es : List Entry, FieldsListedAs fs es := by
  match fs with
  | [] => exact ⟨[], rfl, rfl, rfl⟩
  | (k, v) :: fs =>
    obtain ⟨gs, hkey, hspell⟩ := exists_quoted k
    obtain ⟨x, hchars, hlists⟩ := exists_listed v
    obtain ⟨es, hmore, hkeys, hrest⟩ := exists_listed_fields fs
    have hlength : es.length = fs.length := by simpa using congrArg List.length hkeys
    refine ⟨(.bare gs, .bare x) :: es, charsOfEntries_cons hkey hchars hlength hmore, ?_, ?_⟩
    · rw [List.map_cons, List.map_cons, hkeys, Padded.bare, hspell]
    · rw [Padded.bare, Padded.bare, Written.keyListsOfEntries, keyListsOfFields, hlists, hrest, List.map_append]

end

end Value

namespace Payload

open Value

/-- the JSON of a payload in order is an object with its keys, and the keys of each object in it are in order, however
that JSON is read as written -/
theorem keyLists_json {p : Payload} (hp : p.isOrdered = true) {x : Padded Written} (hx : x.chars = p.json) :
    (∃ inside entries, x.value = .object inside entries ∧ entries.length = p.size) ∧
      ∀ keys ∈ x.value.keyLists, ∃ names : List String,
        keys = names.map some ∧ names.Pairwise fun a b => octetsOf a < octetsOf b := by
  obtain ⟨es, hes, hkeys, hlists⟩ := exists_listed_fields p.fields
  have hchars : x.chars = (Padded.bare (Written.object .none es)).chars := by
    rw [hx, Padded.bare_chars, Written.object_bare, hes, Payload.json, Value.json]
  have hsame : x.value.keyLists = (Value.map p.fields).keyLists.map (·.map some) := by
    calc x.value.keyLists = (Written.object .none es).keyLists := Written.keyLists_congr hchars
      _ = p.fields.map (fun f => some f.1) :: (keyListsOfFields p.fields).map (·.map some) := by
        rw [Written.keyLists, hkeys, hlists]
      _ = (Value.map p.fields).keyLists.map (·.map some) := by
        rw [Value.keyLists, List.map_cons, List.map_map]
        rfl
  constructor
  · -- what is read as the object of the fields is an object with as many keys
    obtain ⟨t, hread, hobject⟩ := exists_readAs hchars
    rw [Padded.bare, Written.ReadAs] at hobject
    obtain ⟨e, ts, rfl, -⟩ := hobject
    obtain ⟨inside, entries, hvalue, -, -⟩ := Written.object_of_readAs hread
    rw [hvalue, Written.keyLists, Value.keyLists, List.map_cons, List.cons.injEq] at hsame
    refine ⟨inside, entries, hvalue, ?_⟩
    simpa [size] using congrArg List.length hsame.1
  · intro keys hmem
    rw [hsame, List.mem_map] at hmem
    obtain ⟨names, hnames, rfl⟩ := hmem
    exact ⟨names, rfl, pairwise_keyLists (.map p.fields) (by rw [Value.isOrdered]; exact hp) names hnames⟩

/-- **Canonical payloads.** Two payloads that are put together from a list of fields and key by key after that, with the
same last value of each key, are the same and have the same text; and they are equal as values just when there is no NaN
in these last values. The text of a payload that comes about is written JSON; and however it is written, it is an object
with as many entries as the payload has fields, and in it and in each object in it the keys stand in the order of their
octets, each once. -/
theorem payload_canonical :
    (∀ given added given' added' : List (String × Value),
      (∀ key, lastValue? key (given ++ added) = lastValue? key (given' ++ added')) →
      gathered given added = gathered given' added' ∧
      (gathered given added).text = (gathered given' added').text ∧
      ((gathered given added).same (gathered given' added') = true ↔
        ∀ key v, lastValue? key (given ++ added) = some v → v.isNaNFree = true)) ∧
    ∀ p : Payload, p.Made →
      (∃ x : Padded Written, x.chars = p.text.toList) ∧
      ∀ x : Padded Written, x.chars = p.text.toList →
        (∃ inside entries, x.value = .object inside entries ∧ entries.length = p.size) ∧
        ∀ keys ∈ x.value.keyLists, ∃ names : List String,
          keys = names.map some ∧ names.Pairwise fun a b => octetsOf a < octetsOf b := by
  constructor
  · intro given added given' added' h
    have heq := gathered_congr h
    refine ⟨heq, congrArg text heq, ?_⟩
    rw [← heq]
    exact same_gathered given added
  · intro p hp
    have hordered : p.isOrdered = true := by
      have hmap := hp.isOrdered
      rwa [Value.isOrdered] at hmap
    rw [text, String.toList_ofList]
    obtain ⟨y, hy, -⟩ := exists_listed (.map p.fields)
    exact ⟨⟨.bare y, by rw [Padded.bare_chars, hy, Payload.json]⟩, fun x hx => keyLists_json hordered hx⟩

/-- a map in a payload, and a key that is set twice -/
theorem payload_canonical_nested :
    let inner : Value := .map (ofList [("z", .float .zero), ("y", .null)]).fields
    (∀ key, lastValue? key ([("b", .int 1), ("a", inner)] ++ [("b", .bool true)]) =
      lastValue? key ([] ++ [("b", .bool true), ("a", inner)])) ∧
    gathered [("b", .int 1), ("a", inner)] [("b", .bool true)] = gathered [] [("b", .bool true), ("a", inner)] ∧
    (gathered [] [("b", .bool true), ("a", inner)]).Made ∧
    ∃ x : Padded Written, x.chars = (gathered [] [("b", .bool true), ("a", inner)]).text.toList ∧
      ∀ keys ∈ x.value.keyLists, ∃ names : List String,
        keys = names.map some ∧ names.Pairwise fun a b => octetsOf a < octetsOf b := by
  intro inner
  have hlast : ∀ key, lastValue? key ([("b", .int 1), ("a", inner)] ++ [("b", .bool true)]) =
      lastValue? key ([] ++ [("b", .bool true), ("a", inner)]) := by
    intro key
    simp only [lastValue?, List.cons_append, List.nil_append, List.reverse_cons, List.reverse_nil, lookup_cons_eq]
    split_ifs with hb ha
    · rw [hb] at ha
      exact absurd ha (by decide)
    all_goals rfl
  have hinner : inner.Made := by
    have hmade : (gathered [] [("z", .float .zero), ("y", .null)]).Made :=
      made_gathered (by simpa using ⟨Value.Made.float _, Value.Made.null⟩)
    rwa [gathered_eq] at hmade
  have hmade : (gathered [] [("b", .bool true), ("a", inner)]).Made :=
    made_gathered (by simpa using ⟨Value.Made.bool _, hinner⟩)
  obtain ⟨⟨x, hx⟩, hkeys⟩ := payload_canonical.2 _ hmade
  exact ⟨hlast, (payload_canonical.1 _ _ _ _ hlast).1, hmade, x, hx, (hkeys x hx).2⟩

/-- a payload with a NaN in it is not equal to one with the same last values, nor to itself -/
theorem nan_differs :
    let nan : Value := .float ⟨0x7FF8000000000000⟩
    (∀ key, lastValue? key ([("a", .int 1), ("a", nan)] ++ []) = lastValue? key ([] ++ [("a", nan)])) ∧
      (gathered [("a", .int 1), ("a", nan)] []).same (gathered [] [("a", nan)]) = false := by
  intro nan
  refine ⟨?_, by decide⟩
  intro key
  simp only [lastValue?, List.append_nil, List.nil_append, List.reverse_cons, List.reverse_nil, List.cons_append,
    lookup_cons_eq]
  split_ifs <;> rfl

end Payload
end LogRelay
