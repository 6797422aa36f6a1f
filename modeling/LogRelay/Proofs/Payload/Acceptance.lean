/-
Which texts are read as a payload, and as what.

A payload is read from an object in which no array stands, and from nothing else: an array anywhere is refused, also
where a later entry of the same key would take its place. `Written.StandsFor` says what is held then, for each kind of
value: an object stands for a map, in which a key holds what its last entry stands for. A text that spells no string is
refused as well, since no value can hold it; and nesting too deep or a number too large is where reading gives up.
- `fault?_eq_none_iff`: where a value as written has no fault.
- `exists_standsFor`, `ofTree_eq_none`: a value without arrays is read as what it stands for, any other as nothing.
- `reading_exact`: which texts are read as a payload, what it holds, and why the others are refused.
-/
import LogRelay.Proofs.Payload.Reading

namespace LogRelay

open Json Text

/-! ## Written values -/

namespace Json

/-- the whole number that a numeral writes; none for one with a fraction or an exponent, and for minus zero -/
def NumeralText.integer? (n : NumeralText) : Option Int :=
  if n.fraction.isSome || n.exponent.isSome || n.negative && Text.ofFigures n.whole.chars == 0 then none
  else some (if n.negative then -(Text.ofFigures n.whole.chars : Int) else Text.ofFigures n.whole.chars)

namespace Written

mutual

/-- how many containers stand one inside the other in a value -/
def depth : Written → Nat
  | array _ items => depthOfItems items + 1
  | object _ entries => depthOfEntries entries + 1
  | _ => 0

def depthOfItems : List (Padded Written) → Nat
  | [] => 0
  | ⟨_, v, _⟩ :: is => max v.depth (depthOfItems is)

def depthOfEntries : List (Padded (List Glyph) × Padded Written) → Nat
  | [] => 0
  | (_, ⟨_, v, _⟩) :: es => max v.depth (depthOfEntries es)

end

mutual

/-- the values that stand in a value, itself first -/
def parts : Written → List Written
  | array inside items => array inside items :: partsOfItems items
  | object inside entries => object inside entries :: partsOfEntries entries
  | v => [v]

def partsOfItems : List (Padded Written) → List Written
  | [] => []
  | ⟨_, v, _⟩ :: is => v.parts ++ partsOfItems is

def partsOfEntries : List (Padded (List Glyph) × Padded Written) → List Written
  | [] => []
  | (_, ⟨_, v, _⟩) :: es => v.parts ++ partsOfEntries es

end

def isArray : Written → Bool
  | array _ _ => true
  | _ => false

def isObject : Written → Bool
  | object _ _ => true
  | _ => false

/-- a numeral is not too large for a number -/
def fits : Written → Bool
  | numeral n => n.numeral.number?.isSome
  | _ => true

/-- a text and the keys of an object spell strings: no surrogate in them lacks its partner -/
def spells : Written → Bool
  | text gs => (Glyph.string? gs).isSome
  | object _ entries => entries.all fun e => (Glyph.string? e.1.value).isSome
  | _ => true

/-- no array stands anywhere in a value -/
def isArrayFree (v : Written) : Bool := v.parts.all (!·.isArray)

/-- no numeral in a value is too large for a number -/
def isInRange (v : Written) : Bool := v.parts.all fits

/-- all texts and keys in a value spell strings -/
def isSpelled (v : Written) : Bool := v.parts.all spells

/-- the last value that the entries of an object give a key -/
def lastUnder? (key : String) (es : List Entry) : Option Written :=
  (es.reverse.find? fun e => Glyph.string? e.1.value == some key).map (·.2.value)

/-- what a value as written stands for -/
inductive StandsFor : Written → Value → Prop
  | null : StandsFor .null .null
  | bool (b : Bool) : StandsFor (.bool b) (.bool b)
  | text {gs : List Glyph} {s : String} (h : Glyph.string? gs = some s) : StandsFor (.text gs) (.text s)
  /-- a whole number of 64 bits -/
  | int {n : NumeralText} {z : Int} (h : n.integer? = some z) (hlow : -2 ^ 63 ≤ z) (hhigh : z < 2 ^ 63) :
      StandsFor (.numeral n) (.int (Int64.ofInt z))
  /-- any other number -/
  | float {n : NumeralText} {x : Decimal.Double} (h : ∀ z, n.integer? = some z → z < -2 ^ 63 ∨ 2 ^ 63 ≤ z)
      (hx : n.numeral.number?.map Value.ofNumber = some (.float x)) : StandsFor (.numeral n) (.float x)
  /-- an object is a map, in which its last entry with a key decides what is held under this key -/
  | object {inside : Blanks} {entries : List Entry} {fs : List (String × Value)} (hordered : Value.Ascending fs)
      (hkeys : ∀ key, (fs.lookup key).isSome = (lastUnder? key entries).isSome)
      (hvalues : ∀ key w v, lastUnder? key entries = some w → fs.lookup key = some v → StandsFor w v) :
      StandsFor (.object inside entries) (.map fs)

/-! ### Parts of containers -/

section Parts

variable (f : Written → Bool) (b : Blanks)

theorem all_partsOfItems (is : List (Padded Written)) :
    (partsOfItems is).all f = is.all fun i => i.value.parts.all f := by
  induction is with
  | nil => rfl
  | cons i is ih => rw [partsOfItems, List.all_append, List.all_cons, ih]

theorem all_partsOfEntries (es : List Entry) :
    (partsOfEntries es).all f = es.all fun e => e.2.value.parts.all f := by
  induction es with
  | nil => rfl
  | cons e es ih => rw [partsOfEntries, List.all_append, List.all_cons, ih]

theorem all_parts_array (is : List (Padded Written)) :
    (array b is).parts.all f = (f (array b is) && is.all fun i => i.value.parts.all f) := by
  rw [parts, List.all_cons, all_partsOfItems]

theorem all_parts_object (es : List Entry) :
    (object b es).parts.all f = (f (object b es) && es.all fun e => e.2.value.parts.all f) := by
  rw [parts, List.all_cons, all_partsOfEntries]

end Parts

/-! ### Faults -/

/-- neither a numeral out of range nor a text that spells no string stands in a value -/
theorem all_sound (v : Written) :
    (v.parts.all fun w => w.fits && w.spells) = true ↔ v.isInRange = true ∧ v.isSpelled = true := by
  simp only [isInRange, isSpelled, List.all_eq_true, Bool.and_eq_true]
  exact ⟨fun h => ⟨fun w hw => (h w hw).1, fun w hw => (h w hw).2⟩, fun h w hw => ⟨h.1 w hw, h.2 w hw⟩⟩

mutual

/-- a value as written has no fault where its containers may be opened, its numerals fit and its texts spell strings -/
theorem fault?_eq_none_iff (v : Written) {t : Tree} (h : v.ReadAs t) (d : Nat) :
    t.fault? d = none ↔ v.depth ≤ d ∧ (v.parts.all fun w => w.fits && w.spells) = true := by
  match v with
  | .null =>
    obtain ⟨e, rfl⟩ := h
    simp [Tree.fault?, depth, parts, fits, spells]
  | .bool b =>
    obtain ⟨e, rfl⟩ := h
    simp [Tree.fault?, depth, parts, fits, spells]
  | .numeral n =>
    rw [ReadAs] at h
    split at h
    · next heq =>
      obtain ⟨e, rfl⟩ := h
      simp [Tree.fault?, depth, parts, fits, spells, heq]
    · next heq =>
      obtain ⟨f, rfl⟩ := h
      simp [Tree.fault?, depth, parts, fits, spells, heq]
  | .text gs =>
    rw [ReadAs] at h
    split at h
    · next heq =>
      obtain ⟨e, rfl⟩ := h
      simp [Tree.fault?, depth, parts, fits, spells, heq]
    · next heq =>
      obtain ⟨f, rfl⟩ := h
      simp [Tree.fault?, depth, parts, fits, spells, heq]
  | .array b items =>
    rw [ReadAs] at h
    obtain ⟨e, ts, rfl, hts⟩ := h
    rw [all_parts_array, depth]
    cases d with
    | zero => simp [Tree.fault?]
    | succ d => simp [Tree.fault?, faultOfItems_eq_none_iff items hts d, fits, spells]
  | .object b entries =>
    rw [ReadAs] at h
    obtain ⟨e, ts, rfl, hts⟩ := h
    rw [all_parts_object, depth]
    cases d with
    | zero => simp [Tree.fault?]
    | succ d =>
      rw [Tree.fault?, Option.map_none, Option.or_none, faultOfEntries_eq_none_iff entries hts, Nat.succ_le_succ_iff,
        Bool.and_eq_true, fits, Bool.true_and, spells]
      simp

theorem faultOfItems_eq_none_iff (is : List (Padded Written)) {ts : List Tree} (h : ItemsReadAs is ts) (d : Nat) :
    Tree.faultOfItems? d ts = none ↔
      depthOfItems is ≤ d ∧ (is.all fun i => i.value.parts.all fun w => w.fits && w.spells) = true := by
  match is with
  | [] =>
    rw [ItemsReadAs] at h
    subst h
    simp [Tree.faultOfItems?, depthOfItems]
  | ⟨b, v, a⟩ :: is =>
    rw [ItemsReadAs] at h
    obtain ⟨t, ts, rfl, ht, hts⟩ := h
    rw [Tree.faultOfItems?, Option.or_eq_none_iff, fault?_eq_none_iff v ht, faultOfItems_eq_none_iff is hts,
      depthOfItems, Nat.max_le, List.all_cons, Bool.and_eq_true, and_and_and_comm]

theorem faultOfEntries_eq_none_iff (es : List Entry) {ts : List (Json.Key × Tree)} (h : EntriesReadAs es ts) (d : Nat) :
    Tree.faultOfEntries? d ts = none ↔ depthOfEntries es ≤ d ∧
      (es.all fun e => (Glyph.string? e.1.value).isSome) = true ∧
      (es.all fun e => e.2.value.parts.all fun w => w.fits && w.spells) = true := by
  match es with
  | [] =>
    rw [EntriesReadAs] at h
    subst h
    simp [Tree.faultOfEntries?, depthOfEntries]
  | (⟨b, k, a⟩, ⟨b', v, a'⟩) :: es =>
    rw [EntriesReadAs] at h
    obtain ⟨key, t, ts, rfl, hkey, ht, hts⟩ := h
    rw [Tree.faultOfEntries?]
    have hspelled := hkey.toOption_text
    cases htext : key.text with
    | error f =>
      rw [htext] at hspelled
      simp [← hspelled, Except.toOption]
    | ok s =>
      rw [htext] at hspelled
      simp only [Option.or_eq_none_iff, fault?_eq_none_iff v ht, faultOfEntries_eq_none_iff es hts, depthOfEntries,
        Nat.max_le, List.all_cons, Bool.and_eq_true, ← hspelled, Except.toOption, Option.isSome_some]
      tauto

end

end Written

/-! ### Numbers -/

theorem Numeral.foldl_lt_of_absorb (ds : List Nat) {n : Nat} (hn : n < UInt64.size) (h : (absorb n ds).2 = 0) :
    ds.foldl (fun a d => a * 10 + d) n < UInt64.size := by
  induction ds generalizing n with
  | nil => exact hn
  | cons d ds ih =>
    rw [absorb] at h
    split at h
    · next hfits => exact ih hfits h
    · cases h

theorem absorb_spills {n : NumeralText} (h : UInt64.size ≤ Text.ofFigures n.whole.chars) :
    (Numeral.absorb 0 n.numeral.whole).2 ≠ 0 := by
  intro hzero
  have hlt := Numeral.foldl_lt_of_absorb _ (by decide) hzero
  rw [foldl_whole] at hlt
  exact Nat.not_lt.2 h hlt

/-- a numeral with a fraction or an exponent, or one that loses digits, is a floating-point number -/
theorem number?_of_float {n : Numeral} {m : Number} (h : n.marked = true ∨ (Numeral.absorb 0 n.whole).2 ≠ 0)
    (hm : n.number? = some m) : ∃ x, m = .float x := by
  have hfloat : (n.marked || (Numeral.absorb 0 n.whole).2 != 0) = true := by simpa using h
  simp only [Numeral.number?, hfloat, if_true, Option.map_eq_some_iff] at hm
  obtain ⟨x, -, rfl⟩ := hm
  exact ⟨x, rfl⟩

/-- a numeral of minus zero, or of a number below zero that does not fit in 64 bits, is a floating-point number -/
theorem number?_of_below {n : NumeralText} {m : Number} (hmarked : n.numeral.marked = false)
    (hneg : n.negative = true) (hlt : Text.ofFigures n.whole.chars < UInt64.size)
    (h : Text.ofFigures n.whole.chars = 0 ∨ 2 ^ 63 < Text.ofFigures n.whole.chars)
    (hm : n.numeral.number? = some m) : ∃ x, m = .float x := by
  have hbelow : (Text.ofFigures n.whole.chars = 0 || Nat.pow 2 63 < Text.ofFigures n.whole.chars) = true := by
    simpa using h
  simp only [Numeral.number?, absorb_whole n hlt, hmarked, numeral_negative, hneg, hbelow] at hm
  simp only [bne_self_eq_false, Bool.or_self, Bool.false_eq_true, if_false, Bool.not_true, if_true,
    Option.map_eq_some_iff] at hm
  obtain ⟨x, -, rfl⟩ := hm
  exact ⟨x.neg, rfl⟩

theorem integer?_eq_some {n : NumeralText} {z : Int} :
    n.integer? = some z ↔ n.numeral.marked = false ∧
      (n.negative = false ∧ z = Text.ofFigures n.whole.chars ∨
        n.negative = true ∧ 0 < Text.ofFigures n.whole.chars ∧ z = -(Text.ofFigures n.whole.chars : Int)) := by
  rw [NumeralText.integer?, numeral_marked]
  generalize Text.ofFigures n.whole.chars = v
  cases n.fraction.isSome || n.exponent.isSome with
  | true => simp
  | false => cases n.negative <;> grind

namespace Written

section Numerals

variable {n : NumeralText} {m : Number} (hm : n.numeral.number? = some m)

include hm

/-- what is read as a floating-point number must not write a whole number of 64 bits -/
theorem standsFor_float {x : Decimal.Double} (hx : Value.ofNumber m = .float x)
    (hout : ∀ z, n.integer? = some z → z < -2 ^ 63 ∨ 2 ^ 63 ≤ z) : (numeral n).StandsFor (Value.ofNumber m) := by
  rw [hx]
  exact .float hout (by rw [hm, Option.map_some, hx])

theorem standsFor_natural (hmarked : n.numeral.marked = false) (hneg : n.negative = false)
    (hlt : Text.ofFigures n.whole.chars < UInt64.size) : (numeral n).StandsFor (Value.ofNumber m) := by
  have hinteger : n.integer? = some (Text.ofFigures n.whole.chars : Int) :=
    integer?_eq_some.2 ⟨hmarked, Or.inl ⟨hneg, rfl⟩⟩
  have hnatural : n.natural? = some (Text.ofFigures n.whole.chars) := by
    have hplain : n.fraction = none ∧ n.exponent = none := by simpa [numeral_marked] using hmarked
    simp [NumeralText.natural?, hplain, hneg]
  have hnumber := number?_of_natural hnatural hlt
  obtain rfl : m = .natural (Text.ofFigures n.whole.chars) := Option.some.inj (hm.symm.trans hnumber)
  by_cases hsmall : Text.ofFigures n.whole.chars < Nat.pow 2 63
  · rw [Value.ofNumber, if_pos hsmall]
    exact .int hinteger (by omega) (by exact_mod_cast hsmall)
  · have hlarge : 2 ^ 63 ≤ Text.ofFigures n.whole.chars := Nat.not_lt.1 hsmall
    refine standsFor_float hm (by rw [Value.ofNumber, if_neg hsmall]) ?_
    intro z hz
    obtain rfl := Option.some.inj (hinteger.symm.trans hz)
    omega

theorem standsFor_below (hmarked : n.numeral.marked = false) (hneg : n.negative = true)
    (hlt : Text.ofFigures n.whole.chars < UInt64.size) : (numeral n).StandsFor (Value.ofNumber m) := by
  by_cases hrange : Text.ofFigures n.whole.chars = 0 ∨ 2 ^ 63 < Text.ofFigures n.whole.chars
  · obtain ⟨x, rfl⟩ := number?_of_below hmarked hneg hlt hrange hm
    refine standsFor_float hm rfl ?_
    intro z hz
    obtain ⟨-, ⟨habove, -⟩ | ⟨-, hpos, rfl⟩⟩ := integer?_eq_some.1 hz
    · rw [hneg] at habove
      cases habove
    · omega
  · have hplain : n.fraction = none ∧ n.exponent = none := by simpa [numeral_marked] using hmarked
    have hnumber := number?_of_negative hneg hplain.1 hplain.2 (by omega) (by omega)
    obtain rfl : m = .negative (Text.ofFigures n.whole.chars) := Option.some.inj (hm.symm.trans hnumber)
    rw [Value.ofNumber]
    exact .int (integer?_eq_some.2 ⟨hmarked, Or.inr ⟨hneg, by omega, rfl⟩⟩) (by omega) (by omega)

theorem standsFor_numeral : (numeral n).StandsFor (Value.ofNumber m) := by
  cases hmarked : n.numeral.marked with
  | true =>
    obtain ⟨x, rfl⟩ := number?_of_float (Or.inl hmarked) hm
    refine standsFor_float hm rfl ?_
    intro z hz
    rw [(integer?_eq_some.1 hz).1] at hmarked
    cases hmarked
  | false =>
    rcases Nat.lt_or_ge (Text.ofFigures n.whole.chars) UInt64.size with hlt | hge
    · cases hneg : n.negative with
      | false => exact standsFor_natural hm hmarked hneg hlt
      | true => exact standsFor_below hm hmarked hneg hlt
    · obtain ⟨x, rfl⟩ := number?_of_float (Or.inr (absorb_spills hge)) hm
      have hlarge : 2 ^ 64 ≤ Text.ofFigures n.whole.chars := hge
      refine standsFor_float hm rfl ?_
      intro z hz
      obtain ⟨-, ⟨-, rfl⟩ | ⟨-, -, rfl⟩⟩ := integer?_eq_some.1 hz <;> omega

end Numerals

/-! ### Entries -/

/-- fields that entries stand for, one for each entry -/
def EntriesStandFor (es : List Entry) (fs : List (String × Value)) : Prop :=
  List.Forall₂ (fun e f => Glyph.string? e.1.value = some f.1 ∧ e.2.value.StandsFor f.2) es fs

/-- the last entry with a key stands for the last value of this key -/
theorem lastValue?_of_entries {es : List Entry} {fs : List (String × Value)} (h : EntriesStandFor es fs)
    (key : String) :
    (Payload.lastValue? key fs).isSome = (lastUnder? key es).isSome ∧
      ∀ w v, lastUnder? key es = some w → Payload.lastValue? key fs = some v → w.StandsFor v := by
  rw [Payload.lastValue?, lastUnder?]
  have hreverse := List.rel_reverse h
  generalize es.reverse = es at hreverse
  generalize fs.reverse = fs at hreverse
  induction hreverse with
  | nil => simp
  | @cons e f es fs hef _ ih =>
    obtain ⟨k, v⟩ := f
    obtain ⟨hk, hv⟩ := hef
    rw [Payload.lookup_cons_eq, List.find?_cons, hk]
    by_cases heq : key = k
    · subst heq
      simpa using hv
    · have hother : (some k == some key) = false := by simpa using Ne.symm heq
      rw [if_neg heq, hother]
      exact ih

/-- an object stands for the map that its entries make -/
theorem standsFor_object (b : Blanks) {es : List Entry} {fs : List (String × Value)} (h : EntriesStandFor es fs) :
    (object b es).StandsFor (.map (Payload.ofList fs).fields) := by
  have hget := Payload.get?_ofList fs
  unfold Payload.get? at hget
  refine .object (Payload.ascending_ofList fs) ?_ ?_
  · intro key
    rw [hget]
    exact (lastValue?_of_entries h key).1
  · intro key w v hw hv
    rw [hget] at hv
    exact (lastValue?_of_entries h key).2 w v hw hv

mutual

/-- a value without arrays, of which the numerals fit and the texts spell strings, is read as what it stands for -/
theorem exists_standsFor (v : Written) {t : Tree} (h : v.ReadAs t) (hfree : v.isArrayFree = true)
    (hrange : v.isInRange = true) (hspelled : v.isSpelled = true) :
    ∃ w, Value.ofTree? t = some w ∧ v.StandsFor w := by
  match v with
  | .null =>
    obtain ⟨e, rfl⟩ := h
    exact ⟨.null, rfl, .null⟩
  | .bool b =>
    obtain ⟨e, rfl⟩ := h
    exact ⟨.bool b, rfl, .bool b⟩
  | .numeral n =>
    cases hnumber : n.numeral.number? with
    | none => simp [isInRange, parts, fits, hnumber] at hrange
    | some m =>
      rw [ReadAs, hnumber] at h
      obtain ⟨e, rfl⟩ := h
      exact ⟨Value.ofNumber m, by rw [Value.ofTree?, Value.ofScalar], standsFor_numeral hnumber⟩
  | .text gs =>
    cases hstring : Glyph.string? gs with
    | none => simp [isSpelled, parts, spells, hstring] at hspelled
    | some s =>
      rw [ReadAs, hstring] at h
      obtain ⟨e, rfl⟩ := h
      exact ⟨.text s, by rw [Value.ofTree?, Value.ofScalar], .text hstring⟩
  | .array b items => simp [isArrayFree, parts, isArray] at hfree
  | .object b entries =>
    rw [ReadAs] at h
    obtain ⟨e, ts, rfl, hts⟩ := h
    rw [isArrayFree, all_parts_object] at hfree
    rw [isInRange, all_parts_object] at hrange
    rw [isSpelled, all_parts_object, Bool.and_eq_true, spells] at hspelled
    obtain ⟨fs, hfs, hentries⟩ := exists_entriesStandFor entries hts hspelled.1 (Bool.and_eq_true_iff.1 hfree).2
      (Bool.and_eq_true_iff.1 hrange).2 hspelled.2
    exact ⟨_, by rw [Value.ofTree?, hfs, Option.map_some], standsFor_object b hentries⟩

theorem exists_entriesStandFor (es : List Entry) {ts : List (Json.Key × Tree)} (h : EntriesReadAs es ts)
    (hkeys : (es.all fun e => (Glyph.string? e.1.value).isSome) = true)
    (hfree : (es.all fun e => e.2.value.isArrayFree) = true) (hrange : (es.all fun e => e.2.value.isInRange) = true)
    (hspelled : (es.all fun e => e.2.value.isSpelled) = true) :
    ∃ fs, Value.ofEntries? ts = some fs ∧ EntriesStandFor es fs := by
  match es with
  | [] =>
    rw [EntriesReadAs] at h
    subst h
    exact ⟨[], rfl, .nil⟩
  | (⟨b, k, a⟩, ⟨b', v, a'⟩) :: es =>
    rw [EntriesReadAs] at h
    obtain ⟨key, t, ts, rfl, hkey, ht, hts⟩ := h
    simp only [List.all_cons, Bool.and_eq_true] at hkeys hfree hrange hspelled
    obtain ⟨s, hs⟩ := Option.isSome_iff_exists.1 hkeys.1
    simp only [KeyReadAs, hs] at hkey
    obtain ⟨w, hw, hstands⟩ := exists_standsFor v ht hfree.1 hrange.1 hspelled.1
    obtain ⟨fs, hfs, hentries⟩ := exists_entriesStandFor es hts hkeys.2 hfree.2 hrange.2 hspelled.2
    refine ⟨(s, w) :: fs, ?_, .cons ⟨hs, hstands⟩ hentries⟩
    simp [Value.ofEntries?, hw, hfs, hkey, Except.toOption]

end

mutual

/-- a value with an array in it stands for nothing -/
theorem ofTree_eq_none (v : Written) {t : Tree} (h : v.ReadAs t) (harray : v.isArrayFree = false) :
    Value.ofTree? t = none := by
  match v with
  | .null => simp [isArrayFree, parts, isArray] at harray
  | .bool b => simp [isArrayFree, parts, isArray] at harray
  | .numeral n => simp [isArrayFree, parts, isArray] at harray
  | .text gs => simp [isArrayFree, parts, isArray] at harray
  | .array b items =>
    rw [ReadAs] at h
    obtain ⟨e, ts, rfl, -⟩ := h
    rw [Value.ofTree?]
  | .object b entries =>
    rw [ReadAs] at h
    obtain ⟨e, ts, rfl, hts⟩ := h
    rw [isArrayFree, all_parts_object, Bool.and_eq_false_iff] at harray
    replace harray := harray.resolve_left (by simp [isArray])
    rw [Value.ofTree?, ofEntries_eq_none entries hts harray, Option.map_none]

theorem ofEntries_eq_none (es : List Entry) {ts : List (Json.Key × Tree)} (h : EntriesReadAs es ts)
    (harray : (es.all fun e => e.2.value.isArrayFree) = false) : Value.ofEntries? ts = none := by
  match es with
  | [] => cases harray
  | (⟨b, k, a⟩, ⟨b', v, a'⟩) :: es =>
    rw [EntriesReadAs] at h
    obtain ⟨key, t, ts, rfl, -, ht, hts⟩ := h
    rw [List.all_cons, Bool.and_eq_false_iff] at harray
    rcases harray with harray | harray
    · simp [Value.ofEntries?, ofTree_eq_none v ht harray]
    · simp [Value.ofEntries?, ofEntries_eq_none es hts harray]

end

end Written
end Json

/-! ## Payloads -/

namespace Payload

open Value

/-- entries without faults that stand for no fields are refused for their kind -/
theorem foldlM_readEntry_mismatch {es : List (Json.Key × Tree)}
    (hfault : Tree.faultOfEntries? (depthLimit - 1) es = none) (hnone : ofEntries? es = none) (p : Payload) :
    ∃ place, es.foldlM readEntry p = .error ⟨.mismatch .notAValue, place⟩ := by
  induction es generalizing p with
  | nil => cases hnone
  | cons e es ih =>
    obtain ⟨⟨text, rest⟩, t⟩ := e
    rw [Tree.faultOfEntries?] at hfault
    cases text with
    | error f => cases hfault
    | ok key =>
      rw [Option.or_eq_none_iff] at hfault
      rw [List.foldlM_cons]
      cases hvalue : ofTree? t with
      | none =>
        refine ⟨some (leaveObject t.rest), ?_⟩
        simp only [readEntry, Value.read, hfault.1, hvalue, unsuitable, Except.mapError, Objection.noticedAt]
        rfl
      | some v =>
        have hrest : ofEntries? es = none := by
          cases hfs : ofEntries? es with
          | none => rfl
          | some fs => simp [ofEntries?, hvalue, hfs, Except.toOption] at hnone
        have hentry : readEntry p (⟨.ok key, rest⟩, t) = .ok (p.insert key v) :=
          readEntry_eq_ok.2 ⟨key, v, rfl, Value.read_eq_ok.2 ⟨hfault.1, hvalue⟩, rfl⟩
        rw [hentry]
        exact ih hfault.2 hrest _

theorem fault?_object (e : Extent) (es : List (Json.Key × Tree)) :
    (Tree.object e es none).fault? depthLimit = Tree.faultOfEntries? (depthLimit - 1) es := by
  have hlimit : depthLimit = depthLimit - 1 + 1 := rfl
  rw [hlimit, Tree.fault?, Option.map_none, Option.or_none, Nat.add_sub_cancel]

/-- what is read as a payload stands for it, and is an object without arrays in which all texts spell strings -/
theorem of_read_eq_ok {v : Written} {t : Tree} (h : v.ReadAs t) (hrange : v.isInRange = true) {p : Payload}
    (hp : read t = .ok p) :
    v.isObject = true ∧ v.isArrayFree = true ∧ v.isSpelled = true ∧ v.StandsFor (.map p.fields) := by
  obtain ⟨e, es, fs, rfl, hfs, hfault, rfl⟩ := read_eq_ok.1 hp
  obtain ⟨inside, entries, rfl, -, -⟩ := Written.object_of_readAs h
  have htree : ofTree? (.object e es none) = some (.map (ofList fs).fields) := by rw [ofTree?, hfs, Option.map_some]
  rw [← fault?_object e, Written.fault?_eq_none_iff _ h, Written.all_sound] at hfault
  have hspelled := hfault.2.2
  have hfree : (Written.object inside entries).isArrayFree = true := by
    by_contra harray
    rw [Written.ofTree_eq_none _ h (Bool.not_eq_true _ ▸ harray)] at htree
    cases htree
  obtain ⟨w, hw, hstands⟩ := Written.exists_standsFor _ h hfree hrange hspelled
  rw [htree] at hw
  cases hw
  exact ⟨rfl, hfree, hspelled, hstands⟩

/-- an object without arrays and faults is read as a payload -/
theorem exists_read_eq_ok {v : Written} {t : Tree} (h : v.ReadAs t) (hdepth : v.depth ≤ depthLimit)
    (hrange : v.isInRange = true) (hobject : v.isObject = true) (hfree : v.isArrayFree = true)
    (hspelled : v.isSpelled = true) : ∃ p, read t = .ok p := by
  cases v with
  | object inside entries =>
    have hfault := (Written.fault?_eq_none_iff _ h depthLimit).2 ⟨hdepth, (Written.all_sound _).2 ⟨hrange, hspelled⟩⟩
    obtain ⟨w, hw, -⟩ := Written.exists_standsFor _ h hfree hrange hspelled
    rw [Written.ReadAs] at h
    obtain ⟨e, ts, rfl, -⟩ := h
    rw [ofTree?, Option.map_eq_some_iff] at hw
    obtain ⟨fs, hfs, -⟩ := hw
    rw [fault?_object] at hfault
    exact ⟨ofList fs, read_eq_ok.2 ⟨e, ts, fs, rfl, hfs, hfault, rfl⟩⟩
  | _ => cases hobject

/-- a value as written without faults that is not read as a payload is refused for its kind -/
theorem read_mismatch {v : Written} {t : Tree} (h : v.ReadAs t) (hfault : t.fault? depthLimit = none)
    (hother : v.isObject = false ∨ v.isArrayFree = false) :
    ∃ m place, Payload.read t = .error ⟨.mismatch m, place⟩ := by
  cases t with
  | scalar s e => exact ⟨_, _, rfl⟩
  | array e items stop => exact ⟨_, _, rfl⟩
  | flawed f => cases hfault
  | broken b => cases hfault
  | object e es stop =>
    obtain ⟨inside, entries, rfl, rfl, -⟩ := Written.object_of_readAs h
    have harray := Written.ofTree_eq_none _ h (hother.resolve_left (by simp [Written.isObject]))
    rw [ofTree?, Option.map_eq_none_iff] at harray
    rw [fault?_object] at hfault
    obtain ⟨place, hrefused⟩ := foldlM_readEntry_mismatch hfault harray empty
    refine ⟨.notAValue, place, ?_⟩
    rw [Payload.read, hrefused]
    rfl

/-- **What is read as a payload.** Take a JSON text with no more than 127 containers open at once and without a numeral
too large for a number. It is read as a payload just when its value is an object, no array stands anywhere in it, also
under a key that comes again, and all its texts and keys spell strings. Then each key holds what its last entry stands
for: a text, a truth value or null itself, a numeral a whole number of 64 bits if it writes one and else a
floating-point number, an object a map. And where all texts and keys spell strings, what is refused is refused for its
kind. -/
theorem reading_exact (x : Padded Written) (hdepth : x.value.depth ≤ 127) (hrange : x.value.isInRange = true) :
    ((∃ p, ofJson x.chars = .ok p) ↔
      x.value.isObject = true ∧ x.value.isArrayFree = true ∧ x.value.isSpelled = true) ∧
    (∀ p, ofJson x.chars = .ok p → x.value.StandsFor (.map p.fields)) ∧
    (x.value.isSpelled = true → ∀ r, ofJson x.chars = .error r → ∃ m, r.problem = .mismatch m) := by
  obtain ⟨t, htree, htrailing, ht⟩ := read_chars x
  -- what the text gives is what its tree gives
  have hread : ofJson x.chars = (read t).mapError (·.refusal x.chars) := by
    rw [ofJson, ofText]
    simp only [htree, htrailing]
    cases read t <;> rfl
  have hok : ∀ p, ofJson x.chars = .ok p ↔ read t = .ok p := by
    intro p
    rw [hread]
    cases read t <;> simp [Except.mapError]
  refine ⟨⟨?_, ?_⟩, ?_, ?_⟩
  · rintro ⟨p, hp⟩
    obtain ⟨hobject, hfree, hspelled, -⟩ := of_read_eq_ok ht hrange ((hok p).1 hp)
    exact ⟨hobject, hfree, hspelled⟩
  · rintro ⟨hobject, hfree, hspelled⟩
    obtain ⟨p, hp⟩ := exists_read_eq_ok ht hdepth hrange hobject hfree hspelled
    exact ⟨p, (hok p).2 hp⟩
  · intro p hp
    exact (of_read_eq_ok ht hrange ((hok p).1 hp)).2.2.2
  · intro hspelled r hr
    have hother : x.value.isObject = false ∨ x.value.isArrayFree = false := by
      by_contra hneither
      rw [not_or, Bool.not_eq_false, Bool.not_eq_false] at hneither
      obtain ⟨p, hp⟩ := exists_read_eq_ok ht hdepth hrange hneither.1 hneither.2 hspelled
      rw [(hok p).2 hp] at hr
      cases hr
    have hfault := (Written.fault?_eq_none_iff x.value ht depthLimit).2
      ⟨hdepth, (Written.all_sound _).2 ⟨hrange, hspelled⟩⟩
    obtain ⟨m, place, hm⟩ := read_mismatch ht hfault hother
    rw [hread, hm] at hr
    cases hr
    exact ⟨m, rfl⟩

/-- an object in an object, under a key that comes twice, with a minus zero -/
theorem reading_exact_nested :
    let zero : NumeralText := ⟨true, .zero, fun _ => rfl, none, none⟩
    let inner : Written := .object .none [(.bare [.plain 'm' (by decide)], .bare (.numeral zero))]
    let x : Padded Written := .bare (.object .none
      [(.bare [.plain 'n' (by decide)], .bare .null), (.bare [.plain 'n' (by decide)], .bare inner)])
    x.chars = "\x7b\"n\":null,\"n\":\x7b\"m\":-0\x7d\x7d".toList ∧ x.value.depth ≤ 127 ∧ x.value.isInRange = true ∧
      ∃ p, ofJson x.chars = .ok p ∧ x.value.StandsFor (.map p.fields) := by
  refine ⟨by decide, by decide, by decide, ?_⟩
  obtain ⟨haccepted, hstands, -⟩ := reading_exact (.bare (.object .none
    [(.bare [.plain 'n' (by decide)], .bare .null), (.bare [.plain 'n' (by decide)], .bare (.object .none
      [(.bare [.plain 'm' (by decide)], .bare (.numeral ⟨true, .zero, fun _ => rfl, none, none⟩))]))]))
    (by decide) (by decide)
  obtain ⟨p, hp⟩ := haccepted.2 ⟨by decide, by decide, by decide⟩
  exact ⟨p, hp, hstands p hp⟩

/-- a surrogate without its partner is JSON that no string can hold: an object without arrays is refused for it, and not
for its kind -/
theorem lone_surrogate_refused :
    let x : Padded Written := .bare (.object .none
      [(.bare [.plain 'a' (by decide)], .bare (.text [.unit 'd' '8' '0' '0' 0xD800 rfl]))])
    x.chars = "\x7b\"a\":\"\\ud800\"\x7d".toList ∧ x.value.depth ≤ 127 ∧ x.value.isInRange = true ∧
      x.value.isObject = true ∧ x.value.isArrayFree = true ∧ x.value.isSpelled = false ∧
      ∃ place, ofJson x.chars = .error ⟨.fault .cutSurrogate, place⟩ :=
  ⟨by decide, by decide, by decide, by decide, by decide, by decide, _, rfl⟩

end Payload
end LogRelay
