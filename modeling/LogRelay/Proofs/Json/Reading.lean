/-
Reading what is written.

Every JSON text is read as its value is written, wherever the value stands and whatever follows it: `Written.ReadAs`
says which trees a value can be read as. They differ in their places only, so a reader that gives the same for all of
them gives that for the text.
- `Written.readValue_chars`, with `readItems_chars` and `readEntries_chars`: values, items and entries, by induction on
  the value.
- `Written.gap_eq_none`: what is written is never refused where it is passed over.
- `ofText_chars_eq`, `ofText_chars`: what every tree of a value gives is what its text gives.
-/
import LogRelay.Json.Decode
import LogRelay.Proofs.Json.Tokens

namespace LogRelay.Json

/-! ## Values -/

/-- what a key as written is read as -/
def KeyReadAs (gs : List Glyph) (k : Key) : Prop :=
  match Glyph.string? gs with
  | some s => k.text = .ok s
  | none => ∃ f, k.text = .error f

theorem KeyReadAs.toOption_text {gs : List Glyph} {k : Key} (h : KeyReadAs gs k) :
    k.text.toOption = Glyph.string? gs := by
  unfold KeyReadAs at h
  cases hgs : Glyph.string? gs with
  | some s =>
    rw [hgs] at h
    rw [h]
    rfl
  | none =>
    rw [hgs] at h
    obtain ⟨f, hf⟩ := h
    rw [hf]
    rfl

namespace Written

mutual

/-- what a value as written is read as, wherever it stands in a text -/
def ReadAs : Written → Tree → Prop
  | null, t => ∃ e, t = .scalar .null e
  | bool b, t => ∃ e, t = .scalar (.bool b) e
  | numeral n, t =>
    match n.numeral.number? with
    | some v => ∃ e, t = .scalar (.number v) e
    | none => ∃ f, t = .flawed f
  | text gs, t =>
    match Glyph.string? gs with
    | some s => ∃ e, t = .scalar (.text s) e
    | none => ∃ f, t = .flawed f
  | array _ items, t => ∃ e ts, t = .array e ts none ∧ ItemsReadAs items ts
  | object _ entries, t => ∃ e es, t = .object e es none ∧ EntriesReadAs entries es

/-- what the items of an array are read as -/
def ItemsReadAs : List (Padded Written) → List Tree → Prop
  | [], ts => ts = []
  | ⟨_, v, _⟩ :: is, ts => ∃ t ts', ts = t :: ts' ∧ v.ReadAs t ∧ ItemsReadAs is ts'

/-- what the entries of an object are read as -/
def EntriesReadAs : List (Padded (List Glyph) × Padded Written) → List (Key × Tree) → Prop
  | [], ts => ts = []
  | (⟨_, k, _⟩, ⟨_, v, _⟩) :: es, ts =>
    ∃ key t ts', ts = (key, t) :: ts' ∧ KeyReadAs k key ∧ v.ReadAs t ∧ EntriesReadAs es ts'

end

end Written

/-- blanks before a value do not matter -/
theorem readValue_skipBlanks (fuel : Nat) (s : List Char) :
    readValue (fuel + 1) (skipBlanks s) = readValue (fuel + 1) s := by
  rw [readValue, readValue, skipBlanks_skipBlanks]

theorem readEntries_skipBlanks (fuel : Nat) (s : List Char) :
    readEntries (fuel + 1) (skipBlanks s) = readEntries (fuel + 1) s := by
  rw [readEntries, readEntries, skipBlanks_skipBlanks]

theorem readItems_skipBlanks (fuel : Nat) (s : List Char) :
    readItems (fuel + 2) (skipBlanks s) = readItems (fuel + 2) s := by
  rw [readItems, readItems, readValue_skipBlanks]

section Scalars

variable (fuel : Nat) {r : List Char}

theorem readValue_word (v : Scalar) (start w r : List Char) :
    readValue.word v start w (w ++ r) = (.scalar v ⟨start, r⟩, some r) := by
  simp only [readValue.word, readWord_append]

theorem readValue_null :
    ∃ t, readValue (fuel + 1) (Written.null.chars ++ r) = (t, some r) ∧ Written.null.ReadAs t := by
  refine ⟨.scalar .null ⟨"null".toList ++ r, r⟩, ?_, by simp [Written.ReadAs]⟩
  show readValue (fuel + 1) ('n' :: ("ull".toList ++ r)) = _
  rw [readValue, skipBlanks_cons (by decide)]
  exact readValue_word .null _ "ull".toList r

theorem readValue_bool (b : Bool) :
    ∃ t, readValue (fuel + 1) ((Written.bool b).chars ++ r) = (t, some r) ∧ (Written.bool b).ReadAs t := by
  cases b with
  | true =>
    refine ⟨.scalar (.bool true) ⟨"true".toList ++ r, r⟩, ?_, by simp [Written.ReadAs]⟩
    show readValue (fuel + 1) ('t' :: ("rue".toList ++ r)) = _
    rw [readValue, skipBlanks_cons (by decide)]
    exact readValue_word (.bool true) _ "rue".toList r
  | false =>
    refine ⟨.scalar (.bool false) ⟨"false".toList ++ r, r⟩, ?_, by simp [Written.ReadAs]⟩
    show readValue (fuel + 1) ('f' :: ("alse".toList ++ r)) = _
    rw [readValue, skipBlanks_cons (by decide)]
    exact readValue_word (.bool false) _ "alse".toList r

theorem readValue_minus (s : List Char) :
    readValue (fuel + 1) ('-' :: s) = readValue.numeral true ('-' :: s) s := by
  rw [readValue, skipBlanks_cons (by decide)]
  rfl

theorem readValue_digit {c : Char} (hc : c.isDigit = true) (s : List Char) :
    readValue (fuel + 1) (c :: s) = readValue.numeral false (c :: s) (c :: s) := by
  have hblank : isBlank c = false := by
    have hsmall : ∀ n < 10, isBlank (Nat.digitChar n) = false := by decide
    obtain ⟨n, hn, rfl⟩ := digit_cases hc
    exact hsmall n hn
  rw [readValue, skipBlanks_cons hblank]
  split
  case h_9 heq =>
    cases heq
    rw [if_pos hc]
  case h_1 heq => cases heq
  -- no other beginning is a digit
  all_goals
    next heq =>
    cases heq
    exact absurd hc (by decide)

theorem readValue_numeral (n : NumeralText) (hr : Ends r) :
    ∃ t, readValue (fuel + 1) ((Written.numeral n).chars ++ r) = (t, some r) ∧ (Written.numeral n).ReadAs t := by
  obtain ⟨noticed, hread⟩ := readNumeral_append n hr
  -- the sign is taken off, and the rest is read as a numeral
  have hstart : ∃ start, readValue (fuel + 1) (n.chars ++ r) =
      readValue.numeral n.negative start (n.whole.chars ++ (n.tail ++ r)) := by
    obtain ⟨c, cs, hc, hdigit⟩ := n.whole.cons
    unfold NumeralText.chars
    cases n.negative with
    | true => exact ⟨_, by simpa using readValue_minus fuel _⟩
    | false => exact ⟨_, by simpa [hc] using readValue_digit fuel hdigit _⟩
  obtain ⟨start, hstart⟩ := hstart
  rw [Written.chars, hstart, readValue.numeral, hread]
  cases hnumber : n.numeral.number? with
  | none => exact ⟨.flawed (.here .hugeNumeral noticed), by simp only [hnumber], by simp [Written.ReadAs, hnumber]⟩
  | some v => exact ⟨.scalar (.number v) ⟨start, r⟩, by simp only [hnumber], by simp [Written.ReadAs, hnumber]⟩

theorem readText_key (gs : List Glyph) (r : List Char) :
    ∃ text, readText {} (Glyph.closing gs ++ r) = .ok (text, r) ∧ KeyReadAs gs ⟨text, r⟩ := by
  have hread := readText_closing gs (d := {}) rfl rfl r
  unfold KeyReadAs Glyph.string?
  cases hgs : Glyph.decode? gs with
  | none =>
    rw [hgs] at hread
    obtain ⟨f, hf⟩ := hread
    exact ⟨.error f, hf, f, rfl⟩
  | some cs =>
    rw [hgs] at hread
    exact ⟨.ok (String.ofList cs), hread, rfl⟩

theorem readValue_text (gs : List Glyph) :
    ∃ t, readValue (fuel + 1) ((Written.text gs).chars ++ r) = (t, some r) ∧ (Written.text gs).ReadAs t := by
  obtain ⟨text, hread, htext⟩ := readText_key gs r
  unfold KeyReadAs at htext
  rw [Written.chars, quotedGlyphs, List.cons_append, readValue, skipBlanks_cons (by decide)]
  simp only [hread, Written.ReadAs]
  cases hgs : Glyph.string? gs with
  | none =>
    rw [hgs] at htext
    obtain ⟨f, rfl⟩ := htext
    exact ⟨_, rfl, f, rfl⟩
  | some s =>
    rw [hgs] at htext
    cases htext
    exact ⟨_, rfl, _, rfl⟩

end Scalars

/-! ### Containers -/

section Containers

variable {fuel : Nat}

theorem readValue_blanks (b : Blanks) (s : List Char) :
    readValue (fuel + 1) (b.chars ++ s) = readValue (fuel + 1) s := by
  rw [← readValue_skipBlanks, skipBlanks_append, readValue_skipBlanks]

theorem readValue_emptyArray (b : Blanks) (r : List Char) :
    readValue (fuel + 1) ('[' :: (b.chars ++ ']' :: r)) =
      (.array ⟨'[' :: (b.chars ++ ']' :: r), r⟩ [] none, some r) := by
  rw [readValue, skipBlanks_cons (by decide)]
  simp only [skipBlanks_append, skipBlanks_cons (show isBlank ']' = false by decide)]

theorem readValue_emptyObject (b : Blanks) (r : List Char) :
    readValue (fuel + 1) ('{' :: (b.chars ++ '}' :: r)) =
      (.object ⟨'{' :: (b.chars ++ '}' :: r), r⟩ [] none, some r) := by
  rw [readValue, skipBlanks_cons (by decide)]
  simp only [skipBlanks_append, skipBlanks_cons (show isBlank '}' = false by decide)]

theorem readValue_array {s r : List Char} {c : Char} {cs : List Char} {ts : List Tree}
    (hs : skipBlanks s = c :: cs) (hc : c ≠ ']') (hts : readItems (fuel + 2) s = (ts, none, some r)) :
    readValue (fuel + 3) ('[' :: s) = (.array ⟨'[' :: s, r⟩ ts none, some r) := by
  rw [readValue, skipBlanks_cons (by decide)]
  rw [← readItems_skipBlanks, hs] at hts
  simp only [hs]
  split
  · next heq => cases heq
  · next heq => exact absurd (List.cons.inj heq).1 hc
  · rw [hts]
    rfl

theorem readValue_object {s r : List Char} {c : Char} {cs : List Char} {es : List (Key × Tree)}
    (hs : skipBlanks s = c :: cs) (hc : c ≠ '}') (hes : readEntries (fuel + 1) s = (es, none, some r)) :
    readValue (fuel + 2) ('{' :: s) = (.object ⟨'{' :: s, r⟩ es none, some r) := by
  rw [readValue, skipBlanks_cons (by decide)]
  rw [← readEntries_skipBlanks, hs] at hes
  simp only [hs]
  split
  · next heq => cases heq
  · next heq => exact absurd (List.cons.inj heq).1 hc
  · rw [hes]
    rfl

variable {s r q : List Char} {t : Tree}

theorem readItems_last (hv : readValue fuel s = (t, some r)) (hr : skipBlanks r = ']' :: q) :
    readItems (fuel + 1) s = ([t], none, some q) := by
  rw [readItems, hv]
  simp only [hr]

theorem readItems_cons {ts : List Tree} {rest c cs : _} (hv : readValue (fuel + 2) s = (t, some r))
    (hr : skipBlanks r = ',' :: q) (hq : skipBlanks q = c :: cs) (hc : c ≠ ']')
    (hts : readItems (fuel + 2) q = (ts, none, some rest)) :
    readItems (fuel + 3) s = (t :: ts, none, some rest) := by
  rw [readItems, hv]
  rw [← readItems_skipBlanks, hq] at hts
  simp only [hr, hq]
  split
  · next heq => exact absurd (List.cons.inj heq).1 hc
  · rw [hts]

variable {text : Except Fault String} {p : List Char}

theorem readEntries_last (hs : skipBlanks s = '"' :: p) (hk : readText {} p = .ok (text, q))
    {v : List Char} (hq : skipBlanks q = ':' :: v) (hv : readValue fuel v = (t, some r))
    {rest : List Char} (hr : skipBlanks r = '}' :: rest) :
    readEntries (fuel + 1) s = ([(⟨text, q⟩, t)], none, some rest) := by
  rw [readEntries, hs]
  simp only [hk, hq, hv, hr]

theorem readEntries_cons (hs : skipBlanks s = '"' :: p) (hk : readText {} p = .ok (text, q))
    {v : List Char} (hq : skipBlanks q = ':' :: v) (hv : readValue fuel v = (t, some r))
    {more rest : List Char} (hr : skipBlanks r = ',' :: more) {es : List (Key × Tree)}
    (hes : readEntries fuel more = (es, none, some rest)) :
    readEntries (fuel + 1) s = ((⟨text, q⟩, t) :: es, none, some rest) := by
  rw [readEntries, hs]
  simp only [hk, hq, hv, hr, hes]

end Containers

namespace Written

theorem skipBlanks_charsOfItems (i : Padded Written) (is : List (Padded Written)) (s : List Char) :
    ∃ c cs, skipBlanks (charsOfItems (i :: is) ++ s) = c :: cs ∧ c ≠ ']' := by
  obtain ⟨b, v, a⟩ := i
  obtain ⟨c, cs, hv, hblank, hmark⟩ := v.exists_head
  have hne : c ≠ ']' := by
    rintro rfl
    simp at hmark
  cases is with
  | nil =>
    rw [lastItem_append, skipBlanks_append, hv]
    exact ⟨c, _, skipBlanks_cons hblank _, hne⟩
  | cons i is =>
    rw [item_append, skipBlanks_append, hv]
    exact ⟨c, _, skipBlanks_cons hblank _, hne⟩

theorem skipBlanks_charsOfEntries (e : Entry) (es : List Entry) (s : List Char) :
    ∃ cs, skipBlanks (charsOfEntries (e :: es) ++ s) = '"' :: cs := by
  obtain ⟨⟨b, k, a⟩, ⟨b', v, a'⟩⟩ := e
  cases es with
  | nil =>
    rw [lastEntry_append, skipBlanks_append]
    exact ⟨_, skipBlanks_cons (by decide) _⟩
  | cons e es =>
    rw [entry_append, skipBlanks_append]
    exact ⟨_, skipBlanks_cons (by decide) _⟩

mutual

/-- a value is read as it is written, and what follows it is left -/
theorem readValue_chars (v : Written) (fuel : Nat) (hfuel : 2 * v.chars.length ≤ fuel + 2) {r : List Char}
    (hr : Ends r) : ∃ t, readValue (fuel + 2) (v.chars ++ r) = (t, some r) ∧ v.ReadAs t := by
  match v, hfuel with
  | .null, _ => exact readValue_null _
  | .bool b, _ => exact readValue_bool _ b
  | .numeral n, _ => exact readValue_numeral _ n hr
  | .text gs, _ => exact readValue_text _ gs
  | .array inside [], _ =>
    rw [array_chars_append]
    exact ⟨_, readValue_emptyArray inside r, by simp [ReadAs, ItemsReadAs]⟩
  | .array inside (i :: is), hfuel =>
    have hlength := congrArg List.length (array_chars_append inside [] (i :: is))
    simp only [List.append_nil, List.length_cons, List.length_append, List.length_nil] at hlength
    obtain ⟨fuel, rfl⟩ : ∃ k, fuel = k + 1 := ⟨fuel - 1, by omega⟩
    obtain ⟨ts, hread, hts⟩ := readItems_chars i is (fuel + 2) (by omega) r
    obtain ⟨c, cs, hhead, hc⟩ := skipBlanks_charsOfItems i is (']' :: r)
    rw [← readItems_skipBlanks, ← skipBlanks_append inside, readItems_skipBlanks] at hread
    rw [← skipBlanks_append inside] at hhead
    rw [array_chars_append]
    exact ⟨_, readValue_array hhead hc hread, by simpa [ReadAs] using hts⟩
  | .object inside [], _ =>
    rw [object_chars_append]
    exact ⟨_, readValue_emptyObject inside r, by simp [ReadAs, EntriesReadAs]⟩
  | .object inside (e :: es), hfuel =>
    have hlength := congrArg List.length (object_chars_append inside [] (e :: es))
    simp only [List.append_nil, List.length_cons, List.length_append, List.length_nil] at hlength
    obtain ⟨es', hread, hes⟩ := readEntries_chars e es (fuel + 1) (by omega) r
    obtain ⟨cs, hhead⟩ := skipBlanks_charsOfEntries e es ('}' :: r)
    rw [← readEntries_skipBlanks, ← skipBlanks_append inside, readEntries_skipBlanks] at hread
    rw [← skipBlanks_append inside] at hhead
    rw [object_chars_append]
    exact ⟨_, readValue_object hhead (by decide) hread, by simpa [ReadAs] using hes⟩
termination_by sizeOf v

theorem readItems_chars (i : Padded Written) (is : List (Padded Written)) (fuel : Nat)
    (hfuel : 2 * (charsOfItems (i :: is)).length < fuel) (r : List Char) :
    ∃ ts, readItems fuel (charsOfItems (i :: is) ++ ']' :: r) = (ts, none, some r) ∧ ItemsReadAs (i :: is) ts := by
  match i, is, hfuel with
  | ⟨b, v, a⟩, [], hfuel =>
    have hlength := congrArg List.length (lastItem_append b a v [])
    simp only [List.append_nil, List.length_append] at hlength
    have hpos := v.length_chars_pos
    obtain ⟨fuel, rfl⟩ : ∃ k, fuel = k + 3 := ⟨fuel - 3, by omega⟩
    obtain ⟨t, hread, ht⟩ := readValue_chars v fuel (by omega)
      (ends_blanks a (ends_mark (c := ']') (by decide) r))
    rw [← readValue_blanks b] at hread
    have hclose := (skipBlanks_append a (']' :: r)).trans (skipBlanks_cons (by decide) r)
    rw [lastItem_append]
    exact ⟨[t], readItems_last hread hclose, by simpa [ItemsReadAs] using ht⟩
  | ⟨b, v, a⟩, i :: is, hfuel =>
    have hlength := congrArg List.length (item_append b a v [] i is)
    simp only [List.append_nil, List.length_append, List.length_cons] at hlength
    have hpos := v.length_chars_pos
    obtain ⟨fuel, rfl⟩ : ∃ k, fuel = k + 3 := ⟨fuel - 3, by omega⟩
    obtain ⟨t, hread, ht⟩ := readValue_chars v fuel (by omega)
      (ends_blanks a (ends_mark (c := ',') (by decide) (charsOfItems (i :: is) ++ ']' :: r)))
    obtain ⟨ts, hreads, hts⟩ := readItems_chars i is (fuel + 2) (by omega) r
    obtain ⟨c, cs, hhead, hc⟩ := skipBlanks_charsOfItems i is (']' :: r)
    rw [← readValue_blanks b] at hread
    have hcomma := fun s => (skipBlanks_append a (',' :: s)).trans (skipBlanks_cons (by decide) s)
    rw [item_append]
    exact ⟨t :: ts, readItems_cons hread (hcomma _) hhead hc hreads, by rw [ItemsReadAs]; exact ⟨t, ts, rfl, ht, hts⟩⟩
termination_by sizeOf (i :: is)

theorem readEntries_chars (e : Entry) (es : List Entry) (fuel : Nat)
    (hfuel : 2 * (charsOfEntries (e :: es)).length < fuel) (r : List Char) :
    ∃ ts, readEntries fuel (charsOfEntries (e :: es) ++ '}' :: r) = (ts, none, some r) ∧
      EntriesReadAs (e :: es) ts := by
  match e, es, hfuel with
  | (⟨b, k, a⟩, ⟨b', v, a'⟩), [], hfuel =>
    have hlength := congrArg List.length (lastEntry_append b b' a a' v k [])
    simp only [List.append_nil, List.length_append, List.length_cons] at hlength
    have hpos := v.length_chars_pos
    obtain ⟨fuel, rfl⟩ : ∃ k, fuel = k + 3 := ⟨fuel - 3, by omega⟩
    obtain ⟨t, hread, ht⟩ := readValue_chars v fuel (by omega)
      (ends_blanks a' (ends_mark (c := '}') (by decide) r))
    rw [← readValue_blanks b'] at hread
    obtain ⟨text, hkey, htext⟩ := readText_key k (a.chars ++ ':' :: (b'.chars ++ (v.chars ++ (a'.chars ++ '}' :: r))))
    have hquote := fun s => (skipBlanks_append b ('"' :: s)).trans (skipBlanks_cons (by decide) s)
    have hcolon := fun s => (skipBlanks_append a (':' :: s)).trans (skipBlanks_cons (by decide) s)
    have hclose := (skipBlanks_append a' ('}' :: r)).trans (skipBlanks_cons (by decide) r)
    rw [lastEntry_append]
    exact ⟨_, readEntries_last (hquote _) hkey (hcolon _) hread hclose,
      by rw [EntriesReadAs]; exact ⟨_, _, _, rfl, htext, ht, by rw [EntriesReadAs]⟩⟩
  | (⟨b, k, a⟩, ⟨b', v, a'⟩), e :: es, hfuel =>
    have hlength := congrArg List.length (entry_append b b' a a' v k [] e es)
    simp only [List.append_nil, List.length_append, List.length_cons] at hlength
    have hpos := v.length_chars_pos
    obtain ⟨fuel, rfl⟩ : ∃ k, fuel = k + 3 := ⟨fuel - 3, by omega⟩
    obtain ⟨t, hread, ht⟩ := readValue_chars v fuel (by omega)
      (ends_blanks a' (ends_mark (c := ',') (by decide) (charsOfEntries (e :: es) ++ '}' :: r)))
    rw [← readValue_blanks b'] at hread
    obtain ⟨text, hkey, htext⟩ := readText_key k
      (a.chars ++ ':' :: (b'.chars ++ (v.chars ++ (a'.chars ++ ',' :: (charsOfEntries (e :: es) ++ '}' :: r)))))
    obtain ⟨ts, hreads, hts⟩ := readEntries_chars e es (fuel + 2) (by omega) r
    have hquote := fun s => (skipBlanks_append b ('"' :: s)).trans (skipBlanks_cons (by decide) s)
    have hcolon := fun s => (skipBlanks_append a (':' :: s)).trans (skipBlanks_cons (by decide) s)
    have hcomma := fun s => (skipBlanks_append a' (',' :: s)).trans (skipBlanks_cons (by decide) s)
    rw [entry_append]
    exact ⟨_, readEntries_cons (hquote _) hkey (hcolon _) hread (hcomma _) hreads,
      by rw [EntriesReadAs]; exact ⟨_, _, _, rfl, htext, ht, hts⟩⟩
termination_by sizeOf (e :: es)

end

/-- only an object is read as an object -/
theorem object_of_readAs {v : Written} {e : Extent} {ts : List (Json.Key × Tree)} {stop : Option Break}
    (h : v.ReadAs (.object e ts stop)) :
    ∃ inside entries, v = .object inside entries ∧ stop = none ∧ EntriesReadAs entries ts := by
  cases v with
  | object inside entries =>
    rw [ReadAs] at h
    obtain ⟨_, _, heq, hts⟩ := h
    cases heq
    exact ⟨inside, entries, rfl, rfl, hts⟩
  | numeral n =>
    rw [ReadAs] at h
    split at h <;> obtain ⟨_, heq⟩ := h <;> cases heq
  | text gs =>
    rw [ReadAs] at h
    split at h <;> obtain ⟨_, heq⟩ := h <;> cases heq
  | array inside items =>
    rw [ReadAs] at h
    obtain ⟨_, _, heq, -⟩ := h
    cases heq
  | _ =>
    rw [ReadAs] at h
    obtain ⟨_, heq⟩ := h
    cases heq

/-! ### Whole texts -/

mutual

/-- nothing is wrong with a value as written that is passed over -/
theorem gap_eq_none (v : Written) {t : Tree} (h : v.ReadAs t) : t.gap? = none := by
  match v with
  | .null =>
    obtain ⟨e, rfl⟩ := h
    rw [Tree.gap?]
  | .bool b =>
    obtain ⟨e, rfl⟩ := h
    rw [Tree.gap?]
  | .numeral n =>
    rw [ReadAs] at h
    split at h
    · obtain ⟨e, rfl⟩ := h
      rw [Tree.gap?]
    · obtain ⟨f, rfl⟩ := h
      rw [Tree.gap?]
  | .text gs =>
    rw [ReadAs] at h
    split at h
    · obtain ⟨e, rfl⟩ := h
      rw [Tree.gap?]
    · obtain ⟨f, rfl⟩ := h
      rw [Tree.gap?]
  | .array inside items =>
    rw [ReadAs] at h
    obtain ⟨e, ts, rfl, hts⟩ := h
    rw [Tree.gap?, gapOfItems_eq_none items hts]
    rfl
  | .object inside entries =>
    rw [ReadAs] at h
    obtain ⟨e, ts, rfl, hts⟩ := h
    rw [Tree.gap?, gapOfEntries_eq_none entries hts]
    rfl

theorem gapOfItems_eq_none (is : List (Padded Written)) {ts : List Tree} (h : ItemsReadAs is ts) :
    Tree.gapOfItems? ts = none := by
  match is with
  | [] =>
    rw [ItemsReadAs] at h
    rw [h, Tree.gapOfItems?]
  | ⟨b, v, a⟩ :: is =>
    rw [ItemsReadAs] at h
    obtain ⟨t, ts, rfl, ht, hts⟩ := h
    rw [Tree.gapOfItems?, gap_eq_none v ht, gapOfItems_eq_none is hts]
    rfl

theorem gapOfEntries_eq_none (es : List Entry) {ts : List (Key × Tree)} (h : EntriesReadAs es ts) :
    Tree.gapOfEntries? ts = none := by
  match es with
  | [] =>
    rw [EntriesReadAs] at h
    rw [h, Tree.gapOfEntries?]
  | (⟨b, k, a⟩, ⟨b', v, a'⟩) :: es =>
    rw [EntriesReadAs] at h
    obtain ⟨key, t, ts, rfl, -, ht, hts⟩ := h
    rw [Tree.gapOfEntries?, gap_eq_none v ht, gapOfEntries_eq_none es hts]
    rfl

end

end Written

/-- a JSON text is read as its value is, and nothing follows that -/
theorem read_chars (x : Padded Written) :
    ∃ t, (Document.read x.chars).tree = t ∧ (Document.read x.chars).trailing? = none ∧ x.value.ReadAs t := by
  obtain ⟨b, v, a⟩ := x
  have hpos := v.length_chars_pos
  have hends : Ends a.chars := by simpa using ends_blanks a ends_nil
  have hlength : v.chars.length ≤ (Padded.chars ⟨b, v, a⟩).length := by simp [Padded.chars]; omega
  obtain ⟨fuel, hfuel⟩ : ∃ k, 2 * (Padded.chars ⟨b, v, a⟩).length + 1 = k + 2 :=
    ⟨2 * (Padded.chars ⟨b, v, a⟩).length - 1, by omega⟩
  obtain ⟨t, hread, ht⟩ := v.readValue_chars fuel (by omega) hends
  have hdocument : Document.read (Padded.chars ⟨b, v, a⟩) = ⟨t, some a.chars⟩ := by
    rw [Document.read, hfuel, Padded.chars, readValue_blanks, hread]
  have hafter : skipBlanks a.chars = [] := by
    rw [← List.append_nil a.chars, skipBlanks_append]
    rfl
  rw [hdocument]
  exact ⟨t, rfl, by simp [Document.trailing?, hafter], ht⟩

/-- two ways to write one text are read as one tree -/
theorem exists_readAs {x y : Padded Written} (h : x.chars = y.chars) : ∃ t, x.value.ReadAs t ∧ y.value.ReadAs t := by
  obtain ⟨t, htree, -, hx⟩ := read_chars x
  obtain ⟨u, hutree, -, hy⟩ := read_chars y
  rw [h, hutree] at htree
  subst htree
  exact ⟨u, hx, hy⟩

/-- a JSON text gives what a tree of its value gives, and refuses what that refuses -/
theorem ofText_chars_eq {α : Type} (read : Tree → Except Objection α) (x : Padded Written) :
    ∃ t, x.value.ReadAs t ∧ ofText read x.chars = (read t).mapError (·.refusal x.chars) := by
  obtain ⟨t, htree, htrailing, ht⟩ := read_chars x
  refine ⟨t, ht, ?_⟩
  unfold ofText
  simp only [htree, htrailing]
  cases read t <;> rfl

/-- what every tree of a value gives is what its text gives -/
theorem ofText_chars {α : Type} {read : Tree → Except Objection α} {x : Padded Written} {a : α}
    (h : ∀ t, x.value.ReadAs t → read t = .ok a) : ofText read x.chars = .ok a := by
  obtain ⟨t, ht, htext⟩ := ofText_chars_eq read x
  rw [htext, h t ht]
  rfl

/-- a text gives what its tree gives, if nothing but blanks follows the value -/
theorem ofText_eq_ok_iff {α : Type} {read : Tree → Except Objection α} {s : List Char} {a : α} :
    ofText read s = .ok a ↔ read (Document.read s).tree = .ok a ∧ (Document.read s).trailing? = none := by
  unfold ofText
  simp only
  constructor
  · intro h
    split at h
    · cases h
    · cases h
    · next hread htrailing =>
      cases h
      exact ⟨hread, htrailing⟩
  · rintro ⟨hread, htrailing⟩
    rw [hread, htrailing]

/-- what a text gives its tree gives -/
theorem ofText_eq_ok {α : Type} {read : Tree → Except Objection α} {s : List Char} {a : α}
    (h : ofText read s = .ok a) : read (Document.read s).tree = .ok a :=
  (ofText_eq_ok_iff.1 h).1

end LogRelay.Json
