/-
Reading the parts of a JSON text.

What is written before the rest of a text is read as it is written, and the rest is left. A numeral needs a rest that
does not go on with it: `Ends` says how a text can go on after a value.
- `readNumeral_append`: a numeral is read as it is written.
- `readText_closing`: a text in quotes is read as what its glyphs spell. Where a surrogate has no partner it is read to
  its end all the same, and refused (`Draft.Lonely.readText`).
-/
import LogRelay.Proofs.Json.Written

namespace LogRelay.Json

/-! ## Blanks -/

theorem skipBlanks_cons {c : Char} (h : isBlank c = false) (s : List Char) : skipBlanks (c :: s) = c :: s := by
  simp [skipBlanks, h]

theorem skipBlanks_cons_blank {c : Char} (h : isBlank c = true) (s : List Char) :
    skipBlanks (c :: s) = skipBlanks s := by
  simp [skipBlanks, h]

theorem skipBlanks_append (b : Blanks) (s : List Char) : skipBlanks (b.chars ++ s) = skipBlanks s := by
  obtain ⟨b, hb⟩ := b
  induction b with
  | nil => rfl
  | cons c b ih =>
    rw [List.cons_append, skipBlanks_cons_blank (hb c List.mem_cons_self)]
    exact ih fun d hd => hb d (List.mem_cons_of_mem c hd)

theorem skipBlanks_skipBlanks (s : List Char) : skipBlanks (skipBlanks s) = skipBlanks s := by
  induction s with
  | nil => rfl
  | cons c s ih =>
    cases h : isBlank c with
    | true => rw [skipBlanks_cons_blank h, ih]
    | false => rw [skipBlanks_cons h, skipBlanks_cons h]

/-- how a text can go on after a value -/
def Ends (r : List Char) : Prop := ∀ c, r.head? = some c → isBlank c = true ∨ c ∈ [',', ']', '}']

theorem ends_mark {c : Char} (h : c ∈ [',', ']', '}']) (r : List Char) : Ends (c :: r) := by
  intro d hd
  cases hd
  exact Or.inr h

theorem ends_blanks (b : Blanks) {r : List Char} (hr : Ends r) : Ends (b.chars ++ r) := by
  obtain ⟨b, hb⟩ := b
  cases b with
  | nil => exact hr
  | cons c cs =>
    intro d hd
    cases hd
    exact Or.inl (hb c List.mem_cons_self)

theorem ends_nil : Ends [] := by
  intro c hc
  cases hc

/-- a numeral does not go on with what follows a value -/
theorem Ends.cons {c : Char} {r : List Char} (h : Ends (c :: r)) :
    c.isDigit = false ∧ c ≠ '.' ∧ c ≠ 'e' ∧ c ≠ 'E' := by
  have hc := h c rfl
  simp only [isBlank, Bool.or_eq_true, decide_eq_true_eq, List.mem_cons, List.not_mem_nil, or_false, or_assoc] at hc
  rcases hc with rfl | rfl | rfl | rfl | rfl | rfl | rfl <;> decide

/-! ## Words -/

theorem readWord_append (w r : List Char) : readWord w (w ++ r) = .ok r := by
  induction w with
  | nil => cases r <;> rfl
  | cons c w ih => simpa [readWord] using ih

/-! ## Numerals -/

theorem readDigits_append {ds r : List Char} (hd : ∀ c ∈ ds, c.isDigit = true)
    (hr : ∀ c, r.head? = some c → c.isDigit = false) : readDigits (ds ++ r) = (ds.map digitValue, r) := by
  have htake : (ds ++ r).takeWhile Char.isDigit = ds ∧ (ds ++ r).dropWhile Char.isDigit = r := by
    induction ds with
    | nil =>
      cases r with
      | nil => exact ⟨rfl, rfl⟩
      | cons c r => simp [hr c rfl]
    | cons c ds ih =>
      have ih := ih fun d h => hd d (List.mem_cons_of_mem c h)
      have hc := hd c List.mem_cons_self
      simp [hc, ih]
  rw [readDigits, htake.1, htake.2]

theorem readFraction_append (f : Option Figures) {s : List Char}
    (hs : ∀ c, s.head? = some c → c.isDigit = false ∧ c ≠ '.') :
    readFraction ((f.elim [] fun f => '.' :: f.chars) ++ s) = .ok (f.map fun f => f.chars.map digitValue, s) := by
  cases f with
  | none =>
    show readFraction s = .ok (none, s)
    cases s with
    | nil => rfl
    | cons c s =>
      have hc := (hs c rfl).2
      unfold readFraction
      split
      · next heq => exact absurd (List.cons.inj heq).1 hc
      · rfl
  | some f =>
    obtain ⟨c, cs, hf, -⟩ := f.cons
    have hread := readDigits_append f.digits fun c hc => (hs c hc).1
    show readFraction ('.' :: (f.chars ++ s)) = .ok (some (f.chars.map digitValue), s)
    rw [readFraction, hread, hf]
    rfl

theorem readFigures_append (f : Figures) {r : List Char} (hr : Ends r) :
    readDigits (f.chars ++ r) = (f.chars.map digitValue, r) := by
  apply readDigits_append f.digits
  intro c hc
  cases r with
  | nil => cases hc
  | cons d r =>
    cases hc
    exact hr.cons.1

theorem readExponent_append (e : Option Exponent) {r : List Char} (hr : Ends r) :
    ∃ noticed, readExponent (e.elim [] Exponent.chars ++ r) =
      .ok ⟨e.map fun e => (e.sign == some true, e.figures.chars.map digitValue), noticed, r⟩ := by
  cases e with
  | none =>
    show ∃ noticed, readExponent r = .ok ⟨none, noticed, r⟩
    cases r with
    | nil => exact ⟨[], rfl⟩
    | cons c r =>
      obtain ⟨-, -, he, hE⟩ := hr.cons
      refine ⟨c :: r, ?_⟩
      simp [readExponent, he, hE]
  | some e =>
    obtain ⟨capital, sign, f⟩ := e
    obtain ⟨c, cs, hf, hc⟩ := f.cons
    have hread := readFigures_append f hr
    rw [hf, List.map_cons, List.cons_append] at hread
    have hmark : ((if capital then 'E' else 'e') = 'e' || (if capital then 'E' else 'e') = 'E') = true := by
      cases capital <;> rfl
    have hplus : c ≠ '+' := by
      rintro rfl
      exact absurd hc (by decide)
    have hminus : c ≠ '-' := by
      rintro rfl
      exact absurd hc (by decide)
    simp only [Option.elim_some, Option.map_some, Exponent.chars, List.cons_append, readExponent, hmark, if_true, hf]
    match sign with
    | none =>
      refine ⟨pastLimit 0 (c :: (cs ++ r)), ?_⟩
      -- the first digit is no sign
      simp [hplus, hminus, hread]
    | some true =>
      refine ⟨r, ?_⟩
      simp only [List.nil_append, List.cons_append, hread]
      rfl
    | some false =>
      refine ⟨pastLimit 0 (c :: (cs ++ r)), ?_⟩
      simp only [List.nil_append, List.cons_append, hread]
      rfl

/-- what follows the whole part of a numeral is no digit -/
theorem tail_head (n : NumeralText) {r : List Char} (hr : Ends r) :
    ∀ c, (n.tail ++ r).head? = some c → c.isDigit = false := by
  intro c hc
  unfold NumeralText.tail at hc
  cases hfraction : n.fraction with
  | some f =>
    rw [hfraction] at hc
    cases hc
    rfl
  | none =>
    cases hexponent : n.exponent with
    | some e =>
      rw [hfraction, hexponent] at hc
      cases hc
      cases e.capital <;> rfl
    | none =>
      rw [hfraction, hexponent] at hc
      cases r with
      | nil => cases hc
      | cons d r =>
        cases hc
        exact hr.cons.1

theorem exponent_head (e : Option Exponent) {r : List Char} (hr : Ends r) :
    ∀ c, (e.elim [] Exponent.chars ++ r).head? = some c → c.isDigit = false ∧ c ≠ '.' := by
  intro c hc
  cases e with
  | some e =>
    cases hc
    cases e.capital <;> decide
  | none =>
    cases r with
    | nil => cases hc
    | cons d r =>
      cases hc
      exact ⟨hr.cons.1, hr.cons.2.1⟩

theorem digit_eq_zero {c : Char} (h : c.isDigit = true) (hzero : digitValue c = 0) : c = '0' := by
  have hsmall : ∀ n < 10, digitValue (Nat.digitChar n) = 0 → Nat.digitChar n = '0' := by decide
  obtain ⟨n, hn, rfl⟩ := digit_cases h
  exact hsmall n hn hzero

theorem readNumeral_append (n : NumeralText) {r : List Char} (hr : Ends r) :
    ∃ noticed, readNumeral n.negative (n.whole.chars ++ (n.tail ++ r)) = .ok ⟨n.numeral, noticed, r⟩ := by
  obtain ⟨noticed, hexponent⟩ := readExponent_append n.exponent hr
  have hfraction := readFraction_append n.fraction (exponent_head n.exponent hr)
  have hwhole := readDigits_append n.whole.digits (tail_head n hr)
  obtain ⟨c, cs, hc, hdigit⟩ := n.whole.cons
  have hdigits : n.whole.chars.map digitValue = digitValue c :: cs.map digitValue := by rw [hc, List.map_cons]
  refine ⟨noticed, ?_⟩
  unfold readNumeral
  rw [hwhole, hdigits]
  split
  · next heq => cases heq
  · next heq =>
    -- a zero before other digits
    obtain ⟨hzero, hcs⟩ := List.cons.inj (Prod.mk.inj heq).1
    have hlead := n.lead (by rw [hc, digit_eq_zero hdigit hzero]; rfl)
    rw [hc] at hlead
    rw [(List.cons.inj hlead).2] at hcs
    cases hcs
  · next heq =>
    -- the fraction and the exponent are read whatever the digits before them are
    obtain ⟨rfl, rfl⟩ := Prod.mk.inj heq
    rw [← hdigits, NumeralText.tail, List.append_assoc, hfraction]
    simp only [bind, Except.bind, hexponent]
    unfold NumeralText.numeral
    cases n.fraction <;> cases n.exponent <;> rfl

/-! ## Texts in quotes -/

section Steps

variable (d : Draft) (gs : List Glyph) (r : List Char)

theorem readText_close : readText d ('"' :: r) = .ok ((d.settle ('"' :: r)).text, r) := by rw [readText]

theorem readText_plain {c : Char} (h : ' ' ≤ c ∧ c ≠ '"' ∧ c ≠ '\\') :
    readText d (Glyph.closing (.plain c h :: gs) ++ r) =
      readText ((d.settle (c :: (Glyph.closing gs ++ r))).push c) (Glyph.closing gs ++ r) := by
  show readText d (c :: (Glyph.closing gs ++ r)) = _
  rw [readText]
  · rw [if_neg (Char.not_lt.2 h.1)]
  all_goals
    intros
    simp_all

theorem readText_letter {e c : Char} (h : escaped? e = some c) :
    readText d (Glyph.closing (.letter e c h :: gs) ++ r) =
      readText ((d.settle (e :: (Glyph.closing gs ++ r))).push c) (Glyph.closing gs ++ r) := by
  have hu : e ≠ 'u' := by
    rintro rfl
    cases h
  show readText d ('\\' :: e :: (Glyph.closing gs ++ r)) = _
  rw [readText]
  · rw [h]
  all_goals
    intros
    simp_all

theorem readText_unit {h i j k : Char} {n : Nat} (hn : hex4? h i j k = some n) :
    readText d (Glyph.closing (.unit h i j k n hn :: gs) ++ r) =
      readText (d.unit n (Glyph.closing gs ++ r)) (Glyph.closing gs ++ r) := by
  show readText d ('\\' :: 'u' :: h :: i :: j :: k :: (Glyph.closing gs ++ r)) = _
  rw [readText, hn]

end Steps

/-- some surrogate went without a partner -/
def Draft.Lonely (d : Draft) : Prop := d.lone.isSome = true

theorem lonely_unpaired (d : Draft) (f : Fault) : (d.unpaired f).Lonely := by simp [Draft.Lonely, Draft.unpaired]

theorem Draft.Lonely.push {d : Draft} (hd : d.Lonely) (c : Char) : (d.push c).Lonely := hd

theorem Draft.Lonely.settle {d : Draft} (hd : d.Lonely) (s : List Char) : (d.settle s).Lonely := by
  unfold Draft.settle
  split
  · exact lonely_unpaired d _
  · exact hd

theorem Draft.Lonely.unit {d : Draft} (hd : d.Lonely) (n : Nat) (s : List Char) : (d.unit n s).Lonely := by
  unfold Draft.unit
  split
  · split
    · exact hd
    · exact lonely_unpaired d _
  · split_ifs
    · exact hd
    · exact lonely_unpaired d _
    · exact hd

/-- a text in which a surrogate went without a partner is read to its end, and refused -/
theorem Draft.Lonely.readText {d : Draft} (hd : d.Lonely) (gs : List Glyph) (r : List Char) :
    ∃ f, Json.readText d (Glyph.closing gs ++ r) = .ok (.error f, r) := by
  induction gs generalizing d with
  | nil =>
    obtain ⟨f, hf⟩ := Option.isSome_iff_exists.1 (hd.settle ('"' :: r))
    refine ⟨f, ?_⟩
    show Json.readText d ('"' :: r) = _
    rw [readText_close, Draft.text, hf]
  | cons g gs ih =>
    cases g with
    | plain c h => rw [readText_plain]; exact ih ((hd.settle _).push c)
    | letter e c h => rw [readText_letter]; exact ih ((hd.settle _).push c)
    | unit h i j k n hn => rw [readText_unit]; exact ih (hd.unit n _)

/-- what is read of a text in quotes that goes on to spell `cs`, after the characters of `d` -/
def Draft.Reads (d : Draft) (cs : Option (List Char)) (r : List Char)
    (x : Except Break (Except Fault String × List Char)) : Prop :=
  match cs with
  | some cs => x = .ok (.ok (String.ofList (d.chars.reverse ++ cs)), r)
  | none => ∃ f, x = .ok (.error f, r)

theorem Draft.Reads.of_push {d : Draft} {c : Char} {cs : Option (List Char)} {r : List Char}
    {x : Except Break (Except Fault String × List Char)} (h : (d.push c).Reads cs r x) :
    d.Reads (cs.map (c :: ·)) r x := by
  cases cs with
  | none => exact h
  | some cs => simpa [Draft.Reads, Draft.push] using h

theorem settle_of_leading {d : Draft} (h : d.leading = none) (s : List Char) : d.settle s = d := by
  simp [Draft.settle, h]

/-- a leading surrogate waits for its partner -/
theorem unit_of_high {d : Draft} (h : d.leading = none) {n : Nat} (hn : isHighSurrogate n = true) (s : List Char) :
    d.unit n s = { d with leading := some n } := by
  simp [Draft.unit, h, hn]

/-- a text between quotes is read as what its glyphs spell, and refused when they spell nothing -/
theorem readText_closing (gs : List Glyph) {d : Draft} (hlead : d.leading = none) (hlone : d.lone = none)
    (r : List Char) : d.Reads (Glyph.decode? gs) r (readText d (Glyph.closing gs ++ r)) := by
  fun_induction Glyph.decode? gs generalizing d with
  | case1 =>
    show readText d ('"' :: r) = _
    rw [readText_close, settle_of_leading hlead, Draft.text, hlone, List.append_nil]
  | case2 c h gs ih =>
    rw [readText_plain, settle_of_leading hlead]
    exact .of_push (ih hlead hlone)
  | case3 e c h gs ih =>
    rw [readText_letter, settle_of_leading hlead]
    exact .of_push (ih hlead hlone)
  | case4 h i j k n hn hhigh h' i' j' k' m hm gs hlow ih =>
    -- a leading surrogate and its partner
    have hpair : ∀ s, ({ d with leading := some n } : Draft).unit m s = d.push (Glyph.paired n m) := by
      intro s
      simp [Draft.unit, hlow, Draft.push, hlead, Glyph.paired]
    rw [readText_unit, unit_of_high hlead hhigh, readText_unit, hpair]
    exact .of_push (ih hlead hlone)
  | case5 h i j k n hn hhigh h' i' j' k' m hm gs hlow =>
    -- a leading surrogate before another unit
    have halone : ∀ s, (({ d with leading := some n } : Draft).unit m s).Lonely := by
      intro s
      simp [Draft.unit, hlow, lonely_unpaired]
    rw [readText_unit, unit_of_high hlead hhigh, readText_unit]
    exact (halone _).readText gs r
  | case6 h i j k n hn gs hhigh hother =>
    -- a leading surrogate before something else
    have halone : ∀ s, (({ d with leading := some n } : Draft).settle s).Lonely := by
      intro s
      simp [Draft.settle, lonely_unpaired]
    rw [readText_unit, unit_of_high hlead hhigh]
    cases gs with
    | nil =>
      obtain ⟨f, hf⟩ := Option.isSome_iff_exists.1 (halone ('"' :: r))
      refine ⟨f, ?_⟩
      show readText _ ('"' :: r) = _
      rw [readText_close, Draft.text, hf]
    | cons g gs =>
      cases g with
      | plain c hc =>
        rw [readText_plain]
        exact ((halone _).push c).readText gs r
      | letter e c hc =>
        rw [readText_letter]
        exact ((halone _).push c).readText gs r
      | unit h' i' j' k' m hm => exact (hother h' i' j' k' m hm gs rfl).elim
  | case7 h i j k n hn gs hhigh hlow =>
    -- the partner of no leading surrogate
    have halone : ∀ s, (d.unit n s).Lonely := by
      intro s
      simp [Draft.unit, hlead, hhigh, hlow, lonely_unpaired]
    rw [readText_unit]
    exact (halone _).readText gs r
  | case8 h i j k n hn gs hhigh hlow ih =>
    have hpush : ∀ s, d.unit n s = d.push (Char.ofNat n) := by
      intro s
      simp [Draft.unit, hlead, hhigh, hlow]
    rw [readText_unit, hpush]
    exact .of_push (ih hlead hlone)

end LogRelay.Json
