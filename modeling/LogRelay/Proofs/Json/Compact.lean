/-
The compact JSON that is put down here, as written JSON.

Whatever is put down has one written form for each of its parts: the quoted text of a string spells that string, and the
digits of a number are a numeral of that number. So what holds of every written text holds of what is put down.
- `exists_quoted`: a text in quotes spells the text.
- `exists_digits`, `exists_natural`: the digits of a number are a numeral of it.
- `number?_of_natural`, `number?_of_negative`: the number a numeral stands for, when it has a place in 64 bits.
-/
import LogRelay.Json.Quote
import LogRelay.Proofs.Json.Written
import LogRelay.Proofs.Text.Natural

namespace LogRelay.Json

open Text (ofFigures_digits toString_ne_nil isDigit_toString)

/-! ## Texts in quotes -/

theorem hex4_control : ∀ n < 32, hex4? '0' '0' (hexFigure (n / 16)) (hexFigure (n % 16)) = some n := by decide

theorem hex4_plain : ∀ n < 32, isHighSurrogate n = false ∧ isLowSurrogate n = false := by decide

/-- the escape of a character is a glyph that spells it -/
theorem exists_glyph (c : Char) :
    ∃ g : Glyph, g.chars = escape c ∧ ∀ gs, Glyph.decode? (g :: gs) = (Glyph.decode? gs).map (c :: ·) := by
  unfold escape
  split_ifs with h₁ h₂ h₃ h₄ h₅ h₆ h₇ hlow
  · exact ⟨.letter '"' c (by rw [h₁]; rfl), rfl, fun gs => rfl⟩
  · exact ⟨.letter '\\' c (by rw [h₂]; rfl), rfl, fun gs => rfl⟩
  · exact ⟨.letter 'b' c (by rw [h₃]; rfl), rfl, fun gs => rfl⟩
  · exact ⟨.letter 't' c (by rw [h₄]; rfl), rfl, fun gs => rfl⟩
  · exact ⟨.letter 'n' c (by rw [h₅]; rfl), rfl, fun gs => rfl⟩
  · exact ⟨.letter 'f' c (by rw [h₆]; rfl), rfl, fun gs => rfl⟩
  · exact ⟨.letter 'r' c (by rw [h₇]; rfl), rfl, fun gs => rfl⟩
  · -- a control, written by number
    have hsmall : c.toNat < 32 := by
      rw [Char.lt_def, UInt32.lt_iff_toNat_lt] at hlow
      exact hlow
    obtain ⟨hhigh, hpartner⟩ := hex4_plain _ hsmall
    refine ⟨.unit _ _ _ _ c.toNat (hex4_control _ hsmall), rfl, ?_⟩
    intro gs
    rw [Glyph.decode?.eq_def]
    simp only [hhigh, hpartner, Char.ofNat_toNat, Bool.false_eq_true, if_false]
  · exact ⟨.plain c ⟨Char.not_lt.1 hlow, h₁, h₂⟩, rfl, fun gs => rfl⟩

theorem exists_glyphs (s : List Char) :
    ∃ gs : List Glyph, gs.flatMap Glyph.chars = s.flatMap escape ∧ Glyph.decode? gs = some s := by
  induction s with
  | nil => exact ⟨[], rfl, rfl⟩
  | cons c s ih =>
    obtain ⟨gs, hchars, hdecode⟩ := ih
    obtain ⟨g, hg, hspell⟩ := exists_glyph c
    refine ⟨g :: gs, ?_, ?_⟩
    · rw [List.flatMap_cons, List.flatMap_cons, hg, hchars]
    · rw [hspell, hdecode]
      rfl

/-- a text in quotes spells the text -/
theorem exists_quoted (s : String) :
    ∃ gs : List Glyph, quotedGlyphs gs = quote s.toList ∧ Glyph.string? gs = some s := by
  obtain ⟨gs, hchars, hdecode⟩ := exists_glyphs s.toList
  refine ⟨gs, ?_, ?_⟩
  · rw [quotedGlyphs, Glyph.closing, hchars]
    rfl
  · rw [Glyph.string?, hdecode, Option.map_some, String.ofList_toList]

/-! ## Numbers -/

def Figures.zero : Figures := ⟨['0'], by simp, by simp [Char.isDigit]⟩

/-- only the number zero is written with a zero in front -/
theorem lead_digits (n : Nat) (h : (toString n).toList.head? = some '0') : (toString n).toList = ['0'] := by
  rw [Nat.toString_eq_repr, Nat.toList_repr] at h ⊢
  induction n using Nat.strongRecOn with
  | _ n ih =>
    rw [Nat.toDigits_eq_if (by norm_num)] at h ⊢
    split at h
    · next hlt =>
      rw [if_pos hlt]
      interval_cases n <;> first | rfl | cases h
    · next hlt =>
      rw [List.head?_append_of_ne_nil _ Nat.toDigits_ne_nil] at h
      have hone := ih (n / 10) (by omega) h
      have hzero := Nat.ofDigitChars_ten_toDigits (n := n / 10)
      rw [hone] at hzero
      have : n / 10 = 0 := hzero.symm
      omega

theorem exists_digits (negative : Bool) (n : Nat) :
    ∃ x : NumeralText, x.chars = (if negative then ['-'] else []) ++ (toString n).toList ∧
      x.negative = negative ∧ x.fraction = none ∧ x.exponent = none ∧ Text.ofFigures x.whole.chars = n := by
  refine ⟨⟨negative, ⟨(toString n).toList, toString_ne_nil n, isDigit_toString n⟩, lead_digits n, none, none⟩, ?_, rfl,
    rfl, rfl, ofFigures_digits n⟩
  simp [NumeralText.chars, NumeralText.tail]

theorem le_foldl_figures (ds : List Nat) (n : Nat) : n ≤ ds.foldl (fun a d => a * 10 + d) n := by
  induction ds generalizing n with
  | nil => exact Nat.le_refl n
  | cons d ds ih =>
    calc n ≤ n * 10 + d := by omega
      _ ≤ _ := ih _

/-- a number below the bound takes up all its digits -/
theorem absorb_of_lt (ds : List Nat) (n : Nat) (h : ds.foldl (fun a d => a * 10 + d) n < UInt64.size) :
    Numeral.absorb n ds = (ds.foldl (fun a d => a * 10 + d) n, 0) := by
  induction ds generalizing n with
  | nil => rfl
  | cons d ds ih =>
    have hfits : n * 10 + d < UInt64.size := (le_foldl_figures ds _).trans_lt h
    rw [Numeral.absorb, if_pos hfits, ih _ h]
    rfl

theorem foldl_whole (n : NumeralText) :
    n.numeral.whole.foldl (fun a d => a * 10 + d) 0 = Text.ofFigures n.whole.chars := by
  rw [NumeralText.numeral, List.foldl_map]
  rfl

/-- the whole part of a numeral that fits -/
theorem absorb_whole (n : NumeralText) (h : Text.ofFigures n.whole.chars < UInt64.size) :
    Numeral.absorb 0 n.numeral.whole = (Text.ofFigures n.whole.chars, 0) := by
  have habsorb := absorb_of_lt n.numeral.whole 0 (by rwa [foldl_whole])
  rwa [foldl_whole] at habsorb

theorem numeral_marked (n : NumeralText) : n.numeral.marked = (n.fraction.isSome || n.exponent.isSome) := rfl

theorem numeral_negative (n : NumeralText) : n.numeral.negative = n.negative := rfl

/-- a numeral of a natural number of 64 bits is that number -/
theorem number?_of_natural {n : NumeralText} {v : Nat} (hv : n.natural? = some v) (hlt : v < UInt64.size) :
    n.numeral.number? = some (.natural v) := by
  unfold NumeralText.natural? at hv
  split_ifs at hv with hsign
  cases hv
  simp only [Bool.or_eq_true, not_or, Bool.not_eq_true] at hsign
  obtain ⟨⟨hneg, hfraction⟩, hexponent⟩ := hsign
  simp only [Numeral.number?, absorb_whole n hlt, numeral_marked, numeral_negative, hneg, hfraction, hexponent]
  rfl

/-- a numeral of a number below zero, of which the magnitude fits in 63 bits, is that number -/
theorem number?_of_negative {n : NumeralText} (hneg : n.negative = true) (hfraction : n.fraction = none)
    (hexponent : n.exponent = none) (hpos : 0 < Text.ofFigures n.whole.chars)
    (hle : Text.ofFigures n.whole.chars ≤ 2 ^ 63) :
    n.numeral.number? = some (.negative (Text.ofFigures n.whole.chars)) := by
  have hsmall : (Text.ofFigures n.whole.chars = 0 || Nat.pow 2 63 < Text.ofFigures n.whole.chars) = false := by
    rw [Bool.or_eq_false_iff, decide_eq_false_iff_not, decide_eq_false_iff_not]
    exact ⟨Nat.ne_of_gt hpos, Nat.not_lt.2 hle⟩
  have hlt : Text.ofFigures n.whole.chars < UInt64.size := hle.trans_lt (by decide)
  simp only [Numeral.number?, absorb_whole n hlt, numeral_marked, numeral_negative, hneg, hfraction, hexponent, hsmall]
  rfl

theorem exists_natural (n : Nat) : ∃ x : NumeralText, x.chars = (toString n).toList ∧ x.natural? = some n := by
  obtain ⟨x, hchars, hneg, hfraction, hexponent, hvalue⟩ := exists_digits false n
  refine ⟨x, hchars, ?_⟩
  rw [NumeralText.natural?, hneg, hfraction, hexponent, hvalue]
  rfl

end LogRelay.Json
