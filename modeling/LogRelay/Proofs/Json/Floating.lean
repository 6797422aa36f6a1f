/-
A floating-point number in JSON is a numeral, or null.

The shortest decimal of a number begins with no zero, unless it is that of zero (`Digits.IsLed`). So wherever the
point is put among its digits, the whole part is one a numeral can have, and each layout of the digits is the text of
a numeral.
- `shortest_isLed`: the digits of every number are such.
- `exists_positional`, `exists_scientific`: the two layouts as numerals.
- `exists_floating`: what is put down for a number, finite or not.
-/
import LogRelay.Decimal.Layout
import LogRelay.Proofs.Json.Compact

namespace LogRelay

open Json
open Text (ofFigures_digits toString_ne_nil isDigit_toString)

namespace Decimal

/-! ## Digits -/

/-- there are digits, and the first is no zero unless it is the only one -/
def Digits.IsLed (d : Digits) : Prop := d.digits ≠ [] ∧ (d.digits.head? = some 0 → d = ⟨[0], 0⟩)

theorem zero_isLed : (⟨[0], 0⟩ : Digits).IsLed := ⟨by simp, fun _ => rfl⟩

theorem toNat_sub_zero {c : Char} (hc : c.isDigit = true) (h : c.toNat - '0'.toNat = 0) : c = '0' := by
  have hfigures : ∀ n < 10, (Nat.digitChar n).toNat - '0'.toNat = 0 → Nat.digitChar n = '0' := by decide
  obtain ⟨n, hn, rfl⟩ := digit_cases hc
  exact hfigures n hn h

/-- the first digit of a number other than zero is no zero -/
theorem digitsOf_eq_cons {n : Nat} (hn : 0 < n) : ∃ d ds, digitsOf n = d :: ds ∧ d ≠ 0 := by
  have hlead := lead_digits n
  have hvalue := ofFigures_digits n
  rw [Nat.toString_eq_repr, Nat.toList_repr] at hlead hvalue
  rw [digitsOf]
  cases hdigits : Nat.toDigits 10 n with
  | nil => exact absurd hdigits Nat.toDigits_ne_nil
  | cons c cs =>
    refine ⟨_, _, rfl, ?_⟩
    intro hzero
    have hc : c.isDigit = true :=
      Nat.isDigit_of_mem_toDigits (by norm_num) (by norm_num) (hdigits ▸ List.mem_cons_self)
    have hone : Nat.toDigits 10 n = ['0'] := by
      apply hlead
      rw [hdigits, toNat_sub_zero hc hzero]
      rfl
    rw [hone] at hvalue
    exact Nat.ne_of_gt hn hvalue.symm

/-! ## The shortest decimal -/

theorem low_interval_pos {x : Double} (h : x.mantissa ≠ 0) : 0 < x.interval.low := by
  have hup : 0 < Nat.pow 2 x.exponent.toNat := Nat.two_pow_pos _
  rw [Double.interval]
  apply Nat.mul_pos _ hup
  split_ifs <;> omega

theorem not_has_zero {i : Interval} (h : 0 < i.low) (k : Int) : i.has 0 k = false := by
  have hscale : 0 < Nat.pow 10 (-k).toNat := Nat.pow_pos (by norm_num)
  have hlow : 0 < i.low * Nat.pow 10 (-k).toNat := Nat.mul_pos h hscale
  simp only [Interval.has, Nat.zero_mul]
  split_ifs
  · rw [decide_eq_false (Nat.not_le.2 hlow), Bool.false_and]
  · rw [decide_eq_false (Nat.not_lt_zero _), Bool.false_and]

theorem onGrid?_pos {i : Interval} (h : 0 < i.low) {tieUp : Bool} {k : Int} {d : Nat}
    (hd : i.onGrid? tieUp k = some d) : 0 < d := by
  have hzero := not_has_zero h k
  simp only [Interval.onGrid?] at hd
  generalize i.value * Nat.pow 10 (-k).toNat / (i.den * Nat.pow 10 k.toNat) = q at hd
  -- the lower neighbour is taken only where it rounds to the number
  have hpos : i.has q k = true → 0 < q := by
    intro hq
    apply Nat.pos_of_ne_zero
    rintro rfl
    rw [hzero] at hq
    cases hq
  split at hd
  · next hq _ =>
    have := hpos hq
    cases hd
    split_ifs <;> omega
  · next hq _ =>
    cases hd
    exact hpos hq
  · cases hd
    omega
  · cases hd

/-- digits without the zeros at their end begin as before -/
theorem strip_isLed {d : Nat} (hd : d ≠ 0) (ds : List Nat) (e : Int) :
    (⟨((d :: ds).reverse.dropWhile (· == 0)).reverse, e⟩ : Digits).IsLed := by
  have hstrip : ∃ r, ((d :: ds).reverse.dropWhile (· == 0)).reverse = d :: r := by
    rw [List.reverse_cons, List.dropWhile_append]
    split
    · exact ⟨[], by simp [hd]⟩
    · exact ⟨_, by rw [List.reverse_append]; rfl⟩
  obtain ⟨r, hr⟩ := hstrip
  refine ⟨by rw [hr]; exact List.cons_ne_nil d r, ?_⟩
  intro hhead
  rw [hr, List.head?_cons, Option.some_inj] at hhead
  exact absurd hhead hd

theorem search_isLed {i : Interval} (h : 0 < i.low) (tieUp : Bool) (top : Int) (fuel n : Nat) :
    (i.search tieUp top fuel n).IsLed := by
  induction fuel generalizing n with
  | zero => exact zero_isLed
  | succ fuel ih =>
    simp only [Interval.search]
    split
    · next d hgrid =>
      obtain ⟨c, cs, hdigits, hc⟩ := digitsOf_eq_cons (onGrid?_pos h hgrid)
      rw [hdigits]
      exact strip_isLed hc cs _
    · exact ih (n + 1)

/-- the shortest decimal of a number begins with no zero, unless it is that of zero -/
theorem shortest_isLed (x : Double) (tieUp : Bool) : (x.shortest tieUp).IsLed := by
  rw [Double.shortest]
  split_ifs with hzero
  · exact zero_isLed
  · exact search_isLed (low_interval_pos hzero) tieUp _ _ _

/-! ## Layouts -/

theorem toList_figures (ds : List Nat) : (figures ds).toList = ds.flatMap fun d => (toString d).toList := by
  rw [figures, String.toList_join, List.flatMap_map]

theorem isDigit_figures (ds : List Nat) : ∀ c ∈ (figures ds).toList, c.isDigit = true := by
  intro c hc
  rw [toList_figures, List.mem_flatMap] at hc
  obtain ⟨d, -, hc⟩ := hc
  exact isDigit_toString d c hc

theorem isDigit_zeros (n : Nat) : ∀ c ∈ (zeros n).toList, c.isDigit = true := by
  intro c hc
  rw [zeros, String.toList_ofList] at hc
  rw [List.eq_of_mem_replicate hc]
  rfl

theorem figures_ne_nil {ds : List Nat} (h : ds ≠ []) : (figures ds).toList ≠ [] := by
  obtain ⟨d, ds, rfl⟩ := List.exists_cons_of_ne_nil h
  rw [toList_figures, List.flatMap_cons]
  exact List.append_ne_nil_of_left_ne_nil (toString_ne_nil d) _

/-- only a zero is written with a zero in front -/
theorem head_figures {ds : List Nat} (h : (figures ds).toList.head? = some '0') : ds.head? = some 0 := by
  cases ds with
  | nil => cases h
  | cons d ds =>
    rw [toList_figures, List.flatMap_cons, List.head?_append_of_ne_nil _ (toString_ne_nil d)] at h
    have hvalue := ofFigures_digits d
    rw [lead_digits d h] at hvalue
    rw [← hvalue]
    rfl

/-- the digits of digits -/
def figuresOf (ds : List Nat) (h : ds ≠ []) : Figures := ⟨(figures ds).toList, figures_ne_nil h, isDigit_figures ds⟩

/-- digits with zeros behind them are a whole part -/
theorem exists_padded {d : Digits} (hd : d.IsLed) :
    ∃ w : Figures, w.chars = (figures d.digits).toList ++ (zeros (d.exponent - (d.digits.length - 1)).toNat).toList ∧
      (w.chars.head? = some '0' → w.chars = ['0']) := by
  obtain ⟨hne, hlead⟩ := hd
  have hdigits : ∀ c ∈ (figures d.digits).toList ++ (zeros (d.exponent - (d.digits.length - 1)).toNat).toList,
      c.isDigit = true := by
    intro c hc
    exact (List.mem_append.1 hc).elim (isDigit_figures _ c) (isDigit_zeros _ c)
  refine ⟨⟨_, List.append_ne_nil_of_left_ne_nil (figures_ne_nil hne) _, hdigits⟩, rfl, ?_⟩
  intro hhead
  rw [List.head?_append_of_ne_nil _ (figures_ne_nil hne)] at hhead
  have hzero := hlead (head_figures hhead)
  subst hzero
  rfl

/-- plain decimal is a numeral -/
theorem exists_positional (l : Layout) {d : Digits} (hd : d.IsLed) :
    ∃ n : NumeralText, n.negative = false ∧ n.chars = (l.positional d).toList := by
  obtain ⟨hne, hlead⟩ := hd
  have hlength : 0 < d.digits.length := List.length_pos_iff.2 hne
  simp only [Layout.positional]
  split_ifs with hsmall hlarge hfraction
  · -- zeros follow the point
    have hdigits : ∀ c ∈ (zeros (-d.exponent - 1).toNat).toList ++ (figures d.digits).toList, c.isDigit = true := by
      intro c hc
      exact (List.mem_append.1 hc).elim (isDigit_zeros _ c) (isDigit_figures _ c)
    refine ⟨⟨false, .zero, fun _ => rfl,
      some ⟨_, List.append_ne_nil_of_right_ne_nil _ (figures_ne_nil hne), hdigits⟩, none⟩, rfl, ?_⟩
    simp [NumeralText.chars, NumeralText.tail, Figures.zero]
  · obtain ⟨w, hw, hlead⟩ := exists_padded ⟨hne, hlead⟩
    refine ⟨⟨false, w, hlead, some .zero, none⟩, rfl, ?_⟩
    simp [NumeralText.chars, NumeralText.tail, Figures.zero, hw]
  · obtain ⟨w, hw, hlead⟩ := exists_padded ⟨hne, hlead⟩
    refine ⟨⟨false, w, hlead, none, none⟩, rfl, ?_⟩
    simp [NumeralText.chars, NumeralText.tail, hw]
  · -- the point stands among the digits
    have hwhole : d.digits.take (d.exponent + 1).toNat ≠ [] := by
      rw [← List.length_pos_iff, List.length_take]
      omega
    have hrest : d.digits.drop (d.exponent + 1).toNat ≠ [] := by
      rw [← List.length_pos_iff, List.length_drop]
      omega
    refine ⟨⟨false, figuresOf _ hwhole, ?_, some (figuresOf _ hrest), none⟩, rfl, ?_⟩
    · intro hhead
      have hzero := head_figures hhead
      rw [List.head?_take, if_neg (by omega)] at hzero
      rw [hlead hzero] at hlarge
      exact absurd (by simp) hlarge
    · simp [NumeralText.chars, NumeralText.tail, figuresOf]

theorem exists_exponent (l : Layout) (e : Int) :
    ∃ x : Exponent, x.chars =
      'e' :: ((if e < 0 then "-" else if l.plus then "+" else "").toList ++ (toString e.natAbs).toList) := by
  split_ifs
  · exact ⟨⟨false, some true, ⟨_, toString_ne_nil e.natAbs, isDigit_toString e.natAbs⟩⟩, rfl⟩
  · exact ⟨⟨false, some false, ⟨_, toString_ne_nil e.natAbs, isDigit_toString e.natAbs⟩⟩, rfl⟩
  · exact ⟨⟨false, none, ⟨_, toString_ne_nil e.natAbs, isDigit_toString e.natAbs⟩⟩, rfl⟩

/-- one digit before the point and an exponent are a numeral -/
theorem exists_scientific (l : Layout) {d : Digits} (hd : d.IsLed) :
    ∃ n : NumeralText, n.negative = false ∧ n.chars = (l.scientific d).toList := by
  obtain ⟨c, ds, hdigits⟩ := List.exists_cons_of_ne_nil hd.1
  obtain ⟨exponent, hexponent⟩ := exists_exponent l d.exponent
  have hwhole : (figuresOf [c] (by simp)).chars = (toString c).toList := by
    simp [figuresOf, toList_figures]
  have hlead : (figuresOf [c] (by simp)).chars.head? = some '0' → (figuresOf [c] (by simp)).chars = ['0'] := by
    rw [hwhole]
    exact lead_digits c
  cases ds with
  | nil =>
    refine ⟨⟨false, figuresOf [c] (by simp), hlead, none, some exponent⟩, rfl, ?_⟩
    simp [NumeralText.chars, NumeralText.tail, Layout.scientific, hdigits, hexponent, hwhole, toList_figures]
  | cons c' ds =>
    refine ⟨⟨false, figuresOf [c] (by simp), hlead, some (figuresOf (c' :: ds) (by simp)), some exponent⟩, rfl, ?_⟩
    simp [NumeralText.chars, NumeralText.tail, Layout.scientific, hdigits, hexponent, figuresOf, toList_figures]

theorem exists_laid (l : Layout) {d : Digits} (hd : d.IsLed) (isPlain : Bool) :
    ∃ n : NumeralText, n.negative = false ∧
      n.chars = (if isPlain then l.positional d else l.scientific d).toList := by
  cases isPlain with
  | true => exact exists_positional l hd
  | false => exact exists_scientific l hd

theorem exists_signed (negative : Bool) {n : NumeralText} (hsign : n.negative = false) :
    ∃ m : NumeralText, m.chars = (if negative then ['-'] else []) ++ n.chars := by
  refine ⟨{ n with negative }, ?_⟩
  simp only [NumeralText.chars, hsign, Bool.false_eq_true, if_false, List.nil_append]
  rfl

/-- a number is put down as a numeral or as null -/
theorem exists_floating (x : Double) :
    (json.render x).toList = "null".toList ∨ ∃ n : NumeralText, n.chars = (json.render x).toList := by
  have hled := shortest_isLed x json.tieUp
  unfold Layout.render
  split
  · exact Or.inl rfl
  split
  · left
    split <;> rfl
  · right
    simp only
    generalize x.shortest json.tieUp = d at hled
    obtain ⟨n, hsign, hchars⟩ := exists_laid json hled _
    obtain ⟨m, hm⟩ := exists_signed x.negative hsign
    refine ⟨m, ?_⟩
    rw [hm, hchars, String.toList_append]
    cases x.negative <;> rfl

end Decimal
end LogRelay
