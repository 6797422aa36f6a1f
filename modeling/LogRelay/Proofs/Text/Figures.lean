/-
Numbers, moments and names of severities are written with few characters.

They are letters and digits, and the marks `+`, `-`, `.` and `:` (`isFigure`). None of these is a control, a space, a
backslash or a bar, so such texts need no escape anywhere; and each takes a single octet, so such texts can be cut at
any place.
-/
import Mathlib.Tactic
import LogRelay.Decimal.Layout
import LogRelay.Severity
import LogRelay.Timestamp

namespace LogRelay

/-- a character of numbers, moments and names -/
def isFigure (c : Char) : Bool := c.isAlphanum || ['+', '-', '.', ':'].contains c

theorem isFigure_of_isDigit {c : Char} (h : c.isDigit = true) : isFigure c = true := by
  simp [isFigure, Char.isAlphanum, h]

theorem space_le_of_isFigure {c : Char} (h : isFigure c = true) : ' ' ≤ c := by
  rw [isFigure, Bool.or_eq_true, List.contains_iff_mem] at h
  rcases h with h | h
  · have hsmall : ∀ n < 48, (Char.ofNat n).isAlphanum = false := by decide
    have hlow : 48 ≤ c.toNat := by
      by_contra hlt
      have hc := hsmall c.toNat (Nat.not_le.1 hlt)
      rw [Char.ofNat_toNat, h] at hc
      cases hc
    rw [Char.le_def, UInt32.le_iff_toNat_le]
    exact Nat.le_trans (by decide) hlow
  · simp only [List.mem_cons, List.not_mem_nil, or_false] at h
    rcases h with rfl | rfl | rfl | rfl <;> decide

/-- such a character takes a single octet -/
theorem utf8Size_of_isFigure {c : Char} (h : isFigure c = true) : c.utf8Size = 1 := by
  rw [Char.utf8Size_eq_one_iff, UInt32.le_iff_toNat_le]
  rw [isFigure, Bool.or_eq_true, List.contains_iff_mem] at h
  rcases h with h | h
  · have hlast : 'Z'.val.toNat = 90 ∧ 'z'.val.toNat = 122 ∧ '9'.val.toNat = 57 := by decide
    have hbound : (127 : UInt32).toNat = 127 := rfl
    have hle : (c.val ≤ 'Z'.val ∨ c.val ≤ 'z'.val) ∨ c.val ≤ '9'.val := by
      refine (Bool.or_eq_true_iff.1 h).imp (fun halpha => ?_) (fun hdigit => ?_)
      · exact (Bool.or_eq_true_iff.1 halpha).imp (fun hupper => (of_decide_eq_true hupper).2)
          (fun hlower => of_decide_eq_true (Bool.and_eq_true_iff.1 hlower).2)
      · exact of_decide_eq_true (Bool.and_eq_true_iff.1 hdigit).2
    simp only [UInt32.le_iff_toNat_le] at hle
    omega
  · simp only [List.mem_cons, List.not_mem_nil, or_false] at h
    rcases h with rfl | rfl | rfl | rfl <;> decide

theorem low_of_figures {t : List Char} (h : t.all isFigure = true) : ∀ c ∈ t, c.toNat < 128 := by
  intro c hc
  have hsize := utf8Size_of_isFigure (List.all_eq_true.1 h c hc)
  rw [Char.utf8Size_eq_one_iff, UInt32.le_iff_toNat_le] at hsize
  exact Nat.lt_succ_of_le hsize

theorem ne_of_isFigure {c d : Char} (hc : isFigure c = true) (hd : isFigure d = false) : c ≠ d := by
  rintro rfl
  rw [hc] at hd
  cases hd

theorem not_mem_of_figures {s : List Char} (h : s.all isFigure = true) {d : Char} (hd : isFigure d = false) : d ∉ s :=
  fun hmem => ne_of_isFigure (List.all_eq_true.1 h d hmem) hd rfl

/-! ## Numbers -/

theorem isFigure_toDigits (n : Nat) : (Nat.toDigits 10 n).all isFigure = true := by
  rw [List.all_eq_true]
  intro c hc
  exact isFigure_of_isDigit (Nat.isDigit_of_mem_toDigits (by norm_num) (by norm_num) hc)

theorem isFigure_nat (n : Nat) : (toString n).toList.all isFigure = true := by
  rw [Nat.toString_eq_repr, Nat.toList_repr]
  exact isFigure_toDigits n

theorem isFigure_int (n : Int) : (toString n).toList.all isFigure = true := by
  rw [Int.toString_eq_repr, Int.repr_eq_if]
  split
  · rw [Nat.toList_repr]
    exact isFigure_toDigits _
  · rw [String.toList_append, Nat.toList_repr, List.all_append, isFigure_toDigits]
    rfl

namespace Decimal

theorem isFigure_figures (ds : List Nat) : (figures ds).toList.all isFigure = true := by
  rw [figures, String.toList_join, List.all_eq_true]
  intro c hc
  rw [List.mem_flatMap] at hc
  obtain ⟨s, hs, hc⟩ := hc
  obtain ⟨d, -, rfl⟩ := List.mem_map.1 hs
  exact List.all_eq_true.1 (isFigure_nat d) c hc

theorem isFigure_zeros (n : Nat) : (zeros n).toList.all isFigure = true := by
  rw [zeros, String.toList_ofList, List.all_eq_true]
  intro c hc
  rw [List.eq_of_mem_replicate hc]
  decide

theorem isFigure_positional (l : Layout) (d : Digits) : (l.positional d).toList.all isFigure = true := by
  unfold Layout.positional
  simp only
  split_ifs <;> simp only [String.toList_append, List.all_append, isFigure_figures, isFigure_zeros] <;> decide

theorem isFigure_scientific (l : Layout) (d : Digits) : (l.scientific d).toList.all isFigure = true := by
  unfold Layout.scientific
  split_ifs <;> simp only [String.toList_append, List.all_append, isFigure_figures, isFigure_nat] <;> decide

/-- a number in JSON, or the null in its place -/
theorem isFigure_json (x : Double) : (json.render x).toList.all isFigure = true := by
  unfold Layout.render
  simp only
  split_ifs
  any_goals decide
  all_goals
    simp only [String.toList_append, List.all_append, isFigure_positional, isFigure_scientific]
    decide

end Decimal

/-! ## Moments and severities -/

namespace Timestamp

theorem isFigure_padded (width n : Nat) : (padded width n).all isFigure = true := by
  rw [padded, List.all_append, isFigure_toDigits, Bool.and_true, List.all_eq_true]
  intro c hc
  rw [List.eq_of_mem_replicate hc]
  decide

theorem isFigure_yearText (y : Int) : (yearText y).all isFigure = true := by
  unfold yearText
  split_ifs
  · exact isFigure_padded _ _
  · rw [List.all_cons, isFigure_padded]
    decide
  · rw [List.all_cons, isFigure_padded]
    decide

theorem isFigure_fractionText (n : Nat) : (fractionText n).all isFigure = true := by
  have hall : ((padded 9 n).reverse.dropWhile (· == '0')).reverse.all isFigure = true := by
    rw [List.all_eq_true]
    intro c hc
    have hmem := (List.dropWhile_sublist _).subset (List.mem_reverse.1 hc)
    exact List.all_eq_true.1 (isFigure_padded 9 n) c (List.mem_reverse.1 hmem)
  unfold fractionText
  generalize ((padded 9 n).reverse.dropWhile (· == '0')).reverse = ds at hall ⊢
  cases ds with
  | nil => rfl
  | cons d ds =>
    rw [List.all_cons, hall]
    decide

theorem isFigure_text (t : Timestamp) : t.text.all isFigure = true := by
  unfold text
  simp only [List.all_append, List.all_cons, isFigure_yearText, isFigure_padded, isFigure_fractionText]
  decide

theorem le_length_padded (width n : Nat) : width ≤ (padded width n).length := by
  rw [padded, List.length_append, List.length_replicate]
  omega

theorem four_le_yearText (y : Int) : 4 ≤ (yearText y).length := by
  have hpadded := le_length_padded 4
  unfold yearText
  split_ifs
  · exact hpadded _
  · exact Nat.le_succ_of_le (hpadded _)
  · exact Nat.le_succ_of_le (hpadded _)

/-- a moment takes twenty characters at least -/
theorem twenty_le_text (t : Timestamp) : 20 ≤ t.text.length := by
  have hyear := four_le_yearText t.date.year
  have hmonth := le_length_padded 2 t.date.month
  have hday := le_length_padded 2 t.date.day
  have hhour := le_length_padded 2 (t.secondOfDay / 3600)
  have hmin := le_length_padded 2 (t.secondOfDay / 60 % 60)
  have hsec := le_length_padded 2 (if nanosPerSecond ≤ t.nanos then 60 else t.secondOfDay % 60)
  simp only [text, List.length_append, List.length_cons, List.length_nil]
  omega

end Timestamp

theorem Severity.isFigure_name (s : Severity) : s.name.toList.all isFigure = true := by
  cases s <;> decide

end LogRelay
