/-
Natural numbers in digits, read back.

A number is written with its decimal digits, and zeros may stand before them. Reading takes the digits up to the first
character that is none, so a number is read back when what follows it is no digit.
- `ofFigures_digits`, `ofFigures_zeros`, `ofFigures_append_zeros`: what digits stand for.
- `takeWhile_digits`, `dropWhile_digits`: where the digits end.
- `natural?_digits`: the digits of a number below a bound are that number.
-/
import Mathlib.Tactic
import LogRelay.Text.Natural

namespace LogRelay.Text

/-! ## The digits of a number -/

theorem ofFigures_eq (ds : List Char) : ofFigures ds = Nat.ofDigitChars 10 ds 0 := by
  rw [Nat.ofDigitChars_eq_foldl]
  simp only [ofFigures, Nat.mul_comm]

theorem ofFigures_toDigits (n : Nat) : ofFigures (Nat.toDigits 10 n) = n := by
  rw [ofFigures_eq, Nat.ofDigitChars_ten_toDigits]

theorem isDigit_toDigits (n : Nat) : ∀ c ∈ Nat.toDigits 10 n, c.isDigit = true :=
  fun _ hc => Nat.isDigit_of_mem_toDigits (by norm_num) (by norm_num) hc

theorem toList_toString (n : Nat) : (toString n).toList = Nat.toDigits 10 n := by
  rw [Nat.toString_eq_repr, Nat.toList_repr]

theorem ofFigures_digits (n : Nat) : ofFigures (toString n).toList = n := by
  rw [toList_toString, ofFigures_toDigits]

theorem toString_ne_nil (n : Nat) : (toString n).toList ≠ [] := by
  rw [toList_toString]
  exact Nat.toDigits_ne_nil

theorem isDigit_toString (n : Nat) : ∀ c ∈ (toString n).toList, c.isDigit = true := by
  rw [toList_toString]
  exact isDigit_toDigits n

theorem not_mem_digits {ds : List Char} (hds : ∀ c ∈ ds, c.isDigit = true) {c : Char} (hc : c.isDigit = false) :
    c ∉ ds := by
  intro hmem
  rw [hds c hmem] at hc
  exact Bool.noConfusion hc

/-! ## Zeros before and after -/

theorem ofFigures_zeros (k : Nat) (ds : List Char) : ofFigures (List.replicate k '0' ++ ds) = ofFigures ds := by
  rw [ofFigures_eq, Nat.ofDigitChars_append, Nat.ofDigitChars_replicate_zero, Nat.mul_zero, ofFigures_eq]

theorem ofFigures_append_zeros (ds : List Char) (k : Nat) :
    ofFigures (ds ++ List.replicate k '0') = ofFigures ds * 10 ^ k := by
  rw [ofFigures_eq, Nat.ofDigitChars_append, Nat.ofDigitChars_replicate_zero, ofFigures_eq, Nat.mul_comm]

/-! ## Where digits end -/

section

variable {ds r : List Char} (hds : ∀ c ∈ ds, c.isDigit = true) (hr : ∀ c, r.head? = some c → c.isDigit = false)

include hds hr

theorem takeWhile_digits : (ds ++ r).takeWhile Char.isDigit = ds := by
  rw [List.takeWhile_append_of_pos hds]
  cases r with
  | nil => rw [List.takeWhile_nil, List.append_nil]
  | cons c r => rw [List.takeWhile_cons_of_neg (by simp [hr c rfl]), List.append_nil]

theorem dropWhile_digits : (ds ++ r).dropWhile Char.isDigit = r := by
  rw [List.dropWhile_append_of_pos hds]
  cases r with
  | nil => rfl
  | cons c r => rw [List.dropWhile_cons_of_neg (by simp [hr c rfl])]

end

/-! ## Reading -/

theorem unsigned_of_digits {ds : List Char} (hds : ∀ c ∈ ds, c.isDigit = true) : unsigned ds = ds := by
  unfold unsigned
  split
  · exact absurd (hds '+' List.mem_cons_self) (by decide)
  · rfl

theorem natural?_digits {bound n : Nat} (h : n < bound) : natural? bound (toString n).toList = some n := by
  have hall : (toString n).toList.all Char.isDigit = true := List.all_eq_true.2 (isDigit_toString n)
  have hne : (toString n).toList.isEmpty = false := by
    rw [List.isEmpty_eq_false_iff]
    exact toString_ne_nil n
  rw [natural?, unsigned_of_digits (isDigit_toString n), hall, hne, ofFigures_digits, if_pos h]
  rfl

end LogRelay.Text
