/-
Texts that are a word of capitals in upper case.

The upper case of a character is a capital for the capital itself and its small letter, and besides only for the
dotless i and the long s (`Capitalizes`). A letter whose upper case is longer is made of capitals only if that begins
with one of five pairs, such as the FF of a ligature; so in a word where none of these pairs stands every capital
comes from one character (`IsPlainWord`).
- `upper_eq_capital_iff`: the characters whose upper case is one capital.
- `flatMap_upper_eq_iff`: the texts whose upper case is a plain word.
-/
import Mathlib.Tactic
import LogRelay.Text.Blank
import LogRelay.Text.Upper

namespace LogRelay.Text

open Upper (runs expansions)

/-! ## One capital -/

/-- the upper case of a character is this capital -/
def Capitalizes (c capital : Char) : Prop :=
  c = capital ∨ c = capital.toLower ∨ (c = 'ı' ∧ capital = 'I') ∨ (c = 'ſ' ∧ capital = 'S')

theorem capital_cases {capital : Char} (h : capital.isUpper = true) : ∃ n < 26, capital = Char.ofNat (65 + n) := by
  have hbetween : 'A'.val ≤ capital.val ∧ capital.val ≤ 'Z'.val := of_decide_eq_true h
  have hlow : 65 ≤ capital.toNat := UInt32.le_iff_toNat_le.1 hbetween.1
  have hhigh : capital.toNat ≤ 90 := UInt32.le_iff_toNat_le.1 hbetween.2
  refine ⟨capital.toNat - 65, by omega, ?_⟩
  rw [Nat.add_sub_cancel' hlow, Char.ofNat_toNat]

theorem eq_toNat_of_ofNat {n : Nat} {c : Char} (h : Char.ofNat n = c) (hc : c ≠ '\x00') : n = c.toNat := by
  by_cases hvalid : n.isValidChar
  · rw [← h, Char.ofNat, dif_pos hvalid]
    rfl
  · rw [Char.ofNat, dif_neg hvalid] at h
    exact absurd h.symm hc

/-- the runs that reach down to the capitals: the small letters, the dotless i and the long s -/
theorem runs_to_capitals :
    runs.filter (·.image ≤ 90) = [⟨0x61, 0x7A, 1, 0x41⟩, ⟨0x131, 0x131, 1, 0x49⟩, ⟨0x17F, 0x17F, 1, 0x53⟩] := rfl

theorem two_le_expansion : ∀ e ∈ expansions, 2 ≤ e.2.length := by decide

theorem mem_of_lookup {n : Nat} {cs : List Nat} (h : expansions.lookup n = some cs) : (n, cs) ∈ expansions := by
  obtain ⟨before, after, heq, -⟩ := List.lookup_eq_some_iff.1 h
  rw [heq]
  exact List.mem_append_right before List.mem_cons_self

/-- a character has one upper-case letter, given by a run or itself, or several characters -/
theorem upper_cases (c : Char) :
    (∃ r ∈ runs, r.has c.toNat = true ∧ upper c = [Char.ofNat (r.image + (c.toNat - r.first))]) ∨
      (∃ e ∈ expansions, upper c = e.2.map Char.ofNat) ∨ upper c = [c] := by
  unfold upper
  split
  · next r hr => exact Or.inl ⟨r, List.mem_of_find?_eq_some hr, by simpa using List.find?_some hr, rfl⟩
  · split
    · next cs hcs => exact Or.inr (Or.inl ⟨_, mem_of_lookup hcs, rfl⟩)
    · exact Or.inr (Or.inr rfl)

/-- the capitals and their small letters by number -/
theorem capital_numbers : ∀ n < 26, (Char.ofNat (65 + n)).toNat = 65 + n ∧
    (Char.ofNat (65 + n)).toLower.toNat = 97 + n ∧ Char.ofNat (65 + n) ≠ '\x00' := by
  decide

theorem upper_of_capitalizes {c capital : Char} (hcapital : capital.isUpper = true) (h : Capitalizes c capital) :
    upper c = [capital] := by
  have hkept : ∀ n < 26, upper (Char.ofNat (65 + n)) = [Char.ofNat (65 + n)] := by decide
  have hraised : ∀ n < 26, upper (Char.ofNat (65 + n)).toLower = [Char.ofNat (65 + n)] := by decide
  obtain ⟨n, hn, rfl⟩ := capital_cases hcapital
  rcases h with rfl | rfl | ⟨rfl, hi⟩ | ⟨rfl, hs⟩
  · exact hkept n hn
  · exact hraised n hn
  · rw [hi]
    rfl
  · rw [hs]
    rfl

/-- a letter that a run moves to a capital -/
theorem capitalizes_of_run {r : Upper.Run} (hr : r ∈ runs) {c : Char} (hhas : r.has c.toNat = true) {n : Nat}
    (hn : n < 26) (himage : r.image + (c.toNat - r.first) = 65 + n) : Capitalizes c (Char.ofNat (65 + n)) := by
  have hreach : r ∈ runs.filter (·.image ≤ 90) := List.mem_filter.2 ⟨hr, decide_eq_true (by omega)⟩
  simp only [runs_to_capitals, List.mem_cons, List.not_mem_nil, or_false] at hreach
  simp only [Upper.Run.has, Bool.and_eq_true, decide_eq_true_eq] at hhas
  obtain ⟨⟨hlow, hhigh⟩, -⟩ := hhas
  rcases hreach with rfl | rfl | rfl
  all_goals dsimp only at himage hlow hhigh
  · refine Or.inr (Or.inl (Char.toNat_inj.1 ?_))
    rw [(capital_numbers n hn).2.1]
    omega
  · -- runs of one letter, so only one capital is left
    obtain rfl : n = 8 := by omega
    exact Or.inr (Or.inr (Or.inl ⟨Char.toNat_inj.1 (Nat.le_antisymm hhigh hlow), rfl⟩))
  · obtain rfl : n = 18 := by omega
    exact Or.inr (Or.inr (Or.inr ⟨Char.toNat_inj.1 (Nat.le_antisymm hhigh hlow), rfl⟩))

theorem capitalizes_of_upper {c capital : Char} (hcapital : capital.isUpper = true) (h : upper c = [capital]) :
    Capitalizes c capital := by
  obtain ⟨n, hn, rfl⟩ := capital_cases hcapital
  obtain ⟨hcode, -, hne⟩ := capital_numbers n hn
  rcases upper_cases c with ⟨r, hr, hhas, hrun⟩ | ⟨e, he, hlong⟩ | hself
  · have himage := eq_toNat_of_ofNat (List.singleton_inj.1 (hrun.symm.trans h)) hne
    rw [hcode] at himage
    exact capitalizes_of_run hr hhas hn himage
  · -- several characters are not one
    have htwo := two_le_expansion e he
    have hlength := congrArg List.length (hlong.symm.trans h)
    rw [List.length_map, List.length_singleton] at hlength
    omega
  · exact Or.inl (List.singleton_inj.1 (hself.symm.trans h))

/-- the characters whose upper case is one capital -/
theorem upper_eq_capital_iff {c capital : Char} (h : capital.isUpper = true) :
    upper c = [capital] ↔ Capitalizes c capital :=
  ⟨capitalizes_of_upper h, upper_of_capitalizes h⟩

/-- what becomes a capital is no space -/
theorem Capitalizes.isBlank_eq_false {c capital : Char} (h : Capitalizes c capital)
    (hcapital : capital.isUpper = true) :
    isBlank c = false := by
  have hletters : ∀ n < 26, isBlank (Char.ofNat (65 + n)) = false ∧ isBlank (Char.ofNat (65 + n)).toLower = false := by
    decide
  obtain ⟨n, hn, rfl⟩ := capital_cases hcapital
  rcases h with rfl | rfl | ⟨rfl, -⟩ | ⟨rfl, -⟩
  · exact (hletters n hn).1
  · exact (hletters n hn).2
  · rfl
  · rfl

/-! ## Words -/

/-- the pairs of capitals with which the upper case of one letter begins -/
def pairs : List String := ["SS", "ST", "FF", "FI", "FL"]

/-- a word of capitals in which no two stand together that may be the upper case of one letter -/
structure IsPlainWord (word : List Char) : Prop where
  capital : ∀ l ∈ word, l.isUpper = true
  apart : ∀ p ∈ pairs, ¬ p.toList <:+: word

/-- what becomes several characters becomes none but capitals only if it begins with one of the pairs -/
theorem expansion_cases : ∀ e ∈ expansions,
    (∃ n ∈ e.2, (Char.ofNat n).isUpper = false) ∨ ∃ p ∈ pairs, p.toList <+: e.2.map Char.ofNat := by
  decide

namespace IsPlainWord

theorem tail {l : Char} {word : List Char} (h : IsPlainWord (l :: word)) : IsPlainWord word where
  capital := fun m hm => h.capital m (List.mem_cons_of_mem l hm)
  apart := fun p hp hinfix => h.apart p hp (List.infix_cons hinfix)

/-- a character whose upper case stands in a plain word has one upper-case letter -/
theorem exists_upper {word : List Char} (h : IsPlainWord word) {c : Char} (hc : upper c <:+: word) :
    ∃ l ∈ word, upper c = [l] := by
  rcases upper_cases c with ⟨r, -, -, hrun⟩ | ⟨e, he, hlong⟩ | hself
  · rw [hrun] at hc
    exact ⟨_, hc.subset (List.mem_singleton_self _), hrun⟩
  · exfalso
    rw [hlong] at hc
    rcases expansion_cases e he with ⟨n, hn, hother⟩ | ⟨p, hp, hbegins⟩
    · rw [h.capital _ (hc.subset (List.mem_map_of_mem hn))] at hother
      cases hother
    · exact h.apart p hp (hbegins.isInfix.trans hc)
  · rw [hself] at hc
    exact ⟨c, hc.subset (List.mem_singleton_self c), hself⟩

end IsPlainWord

/-- the upper case of a text is a plain word when each of its characters is capitalized to the letter in its place -/
theorem flatMap_upper_eq_iff {s word : List Char} (h : IsPlainWord word) :
    s.flatMap upper = word ↔ List.Forall₂ Capitalizes s word := by
  constructor
  · intro heq
    induction s generalizing word with
    | nil =>
      subst heq
      exact .nil
    | cons c s ih =>
      rw [List.flatMap_cons] at heq
      obtain ⟨l, -, hl⟩ := h.exists_upper ⟨[], s.flatMap upper, heq⟩
      rw [hl, List.singleton_append] at heq
      subst heq
      exact .cons ((upper_eq_capital_iff (h.capital l List.mem_cons_self)).1 hl) (ih h.tail rfl)
  · intro hall
    induction hall with
    | nil => rfl
    | @cons c l s word hc _ ih =>
      rw [List.flatMap_cons, (upper_eq_capital_iff (h.capital l List.mem_cons_self)).2 hc, ih h.tail]
      rfl

end LogRelay.Text
