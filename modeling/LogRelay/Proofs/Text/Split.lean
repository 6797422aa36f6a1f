/-
Cutting a text at a separator, and putting another text in its place.

`Clear sep s` says that a separator put after `s` is the first one there: none begins in `s`, not even one that shares
characters with it. A text made of clear pieces, each with a separator after it, is cut back into these pieces, by
cutting at all separators (`split_pieces`) and by cutting at as many as there are pieces (`breakTimes?_pieces`); so
are pieces with a separator between each two (`split_intercalate`). A cut at the last separator needs none behind it
(`breakLast?_sep_append`), and lines with a line feed behind each are found again (`lines_flatMap`). `replace` puts
one text in the place of another, from left to right, and `replace_append` and `replace_cons` say what it does at each
place.
-/
import Mathlib.Tactic
import LogRelay.Text.Split

namespace LogRelay.Text

/-- what stands before each of the first `n` separators of a text, and what stands after the last of them -/
def breakTimes? (sep : List Char) : Nat → List Char → Option (List (List Char) × List Char)
  | 0, s => some ([], s)
  | n + 1, s => do
    let (a, r) ← breakAt? sep s
    let (as, rest) ← breakTimes? sep n r
    return (a :: as, rest)

/-- a text with `new` in the place of every `old`, from left to right -/
def replace (old new s : List Char) : List Char := new.intercalate (split old s)

/-- no separator begins in a text, also when one stands after it -/
def Clear (sep s : List Char) : Prop := ¬ sep <:+: s ++ sep.dropLast

theorem Clear.tail {sep s : List Char} {c : Char} (h : Clear sep (c :: s)) : Clear sep s := by
  intro hs
  exact h (hs.trans (List.suffix_cons c _).isInfix)

/-- at the beginning of a clear text stands no separator, whatever comes after it -/
theorem Clear.not_at_head {sep s : List Char} {c : Char} (h : Clear sep (c :: s)) (r : List Char) :
    ¬ sep <+: c :: (s ++ (sep ++ r)) := by
  intro hp
  apply h
  have hshort : (c :: s) ++ sep.dropLast <+: c :: (s ++ (sep ++ r)) := by
    rw [← List.cons_append, List.prefix_append_right_inj]
    exact (List.dropLast_prefix sep).trans (List.prefix_append sep r)
  refine (List.prefix_of_prefix_length_le hp hshort ?_).isInfix
  rw [List.length_append, List.length_dropLast, List.length_cons]
  omega

theorem not_prefix_of_head? {sep s : List Char} {m c : Char} (hsep : sep.head? = some m) (hc : m ≠ c) :
    ¬ sep <+: c :: s := by
  obtain ⟨t, rfl⟩ := List.head?_eq_some_iff.1 hsep
  exact fun hprefix => hc (List.cons_prefix_cons.1 hprefix).1

/-- a text that does not hold the first character of a separator is clear of it -/
theorem clear_of_not_mem {sep s : List Char} {m : Char} (hsep : sep.head? = some m) (h : m ∉ s) : Clear sep s := by
  obtain ⟨t, rfl⟩ := List.head?_eq_some_iff.1 hsep
  rintro ⟨x, y, hxy⟩
  -- the separator is longer than what stands after the text, so it would have to begin in the text
  have hlength := congrArg List.length hxy
  simp only [List.length_append, List.length_cons, List.length_dropLast, Nat.add_sub_cancel] at hlength
  have hlt : x.length < s.length := by omega
  have hbegin : (s ++ (m :: t).dropLast)[x.length]? = some m := by rw [← hxy]; simp
  rw [List.getElem?_append_left hlt] at hbegin
  exact h (List.mem_of_getElem? hbegin)

theorem append_eq_append_cons {s t a b : List Char} {c : Char} (h : s ++ t = a ++ c :: b) :
    (∃ u, s = a ++ c :: u ∧ b = u ++ t) ∨ ∃ u, a = s ++ u ∧ t = u ++ c :: b := by
  rcases List.append_eq_append_iff.1 h with ⟨u, rfl, ht⟩ | ⟨u, rfl, hu⟩
  · exact Or.inr ⟨u, rfl, ht⟩
  · rcases List.cons_eq_append_iff.1 hu with ⟨rfl, ht⟩ | ⟨v, rfl, hb⟩
    · exact Or.inr ⟨[], by simp, ht⟩
    · exact Or.inl ⟨v, rfl, hb⟩

theorem split_ne_nil (sep s : List Char) : split sep s ≠ [] := by
  induction s with
  | nil => simp [split, splitFrom]
  | cons c s ih =>
    rw [split, splitFrom]
    split_ifs
    · simp
    · split <;> simp

/-! ## Cutting once -/

theorem afterPrefix?_append (p s : List Char) : afterPrefix? p (p ++ s) = some s := by
  rw [afterPrefix?, if_pos (List.isPrefixOf_iff_prefix.2 (List.prefix_append p s)), List.drop_left]

theorem eq_of_breakLast? {sep s a b : List Char} (h : breakLast? sep s = some (a, b)) : s = a ++ (sep ++ b) := by
  induction s generalizing a with
  | nil =>
    rw [breakLast?] at h
    split_ifs at h with hsep
    cases h
    rw [List.isEmpty_iff.1 hsep]
    rfl
  | cons c s ih =>
    rw [breakLast?] at h
    split at h
    · next a' b' hs =>
      cases h
      rw [ih hs, List.cons_append]
    · split_ifs at h with hp
      cases h
      obtain ⟨t, ht⟩ := List.isPrefixOf_iff_prefix.1 hp
      rw [← ht, List.drop_left]
      rfl

theorem breakLast?_eq_none {sep s : List Char} (h : ¬ sep <:+: s) : breakLast? sep s = none := by
  cases hs : breakLast? sep s with
  | none => rfl
  | some p =>
    refine absurd ⟨p.1, p.2, ?_⟩ h
    rw [eq_of_breakLast? hs, List.append_assoc]

/-- the last separator is the one behind whose first character none begins -/
theorem breakLast?_sep_append {m : Char} {t b : List Char} (h : ¬ m :: t <:+: t ++ b) (a : List Char) :
    breakLast? (m :: t) (a ++ (m :: t ++ b)) = some (a, b) := by
  induction a with
  | nil =>
    rw [List.nil_append, List.cons_append, breakLast?, breakLast?_eq_none h]
    simp
  | cons c a ih => rw [List.cons_append, breakLast?, ih]

/-- the last mark is the one that none stands behind -/
theorem breakLast?_append {mark : Char} {b : List Char} (h : mark ∉ b) (a : List Char) :
    breakLast? [mark] (a ++ mark :: b) = some (a, b) :=
  breakLast?_sep_append (fun hbehind => h (hbehind.subset (List.mem_singleton_self mark))) a

/-- the separator is looked for behind a text that does not hold its first character -/
theorem breakAt?_skip {sep a : List Char} {m : Char} (hsep : sep.head? = some m) (h : m ∉ a) (r : List Char) :
    breakAt? sep (a ++ r) = (breakAt? sep r).map fun p => (a ++ p.1, p.2) := by
  induction a with
  | nil => simp
  | cons c a ih =>
    have hnot : sep.isPrefixOf (c :: (a ++ r)) = false := by
      rw [Bool.eq_false_iff, ne_eq, List.isPrefixOf_iff_prefix]
      exact not_prefix_of_head? hsep (List.ne_of_not_mem_cons h)
    rw [List.cons_append, breakAt?, hnot, ih (List.not_mem_of_not_mem_cons h), Option.map_map]
    rfl

theorem isSome_breakAt? {sep s : List Char} (h : sep <:+: s) : (breakAt? sep s).isSome = true := by
  induction s with
  | nil =>
    rw [List.infix_nil.1 h]
    rfl
  | cons c s ih =>
    rw [breakAt?]
    split_ifs with hp
    · rfl
    · have hbehind := (List.infix_cons_iff.1 h).resolve_left fun hprefix => hp (List.isPrefixOf_iff_prefix.2 hprefix)
      rw [Option.isSome_map]
      exact ih hbehind

/-- what stands before the first mark is what can be read without meeting one -/
theorem breakAt?_mark (mark : Char) (s : List Char) :
    ((breakAt? [mark] s).map (·.1)).getD s = s.takeWhile fun c => c != mark := by
  induction s with
  | nil => rfl
  | cons c s ih =>
    by_cases hc : c = mark
    · simp [breakAt?, hc]
    · have hnot : [mark].isPrefixOf (c :: s) = false := by simp [List.isPrefixOf, Ne.symm hc]
      rw [breakAt?, hnot, List.takeWhile_cons_of_pos (by simpa using hc), ← ih]
      cases breakAt? [mark] s <;> rfl

section

variable {mark : Char} {a : List Char} (h : mark ∉ a)

include h

/-- what can be read without meeting a mark ends at the mark -/
theorem takeWhile_append (r : List Char) : (a ++ mark :: r).takeWhile (fun c => c != mark) = a := by
  rw [List.takeWhile_append_of_pos fun c hc => bne_iff_ne.2 (ne_of_mem_of_not_mem hc h),
    List.takeWhile_cons_of_neg (by simp), List.append_nil]

theorem takeWhile_eq_self : a.takeWhile (fun c => c != mark) = a := by
  rw [← List.append_nil a, List.takeWhile_append_of_pos fun c hc => bne_iff_ne.2 (ne_of_mem_of_not_mem hc h)]
  rfl

end

section

variable {sep : List Char}

theorem breakAt?_append (hsep : sep ≠ []) {a : List Char} (h : Clear sep a) (r : List Char) :
    breakAt? sep (a ++ (sep ++ r)) = some (a, r) := by
  induction a with
  | nil =>
    obtain ⟨c, t, rfl⟩ := List.exists_cons_of_ne_nil hsep
    simp [breakAt?]
  | cons c a ih =>
    have hnot : sep.isPrefixOf (c :: (a ++ (sep ++ r))) = false := by
      rw [Bool.eq_false_iff, ne_eq, List.isPrefixOf_iff_prefix]
      exact h.not_at_head r
    rw [List.cons_append, breakAt?, hnot, ih h.tail]
    rfl

theorem breakTimes?_pieces (hsep : sep ≠ []) {as : List (List Char)} (h : ∀ a ∈ as, Clear sep a) (r : List Char) :
    breakTimes? sep as.length ((as.flatMap fun a => a ++ sep) ++ r) = some (as, r) := by
  induction as with
  | nil => rfl
  | cons a as ih =>
    rw [List.flatMap_cons, List.append_assoc, List.append_assoc, List.length_cons, breakTimes?,
      breakAt?_append hsep (h a List.mem_cons_self)]
    have hrest := ih fun b hb => h b (List.mem_cons_of_mem a hb)
    simp [hrest]

/-! ## Cutting everywhere -/

theorem splitFrom_eq_split (k : Nat) (s : List Char) : splitFrom sep k s = split sep (s.drop k) := by
  induction k generalizing s with
  | zero => rfl
  | succ k ih =>
    cases s with
    | nil => rfl
    | cons c s => exact ih s

theorem split_sep_append (hsep : sep ≠ []) (r : List Char) : split sep (sep ++ r) = [] :: split sep r := by
  obtain ⟨c, t, rfl⟩ := List.exists_cons_of_ne_nil hsep
  have hp : (c :: t).isPrefixOf (c :: (t ++ r)) = true := by
    rw [List.isPrefixOf_iff_prefix]
    exact List.prefix_append (c :: t) r
  rw [List.cons_append, split, splitFrom, hp, splitFrom_eq_split]
  simp

theorem split_cons {s : List Char} {c : Char} (h : ¬ sep <+: c :: s) :
    ∃ p ps, split sep s = p :: ps ∧ split sep (c :: s) = (c :: p) :: ps := by
  obtain ⟨p, ps, hps⟩ := List.exists_cons_of_ne_nil (split_ne_nil sep s)
  have hp : sep.isPrefixOf (c :: s) = false := by
    rw [Bool.eq_false_iff, ne_eq, List.isPrefixOf_iff_prefix]
    exact h
  refine ⟨p, ps, hps, ?_⟩
  rw [split] at hps ⊢
  rw [splitFrom, hp, hps]
  simp

theorem split_append (hsep : sep ≠ []) {a : List Char} (h : Clear sep a) (r : List Char) :
    split sep (a ++ (sep ++ r)) = a :: split sep r := by
  induction a with
  | nil => exact split_sep_append hsep r
  | cons c a ih =>
    obtain ⟨p, ps, hps, hsplit⟩ := split_cons (h.not_at_head r)
    rw [ih h.tail] at hps
    obtain ⟨rfl, rfl⟩ := List.cons.inj hps
    exact hsplit

theorem split_eq_singleton {a : List Char} (h : Clear sep a) : split sep a = [a] := by
  induction a with
  | nil => rfl
  | cons c a ih =>
    have hnot : ¬ sep <+: c :: a := fun hp => h (hp.trans (List.prefix_append _ _)).isInfix
    obtain ⟨p, ps, hps, hsplit⟩ := split_cons hnot
    rw [ih h.tail] at hps
    obtain ⟨rfl, rfl⟩ := List.cons.inj hps
    exact hsplit

/-- pieces with a separator between each two are found again -/
theorem split_intercalate (hsep : sep ≠ []) {as : List (List Char)} (hne : as ≠ []) (h : ∀ a ∈ as, Clear sep a) :
    split sep (sep.intercalate as) = as := by
  induction as with
  | nil => exact absurd rfl hne
  | cons a as ih =>
    have ha : Clear sep a := h a List.mem_cons_self
    cases as with
    | nil => rw [List.intercalate_singleton, split_eq_singleton ha]
    | cons b bs =>
      have hrest := ih (List.cons_ne_nil b bs) fun p hp => h p (List.mem_cons_of_mem a hp)
      rw [List.intercalate_cons_cons, List.append_assoc, split_append hsep ha, hrest]

theorem split_pieces (hsep : sep ≠ []) {as : List (List Char)} (h : ∀ a ∈ as, Clear sep a) (r : List Char) :
    split sep ((as.flatMap fun a => a ++ sep) ++ r) = as ++ split sep r := by
  induction as with
  | nil => rfl
  | cons a as ih =>
    have hrest := ih fun b hb => h b (List.mem_cons_of_mem a hb)
    rw [List.flatMap_cons, List.append_assoc, List.append_assoc, split_append hsep (h a List.mem_cons_self), hrest,
      List.cons_append]

end

/-- lines with a line feed behind each are the lines of the text they make -/
theorem lines_flatMap {ls : List (List Char)} (hfeed : ∀ l ∈ ls, '\n' ∉ l)
    (hreturn : ∀ l ∈ ls, l.getLast? ≠ some '\r') :
    lines (ls.flatMap fun l => l ++ ['\n']) = ls := by
  have hclear : ∀ l ∈ ls, Clear ['\n'] l := fun l hl => clear_of_not_mem rfl (hfeed l hl)
  have hsplit : split ['\n'] (ls.flatMap fun l => l ++ ['\n']) = ls ++ [[]] := by
    have hpieces := split_pieces (List.cons_ne_nil '\n' []) hclear []
    rwa [List.append_nil] at hpieces
  have hkept : (ls.map fun l => if l.getLast? = some '\r' then l.dropLast else l) = ls := by
    rw [List.map_congr_left fun l hl => if_neg (hreturn l hl), List.map_id']
  rw [lines, hsplit]
  simp only [List.dropLast_concat, List.getLast?_concat, hkept]

/-! ## Replacing -/

theorem replace_nil (old new : List Char) : replace old new [] = [] := rfl

theorem replace_append {old : List Char} (hold : old ≠ []) (new r : List Char) :
    replace old new (old ++ r) = new ++ replace old new r := by
  obtain ⟨p, ps, hps⟩ := List.exists_cons_of_ne_nil (split_ne_nil old r)
  rw [replace, replace, split_sep_append hold, hps, List.intercalate_cons_cons, List.nil_append]

theorem replace_cons {old s : List Char} {c : Char} (h : ¬ old <+: c :: s) (new : List Char) :
    replace old new (c :: s) = c :: replace old new s := by
  obtain ⟨p, ps, hps, hsplit⟩ := split_cons h
  rw [replace, replace, hsplit, hps]
  cases ps with
  | nil => simp [List.intercalate]
  | cons q qs => rw [List.intercalate_cons_cons, List.intercalate_cons_cons, List.cons_append, List.cons_append]

/-- what holds of the empty text, of an `old` at the head, and of a character at which no `old` begins, holds of every
text and of what it becomes -/
theorem replace_induction {old new : List Char} (hold : old ≠ []) {P : List Char → List Char → Prop} (hnil : P [] [])
    (hold' : ∀ r, P r (replace old new r) → P (old ++ r) (new ++ replace old new r))
    (hcons : ∀ c r, ¬ old <+: c :: r → P r (replace old new r) → P (c :: r) (c :: replace old new r))
    (s : List Char) : P s (replace old new s) := by
  induction hn : s.length using Nat.strong_induction_on generalizing s with
  | _ n ih =>
    subst hn
    cases s with
    | nil => exact hnil
    | cons c r =>
      by_cases hp : old <+: c :: r
      · obtain ⟨t, ht⟩ := hp
        have hshort : t.length < (c :: r).length := by
          rw [← ht, List.length_append]
          exact Nat.lt_add_of_pos_left (List.length_pos_iff.2 hold)
        rw [← ht, replace_append hold]
        exact hold' t (ih _ hshort t rfl)
      · rw [replace_cons hp]
        exact hcons c r hp (ih _ (by simp) r rfl)

theorem replace_subset {old new s : List Char} (hold : old ≠ []) : replace old new s ⊆ s ++ new := by
  apply replace_induction hold (P := fun s t => t ⊆ s ++ new)
  · simp
  · intro r ih c hc
    rcases List.mem_append.1 hc with hc | hc
    · exact List.mem_append_right _ hc
    · rw [List.append_assoc]
      exact List.mem_append_right old (ih hc)
  · intro c r _ ih
    rw [List.cons_append]
    exact List.cons_subset_cons c ih

end LogRelay.Text
