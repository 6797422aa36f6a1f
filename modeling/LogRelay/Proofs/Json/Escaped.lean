/-
What the JSON text of a payload looks like to a reader that knows nothing of JSON.

It holds no control, so it is one line; and a backslash in it belongs together with the character after it, which is
never a bar (`Escaped`). So a space, a backslash and a bar never stand there one after the other: the backslash would
have to begin an escape, and there is no escape of a bar (`Escaped.no_escaped_bar`).
-/
import Mathlib.Tactic
import LogRelay.Payload
import LogRelay.Proofs.Text.Figures

namespace LogRelay

namespace Json

/-- a text without controls, in which every backslash escapes the character after it and no bar is escaped -/
inductive Escaped : List Char → Prop where
  | nil : Escaped []
  | char {c : Char} {s : List Char} (hc : c ≠ '\\') (hlow : ' ' ≤ c) (hs : Escaped s) : Escaped (c :: s)
  | escape {c : Char} {s : List Char} (hc : c ≠ '|') (hlow : ' ' ≤ c) (hs : Escaped s) : Escaped ('\\' :: c :: s)

namespace Escaped

theorem append {s t : List Char} (hs : Escaped s) (ht : Escaped t) : Escaped (s ++ t) := by
  induction hs with
  | nil => exact ht
  | char hc hlow _ ih => exact .char hc hlow ih
  | escape hc hlow _ ih => exact .escape hc hlow ih

theorem flatMap {α : Type} {f : α → List Char} (h : ∀ a, Escaped (f a)) (l : List α) : Escaped (l.flatMap f) := by
  induction l with
  | nil => exact .nil
  | cons a l ih =>
    rw [List.flatMap_cons]
    exact (h a).append ih

theorem of_figures {s : List Char} (h : s.all isFigure = true) : Escaped s := by
  induction s with
  | nil => exact .nil
  | cons c s ih =>
    rw [List.all_cons, Bool.and_eq_true] at h
    exact .char (ne_of_isFigure h.1 (by decide)) (space_le_of_isFigure h.1) (ih h.2)

theorem space_le {s : List Char} (hs : Escaped s) : ∀ c ∈ s, ' ' ≤ c := by
  induction hs with
  | nil => simp
  | char _ hlow _ ih =>
    intro d hd
    rcases List.mem_cons.1 hd with rfl | hd
    · exact hlow
    · exact ih d hd
  | escape _ hlow _ ih =>
    intro d hd
    rcases List.mem_cons.1 hd with rfl | hd
    · decide
    · rcases List.mem_cons.1 hd with rfl | hd
      · exact hlow
      · exact ih d hd

theorem not_mem_lineFeed {s : List Char} (hs : Escaped s) : '\n' ∉ s := by
  intro h
  exact absurd (hs.space_le _ h) (by decide)

theorem head_ne_bar {s : List Char} (hs : Escaped ('\\' :: s)) : s.head? ≠ some '|' := by
  cases hs with
  | char hc _ _ => exact absurd rfl hc
  | escape hc _ _ => simpa using hc

/-- a space, a backslash and a bar never stand one after the other -/
theorem no_escaped_bar {s : List Char} (hs : Escaped s) : ¬ [' ', '\\', '|'] <:+: s := by
  -- a space at the head would stand before an escape of a bar
  have hhead : ∀ {c : Char} {t : List Char}, Escaped t → ¬ [' ', '\\', '|'] <+: c :: t := by
    rintro c t ht ⟨r, hr⟩
    obtain ⟨-, rfl⟩ := List.cons.inj hr
    exact ht.head_ne_bar rfl
  induction hs with
  | nil => simp
  | char _ _ hs ih =>
    rw [List.infix_cons_iff, not_or]
    exact ⟨hhead hs, ih⟩
  | escape _ _ hs ih =>
    rw [List.infix_cons_iff, List.infix_cons_iff, not_or, not_or]
    refine ⟨?_, hhead hs, ih⟩
    rintro ⟨r, hr⟩
    exact absurd (List.cons.inj hr).1 (by decide)

end Escaped

/-! ## Texts in quotes -/

theorem hexFigure_small : ∀ n < 16, hexFigure n ≠ '\\' ∧ ' ' ≤ hexFigure n := by decide

theorem escaped_escape (c : Char) : Escaped (escape c) := by
  unfold escape
  split_ifs with _ hback _ _ _ _ _ hlow
  all_goals try exact .escape (by decide) (by decide) .nil
  · -- a control, written by number
    have hsmall : c.toNat < 32 := by
      rw [Char.lt_def, UInt32.lt_iff_toNat_lt] at hlow
      exact hlow
    obtain ⟨h1, h1'⟩ := hexFigure_small (c.toNat / 16) (by omega)
    obtain ⟨h2, h2'⟩ := hexFigure_small (c.toNat % 16) (by omega)
    have hnumber := Escaped.char h1 h1' (.char h2 h2' .nil)
    have hzero : '0' ≠ '\\' ∧ ' ' ≤ '0' := by decide
    exact .escape (by decide) (by decide) (.char hzero.1 hzero.2 (.char hzero.1 hzero.2 hnumber))
  · exact .char hback (Char.not_lt.1 hlow) .nil

theorem escaped_quote (s : List Char) : Escaped (quote s) := by
  have hquote : Escaped ['"'] := .char (by decide) (by decide) .nil
  exact (hquote.append (Escaped.flatMap escaped_escape s)).append hquote

end Json

/-! ## Values -/

open Json

theorem escaped_mark {c : Char} (h : c ∈ ['{', '}', ':', ',']) : Escaped [c] := by
  simp only [List.mem_cons, List.not_mem_nil, or_false] at h
  rcases h with rfl | rfl | rfl | rfl <;> exact .char (by decide) (by decide) .nil

namespace Value

mutual

theorem escaped_json (v : Value) : Escaped v.json := by
  cases v with
  | text s => rw [json]; exact escaped_quote s.toList
  | int n => rw [json]; exact .of_figures (isFigure_int n.toInt)
  | float x => rw [json]; exact .of_figures (Decimal.isFigure_json x)
  | bool b => rw [json]; cases b <;> exact .of_figures (by decide)
  | map fields =>
    rw [json]
    exact ((escaped_mark (c := '{') (by simp)).append (escaped_jsonOfFields fields)).append
      (escaped_mark (c := '}') (by simp))
  | null => rw [json]; exact .of_figures (by decide)

theorem escaped_jsonOfFields (fs : List (String × Value)) : Escaped (jsonOfFields fs) := by
  match fs with
  | [] => rw [jsonOfFields]; exact .nil
  | [(k, v)] =>
    rw [jsonOfFields]
    exact (escaped_quote k.toList).append ((escaped_mark (c := ':') (by simp)).append (escaped_json v))
  | (k, v) :: f :: fs =>
    rw [jsonOfFields]
    have hvalue := (escaped_mark (c := ':') (by simp)).append (escaped_json v)
    have hrest := (escaped_mark (c := ',') (by simp)).append (escaped_jsonOfFields (f :: fs))
    have hall := (escaped_quote k.toList).append (hvalue.append hrest)
    simpa using hall

end

end Value

theorem Payload.escaped_json (p : Payload) : Escaped p.json := Value.escaped_json _

end LogRelay
