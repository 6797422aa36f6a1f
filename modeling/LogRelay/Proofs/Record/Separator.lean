/-
Where the separators of a record can stand.

A text is guarded when no bar stands at its beginning or right after a space in it. A separator has its bar after a
space, so none begins in a guarded text, and none arises where guarded texts are put together. The texts without a bar
are guarded, so is all that can be left of a message, and so is what can be left of a JSON text that is guarded
itself.
- `split_guarded`: a line whose fields hold guarded texts is cut back into them.
- `Leaves.guarded_message`, `Leaves.guarded_data`: what is left of a message or of a JSON text.
-/
import Mathlib.Tactic
import LogRelay.Proofs.Record.Fields
import LogRelay.Proofs.Record.Line

namespace LogRelay.Record

open Text

/-- no bar stands at the beginning of a text, nor right after a space in it -/
def Guarded (t : List Char) : Prop := ¬ [' ', '|'] <:+: ' ' :: t

theorem no_bar_after_space_of_not_mem {t : List Char} (h : '|' ∉ t) : ¬ [' ', '|'] <:+: t := by
  intro hin
  exact h (hin.subset (by simp))

/-- where no bar stands right after a space, no separator begins -/
theorem clear_of_no_bar_after_space {t : List Char} (h : ¬ [' ', '|'] <:+: t) : Clear separator t := by
  rintro ⟨x, y, hxy⟩
  have hsplit : x ++ [' ', '|', ' '] ++ y = t ++ [' ', '|'] := hxy
  -- the separator would end before the last character of all, and then before the space in front of it
  rcases List.eq_nil_or_concat y with rfl | ⟨y, c, rfl⟩
  · have hend : (x ++ [' ', '|']) ++ [' '] = (t ++ [' ']) ++ ['|'] := by simpa using hsplit
    exact absurd (List.append_inj_right' hend rfl) (by decide)
  · have hinit : x ++ [' ', '|', ' '] ++ y = t ++ [' '] := by
      have hend : (x ++ [' ', '|', ' '] ++ y) ++ [c] = (t ++ [' ']) ++ ['|'] := by simpa using hsplit
      exact List.append_inj_left' hend rfl
    rcases List.eq_nil_or_concat y with rfl | ⟨y, d, rfl⟩
    · have hend : (x ++ [' ', '|']) ++ [' '] = t ++ [' '] := by simpa using hinit
      exact h ⟨x, [], by rw [List.append_nil]; exact List.append_inj_left' hend rfl⟩
    · have hend : (x ++ [' ', '|', ' '] ++ y) ++ [d] = t ++ [' '] := by simpa using hinit
      have heq := List.append_inj_left' hend rfl
      exact h ⟨x, ' ' :: y, by simpa using heq⟩

namespace Guarded

theorem of_not_mem {t : List Char} (h : '|' ∉ t) : Guarded t := no_bar_after_space_of_not_mem (by simpa using h)

theorem no_bar_after_space {t : List Char} (h : Guarded t) : ¬ [' ', '|'] <:+: t :=
  fun hin => h (hin.trans (List.suffix_cons ' ' t).isInfix)

theorem clear {t : List Char} (h : Guarded t) : Clear separator t := clear_of_no_bar_after_space h.no_bar_after_space

theorem append {a b : List Char} (ha : Guarded a) (hb : Guarded b) : Guarded (a ++ b) := by
  unfold Guarded
  rw [← List.cons_append, List.infix_append_iff]
  rintro (hin | hin | ⟨u, v, huv, hu, hv⟩)
  · exact ha hin
  · exact hb.no_bar_after_space hin
  · rcases List.cons_eq_append_iff.1 huv with ⟨rfl, rfl⟩ | ⟨w, rfl, hw⟩
    · exact hb.no_bar_after_space hv.isInfix
    · rcases List.cons_eq_append_iff.1 hw with ⟨rfl, rfl⟩ | ⟨z, rfl, hz⟩
      · exact hb ((List.prefix_cons_inj ' ').2 hv).isInfix
      · obtain ⟨rfl, rfl⟩ := List.append_eq_nil_iff.1 hz.symm
        exact ha hu.isInfix

theorem of_prefix {a b : List Char} (hb : Guarded b) (h : a <+: b) : Guarded a :=
  fun hin => hb (hin.trans ((List.prefix_cons_inj ' ').2 h).isInfix)

/-- what stands behind a space in a guarded text is guarded -/
theorem after_space {a b : List Char} (h : Guarded (a ++ ' ' :: b)) : Guarded b :=
  fun hin => h.no_bar_after_space (hin.trans (List.suffix_append a (' ' :: b)).isInfix)

theorem cons_iff {c : Char} {t : List Char} (hc : c ≠ '|') : Guarded (c :: t) ↔ ¬ [' ', '|'] <:+: c :: t := by
  refine ⟨no_bar_after_space, fun h hin => ?_⟩
  rcases List.infix_cons_iff.1 hin with ⟨r, hr⟩ | hin
  · exact hc (List.cons.inj (List.cons.inj hr).2).1.symm
  · exact h hin

end Guarded

/-! ## Lines -/

/-- the texts of a line are cut back, the first one with the header before it -/
theorem split_guarded (l : Layout) (s : Severity) {ts : List (List Char)} (hne : ts ≠ [])
    (hts : ∀ t ∈ ts, Guarded t) (r : List Char) :
    ∃ ps, ps.length = ts.length ∧
      split separator ((if l.header then header s else []) ++ (ts.flatMap fun t => t ++ separator) ++ r) =
        ps ++ split separator r := by
  obtain ⟨t, ts, rfl⟩ := List.exists_cons_of_ne_nil hne
  set h := if l.header then header s else [] with hh
  have hheader : Guarded h := by
    apply Guarded.of_not_mem
    rw [hh]
    split
    · cases s <;> decide
    · simp
  have hpieces : ∀ a ∈ (h ++ t) :: ts, Clear separator a := by
    intro a ha
    rcases List.mem_cons.1 ha with rfl | ha
    · exact (hheader.append (hts t List.mem_cons_self)).clear
    · exact (hts a (List.mem_cons_of_mem t ha)).clear
  refine ⟨(h ++ t) :: ts, by simp, ?_⟩
  rw [← split_pieces (by decide) hpieces]
  simp

/-! ## What is left of the fields -/

theorem Piece.Leaves.guarded {p : Piece} {t : List Char} (ht : p.Leaves t) (hp : Guarded p.chars) : Guarded t := by
  cases p with
  | run s => exact hp.of_prefix ht
  | whole s =>
    rcases ht with rfl | rfl
    · exact Guarded.of_not_mem (by simp)
    · exact hp

theorem Leaves.guarded {f : Field} {t : List Char} (ht : Leaves f t) (hf : ∀ p ∈ f, Guarded p.chars) : Guarded t :=
  Leaves.induction (P := Guarded) (Guarded.of_not_mem (by simp)) (fun _ _ => Guarded.append)
    (fun p hp _ ht => ht.guarded (hf p hp)) ht

/-- a field is guarded if its pieces are -/
theorem guarded_fullText {f : Field} (hf : ∀ p ∈ f, Guarded p.chars) : Guarded (fullText f) := by
  induction f with
  | nil => exact Guarded.of_not_mem (by simp [fullText])
  | cons p f ih =>
    have hrest := ih fun q hq => hf q (List.mem_cons_of_mem p hq)
    exact (hf p List.mem_cons_self).append hrest

theorem guarded_orDash {t : List Char} (h : '|' ∉ t) : Guarded (orDash t) :=
  Guarded.of_not_mem (not_mem_orDash (by decide) h)

theorem guarded_plain {t : List Char} (h : '|' ∉ t) : ∀ p ∈ plain t, Guarded p.chars := by
  intro p hp
  rw [plain, List.mem_singleton] at hp
  subst hp
  exact guarded_orDash h

theorem guarded_escape {d : Char} (hd : d ∈ ['\\', '|', 'r', 'n']) : Guarded ['\\', d] := by
  simp only [List.mem_cons, List.not_mem_nil, or_false] at hd
  rcases hd with rfl | rfl | rfl | rfl <;> (unfold Guarded; decide)

/-- the pieces of a message are guarded: a bar stands in an escape only -/
theorem guarded_messagePieces (s : List Char) : ∀ p ∈ messagePieces s, Guarded p.chars := by
  have hnil : Guarded [] := Guarded.of_not_mem (by simp)
  induction s with
  | nil => simpa [messagePieces, Piece.chars] using hnil
  | cons c s ih =>
    have hcons : messagePieces (c :: s) = cons c (messagePieces s) := rfl
    rw [hcons]
    generalize messagePieces s = ps at ih
    rcases escape?_cases c with ⟨hnone, hc⟩ | ⟨d, hd, hsome⟩
    · have hone : Guarded [c] := Guarded.of_not_mem (by grind)
      unfold cons
      rw [hnone]
      split
      · next h => cases h
      · next t ps _ =>
        rw [List.forall_mem_cons] at ih ⊢
        exact ⟨hone.append ih.1, ih.2⟩
      · rw [List.forall_mem_cons]
        exact ⟨hone, ih⟩
    · unfold cons
      rw [hsome]
      simp only [List.forall_mem_cons]
      exact ⟨hnil, guarded_escape hd, ih⟩

theorem guarded_message (s : List Char) : ∀ p ∈ message s, Guarded p.chars := by
  unfold message
  split
  · exact guarded_plain (by simp)
  · exact guarded_messagePieces s

/-- so are those of all fields in front of the JSON, when no bar stands in the texts taken over as they are -/
theorem guarded_frontFields {l : Layout} {s : Severity} {e : Event} {stack : List Frame}
    (h : ∀ t ∈ givenTexts l e stack, '|' ∉ t) : ∀ f ∈ frontFields l s e stack, ∀ p ∈ f, Guarded p.chars := by
  intro f hf
  rcases List.mem_append.1 hf with hf | hf
  · obtain ⟨t, ht, rfl⟩ := List.mem_map.1 hf
    exact guarded_plain (not_mem_frontTexts (by decide) h t ht)
  · rw [List.mem_singleton] at hf
    rw [hf]
    exact guarded_message e.message.toList

theorem guarded_jsonPieces {acc s : List Char}
    (h : Guarded (acc.reverse ++ replace separator escapedSeparator s)) :
    ∀ p ∈ jsonPieces acc s, Guarded p.chars := by
  fun_induction jsonPieces acc s with
  | case1 acc =>
    rw [replace_nil, List.append_nil] at h
    simpa [Piece.chars] using h
  | case2 acc r ih =>
    have hsep : ' ' :: '|' :: ' ' :: r = separator ++ r := rfl
    rw [hsep, replace_append (by decide), ← List.append_assoc] at h
    have hwhole : Guarded escapedSeparator := by unfold Guarded; decide
    have hrest : Guarded (replace separator escapedSeparator r) := by
      apply Guarded.after_space (a := acc.reverse ++ [' ', '\\', '|'])
      simpa [escapedSeparator] using h
    simp only [List.forall_mem_cons]
    exact ⟨h.of_prefix ((List.prefix_append _ _).trans (List.prefix_append _ _)), hwhole, ih hrest⟩
  | case3 acc c r hsep ih =>
    rw [replace_cons (not_separator_at hsep)] at h
    exact ih (by simpa using h)

/-- the JSON of a payload is guarded when no bar stands right after a space in it -/
theorem guarded_fullText_data {d : Option Payload} :
    Guarded (fullText (data d)) ↔ ¬ [' ', '|'] <:+: fullText (data d) := by
  obtain ⟨t, ht⟩ := fullText_data_eq_cons d
  rw [ht]
  exact Guarded.cons_iff (by decide)

theorem guarded_data {d : Option Payload} (h : Guarded (fullText (data d))) : ∀ p ∈ data d, Guarded p.chars := by
  rw [data_eq] at h ⊢
  rw [fullText_jsonPieces] at h
  exact guarded_jsonPieces h

end LogRelay.Record
