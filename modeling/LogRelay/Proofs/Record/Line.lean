/-
A record as a line of text.

Whatever the budget cuts, it cuts between characters: of a run a beginning is left, and an escape is left whole or not
at all (`Piece.Leaves`). So every record is the octets of a line, made of what is left of its fields (`exists_line`),
and no reader of it meets half a character (`record_is_text`).
-/
import Mathlib.Tactic
import LogRelay.Proofs.Record.Ceiling
import LogRelay.Proofs.Text.Octets

namespace LogRelay.Record

open Text

/-- the line of a record whose fields hold the texts `ts` -/
def line (l : Layout) (s : Severity) (ts : List (List Char)) (truncated : Bool) : List Char :=
  (if l.header then header s else []) ++ (ts.flatMap fun t => t ++ separator) ++ terminator truncated

/-- what may be left of a piece -/
def Piece.Leaves : Piece → List Char → Prop
  | .run s, t => t <+: s
  | .whole s, t => t = [] ∨ t = s

/-- what may be left of a field -/
def Leaves (f : Field) (t : List Char) : Prop := ∃ ts, List.Forall₂ Piece.Leaves f ts ∧ t = ts.flatten

/-- what holds of all that may be left of its pieces, and of texts put together, holds of what is left of a field -/
theorem Leaves.induction {P : List Char → Prop} (hnil : P []) (happend : ∀ a b, P a → P b → P (a ++ b)) {f : Field}
    (hf : ∀ p ∈ f, ∀ t, p.Leaves t → P t) {t : List Char} (ht : Leaves f t) : P t := by
  obtain ⟨ts, hts, rfl⟩ := ht
  induction hts with
  | nil => exact hnil
  | cons h _ ih =>
    rw [List.flatten_cons]
    apply happend
    · exact hf _ List.mem_cons_self _ h
    · exact ih fun p hp => hf p (List.mem_cons_of_mem _ hp)

theorem Piece.Leaves.subset {p : Piece} {t : List Char} (h : p.Leaves t) : t ⊆ p.chars := by
  cases p with
  | run s => exact List.IsPrefix.subset h
  | whole s =>
    rcases h with rfl | rfl
    · exact List.nil_subset _
    · exact List.Subset.refl _

/-- nothing is left of a field that did not stand in it -/
theorem Leaves.subset {f : Field} {t : List Char} (h : Leaves f t) : t ⊆ fullText f := by
  apply Leaves.induction (P := fun t => t ⊆ fullText f) (List.nil_subset _) ?_ ?_ h
  · intro a b ha hb
    exact List.append_subset.2 ⟨ha, hb⟩
  · intro p hp t ht c hc
    exact List.mem_flatMap.2 ⟨p, hp, ht.subset hc⟩

/-- all that comes of fields comes of one of them -/
theorem exists_field {α : Type} {R : Field → α → Prop} {fs : List Field} {ts : List α}
    (h : List.Forall₂ R fs ts) {t : α} (ht : t ∈ ts) : ∃ f ∈ fs, R f t := by
  induction h with
  | nil => cases ht
  | cons hf _ ih =>
    rcases List.mem_cons.1 ht with rfl | ht
    · exact ⟨_, List.mem_cons_self, hf⟩
    · obtain ⟨f, hmem, hleaves⟩ := ih ht
      exact ⟨f, List.mem_cons_of_mem _ hmem, hleaves⟩

namespace Budget

theorem push_fst (b : Budget) (s : Octets) : (b.push s).1 = cut s b.allowance := by
  unfold push
  simp only
  split <;> rfl

theorem piece_leaves (b : Budget) (p : Piece) : ∃ t, p.Leaves t ∧ (b.piece p).1 = octets t := by
  cases p with
  | run s =>
    obtain ⟨u, hu, hcut⟩ := cut_octets s b.allowance
    exact ⟨u, hu, (push_fst b (octets s)).trans hcut⟩
  | whole s =>
    by_cases h : b.allowance < (octets s).length
    · refine ⟨[], Or.inl rfl, ?_⟩
      rw [piece, pushWhole, if_pos h]
      rfl
    · refine ⟨s, Or.inr rfl, ?_⟩
      rw [piece, pushWhole, if_neg h, push_fst, cut_of_le (Nat.not_lt.1 h)]

-- all that is written goes through these; the budget is general, since every piece leaves another one to the next
theorem pieces_leaves (b : Budget) (ps : List Piece) :
    ∃ ts, List.Forall₂ Piece.Leaves ps ts ∧ (b.pieces ps).1 = ts.map octets := by
  induction ps generalizing b with
  | nil => exact ⟨[], .nil, rfl⟩
  | cons p ps ih =>
    obtain ⟨t, ht, heq⟩ := piece_leaves b p
    obtain ⟨ts, hts, hrest⟩ := ih (b.piece p).2
    refine ⟨t :: ts, .cons ht hts, ?_⟩
    rw [pieces, List.map_cons, ← heq, ← hrest]

/-- what every field comes out as, whatever budget it finds, and all budgets it can find have a property -/
theorem fields_forall₂ {R : Field → List Octets → Prop} {P : Budget → Prop} (hkeep : ∀ b f, P b → P (b.field f).2)
    {fs : List Field} (hfs : ∀ f ∈ fs, ∀ b, P b → R f (b.field f).1) {b : Budget} (hb : P b) :
    List.Forall₂ R fs (b.fields fs).1 := by
  induction fs generalizing b with
  | nil => exact .nil
  | cons f fs ih =>
    apply List.Forall₂.cons
    · exact hfs f List.mem_cons_self b hb
    · exact ih (fun g hg => hfs g (List.mem_cons_of_mem f hg)) (hkeep b f hb)

theorem field_leaves (b : Budget) (f : Field) : ∃ t, Leaves f t ∧ (b.field f).1.flatten = octets t := by
  obtain ⟨ts, hts, heq⟩ := pieces_leaves { b with written := 0 } f
  exact ⟨ts.flatten, ⟨ts, hts, rfl⟩, by rw [field, heq, flatten_map_octets]⟩

theorem fields_leaves (b : Budget) (fs : List Field) :
    ∃ ts, List.Forall₂ Leaves fs ts ∧ (b.fields fs).1.map List.flatten = ts.map octets := by
  induction fs generalizing b with
  | nil => exact ⟨[], .nil, rfl⟩
  | cons f fs ih =>
    obtain ⟨t, ht, heq⟩ := field_leaves b f
    obtain ⟨ts, hts, hrest⟩ := ih (b.field f).2
    refine ⟨t :: ts, .cons ht hts, ?_⟩
    rw [fields, List.map_cons, List.map_cons, ← heq, ← hrest]

end Budget

theorem octets_line (l : Layout) (s : Severity) (ts : List (List Char)) (truncated : Bool) :
    octets (line l s ts truncated) = (if l.header then octets (header s) else [])
      ++ ((ts.map octets).flatMap fun t => t ++ octets separator) ++ octets (terminator truncated) := by
  have hfields : octets (ts.flatMap fun t => t ++ separator) =
      (ts.map octets).flatMap fun t => t ++ octets separator := by
    induction ts with
    | nil => rfl
    | cons t ts ih => rw [List.flatMap_cons, List.map_cons, List.flatMap_cons, octets_append, octets_append, ih]
  rw [line, octets_append, octets_append, hfields]
  cases l.header <;> rfl

theorem writtenPieces_fst (l : Layout) (s : Severity) (e : Event) (stack : List Frame) :
    (writtenPieces l s e stack).1 = ((budget l s).fields (fieldsOf l s e stack)).1 := by
  rw [writtenPieces]

theorem contents_fst (l : Layout) (s : Severity) (e : Event) (stack : List Frame) :
    (contents l s e stack).1 = ((budget l s).fields (fieldsOf l s e stack)).1.map List.flatten := by
  rw [contents, writtenPieces]

theorem render_eq_line {l : Layout} {s : Severity} {e : Event} {stack : List Frame} {ts : List (List Char)}
    (h : ((budget l s).fields (fieldsOf l s e stack)).1.map List.flatten = ts.map octets) :
    render l s e stack = octets (line l s ts ((budget l s).fields (fieldsOf l s e stack)).2.truncated) := by
  rw [octets_line, ← h, render, contents, writtenPieces]

/-- every record is a line of text, made of what is left of its fields -/
theorem exists_line (l : Layout) (s : Severity) (e : Event) (stack : List Frame) :
    ∃ ts truncated, List.Forall₂ Leaves (fieldsOf l s e stack) ts ∧
      render l s e stack = octets (line l s ts truncated) := by
  obtain ⟨ts, hts, heq⟩ := (budget l s).fields_leaves (fieldsOf l s e stack)
  exact ⟨ts, _, hts, render_eq_line heq⟩

/-! ## Main result -/

/-- **No character is split.** Whatever texts, severity and layout a record is made of, and however low its ceiling:
what is appended to the buffer is valid UTF-8, and so is what is written of each piece of each field, a beginning of a
run that ends where a character ends, and an escape as a whole or not at all. -/
theorem record_is_text (l : Layout) (s : Severity) (e : Event) (stack : List Frame) (b : Buffer) :
    ((parts l s e stack).foldl Buffer.append b).content = b.content ++ render l s e stack ∧
    (⟨(render l s e stack).toArray⟩ : ByteArray).IsValidUTF8 ∧
    List.Forall₂ (fun f ws => ∃ ts, List.Forall₂ Piece.Leaves f ts ∧ ws = ts.map octets) (fieldsOf l s e stack)
      (writtenPieces l s e stack).1 := by
  refine ⟨?_, ?_, ?_⟩
  · rw [Buffer.content_foldl_append, flatten_parts]
  · obtain ⟨ts, truncated, -, hrec⟩ := exists_line l s e stack
    rw [hrec]
    exact isValidUTF8_octets _
  · rw [writtenPieces_fst]
    apply Budget.fields_forall₂ (P := fun _ => True)
    · intro _ _ _
      trivial
    · intro f _ b _
      exact Budget.pieces_leaves { b with written := 0 } f
    · trivial

end LogRelay.Record
