/-
When a record is cut, and what an uncut record is.

A field that is not empty takes the octet it owns and the rest from the slack, so the fields of a record together take
no more than the budget exactly when each of them finds room in its turn.
- `fields_fit`: fields that fit together are all written in full, and nothing is marked as cut.
- `fields_whole`: where nothing is marked as cut, all is written in full.
- `truncation_exact`: a record that fits under its ceiling is the complete one, and every other is marked.
-/
import Mathlib.Tactic
import LogRelay.Proofs.Record.Ceiling
import LogRelay.Proofs.Record.Fields
import LogRelay.Proofs.Record.Line

namespace LogRelay.Record

open Text

/-- the record of an event with nothing cut -/
def complete (l : Layout) (s : Severity) (e : Event) (stack : List Frame) : Octets :=
  octets (line l s ((fieldsOf l s e stack).map fullText) false)

namespace Budget

/-! ## What fits is written in full -/

theorem push_fits {b : Budget} {s : Octets} (h : s.length ≤ b.allowance) :
    (b.push s).1 = s ∧ (b.push s).2.truncated = b.truncated := by
  have hlt : ¬ b.allowance < s.length := Nat.not_lt.2 h
  refine ⟨(push_fst b s).trans (cut_of_le h), ?_⟩
  unfold push
  simp only
  split <;> simp [hlt]

theorem push_written (b : Budget) (s : Octets) : (b.push s).2.written = b.written + (b.push s).1.length := by
  unfold push
  simp only
  split
  · next h => simp [List.isEmpty_iff.1 h]
  · rfl

theorem pushWhole_eq_push {b : Budget} {s : Octets} (h : s.length ≤ b.allowance) : b.pushWhole s = b.push s := by
  rw [pushWhole, if_neg (Nat.not_lt.2 h)]

theorem piece_eq_push {b : Budget} {p : Piece} (h : (octets p.chars).length ≤ b.allowance) :
    b.piece p = b.push (octets p.chars) := by
  cases p with
  | run s => rfl
  | whole s => exact pushWhole_eq_push h

theorem piece_written (b : Budget) (p : Piece) : (b.piece p).2.written = b.written + (b.piece p).1.length := by
  cases p with
  | run s => exact push_written b (octets s)
  | whole s =>
    rw [piece, pushWhole]
    split
    · simp
    · exact push_written b (octets s)

theorem pieces_written (b : Budget) (ps : List Piece) :
    (b.pieces ps).2.written = b.written + (b.pieces ps).1.flatten.length := by
  induction ps generalizing b with
  | nil => simp [pieces]
  | cons p ps ih =>
    have hp := piece_written b p
    have hps := ih (b.piece p).2
    simp only [pieces, List.flatten_cons, List.length_append]
    omega

theorem octets_fullText_cons (p : Piece) (ps : List Piece) :
    octets (fullText (p :: ps)) = octets p.chars ++ octets (fullText ps) := octets_append p.chars (fullText ps)

theorem pieces_fit {b : Budget} {ps : List Piece} (h : (octets (fullText ps)).length ≤ b.allowance) :
    (b.pieces ps).1.flatten = octets (fullText ps) ∧
    (octets (fullText ps)).length + (b.pieces ps).2.allowance = b.allowance ∧
    (b.pieces ps).2.truncated = b.truncated := by
  induction ps generalizing b with
  | nil => exact ⟨rfl, Nat.zero_add _, rfl⟩
  | cons p ps ih =>
    rw [octets_fullText_cons, List.length_append] at h ⊢
    have hp : (octets p.chars).length ≤ b.allowance := by omega
    obtain ⟨hout, hmark⟩ := push_fits hp
    have hspent := push_spends b (octets p.chars)
    rw [hout] at hspent
    obtain ⟨hout', hspent', hmark'⟩ := ih (b := (b.push (octets p.chars)).2) (by omega)
    simp only [pieces, piece_eq_push hp, List.flatten_cons]
    exact ⟨by rw [hout, hout'], by omega, hmark'.trans hmark⟩

/-- a field that is not empty fits into its own octet and the slack -/
theorem field_fits {b : Budget} {f : Field} (hne : fullText f ≠ []) (h : (octets (fullText f)).length ≤ b.slack + 1) :
    (b.field f).1.flatten = octets (fullText f) ∧
    (octets (fullText f)).length + (b.field f).2.slack = b.slack + 1 ∧ (b.field f).2.truncated = b.truncated := by
  have hown : ({ b with written := 0 } : Budget).allowance = b.slack + 1 := rfl
  obtain ⟨hout, hspent, hmark⟩ := pieces_fit (b := { b with written := 0 }) (hown ▸ h)
  refine ⟨hout, ?_, hmark⟩
  -- something was written, so that nothing is left of the octet of its own
  have hwritten := pieces_written { b with written := 0 } f
  have hpos : 0 < (octets (fullText f)).length :=
    Nat.lt_of_lt_of_le (List.length_pos_iff.2 hne) (length_le_octets _)
  rw [hout] at hwritten
  have hzero : ¬ ({ b with written := 0 }.pieces f).2.written = 0 := by omega
  rw [hown, allowance, reserved, if_neg hzero] at hspent
  exact hspent

/-- fields that fit together are written in full -/
theorem fields_fit {b : Budget} {fs : List Field} (hne : ∀ f ∈ fs, fullText f ≠ [])
    (h : (octets (fs.flatMap fullText)).length ≤ b.slack + fs.length) :
    (b.fields fs).1.map List.flatten = (fs.map fullText).map octets ∧
    (octets (fs.flatMap fullText)).length + (b.fields fs).2.slack = b.slack + fs.length ∧
    (b.fields fs).2.truncated = b.truncated := by
  induction fs generalizing b with
  | nil => exact ⟨rfl, Nat.zero_add _, rfl⟩
  | cons f fs ih =>
    have hne' : ∀ g ∈ fs, fullText g ≠ [] := fun g hg => hne g (List.mem_cons_of_mem f hg)
    have hrest := (length_le_fullText hne').trans (length_le_octets _)
    rw [List.flatMap_cons, octets_append, List.length_append, List.length_cons] at h ⊢
    obtain ⟨hout, hspent, hmark⟩ := field_fits (b := b) (hne f List.mem_cons_self) (by omega)
    obtain ⟨hout', hspent', hmark'⟩ := ih (b := (b.field f).2) hne' (by omega)
    simp only [fields, List.map_cons]
    exact ⟨by rw [hout, hout'], by omega, hmark'.trans hmark⟩

/-! ## What is not marked is written in full -/

theorem push_whole {b : Budget} {s : Octets} (h : (b.push s).2.truncated = false) :
    (b.push s).1 = s ∧ b.truncated = false := by
  have hmark : (b.push s).2.truncated = (b.truncated || decide (b.allowance < s.length)) := by
    unfold push
    simp only
    split <;> rfl
  rw [hmark, Bool.or_eq_false_iff, decide_eq_false_iff_not, Nat.not_lt] at h
  exact ⟨(push_fits h.2).1, h.1⟩

theorem piece_whole {b : Budget} {p : Piece} (h : (b.piece p).2.truncated = false) :
    (b.piece p).1 = octets p.chars ∧ b.truncated = false := by
  cases p with
  | run s => exact push_whole h
  | whole s =>
    by_cases hs : b.allowance < (octets s).length
    · rw [piece, pushWhole, if_pos hs] at h
      cases h
    · rw [piece, pushWhole_eq_push (Nat.not_lt.1 hs)] at h ⊢
      exact push_whole h

theorem pieces_whole {b : Budget} {ps : List Piece} (h : (b.pieces ps).2.truncated = false) :
    (b.pieces ps).1.flatten = octets (fullText ps) ∧ b.truncated = false := by
  induction ps generalizing b with
  | nil => exact ⟨rfl, h⟩
  | cons p ps ih =>
    obtain ⟨hout, hmark⟩ := ih (b := (b.piece p).2) h
    obtain ⟨hout', hmark'⟩ := piece_whole hmark
    rw [octets_fullText_cons]
    simp only [pieces, List.flatten_cons]
    exact ⟨by rw [hout, hout'], hmark'⟩

theorem field_whole {b : Budget} {f : Field} (h : (b.field f).2.truncated = false) :
    (b.field f).1.flatten = octets (fullText f) ∧ b.truncated = false :=
  pieces_whole (b := { b with written := 0 }) h

theorem fields_whole {b : Budget} {fs : List Field} (h : (b.fields fs).2.truncated = false) :
    (b.fields fs).1.map List.flatten = (fs.map fullText).map octets ∧ b.truncated = false := by
  induction fs generalizing b with
  | nil => exact ⟨rfl, h⟩
  | cons f fs ih =>
    obtain ⟨hout, hmark⟩ := ih (b := (b.field f).2) h
    obtain ⟨hout', hmark'⟩ := field_whole hmark
    simp only [fields, List.map_cons]
    exact ⟨by rw [hout, hout'], hmark'⟩

end Budget

/-! ## Complete records -/

section

variable (l : Layout) (s : Severity) (e : Event) (stack : List Frame)

theorem octets_flatMap_separator (ts : List (List Char)) :
    (octets (ts.flatMap fun t => t ++ separator)).length = (octets ts.flatten).length + 3 * ts.length := by
  induction ts with
  | nil => rfl
  | cons t ts ih =>
    have hsep : (octets separator).length = 3 := by decide
    rw [List.flatMap_cons, List.flatten_cons, octets_append, octets_append, octets_append, List.length_append,
      List.length_append, List.length_append, ih, hsep, List.length_cons]
    omega

/-- the octets of a complete record: its header, its fields and its frame -/
theorem complete_length : (complete l s e stack).length =
    (if l.header then 6 else 0) + (octets ((fieldsOf l s e stack).flatMap fullText)).length + frameSize := by
  have hframe : frameSize = 38 := rfl
  have hcount : ((fieldsOf l s e stack).map fullText).length = 12 := by rw [List.length_map, fieldsOf_length]; rfl
  have hheader : (octets (if l.header then header s else [])).length = if l.header then 6 else 0 := by
    split
    · exact octets_header_length s
    · rfl
  rw [complete, line, octets_append, octets_append, List.length_append, List.length_append, hheader,
    octets_flatMap_separator, hcount, octets_terminator_length, hframe, List.flatMap_def]
  omega

/-- the slack of a record is what its ceiling leaves after the header, the frame and an octet for each field -/
theorem budget_slack (hmin : minRecordSize ≤ l.maxSize) :
    (budget l s).slack + fieldCount + frameSize + (if l.header then 6 else 0) = l.maxSize := by
  have hframe : frameSize = 38 := rfl
  have hfields : fieldCount = 12 := rfl
  have hleast : minRecordSize = 56 := rfl
  unfold budget
  cases l.header <;> simp only [header_length, if_true, Bool.false_eq_true, if_false] <;> omega

theorem ends_marked (ts : List (List Char)) (truncated : Bool) (hts : ts ≠ []) :
    octets (separator ++ terminator truncated) <:+ octets (line l s ts truncated) := by
  obtain ⟨init, t, rfl⟩ := List.eq_nil_or_concat ts |>.resolve_left hts
  refine ⟨octets ((if l.header then header s else []) ++ (init.flatMap fun t => t ++ separator) ++ t), ?_⟩
  rw [line, ← octets_append]
  simp

/-- a record that is not marked is complete -/
theorem render_eq_complete_of_unmarked (h : ((budget l s).fields (fieldsOf l s e stack)).2.truncated = false) :
    render l s e stack = complete l s e stack := by
  obtain ⟨hout, -⟩ := Budget.fields_whole h
  rw [render_eq_line hout, h]
  rfl

theorem render_ends_marked (h : ((budget l s).fields (fieldsOf l s e stack)).2.truncated = true) :
    octets (separator ++ terminator true) <:+ render l s e stack := by
  obtain ⟨ts, hts, hout⟩ := (budget l s).fields_leaves (fieldsOf l s e stack)
  rw [render_eq_line hout, h]
  apply ends_marked
  rintro rfl
  have hnone := hts.length_eq
  rw [fieldsOf_length] at hnone
  cases hnone

/-- a complete record that fits under the ceiling is the record -/
theorem render_eq_complete_of_fits (hmin : minRecordSize ≤ l.maxSize)
    (hfit : (complete l s e stack).length ≤ l.maxSize) : render l s e stack = complete l s e stack := by
  have hslack := budget_slack l s hmin
  rw [complete_length] at hfit
  have hcount : (fieldsOf l s e stack).length = fieldCount := rfl
  have hroom : (octets ((fieldsOf l s e stack).flatMap fullText)).length ≤
      (budget l s).slack + (fieldsOf l s e stack).length := by omega
  obtain ⟨-, -, hmark⟩ := Budget.fields_fit (fun f hf => fullText_ne_nil hf) hroom
  exact render_eq_complete_of_unmarked l s e stack hmark

end

/-! ## Main result -/

/-- **Truncation is exact.** The complete record of an event is what rendering gives when the ceiling is high enough.
Under any ceiling that is not refused, a complete record that fits is the record, ends in a point and is not marked;
when it does not fit, the record is marked, and is another one. -/
theorem truncation_exact (l : Layout) (s : Severity) (e : Event) (stack : List Frame)
    (hmin : minRecordSize ≤ l.maxSize) :
    (∀ n, max minRecordSize (complete l s e stack).length ≤ n →
      render { l with maxSize := n } s e stack = complete l s e stack) ∧
    ((complete l s e stack).length ≤ l.maxSize →
      render l s e stack = complete l s e stack ∧ octets (separator ++ terminator false) <:+ render l s e stack) ∧
    (l.maxSize < (complete l s e stack).length →
      octets (separator ++ terminator true) <:+ render l s e stack ∧ render l s e stack ≠ complete l s e stack) := by
  have hcomplete : octets (separator ++ terminator false) <:+ complete l s e stack := by
    apply ends_marked
    simp [fieldsOf_eq]
  refine ⟨?_, ?_, ?_⟩
  · intro n hn
    obtain ⟨hleast, hlen⟩ := max_le_iff.1 hn
    exact render_eq_complete_of_fits { l with maxSize := n } s e stack hleast hlen
  · intro hfit
    have heq := render_eq_complete_of_fits l s e stack hmin hfit
    rw [heq]
    exact ⟨rfl, hcomplete⟩
  · intro hlong
    have hlen := render_length_le l s e stack
    rw [max_eq_left hmin] at hlen
    have hne : render l s e stack ≠ complete l s e stack := by
      intro heq
      rw [heq] at hlen
      omega
    refine ⟨?_, hne⟩
    cases hmark : ((budget l s).fields (fieldsOf l s e stack)).2.truncated with
    | false => exact absurd (render_eq_complete_of_unmarked l s e stack hmark) hne
    | true => exact render_ends_marked l s e stack hmark

theorem truncation_exact_small :
    let l : Layout := { hostname := "relay", maxSize := 64 }
    let e : Event := { message := "disk full", timestamp := ⟨0, 0⟩ }
    minRecordSize ≤ l.maxSize ∧ l.maxSize < (complete l .error e []).length ∧
    octets (separator ++ terminator true) <:+ render l .error e [] ∧ render l .error e [] ≠ complete l .error e [] :=
  have hmin : minRecordSize ≤ 64 := by decide
  have hlong : 64 < (complete { hostname := "relay", maxSize := 64 } .error
      { message := "disk full", timestamp := ⟨0, 0⟩ } []).length := by decide +kernel
  ⟨hmin, hlong, (truncation_exact { hostname := "relay", maxSize := 64 } .error _ [] hmin).2.2 hlong⟩

end LogRelay.Record
