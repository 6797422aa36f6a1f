/-
Whether a record is one line.

The message and the JSON cannot break a line: a line feed in them is escaped, whatever is cut. The eight texts that a
record takes over as they are have no such protection.
- `one_line_iff`: the records of an event are one line under every ceiling exactly when none of these texts has a line
  feed.
- `forged_line`: with a line feed in its trace, the record of an event is two lines.
-/
import Mathlib.Tactic
import LogRelay.Proofs.Json.Escaped
import LogRelay.Proofs.Record.Truncation

namespace LogRelay.Record

open Text

def lineFeed : UInt8 := 10

/-- one line: a single line feed, at the end -/
def OneLine (r : Octets) : Prop := r.count lineFeed = 1 ∧ r.getLast? = some lineFeed

instance (r : Octets) : Decidable (OneLine r) := by
  unfold OneLine
  infer_instance

/-! ## Line feeds of a line -/

theorem count_flatMap_separator (ts : List (List Char)) :
    (ts.flatMap fun t => t ++ separator).count '\n' = ts.flatten.count '\n' := by
  induction ts with
  | nil => rfl
  | cons t ts ih =>
    have hsep : separator.count '\n' = 0 := by decide
    rw [List.flatMap_cons, List.flatten_cons, List.count_append, List.count_append, List.count_append, ih, hsep,
      Nat.add_zero]

/-- the line feeds of a record are those of its fields, and one at the end -/
theorem count_line (l : Layout) (s : Severity) (ts : List (List Char)) (truncated : Bool) :
    (octets (line l s ts truncated)).count lineFeed = ts.flatten.count '\n' + 1 := by
  have hcount : (octets (line l s ts truncated)).count lineFeed = (line l s ts truncated).count '\n' :=
    count_octets (c := '\n') (by decide) _
  have hheader : (if l.header then header s else []).count '\n' = 0 := by
    split
    · cases s <;> decide
    · rfl
  have hend : (terminator truncated).count '\n' = 1 := by cases truncated <;> decide
  rw [hcount, line, List.count_append, List.count_append, hheader, hend, count_flatMap_separator]
  omega

theorem line_getLast? (l : Layout) (s : Severity) (ts : List (List Char)) (truncated : Bool) :
    (octets (line l s ts truncated)).getLast? = some lineFeed := by
  have hend : (octets (terminator truncated)).getLast? = some lineFeed := by cases truncated <;> decide
  have hne : octets (terminator truncated) ≠ [] := by cases truncated <;> decide
  rw [line, octets_append, List.getLast?_append_of_ne_nil _ hne, hend]

/-! ## Line feeds of the fields -/

theorem lineFeed_not_mem_escaped (s : List Char) : '\n' ∉ escaped s := by
  intro h
  obtain ⟨c, -, hc⟩ := List.mem_flatMap.1 h
  rcases escape?_cases c with ⟨hnone, hplain⟩ | ⟨d, hd, hsome⟩
  · rw [hnone, Option.getD_none, List.mem_singleton] at hc
    subst hc
    revert hplain
    decide
  · rw [hsome, Option.getD_some, List.mem_pair] at hc
    rcases hc with hc | rfl
    · revert hc
      decide
    · revert hd
      decide

theorem lineFeed_not_mem_jsonText (d : Option Payload) : '\n' ∉ jsonText d := by
  cases d with
  | none => decide
  | some p => exact p.escaped_json.not_mem_lineFeed

theorem lineFeed_not_mem_fullText {l : Layout} {s : Severity} {e : Event} {stack : List Frame}
    (h : ∀ t ∈ givenTexts l e stack, '\n' ∉ t) : ∀ f ∈ fieldsOf l s e stack, '\n' ∉ fullText f := by
  intro f hf
  have hmem : fullText f ∈ (fieldsOf l s e stack).map fullText := List.mem_map_of_mem hf
  rw [map_fullText_fieldsOf, List.mem_append, List.mem_map, List.mem_pair] at hmem
  rcases hmem with ⟨t, ht, htext⟩ | htext | htext
  · rw [← htext]
    exact not_mem_orDash (by decide) (not_mem_frontTexts (by decide) h t ht)
  · rw [htext]
    exact not_mem_orDash (by decide) (lineFeed_not_mem_escaped _)
  · rw [htext]
    intro hfeed
    rcases List.mem_append.1 (replace_subset (by decide) hfeed) with hfeed | hfeed
    · exact lineFeed_not_mem_jsonText e.data hfeed
    · revert hfeed
      decide

/-! ## Main result -/

/-- **One record, one line.** The records of an event are one line each, whatever ceiling they are cut to, exactly
when no line feed stands in the texts that are taken over as they are; the message and the payload do not matter. -/
theorem one_line_iff (l : Layout) (s : Severity) (e : Event) (stack : List Frame) :
    (∀ n, OneLine (render { l with maxSize := n } s e stack)) ↔ ∀ t ∈ givenTexts l e stack, '\n' ∉ t := by
  constructor
  · intro h t ht hfeed
    -- under a ceiling that is high enough the text stands in the record in full
    obtain ⟨hcount, -⟩ := h (max minRecordSize (complete l s e stack).length)
    rw [render_eq_complete_of_fits { l with maxSize := _ } s e stack (le_max_left _ _) (le_max_right _ _), complete,
      count_line] at hcount
    have hzero : ((fieldsOf l s e stack).map fullText).flatten.count '\n' = 0 := Nat.succ_injective hcount
    rw [List.count_eq_zero, map_fullText_fieldsOf, List.mem_flatten] at hzero
    apply hzero
    refine ⟨orDash t, List.mem_append_left _ (List.mem_map_of_mem (mem_frontTexts.2 (Or.inl ht))), ?_⟩
    rw [orDash, if_neg (by rw [List.isEmpty_iff]; exact List.ne_nil_of_mem hfeed)]
    exact hfeed
  · intro h n
    obtain ⟨ts, truncated, hts, hrec⟩ := exists_line { l with maxSize := n } s e stack
    have hfields := lineFeed_not_mem_fullText (s := s) h
    have hnone : '\n' ∉ ts.flatten := by
      intro hfeed
      obtain ⟨t, ht, hfeed⟩ := List.mem_flatten.1 hfeed
      obtain ⟨f, hf, hleaves⟩ := exists_field hts ht
      exact hfields f hf (hleaves.subset hfeed)
    rw [hrec]
    exact ⟨by rw [count_line, List.count_eq_zero_of_not_mem hnone], line_getLast? _ _ _ _⟩

/-- a line feed in a trace makes two lines of one record -/
theorem forged_line :
    ¬ OneLine (render { hostname := "relay" } .info
      { message := "m", timestamp := ⟨0, 0⟩, span := { traceId := "a\nb" }, site := .absent } []) := by
  decide +kernel

end LogRelay.Record
