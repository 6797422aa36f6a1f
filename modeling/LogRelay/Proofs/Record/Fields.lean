/-
What the fields of a record say in full.

Ten texts stand in front of the message: eight are taken over as they come from the configuration, the span and the
caller (`givenTexts`), and two are made here, the time and the name of the severity (`frontTexts`). The message stands
with its escapes (`escaped`), and the JSON with its separators escaped. None of the twelve is empty.
-/
import Mathlib.Tactic
import LogRelay.Proofs.Text.Figures
import LogRelay.Proofs.Text.Split
import LogRelay.Record

namespace LogRelay.Record

open Text

/-- a text, or the dash that stands for an empty one -/
def orDash (t : List Char) : List Char := if t.isEmpty then dash.toList else t

/-- the component and the place of a logging call; both are empty when the caller is not known -/
def callSite (l : Layout) (e : Event) (stack : List Frame) : List Char × List Char :=
  match e.site.resolve stack e.skips l.skips with
  | some c => (c.component, c.fileLine)
  | none => ([], [])

/-- the texts a record takes over as they are -/
def givenTexts (l : Layout) (e : Event) (stack : List Frame) : List (List Char) :=
  [l.hostname.toList, e.span.traceId.toList, e.span.parentSpanId.toList, e.span.spanId.toList,
   e.span.rolloutType.toList, l.service.toList, (callSite l e stack).1, (callSite l e stack).2]

/-- the texts in front of the message -/
def frontTexts (l : Layout) (s : Severity) (e : Event) (stack : List Frame) : List (List Char) :=
  [l.hostname.toList, e.timestamp.text, e.span.traceId.toList, e.span.parentSpanId.toList, e.span.spanId.toList,
   e.span.rolloutType.toList, l.service.toList, s.name.toList, (callSite l e stack).1, (callSite l e stack).2]

def escaped (s : List Char) : List Char := s.flatMap fun c => (escape? c).getD [c]

/-- the JSON of a payload; an event without one has an empty object -/
def jsonText : Option Payload → List Char
  | none => "{}".toList
  | some p => p.json

/-- the fields in front of the JSON -/
def frontFields (l : Layout) (s : Severity) (e : Event) (stack : List Frame) : List Field :=
  (frontTexts l s e stack).map plain ++ [message e.message.toList]

theorem fieldsOf_eq (l : Layout) (s : Severity) (e : Event) (stack : List Frame) :
    fieldsOf l s e stack = frontFields l s e stack ++ [data e.data] := by
  unfold fieldsOf frontFields frontTexts callSite
  cases e.site.resolve stack e.skips l.skips <;> rfl

theorem mem_frontTexts {l : Layout} {s : Severity} {e : Event} {stack : List Frame} {t : List Char} :
    t ∈ frontTexts l s e stack ↔ t ∈ givenTexts l e stack ∨ t = e.timestamp.text ∨ t = s.name.toList := by
  unfold frontTexts givenTexts
  grind

/-- a character that stands neither in the time nor in the name of the severity stands in front of the message only if
it was given -/
theorem not_mem_frontTexts {l : Layout} {s : Severity} {e : Event} {stack : List Frame} {c : Char}
    (hc : isFigure c = false) (h : ∀ t ∈ givenTexts l e stack, c ∉ t) : ∀ t ∈ frontTexts l s e stack, c ∉ t := by
  intro t ht
  rcases mem_frontTexts.1 ht with ht | rfl | rfl
  · exact h t ht
  · exact not_mem_of_figures e.timestamp.isFigure_text hc
  · exact not_mem_of_figures s.isFigure_name hc

theorem orDash_ne_nil (t : List Char) : orDash t ≠ [] := by
  unfold orDash
  split
  · decide
  · next h => rwa [List.isEmpty_iff] at h

theorem length_le_orDash (t : List Char) : t.length ≤ (orDash t).length := by
  unfold orDash
  split
  · next h => simp [List.isEmpty_iff.1 h]
  · exact Nat.le_refl _

theorem not_mem_orDash {c : Char} (hc : c ≠ '-') {t : List Char} (h : c ∉ t) : c ∉ orDash t := by
  unfold orDash
  split
  · simpa [dash] using hc
  · exact h

/-! ## The message -/

theorem fullText_cons (c : Char) (ps : List Piece) : fullText (cons c ps) = (escape? c).getD [c] ++ fullText ps := by
  unfold cons
  split
  · next h => simp [h, fullText, Piece.chars]
  · next h => simp [h, fullText, Piece.chars]
  · next h _ => simp [h, fullText, Piece.chars]

theorem fullText_messagePieces (s : List Char) : fullText (messagePieces s) = escaped s := by
  induction s with
  | nil => rfl
  | cons c s ih =>
    have hcons : messagePieces (c :: s) = cons c (messagePieces s) := rfl
    rw [hcons, fullText_cons, ih, escaped, escaped, List.flatMap_cons]

/-- a character has an escape of two characters, or none -/
theorem escape?_cases (c : Char) :
    (escape? c = none ∧ c ∉ ['\\', '|', '\r', '\n']) ∨ ∃ d ∈ ['\\', '|', 'r', 'n'], escape? c = some ['\\', d] := by
  unfold escape?
  split <;> simp_all

theorem escape?_eq_none {c : Char} (h : c ∉ ['\\', '|', '\r', '\n']) : escape? c = none := by
  unfold escape?
  split <;> simp_all

theorem escaped_ne_nil {s : List Char} (h : s ≠ []) : escaped s ≠ [] := by
  obtain ⟨c, t, rfl⟩ := List.exists_cons_of_ne_nil h
  have hc : (escape? c).getD [c] ≠ [] := by
    rcases escape?_cases c with ⟨hc, -⟩ | ⟨d, -, hc⟩ <;> simp [hc]
  simp [escaped, hc]

theorem fullText_plain (t : List Char) : fullText (plain t) = orDash t := List.append_nil _

theorem fullText_message (s : List Char) : fullText (message s) = orDash (escaped s) := by
  cases s with
  | nil => rfl
  | cons c s =>
    have hne := escaped_ne_nil (List.cons_ne_nil c s)
    have hfull := fullText_messagePieces (c :: s)
    rw [orDash, if_neg (by rwa [List.isEmpty_iff]), ← hfull]
    rfl

/-! ## The JSON -/

theorem not_separator_at {c : Char} {r : List Char} (h : ∀ t, c = ' ' → r = '|' :: ' ' :: t → False) :
    ¬ separator <+: c :: r := by
  rintro ⟨t, ht⟩
  have hc : ' ' :: '|' :: ' ' :: t = c :: r := ht
  cases hc
  exact h t rfl rfl

theorem fullText_jsonPieces (acc s : List Char) :
    fullText (jsonPieces acc s) = acc.reverse ++ replace separator escapedSeparator s := by
  fun_induction jsonPieces acc s with
  | case1 acc => rfl
  | case2 acc r ih =>
    have hsep : ' ' :: '|' :: ' ' :: r = separator ++ r := rfl
    rw [hsep, replace_append (by decide)]
    simp only [fullText, List.flatMap_cons, Piece.chars] at ih ⊢
    rw [ih]
    rfl
  | case3 acc c r hsep ih =>
    rw [ih, replace_cons (not_separator_at hsep), List.reverse_cons, List.append_assoc, List.singleton_append]

theorem data_eq (d : Option Payload) : data d = jsonPieces [] (jsonText d) := by
  cases d with
  | none => rfl
  | some p => rfl

theorem fullText_data (d : Option Payload) :
    fullText (data d) = replace separator escapedSeparator (jsonText d) := by
  rw [data_eq, fullText_jsonPieces]
  rfl

/-- a JSON text begins with the brace of its object -/
theorem jsonText_eq_cons (d : Option Payload) : ∃ t, jsonText d = '{' :: t := by
  cases d with
  | none => exact ⟨['}'], rfl⟩
  | some p => exact ⟨_, by rw [jsonText, Payload.json, Value.json, List.cons_append]⟩

theorem fullText_data_eq_cons (d : Option Payload) : ∃ t, fullText (data d) = '{' :: t := by
  obtain ⟨t, ht⟩ := jsonText_eq_cons d
  have hnot : ¬ separator <+: '{' :: t := not_separator_at fun _ hbrace => absurd hbrace (by decide)
  rw [fullText_data, ht, replace_cons hnot]
  exact ⟨_, rfl⟩

/-! ## All fields -/

theorem frontFields_subset (l : Layout) (s : Severity) (e : Event) (stack : List Frame) :
    frontFields l s e stack ⊆ fieldsOf l s e stack := by
  rw [fieldsOf_eq]
  exact List.subset_append_left _ _

theorem map_fullText_frontFields (l : Layout) (s : Severity) (e : Event) (stack : List Frame) :
    (frontFields l s e stack).map fullText =
      (frontTexts l s e stack).map orDash ++ [orDash (escaped e.message.toList)] := by
  have hplain : fullText ∘ plain = orDash := funext fullText_plain
  rw [frontFields, List.map_append, List.map_map, hplain, List.map_singleton, fullText_message]

theorem map_fullText_fieldsOf (l : Layout) (s : Severity) (e : Event) (stack : List Frame) :
    (fieldsOf l s e stack).map fullText = (frontTexts l s e stack).map orDash
      ++ [orDash (escaped e.message.toList), replace separator escapedSeparator (jsonText e.data)] := by
  rw [fieldsOf_eq, List.map_append, map_fullText_frontFields, List.map_singleton, fullText_data, List.append_assoc]
  rfl

theorem fullText_ne_nil {l : Layout} {s : Severity} {e : Event} {stack : List Frame} {f : Field}
    (hf : f ∈ fieldsOf l s e stack) : fullText f ≠ [] := by
  have hmem : fullText f ∈ (fieldsOf l s e stack).map fullText := List.mem_map_of_mem hf
  rw [map_fullText_fieldsOf, List.mem_append, List.mem_map, List.mem_pair] at hmem
  rcases hmem with ⟨t, -, ht⟩ | ht | ht
  · rw [← ht]
    exact orDash_ne_nil t
  · rw [ht]
    exact orDash_ne_nil _
  · obtain ⟨t, hcons⟩ := fullText_data_eq_cons e.data
    rw [ht, ← fullText_data, hcons]
    exact List.cons_ne_nil _ _

/-- fields that are not empty have at least a character each -/
theorem length_le_fullText {fs : List Field} (hne : ∀ f ∈ fs, fullText f ≠ []) :
    fs.length ≤ (fs.flatMap fullText).length := by
  induction fs with
  | nil => exact Nat.le_refl _
  | cons f fs ih =>
    have hf := List.length_pos_iff.2 (hne f List.mem_cons_self)
    have hrest := ih fun g hg => hne g (List.mem_cons_of_mem f hg)
    rw [List.flatMap_cons, List.length_append, List.length_cons]
    omega

theorem fullText_plain_ne_nil (ts : List (List Char)) : ∀ f ∈ ts.map plain, fullText f ≠ [] := by
  intro f hf
  obtain ⟨t, -, rfl⟩ := List.mem_map.1 hf
  rw [fullText_plain]
  exact orDash_ne_nil t

/-- the texts in front of the message: the time, and a character for each of the others -/
theorem twenty_nine_le_frontTexts (l : Layout) (s : Severity) (e : Event) (stack : List Frame) :
    29 ≤ (((frontTexts l s e stack).map plain).flatMap fullText).length := by
  have hne := fullText_plain_ne_nil (frontTexts l s e stack)
  obtain ⟨rest, hrest, hcount⟩ : ∃ rest, (frontTexts l s e stack).map plain =
      plain l.hostname.toList :: plain e.timestamp.text :: rest ∧ rest.length = 8 := ⟨_, rfl, rfl⟩
  rw [hrest, List.forall_mem_cons, List.forall_mem_cons] at hne
  obtain ⟨hhost, -, hothers⟩ := hne
  have hhost' := List.length_pos_iff.2 hhost
  have htime : 20 ≤ (fullText (plain e.timestamp.text)).length := by
    rw [fullText_plain]
    exact e.timestamp.twenty_le_text.trans (length_le_orDash _)
  have hothers' := length_le_fullText hothers
  rw [hrest, List.flatMap_cons, List.flatMap_cons, List.length_append, List.length_append]
  omega

end LogRelay.Record
