/-
Reading a record back.

A record that was not cut says everything about its event, as long as no bar stands in the texts that are taken over as
they are. Its first eleven separators are those between the fields, since an escaped message holds none, and the message
and the JSON come back from behind them (`record_decodes`).
- `unescape_escaped`: a message comes back from its escapes.
- `replace_replace_separator`: a JSON text comes back from its escaped separators, since it holds no such escape itself.
-/
import Mathlib.Tactic
import LogRelay.Proofs.Json.Escaped
import LogRelay.Proofs.Record.Separator
import LogRelay.Proofs.Record.Truncation

namespace LogRelay.Record

open Text

/-- a message from its escapes -/
def unescape : List Char → List Char
  | '\\' :: '\\' :: r => '\\' :: unescape r
  | '\\' :: '|' :: r => '|' :: unescape r
  | '\\' :: 'r' :: r => '\r' :: unescape r
  | '\\' :: 'n' :: r => '\n' :: unescape r
  | c :: r => c :: unescape r
  | [] => []

theorem unescape_cons {c : Char} (h : c ≠ '\\') (r : List Char) : unescape (c :: r) = c :: unescape r := by
  rw [unescape] <;> (intros; contradiction)

theorem unescape_escaped (s : List Char) : unescape (escaped s) = s := by
  induction s with
  | nil => rfl
  | cons c s ih =>
    have hcons : escaped (c :: s) = (escape? c).getD [c] ++ escaped s := rfl
    rw [hcons]
    by_cases hc : c ∈ ['\\', '|', '\r', '\n']
    · simp only [List.mem_cons, List.not_mem_nil, or_false] at hc
      rcases hc with rfl | rfl | rfl | rfl <;> simp [escape?, unescape, ih]
    · rw [escape?_eq_none hc, Option.getD_none, List.singleton_append, unescape_cons (by grind), ih]

theorem unescape_orDash (s : List Char) : unescape (orDash (escaped s)) = orDash s := by
  by_cases hs : s = []
  · subst hs
    rfl
  · have hne := escaped_ne_nil hs
    rw [orDash, orDash, if_neg (by rwa [List.isEmpty_iff]), if_neg (by rwa [List.isEmpty_iff]), unescape_escaped]

/-- where escaping the separators of a text leaves another character than a space, the text has that character too -/
theorem replace_separator_eq_cons {r t : List Char} {x : Char} (hx : x ≠ ' ')
    (h : replace separator escapedSeparator r = x :: t) :
    ∃ r', r = x :: r' ∧ t = replace separator escapedSeparator r' := by
  cases r with
  | nil => cases h
  | cons c r =>
    by_cases hsep : separator <+: c :: r
    · obtain ⟨u, hu⟩ := hsep
      rw [← hu, replace_append (by decide)] at h
      exact absurd (List.cons.inj h).1.symm hx
    · rw [replace_cons hsep] at h
      obtain ⟨rfl, rfl⟩ := List.cons.inj h
      exact ⟨r, rfl, rfl⟩

/-- the separators of a text come back from their escapes, if no escape of a bar stood there before -/
theorem replace_replace_separator (s : List Char) (h : ¬ [' ', '\\', '|'] <:+: s) :
    replace escapedSeparator separator (replace separator escapedSeparator s) = s := by
  revert h
  apply replace_induction (by decide : separator ≠ [])
    (P := fun s t => ¬ [' ', '\\', '|'] <:+: s → replace escapedSeparator separator t = s)
  · intro _
    rfl
  · intro r ih h
    rw [replace_append (by decide), ih fun hin => h (hin.trans (List.suffix_append separator r).isInfix)]
  · intro c r _ ih h
    -- an escape that begins here would have to stand in the text itself, since escaping puts a space first
    have hnot : ¬ escapedSeparator <+: c :: replace separator escapedSeparator r := by
      rintro ⟨u, hu⟩
      obtain ⟨rfl, hr⟩ := List.cons.inj hu
      obtain ⟨r₁, rfl, hr₁⟩ := replace_separator_eq_cons (by decide) hr.symm
      obtain ⟨r₂, rfl, -⟩ := replace_separator_eq_cons (by decide) hr₁.symm
      exact h ⟨[], r₂, rfl⟩
    rw [replace_cons hnot, ih fun hin => h (hin.trans (List.suffix_cons c r).isInfix)]

theorem no_escaped_bar_jsonText (d : Option Payload) : ¬ [' ', '\\', '|'] <:+: jsonText d := by
  cases d with
  | none => decide
  | some p => exact p.escaped_json.no_escaped_bar

/-! ## Main result -/

/-- a record that ends in a point is complete -/
theorem render_eq_complete_of_ends {l : Layout} {s : Severity} {e : Event} {stack : List Frame}
    (h : octets (terminator false) <:+ render l s e stack) : render l s e stack = complete l s e stack := by
  apply render_eq_complete_of_unmarked
  cases hmark : ((budget l s).fields (fieldsOf l s e stack)).2.truncated with
  | false => rfl
  | true =>
    have hsame := List.suffix_of_suffix_length_le h (render_ends_marked l s e stack hmark) (by decide)
    revert hsame
    decide

/-- **A record that was not cut can be read back.** Behind the header, cutting at the first eleven separators gives
the ten texts in front of the message, a dash for each that is empty, and the message with its escapes; what remains
is a JSON text and the end of the record. Undoing the escapes gives the message, or a dash for an empty one, and
putting back the separators gives the JSON of the payload. -/
theorem record_decodes (l : Layout) (s : Severity) (e : Event) (stack : List Frame)
    (hbars : ∀ t ∈ givenTexts l e stack, '|' ∉ t) (hwhole : octets (terminator false) <:+ render l s e stack) :
    ∃ body json,
      render l s e stack = octets ((if l.header then header s else []) ++ body) ∧
      breakTimes? separator 11 body =
        some ((frontTexts l s e stack).map orDash ++ [orDash (escaped e.message.toList)],
          json ++ separator ++ terminator false) ∧
      unescape (orDash (escaped e.message.toList)) = orDash e.message.toList ∧
      replace escapedSeparator separator json = jsonText e.data := by
  set fronts := (frontTexts l s e stack).map orDash ++ [orDash (escaped e.message.toList)] with hfronts
  set json := replace separator escapedSeparator (jsonText e.data) with hjson
  have hall : (fieldsOf l s e stack).map fullText = fronts ++ [json] := by
    rw [map_fullText_fieldsOf, hfronts, List.append_assoc]
    rfl
  have hclear : ∀ t ∈ fronts, Clear separator t := by
    intro t ht
    rw [hfronts, ← map_fullText_frontFields] at ht
    obtain ⟨f, hf, rfl⟩ := List.mem_map.1 ht
    exact (guarded_fullText (guarded_frontFields hbars f hf)).clear
  -- the header goes first, and eleven texts with a separator after each, then the JSON
  refine ⟨(fronts.flatMap fun t => t ++ separator) ++ (json ++ separator ++ terminator false), json, ?_, ?_,
    unescape_orDash _, replace_replace_separator _ (no_escaped_bar_jsonText e.data)⟩
  · rw [render_eq_complete_of_ends hwhole, complete, line, hall]
    simp
  · have hcount : fronts.length = 11 := by simp [hfronts, frontTexts]
    rw [← hcount]
    exact breakTimes?_pieces (by decide) hclear _

/-- a message with a separator in it, and a payload with two that share a space -/
theorem record_decodes_small :
    let l : Layout := { hostname := "relay", header := true }
    let e : Event := { message := "a | b", timestamp := ⟨0, 0⟩, data := some ⟨[("k", .text " | | ")]⟩, site := .absent }
    (∀ t ∈ givenTexts l e [], '|' ∉ t) ∧ octets (terminator false) <:+ render l .info e [] ∧
    ∃ body json, render l .info e [] = octets (header .info ++ body) ∧
      (breakTimes? separator 11 body).map Prod.snd = some (json ++ separator ++ terminator false) ∧
      unescape (orDash (escaped e.message.toList)) = "a | b".toList ∧
      replace escapedSeparator separator json = jsonText e.data := by
  intro l e
  have hbars : ∀ t ∈ givenTexts l e [], '|' ∉ t := by decide +kernel
  have hwhole : octets (terminator false) <:+ render l .info e [] := by decide +kernel
  obtain ⟨body, json, hrec, hcut, hmessage, hjson⟩ := record_decodes l .info e [] hbars hwhole
  refine ⟨hbars, hwhole, body, json, hrec, ?_, hmessage.trans (by decide), hjson⟩
  rw [hcut]
  rfl

end LogRelay.Record
