/-
What is read as a text in quotes is one.

Reading lets nothing else through than a quote, glyphs and a quote, between blanks: from what is read the glyphs come
back one by one. So a reader that wants a text takes it from a JSON text in quotes only, and what it takes is what
that spells.
- `closing_of_readText`: what is read up to the closing quote is written in glyphs.
- `exists_written_of_asText`: a JSON text from which a text is taken is this text in quotes.
-/
import Mathlib.Data.List.TakeWhile
import LogRelay.Proofs.Json.Listing

namespace LogRelay.Json

/-- what is read up to the closing quote is written in glyphs -/
theorem closing_of_readText {d : Draft} {s q : List Char} {text : Except Fault String}
    (hread : readText d s = .ok (text, q)) : ∃ gs, s = Glyph.closing gs ++ q := by
  fun_induction readText d s with
  | case2 d r =>
    cases hread
    exact ⟨[], rfl⟩
  | case3 d h i j k r n hn ih =>
    obtain ⟨gs, rfl⟩ := ih hread
    exact ⟨.unit h i j k n hn :: gs, rfl⟩
  | case6 d e r _ _ _ c hc ih =>
    obtain ⟨gs, rfl⟩ := ih hread
    exact ⟨.letter e c hc :: gs, rfl⟩
  | case10 d c r hquote _ _ hescape hend _ hlow ih =>
    have hplain : c ≠ '\\' := by
      intro hc
      cases r with
      | nil => exact hend hc rfl
      | cons e r => exact hescape e r hc rfl
    obtain ⟨gs, rfl⟩ := ih hread
    exact ⟨.plain c ⟨Char.not_lt.1 hlow, hquote, hplain⟩ :: gs, rfl⟩
  | _ => cases hread

/-- the glyphs that are read spell what is read -/
theorem string_of_readText {gs : List Glyph} {q r : List Char} {v : String}
    (h : readText {} (Glyph.closing gs ++ q) = .ok (.ok v, r)) : Glyph.string? gs = some v := by
  have hreads := readText_closing gs (d := {}) rfl rfl q
  rw [h] at hreads
  unfold Draft.Reads at hreads
  unfold Glyph.string?
  cases hdecode : Glyph.decode? gs with
  | none =>
    rw [hdecode] at hreads
    obtain ⟨f, hf⟩ := hreads
    cases hf
  | some cs =>
    rw [hdecode] at hreads
    cases hreads
    rfl

/-! ## Values -/

section Kinds

variable {v : String} {e : Extent} {rest : Option (List Char)}

theorem word_ne_text {w : Scalar} (hw : w ≠ .text v) (start ws r : List Char) :
    readValue.word w start ws r ≠ (.scalar (.text v) e, rest) := by
  intro h
  unfold readValue.word at h
  split at h <;> cases h
  exact hw rfl

theorem numeral_ne_text (negative : Bool) (start r : List Char) :
    readValue.numeral negative start r ≠ (.scalar (.text v) e, rest) := by
  intro h
  unfold readValue.numeral at h
  split at h
  · cases h
  · split at h <;> cases h

/-- a value that is read as a text begins with a quote -/
theorem quote_of_readValue {fuel : Nat} {s : List Char} (h : readValue fuel s = (.scalar (.text v) e, rest)) :
    ∃ r q, skipBlanks s = '"' :: r ∧ readText {} r = .ok (.ok v, q) ∧ rest = some q := by
  cases fuel with
  | zero =>
    rw [readValue] at h
    cases h
  | succ fuel =>
    rw [readValue] at h
    split at h
    · cases h
    · next r hs =>
      split at h
      · next hread =>
        cases h
        exact ⟨r, _, hs, hread, rfl⟩
      · cases h
      · cases h
    · split at h <;> cases h
    · split at h <;> cases h
    · exact absurd h (word_ne_text (by simp) _ _ _)
    · exact absurd h (word_ne_text (by simp) _ _ _)
    · exact absurd h (word_ne_text (by simp) _ _ _)
    · exact absurd h (numeral_ne_text _ _ _)
    · split at h
      · exact absurd h (numeral_ne_text _ _ _)
      · cases h

end Kinds

/-! ## Whole texts -/

/-- only a text is taken as a text -/
theorem eq_scalar_of_asText {t : Tree} {v : String} (h : t.asText = .ok v) : ∃ e, t = .scalar (.text v) e := by
  unfold Tree.asText at h
  split at h
  · cases h
    exact ⟨_, rfl⟩
  · cases t <;> cases h

/-- a JSON text from which a text is taken is this text in quotes, between blanks -/
theorem exists_written_of_asText {s : List Char} {v : String} (htext : (Document.read s).tree.asText = .ok v)
    (htrailing : (Document.read s).trailing? = none) : ∃ x : Padded Written, x.chars = s ∧ SpellsText v x.value := by
  obtain ⟨e, htree⟩ := eq_scalar_of_asText htext
  have hvalue : readValue (2 * s.length + 1) s = (.scalar (.text v) e, (Document.read s).rest) := Prod.ext htree rfl
  obtain ⟨r, q, hquote, hread, hrest⟩ := quote_of_readValue hvalue
  obtain ⟨gs, rfl⟩ := closing_of_readText hread
  have hspell := string_of_readText hread
  -- nothing but blanks follows the closing quote
  have hblank : skipBlanks q = [] := by
    cases hq : skipBlanks q with
    | nil => rfl
    | cons c q' =>
      rw [Document.trailing?, hrest, Option.map_some, hq] at htrailing
      cases htrailing
  refine ⟨⟨⟨s.takeWhile isBlank, fun c hc => List.mem_takeWhile_imp hc⟩, .text gs,
    ⟨q, List.dropWhile_eq_nil_iff.1 hblank⟩⟩, ?_, gs, rfl, hspell⟩
  calc s.takeWhile isBlank ++ ((Written.text gs).chars ++ q)
      = s.takeWhile isBlank ++ skipBlanks s := by
        rw [hquote, Written.chars]
        rfl
    _ = s := List.takeWhile_append_dropWhile

end LogRelay.Json
