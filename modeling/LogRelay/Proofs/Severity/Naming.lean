/-
Which texts name a severity.

A text names a severity if it has as many characters as the name and each of them is the letter in its place, in
either case, or a dotless i where the name has an I (`IsName`). Upper case lets through no more than that, although it
knows all of Unicode: the long s becomes an S, which stands in no name, and no name holds what a letter becomes that
is several characters in upper case.
- `isName_iff`: the texts that are a name in upper case.
- `asSeverity_eq`: a severity is read out of JSON as the text in quotes is parsed, wherever it stands.
- `ofText_asSeverity_eq_ok_iff`: the JSON texts that are read as a severity.
- `parsing_exact`: which texts are parsed as which severity, that all others are refused with themselves, and that the
  same goes for JSON.
-/
import LogRelay.Proofs.Json.Quoted
import LogRelay.Proofs.Text.Upper

namespace LogRelay.Severity

open Json Text

/-! ## Names -/

/-- a character is read as a letter of a name: it is this letter, in either case, or a dotless i for an I -/
def Matches (c letter : Char) : Prop := c = letter ∨ c = letter.toLower ∨ (c = 'ı' ∧ letter = 'I')

instance (c letter : Char) : Decidable (Matches c letter) := inferInstanceAs (Decidable (_ ∨ _ ∨ _))

/-- a text names a severity: letter for letter it is read as the name -/
def IsName (s : String) (v : Severity) : Prop := List.Forall₂ Matches s.toList v.name.toList

instance (s : String) (v : Severity) : Decidable (IsName s v) := inferInstanceAs (Decidable (List.Forall₂ _ _ _))

theorem isPlainWord_name (v : Severity) : IsPlainWord v.name.toList where
  capital := List.all_eq_true.1 (by cases v <;> rfl)
  apart := by cases v <;> decide

/-- no name has an S, so a long s is read as no letter of a name -/
theorem capitalizes_iff {v : Severity} {letter : Char} (h : letter ∈ v.name.toList) (c : Char) :
    Capitalizes c letter ↔ Matches c letter := by
  have hs : letter ≠ 'S' := by
    rintro rfl
    revert h
    cases v <;> decide
  simp only [Capitalizes, Matches, hs, and_false, or_false]

/-- the texts that are a name in upper case -/
theorem isName_iff {s : String} {v : Severity} : s.toList.flatMap upper = v.name.toList ↔ IsName s v := by
  rw [flatMap_upper_eq_iff v.isPlainWord_name, IsName, List.forall₂_iff_zip, List.forall₂_iff_zip]
  refine and_congr_right fun _ => forall₂_congr fun c letter => forall_congr' fun hmem => ?_
  exact capitalizes_iff (List.of_mem_zip hmem).2 c

/-- no character of a text that names a severity becomes several characters, and none is a space -/
theorem IsName.upper_isBlank {s : String} {v : Severity} (h : IsName s v) {c : Char} (hc : c ∈ s.toList) :
    (upper c).length = 1 ∧ Text.isBlank c = false := by
  have hinfix : upper c <:+: v.name.toList := isName_iff.2 h ▸ List.infix_flatMap_of_mem hc upper
  obtain ⟨letter, hletter, hupper⟩ := v.isPlainWord_name.exists_upper hinfix
  have hcapital := v.isPlainWord_name.capital letter hletter
  have hcapitalizes := (upper_eq_capital_iff hcapital).1 hupper
  exact ⟨by rw [hupper, List.length_singleton], hcapitalizes.isBlank_eq_false hcapital⟩

/-! ## Parsing -/

theorem parse_eq_ok_iff {s : String} {v : Severity} : parse s = .ok v ↔ IsName s v := by
  rw [← isName_iff]
  constructor
  · intro h
    unfold parse at h
    split at h
    · next w hfind =>
      cases h
      simpa using List.find?_some hfind
    · cases h
  · exact parse_eq

/-- a text that is refused is refused with itself -/
theorem eq_of_parse_error {s : String} {u : Unknown} (h : parse s = .error u) : u = ⟨s⟩ := by
  unfold parse at h
  split at h
  · cases h
  · cases h
    rfl

/-- a text that names no severity is refused with itself -/
theorem parse_eq_error_iff {s : String} : parse s = .error ⟨s⟩ ↔ ∀ v, ¬ IsName s v := by
  constructor
  · intro h v hname
    rw [parse_eq_ok_iff.2 hname] at h
    cases h
  · intro h
    cases hparse : parse s with
    | ok v => exact absurd (parse_eq_ok_iff.1 hparse) (h v)
    | error u => rw [eq_of_parse_error hparse]

/-! ## JSON -/

/-- the refusal of a JSON text in quotes that names no severity: it has no position -/
def Unknown.refusal (u : Unknown) : Refusal := ⟨.mismatch (.unknownSeverity u), none⟩

theorem Unknown.message_refusal (u : Unknown) : u.refusal.message = u.message := String.append_empty

/-- a text in quotes is read as it is parsed, wherever it stands -/
theorem asSeverity_eq {s : String} {x : Written} {t : Tree} (hs : SpellsText s x) (ht : x.ReadAs t) :
    t.asSeverity = (parse s).mapError fun u => ⟨.mismatch (.unknownSeverity u), none⟩ := by
  rw [Tree.asSeverity, reads_text s x t hs ht]
  simp only [bind, Except.bind]
  cases parse s <;> rfl

theorem ofText_asSeverity {s : String} {x : Padded Written} (hs : SpellsText s x.value) :
    ofText Tree.asSeverity x.chars = (parse s).mapError Unknown.refusal := by
  obtain ⟨t, ht, htext⟩ := ofText_chars_eq Tree.asSeverity x
  rw [htext, asSeverity_eq hs ht]
  cases parse s <;> rfl

/-- a severity is taken from a text that is parsed as this severity -/
theorem asText_of_asSeverity {t : Tree} {v : Severity} (h : t.asSeverity = .ok v) :
    ∃ s, t.asText = .ok s ∧ parse s = .ok v := by
  unfold Tree.asSeverity at h
  cases htext : t.asText with
  | error o =>
    rw [htext] at h
    cases h
  | ok s =>
    rw [htext] at h
    cases hparse : parse s with
    | error u =>
      simp only [bind, Except.bind, hparse] at h
      cases h
    | ok w =>
      simp only [bind, Except.bind, hparse] at h
      cases h
      exact ⟨s, rfl, hparse⟩

/-- the JSON texts that are read as a severity: in quotes, and spelling a text that names it -/
theorem ofText_asSeverity_eq_ok_iff {text : List Char} {v : Severity} :
    ofText Tree.asSeverity text = .ok v ↔
      ∃ (x : Padded Written) (s : String), x.chars = text ∧ SpellsText s x.value ∧ IsName s v := by
  constructor
  · intro h
    obtain ⟨hread, htrailing⟩ := ofText_eq_ok_iff.1 h
    obtain ⟨s, htext, hparse⟩ := asText_of_asSeverity hread
    obtain ⟨x, hchars, hspells⟩ := exists_written_of_asText htext htrailing
    exact ⟨x, s, hchars, hspells, parse_eq_ok_iff.1 hparse⟩
  · rintro ⟨x, s, rfl, hspells, hname⟩
    rw [ofText_asSeverity hspells, parse_eq_ok_iff.2 hname]
    rfl

/-! ## Main result -/

/-- **The texts that are parsed.** A text is parsed as a severity just when it has as many characters as the name and
each is the letter in its place, in either case, or a dotless i for an I. Any other text is refused with itself, such
as one with a character that becomes several in upper case, or with a space before, after or within it. A JSON text in
quotes, with any escapes and with blanks around it, is read as the text it spells is parsed, and refused in the same
words; and a severity is read from no other JSON text. -/
theorem parsing_exact :
    (∀ s v, parse s = .ok v ↔ IsName s v) ∧
    (∀ s, parse s = .error ⟨s⟩ ↔ ∀ v, ¬ IsName s v) ∧
    (∀ s, (∃ c ∈ s.toList, (upper c).length ≠ 1 ∨ Text.isBlank c = true) → parse s = .error ⟨s⟩) ∧
    (∀ s (x : Padded Written), SpellsText s x.value →
      ofText Tree.asSeverity x.chars = (parse s).mapError Unknown.refusal ∧
        (Unknown.refusal ⟨s⟩).message = "Invalid severity: '" ++ s ++ "'") ∧
    ∀ text v, ofText Tree.asSeverity text = .ok v ↔
      ∃ (x : Padded Written) (s : String), x.chars = text ∧ SpellsText s x.value ∧ IsName s v := by
  refine ⟨fun s v => parse_eq_ok_iff, fun s => parse_eq_error_iff, ?_,
    fun s x hs => ⟨ofText_asSeverity hs, Unknown.message_refusal ⟨s⟩⟩, fun text v => ofText_asSeverity_eq_ok_iff⟩
  rintro s ⟨c, hc, hstrange⟩
  rw [parse_eq_error_iff]
  intro v hname
  obtain ⟨hlength, hblank⟩ := hname.upper_isBlank hc
  rcases hstrange with hseveral | hspace
  · exact hseveral hlength
  · rw [hblank] at hspace
    cases hspace

/-- a name in small letters with a dotless i, parsed and read with an escape and blanks around it; and a ligature, which
becomes letters of which a name could be made -/
theorem parsing_exact_dotless :
    let x : Padded Written := ⟨⟨[' '], by simp [Json.isBlank]⟩,
      .text [.unit '0' '1' '3' '1' 0x131 rfl, .plain 'n' (by decide), .plain 'F' (by decide), .plain 'o' (by decide)],
      ⟨['\n'], by simp [Json.isBlank]⟩⟩
    x.chars = " \"\\u0131nFo\"\n".toList ∧ SpellsText "ınFo" x.value ∧
      ofText Tree.asSeverity x.chars = .ok .info ∧ parse "inﬀo" = .error ⟨"inﬀo"⟩ := by
  intro x
  obtain ⟨hparse, -, hstrange, hread, -⟩ := parsing_exact
  have hspells : SpellsText "ınFo" x.value := ⟨_, rfl, by decide⟩
  refine ⟨by decide, hspells, ?_, hstrange "inﬀo" ⟨'ﬀ', by decide, Or.inl (by decide)⟩⟩
  rw [(hread "ınFo" x hspells).1, (hparse "ınFo" .info).2 (by decide)]
  rfl

end LogRelay.Severity
