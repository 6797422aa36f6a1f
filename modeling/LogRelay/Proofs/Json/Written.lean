/-
JSON as it may be written.

`Written` is a JSON value as it stands in a text: each numeral with its digits, each character of a text in quotes in
one of the ways it can be written, and blanks around every part. `Written.chars` puts it down. So a JSON text is the
characters of a `Written` between blanks, and what is said for every `Written` is said for every well-formed text.
- `Glyph.decode?`: the text that glyphs spell; none when a surrogate among them has no partner.
- `NumeralText.numeral`: the numeral that is written, without regard to the case of an `e` and to a plus sign.
- `Written.exists_head`: a value begins with no blank and no mark.
-/
import Mathlib.Tactic
import LogRelay.Json.Reader

namespace LogRelay.Json

/-! ## Parts -/

/-- blanks between the parts of a JSON text -/
structure Blanks where
  chars : List Char
  blank : ∀ c ∈ chars, isBlank c = true

def Blanks.none : Blanks := ⟨[], by simp⟩

/-- a part with the blanks around it -/
structure Padded (α : Type) where
  before : Blanks
  value : α
  after : Blanks

def Padded.bare {α : Type} (a : α) : Padded α := ⟨.none, a, .none⟩

/-- decimal digits, at least one -/
structure Figures where
  chars : List Char
  nonempty : chars ≠ []
  digits : ∀ c ∈ chars, c.isDigit = true

structure Exponent where
  capital : Bool
  /-- the sign, if one is written: whether it is a minus -/
  sign : Option Bool
  figures : Figures

/-- a numeral as it is written: a whole part of more than one digit does not begin with a zero -/
structure NumeralText where
  negative : Bool
  whole : Figures
  lead : whole.chars.head? = some '0' → whole.chars = ['0']
  fraction : Option Figures
  exponent : Option Exponent

/-- a character inside quotes, or half of one, as it is written -/
inductive Glyph where
  /-- a character that stands for itself -/
  | plain (c : Char) (h : ' ' ≤ c ∧ c ≠ '"' ∧ c ≠ '\\')
  /-- a backslash and a letter -/
  | letter (e c : Char) (h : escaped? e = some c)
  /-- a UTF-16 unit in four hexadecimal digits -/
  | unit (h i j k : Char) (n : Nat) (hn : hex4? h i j k = some n)

/-- a JSON value as it is written -/
inductive Written where
  | null
  | bool (b : Bool)
  | numeral (n : NumeralText)
  | text (gs : List Glyph)
  /-- an array; `inside` are the blanks after its bracket -/
  | array (inside : Blanks) (items : List (Padded Written))
  /-- an object: each key with its value; `inside` are the blanks after its brace -/
  | object (inside : Blanks) (entries : List (Padded (List Glyph) × Padded Written))

/-- a key with its value, as it is written -/
abbrev Entry : Type := Padded (List Glyph) × Padded Written

/-! ## Characters -/

def Exponent.chars (e : Exponent) : List Char :=
  (if e.capital then 'E' else 'e') :: (match e.sign with
    | none => []
    | some true => ['-']
    | some false => ['+']) ++ e.figures.chars

namespace NumeralText

/-- what follows the whole part -/
def tail (n : NumeralText) : List Char :=
  (n.fraction.elim [] fun f => '.' :: f.chars) ++ n.exponent.elim [] Exponent.chars

def chars (n : NumeralText) : List Char := (if n.negative then ['-'] else []) ++ (n.whole.chars ++ n.tail)

def numeral (n : NumeralText) : Numeral where
  negative := n.negative
  whole := n.whole.chars.map digitValue
  fraction := n.fraction.elim [] fun f => f.chars.map digitValue
  exponent := n.exponent.map fun e => (e.sign == some true, e.figures.chars.map digitValue)
  marked := n.fraction.isSome || n.exponent.isSome

/-- the number of a numeral without sign, fraction and exponent -/
def natural? (n : NumeralText) : Option Nat :=
  if n.negative || n.fraction.isSome || n.exponent.isSome then none else some (Text.ofFigures n.whole.chars)

end NumeralText

namespace Glyph

def chars : Glyph → List Char
  | plain c _ => [c]
  | letter e _ _ => ['\\', e]
  | unit h i j k _ _ => ['\\', 'u', h, i, j, k]

/-- the character of a leading surrogate and its partner -/
def paired (h n : Nat) : Char := Char.ofNat (0x10000 + (h - 0xD800) * 0x400 + (n - 0xDC00))

/-- the text that glyphs spell; none when a surrogate among them has no partner -/
def decode? : List Glyph → Option (List Char)
  | [] => some []
  | plain c _ :: gs => (decode? gs).map (c :: ·)
  | letter _ c _ :: gs => (decode? gs).map (c :: ·)
  | unit _ _ _ _ n _ :: gs =>
    if isHighSurrogate n then
      match gs with
      | unit _ _ _ _ m _ :: gs => if isLowSurrogate m then (decode? gs).map (paired n m :: ·) else none
      | _ => none
    else if isLowSurrogate n then none
    else (decode? gs).map (Char.ofNat n :: ·)

def string? (gs : List Glyph) : Option String := (decode? gs).map String.ofList

/-- glyphs in quotes, without the quote before them -/
def closing (gs : List Glyph) : List Char := gs.flatMap chars ++ ['"']

end Glyph

/-- a text in quotes in characters -/
def quotedGlyphs (gs : List Glyph) : List Char := '"' :: Glyph.closing gs

namespace Written

mutual

def chars : Written → List Char
  | null => "null".toList
  | bool b => (if b then "true" else "false").toList
  | numeral n => n.chars
  | text gs => quotedGlyphs gs
  | array inside items => '[' :: inside.chars ++ charsOfItems items ++ [']']
  | object inside entries => '{' :: inside.chars ++ charsOfEntries entries ++ ['}']

/-- the items of an array, without the brackets -/
def charsOfItems : List (Padded Written) → List Char
  | [] => []
  | [⟨b, v, a⟩] => b.chars ++ v.chars ++ a.chars
  | ⟨b, v, a⟩ :: i :: is => b.chars ++ v.chars ++ a.chars ++ ',' :: charsOfItems (i :: is)

/-- the entries of an object, without the braces -/
def charsOfEntries : List (Padded (List Glyph) × Padded Written) → List Char
  | [] => []
  | [(⟨b, k, a⟩, ⟨b', v, a'⟩)] => b.chars ++ quotedGlyphs k ++ a.chars ++ ':' :: b'.chars ++ v.chars ++ a'.chars
  | (⟨b, k, a⟩, ⟨b', v, a'⟩) :: e :: es =>
    b.chars ++ quotedGlyphs k ++ a.chars ++ ':' :: b'.chars ++ v.chars ++ a'.chars ++ ',' :: charsOfEntries (e :: es)

end

end Written

/-- a JSON text: a value between blanks -/
def Padded.chars (p : Padded Written) : List Char := p.before.chars ++ (p.value.chars ++ p.after.chars)

@[simp] theorem Padded.bare_chars (v : Written) : (Padded.bare v).chars = v.chars := by
  simp [Padded.chars, Padded.bare, Blanks.none]

/-! ## Beginnings -/

theorem digit_cases {c : Char} (h : c.isDigit = true) : ∃ n < 10, c = Nat.digitChar n := by
  have hsmall : ∀ n < 10, Char.ofNat (48 + n) = Nat.digitChar n := by decide
  simp only [Char.isDigit, Bool.and_eq_true, decide_eq_true_eq, ge_iff_le, UInt32.le_iff_toNat_le] at h
  have hlow : 48 ≤ c.toNat := h.1
  have hhigh : c.toNat ≤ 57 := h.2
  refine ⟨c.toNat - 48, by omega, ?_⟩
  rw [← hsmall _ (by omega), Nat.add_sub_cancel' hlow, Char.ofNat_toNat]

theorem Figures.cons (f : Figures) : ∃ c cs, f.chars = c :: cs ∧ c.isDigit = true := by
  obtain ⟨ds, hne, hd⟩ := f
  cases ds with
  | nil => exact absurd rfl hne
  | cons c cs => exact ⟨c, cs, rfl, hd c List.mem_cons_self⟩

theorem NumeralText.exists_head (n : NumeralText) :
    ∃ c cs, n.chars = c :: cs ∧ (c = '-' ∨ c.isDigit = true) := by
  obtain ⟨c, cs, hc, hdigit⟩ := n.whole.cons
  unfold NumeralText.chars
  cases n.negative with
  | true => exact ⟨'-', n.whole.chars ++ n.tail, rfl, Or.inl rfl⟩
  | false => exact ⟨c, cs ++ n.tail, by simp [hc], Or.inr hdigit⟩

namespace Written

/-- a value begins with no blank and no mark -/
theorem exists_head (v : Written) :
    ∃ c cs, v.chars = c :: cs ∧ isBlank c = false ∧ c ∉ [',', ']', '}', ':'] := by
  cases v with
  | null => exact ⟨'n', "ull".toList, rfl, by decide⟩
  | bool b =>
    cases b with
    | true => exact ⟨'t', "rue".toList, rfl, by decide⟩
    | false => exact ⟨'f', "alse".toList, rfl, by decide⟩
  | numeral n =>
    obtain ⟨c, cs, hc, hhead⟩ := NumeralText.exists_head n
    refine ⟨c, cs, by rw [chars, hc], ?_⟩
    rcases hhead with rfl | hdigit
    · decide
    · have hfigures : ∀ n < 10, isBlank (Nat.digitChar n) = false ∧ Nat.digitChar n ∉ [',', ']', '}', ':'] := by
        decide
      obtain ⟨n, hn, rfl⟩ := digit_cases hdigit
      exact hfigures n hn
  | text gs => exact ⟨'"', Glyph.closing gs, by rw [chars, quotedGlyphs], by decide⟩
  | array inside items => exact ⟨'[', inside.chars ++ charsOfItems items ++ [']'], by rw [chars]; rfl, by decide⟩
  | object inside entries => exact ⟨'{', inside.chars ++ charsOfEntries entries ++ ['}'], by rw [chars]; rfl, by decide⟩

theorem length_chars_pos (v : Written) : 0 < v.chars.length := by
  obtain ⟨c, cs, hv, -⟩ := v.exists_head
  simp [hv]

/-! ## Texts that go on -/

section Append

variable (b b' a a' : Blanks) (v : Written) (k : List Glyph) (r : List Char)

theorem array_chars_append (items : List (Padded Written)) :
    (array b items).chars ++ r = '[' :: (b.chars ++ (charsOfItems items ++ ']' :: r)) := by
  simp [chars]

theorem object_chars_append (entries : List Entry) :
    (object b entries).chars ++ r = '{' :: (b.chars ++ (charsOfEntries entries ++ '}' :: r)) := by
  simp [chars]

theorem lastItem_append : charsOfItems [⟨b, v, a⟩] ++ r = b.chars ++ (v.chars ++ (a.chars ++ r)) := by
  simp [charsOfItems]

theorem item_append (i : Padded Written) (is : List (Padded Written)) :
    charsOfItems (⟨b, v, a⟩ :: i :: is) ++ r =
      b.chars ++ (v.chars ++ (a.chars ++ ',' :: (charsOfItems (i :: is) ++ r))) := by
  simp [charsOfItems]

theorem lastEntry_append : charsOfEntries [(⟨b, k, a⟩, ⟨b', v, a'⟩)] ++ r =
    b.chars ++ '"' :: (Glyph.closing k ++ (a.chars ++ ':' :: (b'.chars ++ (v.chars ++ (a'.chars ++ r))))) := by
  simp [charsOfEntries, quotedGlyphs]

theorem entry_append (e : Entry) (es : List Entry) :
    charsOfEntries ((⟨b, k, a⟩, ⟨b', v, a'⟩) :: e :: es) ++ r =
      b.chars ++ '"' :: (Glyph.closing k ++ (a.chars ++ ':' :: (b'.chars ++ (v.chars ++
        (a'.chars ++ ',' :: (charsOfEntries (e :: es) ++ r)))))) := by
  simp [charsOfEntries, quotedGlyphs]

end Append

section Bare

variable (v : Written) (k : List Glyph)

@[simp] theorem object_bare (entries : List Entry) :
    (object .none entries).chars = '{' :: charsOfEntries entries ++ ['}'] := by
  simp [chars, Blanks.none]

@[simp] theorem lastItem_bare : charsOfItems [.bare v] = v.chars := by
  simp [charsOfItems, Padded.bare, Blanks.none]

@[simp] theorem item_bare (i : Padded Written) (is : List (Padded Written)) :
    charsOfItems (.bare v :: i :: is) = v.chars ++ ',' :: charsOfItems (i :: is) := by
  simp [charsOfItems, Padded.bare, Blanks.none]

@[simp] theorem lastEntry_bare : charsOfEntries [(.bare k, .bare v)] = quotedGlyphs k ++ ':' :: v.chars := by
  simp [charsOfEntries, Padded.bare, Blanks.none]

@[simp] theorem entry_bare (e : Entry) (es : List Entry) :
    charsOfEntries ((.bare k, .bare v) :: e :: es) =
      quotedGlyphs k ++ ':' :: v.chars ++ ',' :: charsOfEntries (e :: es) := by
  simp [charsOfEntries, Padded.bare, Blanks.none]

end Bare

end Written
end LogRelay.Json
