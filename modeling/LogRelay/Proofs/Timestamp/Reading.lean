/-
The text of a moment, read back.

A moment is read in two stages. `Written.scan?` takes the text apart: a year, with four digits or with a sign and at
least four, then month, day, hour, minute and second with two digits each behind their marks, a fraction of one to
nine digits or none, and the zone. `Written.moment` is the moment these figures stand for, by the rules of the
calendar; the second 60 is a leap second.
- `scan?_text`: what the text of a moment is taken apart into.
- `text_eq_trimmed`: dropping the zeros at the end of nine figures, and then the point, stops where the text ends.
- `text_reads_back`: the text of a moment is read back as that moment.
-/
import Mathlib.Data.List.DropRight
import Mathlib.Tactic
import LogRelay.Proofs.Text.Figures
import LogRelay.Proofs.Text.Natural
import LogRelay.Proofs.Text.Split
import LogRelay.Proofs.Timestamp.Calendar

namespace LogRelay.Timestamp

open Text

/-! ## Reading -/

/-- a moment as it is written; the fraction is there only with its point -/
structure Written where
  year : Int
  month : Nat
  day : Nat
  hour : Nat
  minute : Nat
  second : Nat
  fraction : Option (List Char)
  deriving DecidableEq, Repr

/-- the number in the digits a text begins with, if their count is admitted, and what follows them -/
def number? (admits : Nat → Bool) (s : List Char) : Option (Nat × List Char) :=
  if admits (s.takeWhile Char.isDigit).length then
    some (ofFigures (s.takeWhile Char.isDigit), s.dropWhile Char.isDigit)
  else none

/-- a number of two digits behind a mark -/
def pair? (mark : Char) (s : List Char) : Option (Nat × List Char) := (afterPrefix? [mark] s).bind (number? (· == 2))

/-- a year: four digits, or a sign and at least four -/
def year? : List Char → Option (Int × List Char)
  | [] => none
  | c :: s =>
    if c = '-' then (number? (4 ≤ ·) s).map fun p => (-p.1, p.2)
    else if c = '+' then (number? (4 ≤ ·) s).map fun p => (p.1, p.2)
    else (number? (· == 4) (c :: s)).map fun p => (p.1, p.2)

/-- a point and one to nine digits, if there is a point -/
def fraction? (s : List Char) : Option (Option (List Char) × List Char) :=
  match afterPrefix? ['.'] s with
  | none => some (none, s)
  | some s =>
    let ds := s.takeWhile Char.isDigit
    if 1 ≤ ds.length ∧ ds.length ≤ 9 then some (some ds, s.dropWhile Char.isDigit) else none

namespace Written

/-- what a text is taken apart into -/
def scan? (s : List Char) : Option Written := do
  let (year, s) ← year? s
  let (month, s) ← pair? '-' s
  let (day, s) ← pair? '-' s
  let (hour, s) ← pair? 'T' s
  let (minute, s) ← pair? ':' s
  let (second, s) ← pair? ':' s
  let (fraction, s) ← fraction? s
  if s = ['Z'] then return ⟨year, month, day, hour, minute, second, fraction⟩ else none

def date (w : Written) : Date := ⟨w.year, w.month, w.day⟩

/-- a day of the calendar and a time of day; a minute may have a second more -/
structure IsProper (w : Written) : Prop where
  date : w.date.IsValid
  hour : w.hour < 24
  minute : w.minute < 60
  second : w.second ≤ 60

instance (w : Written) : Decidable w.IsProper :=
  decidable_of_iff (w.date.IsValid ∧ w.hour < 24 ∧ w.minute < 60 ∧ w.second ≤ 60)
    ⟨fun ⟨hd, hh, hm, hs⟩ => ⟨hd, hh, hm, hs⟩, fun ⟨hd, hh, hm, hs⟩ => ⟨hd, hh, hm, hs⟩⟩

def subNanos (w : Written) : Nat :=
  match w.fraction with
  | none => 0
  | some ds => ofFigures ds * 10 ^ (9 - ds.length)

/-- the moment that is written; the second 60 is the one before it, a second later -/
def moment (w : Written) : Timestamp :=
  ⟨w.date.toDays * 86400 + (w.hour * 3600 + w.minute * 60 + min w.second 59 : Nat),
    w.subNanos + if w.second = 60 then nanosPerSecond else 0⟩

end Written

/-- the moment a text stands for -/
def read? (s : List Char) : Option Timestamp := do
  let w ← Written.scan? s
  if w.IsProper then return w.moment else none

/-! ## Numbers of a fixed width -/

theorem isDigit_padded (width n : Nat) : ∀ c ∈ padded width n, c.isDigit = true := by
  intro c hc
  rcases List.mem_append.1 hc with hzero | hdigit
  · rw [List.eq_of_mem_replicate hzero]
    decide
  · exact isDigit_toDigits n c hdigit

theorem ofFigures_padded (width n : Nat) : ofFigures (padded width n) = n := by
  rw [padded, ofFigures_zeros, ofFigures_toDigits]

theorem length_padded {width n : Nat} (hpos : 0 < width) (h : n < 10 ^ width) : (padded width n).length = width := by
  have hle := (Nat.length_toDigits_le_iff (by norm_num) hpos).2 h
  rw [padded, List.length_append, List.length_replicate, Nat.sub_add_cancel hle]

theorem padded_ne_nil {width n : Nat} (hpos : 0 < width) : padded width n ≠ [] :=
  List.ne_nil_of_length_pos (hpos.trans_le (le_length_padded width n))

/-- at a mark the digits before it end -/
theorem head_mark {m : Char} (hm : m.isDigit = false) (s : List Char) :
    ∀ c, (m :: s).head? = some c → c.isDigit = false := by
  intro c hc
  rwa [← Option.some.inj hc]

theorem number?_padded {admits : Nat → Bool} {width n : Nat} (h : admits (padded width n).length = true) {r : List Char}
    (hr : ∀ c, r.head? = some c → c.isDigit = false) : number? admits (padded width n ++ r) = some (n, r) := by
  rw [number?, takeWhile_digits (isDigit_padded width n) hr, dropWhile_digits (isDigit_padded width n) hr, if_pos h,
    ofFigures_padded]

theorem pair?_padded {n : Nat} (h : n < 100) (mark : Char) {r : List Char}
    (hr : ∀ c, r.head? = some c → c.isDigit = false) : pair? mark (mark :: (padded 2 n ++ r)) = some (n, r) := by
  have hmark : afterPrefix? [mark] (mark :: (padded 2 n ++ r)) = some (padded 2 n ++ r) := afterPrefix?_append [mark] _
  have hlen : (padded 2 n).length = 2 := length_padded (by norm_num) h
  rw [pair?, hmark, Option.bind_some, number?_padded (by rw [hlen]; rfl) hr]

/-- a year is read back, whatever its sign and length -/
theorem year?_yearText (y : Int) {r : List Char} (hr : ∀ c, r.head? = some c → c.isDigit = false) :
    year? (yearText y ++ r) = some (y, r) := by
  unfold yearText
  split
  · next hy =>
    -- four digits, and the first is no sign
    have hlen : (padded 4 y.toNat).length = 4 := length_padded (by norm_num) (by omega)
    have hnumber : number? (· == 4) (padded 4 y.toNat ++ r) = some (y.toNat, r) :=
      number?_padded (by rw [hlen]; rfl) hr
    obtain ⟨c, ds, hds⟩ := List.exists_cons_of_ne_nil (padded_ne_nil (n := y.toNat) (show 0 < 4 by norm_num))
    have hc : c.isDigit = true := isDigit_padded 4 y.toNat c (by rw [hds]; exact List.mem_cons_self)
    have hminus : c ≠ '-' := fun heq => absurd hc (by rw [heq]; decide)
    have hplus : c ≠ '+' := fun heq => absurd hc (by rw [heq]; decide)
    rw [hds, List.cons_append] at hnumber ⊢
    rw [year?, if_neg hminus, if_neg hplus, hnumber, Option.map_some]
    exact congrArg (fun z => some (z, r)) (Int.toNat_of_nonneg hy.1)
  · have hnumber : number? (4 ≤ ·) (padded 4 y.natAbs ++ r) = some (y.natAbs, r) :=
      number?_padded (decide_eq_true (le_length_padded 4 y.natAbs)) hr
    rw [List.cons_append, year?]
    split
    · next hneg =>
      have habs : -(y.natAbs : Int) = y := by omega
      rw [if_pos rfl, hnumber, Option.map_some]
      exact congrArg (fun z => some (z, r)) habs
    · next hpos =>
      have habs : (y.natAbs : Int) = y := by omega
      rw [if_neg (by decide), if_pos rfl, hnumber, Option.map_some]
      exact congrArg (fun z => some (z, r)) habs

/-! ## The fraction -/

/-- nine figures of a second's fraction, without the zeros at their end -/
def fractionFigures (nanos : Nat) : List Char := (padded 9 nanos).rdropWhile (· == '0')

theorem fractionText_eq (nanos : Nat) :
    fractionText nanos = if fractionFigures nanos = [] then [] else '.' :: fractionFigures nanos := by
  rw [fractionText, fractionFigures, List.rdropWhile]
  split
  · next h => rw [if_pos h]
  · next h => rw [if_neg h]

theorem fractionFigures_last {nanos : Nat} : (fractionFigures nanos).getLast? ≠ some '0' := by
  intro h
  have hne : fractionFigures nanos ≠ [] := by
    intro hnil
    rw [hnil] at h
    cases h
  have hlast := List.rdropWhile_last_not (· == '0') (padded 9 nanos) hne
  rw [List.getLast?_eq_some_getLast hne, Option.some.injEq] at h
  exact hlast (beq_iff_eq.2 h)

theorem isDigit_fractionFigures (nanos : Nat) : ∀ c ∈ fractionFigures nanos, c.isDigit = true :=
  fun c hc => isDigit_padded 9 nanos c ((List.rdropWhile_prefix _ _).subset hc)

section

variable {nanos : Nat} (h : nanos < nanosPerSecond)

include h

theorem length_fractionFigures_le : (fractionFigures nanos).length ≤ 9 := by
  have hlen : (padded 9 nanos).length = 9 := length_padded (by norm_num) h
  exact hlen ▸ (List.rdropWhile_prefix _ _).length_le

/-- what is dropped are zeros, as many as there are figures missing to nine -/
theorem fractionFigures_append :
    fractionFigures nanos ++ List.replicate (9 - (fractionFigures nanos).length) '0' = padded 9 nanos := by
  have hlen : (padded 9 nanos).length = 9 := length_padded (by norm_num) h
  have hsplit := List.rdropWhile_append_rtakeWhile (p := (· == '0')) (l := padded 9 nanos)
  have hzeros : ∀ c ∈ (padded 9 nanos).rtakeWhile (· == '0'), c = '0' := fun c hc =>
    beq_iff_eq.1 (List.mem_rtakeWhile_imp (p := (· == '0')) hc)
  have hcount : 9 - (fractionFigures nanos).length = ((padded 9 nanos).rtakeWhile (· == '0')).length := by
    have hsum := congrArg List.length hsplit
    rw [List.length_append, hlen] at hsum
    rw [fractionFigures]
    omega
  rw [hcount, ← List.eq_replicate_of_mem hzeros]
  exact hsplit

theorem ofFigures_fractionFigures :
    ofFigures (fractionFigures nanos) * 10 ^ (9 - (fractionFigures nanos).length) = nanos := by
  rw [← ofFigures_append_zeros, fractionFigures_append h, ofFigures_padded]

theorem fractionFigures_eq_nil_iff : fractionFigures nanos = [] ↔ nanos = 0 := by
  constructor
  · intro hnil
    have hvalue := ofFigures_fractionFigures h
    rw [hnil] at hvalue
    exact hvalue.symm.trans (Nat.zero_mul _)
  · rintro rfl
    rfl

theorem fraction?_fractionText :
    fraction? (fractionText nanos ++ ['Z']) =
      some (if nanos = 0 then none else some (fractionFigures nanos), ['Z']) := by
  rw [fractionText_eq]
  by_cases hzero : nanos = 0
  · rw [if_pos hzero, if_pos ((fractionFigures_eq_nil_iff h).2 hzero)]
    rfl
  · have hne : fractionFigures nanos ≠ [] := fun hnil => hzero ((fractionFigures_eq_nil_iff h).1 hnil)
    have htake := takeWhile_digits (isDigit_fractionFigures nanos) (head_mark (m := 'Z') rfl [])
    have hdrop := dropWhile_digits (isDigit_fractionFigures nanos) (head_mark (m := 'Z') rfl [])
    have hpoint : afterPrefix? ['.'] ('.' :: (fractionFigures nanos ++ ['Z'])) =
      some (fractionFigures nanos ++ ['Z']) :=
      afterPrefix?_append ['.'] _
    rw [if_neg hzero, if_neg hne, List.cons_append, fraction?, hpoint]
    simp only [htake, hdrop]
    rw [if_pos ⟨List.length_pos_iff.2 hne, length_fractionFigures_le h⟩]

end

/-! ## The text of a moment -/

/-- the nanoseconds of a moment in its second, also where that is a leap second -/
def subNanos (t : Timestamp) : Nat := if nanosPerSecond ≤ t.nanos then t.nanos - nanosPerSecond else t.nanos

/-- the second of a minute, as it is shown -/
def shownSecond (t : Timestamp) : Nat := if nanosPerSecond ≤ t.nanos then 60 else t.secondOfDay % 60

/-- the text of a moment up to its seconds -/
def secondsText (t : Timestamp) : List Char :=
  yearText t.date.year ++ '-' :: padded 2 t.date.month ++ '-' :: padded 2 t.date.day
    ++ 'T' :: padded 2 (t.secondOfDay / 3600) ++ ':' :: padded 2 (t.secondOfDay / 60 % 60)
    ++ ':' :: padded 2 t.shownSecond

theorem text_eq (t : Timestamp) : t.text = t.secondsText ++ fractionText t.subNanos ++ ['Z'] := rfl

/-- the text of a moment with nine figures of the second's fraction, up to its zone -/
def longText (t : Timestamp) : List Char := t.secondsText ++ '.' :: padded 9 t.subNanos

/-- what is dropped at the end of a text goes no further than to a character that is kept -/
theorem rdropWhile_append_cons {p : Char → Bool} {c : Char} (h : p c = false) (a b : List Char) :
    (a ++ c :: b).rdropWhile p = a ++ c :: b.rdropWhile p := by
  have hkept : (c :: a.reverse).dropWhile p = c :: a.reverse :=
    List.dropWhile_cons_of_neg (by rw [h]; exact Bool.false_ne_true)
  rw [List.rdropWhile, List.rdropWhile, List.reverse_append, List.reverse_cons, List.append_assoc,
    List.singleton_append, List.dropWhile_append, hkept]
  split
  · next hnil =>
    rw [List.isEmpty_iff.1 hnil]
    simp
  · simp

/-- what ends in a digit ends in no point -/
theorem rdropWhile_point {a ds : List Char} (hne : ds ≠ []) (hds : ∀ c ∈ ds, c.isDigit = true) :
    (a ++ ds).rdropWhile (· == '.') = a ++ ds := by
  rw [List.rdropWhile_eq_self_iff]
  intro hall hpoint
  rw [List.getLast_append_of_ne_nil hall hne, beq_iff_eq] at hpoint
  have hdigit := hds _ (List.getLast_mem hne)
  rw [hpoint] at hdigit
  cases hdigit

/-- dropping the zeros at the end and then the point gives the text of the moment: where the fraction is nothing but
zeros, the point keeps those of the seconds -/
theorem text_eq_trimmed (t : Timestamp) :
    t.text = (t.longText.rdropWhile (· == '0')).rdropWhile (· == '.') ++ ['Z'] := by
  have hzeros : t.longText.rdropWhile (· == '0') = t.secondsText ++ '.' :: fractionFigures t.subNanos :=
    rdropWhile_append_cons rfl t.secondsText (padded 9 t.subNanos)
  rw [text_eq, fractionText_eq, hzeros]
  split
  · next hnil =>
    have hseconds : t.secondsText.rdropWhile (· == '.') = t.secondsText := by
      rw [secondsText, List.append_cons]
      exact rdropWhile_point (padded_ne_nil (by norm_num)) (isDigit_padded 2 t.shownSecond)
    rw [hnil, List.rdropWhile_concat_pos _ _ _ rfl, hseconds, List.append_nil]
  · next hne =>
    have hpoint : (t.secondsText ++ '.' :: fractionFigures t.subNanos).rdropWhile (· == '.') =
        t.secondsText ++ '.' :: fractionFigures t.subNanos := by
      rw [List.append_cons]
      exact rdropWhile_point hne (isDigit_fractionFigures t.subNanos)
    rw [hpoint]

/-! ## Main result -/

theorem nanos_of_representable {t : Timestamp} (h : t.isRepresentable = true) :
    t.nanos < nanosPerSecond ∨ t.nanos < 2 * nanosPerSecond ∧ t.secondOfDay % 60 = 59 := by
  simp only [isRepresentable, Bool.and_eq_true, Bool.or_eq_true, decide_eq_true_eq, beq_iff_eq] at h
  exact h.2

theorem secondOfDay_lt (t : Timestamp) : t.secondOfDay < 86400 := by
  rw [secondOfDay]
  omega

/-- the figures of a moment, as they are written -/
def written (t : Timestamp) : Written where
  year := t.date.year
  month := t.date.month
  day := t.date.day
  hour := t.secondOfDay / 3600
  minute := t.secondOfDay / 60 % 60
  second := t.shownSecond
  fraction := if t.subNanos = 0 then none else some (fractionFigures t.subNanos)

theorem isProper_written (t : Timestamp) : t.written.IsProper where
  date := Date.isValid_ofDays _
  hour := by
    have htime := secondOfDay_lt t
    change t.secondOfDay / 3600 < 24
    omega
  minute := Nat.mod_lt _ (by norm_num)
  second := by
    change t.shownSecond ≤ 60
    rw [shownSecond]
    split <;> omega

section

variable {t : Timestamp} (h : t.isRepresentable = true)

include h

theorem subNanos_lt : t.subNanos < nanosPerSecond := by
  have hnanos := nanos_of_representable h
  rw [subNanos]
  split <;> omega

theorem subNanos_eq_mod : t.subNanos = t.nanos % nanosPerSecond := by
  have hlt := subNanos_lt h
  unfold subNanos at hlt ⊢
  split at hlt
  · next hleap => rw [if_pos hleap, Nat.mod_eq_sub_mod hleap, Nat.mod_eq_of_lt hlt]
  · next hleap => rw [if_neg hleap, Nat.mod_eq_of_lt hlt]

/-- the text of a moment is taken apart into its figures -/
theorem scan?_text : Written.scan? t.text = some t.written := by
  have htail : ∀ c, (fractionText t.subNanos ++ ['Z']).head? = some c → c.isDigit = false := by
    rw [fractionText_eq]
    split
    · exact head_mark rfl []
    · exact head_mark rfl _
  have hdate : t.date.IsValid := Date.isValid_ofDays _
  obtain ⟨hmonth, hday⟩ := hdate.bounds
  have htime := secondOfDay_lt t
  have hsecond : t.shownSecond < 100 := by
    rw [shownSecond]
    split <;> omega
  have hnested : t.text = yearText t.date.year ++ ('-' :: (padded 2 t.date.month ++ ('-' :: (padded 2 t.date.day ++
      ('T' :: (padded 2 (t.secondOfDay / 3600) ++ (':' :: (padded 2 (t.secondOfDay / 60 % 60) ++
        (':' :: (padded 2 t.shownSecond ++ (fractionText t.subNanos ++ ['Z']))))))))))) := by
    simp only [text_eq, secondsText, List.append_assoc, List.cons_append]
  rw [hnested, Written.scan?, year?_yearText _ (head_mark rfl _)]
  simp only [Option.bind_eq_bind, Option.bind_some]
  rw [pair?_padded (by omega) _ (head_mark rfl _), Option.bind_some, pair?_padded (by omega) _ (head_mark rfl _),
    Option.bind_some, pair?_padded (by omega) _ (head_mark rfl _), Option.bind_some,
    pair?_padded (by omega) _ (head_mark rfl _), Option.bind_some, pair?_padded hsecond _ htail, Option.bind_some,
    fraction?_fractionText (subNanos_lt h), Option.bind_some]
  rfl

theorem subNanos_written : t.written.subNanos = t.subNanos := by
  have hlt := subNanos_lt h
  rw [Written.subNanos, written]
  by_cases hzero : t.subNanos = 0
  · rw [if_pos hzero, hzero]
  · rw [if_neg hzero]
    exact ofFigures_fractionFigures hlt

theorem moment_written : t.written.moment = t := by
  have hnanos := nanos_of_representable h
  have hdays : t.written.date.toDays = t.seconds / 86400 := Date.toDays_ofDays _
  have hsecond : min t.shownSecond 59 = t.secondOfDay % 60 := by
    rw [shownSecond]
    split <;> omega
  have hseconds : t.written.date.toDays * 86400 +
      (t.written.hour * 3600 + t.written.minute * 60 + min t.written.second 59 : Nat) = t.seconds := by
    have hday : (t.secondOfDay : Int) = t.seconds % 86400 := by
      rw [secondOfDay]
      omega
    change t.written.date.toDays * 86400 +
      (t.secondOfDay / 3600 * 3600 + t.secondOfDay / 60 % 60 * 60 + min t.shownSecond 59 : Nat) = t.seconds
    rw [hdays, hsecond]
    omega
  have hparts : t.written.subNanos + (if t.written.second = 60 then nanosPerSecond else 0) = t.nanos := by
    change t.written.subNanos + (if t.shownSecond = 60 then nanosPerSecond else 0) = t.nanos
    rw [subNanos_written h, subNanos, shownSecond]
    split_ifs <;> omega
  exact congrArg₂ mk hseconds hparts

end

/-- **Moments read back.** The text of a moment is read back as the very same moment. It is taken apart into a day of
the calendar and a time of day, with the second 60 for a leap second alone; its fraction never ends in a zero, and
there is none exactly where the second is a whole one. The text is what remains of the long one, with nine figures,
when zeros and then a point are dropped at its end. -/
theorem text_reads_back (t : Timestamp) (h : t.isRepresentable = true) :
    read? t.text = some t ∧
    t.text = (t.longText.rdropWhile (· == '0')).rdropWhile (· == '.') ++ ['Z'] ∧
    ∃ w : Written, Written.scan? t.text = some w ∧ w.IsProper ∧ w.moment = t ∧
      (w.second = 60 ↔ nanosPerSecond ≤ t.nanos) ∧
      (w.fraction = none ↔ t.nanos % nanosPerSecond = 0) ∧
      ∀ ds, w.fraction = some ds → ds.getLast? ≠ some '0' := by
  have hscan := scan?_text h
  have hmoment := moment_written h
  have hnanos := nanos_of_representable h
  refine ⟨?_, text_eq_trimmed t, t.written, hscan, isProper_written t, hmoment, ?_, ?_, ?_⟩
  · rw [read?, hscan]
    simp only [Option.bind_eq_bind, Option.bind_some, if_pos (isProper_written t), hmoment, Option.pure_def]
  · change t.shownSecond = 60 ↔ _
    rw [shownSecond]
    split <;> omega
  · rw [← subNanos_eq_mod h, written]
    split
    · next hzero => exact iff_of_true rfl hzero
    · next hzero => exact iff_of_false (Option.some_ne_none _) hzero
  · intro ds hds
    rw [written] at hds
    split at hds
    · cases hds
    · cases hds
      exact fractionFigures_last

/-- half a second into the leap second at the end of 2016 -/
def leapMoment : Timestamp := ⟨1483228799, 1500000000⟩

theorem text_reads_back_leap :
    leapMoment.isRepresentable = true ∧ read? leapMoment.text = some leapMoment ∧
    leapMoment.text = (leapMoment.longText.rdropWhile (· == '0')).rdropWhile (· == '.') ++ ['Z'] ∧
    ∃ w : Written, Written.scan? leapMoment.text = some w ∧ w.IsProper ∧ w.moment = leapMoment ∧
      (w.second = 60 ↔ nanosPerSecond ≤ leapMoment.nanos) ∧
      (w.fraction = none ↔ leapMoment.nanos % nanosPerSecond = 0) ∧
      ∀ ds, w.fraction = some ds → ds.getLast? ≠ some '0' :=
  ⟨by decide, text_reads_back leapMoment (by decide)⟩

example : leapMoment.text = "2016-12-31T23:59:60.5Z".toList := by decide

example : (⟨-62198755200, 20000000⟩ : Timestamp).text = "-0001-01-01T00:00:00.02Z".toList := by decide

end LogRelay.Timestamp
