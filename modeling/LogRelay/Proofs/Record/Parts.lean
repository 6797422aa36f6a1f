/-
When a record has its thirteen parts.

A record is cut at every separator, as a reader of the log does it. The texts without a bar and the message keep a bar
away from a space, so whether the record falls into its twelve fields and its end depends on the JSON alone. Its
separators are escaped from left to right, and of two that share a space only the first one is found; and a bar that
is left right after a space is the beginning of a separator, where the budget ends there.
- `fixed_layout_iff`: the records of an event have their thirteen parts under every ceiling exactly when no bar is left
  right after a space in the JSON.
- `field_cut`, `fields_cut`: for every place in a run there is a budget that cuts the last field there.
- `fourteen_parts`: two separators that share a space make a record of fourteen parts.
-/
import Mathlib.Tactic
import LogRelay.Proofs.Record.Separator
import LogRelay.Proofs.Record.Truncation

namespace LogRelay.Record

open Text

/-- a record cut at every separator -/
def partsOf (r : Octets) : List (List Char) := split separator (ofOctets r).toList

/-- thirteen parts, the last of them the end of a record -/
def FixedLayout (r : Octets) : Prop :=
  (partsOf r).length = fieldCount + 1 ∧ ∃ truncated, (partsOf r).getLast? = some (terminator truncated)

theorem partsOf_octets (t : List Char) : partsOf (octets t) = split separator t := by
  rw [partsOf, ofOctets_octets, String.toList_ofList]

/-! ## Lines -/

theorem fixedLayout_of_guarded (l : Layout) (s : Severity) {ts : List (List Char)} (hcount : ts.length = fieldCount)
    (hts : ∀ t ∈ ts, Guarded t) (truncated : Bool) : FixedLayout (octets (line l s ts truncated)) := by
  have hne : ts ≠ [] := by
    rintro rfl
    cases hcount
  obtain ⟨ps, hps, hsplit⟩ := split_guarded l s hne hts (terminator truncated)
  have hend : split separator (terminator truncated) = [terminator truncated] := by cases truncated <;> decide
  rw [hend] at hsplit
  have hparts : partsOf (octets (line l s ts truncated)) = ps ++ [terminator truncated] :=
    (partsOf_octets _).trans hsplit
  refine ⟨?_, truncated, ?_⟩
  · rw [hparts, List.length_append, hps, hcount]
    rfl
  · rw [hparts, List.getLast?_concat]

/-- without a bar right after a space every record has its parts, wherever it was cut -/
theorem render_fixedLayout (l : Layout) (s : Severity) (e : Event) (stack : List Frame)
    (hbars : ∀ t ∈ givenTexts l e stack, '|' ∉ t) (hdata : ¬ [' ', '|'] <:+: fullText (data e.data)) :
    FixedLayout (render l s e stack) := by
  obtain ⟨ts, truncated, hts, hrec⟩ := exists_line l s e stack
  rw [hrec]
  apply fixedLayout_of_guarded
  · rw [← hts.length_eq]
    rfl
  · intro t ht
    obtain ⟨f, hf, hleaves⟩ := exists_field hts ht
    apply hleaves.guarded
    rw [fieldsOf_eq] at hf
    rcases List.mem_append.1 hf with hf | hf
    · exact guarded_frontFields hbars f hf
    · rw [List.mem_singleton] at hf
      rw [hf]
      exact guarded_data (guarded_fullText_data.2 hdata)

/-- where the last field ends in a space and a bar, the separator found is theirs, and the record has another end -/
theorem not_fixedLayout_of_bar (l : Layout) (s : Severity) {ts : List (List Char)} (hne : ts ≠ [])
    (hts : ∀ t ∈ ts, Guarded t) {a : List Char} (ha : ¬ [' ', '|'] <:+: a) (truncated : Bool) :
    ¬ FixedLayout (octets (line l s (ts ++ [a ++ [' ', '|']]) truncated)) := by
  obtain ⟨ps, -, hsplit⟩ := split_guarded l s hne hts (a ++ (separator ++ ('|' :: ' ' :: terminator truncated)))
  have hend : split separator ('|' :: ' ' :: terminator truncated) = ['|' :: ' ' :: terminator truncated] := by
    cases truncated <;> decide
  rw [split_append (by decide) (clear_of_no_bar_after_space ha), hend] at hsplit
  have hparts : partsOf (octets (line l s (ts ++ [a ++ [' ', '|']]) truncated)) =
      ps ++ [a, '|' :: ' ' :: terminator truncated] := by
    rw [partsOf_octets, ← hsplit, line]
    simp [separator]
  rintro ⟨-, mark, hlast⟩
  rw [hparts, List.getLast?_append_of_ne_nil _ (List.cons_ne_nil _ _), List.getLast?_cons_cons,
    List.getLast?_singleton] at hlast
  cases truncated <;> cases mark <;> revert hlast <;> decide

/-! ## Cuts inside the last field -/

namespace Budget

theorem pieces_append (b : Budget) (ps qs : List Piece) :
    (b.pieces (ps ++ qs)).1 = (b.pieces ps).1 ++ ((b.pieces ps).2.pieces qs).1 := by
  induction ps generalizing b with
  | nil => rfl
  | cons p ps ih => simp only [List.cons_append, pieces, ih]

theorem fields_append (b : Budget) (fs gs : List Field) :
    (b.fields (fs ++ gs)).1 = (b.fields fs).1 ++ ((b.fields fs).2.fields gs).1 := by
  induction fs generalizing b with
  | nil => rfl
  | cons f fs ih => simp only [List.cons_append, fields, ih]

/-- a field is cut inside a run, where its budget ends -/
theorem field_cut {b : Budget} {ps qs : List Piece} {v w : List Char}
    (h : (octets (fullText ps ++ v)).length = b.slack + 1) :
    (b.field (ps ++ .run (v ++ w) :: qs)).1.flatten = octets (fullText ps ++ v) := by
  set own : Budget := { b with written := 0 } with hown
  have hallow : own.allowance = b.slack + 1 := rfl
  rw [octets_append] at h ⊢
  rw [List.length_append] at h
  have hfits : (octets (fullText ps)).length ≤ own.allowance := by omega
  obtain ⟨hout, hspent, -⟩ := pieces_fit hfits
  set rest := (own.pieces ps).2 with hrest
  have hleft : rest.allowance = (octets v).length := by omega
  have hkept : (rest.push (octets (v ++ w))).1 = octets v := by
    rw [push_fst, hleft, cut_octets_append]
  -- the run takes all that was left, so that nothing is written after it
  have hafter := push_spends rest (octets (v ++ w))
  rw [hkept, hleft] at hafter
  have hnone := pieces_spends (rest.push (octets (v ++ w))).2 qs
  have hnil : ((rest.push (octets (v ++ w))).2.pieces qs).1.flatten = [] := by
    rw [← List.length_eq_zero_iff]
    omega
  rw [field, ← hown, pieces_append, List.flatten_append, hout, ← hrest, pieces, piece, List.flatten_cons, hkept, hnil,
    List.append_nil]

/-- when the fields before it find room, the last field is cut where the budget ends -/
theorem fields_cut {b : Budget} {fs : List Field} {ps qs : List Piece} {v w : List Char}
    (hne : ∀ f ∈ fs, fullText f ≠ []) (hpos : 0 < (octets (fullText ps ++ v)).length)
    (h : (octets (fs.flatMap fullText)).length + (octets (fullText ps ++ v)).length = b.slack + fs.length + 1) :
    (b.fields (fs ++ [ps ++ .run (v ++ w) :: qs])).1.map List.flatten =
      (fs.map fullText ++ [fullText ps ++ v]).map octets := by
  obtain ⟨hout, hspent, -⟩ := fields_fit (b := b) hne (by omega)
  have hroom : (octets (fullText ps ++ v)).length = (b.fields fs).2.slack + 1 := by omega
  have hcut : ((b.fields fs).2.field (ps ++ .run (v ++ w) :: qs)).1.flatten = octets (fullText ps ++ v) :=
    field_cut hroom
  rw [fields_append, List.map_append, hout, List.map_append]
  simp only [fields, List.map_cons, List.map_nil, hcut]

end Budget

/-! ## Bars of the JSON -/

/-- a character of a field stands in one of its pieces -/
theorem exists_piece {f : Field} {x y : List Char} {c : Char} (h : fullText f = x ++ c :: y) :
    ∃ ps p qs v w, f = ps ++ p :: qs ∧ p.chars = v ++ c :: w ∧ x = fullText ps ++ v := by
  induction f generalizing x with
  | nil => simp [fullText] at h
  | cons p f ih =>
    have hsplit : p.chars ++ fullText f = x ++ c :: y := h
    rcases List.append_eq_append_iff.1 hsplit with ⟨z, rfl, hz⟩ | ⟨z, hp, hz⟩
    · obtain ⟨ps, q, qs, v, w, rfl, hq, rfl⟩ := ih hz
      refine ⟨p :: ps, q, qs, v, w, rfl, hq, ?_⟩
      rw [← List.append_assoc]
      rfl
    · rcases List.cons_eq_append_iff.1 hz with ⟨rfl, hf⟩ | ⟨w, rfl, -⟩
      · obtain ⟨ps, q, qs, v, w, rfl, hq, hv⟩ := ih (x := []) hf
        refine ⟨p :: ps, q, qs, v, w, rfl, hq, ?_⟩
        obtain ⟨hps, rfl⟩ := List.append_eq_nil_iff.1 hv.symm
        rw [List.append_nil] at hp
        rw [← hp, List.append_nil]
        show p.chars = p.chars ++ fullText ps
        rw [hps, List.append_nil]
      · exact ⟨[], p, f, x, w, rfl, hp, rfl⟩

theorem eq_escapedSeparator_of_whole {acc s t : List Char} (h : .whole t ∈ jsonPieces acc s) :
    t = escapedSeparator := by
  fun_induction jsonPieces acc s with
  | case1 acc => simp at h
  | case2 acc r ih =>
    simp only [List.mem_cons, reduceCtorEq, Piece.whole.injEq, false_or] at h
    rcases h with h | h
    · exact h
    · exact ih h
  | case3 acc c r _ ih => exact ih h

/-- a bar right after a space stands in a run, since the escapes put a backslash between them -/
theorem exists_run_of_bar {d : Option Payload} {a b : List Char} (h : fullText (data d) = a ++ ' ' :: '|' :: b) :
    ∃ ps v w qs, data d = ps ++ .run (v ++ w) :: qs ∧ fullText ps ++ v = a ++ [' ', '|'] := by
  have hbar : fullText (data d) = (a ++ [' ']) ++ '|' :: b := by rw [h, List.append_assoc, List.singleton_append]
  obtain ⟨ps, p, qs, v, w, hdata, hp, ha⟩ := exists_piece hbar
  cases p with
  | run s =>
    have hs : s = (v ++ ['|']) ++ w := by rw [List.append_assoc]; exact hp
    refine ⟨ps, v ++ ['|'], w, qs, by rw [hdata, hs], ?_⟩
    rw [← List.append_assoc, ← ha, List.append_assoc]
    rfl
  | whole s =>
    have hmem : Piece.whole s ∈ jsonPieces [] (jsonText d) := by
      rw [← data_eq, hdata]
      exact List.mem_append_right ps List.mem_cons_self
    have hs : [' ', '\\'] ++ '|' :: [' '] = v ++ '|' :: w := (eq_escapedSeparator_of_whole hmem).symm.trans hp
    -- the only bar of an escape has a backslash before it
    obtain ⟨rfl, -, -⟩ := (List.append_cons_inj_of_notMem (by decide) (by decide)).1 hs
    have hlast := congrArg List.getLast? ha
    simp at hlast

/-- the first of the bars that stand right after a space -/
theorem exists_first_bar {t : List Char} (h : [' ', '|'] <:+: t) :
    ∃ a b, t = a ++ ' ' :: '|' :: b ∧ ¬ [' ', '|'] <:+: a := by
  induction t with
  | nil => simp at h
  | cons c t ih =>
    by_cases hhead : [' ', '|'] <+: c :: t
    · obtain ⟨b, hb⟩ := hhead
      exact ⟨[], b, hb.symm, by simp⟩
    · obtain ⟨a, b, rfl, ha⟩ := ih ((List.infix_cons_iff.1 h).resolve_left hhead)
      refine ⟨c :: a, b, rfl, ?_⟩
      rw [List.infix_cons_iff, not_or]
      refine ⟨fun hp => hhead ?_, ha⟩
      rw [← List.cons_append]
      exact hp.trans (List.prefix_append _ _)

/-! ## Main result -/

theorem sixteen_le_frontFields (l : Layout) (s : Severity) (e : Event) (stack : List Frame) :
    16 ≤ ((frontFields l s e stack).flatMap fullText).length := by
  have htexts := twenty_nine_le_frontTexts l s e stack
  rw [frontFields, List.flatMap_append, List.length_append]
  omega

/-- for every place in a run of the JSON there is a ceiling that cuts the record there -/
theorem exists_ceiling (l : Layout) (s : Severity) (e : Event) (stack : List Frame) {ps qs : List Piece}
    {v w : List Char} (hdata : data e.data = ps ++ .run (v ++ w) :: qs) (hlong : 2 ≤ (fullText ps ++ v).length) :
    ∃ n truncated, minRecordSize ≤ n ∧ render { l with maxSize := n } s e stack =
      octets (line l s ((frontFields l s e stack).map fullText ++ [fullText ps ++ v]) truncated) := by
  have hfront := (sixteen_le_frontFields l s e stack).trans (length_le_octets _)
  have hkept := hlong.trans (length_le_octets _)
  set n := (octets ((frontFields l s e stack).flatMap fullText)).length + (octets (fullText ps ++ v)).length
    + frameSize + (if l.header then 6 else 0)
  have hframe : frameSize = 38 := rfl
  have hleast : minRecordSize = 56 := rfl
  have hmin : minRecordSize ≤ n := by omega
  have hfields : fieldsOf { l with maxSize := n } s e stack =
      frontFields l s e stack ++ [ps ++ .run (v ++ w) :: qs] := hdata ▸ fieldsOf_eq _ s e stack
  have hne : ∀ f ∈ frontFields l s e stack, fullText f ≠ [] :=
    fun f hf => fullText_ne_nil (frontFields_subset l s e stack hf)
  have hroom : (octets ((frontFields l s e stack).flatMap fullText)).length + (octets (fullText ps ++ v)).length =
      (budget { l with maxSize := n } s).slack + (frontFields l s e stack).length + 1 := by
    have hcount : (frontFields l s e stack).length + 1 = fieldCount := rfl
    have hslack : (budget { l with maxSize := n } s).slack + fieldCount + frameSize + (if l.header then 6 else 0) = n :=
      budget_slack { l with maxSize := n } s hmin
    omega
  have hcut : ((budget { l with maxSize := n } s).fields (fieldsOf { l with maxSize := n } s e stack)).1.map
      List.flatten = ((frontFields l s e stack).map fullText ++ [fullText ps ++ v]).map octets := by
    rw [hfields]
    exact Budget.fields_cut hne (by omega) hroom
  exact ⟨n, _, hmin, render_eq_line hcut⟩

/-- **Fixed layout.** When no bar stands in the texts that are taken over as they are, the records of an event have
their thirteen parts, the last of them their end, under every ceiling that is not refused, exactly when no bar is left
right after a space in the JSON once its separators are escaped; the message does not matter. -/
theorem fixed_layout_iff (l : Layout) (s : Severity) (e : Event) (stack : List Frame)
    (hbars : ∀ t ∈ givenTexts l e stack, '|' ∉ t) :
    (∀ n, minRecordSize ≤ n → FixedLayout (render { l with maxSize := n } s e stack)) ↔
      ¬ [' ', '|'] <:+: replace separator escapedSeparator (jsonText e.data) := by
  rw [← fullText_data]
  constructor
  · intro h hin
    obtain ⟨a, b, hab, ha⟩ := exists_first_bar hin
    obtain ⟨ps, v, w, qs, hdata, hkept⟩ := exists_run_of_bar hab
    -- under the ceiling that cuts right behind that bar, it takes the place of the last separator
    obtain ⟨n, truncated, hmin, hrec⟩ := exists_ceiling l s e stack hdata (by rw [hkept]; simp)
    have hlayout := h n hmin
    rw [hrec, hkept] at hlayout
    refine not_fixedLayout_of_bar l s ?_ ?_ ha truncated hlayout
    · rw [map_fullText_frontFields]
      simp
    · intro t ht
      obtain ⟨f, hf, rfl⟩ := List.mem_map.1 ht
      exact guarded_fullText (guarded_frontFields hbars f hf)
  · intro h n _
    exact render_fixedLayout { l with maxSize := n } s e stack hbars h

/-- a separator in the message and one in the payload do no harm -/
theorem fixed_layout_small :
    let l : Layout := { hostname := "relay" }
    let e : Event := { message := "a | b", timestamp := ⟨0, 0⟩, data := some ⟨[("k", .text " | ")]⟩, site := .absent }
    (∀ t ∈ givenTexts l e [], '|' ∉ t) ∧
    ∀ n, minRecordSize ≤ n → FixedLayout (render { l with maxSize := n } .info e []) :=
  have hbars : ∀ t ∈ givenTexts { hostname := "relay" }
      { message := "a | b", timestamp := ⟨0, 0⟩, data := some ⟨[("k", .text " | ")]⟩, site := .absent }
        [], '|' ∉ t := by
    decide +kernel
  ⟨hbars, (fixed_layout_iff _ .info _ [] hbars).2 (by decide +kernel)⟩

/-- two separators of a payload that share a space make a record of fourteen parts -/
theorem fourteen_parts :
    let l : Layout := { hostname := "relay" }
    let e : Event := { message := "m", timestamp := ⟨0, 0⟩, data := some ⟨[("k", .text " | | ")]⟩, site := .absent }
    (∀ t ∈ givenTexts l e [], '|' ∉ t ∧ '\n' ∉ t) ∧ minRecordSize ≤ l.maxSize ∧
    (partsOf (render l .info e [])).length = 14 ∧ ¬ FixedLayout (render l .info e []) := by
  intro l e
  have hmin : minRecordSize ≤ l.maxSize := by decide
  have hrec : render l .info e [] = complete l .info e [] :=
    render_eq_complete_of_fits l .info e [] hmin (by decide +kernel)
  have hparts : (split separator (line l .info ((fieldsOf l .info e []).map fullText) false)).length = 14 := by
    decide +kernel
  refine ⟨by decide +kernel, hmin, ?_, ?_⟩
  · rw [hrec, complete, partsOf_octets, hparts]
  · rintro ⟨hcount, -⟩
    rw [hrec, complete, partsOf_octets, hparts] at hcount
    cases hcount

end LogRelay.Record
