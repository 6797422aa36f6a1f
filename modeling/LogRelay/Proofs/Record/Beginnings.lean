/-
What is written of a field is a beginning of it, but for some messages.

The texts that may be cut anywhere have nothing behind the cut, and no character takes more octets than an escaped
separator of the JSON. A message is another matter: its escapes take two octets each, so an escape may fit where a
wide character did not, and what did not fit need not have used up the octet of its own.
- `Budget.message_kept`, `Budget.exists_message_gap`: the messages that keep a beginning with every budget are those
  without gaps.
- `exists_ceiling_slack`: every budget is what some ceiling leaves to the message.
- `beginnings_kept_iff`: the records of an event keep beginnings of their fields, whatever their ceiling, exactly when
  its message is without gaps.
- `escape_behind_gap`: a character is left out, and the escape behind it is not.
-/
import Mathlib.Tactic
import LogRelay.Proofs.Record.Gaps

namespace LogRelay.Record

open Text

/-! ## Single fields -/

theorem opening_le {f : Field} {k : Nat} (htight : Tight f) (hf : ∀ w, .whole w ∈ f → (octets w).length ≤ k) :
    opening f ≤ k := by
  unfold opening
  split
  · next s w _ =>
    have hw := hf w (by simp)
    cases s with
    | nil => exact hw
    | cons c s => exact (htight.1 c List.mem_cons_self).trans hw
  · exact Nat.zero_le k

namespace Budget

theorem field_kept {f : Field} (hf : Woven f) (htight : Tight f) {b : Budget} (hroom : opening f ≤ b.slack + 1) :
    Kept f (b.field f).1.flatten := by
  apply pieces_kept hf htight
  exact Or.inr hroom

theorem plain_kept (b : Budget) (t : List Char) : Kept (plain t) (b.field (plain t)).1.flatten := by
  have hnone : opening (plain t) ≤ b.slack + 1 := Nat.zero_le (b.slack + 1)
  exact field_kept (.last _) trivial hnone

end Budget

theorem woven_jsonPieces (acc s : List Char) : Woven (jsonPieces acc s) := by
  fun_induction jsonPieces acc s with
  | case1 acc => exact .last _
  | case2 acc r ih => exact .next _ (by decide) ih
  | case3 acc c r _ ih => exact ih

/-- no character takes more octets than an escaped separator -/
theorem tight_jsonPieces (acc s : List Char) : Tight (jsonPieces acc s) := by
  fun_induction jsonPieces acc s with
  | case1 acc => trivial
  | case2 acc r ih =>
    have hsize : (octets escapedSeparator).length = 4 := by decide
    refine ⟨?_, ih⟩
    intro c _
    rw [hsize]
    exact c.utf8Size_le_four
  | case3 acc c r _ ih => exact ih

theorem exists_run_jsonPieces {acc s : List Char} {c : Char} (h : acc.getLast? = some c) :
    ∃ t g, jsonPieces acc s = .run (c :: t) :: g := by
  have hrun : ∀ acc : List Char, acc.getLast? = some c → ∃ t, acc.reverse = c :: t := by
    intro acc h
    rwa [← List.head?_eq_some_iff, List.head?_reverse]
  fun_induction jsonPieces acc s with
  | case1 acc =>
    obtain ⟨t, ht⟩ := hrun acc h
    exact ⟨t, [], by rw [ht]⟩
  | case2 acc r ih =>
    obtain ⟨t, ht⟩ := hrun acc h
    exact ⟨t, _, by rw [ht]⟩
  | case3 acc d r _ ih =>
    apply ih
    rw [List.getLast?_cons, h]
    rfl

/-- the first run of a payload begins with the brace of its object -/
theorem exists_run_data (d : Option Payload) : ∃ t g, data d = .run ('{' :: t) :: g := by
  obtain ⟨t, ht⟩ := jsonText_eq_cons d
  have hnot : ∀ r, '{' = ' ' → t = '|' :: ' ' :: r → False := fun _ hbrace => absurd hbrace (by decide)
  rw [data_eq, ht, jsonPieces]
  · apply exists_run_jsonPieces
    rfl
  · exact hnot

theorem Budget.data_kept (b : Budget) (d : Option Payload) : Kept (data d) (b.field (data d)).1.flatten := by
  apply field_kept
  · rw [data_eq]
    exact woven_jsonPieces _ _
  · rw [data_eq]
    exact tight_jsonPieces _ _
  · obtain ⟨t, g, hdata⟩ := exists_run_data d
    have hbrace : '{'.utf8Size = 1 := rfl
    have hopening := opening_cons_le '{' t g
    rw [hdata]
    omega

/-! ## Messages -/

theorem message_eq {m : List Char} (h : m ≠ []) : message m = messagePieces m := by
  rw [message, if_neg (by rwa [List.isEmpty_iff])]

/-- a character that stands in a message as it is begins the escaped message only if it begins the message -/
theorem head?_eq_of_escaped {m : List Char} {d : Char} (hd : escape? d = none) (h : [d] <+: escaped m) :
    m.head? = some d := by
  cases m with
  | nil => cases h.length_le
  | cons c m =>
    rw [escaped, List.flatMap_cons] at h
    cases hc : escape? c with
    | none =>
      rw [hc, Option.getD_none, List.singleton_append, List.cons_prefix_cons] at h
      rw [List.head?_cons, h.1]
    | some w =>
      have hw := (escape_size hc).2.2
      rw [List.head?_eq_some_iff] at hw
      obtain ⟨w, rfl⟩ := hw
      rw [hc, Option.getD_some, List.cons_append, List.cons_prefix_cons] at h
      rw [h.1] at hd
      cases hd

namespace Budget

/-- what is left of a message where there is no slack -/
theorem message_alone {b : Budget} {m : List Char} (hm : m ≠ []) (hslack : b.slack = 0) :
    (b.field (message m)).1.flatten = octets (lone (messagePieces m)).toList := by
  rw [message_eq hm]
  apply pieces_alone (b := { b with written := 0 }) ?_ hslack rfl
  intro w hw
  rw [whole_size hw]
  exact Nat.lt_succ_self 1

/-- a message without gaps keeps a beginning, whatever budget it finds -/
theorem message_kept {m : List Char} (h : Gapless m) (b : Budget) :
    Kept (message m) (b.field (message m)).1.flatten := by
  by_cases hm : m = []
  · rw [hm]
    exact plain_kept b []
  have htight : Tight (messagePieces m) := tight_messagePieces.2 h.narrow
  have hkept : opening (messagePieces m) ≤ b.slack + 1 → Kept (message m) (b.field (message m)).1.flatten := by
    rw [message_eq hm]
    exact field_kept (woven_messagePieces m) htight
  rcases Nat.eq_zero_or_pos b.slack with hslack | hslack
  · by_cases hslim : ∃ c ∈ m.head?, Slim c
    · -- its first character fits into the octet of its own
      obtain ⟨c, hhead, hesc, hsize⟩ := hslim
      obtain ⟨t, rfl⟩ := List.head?_eq_some_iff.1 hhead
      have hopening := opening_cons_le c (untilEscape t) (messagePieces t).tail
      rw [← messagePieces_plain hesc] at hopening
      exact hkept (by omega)
    · have hresumes : ¬ Resumes m := by
        apply h.front.resolve_left
        intro hfront
        obtain ⟨c, t, rfl⟩ := List.exists_cons_of_ne_nil hm
        exact hslim ⟨c, rfl, hfront c rfl⟩
      have hlone : lone (messagePieces m) = none := by
        rw [← Option.not_isSome_iff_eq_none, isSome_lone]
        exact not_or.2 ⟨hslim, hresumes⟩
      rw [message_alone hm hslack, hlone]
      exact List.nil_prefix
  · apply hkept
    apply (opening_le (k := 2) htight ?_).trans (by omega)
    intro w hw
    exact (whole_size hw).le

/-- any other message has a gap with some budget -/
theorem exists_message_gap {m : List Char} (h : ¬ Gapless m) :
    ∃ slack, ∀ b : Budget, b.slack = slack → ¬ Kept (message m) (b.field (message m)).1.flatten := by
  have hm : m ≠ [] := by
    rintro rfl
    exact h ⟨.nil, Or.inl (by simp)⟩
  by_cases hnarrow : Tight (messagePieces m)
  · -- nothing of the first character fits, but the first of a later run does
    have hfront : ¬ ((∀ c ∈ m.head?, Slim c) ∨ ¬ Resumes m) := by
      intro hfront
      exact h ⟨tight_messagePieces.1 hnarrow, hfront⟩
    obtain ⟨hslim, hresumes⟩ := not_or.1 hfront
    rw [not_not] at hresumes
    obtain ⟨c, hlone⟩ := Option.isSome_iff_exists.1 (isSome_lone.2 (Or.inr hresumes))
    have hc := slim_of_lone hlone
    refine ⟨0, ?_⟩
    intro b hslack hkept
    rw [message_alone hm hslack, hlone, message_eq hm, Kept, fullText_messagePieces, octets_prefix_iff] at hkept
    apply hslim
    rw [head?_eq_of_escaped hc.1 hkept]
    rintro d ⟨rfl⟩
    exact hc
  · obtain ⟨a, hpos, hgap⟩ := exists_gap (woven_messagePieces m) hnarrow
    refine ⟨a - 1, ?_⟩
    intro b hslack
    rw [message_eq hm]
    apply hgap
    rw [own_allowance]
    omega

end Budget

/-! ## Records -/

/-- the slack is what the ceiling leaves after fifty octets, and six more for a header -/
theorem slack_eq (l : Layout) (s : Severity) (hmin : minRecordSize ≤ l.maxSize) :
    (budget l s).slack + 50 + (if l.header then 6 else 0) = l.maxSize := budget_slack l s hmin

/-- for every slack there is a ceiling that leaves it behind the first fields of a record -/
theorem exists_ceiling_left (l : Layout) (s : Severity) {fs : List Field} (hne : ∀ f ∈ fs, fullText f ≠ [])
    (hlong : fs.length + 6 ≤ (fs.flatMap fullText).length) (hcount : fs.length ≤ fieldCount) (slack : Nat) :
    ∃ n, minRecordSize ≤ n ∧ ((budget { l with maxSize := n } s).fields fs).2.slack = slack := by
  have hoctets := hlong.trans (length_le_octets _)
  have hleast : minRecordSize = 56 := rfl
  have hfields : fieldCount = 12 := rfl
  set n := (octets (fs.flatMap fullText)).length + slack + (50 - fs.length) + (if l.header then 6 else 0)
  have hmin : minRecordSize ≤ n := by omega
  have hslack : (budget { l with maxSize := n } s).slack + 50 + (if l.header then 6 else 0) = n :=
    slack_eq { l with maxSize := n } s hmin
  obtain ⟨-, hspent, -⟩ := Budget.fields_fit (b := budget { l with maxSize := n } s) hne (by omega)
  exact ⟨n, hmin, by omega⟩

section

variable (l : Layout) (s : Severity) (e : Event) (stack : List Frame)

theorem fieldsOf_eq_texts : fieldsOf l s e stack =
    (frontTexts l s e stack).map plain ++ [message e.message.toList, data e.data] := by
  rw [fieldsOf_eq, frontFields, List.append_assoc, List.singleton_append]

/-- the budget the message of a record finds -/
def messageBudget : Budget := ((budget l s).fields ((frontTexts l s e stack).map plain)).2

def messagePart : Octets := ((messageBudget l s e stack).field (message e.message.toList)).1.flatten

theorem exists_parts : ∃ ws d, (contents l s e stack).1 = ws ++ [messagePart l s e stack, d] ∧
    List.Forall₂ Kept ((frontTexts l s e stack).map plain) ws ∧ Kept (data e.data) d := by
  have hfront : List.Forall₂ (fun f ws => Kept f ws.flatten) ((frontTexts l s e stack).map plain)
      ((budget l s).fields ((frontTexts l s e stack).map plain)).1 := by
    apply Budget.fields_forall₂ (P := fun _ => True) (fun _ _ _ => trivial) ?_ trivial
    intro f hf b _
    obtain ⟨t, -, rfl⟩ := List.mem_map.1 hf
    exact Budget.plain_kept b t
  refine ⟨((budget l s).fields ((frontTexts l s e stack).map plain)).1.map List.flatten, _, ?_,
    List.forall₂_map_right_iff.2 hfront,
    Budget.data_kept ((messageBudget l s e stack).field (message e.message.toList)).2 e.data⟩
  simp only [contents_fst, fieldsOf_eq_texts, Budget.fields_append, Budget.fields, List.map_append, List.map_cons,
    List.map_nil, messagePart, messageBudget]

/-- whether a record keeps beginnings is up to its message -/
theorem all_kept_iff : List.Forall₂ Kept (fieldsOf l s e stack) (contents l s e stack).1 ↔
    Kept (message e.message.toList) (messagePart l s e stack) := by
  obtain ⟨ws, d, hparts, hws, hd⟩ := exists_parts l s e stack
  rw [hparts, fieldsOf_eq_texts]
  constructor
  · intro h
    have hlast := List.forall₂_drop ws.length h
    rw [List.drop_left, ← hws.length_eq, List.drop_left] at hlast
    exact (List.forall₂_cons.1 hlast).1
  · intro h
    exact List.rel_append hws (.cons h (.cons hd .nil))

/-- for every slack there is a ceiling that leaves it to the message -/
theorem exists_ceiling_slack (slack : Nat) :
    ∃ n, minRecordSize ≤ n ∧ (messageBudget { l with maxSize := n } s e stack).slack = slack := by
  have hne := fullText_plain_ne_nil (frontTexts l s e stack)
  have hleast := twenty_nine_le_frontTexts l s e stack
  have hcount : ((frontTexts l s e stack).map plain).length = 10 := rfl
  have hfields : fieldCount = 12 := rfl
  obtain ⟨n, hmin, hleft⟩ := exists_ceiling_left l s hne (by omega) (by omega) slack
  have hsame : frontTexts { l with maxSize := n } s e stack = frontTexts l s e stack := rfl
  refine ⟨n, hmin, ?_⟩
  rw [messageBudget, hsame]
  exact hleft

end

/-! ## Main result -/

/-- **Beginnings are kept.** Of the texts in front of the message, and of the JSON, a beginning is written under every
ceiling. Of the message it is, under every ceiling or under every one that is not refused, exactly when no character
of three octets or more has an escaped one behind it, and the message begins with a character of a single octet that
needs no escape, or no such character stands right behind an escaped one. -/
theorem beginnings_kept_iff (l : Layout) (s : Severity) (e : Event) (stack : List Frame) :
    (∃ ws m d, (contents l s e stack).1 = ws ++ [m, d] ∧
      List.Forall₂ (fun t w => w <+: octets (orDash t)) (frontTexts l s e stack) ws ∧
      d <+: octets (replace separator escapedSeparator (jsonText e.data))) ∧
    List.TFAE [
      Gapless e.message.toList,
      ∀ n, List.Forall₂ Kept (fieldsOf { l with maxSize := n } s e stack)
        (contents { l with maxSize := n } s e stack).1,
      ∀ n, minRecordSize ≤ n →
        List.Forall₂ Kept (fieldsOf { l with maxSize := n } s e stack)
          (contents { l with maxSize := n } s e stack).1] := by
  obtain ⟨ws, d, hparts, hws, hd⟩ := exists_parts l s e stack
  have hfront : List.Forall₂ (fun t w => w <+: octets (orDash t)) (frontTexts l s e stack) ws := by
    apply (List.forall₂_map_left_iff.1 hws).imp
    intro t w h
    rwa [Kept, fullText_plain] at h
  rw [Kept, fullText_data] at hd
  refine ⟨⟨ws, _, d, hparts, hfront, hd⟩, ?_⟩
  tfae_have 1 → 2 := by
    intro h n
    rw [all_kept_iff]
    exact Budget.message_kept h _
  tfae_have 2 → 3 := fun h n _ => h n
  tfae_have 3 → 1 := by
    intro h
    by_contra hgap
    obtain ⟨slack, hslack⟩ := Budget.exists_message_gap hgap
    obtain ⟨n, hmin, hleft⟩ := exists_ceiling_slack l s e stack slack
    exact hslack _ hleft ((all_kept_iff _ s e stack).1 (h n hmin))
  tfae_finish

/-- a character of three octets does not fit, and the line feed behind it does -/
theorem escape_behind_gap :
    let l : Layout := { hostname := "h", maxSize := 74 }
    let e : Event := { message := "a日\nb", timestamp := ⟨0, 0⟩, site := .absent }
    minRecordSize ≤ l.maxSize ∧ (contents l .info e []).1[10]? = some (octets "a\\n".toList) ∧
    ¬ List.Forall₂ Kept (fieldsOf l .info e []) (contents l .info e []).1 := by
  decide +kernel

end LogRelay.Record
