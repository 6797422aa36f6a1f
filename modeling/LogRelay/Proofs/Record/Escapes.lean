/-
The escapes of a message are never split.

Of a run a beginning is written, and an escape is written whole or not at all. So whatever is left of a message are the
characters of some of its own, in their order, each with its escape (`exists_sublist`). Reading it from the left, a
backslash that does not end an escape begins one, and its second character is there (`Unbroken`).
- `unbroken_escaped`: every text with its escapes is of this kind.
- `escapes_whole`: so is the message of every record, under every ceiling.
-/
import Mathlib.Tactic
import LogRelay.Proofs.Record.Beginnings

namespace LogRelay.Record

open Text

/-- whether a text ends in a backslash that begins an escape; a backslash that ends one begins none -/
def dangles (t : List Char) : Bool := t.foldl (fun begun c => !begun && c = '\\') false

/-- a text in which every escape is whole -/
structure Unbroken (t : List Char) : Prop where
  carriageReturn : '\r' ∉ t
  lineFeed : '\n' ∉ t
  /-- a backslash that does not end an escape begins one -/
  backslash : ∀ a b, t = a ++ '\\' :: b → dangles a = false → ∃ d ∈ ['\\', '|', 'r', 'n'], b.head? = some d
  /-- a bar ends an escape -/
  bar : ∀ a b, t = a ++ '|' :: b → dangles a = true
  whole : dangles t = false

theorem dangles_append {a : List Char} (h : dangles a = false) (b : List Char) : dangles (a ++ b) = dangles b := by
  unfold dangles at h ⊢
  rw [List.foldl_append, h]

namespace Unbroken

theorem nil : Unbroken [] where
  carriageReturn := List.not_mem_nil
  lineFeed := List.not_mem_nil
  backslash := by simp
  bar := by simp
  whole := rfl

theorem append {s t : List Char} (hs : Unbroken s) (ht : Unbroken t) : Unbroken (s ++ t) where
  carriageReturn := by simp [hs.carriageReturn, ht.carriageReturn]
  lineFeed := by simp [hs.lineFeed, ht.lineFeed]
  backslash := by
    intro a b hab hbegins
    rcases append_eq_append_cons hab with ⟨u, hsu, rfl⟩ | ⟨u, rfl, htu⟩
    · obtain ⟨d, hd, hu⟩ := hs.backslash a u hsu hbegins
      exact ⟨d, hd, by rw [List.head?_append, hu, Option.some_or]⟩
    · rw [dangles_append hs.whole] at hbegins
      exact ht.backslash u b htu hbegins
  bar := by
    intro a b hab
    rcases append_eq_append_cons hab with ⟨u, hsu, rfl⟩ | ⟨u, rfl, htu⟩
    · exact hs.bar a u hsu
    · rw [dangles_append hs.whole]
      exact ht.bar u b htu
  whole := by rw [dangles_append hs.whole, ht.whole]

theorem plain {c : Char} (hc : c ∉ ['\\', '|', '\r', '\n']) : Unbroken [c] := by
  simp only [List.mem_cons, List.not_mem_nil, or_false, not_or] at hc
  obtain ⟨hslash, hbar, hreturn, hfeed⟩ := hc
  -- no other character stands in it
  have honly : ∀ (x : Char) (a b : List Char), [c] = a ++ x :: b → c = x := by
    intro x a b hab
    have hx : x ∈ [c] := by simp [hab]
    exact (List.mem_singleton.1 hx).symm
  exact {
    carriageReturn := fun h => hreturn (List.mem_singleton.1 h).symm
    lineFeed := fun h => hfeed (List.mem_singleton.1 h).symm
    backslash := fun a b hab _ => absurd (honly _ a b hab) hslash
    bar := fun a b hab => absurd (honly _ a b hab) hbar
    whole := by simp [dangles, hslash] }

theorem escape {d : Char} (hd : d ∈ ['\\', '|', 'r', 'n']) : Unbroken ['\\', d] := by
  have hends : d ≠ '\r' ∧ d ≠ '\n' := by
    constructor <;> rintro rfl <;> revert hd <;> decide
  refine ⟨by simp [hends.1.symm], by simp [hends.2.symm], ?_, ?_, rfl⟩
  · intro a b hab hbegins
    match a, hab with
    | [], hab => exact ⟨d, hd, by rw [← (List.cons.inj hab).2]; rfl⟩
    | [x], hab =>
      -- a second backslash ends the escape
      obtain ⟨rfl, -⟩ := List.cons.inj hab
      cases hbegins
    | x :: y :: a, hab => simp at hab
  · intro a b hab
    match a, hab with
    | [], hab => simp at hab
    | [x], hab =>
      obtain ⟨rfl, -⟩ := List.cons.inj hab
      rfl
    | x :: y :: a, hab => simp at hab

end Unbroken

theorem unbroken_escaped (s : List Char) : Unbroken (escaped s) := by
  induction s with
  | nil => exact .nil
  | cons c s ih =>
    rw [escaped, List.flatMap_cons]
    apply Unbroken.append ?_ ih
    rcases escape?_cases c with ⟨hnone, hplain⟩ | ⟨d, hd, hsome⟩
    · rw [hnone]
      exact .plain hplain
    · rw [hsome]
      exact .escape hd

/-! ## What is left of a message -/

theorem escaped_cons (c : Char) (s : List Char) : escaped (c :: s) = (escape? c).getD [c] ++ escaped s := rfl

/-- whatever is left of a message are some of its characters, in their order, each with its escape -/
theorem exists_sublist {m t : List Char} (h : Leaves (messagePieces m) t) :
    ∃ kept, kept.Sublist m ∧ t = escaped kept := by
  obtain ⟨ts, hts, rfl⟩ := h
  induction m generalizing ts with
  | nil =>
    cases hts with
    | cons ht hnil =>
      cases hnil
      exact ⟨[], .slnil, by rw [List.prefix_nil.1 ht]; rfl⟩
  | cons c m ih =>
    cases hc : escape? c with
    | some w =>
      rw [messagePieces_escaped hc] at hts
      rcases hts with _ | ⟨hr, _ | ⟨hv, hts⟩⟩
      obtain ⟨kept, hkept, hrest⟩ := ih _ hts
      rw [List.flatten_cons, List.flatten_cons, hrest, List.prefix_nil.1 hr, List.nil_append]
      rcases hv with rfl | rfl
      · exact ⟨kept, hkept.cons c, rfl⟩
      · exact ⟨c :: kept, hkept.cons_cons c, by rw [escaped_cons, hc, Option.getD_some]⟩
    | none =>
      rw [messagePieces_plain hc] at hts
      rw [messagePieces_eq m] at ih
      rcases hts with _ | @⟨_, r, _, ts, hr, hts⟩
      rw [List.flatten_cons]
      cases r with
      | nil =>
        -- with its first character, nothing of the run is left
        obtain ⟨kept, hkept, hrest⟩ := ih ([] :: ts) (.cons List.nil_prefix hts)
        exact ⟨kept, hkept.cons c, hrest⟩
      | cons d r =>
        obtain ⟨rfl, hrun⟩ := List.cons_prefix_cons.1 hr
        obtain ⟨kept, hkept, hrest⟩ := ih (r :: ts) (.cons hrun hts)
        rw [List.flatten_cons] at hrest
        exact ⟨d :: kept, hkept.cons_cons d, by rw [escaped_cons, hc, Option.getD_none, List.cons_append, hrest]; rfl⟩

theorem Budget.message_escaped {m : List Char} (hm : m ≠ []) (b : Budget) :
    ∃ kept, kept.Sublist m ∧ (b.field (message m)).1.flatten = octets (escaped kept) := by
  obtain ⟨t, ht, hout⟩ := b.field_leaves (message m)
  rw [message_eq hm] at ht
  obtain ⟨kept, hkept, rfl⟩ := exists_sublist ht
  exact ⟨kept, hkept, hout⟩

/-! ## Main result -/

/-- **Escapes are never split.** Under every ceiling, what a record holds of a message are some of its characters, in
their order, each with its escape. So no line is broken in it; every backslash that does not end an escape begins one
that is there with both its characters, every bar ends one, and none is left without its end. -/
theorem escapes_whole (l : Layout) (s : Severity) (e : Event) (stack : List Frame) (hm : e.message ≠ "") :
    ∃ kept, kept.Sublist e.message.toList ∧ (contents l s e stack).1[10]? = some (octets (escaped kept)) ∧
      Unbroken (escaped kept) := by
  have hne : e.message.toList ≠ [] := by
    intro h
    exact hm (String.toList_eq_nil_iff.1 h)
  obtain ⟨kept, hkept, hpart⟩ := Budget.message_escaped hne (messageBudget l s e stack)
  obtain ⟨ws, d, hparts, hws, -⟩ := exists_parts l s e stack
  have hcount : ws.length = 10 := hws.length_eq.symm
  refine ⟨kept, hkept, ?_, unbroken_escaped kept⟩
  rw [hparts, List.getElem?_append_right hcount.le, hcount]
  exact congrArg some hpart

/-- of this message the first and the third character are left, and the escape of the third is whole -/
theorem escapes_whole_small :
    let l : Layout := { hostname := "h", maxSize := 74 }
    let e : Event := { message := "a日\nb", timestamp := ⟨0, 0⟩, site := .absent }
    e.message ≠ "" ∧ ∃ kept, kept.Sublist e.message.toList ∧
      (contents l .info e []).1[10]? = some (octets (escaped kept)) ∧ Unbroken (escaped kept) ∧
      octets (escaped kept) = octets ['a', '\\', 'n'] := by
  intro l e
  have hm : e.message ≠ "" := by decide
  obtain ⟨kept, hkept, hpart, hunbroken⟩ := escapes_whole l .info e [] hm
  have hleft : (contents l .info e []).1[10]? = some (octets ['a', '\\', 'n']) := by decide +kernel
  exact ⟨hm, kept, hkept, hpart, hunbroken, Option.some_inj.1 (hpart.symm.trans hleft)⟩

end LogRelay.Record
