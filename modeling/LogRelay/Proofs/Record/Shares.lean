/-
How a ceiling is shared out among the fields of a record.

Where every character takes a single octet and nothing is escaped, a field is one run that can be cut anywhere. Each
field has an octet of its own and takes of the slack what it needs, in the order of the fields (`shares`), so that
what the first fields take is missing in the last ones.
- `sum_shares`: together the fields get all they need, or all there is.
- `Budget.fields_shares`: what is left of the fields are their shares.
- `greedy_shares`: so it is in every record of this kind, and one that had to be cut is as long as its ceiling.
-/
import Mathlib.Tactic
import LogRelay.Proofs.Record.Beginnings

namespace LogRelay.Record

open Text

/-- the octets that fields of the lengths `ns` get when they share `slack` in their order, each with one of its own -/
def shares : Nat → List Nat → List Nat
  | _, [] => []
  | slack, n :: ns => min n (1 + slack) :: shares (slack - (min n (1 + slack) - 1)) ns

/-- together they get all they need, or all there is -/
theorem sum_shares (slack : Nat) {ns : List Nat} (h : ∀ n ∈ ns, 0 < n) :
    (shares slack ns).sum = min ns.sum (slack + ns.length) := by
  induction ns generalizing slack with
  | nil => simp [shares]
  | cons n ns ih =>
    obtain ⟨hn, hns⟩ := List.forall_mem_cons.1 h
    have hleast : ns.length ≤ ns.sum := List.length_le_sum_of_one_le ns hns
    rw [shares, List.sum_cons, ih _ hns, List.sum_cons, List.length_cons]
    omega

/-- what is left of the contents, cut to their shares -/
theorem length_flatten_shares (slack : Nat) (cs : List Octets) :
    (List.zipWith List.take (shares slack (cs.map List.length)) cs).flatten.length =
      (shares slack (cs.map List.length)).sum := by
  induction cs generalizing slack with
  | nil => rfl
  | cons c cs ih =>
    rw [List.map_cons, shares, List.zipWith_cons_cons, List.flatten_cons, List.length_append, ih, List.sum_cons,
      List.length_take]
    omega

namespace Budget

theorem fields_shares {ts : List (List Char)} (hne : ∀ t ∈ ts, t ≠ []) (h : ∀ t ∈ ts, ∀ c ∈ t, c.toNat < 128)
    (b : Budget) :
    (b.fields (ts.map fun t => [.run t])).1.map List.flatten =
      List.zipWith List.take (shares b.slack ((ts.map octets).map List.length)) (ts.map octets) := by
  induction ts generalizing b with
  | nil => rfl
  | cons t ts ih =>
    rw [List.forall_mem_cons] at hne h
    obtain ⟨hout, hslack⟩ := field_share hne.1 h.1 b
    simp only [List.map_cons, fields, shares, List.zipWith_cons_cons]
    rw [hout, ih hne.2 h.2, hslack]

end Budget

/-! ## Records -/

/-- nothing in a record takes more than a single octet, and nothing is escaped -/
structure Straight (l : Layout) (e : Event) (stack : List Frame) : Prop where
  given : ∀ t ∈ givenTexts l e stack, ∀ c ∈ t, c.toNat < 128
  message : ∀ c ∈ e.message.toList, c.toNat < 128
  json : ∀ c ∈ jsonText e.data, c.toNat < 128
  noEscape : ∀ c ∈ e.message.toList, c ∉ ['\\', '|', '\r', '\n']
  noSeparator : ¬ separator <:+: jsonText e.data

theorem messagePieces_of_no_escape {m : List Char} (h : ∀ c ∈ m, c ∉ ['\\', '|', '\r', '\n']) :
    messagePieces m = [.run m] := by
  induction m with
  | nil => rfl
  | cons c m ih =>
    obtain ⟨hc, hm⟩ := List.forall_mem_cons.1 h
    have hcons : messagePieces (c :: m) = cons c (messagePieces m) := rfl
    simp only [hcons, ih hm, cons, escape?_eq_none hc]

theorem message_of_no_escape {m : List Char} (h : ∀ c ∈ m, c ∉ ['\\', '|', '\r', '\n']) : message m = plain m := by
  by_cases hm : m = []
  · rw [hm]
    rfl
  · rw [message_eq hm, messagePieces_of_no_escape h, plain, if_neg (by rwa [List.isEmpty_iff])]

theorem jsonPieces_of_no_separator {s : List Char} (h : ¬ separator <:+: s) (acc : List Char) :
    jsonPieces acc s = [.run (acc.reverse ++ s)] := by
  fun_induction jsonPieces acc s with
  | case1 acc => simp
  | case2 acc r ih => exact absurd ⟨[], r, rfl⟩ h
  | case3 acc c r _ ih =>
    rw [ih fun hin => h (hin.trans (List.suffix_cons c r).isInfix), List.reverse_cons, List.append_assoc]
    rfl

section

variable (l : Layout) (s : Severity) (e : Event) (stack : List Frame)

/-- what the fields of a record hold where nothing is escaped -/
def straightTexts : List (List Char) :=
  (frontTexts l s e stack).map orDash ++ [orDash e.message.toList, jsonText e.data]

theorem fieldsOf_of_straight (h : Straight l e stack) :
    fieldsOf l s e stack = (straightTexts l s e stack).map fun t => [.run t] := by
  have hplain : ∀ t, plain t = [.run (orDash t)] := fun _ => rfl
  have hdata : data e.data = [.run (jsonText e.data)] := by
    rw [data_eq, jsonPieces_of_no_separator h.noSeparator]
    rfl
  rw [fieldsOf_eq_texts, message_of_no_escape h.noEscape, hdata, straightTexts]
  simp [hplain]

theorem straightTexts_ne_nil : ∀ t ∈ straightTexts l s e stack, t ≠ [] := by
  simp only [straightTexts, List.mem_append, List.mem_map, List.mem_pair]
  rintro t (⟨t, -, rfl⟩ | rfl | rfl)
  · exact orDash_ne_nil t
  · exact orDash_ne_nil _
  · obtain ⟨r, hr⟩ := jsonText_eq_cons e.data
    rw [hr]
    exact List.cons_ne_nil _ _

theorem low_straightTexts (h : Straight l e stack) : ∀ t ∈ straightTexts l s e stack, ∀ c ∈ t, c.toNat < 128 := by
  have hdash : ∀ t : List Char, (∀ c ∈ t, c.toNat < 128) → ∀ c ∈ orDash t, c.toNat < 128 := by
    intro t ht
    unfold orDash
    split
    · simp [dash]
    · exact ht
  simp only [straightTexts, List.mem_append, List.mem_map, List.mem_pair, mem_frontTexts]
  rintro t (⟨t, ht | rfl | rfl, rfl⟩ | rfl | rfl)
  · exact hdash t (h.given t ht)
  · exact hdash _ (low_of_figures e.timestamp.isFigure_text)
  · exact hdash _ (low_of_figures s.isFigure_name)
  · exact hdash _ h.message
  · exact h.json

/-- a complete record is its header, its texts and its frame -/
theorem complete_length_of_straight (h : Straight l e stack) : (complete l s e stack).length =
    (if l.header then 6 else 0) + (((straightTexts l s e stack).map octets).map List.length).sum + frameSize := by
  have hfull : (fieldsOf l s e stack).flatMap fullText = (straightTexts l s e stack).flatten := by
    have hrun : ∀ t : List Char, fullText [.run t] = t := fun t => List.append_nil t
    rw [fieldsOf_of_straight l s e stack h, List.flatMap_map, List.flatMap_def]
    simp [hrun]
  rw [complete_length, hfull, ← flatten_map_octets, List.length_flatten]

/-- a record that ends as one that was cut did not fit -/
theorem lt_complete_of_ends (hmin : minRecordSize ≤ l.maxSize) (h : octets (terminator true) <:+ render l s e stack) :
    l.maxSize < (complete l s e stack).length := by
  by_contra hfit
  have hends : octets (separator ++ terminator false) <:+ complete l s e stack := by
    apply ends_marked
    simp [fieldsOf_eq]
  rw [render_eq_complete_of_fits l s e stack hmin (Nat.le_of_not_lt hfit)] at h
  have hsame := List.suffix_of_suffix_length_le h hends (by decide)
  revert hsame
  decide

end

/-! ## Main result -/

/-- **Greedy shares.** Under a ceiling that is not refused, where every character takes a single octet and nothing is
escaped: the fields of a record are the beginnings of their texts that their shares allow, when they share what the
ceiling leaves after frame, header and an octet for each. So no octet is wasted: a record that was cut is as long as
its ceiling. -/
theorem greedy_shares (l : Layout) (s : Severity) (e : Event) (stack : List Frame) (hmin : minRecordSize ≤ l.maxSize)
    (h : Straight l e stack) :
    let cs := (straightTexts l s e stack).map octets
    (contents l s e stack).1 =
      List.zipWith List.take (shares (l.maxSize - 38 - (if l.header then 6 else 0) - 12) (cs.map List.length)) cs ∧
    (octets (terminator true) <:+ render l s e stack → (render l s e stack).length = l.maxSize) := by
  intro cs
  have hslack := slack_eq l s hmin
  have hne := straightTexts_ne_nil l s e stack
  have hcontents : (contents l s e stack).1 =
      List.zipWith List.take (shares (budget l s).slack (cs.map List.length)) cs := by
    rw [contents_fst, fieldsOf_of_straight l s e stack h]
    exact Budget.fields_shares hne (low_straightTexts l s e stack h) (budget l s)
  constructor
  · have hleft : l.maxSize - 38 - (if l.header then 6 else 0) - 12 = (budget l s).slack := by omega
    rw [hleft]
    exact hcontents
  · intro hcut
    have hlong := lt_complete_of_ends l s e stack hmin hcut
    have hpos : ∀ n ∈ cs.map List.length, 0 < n := by
      simp only [cs, List.map_map, List.mem_map]
      rintro n ⟨t, ht, rfl⟩
      exact octets_length_pos (hne t ht)
    have hcount : (cs.map List.length).length = 12 := by simp [cs, straightTexts, frontTexts]
    have hframe : frameSize = 38 := rfl
    have htotal : (complete l s e stack).length = (if l.header then 6 else 0) + (cs.map List.length).sum + frameSize :=
      complete_length_of_straight l s e stack h
    -- the texts need more than there is, so that their shares are all there is
    rw [render_length, hcontents, length_flatten_shares, sum_shares _ hpos, hcount, hframe]
    omega

/-- a message that does not fit: the JSON is left with its own octet -/
theorem greedy_shares_small :
    let l : Layout := { hostname := "relay", maxSize := 80 }
    let e : Event := { message := "disk full", timestamp := ⟨0, 0⟩, site := .absent }
    minRecordSize ≤ l.maxSize ∧ Straight l e [] ∧ octets (terminator true) <:+ render l .error e [] ∧
    (contents l .error e []).1.drop 10 = [octets "disk".toList, octets "\x7b".toList] ∧
    (render l .error e []).length = 80 := by
  intro l e
  have hmin : minRecordSize ≤ l.maxSize := by decide
  have hstraight : Straight l e [] := {
    given := by simp [givenTexts, callSite, Site.resolve, l, e]
    message := by simp [e]
    json := by simp [jsonText, e]
    noEscape := by simp [e]
    noSeparator := by decide }
  have hcut : octets (terminator true) <:+ render l .error e [] := by decide +kernel
  obtain ⟨hcontents, hlength⟩ := greedy_shares l .error e [] hmin hstraight
  refine ⟨hmin, hstraight, hcut, ?_, hlength hcut⟩
  rw [hcontents]
  decide +kernel

end LogRelay.Record
