/-
When no part of a record is empty.

Each field has an octet of its own, whatever the fields before it took. Under the least ceiling that octet is all a
field finds, behind a header or behind the time: its first character is written if it takes a single octet, and
neither an escape nor any other character is. A message that begins with what does not fit may still be left with a
later character.
- `Budget.ready_begun`, `Budget.message_ne_nil`: what is written whatever the budget.
- `least_parts`: what is left of the fields under the least ceiling.
- `no_empty_parts_iff`: the records of an event have no empty part, or the first character of every field, under every
  ceiling that is not refused, exactly when the texts begin with single octets.
- `empty_part`: a trace whose name begins with a character of two octets is left empty.
-/
import Mathlib.Tactic
import LogRelay.Proofs.Record.Beginnings

namespace LogRelay.Record

open Text

/-- the first character of a field is written -/
def Begun (f : Field) (w : Octets) : Prop := octets ((fullText f).take 1) <+: w

instance (f : Field) (w : Octets) : Decidable (Begun f w) := by
  unfold Begun
  infer_instance

/-- a text that begins with a character of a single octet, if with any -/
def Slender (t : List Char) : Prop := ∀ c ∈ t.head?, c.utf8Size = 1

/-- a field whose first run begins with a character of a single octet -/
def Ready (f : Field) : Prop := ∃ c s g, f = .run (c :: s) :: g ∧ c.utf8Size = 1

theorem ready_plain {t : List Char} (h : Slender t) : Ready (plain t) := by
  cases t with
  | nil => exact ⟨'-', [], [], rfl, rfl⟩
  | cons c t => exact ⟨c, t, [], rfl, h c rfl⟩

theorem ready_message {m : List Char} (h : ∀ c ∈ m.head?, Slim c) : Ready (message m) := by
  cases m with
  | nil => exact ⟨'-', [], [], rfl, rfl⟩
  | cons c m =>
    obtain ⟨hesc, hsize⟩ := h c rfl
    rw [message_eq (List.cons_ne_nil c m), messagePieces_plain hesc]
    exact ⟨c, _, _, rfl, hsize⟩

theorem ready_data (d : Option Payload) : Ready (data d) := by
  obtain ⟨t, g, hdata⟩ := exists_run_data d
  exact ⟨'{', t, g, hdata, rfl⟩

/-- what is written of a field is not empty when its first character is -/
theorem ne_nil_of_begun {f : Field} {w : Octets} (hf : fullText f ≠ []) (h : Begun f w) : w ≠ [] := by
  rintro rfl
  obtain ⟨c, t, ht⟩ := List.exists_cons_of_ne_nil hf
  have hlen := h.length_le
  have hpos := c.utf8Size_pos
  rw [ht, List.take_succ_cons, List.take_zero, length_octets_cons, List.length_nil] at hlen
  omega

namespace Budget

/-! ## Slack -/

theorem push_slack_le (b : Budget) (s : Octets) : (b.push s).2.slack ≤ b.slack := by
  unfold push
  simp only
  split
  · exact Nat.le_refl _
  · exact Nat.sub_le _ _

theorem piece_slack_le (b : Budget) (p : Piece) : (b.piece p).2.slack ≤ b.slack := by
  cases p with
  | run s => exact push_slack_le b (octets s)
  | whole s =>
    rw [piece, pushWhole]
    split
    · exact Nat.zero_le _
    · exact push_slack_le b (octets s)

theorem pieces_slack_le (b : Budget) (ps : List Piece) : (b.pieces ps).2.slack ≤ b.slack := by
  induction ps generalizing b with
  | nil => exact Nat.le_refl _
  | cons p ps ih => exact (ih (b.piece p).2).trans (piece_slack_le b p)

theorem field_slack_le (b : Budget) (f : Field) : (b.field f).2.slack ≤ b.slack :=
  pieces_slack_le { b with written := 0 } f

/-- where there is no slack, fields are left with one character each, or with none -/
theorem fields_alone {fs : List Field} (hfs : ∀ f ∈ fs, ∀ w, .whole w ∈ f → 1 < (octets w).length) {b : Budget}
    (hslack : b.slack = 0) :
    (b.fields fs).1.map List.flatten = fs.map fun f => octets (lone f).toList := by
  induction fs generalizing b with
  | nil => rfl
  | cons f fs ih =>
    obtain ⟨hf, hrest⟩ := List.forall_mem_cons.1 hfs
    have hhead : (b.field f).1.flatten = octets (lone f).toList :=
      pieces_alone (b := { b with written := 0 }) hf hslack rfl
    have hnone : (b.field f).2.slack = 0 := by
      have hle := field_slack_le b f
      omega
    simp only [fields, List.map_cons, hhead, ih hrest hnone]

/-! ## Single fields -/

theorem first_begun {c : Char} {b : Budget} (hroom : c.utf8Size ≤ b.slack + 1) (s : List Char) (g : Field) :
    Begun (.run (c :: s) :: g) (b.field (.run (c :: s) :: g)).1.flatten := by
  have hfull : (fullText (.run (c :: s) :: g)).take 1 = [c] := rfl
  have hfit : (octets [c]).length ≤ b.slack + 1 := by
    rwa [length_octets_cons, octets_nil, List.length_nil, Nat.add_zero]
  have hkept : octets [c] <+: ({ b with written := 0 }.push (octets (c :: s))).1 := by
    rw [push_fst, own_allowance]
    exact octets_prefix_cut (v := s) hfit
  rw [Begun, hfull, field, pieces, List.flatten_cons, piece]
  exact hkept.trans (List.prefix_append _ _)

theorem ready_begun {f : Field} (hf : Ready f) (b : Budget) : Begun f (b.field f).1.flatten := by
  obtain ⟨c, s, g, rfl, hsize⟩ := hf
  apply first_begun
  omega

/-- a field with an escape is not left empty when there is room for the escape -/
theorem pieces_ne_nil {f : Field} (hf : Woven f) {w : List Char} (hw : .whole w ∈ f) {b : Budget}
    (hroom : ∀ w, .whole w ∈ f → (octets w).length ≤ b.allowance) : (b.pieces f).1.flatten ≠ [] := by
  cases hf with
  | last s => simp at hw
  | @next s v f hv hf =>
    intro hnil
    simp only [pieces, piece, List.flatten_cons, List.append_eq_nil_iff] at hnil
    obtain ⟨hrun, hesc, -⟩ := hnil
    -- the run left the budget as it was, so that the escape is written
    obtain ⟨hslack, hwritten⟩ := push_idle hrun
    have hsame : (b.push (octets s)).2.allowance = b.allowance := by
      simp only [allowance, reserved, hslack, hwritten]
    have hfits : (octets v).length ≤ (b.push (octets s)).2.allowance := by
      rw [hsame]
      exact hroom v (by simp)
    rw [pushWhole_eq_push hfits, (push_fits hfits).1, ← List.length_eq_zero_iff] at hesc
    exact (octets_length_pos hv).ne' hesc

theorem message_ne_nil {m : List Char} (h : (∀ c ∈ m.head?, Slim c) ∨ Resumes m) (b : Budget) :
    (b.field (message m)).1.flatten ≠ [] := by
  rcases h with h | h
  · apply ne_nil_of_begun ?_ (ready_begun (ready_message h) b)
    rw [fullText_message]
    exact orDash_ne_nil _
  · obtain ⟨c, d, hpair, hesc, -⟩ := id h
    have hc : c ∈ m := hpair.subset (by simp)
    have hm : m ≠ [] := List.ne_nil_of_mem hc
    rcases Nat.eq_zero_or_pos b.slack with hslack | hslack
    · obtain ⟨a, ha⟩ := Option.isSome_iff_exists.1 (isSome_lone.2 (Or.inr h))
      rw [message_alone hm hslack, ha]
      exact List.ne_nil_of_length_pos (octets_length_pos (List.cons_ne_nil a []))
    · obtain ⟨w, hw⟩ := Option.ne_none_iff_exists'.1 hesc
      rw [message_eq hm]
      apply pieces_ne_nil (woven_messagePieces m) (whole_mem_messagePieces.2 ⟨c, hc, hw⟩)
      intro w hw
      rw [whole_size hw, own_allowance]
      omega

end Budget

/-! ## Fields without slack -/

theorem isSome_lone_plain {t : List Char} : (lone (plain t)).isSome ↔ Slender t := by
  cases t with
  | nil => exact iff_of_true rfl (by simp [Slender])
  | cons c t => simp [lone, heads, plain, Slender]

theorem isSome_lone_message {m : List Char} :
    (lone (message m)).isSome ↔ (∀ c ∈ m.head?, Slim c) ∨ Resumes m := by
  cases m with
  | nil => exact iff_of_true rfl (Or.inl (by simp))
  | cons c m =>
    rw [message_eq (List.cons_ne_nil c m), isSome_lone]
    simp

/-- when the first character of a message is what is left of it -/
theorem slim_of_begun {m : List Char} (h : Begun (message m) (octets (lone (message m)).toList)) :
    ∀ c ∈ m.head?, Slim c := by
  cases m with
  | nil => simp
  | cons c m =>
    have hm := List.cons_ne_nil c m
    obtain ⟨a, t, hfull⟩ : ∃ a t, escaped (c :: m) = a :: t := List.exists_cons_of_ne_nil (escaped_ne_nil hm)
    rw [Begun, message_eq hm, fullText_messagePieces, hfull, List.take_succ_cons, List.take_zero,
      octets_prefix_iff] at h
    obtain ⟨d, hd⟩ : ∃ d, lone (messagePieces (c :: m)) = some d := by
      cases hlone : lone (messagePieces (c :: m)) with
      | none =>
        rw [hlone] at h
        cases h.length_le
      | some d => exact ⟨d, rfl⟩
    rw [hd, Option.toList_some, List.cons_prefix_cons] at h
    have hslim := slim_of_lone hd
    have hhead : (c :: m).head? = some d := by
      apply head?_eq_of_escaped hslim.1
      rw [hfull, ← h.1]
      exact ⟨t, rfl⟩
    rw [hhead]
    rintro b ⟨rfl⟩
    exact hslim

/-! ## Records -/

section

variable (l : Layout) (s : Severity) (e : Event) (stack : List Frame)

/-- the texts that may find no slack: all that are given, but for the name of the host where nothing stands before it -/
def exposed : List (List Char) := (givenTexts l e stack).drop (if l.header then 0 else 1)

/-- the fields that find no slack under the least ceiling: all behind a header, or those behind the time -/
def cramped : List Field := (fieldsOf l s e stack).drop (if l.header then 0 else 2)

theorem cramped_eq : cramped l s e stack =
    ((frontTexts l s e stack).drop (if l.header then 0 else 2)).map plain
      ++ [message e.message.toList, data e.data] := by
  rw [cramped, fieldsOf_eq_texts]
  cases l.header <;> rfl

/-- no escape takes a single octet -/
theorem one_lt_whole {f : Field} (hf : f ∈ fieldsOf l s e stack) {w : List Char} (hw : .whole w ∈ f) :
    1 < (octets w).length := by
  rw [fieldsOf_eq_texts, List.mem_append, List.mem_map, List.mem_pair] at hf
  rcases hf with ⟨t, -, rfl⟩ | rfl | rfl
  · simp [plain] at hw
  · cases hm : e.message.toList with
    | nil => simp [hm, message, plain] at hw
    | cons c m =>
      rw [hm, message_eq (List.cons_ne_nil c m)] at hw
      rw [whole_size hw]
      exact Nat.lt_succ_self 1
  · rw [data_eq] at hw
    rw [eq_escapedSeparator_of_whole hw]
    decide

/-- under the least ceiling there is no slack behind a header, nor behind the time -/
theorem least_parts : (contents { l with maxSize := minRecordSize } s e stack).1.drop (if l.header then 0 else 2) =
    (cramped l s e stack).map fun f => octets (lone f).toList := by
  have hleast : minRecordSize = 56 := rfl
  have hslack : (budget { l with maxSize := minRecordSize } s).slack + 50 + (if l.header then 6 else 0) =
      minRecordSize := slack_eq { l with maxSize := minRecordSize } s (Nat.le_refl _)
  have hwhole := fun f hf w => one_lt_whole l s e stack (f := f) hf (w := w)
  have hsame : fieldsOf { l with maxSize := minRecordSize } s e stack = fieldsOf l s e stack := rfl
  rw [contents_fst, hsame, cramped]
  generalize budget { l with maxSize := minRecordSize } s = b at hslack
  cases hheader : l.header with
  | true =>
    rw [hheader, if_pos rfl] at hslack
    rw [if_pos rfl, List.drop_zero, List.drop_zero]
    exact Budget.fields_alone hwhole (by omega)
  | false =>
    rw [hheader, if_neg Bool.false_ne_true] at hslack
    rw [if_neg Bool.false_ne_true]
    obtain ⟨rest, hrest⟩ : ∃ rest, fieldsOf l s e stack =
        plain l.hostname.toList :: plain e.timestamp.text :: rest := ⟨_, rfl⟩
    have hlong := e.timestamp.twenty_le_text
    have hne : e.timestamp.text ≠ [] := List.ne_nil_of_length_pos (by omega)
    have htime : plain e.timestamp.text = [.run e.timestamp.text] := by
      rw [plain, if_neg (by rwa [List.isEmpty_iff])]
    have hfirst := b.field_slack_le (plain l.hostname.toList)
    -- the time takes all the slack there can be
    have hspent : ((b.field (plain l.hostname.toList)).2.field (plain e.timestamp.text)).2.slack = 0 := by
      have hoctets := length_le_octets e.timestamp.text
      rw [htime, (Budget.field_share hne (low_of_figures e.timestamp.isFigure_text) _).2]
      omega
    rw [hrest] at hwhole ⊢
    simp only [Budget.fields, List.map_cons, List.drop_succ_cons, List.drop_zero]
    apply Budget.fields_alone ?_ hspent
    intro f hf
    exact hwhole f (List.mem_cons_of_mem _ (List.mem_cons_of_mem _ hf))

/-- a property of all records from one of their fields, whatever budget these find -/
theorem contents_forall₂ {R : Field → Octets → Prop}
    (hhost : R (plain l.hostname.toList) ((budget l s).field (plain l.hostname.toList)).1.flatten)
    (hrest : ∀ f ∈ (fieldsOf l s e stack).tail, ∀ b : Budget, R f (b.field f).1.flatten) :
    List.Forall₂ R (fieldsOf l s e stack) (contents l s e stack).1 := by
  obtain ⟨rest, hfields⟩ : ∃ rest, fieldsOf l s e stack = plain l.hostname.toList :: rest := ⟨_, rfl⟩
  rw [hfields, List.tail_cons] at hrest
  rw [contents_fst, hfields, List.forall₂_map_right_iff]
  apply List.Forall₂.cons (R := fun (f : Field) (ws : List Octets) => R f ws.flatten) hhost
  apply Budget.fields_forall₂ (P := fun _ => True) (fun _ _ _ => trivial) ?_ trivial
  intro f hf b _
  exact hrest f hf b

/-- the name of the host finds slack where nothing stands before it -/
theorem host_begun (hmin : minRecordSize ≤ l.maxSize) (hhost : l.header = true → Slender l.hostname.toList) :
    Begun (plain l.hostname.toList) ((budget l s).field (plain l.hostname.toList)).1.flatten := by
  cases hheader : l.header with
  | true => exact Budget.ready_begun (ready_plain (hhost hheader)) _
  | false =>
    have hslack := slack_eq l s hmin
    have hleast : minRecordSize = 56 := rfl
    rw [hheader, if_neg Bool.false_ne_true] at hslack
    have hfirst : ∃ c t, plain l.hostname.toList = [.run (c :: t)] := by
      cases l.hostname.toList with
      | nil => exact ⟨'-', [], rfl⟩
      | cons c t => exact ⟨c, t, rfl⟩
    obtain ⟨c, t, hplain⟩ := hfirst
    have hsize := c.utf8Size_le_four
    rw [hplain]
    apply Budget.first_begun
    omega

theorem slender_of_figures {t : List Char} (h : t.all isFigure = true) : Slender t := by
  intro c hc
  exact utf8Size_of_isFigure (List.all_eq_true.1 h c (List.mem_of_mem_head? hc))

theorem mem_tail_frontTexts {t : List Char} : t ∈ (frontTexts l s e stack).tail ↔
    t ∈ (givenTexts l e stack).tail ∨ t = e.timestamp.text ∨ t = s.name.toList := by
  simp only [frontTexts, givenTexts, List.tail_cons, List.mem_cons, List.not_mem_nil]
  grind

/-- behind the name of the host, what is made here begins with a single octet, and so does the JSON -/
theorem ready_or_message (hgiven : ∀ t ∈ (givenTexts l e stack).tail, Slender t) {f : Field}
    (hf : f ∈ (fieldsOf l s e stack).tail) : Ready f ∨ f = message e.message.toList := by
  have htail : (fieldsOf l s e stack).tail =
      (frontTexts l s e stack).tail.map plain ++ [message e.message.toList, data e.data] := by
    rw [fieldsOf_eq_texts]
    rfl
  rw [htail, List.mem_append, List.mem_map, List.mem_pair] at hf
  rcases hf with ⟨t, ht, rfl⟩ | rfl | rfl
  · left
    apply ready_plain
    rcases (mem_tail_frontTexts l s e stack).1 ht with hmem | rfl | rfl
    · exact hgiven t hmem
    · exact slender_of_figures e.timestamp.isFigure_text
    · exact slender_of_figures s.isFigure_name
  · exact Or.inr rfl
  · exact Or.inl (ready_data e.data)

/-- the exposed texts find no slack under the least ceiling -/
theorem plain_mem_cramped {t : List Char} (ht : t ∈ exposed l e stack) : plain t ∈ cramped l s e stack := by
  rw [cramped_eq]
  apply List.mem_append_left
  apply List.mem_map_of_mem
  rw [exposed] at ht
  cases hheader : l.header with
  | true =>
    rw [hheader, if_pos rfl, List.drop_zero] at ht
    exact mem_frontTexts.2 (Or.inl ht)
  | false =>
    rw [hheader, if_neg Bool.false_ne_true] at ht
    simp only [frontTexts, givenTexts, Bool.false_eq_true, if_false, List.drop_succ_cons, List.drop_zero,
      List.mem_cons, List.not_mem_nil] at ht ⊢
    grind

theorem slender_given (h : ∀ t ∈ exposed l e stack, Slender t) :
    (l.header = true → Slender l.hostname.toList) ∧ ∀ t ∈ (givenTexts l e stack).tail, Slender t := by
  unfold exposed at h
  cases hheader : l.header with
  | true =>
    rw [hheader, if_pos rfl, List.drop_zero] at h
    refine ⟨fun _ => h _ List.mem_cons_self, ?_⟩
    intro t ht
    exact h t (List.mem_of_mem_tail ht)
  | false =>
    rw [hheader, if_neg Bool.false_ne_true, List.drop_one] at h
    exact ⟨fun h => (Bool.false_ne_true h).elim, h⟩

/-- what must hold of the texts for every field without slack to be left with a character -/
theorem slender_of_lone (h : ∀ f ∈ cramped l s e stack, octets (lone f).toList ≠ []) :
    (∀ t ∈ exposed l e stack, Slender t) ∧
      ((∀ c ∈ e.message.toList.head?, Slim c) ∨ Resumes e.message.toList) := by
  have hsome : ∀ f ∈ cramped l s e stack, (lone f).isSome := by
    intro f hf
    rw [Option.isSome_iff_ne_none]
    intro hnone
    apply h f hf
    rw [hnone]
    rfl
  constructor
  · intro t ht
    exact isSome_lone_plain.1 (hsome _ (plain_mem_cramped l s e stack ht))
  · apply isSome_lone_message.1
    apply hsome
    simp [cramped_eq]

end

/-! ## Main result -/

/-- **No empty parts.** Under every ceiling that is not refused the parts of the records of an event hold an octet at
least, exactly when the texts that may find no slack begin with characters of a single octet, and the message begins
with one that needs no escape or has one right behind an escaped character. They hold the first characters of their
fields exactly when the texts are so and the message begins with such a character. An empty text, or an empty message,
does no harm. -/
theorem no_empty_parts_iff (l : Layout) (s : Severity) (e : Event) (stack : List Frame) :
    ((∀ n, minRecordSize ≤ n → ∀ w ∈ (contents { l with maxSize := n } s e stack).1, w ≠ []) ↔
      (∀ t ∈ exposed l e stack, Slender t) ∧
        ((∀ c ∈ e.message.toList.head?, Slim c) ∨ Resumes e.message.toList)) ∧
    ((∀ n, minRecordSize ≤ n →
        List.Forall₂ Begun (fieldsOf { l with maxSize := n } s e stack)
          (contents { l with maxSize := n } s e stack).1) ↔
      (∀ t ∈ exposed l e stack, Slender t) ∧ ∀ c ∈ e.message.toList.head?, Slim c) := by
  have hleast := least_parts l s e stack
  refine ⟨⟨?_, ?_⟩, ⟨?_, ?_⟩⟩
  · intro h
    apply slender_of_lone l s e stack
    intro f hf
    apply h minRecordSize (Nat.le_refl _)
    apply List.mem_of_mem_drop
    rw [hleast]
    exact List.mem_map_of_mem hf
  · rintro ⟨htexts, hmessage⟩ n hmin w hw
    obtain ⟨hhost, hgiven⟩ := slender_given l e stack htexts
    have hall : List.Forall₂ (fun _ w => w ≠ []) (fieldsOf { l with maxSize := n } s e stack)
        (contents { l with maxSize := n } s e stack).1 := by
      apply contents_forall₂
      · apply ne_nil_of_begun (f := plain l.hostname.toList)
        · rw [fullText_plain]
          exact orDash_ne_nil _
        · exact host_begun { l with maxSize := n } s hmin hhost
      · intro f hf b
        rcases ready_or_message l s e stack hgiven hf with hready | rfl
        · exact ne_nil_of_begun (fullText_ne_nil (List.mem_of_mem_tail hf)) (Budget.ready_begun hready b)
        · exact Budget.message_ne_nil hmessage b
    obtain ⟨f, -, hne⟩ := exists_field hall hw
    exact hne
  · intro h
    have hbegun := List.forall₂_drop (if l.header then 0 else 2) (h minRecordSize (Nat.le_refl _))
    rw [hleast, List.forall₂_map_right_iff] at hbegun
    have hfields : ∀ f ∈ cramped l s e stack, Begun f (octets (lone f).toList) := List.forall₂_same.1 hbegun
    constructor
    · apply And.left
      apply slender_of_lone l s e stack
      intro f hf
      exact ne_nil_of_begun (fullText_ne_nil (List.mem_of_mem_drop hf)) (hfields f hf)
    · apply slim_of_begun
      apply hfields
      simp [cramped_eq]
  · rintro ⟨htexts, hmessage⟩ n hmin
    obtain ⟨hhost, hgiven⟩ := slender_given l e stack htexts
    apply contents_forall₂
    · exact host_begun { l with maxSize := n } s hmin hhost
    · intro f hf b
      rcases ready_or_message l s e stack hgiven hf with hready | rfl
      · exact Budget.ready_begun hready b
      · exact Budget.ready_begun (ready_message hmessage) b

/-- a trace whose name begins with a character of two octets, under the least ceiling -/
theorem empty_part :
    let l : Layout := { hostname := "h", maxSize := minRecordSize }
    let e : Event := { message := "m", timestamp := ⟨0, 0⟩, span := { traceId := "é" }, site := .absent }
    (contents l .info e []).1[2]? = some [] ∧
      ¬ List.Forall₂ Begun (fieldsOf l .info e []) (contents l .info e []).1 := by
  decide +kernel

end LogRelay.Record
