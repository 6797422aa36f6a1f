/-
Gaps: whether what is written of a field is a beginning of it.

A character that does not fit is left out together with all that follows it in its run, but what it leaves over may
still be enough for the escape behind the run, or, where nothing is written yet, for the first character of a later
run. Both depend on the widths of characters alone.
- `Budget.field_share`: a text of single octets loses nothing to a gap and gets all that there is for it.
- `Budget.pieces_kept`, `Budget.exists_gap`: a field keeps a beginning wherever it is cut, if no character of a run
  takes more octets than the escape behind it; if one does, some budget leaves a gap there.
- `Budget.pieces_alone`: with no slack a field is left with one character at most, of a single octet, that begins a run.
- `tight_messagePieces`, `mem_heads_messagePieces`: what both say of a message.
-/
import Mathlib.Tactic
import LogRelay.Proofs.Record.Parts

namespace LogRelay.Record

open Text

/-- what is written of a field is a beginning of it -/
def Kept (f : Field) (w : Octets) : Prop := w <+: octets (fullText f)

instance (f : Field) (w : Octets) : Decidable (Kept f w) := by
  unfold Kept
  infer_instance

/-! ## Runs and escapes -/

/-- runs with an escape between each two -/
inductive Woven : Field → Prop
  | last (s : List Char) : Woven [.run s]
  | next (s : List Char) {w : List Char} {f : Field} (hw : w ≠ []) (hf : Woven f) : Woven (.run s :: .whole w :: f)

/-- no character of a run takes more octets than the escape behind the run -/
def Tight : Field → Prop
  | .run s :: .whole w :: f => (∀ c ∈ s, c.utf8Size ≤ (octets w).length) ∧ Tight f
  | _ => True

/-- the octets of what a field with an escape begins with: a character, or the escape -/
def opening : Field → Nat
  | .run s :: .whole w :: _ => s.head?.elim (octets w).length Char.utf8Size
  | _ => 0

theorem tight_next {s w : List Char} {f : Field} :
    Tight (.run s :: .whole w :: f) ↔ (∀ c ∈ s, c.utf8Size ≤ (octets w).length) ∧ Tight f := Iff.rfl

theorem opening_cons_le (c : Char) (s : List Char) (f : Field) : opening (.run (c :: s) :: f) ≤ c.utf8Size := by
  unfold opening
  split
  · next h =>
    cases h
    exact Nat.le_refl _
  · exact Nat.zero_le _

theorem octets_length_pos {t : List Char} (h : t ≠ []) : 0 < (octets t).length :=
  Nat.lt_of_lt_of_le (List.length_pos_iff.2 h) (length_le_octets t)

theorem kept_run (s : List Char) (n : Nat) : Kept [.run s] (cut (octets s) n) := by
  have hfull : fullText [.run s] = s := List.append_nil s
  rw [Kept, hfull]
  exact List.take_prefix _ _

/-- behind a run and an escape that are written, a field keeps a beginning if what comes then does -/
theorem kept_next {s w : List Char} {f : Field} {r : Octets} :
    Kept (.run s :: .whole w :: f) (octets (s ++ w) ++ r) ↔ Kept f r := by
  have hfull : fullText (.run s :: .whole w :: f) = (s ++ w) ++ fullText f := by
    rw [List.append_assoc]
    rfl
  rw [Kept, hfull, octets_append _ (fullText f), List.prefix_append_right_inj]
  rfl

namespace Budget

/-- a field begins with the slack and the octet of its own -/
theorem own_allowance (b : Budget) : ({ b with written := 0 } : Budget).allowance = b.slack + 1 := rfl

/-- a text of single octets gets its own octet and what it needs of the slack -/
theorem field_share {t : List Char} (hne : t ≠ []) (h : ∀ c ∈ t, c.toNat < 128) (b : Budget) :
    let share := min (octets t).length (1 + b.slack)
    (b.field [.run t]).1.flatten = (octets t).take share ∧ (b.field [.run t]).2.slack = b.slack - (share - 1) := by
  intro share
  have hout : ({ b with written := 0 }.push (octets t)).1 = (octets t).take share := by
    rw [push_fst, own_allowance, cut_eq_take h, Nat.add_comm, List.take_eq_take_min, Nat.min_comm]
  have hpos : 0 < (octets t).length := octets_length_pos hne
  have hlength : ((octets t).take share).length = share := List.length_take_of_le (Nat.min_le_left _ _)
  have hspent := push_spends { b with written := 0 } (octets t)
  have hwritten := push_written { b with written := 0 } (octets t)
  rw [hout, hlength] at hspent hwritten
  constructor
  · simp [field, pieces, piece, hout]
  · have hslack : (b.field [.run t]).2.slack = ({ b with written := 0 }.push (octets t)).2.slack := rfl
    rw [own_allowance, allowance, reserved, if_neg (by omega)] at hspent
    omega

/-- a run and the escape behind it, when there is room for both -/
theorem pieces_next {b : Budget} {s w : List Char} (hroom : (octets (s ++ w)).length ≤ b.allowance) (f : Field) :
    ∃ b' : Budget, (b.pieces (.run s :: .whole w :: f)).1.flatten = octets (s ++ w) ++ (b'.pieces f).1.flatten ∧
      (octets (s ++ w)).length + b'.allowance = b.allowance ∧ b'.written = b.written + (octets (s ++ w)).length := by
  have htwo : fullText [.run s, .whole w] = s ++ w := by simp [fullText, Piece.chars]
  have hfits : (octets (fullText [.run s, .whole w])).length ≤ b.allowance := htwo ▸ hroom
  obtain ⟨hout, hspent, -⟩ := pieces_fit hfits
  have hwritten := pieces_written b [.run s, .whole w]
  rw [hout] at hwritten
  rw [htwo] at hout hspent hwritten
  refine ⟨(b.pieces [.run s, .whole w]).2, ?_, hspent, hwritten⟩
  have happ := pieces_append b [.run s, .whole w] f
  rw [List.cons_append, List.cons_append, List.nil_append] at happ
  rw [happ, List.flatten_append, hout]

/-- where something was written, an escape that does not fit is the end of the field -/
theorem pieces_stop {b : Budget} {w : List Char} (hshort : b.allowance < (octets w).length) (hb : b.written ≠ 0)
    (f : Field) : (b.pieces (.whole w :: f)).1.flatten = [] := by
  have hspent := pieces_spends { b with slack := 0, truncated := true } f
  have hnone : ({ b with slack := 0, truncated := true } : Budget).allowance = 0 := by
    simp [allowance, reserved, hb]
  rw [hnone, Nat.le_zero, Nat.add_eq_zero_iff, List.length_eq_zero_iff] at hspent
  simp only [pieces, piece, pushWhole, if_pos hshort, List.flatten_cons, List.nil_append]
  exact hspent.1

/-- **A field keeps a beginning** when no character of a run takes more octets than the escape behind it: what a
character that does not fit leaves over is too little for the escape. -/
theorem pieces_kept {f : Field} (hf : Woven f) (htight : Tight f) {b : Budget}
    (hb : b.written ≠ 0 ∨ opening f ≤ b.allowance) : Kept f (b.pieces f).1.flatten := by
  induction hf generalizing b with
  | last s =>
    have hout : (b.pieces [.run s]).1.flatten = cut (octets s) b.allowance := by
      simp [pieces, piece, push_fst]
    rw [hout]
    exact kept_run s b.allowance
  | @next s w f hw hf ih =>
    obtain ⟨hsize, hrest⟩ := htight
    by_cases hroom : (octets (s ++ w)).length ≤ b.allowance
    · obtain ⟨b', hout, -, hwritten⟩ := pieces_next hroom f
      have hpos : 0 < (octets (s ++ w)).length := octets_length_pos (by simp [hw])
      rw [hout, kept_next]
      exact ih hrest (Or.inl (by omega))
    · -- one of the two does not fit, and nothing is written behind it
      obtain ⟨u, v, rfl, hcut, hfit, hover⟩ := exists_cut s b.allowance
      have hspent := push_spends b (octets (u ++ v))
      have hwritten := push_written b (octets (u ++ v))
      rw [push_fst, hcut] at hspent hwritten
      rw [octets_append, List.length_append, octets_append, List.length_append] at hroom
      have hshort : (b.push (octets (u ++ v))).2.allowance < (octets w).length := by
        cases v with
        | nil =>
          rw [octets_nil, List.length_nil] at hroom
          omega
        | cons c v =>
          have hc := hover c rfl
          have hle := hsize c (by simp)
          omega
      have hsome : (b.push (octets (u ++ v))).2.written ≠ 0 := by
        rcases hb with hb | hb
        · omega
        · cases u with
          | nil =>
            cases v with
            | nil => exact absurd hb (by simpa [opening] using hroom)
            | cons c v => exact absurd hb (by simpa [opening] using hover c rfl)
          | cons c u =>
            have hpos : 0 < (octets (c :: u)).length := octets_length_pos (List.cons_ne_nil c u)
            omega
      have hout : (b.pieces (.run (u ++ v) :: .whole w :: f)).1.flatten = cut (octets (u ++ v)) b.allowance := by
        have hstop := pieces_stop hshort hsome f
        rw [pieces, List.flatten_cons]
        show (b.push (octets (u ++ v))).1 ++ ((b.push (octets (u ++ v))).2.pieces (.whole w :: f)).1.flatten = _
        rw [hstop, push_fst, List.append_nil]
      calc (b.pieces (.run (u ++ v) :: .whole w :: f)).1.flatten = cut (octets (u ++ v)) b.allowance := hout
        _ <+: octets (u ++ v) := List.take_prefix _ _
        _ <+: octets (u ++ v) ++ octets (fullText (.whole w :: f)) := List.prefix_append _ _
        _ = octets (fullText (.run (u ++ v) :: .whole w :: f)) := (octets_fullText_cons (.run (u ++ v)) _).symm

/-- **A gap** where a character takes more octets than an escape behind it: with room for the escape, but not for the
character, the escape is written in its place. -/
theorem exists_gap {f : Field} (hf : Woven f) (h : ¬ Tight f) :
    ∃ a, 0 < a ∧ ∀ b : Budget, b.allowance = a → ¬ Kept f (b.pieces f).1.flatten := by
  induction hf with
  | last s => exact absurd trivial h
  | @next s w f hw hf ih =>
    have hwpos : 0 < (octets w).length := octets_length_pos hw
    by_cases hsize : ∀ c ∈ s, c.utf8Size ≤ (octets w).length
    · obtain ⟨a, ha, hgap⟩ := ih fun hrest => h ⟨hsize, hrest⟩
      refine ⟨(octets (s ++ w)).length + a, by omega, ?_⟩
      intro b hb hkept
      obtain ⟨b', hout, hspent, -⟩ := pieces_next (b := b) (s := s) (w := w) (by omega) f
      rw [hout, kept_next] at hkept
      exact hgap b' (by omega) hkept
    · obtain ⟨c, hc⟩ := not_forall.1 hsize
      obtain ⟨hmem, hwide⟩ := Classical.not_imp.1 hc
      obtain ⟨u, v, rfl⟩ := List.append_of_mem hmem
      refine ⟨(octets u).length + (octets w).length, by omega, ?_⟩
      intro b hb hkept
      have hcut : cut (octets (u ++ c :: v)) b.allowance = octets u := by
        apply cut_octets_eq
        · omega
        · intro d hd
          cases hd
          omega
      have hspent := push_spends b (octets (u ++ c :: v))
      rw [push_fst, hcut] at hspent
      have hfits : (octets w).length ≤ (b.push (octets (u ++ c :: v))).2.allowance := by omega
      have hout : octets u ++ octets w <+: (b.pieces (.run (u ++ c :: v) :: .whole w :: f)).1.flatten := by
        simp only [pieces, piece, List.flatten_cons, push_fst, hcut, pushWhole_eq_push hfits, cut_of_le hfits,
          ← List.append_assoc]
        exact List.prefix_append _ _
      -- the escape would have to begin with the character, which takes more octets than all of it
      have hfull : fullText (.run (u ++ c :: v) :: .whole w :: f) = u ++ c :: (v ++ fullText (.whole w :: f)) := by
        simp [fullText, Piece.chars]
      have hboth := hout.trans hkept
      rw [hfull, octets_append, List.prefix_append_right_inj, octets_prefix_iff] at hboth
      obtain ⟨d, w, rfl⟩ := List.exists_cons_of_ne_nil hw
      obtain ⟨rfl, -⟩ := List.cons_prefix_cons.1 hboth
      rw [length_octets_cons] at hwide
      omega

/-! ## Fields without slack -/

theorem push_idle {b : Budget} {s : Octets} (h : (b.push s).1 = []) :
    (b.push s).2.slack = b.slack ∧ (b.push s).2.written = b.written := by
  rw [push_fst] at h
  simp [push, h]

end Budget

/-- the characters with which the runs of a field begin -/
def heads (f : Field) : List Char := f.filterMap fun
  | .run s => s.head?
  | .whole _ => none

/-- the first of them that takes a single octet -/
def lone (f : Field) : Option Char := (heads f).find? fun c => c.utf8Size = 1

/-- **With no slack** a field is left with the first character of a single octet that begins one of its runs -/
theorem Budget.pieces_alone {f : Field} (hf : ∀ w, .whole w ∈ f → 1 < (octets w).length) {b : Budget}
    (hslack : b.slack = 0) (hwritten : b.written = 0) :
    (b.pieces f).1.flatten = octets (lone f).toList := by
  have hone : b.allowance = 1 := by simp [allowance, reserved, hslack, hwritten]
  induction f generalizing b with
  | nil => rfl
  | cons p f ih =>
    have hf' : ∀ w, .whole w ∈ f → 1 < (octets w).length := fun w hw => hf w (List.mem_cons_of_mem p hw)
    rw [pieces, List.flatten_cons]
    cases p with
    | whole w =>
      have hshort : b.allowance < (octets w).length := hone ▸ hf w List.mem_cons_self
      have hafter := ih hf' (b := { b with slack := 0, truncated := true }) rfl hwritten
        (by simp [allowance, reserved, hwritten])
      simp only [piece, pushWhole, if_pos hshort, List.nil_append]
      exact hafter
    | run s =>
      show (b.push (octets s)).1 ++ ((b.push (octets s)).2.pieces f).1.flatten = _
      by_cases hbegin : ∃ c t, s = c :: t ∧ c.utf8Size = 1
      · -- its first character takes all there is
        obtain ⟨c, t, rfl, hc⟩ := hbegin
        have hsize : (octets [c]).length = 1 := by rw [length_octets_cons, hc]; rfl
        have hcut : (b.push (octets (c :: t))).1 = octets [c] := by
          rw [push_fst, hone]
          apply cut_octets_eq (u := [c]) hsize.le
          intro d _
          have hpos := d.utf8Size_pos
          omega
        have hspent := push_spends b (octets (c :: t))
        have hrest := pieces_spends (b.push (octets (c :: t))).2 f
        rw [hcut, hsize] at hspent
        have hnil : ((b.push (octets (c :: t))).2.pieces f).1.flatten = [] := by
          rw [← List.length_eq_zero_iff]
          omega
        rw [hcut, hnil, List.append_nil]
        simp [lone, heads, hc]
      · have hnone : (b.push (octets s)).1 = [] := by
          rw [push_fst, hone]
          apply cut_octets_eq (u := []) (Nat.zero_le 1)
          intro c hc
          obtain ⟨t, rfl⟩ := List.head?_eq_some_iff.1 hc
          have hpos := c.utf8Size_pos
          have hc1 : c.utf8Size ≠ 1 := fun h => hbegin ⟨c, t, rfl, h⟩
          rw [octets_nil, List.length_nil]
          omega
        obtain ⟨hslack', hwritten'⟩ := push_idle hnone
        have hafter := ih hf' (hslack'.trans hslack) (hwritten'.trans hwritten)
          (by simp [allowance, reserved, hslack', hwritten', hslack, hwritten])
        rw [hnone, List.nil_append, hafter]
        cases s with
        | nil => rfl
        | cons c t =>
          have hc1 : c.utf8Size ≠ 1 := fun h => hbegin ⟨c, t, rfl, h⟩
          simp [lone, heads, hc1]

/-! ## Messages -/

/-- a character that stands in a message as it is, in a single octet -/
def Slim (c : Char) : Prop := escape? c = none ∧ c.utf8Size = 1

instance (c : Char) : Decidable (Slim c) := by
  unfold Slim
  infer_instance

/-- an escaped character with a slim one right behind it -/
def Resumes (m : List Char) : Prop := ∃ c d, [c, d] <:+: m ∧ escape? c ≠ none ∧ Slim d

/-- a message that shows no gap, wherever it is cut -/
structure Gapless (m : List Char) : Prop where
  /-- no character of three octets or more has an escaped one behind it -/
  narrow : m.Pairwise fun c d => 3 ≤ c.utf8Size → escape? d = none
  /-- where nothing of the first character fits, nothing of the others does -/
  front : (∀ c ∈ m.head?, Slim c) ∨ ¬ Resumes m

theorem escape_size {c : Char} {w : List Char} (h : escape? c = some w) :
    c.utf8Size = 1 ∧ (octets w).length = 2 ∧ w.head? = some '\\' := by
  unfold escape? at h
  split at h <;> cases h <;> decide

theorem messagePieces_escaped {c : Char} {w : List Char} (h : escape? c = some w) (m : List Char) :
    messagePieces (c :: m) = .run [] :: .whole w :: messagePieces m := by
  have hcons : messagePieces (c :: m) = cons c (messagePieces m) := rfl
  simp only [hcons, cons, h]

/-- the characters of a message in front of the first that is escaped -/
def untilEscape (m : List Char) : List Char := m.takeWhile fun c => escape? c = none

/-- they are the first run of the message -/
theorem messagePieces_eq (m : List Char) :
    messagePieces m = .run (untilEscape m) :: (messagePieces m).tail := by
  induction m with
  | nil => rfl
  | cons c m ih =>
    cases h : escape? c with
    | some w => simp [messagePieces_escaped h, untilEscape, h]
    | none =>
      have hcons : messagePieces (c :: m) = cons c (messagePieces m) := rfl
      have hrun : untilEscape (c :: m) = c :: untilEscape m := by simp [untilEscape, h]
      rw [hcons, hrun, ih]
      simp only [cons, h, List.tail_cons]

theorem messagePieces_plain {c : Char} (h : escape? c = none) (m : List Char) :
    messagePieces (c :: m) = .run (c :: untilEscape m) :: (messagePieces m).tail := by
  have hcons : messagePieces (c :: m) = cons c (messagePieces m) := rfl
  rw [hcons, messagePieces_eq m]
  simp only [cons, h, List.tail_cons]

theorem woven_messagePieces (m : List Char) : Woven (messagePieces m) := by
  induction m with
  | nil => exact .last []
  | cons c m ih =>
    cases h : escape? c with
    | some w =>
      rw [messagePieces_escaped h]
      apply Woven.next [] ?_ ih
      rintro rfl
      exact absurd (escape_size h).2.1 (by decide)
    | none =>
      rw [messagePieces_plain h]
      rw [messagePieces_eq] at ih
      generalize (messagePieces m).tail = f at ih ⊢
      cases ih with
      | last => exact .last _
      | next _ hw hf => exact .next _ hw hf

/-- the escapes of a message are those of its characters -/
theorem whole_mem_messagePieces {m w : List Char} : .whole w ∈ messagePieces m ↔ ∃ c ∈ m, escape? c = some w := by
  induction m with
  | nil => simp [messagePieces]
  | cons c m ih =>
    cases h : escape? c with
    | some v => simp [messagePieces_escaped h, ih, h, eq_comm]
    | none =>
      rw [messagePieces_eq] at ih
      rw [messagePieces_plain h]
      simpa [h] using ih

theorem whole_size {m w : List Char} (hw : .whole w ∈ messagePieces m) : (octets w).length = 2 := by
  obtain ⟨c, -, hc⟩ := whole_mem_messagePieces.1 hw
  exact (escape_size hc).2.1

/-- no character of a message takes more octets than the escape behind its run, when none of three octets or more has an
escaped one behind it -/
theorem tight_messagePieces {m : List Char} :
    Tight (messagePieces m) ↔ m.Pairwise fun c d => 3 ≤ c.utf8Size → escape? d = none := by
  induction m with
  | nil => simp [messagePieces, Tight]
  | cons c m ih =>
    rw [List.pairwise_cons, ← ih]
    cases h : escape? c with
    | some w =>
      have hsize := (escape_size h).1
      rw [messagePieces_escaped h]
      simp [Tight, hsize]
    | none =>
      have hwoven := woven_messagePieces m
      have hmem (w : List Char) := whole_mem_messagePieces (m := m) (w := w)
      rw [messagePieces_plain h]
      rw [messagePieces_eq] at hwoven hmem
      rw [messagePieces_eq m, List.tail_cons]
      generalize (messagePieces m).tail = f at hwoven hmem ⊢
      cases hwoven with
      | last =>
        have hnone : ∀ d ∈ m, escape? d = none := by
          intro d hd
          by_contra hsome
          obtain ⟨w, hw⟩ := Option.ne_none_iff_exists'.1 hsome
          exact absurd ((hmem w).2 ⟨d, hd, hw⟩) (by simp)
        exact ⟨fun _ => ⟨fun d hd _ => hnone d hd, trivial⟩, fun _ => trivial⟩
      | @next _ w f hw hf =>
        obtain ⟨d, hd, hesc⟩ := (hmem w).1 (by simp)
        have hlen := (escape_size hesc).2.1
        rw [tight_next, tight_next, List.forall_mem_cons, hlen]
        constructor
        · rintro ⟨⟨hc, hs⟩, hf⟩
          exact ⟨fun _ _ hwide => absurd hwide (by omega), hs, hf⟩
        · rintro ⟨hc, hs, hf⟩
          refine ⟨⟨?_, hs⟩, hf⟩
          by_contra hwide
          rw [hc d hd (by omega)] at hesc
          cases hesc

theorem heads_run (s : List Char) (f : Field) : heads (.run s :: f) = s.head?.toList ++ heads f := by
  cases s <;> rfl

theorem head?_untilEscape {m : List Char} {c : Char} :
    (untilEscape m).head? = some c ↔ m.head? = some c ∧ escape? c = none := by
  rw [untilEscape, List.head?_takeWhile, Option.filter_eq_some_iff, decide_eq_true_eq]

theorem pair_infix_cons {c d e : Char} {m : List Char} :
    [e, c] <:+: d :: m ↔ (e = d ∧ m.head? = some c) ∨ [e, c] <:+: m := by
  rw [List.infix_cons_iff, List.cons_prefix_cons]
  cases m with
  | nil => simp
  | cons a m => simp [List.cons_prefix_cons, eq_comm]

theorem mem_heads_tail {m : List Char} {c : Char} :
    c ∈ heads (messagePieces m).tail ↔ escape? c = none ∧ ∃ e, [e, c] <:+: m ∧ escape? e ≠ none := by
  induction m with
  | nil => simp [messagePieces, heads]
  | cons d m ih =>
    cases h : escape? d with
    | some w =>
      have htail : heads (messagePieces (d :: m)).tail = heads (messagePieces m) := by
        rw [messagePieces_escaped h]
        rfl
      rw [htail, messagePieces_eq, heads_run, List.mem_append, ih, Option.mem_toList, head?_untilEscape]
      simp only [pair_infix_cons]
      grind
    | none =>
      rw [messagePieces_plain h, List.tail_cons, ih]
      simp only [pair_infix_cons]
      grind

/-- the runs of a message begin with its first character, and with those that have an escaped one in front of them -/
theorem mem_heads_messagePieces {m : List Char} {c : Char} : c ∈ heads (messagePieces m) ↔
    escape? c = none ∧ (m.head? = some c ∨ ∃ e, [e, c] <:+: m ∧ escape? e ≠ none) := by
  rw [messagePieces_eq, heads_run, List.mem_append, mem_heads_tail, Option.mem_toList, head?_untilEscape]
  tauto

/-- the character a message is left with stands in it as it is -/
theorem slim_of_lone {m : List Char} {c : Char} (h : lone (messagePieces m) = some c) : Slim c := by
  have hsize := List.find?_some h
  have hesc := mem_heads_messagePieces.1 (List.mem_of_find?_eq_some h)
  exact ⟨hesc.1, of_decide_eq_true hsize⟩

/-- when a message is left with a character -/
theorem isSome_lone {m : List Char} : (lone (messagePieces m)).isSome ↔ (∃ c ∈ m.head?, Slim c) ∨ Resumes m := by
  simp only [lone, List.find?_isSome, mem_heads_messagePieces, Resumes, Slim, Option.mem_def, decide_eq_true_eq]
  grind

end LogRelay.Record
