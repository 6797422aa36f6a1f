/-
How long a record can become.

The fields of a record are written against a budget, and what is written is paid for: each field has one octet of its
own and shares the slack with the others. A text that may be cut spends exactly what is kept of it; an escape that
does not fit spends all that is left.
- `fill_appended`: a draft made of parts is what appending the parts one by one gives.
- `push_spends`, `pushWhole_spends`, `pieces_spends`, `fields_spends`: what is written and what is left together never
  exceed what there was.
- `render_length_le`: a record has at most as many octets as its ceiling, and where the ceiling leaves the fields no
  octet of their own, at most `minRecordSize`.
- `record_within_ceiling`: appended to a buffer, a record leaves alone what is in it, and takes up no more octets than
  its ceiling when the configuration is not refused.
-/
import Mathlib.Tactic
import LogRelay.Record
import LogRelay.Transport

namespace LogRelay

theorem Buffer.content_foldl_append (ss : List Octets) (b : Buffer) :
    (ss.foldl append b).content = b.content ++ ss.flatten := by
  induction ss generalizing b with
  | nil => simp
  | cons s ss ih =>
    rw [List.foldl_cons, ih, List.flatten_cons, ← List.append_assoc]
    congr 1
    unfold append
    split
    · next h => simp [List.isEmpty_iff.mp h]
    · rfl

/-- a draft made of parts puts into an empty buffer what appending them one by one puts there, and grows it as much -/
theorem Draft.fill_appended (ss : List Octets) (c : Nat) :
    (Draft.appended ss).fill ⟨[], c⟩ = ss.foldl Buffer.append ⟨[], c⟩ := by
  have hcontent := Buffer.content_foldl_append ss ⟨[], c⟩
  have hcapacity := Buffer.capacity_foldl_append ss ⟨[], c⟩
  generalize ss.foldl Buffer.append ⟨[], c⟩ = b at hcontent hcapacity
  obtain ⟨content, capacity⟩ := b
  simp only at hcontent hcapacity
  rw [hcontent, hcapacity]
  rfl

namespace Record

open Text

namespace Budget

/-! ## What is written is paid for -/

theorem reserved_le (b : Budget) : b.reserved ≤ 1 := by
  unfold reserved
  split <;> omega

/-- a text that may be cut spends what is kept of it -/
theorem push_spends (b : Budget) (s : Octets) : (b.push s).1.length + (b.push s).2.allowance = b.allowance := by
  have hkept : (cut s b.allowance).length ≤ b.slack + b.reserved := cut_length_le s b.allowance
  have hres := reserved_le b
  simp only [push]
  split
  · next h =>
    rw [List.isEmpty_iff] at h
    rw [h, List.length_nil, Nat.zero_add]
    rfl
  · next h =>
    have hpos : 0 < (cut s b.allowance).length := by
      rw [List.length_pos_iff]
      exact fun h' => h (List.isEmpty_iff.2 h')
    generalize (cut s b.allowance).length = k at hkept hpos
    have hzero : ¬ b.written + k = 0 := by omega
    have hmin : min b.reserved k = b.reserved := Nat.min_eq_left (by omega)
    simp only [allowance, reserved, if_neg hzero] at hmin ⊢
    rw [hmin]
    simp only [reserved] at hkept
    omega

/-- a text that may not be cut spends at least what it takes -/
theorem pushWhole_spends (b : Budget) (s : Octets) :
    (b.pushWhole s).1.length + (b.pushWhole s).2.allowance ≤ b.allowance := by
  unfold pushWhole
  by_cases h : b.allowance < s.length
  · rw [if_pos h]
    simp [allowance, reserved]
  · rw [if_neg h]
    exact (push_spends b s).le

theorem piece_spends (b : Budget) (p : Piece) : (b.piece p).1.length + (b.piece p).2.allowance ≤ b.allowance := by
  cases p with
  | run s => exact (push_spends b (octets s)).le
  | whole s => exact pushWhole_spends b (octets s)

theorem pieces_spends (b : Budget) (ps : List Piece) :
    (b.pieces ps).1.flatten.length + (b.pieces ps).2.allowance ≤ b.allowance := by
  induction ps generalizing b with
  | nil => simp [pieces]
  | cons p ps ih =>
    have hp := piece_spends b p
    have hps := ih (b.piece p).2
    simp only [pieces, List.flatten_cons, List.length_append]
    omega

theorem field_spends (b : Budget) (f : Field) :
    (b.field f).1.flatten.length + (b.field f).2.slack ≤ b.slack + 1 := by
  have h := pieces_spends { b with written := 0 } f
  have hown : ({ b with written := 0 } : Budget).allowance = b.slack + 1 := rfl
  have hleft : (b.field f).2.slack ≤ (b.field f).2.allowance := Nat.le_add_right _ _
  unfold field at hleft ⊢
  omega

theorem fields_spends (b : Budget) (fs : List Field) :
    (b.fields fs).1.flatten.flatten.length + (b.fields fs).2.slack ≤ b.slack + fs.length := by
  induction fs generalizing b with
  | nil => simp [fields]
  | cons f fs ih =>
    have hf := field_spends b f
    have hfs := ih (b.field f).2
    simp only [fields, List.flatten_cons, List.flatten_append, List.length_append, List.length_cons]
    omega

theorem fields_length (b : Budget) (fs : List Field) : (b.fields fs).1.length = fs.length := by
  induction fs generalizing b with
  | nil => rfl
  | cons f fs ih => simp [fields, ih]

end Budget

/-! ## The frame of a record -/

theorem fieldsOf_length (l : Layout) (s : Severity) (e : Event) (stack : List Frame) :
    (fieldsOf l s e stack).length = fieldCount := rfl

/-- every priority has three digits -/
theorem octets_header_length (s : Severity) : (octets (header s)).length = 6 := by
  cases s <;> decide

theorem header_length (s : Severity) : (header s).length = 6 := by
  cases s <;> decide

theorem octets_terminator_length (truncated : Bool) : (octets (terminator truncated)).length = 2 := by
  cases truncated <;> decide

theorem flatMap_append_length (ss : List Octets) (sep : Octets) :
    (ss.flatMap fun f => f ++ sep).length = ss.flatten.length + ss.length * sep.length := by
  induction ss with
  | nil => simp
  | cons s ss ih =>
    rw [List.flatMap_cons, List.length_append, ih, List.flatten_cons, List.length_append, List.length_append,
      List.length_cons, Nat.succ_mul]
    omega

/-- the octets of a record: its header, what is left of its fields, and its frame -/
theorem render_length (l : Layout) (s : Severity) (e : Event) (stack : List Frame) :
    (render l s e stack).length =
      (if l.header then 6 else 0) + (contents l s e stack).1.flatten.length + frameSize := by
  have hcount := (budget l s).fields_length (fieldsOf l s e stack)
  rw [fieldsOf_length] at hcount
  have hcontents : (contents l s e stack).1.length = 12 := by
    simp only [contents, writtenPieces, List.length_map]
    exact hcount
  have hsep : (octets separator).length = 3 := by decide
  have hframe : frameSize = 38 := rfl
  have hheader : (if l.header then octets (header s) else []).length = if l.header then 6 else 0 := by
    split
    · exact octets_header_length s
    · rfl
  rw [render, List.length_append, List.length_append, hheader, flatMap_append_length, hcontents, hsep,
    octets_terminator_length, hframe]
  omega

/-! ## Main results -/

/-- a record takes up no more octets than its ceiling, or than the least ceiling when its own is less -/
theorem render_length_le (l : Layout) (s : Severity) (e : Event) (stack : List Frame) :
    (render l s e stack).length ≤ max l.maxSize minRecordSize := by
  have hspent := (budget l s).fields_spends (fieldsOf l s e stack)
  have hwritten : (contents l s e stack).1.flatten.length =
      ((budget l s).fields (fieldsOf l s e stack)).1.flatten.flatten.length := by
    simp only [contents, writtenPieces, ← List.flatten_flatten]
  rw [fieldsOf_length] at hspent
  rw [render_length, hwritten]
  generalize ((budget l s).fields (fieldsOf l s e stack)).1.flatten.flatten.length = n at hspent
  have hframe : frameSize = 38 := rfl
  have hfields : fieldCount = 12 := rfl
  have hmin : minRecordSize = 56 := rfl
  -- the slack is what the ceiling leaves after frame, header and the octets the fields own, if it leaves anything
  cases hh : l.header with
  | true =>
    simp only [budget, hh, if_true, header_length, hframe, hfields] at hspent ⊢
    omega
  | false =>
    simp only [budget, hh, Bool.false_eq_true, if_false, hframe, hfields] at hspent ⊢
    omega

theorem minRecordSize_le_of_validate {c : Config} (h : c.validate = .ok ()) :
    minRecordSize ≤ c.maxRecordSize.toNat := by
  unfold Config.validate at h
  cases hf : c.flaw? with
  | some f => rw [hf] at h; cases h
  | none =>
    unfold Config.flaw? at hf
    split_ifs at hf with _ _ _ hsize
    exact Nat.le_of_not_lt hsize

/-- **Record ceiling.** Whatever event is logged with whatever severity and layout, and whatever the buffer holds
already: rendering appends the record to it and changes nothing else; the record has at most
`max maxSize minRecordSize` octets, and no more than the configured ceiling when the layout is that of a configuration
that is not refused. -/
theorem record_within_ceiling (l : Layout) (s : Severity) (e : Event) (stack : List Frame) (b : Buffer) :
    ((parts l s e stack).foldl Buffer.append b).content = b.content ++ render l s e stack ∧
    (render l s e stack).length ≤ max l.maxSize minRecordSize ∧
    ∀ (c : Config) (localName : String), l = c.layout localName → c.validate = .ok () →
      (render l s e stack).length ≤ c.maxRecordSize.toNat := by
  have hlen := render_length_le l s e stack
  refine ⟨?_, hlen, ?_⟩
  · rw [Buffer.content_foldl_append, flatten_parts]
  · intro c localName hl hc
    have hsize : l.maxSize = c.maxRecordSize.toNat := by rw [hl]; rfl
    rw [hsize, max_eq_left (minRecordSize_le_of_validate hc)] at hlen
    exact hlen

/-- with the least ceiling, and a message that does not fit -/
theorem record_within_ceiling_least :
    let c : Config := { maxRecordSize := 56, syslogHeader := some true }
    let e : Event := { message := "disk full", timestamp := ⟨0, 0⟩ }
    c.validate = .ok () ∧ (render (c.layout "relay") .error e []).length ≤ 56 :=
  ⟨rfl, (record_within_ceiling _ .error _ [] {}).2.2 _ "relay" rfl rfl⟩

end Record
end LogRelay
