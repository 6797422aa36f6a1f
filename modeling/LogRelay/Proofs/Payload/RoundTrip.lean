/-
A payload is read back from the JSON that is put down for it.

The JSON of a value is written JSON (`Value.WrittenAs`), so it is read as it is written; what remains is that every
tree it can be read as stands for the value again. A floating-point number is the only value for which it may not: it
can be put down as a whole number, or as null. A reader opens so many containers and no more, which is why the depth of
a value counts.
- `exists_written`: the JSON of a value without floating-point numbers is written JSON that stands for this value.
- `ofJson_json`: such a payload is read back from its JSON.
- `payload_round_trip`: the same, with the record that holds the JSON of a payload alone.
-/
import LogRelay.Proofs.Json.Compact
import LogRelay.Proofs.Json.Escaped
import LogRelay.Proofs.Json.Reading
import LogRelay.Proofs.Payload.Order
import LogRelay.Proofs.Record.Ceiling
import LogRelay.Proofs.Text.Octets

namespace LogRelay

open Json Text

namespace Value

mutual

/-- no floating-point number stands in a value -/
def isFloatless : Value → Bool
  | float _ => false
  | map fields => areFloatless fields
  | _ => true

def areFloatless : List (String × Value) → Bool
  | [] => true
  | (_, v) :: fs => v.isFloatless && areFloatless fs

end

mutual

/-- how many maps stand one inside the other in a value -/
def depth : Value → Nat
  | map fields => depthOfFields fields + 1
  | _ => 0

def depthOfFields : List (String × Value) → Nat
  | [] => 0
  | (_, v) :: fs => max v.depth (depthOfFields fs)

end

/-! ## Trees that stand for a value -/

/-- a tree without faults that stands for a value, as far as its maps may be opened -/
def ReadFrom (v : Value) (t : Tree) : Prop := ofTree? t = some v ∧ ∀ d, v.depth ≤ d → t.fault? d = none

def FieldsReadFrom (fs : List (String × Value)) (es : List (Json.Key × Tree)) : Prop :=
  ofEntries? es = some fs ∧ ∀ d, depthOfFields fs ≤ d → Tree.faultOfEntries? d es = none

/-- written JSON that is the JSON of a value, and stands for it wherever it is read -/
def WrittenAs (v : Value) (x : Written) : Prop := x.chars = v.json ∧ ∀ t, x.ReadAs t → v.ReadFrom t

def FieldsWrittenAs (fs : List (String × Value)) (es : List Entry) : Prop :=
  es.length = fs.length ∧ Written.charsOfEntries es = jsonOfFields fs ∧
    ∀ ts, Written.EntriesReadAs es ts → FieldsReadFrom fs ts

theorem readFrom_scalar {v : Value} {s : Scalar} (h : ofScalar s = v) (e : Extent) : v.ReadFrom (.scalar s e) := by
  refine ⟨by rw [ofTree?, h], ?_⟩
  intro d _
  rw [Tree.fault?]

theorem fieldsReadFrom_cons {k : Json.Key} {key : String} {v : Value} {fs : List (String × Value)} {t : Tree}
    {es : List (Json.Key × Tree)} (hk : k.text = .ok key) (hv : v.ReadFrom t) (hfs : FieldsReadFrom fs es) :
    FieldsReadFrom ((key, v) :: fs) ((k, t) :: es) := by
  constructor
  · simp [ofEntries?, hv.1, hfs.1, hk, Except.toOption]
  · intro d hd
    rw [depthOfFields] at hd
    simp [Tree.faultOfEntries?, hk, hv.2 d (by omega), hfs.2 d (by omega)]

theorem readFrom_map {fs : List (String × Value)} {es : List (Json.Key × Tree)} (hordered : areOrdered fs = true)
    (hfs : FieldsReadFrom fs es) (e : Extent) : (map fs).ReadFrom (.object e es none) := by
  constructor
  · rw [ofTree?, hfs.1, Option.map_some, Payload.ofList_eq hordered]
  · intro d hd
    rw [depth] at hd
    obtain ⟨d, rfl⟩ : ∃ k, d = k + 1 := ⟨d - 1, by omega⟩
    simp [Tree.fault?, hfs.2 d (by omega)]

/-! ## Written values -/

theorem fieldsWrittenAs_nil : FieldsWrittenAs [] [] := by
  refine ⟨rfl, rfl, ?_⟩
  intro ts hts
  rw [Written.EntriesReadAs] at hts
  subst hts
  exact ⟨rfl, fun _ _ => rfl⟩

/-- an entry in front of others, and the field it is the JSON of -/
theorem charsOfEntries_cons {k : String} {gs : List Glyph} (hkey : quotedGlyphs gs = quote k.toList) {v : Value}
    {x : Written} (hx : x.chars = v.json) {fs : List (String × Value)} {es : List Entry}
    (hlength : es.length = fs.length)
    (hes : Written.charsOfEntries es = jsonOfFields fs) :
    Written.charsOfEntries ((.bare gs, .bare x) :: es) = jsonOfFields ((k, v) :: fs) := by
  match fs, es, hlength with
  | [], [], _ => rw [Written.lastEntry_bare, hkey, hx, jsonOfFields]
  | f :: fs, e :: es, _ => rw [Written.entry_bare, hkey, hx, hes, jsonOfFields]

theorem fieldsWrittenAs_cons {k : String} {gs : List Glyph} (hkey : quotedGlyphs gs = quote k.toList)
    (hspell : Glyph.string? gs = some k) {v : Value} {x : Written} (hv : v.WrittenAs x) {fs : List (String × Value)}
    {es : List Entry} (hfs : FieldsWrittenAs fs es) : FieldsWrittenAs ((k, v) :: fs) ((.bare gs, .bare x) :: es) := by
  obtain ⟨hchars, hread⟩ := hv
  obtain ⟨hlength, hmore, hreads⟩ := hfs
  refine ⟨congrArg (· + 1) hlength, charsOfEntries_cons hkey hchars hlength hmore, ?_⟩
  intro ts hts
  rw [Padded.bare, Padded.bare, Written.EntriesReadAs] at hts
  obtain ⟨key, t, ts, rfl, htext, ht, hts⟩ := hts
  rw [KeyReadAs, hspell] at htext
  exact fieldsReadFrom_cons htext (hread t ht) (hreads ts hts)

theorem exists_int (n : Int64) :
    ∃ (x : NumeralText) (m : Number), x.chars = (toString n.toInt).toList ∧ x.numeral.number? = some m ∧
      ofNumber m = .int n := by
  have hlow : -2 ^ 63 ≤ n.toInt := n.le_toInt
  have hhigh : n.toInt < 2 ^ 63 := n.toInt_lt
  rw [Int.toString_eq_repr, Int.repr_eq_if]
  split
  · next hnonneg =>
    obtain ⟨x, hchars, hvalue⟩ := exists_natural n.toInt.toNat
    have hsmall : n.toInt.toNat < Nat.pow 2 63 := by
      show n.toInt.toNat < 2 ^ 63
      omega
    have hlt : n.toInt.toNat < UInt64.size := hsmall.trans (by decide)
    refine ⟨x, _, hchars, number?_of_natural hvalue hlt, ?_⟩
    rw [ofNumber, if_pos hsmall, Int.toNat_of_nonneg (by omega), Int64.ofInt_toInt]
  · next hneg =>
    obtain ⟨x, hchars, hminus, hfraction, hexponent, hvalue⟩ := exists_digits true (-n.toInt).toNat
    have hnumber := number?_of_negative hminus hfraction hexponent (by omega) (by omega)
    refine ⟨x, _, ?_, hnumber, ?_⟩
    · rw [hchars, String.toList_append]
      rfl
    · rw [ofNumber, hvalue, Int.toNat_of_nonneg (by omega), Int.neg_neg, Int64.ofInt_toInt]

mutual

/-- the JSON of a value without floating-point numbers is written JSON that stands for this value -/
theorem exists_written (v : Value) (hfloat : v.isFloatless = true) (hordered : v.isOrdered = true) :
    ∃ x : Written, v.WrittenAs x := by
  match v with
  | .text s =>
    obtain ⟨gs, hchars, hspell⟩ := exists_quoted s
    refine ⟨.text gs, by rw [Written.chars, hchars, json], ?_⟩
    intro t ht
    rw [Written.ReadAs, hspell] at ht
    obtain ⟨e, rfl⟩ := ht
    exact readFrom_scalar rfl e
  | .int n =>
    obtain ⟨x, m, hchars, hnumber, hvalue⟩ := exists_int n
    refine ⟨.numeral x, by rw [Written.chars, hchars, json], ?_⟩
    intro t ht
    rw [Written.ReadAs, hnumber] at ht
    obtain ⟨e, rfl⟩ := ht
    exact readFrom_scalar (s := .number m) hvalue e
  | .float x => cases hfloat
  | .bool b =>
    refine ⟨.bool b, by rw [Written.chars, json], ?_⟩
    intro t ht
    rw [Written.ReadAs] at ht
    obtain ⟨e, rfl⟩ := ht
    exact readFrom_scalar rfl e
  | .null =>
    refine ⟨.null, by rw [Written.chars, json], ?_⟩
    intro t ht
    rw [Written.ReadAs] at ht
    obtain ⟨e, rfl⟩ := ht
    exact readFrom_scalar rfl e
  | .map fields =>
    rw [isFloatless] at hfloat
    rw [isOrdered] at hordered
    obtain ⟨es, -, hchars, hread⟩ := exists_written_fields fields hfloat hordered
    refine ⟨.object .none es, by rw [Written.object_bare, hchars, json], ?_⟩
    intro t ht
    rw [Written.ReadAs] at ht
    obtain ⟨e, ts, rfl, hts⟩ := ht
    exact readFrom_map hordered (hread ts hts) e

/-- the JSON of the fields of a map is written JSON that stands for these fields -/
theorem exists_written_fields (fs : List (String × Value)) (hfloat : areFloatless fs = true)
    (hordered : areOrdered fs = true) : ∃ es : List Entry, FieldsWrittenAs fs es := by
  match fs with
  | [] => exact ⟨[], fieldsWrittenAs_nil⟩
  | (k, v) :: fs =>
    rw [areFloatless, Bool.and_eq_true] at hfloat
    obtain ⟨hv, -, htail⟩ := areOrdered_cons.1 hordered
    obtain ⟨gs, hkey, hspell⟩ := exists_quoted k
    obtain ⟨x, hx⟩ := exists_written v hfloat.1 hv
    obtain ⟨es, hes⟩ := exists_written_fields fs hfloat.2 htail
    exact ⟨_, fieldsWrittenAs_cons hkey hspell hx hes⟩

end

end Value

namespace Payload

open Value

def isFloatless (p : Payload) : Bool := areFloatless p.fields

/-- how many containers are open at once in the JSON of a payload, its own included -/
def depth (p : Payload) : Nat := depthOfFields p.fields + 1

/-! ## Reading back -/

/-- entries without faults set the fields they stand for, one after the other -/
theorem foldlM_readEntry {es : List (Json.Key × Tree)} {fs : List (String × Value)} (h : ofEntries? es = some fs)
    (hfault : Tree.faultOfEntries? (depthLimit - 1) es = none) (p : Payload) :
    es.foldlM readEntry p = .ok (fs.foldl (fun p f => p.insert f.1 f.2) p) := by
  induction es generalizing fs p with
  | nil =>
    rw [ofEntries?] at h
    cases h
    rfl
  | cons e es ih =>
    obtain ⟨⟨text, rest⟩, t⟩ := e
    rw [Tree.faultOfEntries?] at hfault
    cases text with
    | error f => cases hfault
    | ok key =>
      rw [Option.or_eq_none_iff] at hfault
      simp only [ofEntries?, Except.toOption, Option.bind_eq_bind, Option.bind_eq_some_iff, Option.pure_def,
        Option.some.injEq] at h
      obtain ⟨v, hv, fs, hfs, _, rfl, rfl⟩ := h
      have hentry : readEntry p (⟨.ok key, rest⟩, t) = .ok (p.insert key v) := by
        simp only [readEntry, Value.read, hfault.1, hv]
        rfl
      rw [List.foldlM_cons, hentry, List.foldl_cons, ← ih hfs hfault.2]
      rfl

/-- **Reading back.** A payload without floating-point numbers is read back from its JSON, whatever its texts and keys
are, when no more maps stand one inside the other than may be opened. -/
theorem ofJson_json {p : Payload} (hordered : p.isOrdered = true) (hfloat : p.isFloatless = true)
    (hdepth : p.depth ≤ depthLimit) : ofJson p.json = .ok p := by
  obtain ⟨es, -, hchars, hread⟩ := exists_written_fields p.fields hfloat hordered
  have hjson : (Padded.bare (Written.object .none es)).chars = p.json := by
    rw [Padded.bare_chars, Written.object_bare, hchars, Payload.json, Value.json]
  rw [← hjson, ofJson]
  apply ofText_chars
  intro t ht
  rw [Padded.bare, Written.ReadAs] at ht
  obtain ⟨e, ts, rfl, hts⟩ := ht
  obtain ⟨hfields, hfault⟩ := hread ts hts
  have hentries := foldlM_readEntry hfields (hfault _ (Nat.le_sub_one_of_lt hdepth)) empty
  have hlist : p.fields.foldl (fun p f => p.insert f.1 f.2) empty = p := ofList_eq hordered
  rw [read, hentries, hlist]
  rfl

/-! ## Records that hold a payload alone -/

theorem append_jsonParts (p : Payload) (b : Buffer) :
    ((p.jsonParts.map octets).foldl Buffer.append b).content = b.content ++ octetsOf p.text := by
  calc ((p.jsonParts.map octets).foldl Buffer.append b).content = b.content ++ (p.jsonParts.map octets).flatten :=
        Buffer.content_foldl_append _ b
    _ = b.content ++ octets p.json := by rw [Record.flatten_map_octets, flatten_jsonParts]
    _ = b.content ++ octetsOf p.text := by rw [octetsOf, text, String.toList_ofList]

/-- nothing in a record for readers of the CEE form breaks the line before its end -/
theorem count_cee (s : Severity) (p : Payload) : (octets (Record.cee s p)).count lineFeed = 1 := by
  have hcount : (octets (Record.cee s p)).count lineFeed = (Record.cee s p).count '\n' :=
    count_octets (c := '\n') (by decide) _
  have hheader : (Record.header s ++ "@cee:".toList).count '\n' = 0 := by cases s <;> decide
  have hjson : p.json.count '\n' = 0 := List.count_eq_zero.2 p.escaped_json.not_mem_lineFeed
  calc (octets (Record.cee s p)).count lineFeed
      = (Record.header s ++ "@cee:".toList).count '\n' + p.json.count '\n' + ['\n'].count '\n' := by
        rw [hcount, Record.cee, List.count_append, List.count_append]
    _ = 1 := by
        rw [hheader, hjson]
        rfl

/-- **Payload round trip.** A payload in order and without floating-point numbers, with any texts, keys, whole numbers
of 64 bits, truth values and nulls, and with no more than 127 containers open at once, is read back from its JSON. Its
JSON is appended as it is, whatever the payload; and its record for readers of the CEE form is appended as the
priority, the mark of the form, this JSON and a line feed, the only one in it. -/
theorem payload_round_trip (p : Payload) :
    (p.isOrdered = true → p.isFloatless = true → p.depth ≤ 127 → ofJson p.text.toList = .ok p) ∧
    (∀ b : Buffer, ((p.jsonParts.map octets).foldl Buffer.append b).content = b.content ++ octetsOf p.text) ∧
    ∀ (s : Severity) (b : Buffer),
      let record := ("<" ++ toString s.priority ++ "> @cee:" ++ p.text ++ "\n").toList
      ((Record.ceeParts s p).foldl Buffer.append b).content = b.content ++ octets record ∧
        (octets record).count lineFeed = 1 := by
  refine ⟨?_, append_jsonParts p, ?_⟩
  · intro hordered hfloat hdepth
    rw [text, String.toList_ofList]
    exact ofJson_json hordered hfloat hdepth
  · intro s b
    have hrecord : ("<" ++ toString s.priority ++ "> @cee:" ++ p.text ++ "\n").toList = Record.cee s p := by
      simp [Record.cee, Record.header, text]
    simp only [hrecord]
    exact ⟨by rw [Buffer.content_foldl_append, Record.flatten_ceeParts], count_cee s p⟩

/-- a map in a map, with the least and the greatest whole number, and a key and a text that need escapes -/
theorem payload_round_trip_nested :
    let p := ofList [("span", .map [("ids", .map []), ("low", .int Int64.minValue)]),
      ("\"\n", .text "\x00 | \\ \u00e9"), ("high", .int Int64.maxValue), ("ok", .bool false), ("none", .null)]
    p.isOrdered = true ∧ p.isFloatless = true ∧ p.depth = 3 ∧ ofJson p.text.toList = .ok p :=
  ⟨by decide +kernel, by decide +kernel, by decide +kernel,
    (payload_round_trip _).1 (by decide +kernel) (by decide +kernel) (by decide +kernel)⟩

end Payload
end LogRelay
