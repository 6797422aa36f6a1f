/-
The record of an event: one line of twelve fields and an end mark.

```
[<PRI> ]host | time | trace | parent | span | rollout | service | LEVEL | component | file:line | message | json | .
```

An empty field is written as a dash. In the message a backslash, a bar, a carriage return and a line feed are escaped,
so no message holds the separator; in the JSON every separator has its bar escaped. The fields are written against a
budget; a record that had to be cut ends in `X` instead of a point.

A record is appended to its buffer in parts, and the parts decide how the buffer grows: `flatten_parts` and
`flatten_ceeParts` say that they make up the record.
-/
import LogRelay.Config
import LogRelay.Event
import LogRelay.Record.Budget

namespace LogRelay.Record

open Text

def separator : List Char := " | ".toList

def dash : String := "-"

/-- the fields before the end mark -/
def fieldCount : Nat := 12

/-- the end of a record, and the end of one that was cut -/
def terminator (truncated : Bool) : List Char := (if truncated then "X\n" else ".\n").toList

/-! ## Fields -/

def plain (s : List Char) : Field := [.run (if s.isEmpty then dash.toList else s)]

/-- the escape of a character of a message, if it has one -/
def escape? : Char → Option (List Char)
  | '\\' => some ['\\', '\\']
  | '|' => some ['\\', '|']
  | '\r' => some ['\\', 'r']
  | '\n' => some ['\\', 'n']
  | _ => none

/-- a character before the pieces of a message -/
def cons (c : Char) (ps : List Piece) : List Piece :=
  match escape? c, ps with
  | some e, ps => .run [] :: .whole e :: ps
  | none, .run s :: ps => .run (c :: s) :: ps
  | none, ps => .run [c] :: ps

/-- the pieces of a message: runs of plain characters with the escapes between them -/
def messagePieces (s : List Char) : List Piece := s.foldr cons [.run []]

def message (s : List Char) : Field := if s.isEmpty then plain [] else messagePieces s

/-- the separator with its bar escaped -/
def escapedSeparator : List Char := " \\| ".toList

/-- the pieces of a JSON text: what stands between the separators in it, from left to right, and their escapes; `acc`
holds the characters since the last separator, the last one first -/
def jsonPieces (acc : List Char) : List Char → List Piece
  | [] => [.run acc.reverse]
  | ' ' :: '|' :: ' ' :: r => .run acc.reverse :: .whole escapedSeparator :: jsonPieces [] r
  | c :: r => jsonPieces (c :: acc) r

def data : Option Payload → Field
  | none => [.run "{}".toList]
  | some p => jsonPieces [] p.json

/-- the fields of a record, when `stack` is the stack at the logging call -/
def fieldsOf (l : Layout) (s : Severity) (e : Event) (stack : List Frame) : List Field :=
  let (component, fileLine) := match e.site.resolve stack e.skips l.skips with
    | some c => (c.component, c.fileLine)
    | none => ([], [])
  [plain l.hostname.toList, plain e.timestamp.text, plain e.span.traceId.toList, plain e.span.parentSpanId.toList,
   plain e.span.spanId.toList, plain e.span.rolloutType.toList, plain l.service.toList, plain s.name.toList,
   plain component, plain fileLine, message e.message.toList, data e.data]

/-! ## Records -/

/-- the priority in front of a record -/
def header (s : Severity) : List Char := '<' :: (toString s.priority).toList ++ ['>', ' ']

/-- the priority in front of a text, in the parts in which it is appended: the number stands alone -/
def headerParts (s : Severity) (text : List Char) : List (List Char) :=
  [['<'], (toString s.priority).toList, ['>', ' '] ++ text]

theorem flatten_headerParts (s : Severity) (text : List Char) : (headerParts s text).flatten = header s ++ text := by
  simp [headerParts, header]

/-- the octets of a record that are neither field nor header -/
def frameSize : Nat := fieldCount * separator.length + 2

def budget (l : Layout) (s : Severity) : Budget :=
  let room := l.maxSize - frameSize
  let room := if l.header then room - (header s).length else room
  ⟨room - fieldCount, 0, false⟩

/-- the fields as written, each in its pieces, and whether anything was cut -/
def writtenPieces (l : Layout) (s : Severity) (e : Event) (stack : List Frame) : List (List Octets) × Bool :=
  let (ss, b) := (budget l s).fields (fieldsOf l s e stack)
  (ss, b.truncated)

/-- the fields as written, and whether anything was cut -/
def contents (l : Layout) (s : Severity) (e : Event) (stack : List Frame) : List Octets × Bool :=
  let (ss, truncated) := writtenPieces l s e stack
  (ss.map List.flatten, truncated)

/-- a record in the parts in which it is appended: those of the header, each piece of a field and each separator, and
the end -/
def parts (l : Layout) (s : Severity) (e : Event) (stack : List Frame) : List Octets :=
  let (ss, truncated) := writtenPieces l s e stack
  (if l.header then (headerParts s []).map octets else [])
    ++ ss.flatMap (fun f => f ++ [octets separator]) ++ [octets (terminator truncated)]

/-- a record: the header, the fields with a separator after each, and the end -/
def render (l : Layout) (s : Severity) (e : Event) (stack : List Frame) : Octets :=
  let (ss, truncated) := contents l s e stack
  (if l.header then octets (header s) else [])
    ++ ss.flatMap (fun f => f ++ octets separator) ++ octets (terminator truncated)

/-- a payload alone, as a record for readers of the CEE form: its priority, its JSON and a line feed -/
def cee (s : Severity) (p : Payload) : List Char := header s ++ "@cee:".toList ++ p.json ++ ['\n']

/-- a payload alone in the parts in which it is appended -/
def ceeParts (s : Severity) (p : Payload) : List Octets :=
  (headerParts s "@cee:".toList ++ p.jsonParts ++ [['\n']]).map octets

theorem flatten_map_octets (ps : List (List Char)) : (ps.map octets).flatten = octets ps.flatten := by
  induction ps with
  | nil => rfl
  | cons p ps ih => simp [ih, octets_append]

theorem flatten_withSeparators (ss : List (List Octets)) (sep : Octets) :
    (ss.flatMap fun f => f ++ [sep]).flatten = (ss.map List.flatten).flatMap fun f => f ++ sep := by
  induction ss with
  | nil => rfl
  | cons f ss ih => simp [ih]

/-- the parts of a record make up the record -/
theorem flatten_parts (l : Layout) (s : Severity) (e : Event) (stack : List Frame) :
    (parts l s e stack).flatten = render l s e stack := by
  simp only [parts, render, contents, List.flatten_append, flatten_withSeparators]
  cases l.header <;> simp [flatten_map_octets, flatten_headerParts]

theorem flatten_ceeParts (s : Severity) (p : Payload) : (ceeParts s p).flatten = octets (cee s p) := by
  rw [ceeParts, flatten_map_octets]
  simp [cee, flatten_headerParts]

end LogRelay.Record
