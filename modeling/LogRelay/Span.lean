/-
The identity of a traced operation: the trace it belongs to, the operation that called it, its own name, and the rollout
it runs in. Each part may be missing, and is empty then.
-/
import LogRelay.Json.Decode
import LogRelay.Json.Quote

namespace LogRelay

open Json

/-- where an operation stands in a trace -/
structure Span where
  traceId : String := ""
  parentSpanId : String := ""
  spanId : String := ""
  rolloutType : String := ""
  deriving DecidableEq, Repr, Inhabited

namespace Span

def isEmpty (s : Span) : Bool :=
  s.traceId.isEmpty && s.parentSpanId.isEmpty && s.spanId.isEmpty && s.rolloutType.isEmpty

/-- the parts by name, in their order -/
def parts (s : Span) : List (String × String) :=
  [("trace_id", s.traceId), ("parent_span_id", s.parentSpanId), ("span_id", s.spanId), ("rollout_type", s.rolloutType)]

def json (s : Span) : List Char :=
  '{' :: [','].intercalate (s.parts.map fun (k, v) => quote k.toList ++ ':' :: quote v.toList) ++ ['}']

def record : Record Span :=
  ⟨"Span",
    [⟨"trace_id", fun t => t.asText.map fun v s => { s with traceId := v }⟩,
     ⟨"parent_span_id", fun t => t.asText.map fun v s => { s with parentSpanId := v }⟩,
     ⟨"span_id", fun t => t.asText.map fun v s => { s with spanId := v }⟩,
     ⟨"rollout_type", fun t => t.asText.map fun v s => { s with rolloutType := v }⟩]⟩

def ofJson (s : List Char) : Except Refusal Span := ofText (record.read {}) s

end Span
end LogRelay
