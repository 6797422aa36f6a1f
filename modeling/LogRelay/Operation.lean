/-
Finished operations, written as records.

An operation that was asked for from outside is an access: its record bears a mark and the severity `info`, passes any
threshold, and has the passwords in its request hidden. Any other operation has the severity its level names, or
`debug`.
-/
import LogRelay.Event
import LogRelay.Mask

namespace LogRelay

/-- a finished operation -/
structure Operation where
  /-- the name of a severity -/
  level : String := ""
  traceId : String := ""
  parentSpanId : String := ""
  spanId : String := ""
  name : String := ""
  request : String := ""
  data : Option Payload := none
  isAccess : Bool := false
  deriving Repr, Inhabited

namespace Operation

/-- the mark of an access -/
def accessMark : List Char := "[access log] ".toList

def severity (o : Operation) : Severity :=
  if o.isAccess then .info
  else
    match Severity.parse o.level with
    | .ok s => s
    | .error _ => .debug

/-- the request as it is written -/
def requestText (o : Operation) : List Char := if o.isAccess then Mask.mask o.request.toList else o.request.toList

def message (o : Operation) : List Char :=
  (if o.isAccess then accessMark else []) ++ o.name.toList
    ++ (if o.requestText.isEmpty then [] else " - ".toList ++ o.requestText)

/-- the logging call at a moment; it has no place -/
def event (o : Operation) (t : Timestamp) : Event where
  message := String.ofList o.message
  timestamp := t
  data := o.data
  span := { traceId := o.traceId, parentSpanId := o.parentSpanId, spanId := o.spanId }
  site := .absent

end Operation
end LogRelay
