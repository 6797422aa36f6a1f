/-
The ways to log, and what a record is rendered from.

Calls that differ only in the way are to ask for the same record; what each way does with its call is told with the
loggers.
-/
import LogRelay.Operation
import LogRelay.Record

namespace LogRelay

/-- what a record is rendered from -/
inductive Content where
  | event (e : Event)
  /-- a payload alone -/
  | payload (p : Payload)
  deriving Repr, Inhabited

/-- the record in the parts in which it is appended, when `stack` is the stack at the call -/
def Content.parts (l : Layout) (s : Severity) (stack : List Frame) : Content → List Octets
  | event e => Record.parts l s e stack
  | payload p => Record.ceeParts s p

/-- a call to log -/
inductive Call where
  /-- an event prepared by the caller -/
  | event (s : Severity) (e : Event)
  /-- a payload alone -/
  | payload (s : Severity) (p : Payload)
  /-- a message with a place and a span -/
  | message (s : Severity) (site : Site) (span : Span) (text : String) (data : Option Payload)
  /-- a message with a place and a span, put together from pieces once the threshold is passed -/
  | pieces (s : Severity) (site : Site) (span : Span) (texts : List String) (data : Option Payload)
  /-- a message alone; the caller is found on the stack -/
  | plain (s : Severity) (text : String)
  /-- a message put together from pieces, at a place fixed when the program was built -/
  | placed (s : Severity) (module file : String) (line : Nat) (span : Span) (texts : List String)
  /-- a finished operation -/
  | operation (o : Operation)
  deriving Repr, Inhabited

end LogRelay
