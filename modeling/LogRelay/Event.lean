/-
A logging call: its message, its moment, its payload, the operation it belongs to, and where it was made.

The place is absent, fixed when the program was built, or to be found on the stack.
-/
import LogRelay.Payload
import LogRelay.Span
import LogRelay.Timestamp
import LogRelay.Trace

namespace LogRelay

/-- where a logging call was made -/
inductive Site where
  | absent
  /-- the caller is found on the stack, `skip` frames past the first that is not internal -/
  | stack (skip : Nat)
  | fixed (module file : String) (line : Nat)
  deriving DecidableEq, Repr, Inhabited

/-- one logging call -/
structure Event where
  message : String
  timestamp : Timestamp
  data : Option Payload := none
  span : Span := {}
  site : Site := .stack 0
  /-- packages stepped over in the search for the caller, besides those of the logger -/
  skips : List String := []
  deriving Repr, Inhabited

/-- the caller at a place, when `stack` is the stack there -/
def Site.resolve (stack : List Frame) (eventSkips configSkips : List String) : Site → Option Caller
  | absent => none
  | .stack skip => Trace.select stack skip eventSkips configSkips
  | fixed module file line => some ⟨module.toList, Trace.fileLine file.toList line⟩

end LogRelay
