/-
How often a send that would block is tried again.

A record has `maxAttempts` attempts, less one for each error counted so far, and always at least one. Once the errors
counted exceed `errorsBeforeReconnect`, a failure asks for a new connection. Between two attempts the sender pauses.
-/
import LogRelay.Json.Decode
import LogRelay.Json.Quote

namespace LogRelay

open Json

/-- the retry policy of a sender that does not wait -/
structure Backoff where
  maxAttempts : UInt64 := 2000
  errorsBeforeReconnect : UInt64 := 1000000
  pauseNanos : UInt64 := 1
  deriving DecidableEq, Repr, Inhabited

namespace Backoff

/-- the attempts the next record has when `errors` are counted -/
def attempts (p : Backoff) (errors : Nat) : Nat :=
  if p.maxAttempts.toNat ≤ errors then 1 else p.maxAttempts.toNat - errors

/-- the pause in whole seconds and nanoseconds -/
def pause (p : Backoff) : Nat × Nat := (p.pauseNanos.toNat / 1000000000, p.pauseNanos.toNat % 1000000000)

def record : Record Backoff :=
  ⟨"BackoffPolicy",
    [⟨"max_attempts", fun t => (t.asWord .word).map fun v p => { p with maxAttempts := v }⟩,
     ⟨"errors_before_reconnect", fun t => (t.asWord .word).map fun v p => { p with errorsBeforeReconnect := v }⟩,
     ⟨"pause_nanos", fun t => (t.asWord .word).map fun v p => { p with pauseNanos := v }⟩]⟩

def json (p : Backoff) : List Char :=
  let item (k : String) (v : UInt64) : List Char := quote k.toList ++ ':' :: (toString v.toNat).toList
  '{' :: item "max_attempts" p.maxAttempts ++ ',' :: item "errors_before_reconnect" p.errorsBeforeReconnect
    ++ ',' :: item "pause_nanos" p.pauseNanos ++ ['}']

end Backoff
end LogRelay
