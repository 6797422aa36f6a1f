/-
What can go wrong between a logging call and the sink, by cause.

`Failure.message` is the one place that words a failure. A failure is `permanent` when the write must not be tried
again, and `category` says under which heading a record lost to it is counted.
-/
import LogRelay.Json.Decode

namespace LogRelay

/-- the kind of a failure of the system; the kinds that are not told apart are all `other` -/
inductive IoKind where
  | addressUnavailable
  | brokenPipe
  | connectionAborted
  | connectionRefused
  | connectionReset
  | notConnected
  | notFound
  | timedOut
  | wouldBlock
  | other
  deriving DecidableEq, Repr, Inhabited

/-- whether a kind says that the connection is at fault -/
def IoKind.isConnection : IoKind → Bool
  | other => false
  | _ => true

/-- a failure of the system: its kind and its text -/
structure IoFailure where
  kind : IoKind
  text : String
  deriving DecidableEq, Repr, Inhabited

/-- what a lost record is counted under -/
inductive LostCategory where
  | capacity
  | memory
  | connection
  | unknown
  deriving DecidableEq, Repr

def LostCategory.name : LostCategory → String
  | capacity => "capacity"
  | memory => "memory"
  | connection => "connection"
  | unknown => "unknown"

/-- why a record could not be taken, written or flushed, or a logger not be made -/
inductive Failure where
  | queueFull (queued capacity : Nat)
  | memoryLimit (inFlight requested limit : Nat)
  | deadlineExceeded
  | cancelled
  | closed
  | connect (network address : String) (source : IoFailure)
  | write (source : IoFailure)
  /-- a write that failed and must not be tried again -/
  | doNotRetry (source : IoFailure)
  | notConnected
  | shortWrite (written expected : Nat)
  | invalidConfiguration (component message : String)
  | io (source : IoFailure)
  | json (refusal : Json.Refusal)
  | other (message : String)
  deriving DecidableEq, Repr

namespace Failure

def message : Failure → String
  | queueFull queued capacity =>
    "Log queue is out of capacity: " ++ toString queued ++ "/" ++ toString capacity ++ " messages queued"
  | memoryLimit inFlight requested limit =>
    "Memory limit is reached: " ++ toString inFlight ++ " bytes in flight + " ++ toString requested
      ++ " requested > " ++ toString limit
  | deadlineExceeded => "Flush deadline exceeded"
  | cancelled => "Flush cancelled"
  | closed => "Log transport closed"
  | connect network address source =>
    "Failed to connect to " ++ network ++ " '" ++ address ++ "': " ++ source.text
  | write source => "Write failed: " ++ source.text
  | doNotRetry source => "Write failed (do not retry): " ++ source.text
  | notConnected => "Writer is not connected"
  | shortWrite written expected => "Short write: " ++ toString written ++ " of " ++ toString expected ++ " bytes"
  | invalidConfiguration component message => "Invalid configuration for " ++ component ++ ": " ++ message
  | io source => "IO error: " ++ source.text
  | json r => "JSON error: " ++ r.message
  | other message => message

/-- whether the failed write must not be tried again -/
def permanent : Failure → Bool
  | doNotRetry _ => true
  | _ => false

/-- what a record lost to a failure is counted under -/
def category : Failure → LostCategory
  | queueFull _ _ => .capacity
  | memoryLimit _ _ _ => .memory
  | connect _ _ _ => .connection
  | notConnected => .connection
  | shortWrite _ _ => .connection
  | write s => if s.kind.isConnection then .connection else .unknown
  | doNotRetry s => if s.kind.isConnection then .connection else .unknown
  | io s => if s.kind.isConnection then .connection else .unknown
  | _ => .unknown

/-- whether another failure lies behind this one -/
def hasSource : Failure → Bool
  | connect _ _ _ => true
  | write _ => true
  | doNotRetry _ => true
  | io _ => true
  | json _ => true
  | _ => false

end Failure
end LogRelay
