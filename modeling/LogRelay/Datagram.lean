/-
A sender of datagrams that does not wait for the receiver.

A send that would block is tried again while the record has attempts left, and each time counts as an error. A success
sets the count back. When the record fails, the failure asks for a new connection if more errors are counted than the
policy allows before that, and the count starts again; otherwise the record must not be tried again.
-/
import LogRelay.Backoff
import LogRelay.Failure

namespace LogRelay

/-- A sender: its policy, the errors counted since the last success, and whether its socket is open. The count has no
end, but never exceeds both the attempts of a record and one more than the errors the policy allows; so a word of 64
bits holds it unless 2 ^ 64 - 1 errors are allowed. -/
structure Datagram where
  policy : Backoff
  errors : Nat := 0
  isOpen : Bool := true
  deriving DecidableEq, Repr, Inhabited

namespace Datagram

/-- the failure of a send without a socket -/
def socketClosed : IoFailure := ⟨.notConnected, "socket closed"⟩

/-- the failure of a record, and the errors counted after it -/
def giveUp (p : Backoff) (errors : Nat) (f : IoFailure) : Except Failure Nat × Nat :=
  if p.errorsBeforeReconnect.toNat < errors then (.error (.write f), 0) else (.error (.doNotRetry f), errors)

/-- sends until one succeeds, one fails for another reason than that it would block, or no attempt is left; `more` is
how many attempts there are after this one -/
def sendFor {ε : Type} (p : Backoff) (send : ε → Except IoFailure Nat × ε) :
    (more errors : Nat) → ε → (Except Failure Nat × Nat) × ε
  | more, errors, e =>
    match send e with
    | (.ok n, e) => ((.ok n, 0), e)
    | (.error f, e) =>
      if f.kind = .wouldBlock then
        match more with
        | 0 => (giveUp p (errors + 1) f, e)
        | more + 1 => sendFor p send more (errors + 1) e
      else (giveUp p errors f, e)

/-- a record is sent; the attempts are those the errors counted before it leave -/
def write {ε : Type} (d : Datagram) (send : ε → Except IoFailure Nat × ε) (e : ε) : Except Failure Nat × Datagram × ε :=
  let send := if d.isOpen then send else fun e => (.error socketClosed, e)
  let ((r, errors), e) := sendFor d.policy send (d.policy.attempts d.errors - 1) d.errors e
  (r, { d with errors := errors }, e)

def close (d : Datagram) : Datagram := { d with isOpen := false }

end Datagram
end LogRelay
