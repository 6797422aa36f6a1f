/-
Waiting for the workers of a transport.

A shutdown closes the transport, takes all workers nobody has waited for yet, and looks at them one after the other: one
that has left or is dead is passed, a dead one with a notice; at one that is still there it waits until the time is up.
It answers whether no worker it looked at was dead or still there.
-/
import LogRelay.Transport
import LogRelay.Trace
import LogRelay.Decimal.Layout

namespace LogRelay.Transport

/-- a shutdown under way: the workers it still has to look at, and whether all others had left -/
structure Shutdown where
  waiting : List Nat
  clean : Bool
  deriving DecidableEq, Repr

/-- a shutdown begins -/
def beginShutdown (t : Transport) : Shutdown × Transport :=
  (⟨t.unjoined, true⟩, { t.close with unjoined := [] })

/-- how far a shutdown has come -/
inductive Progress where
  | waiting (s : Shutdown)
  | answered (clean : Bool)
  deriving DecidableEq, Repr

/-- whether a worker is gone in either way -/
def isGone (t : Transport) (w : Nat) : Bool :=
  match t.workers[w]? with
  | some .left => true
  | some .dead => true
  | _ => false

/-- a shutdown looks at the workers; `expired` is the time in milliseconds once it is up -/
def look (expired : Option Nat) : List Nat → Bool → Transport → Progress × Transport
  | [], clean, t => (.answered clean, t)
  | w :: ws, clean, t =>
    if t.isGone w then
      if t.workers[w]? = some .dead then look expired ws false (t.notify .workerDead) else look expired ws clean t
    else
      match expired with
      | some millis => (.answered false, t.notify (.workerBusy millis))
      | none => (.waiting ⟨w :: ws, clean⟩, t)

/-- the transport ends: records lost are announced -/
def finale (t : Transport) : Transport := if t.tally.lost = 0 then t else t.notify (.ended t.tally)

def millisText (n : Nat) : String :=
  if n = 0 then "0ns"
  else if n < 1000 then toString n ++ "ms"
  else
    let ds := (toString (1000 + n % 1000)).toList.drop 1
    let ds := (ds.reverse.dropWhile (· == '0')).reverse
    toString (n / 1000) ++ (if ds.isEmpty then "" else "." ++ String.ofList ds) ++ "s"

/-- how long the end of a transport waits for its workers, in milliseconds -/
def patience : Nat := 5000

end LogRelay.Transport

namespace LogRelay

/-- what a notice says on standard error, if it does -/
def Notice.errorText? : Notice → Option String
  | echo record cause =>
    some (relayName ++ ": " ++ cause.message ++ "; original message: " ++ Text.ofOctets record)
  | workerDead => some "[LOGGER ERROR] Transport worker panicked during shutdown\n"
  | workerBusy millis =>
    some ("[LOGGER WARNING] Transport worker did not finish within " ++ Transport.millisText millis
      ++ ". Some logs may be lost.\n")
  | losing _ _ => none
  | ended _ => none

inductive Weight where
  | debug
  | warn
  deriving DecidableEq, Repr

def Weight.name : Weight → String
  | debug => "DEBUG"
  | warn => "WARN"

/-- a diagnostic event: what is said, and its fields by name -/
structure Diagnostic where
  weight : Weight
  message : String
  fields : List (String × String)
  deriving DecidableEq, Repr

/-- the diagnostic event of a notice, if it is one -/
def Notice.diagnostic? : Notice → Option Diagnostic
  | losing lost cause =>
    some ⟨.warn, "log records are being lost",
      [("lost", toString lost), ("category", cause.category.name), ("error", cause.message)]⟩
  | ended tally =>
    some ⟨.warn, "log transport shut down with lost messages",
      [("lost", toString tally.lost), ("loss_rate", Decimal.diagnostic.render ⟨tally.lossRate.toBits⟩)]⟩
  | echo _ _ => none
  | workerDead => none
  | workerBusy _ => none

end LogRelay
