/-
Loggers: what a program calls.

A logger hands to its transport what passes its threshold; what does not pass is neither rendered nor counted. The
ways to log test the threshold each for itself, some of them twice, and two of them keep the answer of the transport
to themselves.
-/
import LogRelay.Call
import LogRelay.Transport

namespace LogRelay

/-- what loggers must have in common to share a transport -/
structure Key where
  service : String
  network : String
  address : String
  level : Severity
  deriving DecidableEq, Repr

/-- the key of the loggers with a configuration -/
def Config.key (c : Config) : Key := ⟨c.service, c.network, c.address, c.level⟩

structure Logger where
  /-- the number of its transport -/
  transport : Nat
  layout : Layout
  threshold : Severity.Threshold
  /-- the key under which its transport is registered, if it is -/
  key : Option Key := none
  closed : Bool := false
  deriving DecidableEq, Repr

namespace Logger

/-- a logger with a configuration, on a host with a given name -/
def ofConfig (c : Config) (localName : String) (transport : Nat) (key : Option Key) : Logger :=
  { transport := transport, layout := c.layout localName, threshold := .of c.level, key := key }

def level (l : Logger) : Severity := l.threshold.level

def setLevel (l : Logger) (s : Severity) : Logger := { l with threshold := .of s }

/-- whether a record of a severity passes the threshold -/
def enabled (l : Logger) (s : Severity) : Bool := l.threshold.admits s

/-! ## Ways to log -/

/-- the event of a message with a place and a span -/
def builtEvent (site : Site) (span : Span) (text : String) (data : Option Payload) (now : Timestamp) : Event :=
  { message := text, timestamp := now, data := data, span := span, site := site }

section

variable (l : Logger) (t : Transport)

/-- what a record is rendered from is handed to the transport, if the record passes -/
def recordWith (s : Severity) (x : Content) (stack : List Frame) : Except Failure Unit × Transport :=
  if !l.enabled s then (.ok (), t)
  else t.submit (.appended (x.parts l.layout s stack))

/-- an event prepared by the caller -/
def record (s : Severity) (e : Event) (stack : List Frame) : Except Failure Unit × Transport :=
  l.recordWith t s (.event e) stack

/-- a message with a place and a span -/
def log (site : Site) (span : Span) (s : Severity) (text : String) (data : Option Payload) (now : Timestamp)
    (stack : List Frame) : Except Failure Unit × Transport :=
  if !l.enabled s then (.ok (), t)
  else l.recordWith t s (.event (builtEvent site span text data now)) stack

/-- a message in pieces, which are put together once the threshold is passed -/
def logf (site : Site) (span : Span) (s : Severity) (texts : List String) (data : Option Payload) (now : Timestamp)
    (stack : List Frame) : Except Failure Unit × Transport :=
  if !l.enabled s then (.ok (), t)
  else l.recordWith t s (.event (builtEvent site span (String.join texts) data now)) stack

/-- a message alone; how its record fared is not told -/
def logMessage (s : Severity) (text : String) (now : Timestamp) (stack : List Frame) : Transport :=
  if !l.enabled s then t
  else (l.recordWith t s (.event { message := text, timestamp := now }) stack).2

/-- a message in pieces at a place fixed when the program was built; how its record fared is not told -/
def logPlaced (module file : String) (line : Nat) (span : Span) (s : Severity) (texts : List String) (now : Timestamp)
    (stack : List Frame) : Transport :=
  (l.logf t (.fixed module file line) span s texts none now stack).2

/-- a finished operation; an access is handed in whatever the threshold -/
def collect (o : Operation) (now : Timestamp) (stack : List Frame) : Except Failure Unit × Transport :=
  if !o.isAccess && !l.enabled o.severity then (.ok (), t)
  else t.submit (.appended ((Content.event (o.event now)).parts l.layout o.severity stack))

/-- a call at a moment, when `stack` is the stack at the call: its answer, and the transport after it -/
def call (c : Call) (now : Timestamp) (stack : List Frame) : Except Failure Unit × Transport :=
  match c with
  | .event s e => l.record t s e stack
  | .payload s p => l.recordWith t s (.payload p) stack
  | .message s site span text data => l.log t site span s text data now stack
  | .pieces s site span texts data => l.logf t site span s texts data now stack
  | .plain s text => (.ok (), l.logMessage t s text now stack)
  | .placed s module file line span texts => (.ok (), l.logPlaced t module file line span s texts now stack)
  | .operation o => l.collect t o now stack

end

/-- a logger in words, with the name of what it writes to -/
def text (l : Logger) (writer : String) : String :=
  "Logger \x7b service: " ++ Text.describe l.layout.service ++ ", level: " ++ l.level.label ++ ", writer: "
    ++ Text.describe writer ++ " \x7d"

end Logger
end LogRelay
