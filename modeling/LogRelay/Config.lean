/-
The settings of a logger.

Every setting has a default, so a JSON text names only what it changes. `Config.flaw?` is the first setting that
cannot be used; `Config.ofJson` reads a text and refuses a flawed configuration. `Config.layout` is what the records
of a logger have in common.
-/
import LogRelay.Backoff
import LogRelay.Failure

namespace LogRelay

open Json

/-- the default ceiling of a record, in octets -/
def defaultMaxRecordSize : Nat := 128 * 1024

/-- the least ceiling of a record that leaves an octet to each of its twelve fields -/
def minRecordSize : Nat := 12 * 3 + 12 + 2 + 6

/-- the settings of a logger -/
structure Config where
  service : String := ""
  /-- the kind of socket; empty means standard output -/
  network : String := ""
  /-- the address or path of the socket; empty means standard output -/
  address : String := ""
  level : Severity := .debug
  /-- how many octets the records on their way may take -/
  bufferSize : UInt64 := 33554432
  /-- how many records may be queued -/
  queueCapacity : UInt64 := 65536
  workerCount : UInt64 := 4
  /-- lost records are echoed on standard error -/
  errorWriter : Bool := true
  /-- whether records begin with their priority; by default exactly when a socket is configured -/
  syslogHeader : Option Bool := none
  /-- the modules stepped over in the search for the caller -/
  backtraceSkips : List String := []
  maxRecordSize : UInt64 := 131072
  /-- the greatest capacity of a buffer that is kept -/
  maxReusableBuffer : UInt64 := 16384
  /-- the host name in the records; by default the name of this host -/
  hostname : Option String := none
  backoff : Backoff := {}
  deriving DecidableEq, Repr, Inhabited

/-- what the records of a logger have in common -/
structure Layout where
  hostname : String
  service : String := ""
  /-- records begin with their priority -/
  header : Bool := false
  /-- the ceiling of a record, its priority included -/
  maxSize : Nat := defaultMaxRecordSize
  /-- the modules stepped over in the search for the caller -/
  skips : List String := []
  deriving DecidableEq, Repr

namespace Config

/-- a setting that cannot be used -/
inductive Flaw where
  | noWorker
  | noQueue
  | noBuffer
  | smallRecord (size : Nat)
  | noAttempt
  deriving DecidableEq, Repr

def Flaw.failure : Flaw → Failure
  | noWorker => .invalidConfiguration "LoggerConfig" "worker_count must be positive"
  | noQueue => .invalidConfiguration "LoggerConfig" "queue_capacity must be positive"
  | noBuffer => .invalidConfiguration "LoggerConfig" "buffer_size must be positive"
  | smallRecord size => .invalidConfiguration "LoggerConfig"
      ("max_record_size " ++ toString size ++ " is below the minimum of " ++ toString minRecordSize ++ " bytes")
  | noAttempt => .invalidConfiguration "backoff" "max_attempts must be positive"

def flaw? (c : Config) : Option Flaw :=
  if c.workerCount = 0 then some .noWorker
  else if c.queueCapacity = 0 then some .noQueue
  else if c.bufferSize = 0 then some .noBuffer
  else if c.maxRecordSize.toNat < minRecordSize then some (.smallRecord c.maxRecordSize.toNat)
  else if c.backoff.maxAttempts = 0 then some .noAttempt
  else none

/-- refuses a flawed configuration -/
def validate (c : Config) : Except Failure Unit :=
  match c.flaw? with
  | some f => .error f.failure
  | none => .ok ()

def hasSocket (c : Config) : Bool := !c.network.isEmpty && !c.address.isEmpty

/-- whether records begin with their priority -/
def header (c : Config) : Bool := c.syslogHeader.getD c.hasSocket

/-- what the records have in common, on a host with a given name -/
def layout (c : Config) (localName : String) : Layout :=
  ⟨c.hostname.getD localName, c.service, c.header, c.maxRecordSize.toNat, c.backtraceSkips⟩

/-! ## JSON -/

def record : Record Config :=
  ⟨"LoggerConfig",
    [⟨"service", fun t => t.asText.map fun v c => { c with service := v }⟩,
     ⟨"network", fun t => t.asText.map fun v c => { c with network := v }⟩,
     ⟨"address", fun t => t.asText.map fun v c => { c with address := v }⟩,
     ⟨"level", fun t => t.asSeverity.map fun v c => { c with level := v }⟩,
     ⟨"buffer_size", fun t => (t.asWord .size).map fun v c => { c with bufferSize := v }⟩,
     ⟨"queue_capacity", fun t => (t.asWord .size).map fun v c => { c with queueCapacity := v }⟩,
     ⟨"worker_count", fun t => (t.asWord .size).map fun v c => { c with workerCount := v }⟩,
     ⟨"error_writer", fun t => t.asBool.map fun v c => { c with errorWriter := v }⟩,
     ⟨"syslog_header", fun t => (t.asOption Tree.asBool).map fun v c => { c with syslogHeader := v }⟩,
     ⟨"backtrace_skips", fun t => (t.asList Tree.asText).map fun v c => { c with backtraceSkips := v }⟩,
     ⟨"max_record_size", fun t => (t.asWord .size).map fun v c => { c with maxRecordSize := v }⟩,
     ⟨"max_reusable_buffer", fun t => (t.asWord .size).map fun v c => { c with maxReusableBuffer := v }⟩,
     ⟨"hostname", fun t => (t.asOption Tree.asText).map fun v c => { c with hostname := v }⟩,
     ⟨"backoff", fun t => (Backoff.record.read {} t).map fun v c => { c with backoff := v }⟩]⟩

/-- a configuration from a JSON text; a flawed one is refused -/
def ofJson (s : List Char) : Except Failure Config :=
  match ofText (record.read {}) s with
  | .error r => .error (.json r)
  | .ok c => c.validate.map fun _ => c

def boolJson (b : Bool) : List Char := (if b then "true" else "false").toList

def optionJson {α : Type} (write : α → List Char) : Option α → List Char
  | some a => write a
  | none => "null".toList

/-- the settings by name, in their order, as JSON -/
def settings (c : Config) : List (String × List Char) :=
  let word (v : UInt64) : List Char := (toString v.toNat).toList
  let text (v : String) : List Char := quote v.toList
  [("service", text c.service), ("network", text c.network), ("address", text c.address),
   ("level", text c.level.name), ("buffer_size", word c.bufferSize), ("queue_capacity", word c.queueCapacity),
   ("worker_count", word c.workerCount), ("error_writer", boolJson c.errorWriter),
   ("syslog_header", optionJson boolJson c.syslogHeader),
   ("backtrace_skips", '[' :: [','].intercalate (c.backtraceSkips.map text) ++ [']']),
   ("max_record_size", word c.maxRecordSize), ("max_reusable_buffer", word c.maxReusableBuffer),
   ("hostname", optionJson text c.hostname), ("backoff", c.backoff.json)]

def json (c : Config) : List Char :=
  '{' :: [','].intercalate (c.settings.map fun (k, v) => quote k.toList ++ ':' :: v) ++ ['}']

end Config
end LogRelay
