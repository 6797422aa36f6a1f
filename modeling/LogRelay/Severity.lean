/-
The eight severities of syslog, from debug to emergency.

They are ordered by importance (`rank`); the syslog code runs the other way, and the priority of a record adds the
code to eight times the facility. A name is read without regard to case, where case is Unicode's full upper case; a
text that names no severity is refused, and the refusal carries the text.
-/
import LogRelay.Text.Upper

namespace LogRelay

/-- how important a record is -/
inductive Severity where
  | debug
  | info
  | notice
  | warning
  | error
  | critical
  | alert
  | emergency
  deriving DecidableEq, Repr, Inhabited

namespace Severity

/-- every severity, the least important first -/
def all : List Severity := [debug, info, notice, warning, error, critical, alert, emergency]

def rank : Severity → Nat
  | debug => 0
  | info => 1
  | notice => 2
  | warning => 3
  | error => 4
  | critical => 5
  | alert => 6
  | emergency => 7

def ofRank? (n : Nat) : Option Severity := all[n]?

def name : Severity → String
  | debug => "DEBUG"
  | info => "INFO"
  | notice => "NOTICE"
  | warning => "WARNING"
  | error => "ERROR"
  | critical => "CRITICAL"
  | alert => "ALERT"
  | emergency => "EMERGENCY"

/-- the name in lower case with a capital, as a description of a logger has it -/
def label : Severity → String
  | debug => "Debug"
  | info => "Info"
  | notice => "Notice"
  | warning => "Warning"
  | error => "Error"
  | critical => "Critical"
  | alert => "Alert"
  | emergency => "Emergency"

/-- the syslog code: zero is the most important -/
def code (s : Severity) : Nat := 7 - s.rank

def ofCode? (n : Nat) : Option Severity := if n > 7 then none else ofRank? (7 - n)

/-- the syslog facility of every record, local use 2 -/
def facility : Nat := 18

/-- the syslog priority: facility and code in one number -/
def priority (s : Severity) : Nat := facility * 8 + s.code

def atLeast (s t : Severity) : Bool := t.rank ≤ s.rank

/-- which of two severities is less important -/
def order (s t : Severity) : Ordering := compare s.rank t.rank

/-- a text that names no severity -/
structure Unknown where
  text : String
  deriving DecidableEq, Repr

/-- what is said of a text that names no severity -/
def Unknown.message (u : Unknown) : String := "Invalid severity: '" ++ u.text ++ "'"

/-- the severity whose name is the upper case of a text -/
def parse (s : String) : Except Unknown Severity :=
  match all.find? fun v => s.toList.flatMap Text.upper = v.name.toList with
  | some v => .ok v
  | none => .error ⟨s⟩

theorem ofRank?_rank (s : Severity) : ofRank? s.rank = some s := by cases s <;> rfl

theorem ofCode?_code (s : Severity) : ofCode? s.code = some s := by cases s <;> rfl

/-- a threshold kept as the rank of a severity, replaced whole -/
structure Threshold where
  ordinal : UInt8
  deriving DecidableEq, Repr

namespace Threshold

def of (s : Severity) : Threshold := ⟨s.rank.toUInt8⟩

/-- the severity in force; an ordinal that is no rank counts as debug -/
def level (t : Threshold) : Severity := (ofRank? t.ordinal.toNat).getD .debug

def admits (t : Threshold) (s : Severity) : Bool := s.atLeast t.level

@[simp] theorem level_of (s : Severity) : (Threshold.of s).level = s := by cases s <;> rfl

end Threshold
end Severity
end LogRelay
