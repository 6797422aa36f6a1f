/-
One gate for every way to log.

A call is due a record when it is about an access, or when its severity is at least the one in force (`Call.Due`).
Each way to log tests the threshold for itself, some twice, and one makes no test for an access. All the same,
whatever the way and whatever happened to the logger before, a call that is due a record hands in just that one, and
any other call leaves the loggers and their transports as they are.
- `Logger.call_eq`: every way comes down to `recordWith` with its single test, but for an access. So there are two
  things a call can do (`Logger.call_due`, `Logger.call_idle`; `log_due`, `log_idle`).
- `act_serves`, `acts_serves`: what an act, and a run of them, leave of a logger, and what they ask of its transport.
  The level set last is in force (`foldl_after`); neither the close of the logger nor what its transport does changes
  that.
- `log_message_eq`, `log_placed_eq`: the ways to log a message do not differ in what is handed in.
- `one_gate`: all of it, for the call after any run.
-/
import Mathlib.Tactic
import LogRelay.Proofs.Record.Ceiling
import LogRelay.Proofs.Registry.Move
import LogRelay.Proofs.Transport.Awaited
import LogRelay.Proofs.Transport.Shutdown

namespace LogRelay

/-! ## Calls -/

namespace Call

/-- whether a call is about an access -/
def isAccess : Call → Bool
  | operation o => o.isAccess
  | _ => false

def severity : Call → Severity
  | event s _ => s
  | payload s _ => s
  | message s _ _ _ _ => s
  | pieces s _ _ _ _ => s
  | plain s _ => s
  | placed s _ _ _ _ _ => s
  | operation o => o.severity

/-- whether a call is due a record when a severity is in force -/
def Due (c : Call) (level : Severity) : Prop := c.isAccess = true ∨ level.rank ≤ c.severity.rank

instance (c : Call) (level : Severity) : Decidable (c.Due level) := by
  unfold Due
  infer_instance

/-- what the record of a call at a moment is rendered from -/
def content (now : Timestamp) : Call → Content
  | event _ e => .event e
  | payload _ p => .payload p
  | message _ site span text data =>
    .event { message := text, timestamp := now, data := data, span := span, site := site }
  | pieces _ site span texts data =>
    .event { message := String.join texts, timestamp := now, data := data, span := span, site := site }
  | plain _ text => .event { message := text, timestamp := now }
  | placed _ module file line span texts =>
    .event { message := String.join texts, timestamp := now, span := span, site := .fixed module file line }
  | operation o => .event (o.event now)

/-- the record of a call at a moment, as it is handed in when `stack` is the stack at the call -/
def draft (c : Call) (l : Layout) (now : Timestamp) (stack : List Frame) : Draft :=
  .appended ((c.content now).parts l c.severity stack)

/-- what a call is told when the transport gives an answer: some calls are not told -/
def told : Call → Except Failure Unit → Except Failure Unit
  | plain _ _, _ => .ok ()
  | placed _ _ _ _ _ _, _ => .ok ()
  | _, answer => answer

theorem told_ok (c : Call) : c.told (.ok ()) = .ok () := by cases c <;> rfl

theorem told_access {c : Call} (h : c.isAccess = true) (answer : Except Failure Unit) : c.told answer = answer := by
  cases c with
  | operation o => rfl
  | _ => cases h

/-- an operation is as important as its level says, or as an access is -/
theorem severity_operation (o : Operation) : (operation o).severity =
    if o.isAccess then .info else (Severity.parse o.level).toOption.getD .debug := by
  simp only [severity, Operation.severity]
  cases Severity.parse o.level <;> rfl

end Call

def Content.record (l : Layout) (s : Severity) (stack : List Frame) : Content → Octets
  | event e => Record.render l s e stack
  | payload p => Text.octets (Record.cee s p)

theorem Content.flatten_parts (x : Content) (l : Layout) (s : Severity) (stack : List Frame) :
    (x.parts l s stack).flatten = x.record l s stack := by
  cases x with
  | event e => exact Record.flatten_parts l s e stack
  | payload p => exact Record.flatten_ceeParts s p

theorem Call.draft_text (c : Call) (l : Layout) (now : Timestamp) (stack : List Frame) :
    (c.draft l now stack).text = (c.content now).record l c.severity stack :=
  (c.content now).flatten_parts l c.severity stack

/-- where the caller is not looked for on the stack, the record does not depend on it -/
theorem Record.parts_stack {e : Event} (hsite : ∀ skip, e.site ≠ .stack skip) (l : Layout) (s : Severity)
    (stack stack' : List Frame) : Record.parts l s e stack = Record.parts l s e stack' := by
  have hresolve : e.site.resolve stack e.skips l.skips = e.site.resolve stack' e.skips l.skips := by
    cases hs : e.site with
    | absent => rfl
    | stack skip => exact absurd hs (hsite skip)
    | fixed module file line => rfl
  simp only [Record.parts, Record.writtenPieces, Record.fieldsOf, hresolve]

/-! ## The tests of the ways to log

Whether a test is made once or once more inside makes no difference, nor does it that an operation has a test of its
own. -/

namespace Logger

variable (l : Logger) (t : Transport)

theorem enabled_iff {s : Severity} : l.enabled s = true ↔ l.level.rank ≤ s.rank := by
  simp [enabled, level, Severity.Threshold.admits, Severity.atLeast]

variable (site : Site) (span : Span) (s : Severity) (data : Option Payload) (now : Timestamp) (stack : List Frame)

/-- the test of `log` is the one `recordWith` makes again -/
theorem log_eq (text : String) : l.log t site span s text data now stack =
    l.recordWith t s (.event (builtEvent site span text data now)) stack := by
  unfold log recordWith
  split_ifs <;> rfl

/-- it makes no difference that the pieces are put together behind the test -/
theorem logf_eq (texts : List String) : l.logf t site span s texts data now stack =
    l.log t site span s (String.join texts) data now stack := rfl

theorem logMessage_eq (text : String) : l.logMessage t s text now stack =
    (l.recordWith t s (.event { message := text, timestamp := now }) stack).2 := by
  unfold logMessage recordWith
  split_ifs <;> rfl

/-- an access is handed in at once; the test of any other operation is the one `recordWith` makes -/
theorem collect_eq (o : Operation) : l.collect t o now stack =
    if o.isAccess then t.submit ((Call.operation o).draft l.layout now stack)
    else l.recordWith t o.severity (.event (o.event now)) stack := by
  unfold collect recordWith
  cases o.isAccess <;> rfl

/-- **Every way to log but for an access comes down to `recordWith`**, whose answer some keep to themselves -/
theorem call_eq (c : Call) : l.call t c now stack =
    if c.isAccess then t.submit (c.draft l.layout now stack)
    else
      let r := l.recordWith t c.severity (c.content now) stack
      (c.told r.1, r.2) := by
  cases c with
  | event s e => rfl
  | payload s p => rfl
  | message s site span text data => exact log_eq l t site span s data now stack text
  | pieces s site span texts data =>
    rw [call, logf_eq]
    exact log_eq l t site span s data now stack (String.join texts)
  | plain s text =>
    rw [call, logMessage_eq]
    rfl
  | placed s module file line span texts =>
    rw [call, logPlaced, logf_eq, log_eq]
    rfl
  | operation o => exact collect_eq l t now stack o

/-- a message whose place is known or absent is the same from whatever stack -/
theorem recordWith_stack {e : Event} (hsite : ∀ skip, e.site ≠ .stack skip) (stack stack' : List Frame) :
    l.recordWith t s (.event e) stack = l.recordWith t s (.event e) stack' := by
  simp only [recordWith, Content.parts, Record.parts_stack hsite l.layout s stack stack']

variable {l}

theorem recordWith_due (h : l.level.rank ≤ s.rank) (x : Content) :
    l.recordWith t s x stack = t.submit (.appended (x.parts l.layout s stack)) := by
  simp [recordWith, l.enabled_iff.2 h]

theorem recordWith_idle (h : ¬ l.level.rank ≤ s.rank) (x : Content) : l.recordWith t s x stack = (.ok (), t) := by
  have hno : l.enabled s = false := Bool.eq_false_iff.2 fun hyes => h (l.enabled_iff.1 hyes)
  simp [recordWith, hno]

variable {c : Call}

/-- a call that is due a record hands it in, whatever its way -/
theorem call_due (h : c.Due l.level) : l.call t c now stack =
    (c.told (t.submit (c.draft l.layout now stack)).1, (t.submit (c.draft l.layout now stack)).2) := by
  rw [call_eq]
  by_cases haccess : c.isAccess = true
  · rw [if_pos haccess, Call.told_access haccess]
  · rw [if_neg haccess, recordWith_due t _ stack (h.resolve_left haccess)]
    rfl

/-- a call that is due none leaves the transport as it is -/
theorem call_idle (h : ¬ c.Due l.level) : l.call t c now stack = (.ok (), t) := by
  obtain ⟨haccess, hrank⟩ := not_or.1 h
  rw [call_eq, if_neg haccess, recordWith_idle t _ stack hrank]
  exact congrArg (·, t) c.told_ok

end Logger

/-! ## The count of records -/

namespace Transport

theorem submit_count (t : Transport) (d : Draft) : (t.submit d).2.pool.count = t.pool.count + 1 := by
  rw [submit_eq]
  cases t.refusal? (t.incoming d).buffer.capacity with
  | some f => exact refused_count t d f
  | none => simp [joined, prepared, report, Pool.observe, get_count]

/-- the pool counts the records handed in, and nothing else -/
theorem step_count (t : Transport) (op : Op) : (t.step op).pool.count = t.pool.count + (drafts [op]).length := by
  cases op with
  | submit d => exact submit_count t d
  | take w =>
    simp only [step, take]
    split <;> rfl
  | finish w answer =>
    simp only [step, finish]
    split
    · exact finished_count t w _ answer
    · rfl
  | panic w =>
    simp only [step, panic]
    split <;> rfl
  | leave w =>
    simp only [step, leave]
    split
    · split_ifs <;> rfl
    · rfl
  | close => rfl

theorem run_count (t : Transport) (ops : List Op) : (t.run ops).pool.count = t.pool.count + (drafts ops).length := by
  induction ops generalizing t with
  | nil => rfl
  | cons op ops ih =>
    have happend : drafts (op :: ops) = drafts [op] ++ drafts ops := drafts_append [op] ops
    calc (t.run (op :: ops)).pool.count = ((t.step op).run ops).pool.count := by rw [run_cons]
      _ = (t.step op).pool.count + (drafts ops).length := ih _
      _ = t.pool.count + (drafts [op]).length + (drafts ops).length := by rw [step_count]
      _ = t.pool.count + (drafts (op :: ops)).length := by rw [happend, List.length_append, Nat.add_assoc]

end Transport

/-! ## Runs -/

namespace Registry

inductive Act where
  | setLevel (s : Severity)
  | call (c : Call) (now : Timestamp) (stack : List Frame)
  | close
  /-- a step of its transport, whoever asks for it -/
  | beside (op : Transport.Op)

def act (r : Registry) (i : Nat) : Act → Registry
  | .setLevel s => r.setLevel i s
  | .call c now stack => (r.log i c now stack).2
  | .close => r.close i
  | .beside op =>
    match r.transportOf? i with
    | some (n, t) => r.setTransport n (t.step op)
    | none => r

def acts (r : Registry) (i : Nat) (as : List Act) : Registry := as.foldl (fun r a => r.act i a) r

/-- the severity in force after an act -/
def Act.inForce (level : Severity) : Act → Severity
  | setLevel s => s
  | _ => level

/-- the severity in force after a run: the one set last -/
def inForce (level : Severity) (as : List Act) : Severity := as.foldl Act.inForce level

def Act.after (l : Logger) : Act → Logger
  | setLevel s => l.setLevel s
  | close => { l with closed := true }
  | _ => l

/-- what an act asks of the transport of a logger -/
def Act.asks (l : Logger) : Act → List Transport.Op
  | setLevel _ => []
  | call c now stack => if c.Due l.level then [.submit (c.draft l.layout now stack)] else []
  | close => if l.closed then [] else [.close]
  | beside op => [op]

/-- what a run asks of it -/
def asked (l : Logger) : List Act → List Transport.Op
  | [] => []
  | a :: as => a.asks l ++ asked (a.after l) as

/-- a logger and its transport -/
structure Serves (r : Registry) (i : Nat) (l : Logger) (t : Transport) : Prop where
  logger : r.loggers[i]? = some l
  transport : r.transports[l.transport]? = some t

section

variable {r : Registry} {i : Nat} {l : Logger} {t : Transport}

theorem Serves.transportOf? (h : Serves r i l t) : r.transportOf? i = some (l.transport, t) :=
  Transport.transportOf?_eq_some.2 ⟨l, h.logger, rfl, h.transport⟩

theorem Serves.setTransport (h : Serves r i l t) (u : Transport) : Serves (r.setTransport l.transport u) i l u where
  logger := h.logger
  transport := List.getElem?_set_self (List.getElem?_eq_some_iff.1 h.transport).1

theorem log_due (h : Serves r i l t) {c : Call} (hc : c.Due l.level) (now : Timestamp) (stack : List Frame) :
    r.log i c now stack = (c.told (t.submit (c.draft l.layout now stack)).1,
      r.setTransport l.transport (t.submit (c.draft l.layout now stack)).2) := by
  simp only [log, h.logger, h.transportOf?, Logger.call_due t now stack hc]

/-- the transport that is put back is the one that was there -/
theorem log_idle (h : Serves r i l t) {c : Call} (hc : ¬ c.Due l.level) (now : Timestamp) (stack : List Frame) :
    r.log i c now stack = (.ok (), r) := by
  have hsame : r.setTransport l.transport t = r := by
    obtain ⟨hlt, rfl⟩ := List.getElem?_eq_some_iff.1 h.transport
    rw [setTransport, List.set_getElem_self]
  simp only [log, h.logger, h.transportOf?, Logger.call_idle t now stack hc, hsame]

theorem act_serves (h : Serves r i l t) (a : Act) : Serves (r.act i a) i (a.after l) (t.run (a.asks l)) := by
  have hlt : i < r.loggers.length := (List.getElem?_eq_some_iff.1 h.logger).1
  cases a with
  | setLevel s =>
    simp only [act, setLevel, h.logger]
    exact ⟨List.getElem?_set_self hlt, h.transport⟩
  | call c now stack =>
    by_cases hc : c.Due l.level
    · simp only [act, log_due h hc, Act.asks, if_pos hc]
      exact h.setTransport _
    · simp only [act, log_idle h hc, Act.asks, if_neg hc]
      exact h
  | close =>
    cases hclosed : l.closed with
    | true =>
      have hidle : r.close i = r := close_idle fun l' hl' => by
        rw [h.logger] at hl'
        cases hl'
        exact hclosed
      have hsame : ({ l with closed := true } : Logger) = l := by rw [← hclosed]
      simp only [act, hidle, Act.asks, hclosed, if_true, Act.after, hsame]
      exact h
    | false =>
      simp only [act, close_letGo h.logger hclosed, Act.asks, hclosed, Act.after]
      refine ⟨?_, ?_⟩
      · rw [letGo_loggers]
        exact List.getElem?_set_self hlt
      · rw [letGo_transports, List.getElem?_modify]
        simp [h.transport, Transport.run, Transport.step]
  | beside op =>
    simp only [act, h.transportOf?]
    exact h.setTransport _

theorem acts_serves (h : Serves r i l t) (as : List Act) :
    Serves (r.acts i as) i (as.foldl Act.after l) (t.run (asked l as)) := by
  induction as generalizing r l t with
  | nil => exact h
  | cons a as ih =>
    have hrun : (t.run (a.asks l)).run (asked (a.after l) as) = t.run (asked l (a :: as)) := by
      rw [asked, Transport.run, Transport.run, Transport.run, List.foldl_append]
    rw [← hrun]
    exact ih (act_serves h a)

end

theorem after_level (a : Act) (l : Logger) : (a.after l).level = a.inForce l.level := by
  cases a with
  | setLevel s => exact Severity.Threshold.level_of s
  | _ => rfl

theorem after_kept (a : Act) (l : Logger) : (a.after l).layout = l.layout ∧ (a.after l).transport = l.transport := by
  cases a <;> exact ⟨rfl, rfl⟩

/-- a run leaves a logger its layout and its transport, and what was set last is in force -/
theorem foldl_after (as : List Act) (l : Logger) : (as.foldl Act.after l).level = inForce l.level as ∧
    (as.foldl Act.after l).layout = l.layout ∧ (as.foldl Act.after l).transport = l.transport := by
  induction as generalizing l with
  | nil => exact ⟨rfl, rfl, rfl⟩
  | cons a as ih =>
    obtain ⟨hlevel, hlayout, htransport⟩ := ih (a.after l)
    obtain ⟨hkept, hkept'⟩ := after_kept a l
    rw [after_level] at hlevel
    exact ⟨hlevel, hlayout.trans hkept, htransport.trans hkept'⟩

/-! ## The ways to log -/

section

variable (r : Registry) (i : Nat) (s : Severity) (span : Span) (texts : List String) (now : Timestamp)
  (stack stack' : List Frame)

/-- a message is the same whether it comes whole or in pieces, from whatever stack, when its place is known or absent -/
theorem log_message_eq {site : Site} (hsite : ∀ skip, site ≠ .stack skip) (data : Option Payload) :
    r.log i (.message s site span (String.join texts) data) now stack =
      r.log i (.pieces s site span texts data) now stack' := by
  have hcall : ∀ (l : Logger) (t : Transport), l.call t (.message s site span (String.join texts) data) now stack =
      l.call t (.pieces s site span texts data) now stack' := by
    intro l t
    rw [Logger.call, Logger.call, Logger.logf_eq, Logger.log_eq, Logger.log_eq]
    exact Logger.recordWith_stack l t s hsite stack stack'
  simp only [log, hcall]

/-- what is logged at a fixed place, too, but for the answer -/
theorem log_placed_eq (module file : String) (line : Nat) :
    r.log i (.placed s module file line span texts) now stack =
      (.ok (), (r.log i (.pieces s (.fixed module file line) span texts none) now stack').2) := by
  have hsite : ∀ skip, Site.fixed module file line ≠ .stack skip := fun skip hskip => by cases hskip
  rw [← log_message_eq r i s span texts now stack stack' hsite none]
  unfold log
  cases r.loggers[i]? with
  | none => rfl
  | some l =>
    cases r.transportOf? i with
    | none => rfl
    | some p => rfl

end

/-! ## Main result -/

/-- **One gate.** Let anything happen to a logger: levels set, calls, its close, and whatever its transport does
meanwhile. Its transport was asked for the records of the calls that were due one when they came, and counts one for
each. If the next call is due a record at the level set last, that record is handed in, and counted once; the empty
buffer it is put into becomes what appending the parts one by one makes of it. If not, the call answers that all is
well and changes nothing. An operation has the severity its level names, `debug` when it names none; an access is due
a record always, with the severity `info`. A message whose place is known or absent comes to the same, whether it is
given whole, in pieces, or at a place fixed when the program was built, whatever the stack; the last of these keeps
the answer to itself. -/
theorem one_gate {r : Registry} {i : Nat} {l : Logger} {t : Transport} (h : Serves r i l t) (as : List Act) (c : Call)
    (now : Timestamp) (stack : List Frame) :
    let r' := r.acts i as
    let level := inForce l.level as
    let t' := t.run (asked l as)
    let d := c.draft l.layout now stack
    (r'.transportOf? i = some (l.transport, t') ∧
      t'.pool.count = t.pool.count + (Transport.drafts (asked l as)).length) ∧
    (c.Due level → r'.log i c now stack = (c.told (t'.submit d).1, r'.setTransport l.transport (t'.submit d).2) ∧
      (t'.submit d).2.pool.count = t'.pool.count + 1 ∧ d.text = (c.content now).record l.layout c.severity stack ∧
      ∀ room, d.fill ⟨[], room⟩ =
        ((c.content now).parts l.layout c.severity stack).foldl Buffer.append ⟨[], room⟩) ∧
    (¬ c.Due level → r'.log i c now stack = (.ok (), r')) ∧
    (∀ o : Operation, (Call.operation o).severity =
        (if o.isAccess then .info else (Severity.parse o.level).toOption.getD .debug) ∧
      (o.isAccess = true → (Call.operation o).Due level ∧
        ((Call.operation o).draft l.layout now stack).text = Record.render l.layout .info (o.event now) stack)) ∧
    (∀ (s : Severity) (site : Site) (span : Span) (texts : List String) (data : Option Payload) (stack' : List Frame),
      (∀ skip, site ≠ .stack skip) →
        r'.log i (.message s site span (String.join texts) data) now stack =
          r'.log i (.pieces s site span texts data) now stack') ∧
    ∀ (s : Severity) (module file : String) (line : Nat) (span : Span) (texts : List String) (stack' : List Frame),
      r'.log i (.placed s module file line span texts) now stack =
        (.ok (), (r'.log i (.pieces s (.fixed module file line) span texts none) now stack').2) := by
  intro r' level t' d
  have hserves := acts_serves h as
  obtain ⟨hlevel, hlayout, htransport⟩ := foldl_after as l
  refine ⟨⟨?_, ?_⟩, ?_, ?_, ?_, ?_, ?_⟩
  · rw [← htransport]
    exact hserves.transportOf?
  · exact Transport.run_count t (asked l as)
  · intro hc
    have hdue : c.Due (as.foldl Act.after l).level := by rwa [hlevel]
    refine ⟨?_, Transport.submit_count t' d, c.draft_text l.layout now stack, ?_⟩
    · have hlog := log_due hserves hdue now stack
      rwa [hlayout, htransport] at hlog
    · exact Draft.fill_appended _
  · intro hc
    have hidle : ¬ c.Due (as.foldl Act.after l).level := by rwa [hlevel]
    exact log_idle hserves hidle now stack
  · intro o
    refine ⟨Call.severity_operation o, ?_⟩
    intro ho
    have hinfo : (Call.operation o).severity = .info := by rw [Call.severity_operation, if_pos ho]
    refine ⟨Or.inl ho, ?_⟩
    rw [Call.draft_text, hinfo]
    rfl
  · intro s site span texts data stack' hsite
    exact log_message_eq r' i s span texts now stack stack' hsite data
  · intro s module file line span texts stack'
    exact log_placed_eq r' i s span texts now stack stack' module file line

/-- the threshold of `relay` is raised, a warning does not pass, it is closed, and the threshold is lowered again -/
def lowered : List Act :=
  [.setLevel .error, .call (.plain .warning "disk low") ⟨0, 0⟩ [], .close, .setLevel .warning]

/-- after `lowered` a notice leaves everything as it is, and an access is handed in, the first record of all -/
theorem one_gate_lowered :
    Serves relay 0 (.ofConfig {} "relay" 0 none) (.start (.ofConfig {})) ∧
      (relay.acts 0 lowered).log 0 (.plain .notice "skipped") ⟨0, 0⟩ [] = (.ok (), relay.acts 0 lowered) ∧
      ∃ (t : Transport) (d : Draft), t.pool.count = 0 ∧ (t.submit d).2.pool.count = 1 ∧
        (relay.acts 0 lowered).log 0 (.operation { isAccess := true }) ⟨0, 0⟩ [] =
          ((t.submit d).1, (relay.acts 0 lowered).setTransport 0 (t.submit d).2) := by
  have hserves : Serves relay 0 (.ofConfig {} "relay" 0 none) (.start (.ofConfig {})) := ⟨rfl, rfl⟩
  obtain ⟨-, -, hidle, -⟩ := one_gate hserves lowered (.plain .notice "skipped") ⟨0, 0⟩ []
  obtain ⟨⟨-, hcount⟩, hdue, -⟩ := one_gate hserves lowered (.operation { isAccess := true }) ⟨0, 0⟩ []
  obtain ⟨hlog, hnext, -⟩ := hdue (by decide)
  have hnone : (Transport.drafts (asked (.ofConfig {} "relay" 0 none) lowered)).length = 0 := by decide
  rw [hnone] at hcount
  refine ⟨hserves, hidle (by decide), _, _, hcount, ?_, hlog⟩
  rw [hnext, hcount]
  rfl

end Registry
end LogRelay
