import Patchwright.Core.Domain

/-!
# Durable jobs and task checkpoints

A job moves along its own edges, and its generation counts the moves.  A
checkpoint records a state a task has durably reached.  Summaries are bounded
single lines without anything that looks like a credential.
-/

namespace Patchwright

open Checked

structure JobId where
  uuid : Uuid
  deriving DecidableEq, Repr

inductive JobKind where
  | gitHubSync
  | taskExecution
  | gitHubDelivery
  | merge
  deriving DecidableEq, Repr

inductive JobState where
  | queued
  | running
  | cancelling
  | cancelled
  | succeeded
  | failed
  | interrupted
  deriving DecidableEq, Repr

def JobState.permits : JobState → JobState → Bool
  | queued, running | queued, cancelled | queued, failed => true
  | running, cancelling | running, succeeded | running, failed | running, interrupted => true
  | cancelling, cancelled | cancelling, succeeded | cancelling, failed
  | cancelling, interrupted => true
  | interrupted, queued | interrupted, cancelled | interrupted, failed => true
  | _, _ => false

def JobState.isTerminal : JobState → Bool
  | cancelled | succeeded | failed => true
  | _ => false

/-- The name of a state in a message. -/
def JobState.debug : JobState → String
  | queued => "Queued"
  | running => "Running"
  | cancelling => "Cancelling"
  | cancelled => "Cancelled"
  | succeeded => "Succeeded"
  | failed => "Failed"
  | interrupted => "Interrupted"

inductive CancellationState where
  | notRequested
  | requested
  | acknowledged
  deriving DecidableEq, Repr

structure JobCheckpoint where
  sequence : Nat
  kind : String
  summary : String
  recordedAt : DateTime
  deriving DecidableEq, Repr

structure Job where
  id : JobId
  kind : JobKind
  taskId : Option TaskId
  state : JobState
  cancellation : CancellationState
  summary : String
  checkpoint : Option JobCheckpoint
  createdAt : DateTime
  updatedAt : DateTime
  generation : Nat
  deriving DecidableEq, Repr

inductive JobError where
  | invalidMetadata (field : String)
  deriving DecidableEq, Repr

def JobError.message : JobError → String
  | invalidMetadata field => "invalid " ++ field

def credentialMarkers : List String :=
  ["bearer ", "gho_", "ghp_", "github_pat_", "token=", "-----begin"]

def validateSummary (value : String) : Except JobError String := do
  let value := trim value
  ensure (¬ (value = "" ∨ value.utf8ByteSize > 256 ∨
      value.toList.any (fun char => char == '\n' || char == '\r' || char == '\x00') ∨
      containsMarker value credentialMarkers))
    (.invalidMetadata "summary")
  return value

section Summaries

/-- A text that a summary may hold, up to a number of bytes. -/
structure IsPlain (limit : Nat) (text : String) : Prop where
  size_le : text.utf8ByteSize ≤ limit
  no_break : text.toList.any (fun char => char == '\n' || char == '\r' || char == '\x00') = false
  no_marker : containsMarker text credentialMarkers = false

theorem validateSummary_of_isPlain {value : String} (hplain : IsPlain 256 value)
    (hne : value ≠ "") (htrim : trim value = value) : validateSummary value = .ok value := by
  simp only [validateSummary, htrim, bind_eq_ok, ensure_eq_ok, pure_eq_ok, and_true]
  refine ⟨(), ?_⟩
  rintro (hempty | hsize | hbreak | hmarker)
  · exact hne hempty
  · exact absurd hplain.size_le (Nat.not_le_of_lt hsize)
  · exact absurd hbreak (Bool.eq_false_iff.mp hplain.no_break)
  · exact absurd hmarker (Bool.eq_false_iff.mp hplain.no_marker)

theorem IsPlain.mono {limit larger : Nat} {text : String} (hplain : IsPlain limit text)
    (hle : limit ≤ larger) : IsPlain larger text :=
  { hplain with size_le := hplain.size_le.trans hle }

/-- A count of the machine between two texts. -/
theorem IsPlain.decimal {first second : Nat} {left right : String} (hleft : IsPlain first left)
    (hright : IsPlain second right) (count : UInt64) :
    IsPlain (first + (80 + second)) (left ++ (toString count.toNat ++ right)) where
  size_le := by
    have hcount := utf8ByteSize_decimal_le 20 (by decide)
      (count.toNat_lt.trans (by decide))
    rw [String.utf8ByteSize_append, String.utf8ByteSize_append]
    exact Nat.add_le_add hleft.size_le (Nat.add_le_add hcount hright.size_le)
  no_break := by
    have hcount : (toString count.toNat).toList.any
        (fun char => char == '\n' || char == '\r' || char == '\x00') = false := by
      rw [Nat.toString_eq_repr, Nat.toList_repr, List.any_eq_false]
      intro char hchar hbreak
      have hdigit := toDigits_isDigit _ char hchar
      simp only [Bool.or_eq_true, beq_iff_eq] at hbreak
      rcases hbreak with (rfl | rfl) | rfl <;> exact absurd hdigit (by decide)
    rw [String.toList_append, String.toList_append, List.any_append, List.any_append,
      hleft.no_break, hcount, hright.no_break]
    rfl
  no_marker := by
    rw [containsMarker_decimal rfl, hleft.no_marker, hright.no_marker]
    rfl

end Summaries

/-- A queued job.  The identifier is the random one the source draws. -/
def Job.new (id : JobId) (now : DateTime) (kind : JobKind) (taskId : Option TaskId)
    (summary : String) : Except JobError Job := do
  let summary ← validateSummary summary
  return {
    id, kind, taskId, state := .queued, cancellation := .notRequested, summary,
    checkpoint := none, createdAt := now, updatedAt := now, generation := 0 }

structure TaskCheckpoint where
  id : Uuid
  taskId : TaskId
  state : TaskState
  summary : String
  occurredAt : DateTime
  deriving DecidableEq, Repr

def TaskCheckpoint.new (id : Uuid) (now : DateTime) (taskId : TaskId) (state : TaskState)
    (summary : String) : Except JobError TaskCheckpoint := do
  let summary ← validateSummary summary
  return { id, taskId, state, summary, occurredAt := now }

end Patchwright
