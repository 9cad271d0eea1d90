import Patchwright.Library.Runs
import Patchwright.Engine.History

/-!
# Verification runs

A verification submits its task, inspects the worktree, runs the commands of
the contract one after the other and looks again before it makes the task ready
for delivery.  The store is held for the submission, for the evidence of each
command and for the last step; any number of verifications and the rest of the
engine take turns in between.

A note is kept of every run beside the source.  It names what the run was
started on and, once the run has made its task ready, what was found then.
-/

namespace Patchwright

open Checked Runs

/-- What came of starting a command. -/
inductive CommandOutcome where
  | unresolved (error : String)
  | aborted (error : String)
  | output (success : Bool) (exitCode : Option Int) (stdoutSha256 : String) (stdoutBytes : Nat)
      (stderrSha256 : String) (stderrBytes : Nat)

def CommandOutcome.success : CommandOutcome → Bool
  | .output success .. => success
  | _ => false

/-- The kind of an error of the command runner. -/
def runnerFailureKind (error : String) : String :=
  if "timed out".toList <:+: error.toList then "timeout"
  else if "byte limit".toList <:+: error.toList then "outputLimit"
  else "runnerError"

section Evidence

variable [Sha256]

def commandDigest (command : VerificationCommand) : String :=
  sha256Hex (Json.arr [.str command.program, .arr (command.args.map .str)]).compact

def failedEvidence (runId : Uuid) (taskId : TaskId) (ordinal : Nat)
    (command : VerificationCommand) (startedAt completedAt : DateTime) (failureKind error : String) :
    VerificationEvidence where
  runId := runId
  taskId := taskId
  ordinal := ordinal
  commandSha256 := commandDigest command
  program := command.program
  success := false
  exitCode := none
  stdoutSha256 := sha256Hex ""
  stdoutBytes := 0
  stderrSha256 := sha256Hex error
  stderrBytes := error.utf8ByteSize
  failureKind := some failureKind
  startedAt := startedAt
  completedAt := completedAt

def commandEvidence (runId : Uuid) (taskId : TaskId) (ordinal : Nat)
    (command : VerificationCommand) (startedAt completedAt : DateTime) :
    CommandOutcome → VerificationEvidence
  | .unresolved error =>
      failedEvidence runId taskId ordinal command startedAt completedAt "executableResolution" error
  | .aborted error =>
      failedEvidence runId taskId ordinal command startedAt completedAt (runnerFailureKind error)
        error
  | .output success exitCode stdoutSha256 stdoutBytes stderrSha256 stderrBytes => {
      runId, taskId, ordinal, commandSha256 := commandDigest command, program := command.program
      success, exitCode, stdoutSha256, stdoutBytes, stderrSha256, stderrBytes
      failureKind := if success then none else some "nonzeroExit"
      startedAt, completedAt }

end Evidence

/-- A run between its commands. -/
structure VerifyRun where
  task : Task
  commands : List VerificationCommand
  before : Inspection
  runId : Uuid
  done : Nat
  deriving DecidableEq

inductive VerifyCall where
  | submitted (task : Task) (contract : TaskContract)
  | running (run : VerifyRun)
  deriving DecidableEq

/-- What a run that has made its task ready found last: the worktree after the
commands, and the row it moved. -/
structure Verdict where
  after : Inspection
  row : Option Task
  deriving DecidableEq

structure VerifyNote where
  task : Task
  commands : List VerificationCommand
  before : Inspection
  verdict : Option Verdict
  deriving DecidableEq

def VerifyRun.note (run : VerifyRun) (verdict : Option Verdict) : VerifyNote :=
  ⟨run.task, run.commands, run.before, verdict⟩

/-- The verifications of an engine. -/
structure Verifications where
  store : EventStore
  calls : Table Nat VerifyCall
  notes : Table Uuid VerifyNote

def Verifications.opened (store : EventStore) : Verifications := ⟨store, ∅, ∅⟩

inductive VerifyEvent where
  | submit (ambient : Ambient) (call : Nat) (taskId : TaskId)
  | inspect (call : Nat) (before : Except String Inspection) (runId : Uuid)
  | command (call : Nat) (startedAt completedAt : DateTime) (outcome : CommandOutcome)
  | finish (ambient : Ambient) (call : Nat) (after : Except String Inspection)
      (checkpointId : Uuid)
  | elsewhere (store : EventStore)
  | restart (now : DateTime)

namespace Verifications

def endCall (state : Verifications) (call : Nat) : Verifications :=
  { state with calls := state.calls.erase call }

def putCall (state : Verifications) (call : Nat) (place : VerifyCall) : Verifications :=
  { state with calls := state.calls.insert call place }

def putNote (state : Verifications) (runId : Uuid) (note : VerifyNote) : Verifications :=
  { state with notes := state.notes.insert runId note }

end Verifications

section Steps

variable [Sha256]

/-- The evidence of the next command of a run, and the run after it. -/
def runCommand (store : EventStore) (run : VerifyRun) (command : VerificationCommand)
    (startedAt completedAt : DateTime) (outcome : CommandOutcome) :
    Except String (EventStore × Option VerifyRun) := do
  ensure (run.done + 1 < 2 ^ 32) "too many commands"
  let evidence := commandEvidence run.runId run.task.id (run.done + 1) command startedAt completedAt
    outcome
  let store ← store.saveVerificationEvidence evidence
  return (store, if evidence.success then some { run with done := run.done + 1 } else none)

/-- The last hold of a run whose commands have all passed. -/
def finishRun (ambient : Ambient) (store : EventStore) (run : VerifyRun)
    (after : Except String Inspection) (checkpointId : Uuid) :
    Except String (EventStore × Verdict) := do
  let found ← after
  VerificationRun.check ⟨.ok run.before, true, after⟩
  let next ← verifyFinish ambient store run.task checkpointId
  return (next, ⟨found, store.loadTask run.task.id⟩)

/-- One step of a verification or of the rest of the engine, which leaves the
evidence alone. -/
def verifyStep (state : Verifications) : VerifyEvent → Option Verifications
  | .submit ambient call taskId =>
      if state.calls.lookup call = none then
        let held := verifyBegin ambient state.store taskId
        let submitted := { state with store := held.1 }
        match held.2 with
        | .ok (some (task, contract)) => some (submitted.putCall call (.submitted task contract))
        | _ => some submitted
      else none
  | .inspect call before runId =>
      match state.calls.lookup call with
      | some (.submitted task contract) =>
          match before with
          | .error _ => some (state.endCall call)
          | .ok before =>
              if before.dirty then some (state.endCall call)
              else if state.notes.lookup runId = none ∧ state.store.evidenceOf runId = [] then
                let run : VerifyRun := ⟨task, contract.verificationCommands, before, runId, 0⟩
                some ((state.putCall call (.running run)).putNote runId (run.note none))
              else none
      | _ => none
  | .command call startedAt completedAt outcome =>
      match state.calls.lookup call with
      | some (.running run) =>
          match run.commands[run.done]? with
          | some command =>
              match runCommand state.store run command startedAt completedAt outcome with
              | .ok (store, some run) => some ({ state with store }.putCall call (.running run))
              | .ok (store, none) => some ({ state with store }.endCall call)
              | .error _ => some (state.endCall call)
          | none => none
      | _ => none
  | .finish ambient call after checkpointId =>
      match state.calls.lookup call with
      | some (.running run) =>
          if run.done = run.commands.length then
            match finishRun ambient state.store run after checkpointId with
            | .ok (store, verdict) =>
                some (({ state with store }.endCall call).putNote run.runId
                  (run.note (some verdict)))
            | .error _ => some (state.endCall call)
          else none
      | _ => none
  | .elsewhere store =>
      if store.verificationEvidence = state.store.verificationEvidence then
        some { state with store }
      else none
  | .restart now => some { state with store := state.store.reopen now, calls := ∅ }

end Steps

/-! ### What the evidence of a run says -/

section Justified

variable [Sha256]

/-- What evidence is evidence of. -/
def VerificationEvidence.label (evidence : VerificationEvidence) : Nat × TaskId × String × String :=
  (evidence.ordinal, evidence.taskId, evidence.program, evidence.commandSha256)

/-- The labels of the evidence of all commands, in the order of the contract and
counted from one. -/
def commandLabels (taskId : TaskId) (commands : List VerificationCommand) :
    List (Nat × TaskId × String × String) :=
  (commands.zipIdx 1).map fun (command, ordinal) =>
    (ordinal, taskId, command.program, commandDigest command)

/-- The stored evidence is about the first commands of the run, and all but the
last of them have passed. -/
structure Recorded (taskId : TaskId) (commands : List VerificationCommand)
    (evidence : List VerificationEvidence) : Prop where
  length_le : evidence.length ≤ commands.length
  labels : evidence.map VerificationEvidence.label =
    (commandLabels taskId commands).take evidence.length
  passed : ∀ earlier ∈ evidence.dropLast, earlier.success

/-- A run that has made its task ready has run all commands, each has passed,
the worktree was clean and at one commit, and the row was the one the run was
started on. -/
structure VerifyNote.Justifies (note : VerifyNote) (evidence : List VerificationEvidence)
    (verdict : Verdict) : Prop where
  complete : evidence.map VerificationEvidence.label = commandLabels note.task.id note.commands
  passed : ∀ each ∈ evidence, each.success
  clean : note.before.dirty = false ∧ verdict.after.dirty = false
  sameHead : verdict.after.headSha = note.before.headSha
  row : verdict.row = some note.task

@[simp]
theorem length_commandLabels (taskId : TaskId) (commands : List VerificationCommand) :
    (commandLabels taskId commands).length = commands.length := by
  rw [commandLabels, List.length_map, List.length_zipIdx]

theorem getElem?_commandLabels {taskId : TaskId} {commands : List VerificationCommand} {index : Nat}
    {command : VerificationCommand} (hcommand : commands[index]? = some command) :
    (commandLabels taskId commands)[index]? =
      some (index + 1, taskId, command.program, commandDigest command) := by
  rw [commandLabels, List.getElem?_map, List.getElem?_zipIdx, hcommand, Nat.add_comm]
  rfl

theorem commandEvidence_spec (runId : Uuid) (taskId : TaskId) (ordinal : Nat)
    (command : VerificationCommand) (startedAt completedAt : DateTime) (outcome : CommandOutcome) :
    let evidence := commandEvidence runId taskId ordinal command startedAt completedAt outcome
    evidence.runId = runId ∧ evidence.success = outcome.success ∧
      evidence.label = (ordinal, taskId, command.program, commandDigest command) := by
  cases outcome <;> exact ⟨rfl, rfl, rfl⟩

theorem Recorded.nil (taskId : TaskId) (commands : List VerificationCommand) :
    Recorded taskId commands [] :=
  ⟨Nat.zero_le _, rfl, fun _ hnone => absurd hnone List.not_mem_nil⟩

/-- The evidence of the next command extends that of commands that have passed. -/
theorem Recorded.append {taskId : TaskId} {commands : List VerificationCommand}
    {evidence : List VerificationEvidence} (hrecorded : Recorded taskId commands evidence)
    (hpassed : ∀ each ∈ evidence, each.success) (command : VerificationCommand)
    (hcommand : commands[evidence.length]? = some command) {last : VerificationEvidence}
    (hlabel : last.label =
      (evidence.length + 1, taskId, command.program, commandDigest command)) :
    Recorded taskId commands (evidence ++ [last]) where
  length_le := by
    rw [List.length_append, List.length_singleton]
    exact (List.getElem?_eq_some_iff.mp hcommand).1
  labels := by
    rw [List.map_append, hrecorded.labels, List.length_append, List.length_singleton,
      List.take_add_one, getElem?_commandLabels hcommand, ← hlabel]
    rfl
  passed := by
    rw [List.dropLast_concat]
    exact hpassed

end Justified

section Stored

theorem EventStore.saveVerificationEvidence_eq_ok {store next : EventStore}
    {evidence : VerificationEvidence} (hok : store.saveVerificationEvidence evidence = .ok next) :
    { store with verificationEvidence := store.verificationEvidence ++ [evidence] } = next := by
  simp only [EventStore.saveVerificationEvidence, bind_eq_ok, ensure_eq_ok, pure_eq_ok] at hok
  rcases hok with ⟨-, -, hnext⟩
  exact hnext

theorem EventStore.evidenceOf_congr {store next : EventStore}
    (hevidence : next.verificationEvidence = store.verificationEvidence) (runId : Uuid) :
    next.evidenceOf runId = store.evidenceOf runId := by
  rw [EventStore.evidenceOf, hevidence, EventStore.evidenceOf]

/-- Evidence joins the evidence of its run. -/
theorem EventStore.evidenceOf_save {store next : EventStore} {evidence : VerificationEvidence}
    (hok : store.saveVerificationEvidence evidence = .ok next) (runId : Uuid) :
    next.evidenceOf runId =
      store.evidenceOf runId ++ if evidence.runId = runId then [evidence] else [] := by
  rw [← EventStore.saveVerificationEvidence_eq_ok hok, EventStore.evidenceOf, List.filter_append,
    EventStore.evidenceOf]
  congr 1
  by_cases hrun : evidence.runId = runId <;> simp [hrun]

theorem EventStore.saveTaskEvents_evidence (store : EventStore) (events : List (Task × String)) :
    (store.saveTaskEvents events).verificationEvidence = store.verificationEvidence := by
  rw [saveTaskEvents_frame]

theorem verifyBegin_evidence (ambient : Ambient) (store : EventStore) (taskId : TaskId) :
    (verifyBegin ambient store taskId).1.verificationEvidence = store.verificationEvidence := by
  unfold verifyBegin
  cases store.loadTask taskId with
  | none => rfl
  | some task =>
      dsimp only
      split
      · rfl
      · cases advance ambient.now task (submitEdges task.state) with
        | error error => rfl
        | ok events => exact store.saveTaskEvents_evidence events

theorem verifyFinish_evidence {ambient : Ambient} {store next : EventStore} {task : Task}
    {checkpointId : Uuid} (hok : verifyFinish ambient store task checkpointId = .ok next) :
    next.verificationEvidence = store.verificationEvidence := by
  simp only [verifyFinish, EventStore.saveTaskWithCheckpoint, bind_eq_ok, ensure_eq_ok,
    mapError_eq_ok, pure_eq_ok] at hok
  rcases hok with ⟨-, -, -, -, -, -, -, -, -, -, -, -, -, -, rfl⟩
  rfl

end Stored

/-! ### What every step keeps -/

section Invariant

variable [Sha256]

/-- The notes tell the truth, and a run under way has evidence of exactly the
commands it is past. -/
structure Verifications.Sound (state : Verifications) : Prop where
  notes : ∀ runId note, state.notes.lookup runId = some note →
    Recorded note.task.id note.commands (state.store.evidenceOf runId) ∧
      ∀ verdict ∈ note.verdict, note.Justifies (state.store.evidenceOf runId) verdict
  running : ∀ call run, state.calls.lookup call = some (.running run) →
    state.notes.lookup run.runId = some (run.note none) ∧
      (state.store.evidenceOf run.runId).length = run.done ∧
      (∀ each ∈ state.store.evidenceOf run.runId, each.success) ∧ run.before.dirty = false
  distinct : ∀ call other first second, state.calls.lookup call = some (.running first) →
    state.calls.lookup other = some (.running second) → first.runId = second.runId → call = other

namespace Verifications

variable {state next : Verifications}

theorem Sound.opened (store : EventStore) : (Verifications.opened store).Sound where
  notes := fun _ _ hnote => absurd hnote nofun
  running := fun _ _ hcall => absurd hcall nofun
  distinct := fun _ _ _ _ hcall => absurd hcall nofun

/-- Steps that leave evidence and notes alone and start no run. -/
theorem Sound.of_evidence_eq (hsound : state.Sound)
    (hevidence : next.store.verificationEvidence = state.store.verificationEvidence)
    (hnotes : next.notes = state.notes)
    (hcalls : ∀ call run, next.calls.lookup call = some (.running run) →
      state.calls.lookup call = some (.running run)) : next.Sound where
  notes := fun runId note hnote => by
    rw [hnotes] at hnote
    rw [EventStore.evidenceOf_congr hevidence]
    exact hsound.notes runId note hnote
  running := fun call run hcall => by
    rw [hnotes, EventStore.evidenceOf_congr hevidence]
    exact hsound.running call run (hcalls call run hcall)
  distinct := fun call other first second hfirst hsecond =>
    hsound.distinct call other first second (hcalls call first hfirst) (hcalls other second hsecond)

omit [Sha256] in
theorem lookup_endCall {call other : Nat} {place : VerifyCall}
    (hplace : (state.endCall call).calls.lookup other = some place) :
    other ≠ call ∧ state.calls.lookup other = some place := by
  rw [endCall] at hplace
  by_cases hother : other = call
  · rw [hother, AList.lookup_erase] at hplace
    exact absurd hplace nofun
  · rw [AList.lookup_erase_ne hother] at hplace
    exact ⟨hother, hplace⟩

omit [Sha256] in
theorem lookup_putCall {call other : Nat} {place found : VerifyCall}
    (hfound : (state.putCall call place).calls.lookup other = some found) :
    (other = call ∧ place = found) ∨ (other ≠ call ∧ state.calls.lookup other = some found) := by
  rw [putCall, AList.lookup_insert_eq] at hfound
  split at hfound
  · next hother => exact .inl ⟨hother, Option.some.inj hfound⟩
  · next hother => exact .inr ⟨hother, hfound⟩

theorem Sound.endCall (hsound : state.Sound) (call : Nat) : (state.endCall call).Sound :=
  hsound.of_evidence_eq rfl rfl fun _ _ hrun => (lookup_endCall hrun).2

/-- A run starts with no evidence. -/
theorem Sound.startRun (hsound : state.Sound) {call : Nat} {run : VerifyRun}
    (hnone : state.notes.lookup run.runId = none)
    (hnew : state.store.evidenceOf run.runId = []) (hdone : run.done = 0)
    (hclean : run.before.dirty = false) :
    ((state.putCall call (.running run)).putNote run.runId (run.note none)).Sound where
  notes := fun runId note hnote => by
    rw [putNote, AList.lookup_insert_eq] at hnote
    split at hnote
    · next hsame =>
        rw [Option.some.injEq] at hnote
        subst hnote
        have hempty : state.store.evidenceOf runId = [] := hsame ▸ hnew
        refine ⟨?_, fun verdict hverdict => absurd hverdict (Option.not_mem_none verdict)⟩
        change Recorded run.task.id run.commands (state.store.evidenceOf runId)
        rw [hempty]
        exact Recorded.nil run.task.id run.commands
    · exact hsound.notes runId note hnote
  running := fun other found hfound => by
    rw [putNote, AList.lookup_insert_eq]
    rcases lookup_putCall hfound with ⟨-, hrun⟩ | ⟨-, hold⟩
    · cases hrun
      rw [if_pos rfl]
      refine ⟨rfl, ?_, ?_, hclean⟩
      · change (state.store.evidenceOf run.runId).length = run.done
        rw [hnew, hdone, List.length_nil]
      · change ∀ each ∈ state.store.evidenceOf run.runId, _
        rw [hnew]
        exact fun each hnone => absurd hnone List.not_mem_nil
    · have hfound := hsound.running other found hold
      rw [if_neg]
      · exact hfound
      · intro hsame
        rw [hsame, hnone] at hfound
        exact absurd hfound.1 nofun
  distinct := fun first second one two hone htwo hsame => by
    have hfree : ∀ other found, state.calls.lookup other = some (.running found) →
        found.runId ≠ run.runId := by
      intro other found hold heq
      have hfound := (hsound.running other found hold).1
      rw [heq, hnone] at hfound
      exact absurd hfound nofun
    rcases lookup_putCall hone with ⟨rfl, hfirst⟩ | ⟨-, hfirst⟩ <;>
      rcases lookup_putCall htwo with ⟨rfl, hsecond⟩ | ⟨-, hsecond⟩
    · rfl
    · cases hfirst
      exact absurd hsame.symm (hfree _ _ hsecond)
    · cases hsecond
      exact absurd hsame (hfree _ _ hfirst)
    · exact hsound.distinct first second one two hfirst hsecond hsame

/-- The runs under way that evidence of one of them does not touch. -/
theorem Sound.other_runs (hsound : state.Sound) {call other : Nat} {run found : VerifyRun}
    (hcall : state.calls.lookup call = some (.running run)) (hother : other ≠ call)
    (hfound : state.calls.lookup other = some (.running found)) : run.runId ≠ found.runId :=
  fun hsame => hother (hsound.distinct other call found run hfound hcall hsame.symm)

/-- What a command stores. -/
theorem runCommand_eq_ok {store after : EventStore} {run : VerifyRun}
    {command : VerificationCommand} {startedAt completedAt : DateTime} {outcome : CommandOutcome}
    {later : Option VerifyRun}
    (hok : runCommand store run command startedAt completedAt outcome = .ok (after, later)) :
    ∃ evidence, store.saveVerificationEvidence evidence = .ok after ∧
      evidence.runId = run.runId ∧
      evidence.label = (run.done + 1, run.task.id, command.program, commandDigest command) ∧
      later = if evidence.success then some { run with done := run.done + 1 } else none := by
  simp only [runCommand, bind_eq_ok, ensure_eq_ok, pure_eq_ok, Prod.mk.injEq] at hok
  rcases hok with ⟨-, -, saved, hsaved, rfl, hlater⟩
  rcases commandEvidence_spec run.runId run.task.id (run.done + 1) command startedAt completedAt
    outcome with ⟨hrun, -, hlabel⟩
  exact ⟨_, hsaved, hrun, hlabel, hlater.symm⟩

/-- The notes after the evidence of a command. -/
theorem Sound.command_notes (hsound : state.Sound) {call : Nat} {run : VerifyRun}
    {command : VerificationCommand} {store : EventStore} {evidence : VerificationEvidence}
    (hcall : state.calls.lookup call = some (.running run))
    (hcommand : run.commands[run.done]? = some command)
    (hsaved : state.store.saveVerificationEvidence evidence = .ok store)
    (hrun : evidence.runId = run.runId)
    (hlabel : evidence.label = (run.done + 1, run.task.id, command.program, commandDigest command))
    (runId : Uuid) (note : VerifyNote) (hnote : state.notes.lookup runId = some note) :
    Recorded note.task.id note.commands (store.evidenceOf runId) ∧
      ∀ verdict ∈ note.verdict, note.Justifies (store.evidenceOf runId) verdict := by
  rcases hsound.running call run hcall with ⟨hnoted, hlength, hpassed, -⟩
  rcases hsound.notes runId note hnote with ⟨hrecorded, hverdict⟩
  rw [EventStore.evidenceOf_save hsaved, hrun]
  by_cases hsame : run.runId = runId
  · subst hsame
    rw [hnoted, Option.some.injEq] at hnote
    subst hnote
    rw [if_pos rfl]
    refine ⟨?_, fun verdict hnone => absurd hnone (Option.not_mem_none verdict)⟩
    apply hrecorded.append hpassed command
    · rw [hlength]
      exact hcommand
    · rw [hlength]
      exact hlabel
  · rw [if_neg hsame, List.append_nil]
    exact ⟨hrecorded, hverdict⟩

theorem Sound.command (hsound : state.Sound) {call : Nat} {run : VerifyRun}
    {command : VerificationCommand} {startedAt completedAt : DateTime} {outcome : CommandOutcome}
    {store : EventStore} {later : Option VerifyRun}
    (hcall : state.calls.lookup call = some (.running run))
    (hcommand : run.commands[run.done]? = some command)
    (hok : runCommand state.store run command startedAt completedAt outcome = .ok (store, later)) :
    match later with
    | some run => (putCall { state with store } call (.running run)).Sound
    | none => (Verifications.endCall { state with store } call).Sound := by
  rcases runCommand_eq_ok hok with ⟨evidence, hsaved, hrun, hlabel, hlater⟩
  have hnotes := hsound.command_notes hcall hcommand hsaved hrun hlabel
  rcases hsound.running call run hcall with ⟨hnoted, hlength, hpassed, hclean⟩
  have hothers : ∀ other found, other ≠ call →
      state.calls.lookup other = some (.running found) →
      store.evidenceOf found.runId = state.store.evidenceOf found.runId := by
    intro other found hother hfound
    rw [EventStore.evidenceOf_save hsaved, hrun,
      if_neg (hsound.other_runs hcall hother hfound), List.append_nil]
  by_cases hsuccess : evidence.success
  · rw [if_pos hsuccess] at hlater
    subst hlater
    refine ⟨hnotes, fun other found hfound => ?_, fun first second one two hone htwo hsame => ?_⟩
    · rcases lookup_putCall hfound with ⟨-, hself⟩ | ⟨hother, hold⟩
      · cases hself
        have hevidence : store.evidenceOf run.runId = state.store.evidenceOf run.runId ++ [evidence] := by
          rw [EventStore.evidenceOf_save hsaved, hrun, if_pos rfl]
        refine ⟨hnoted, ?_, ?_, hclean⟩
        · change (store.evidenceOf run.runId).length = run.done + 1
          rw [hevidence, List.length_append, hlength, List.length_singleton]
        · change ∀ each ∈ store.evidenceOf run.runId, _
          rw [hevidence]
          intro each heach
          rcases List.mem_append.mp heach with hearlier | hlast
          · exact hpassed each hearlier
          · rw [List.mem_singleton.mp hlast]
            exact hsuccess
      · change _ ∧ (store.evidenceOf found.runId).length = _ ∧
          (∀ each ∈ store.evidenceOf found.runId, _) ∧ _
        rw [hothers other found hother hold]
        exact hsound.running other found hold
    · rcases lookup_putCall hone with ⟨hfirst, hrunOne⟩ | ⟨hfirst, hrunOne⟩ <;>
        rcases lookup_putCall htwo with ⟨hsecond, hrunTwo⟩ | ⟨hsecond, hrunTwo⟩
      · rw [hfirst, hsecond]
      · cases hrunOne
        exact (hsound.other_runs hcall hsecond hrunTwo hsame).elim
      · cases hrunTwo
        exact (hsound.other_runs hcall hfirst hrunOne hsame.symm).elim
      · exact hsound.distinct first second one two hrunOne hrunTwo hsame
  · rw [if_neg hsuccess] at hlater
    subst hlater
    refine ⟨hnotes, fun other found hfound => ?_, fun first second one two hone htwo hsame => ?_⟩
    · rcases lookup_endCall hfound with ⟨hother, hold⟩
      change _ ∧ (store.evidenceOf found.runId).length = _ ∧
        (∀ each ∈ store.evidenceOf found.runId, _) ∧ _
      rw [hothers other found hother hold]
      exact hsound.running other found hold
    · exact hsound.distinct first second one two (lookup_endCall hone).2 (lookup_endCall htwo).2
        hsame

omit [Sha256] in
/-- What the last hold of a run has found. -/
theorem finishRun_eq_ok {ambient : Ambient} {store after : EventStore} {run : VerifyRun}
    {inspected : Except String Inspection} {checkpointId : Uuid} {verdict : Verdict}
    (hok : finishRun ambient store run inspected checkpointId = .ok (after, verdict)) :
    verifyFinish ambient store run.task checkpointId = .ok after ∧
      verdict.after.dirty = false ∧ verdict.after.headSha = run.before.headSha ∧
      verdict.row = some run.task := by
  simp only [finishRun, VerificationRun.check, bind_eq_ok, ensure_eq_ok, pure_eq_ok,
    Prod.mk.injEq] at hok
  rcases hok with ⟨found, rfl, -, ⟨_, hbefore, -, -, -, -, _, hafter, hsame⟩, next, hfinish, rfl, rfl⟩
  cases hbefore
  cases hafter
  have hstarted := hfinish
  simp only [verifyFinish, bind_eq_ok, ensure_eq_ok] at hstarted
  rcases hstarted with ⟨-, hrow, -⟩
  rw [not_or, Bool.not_eq_true, not_not] at hsame
  exact ⟨hfinish, hsame.1, hsame.2, hrow⟩

theorem Sound.finish (hsound : state.Sound) {call : Nat} {run : VerifyRun} {ambient : Ambient}
    {inspected : Except String Inspection} {checkpointId : Uuid} {store : EventStore}
    {verdict : Verdict} (hcall : state.calls.lookup call = some (.running run))
    (hdone : run.done = run.commands.length)
    (hok : finishRun ambient state.store run inspected checkpointId = .ok (store, verdict)) :
    ((Verifications.endCall { state with store } call).putNote run.runId
      (run.note (some verdict))).Sound := by
  rcases finishRun_eq_ok hok with ⟨hfinish, hafter, hhead, hrow⟩
  have hevidence := verifyFinish_evidence hfinish
  rcases hsound.running call run hcall with ⟨hnoted, hlength, hpassed, hclean⟩
  have hended := hsound.endCall call
  refine ⟨fun runId note hnote => ?_, fun other found hfound => ?_, ?_⟩
  · rw [putNote, AList.lookup_insert_eq] at hnote
    change Recorded _ _ (store.evidenceOf runId) ∧
      ∀ verdict ∈ note.verdict, note.Justifies (store.evidenceOf runId) verdict
    rw [EventStore.evidenceOf_congr hevidence]
    split at hnote
    · next hsame =>
        rw [Option.some.injEq] at hnote
        subst hnote hsame
        have hrecorded := (hsound.notes run.runId _ hnoted).1
        refine ⟨hrecorded, fun found hfound => ?_⟩
        cases Option.mem_some.mp hfound
        refine ⟨?_, hpassed, ⟨hclean, hafter⟩, hhead, hrow⟩
        rw [hrecorded.labels, hlength, hdone]
        exact List.take_of_length_le (length_commandLabels _ _).le
    · exact hsound.notes runId note hnote
  · have hold := (lookup_endCall hfound).2
    have hother := (lookup_endCall hfound).1
    have hfound := hsound.running other found hold
    rw [putNote, AList.lookup_insert_ne (hsound.other_runs hcall hother hold).symm]
    change _ ∧ (store.evidenceOf found.runId).length = _ ∧
      (∀ each ∈ store.evidenceOf found.runId, _) ∧ _
    rw [EventStore.evidenceOf_congr hevidence]
    exact hfound
  · exact hended.distinct

/-- Every step keeps the notes true. -/
theorem Sound.step (hsound : state.Sound) {event : VerifyEvent}
    (hstep : verifyStep state event = some next) : next.Sound := by
  cases event with
  | submit ambient call taskId =>
      have hevidence := verifyBegin_evidence ambient state.store taskId
      simp only [verifyStep] at hstep
      split at hstep
      · next hfree =>
          split at hstep <;> cases hstep
          · refine hsound.of_evidence_eq hevidence rfl fun other run hrun => ?_
            rcases lookup_putCall hrun with ⟨-, hself⟩ | ⟨-, hold⟩
            · exact absurd hself nofun
            · exact hold
          · exact hsound.of_evidence_eq hevidence rfl fun other run hrun => hrun
      · cases hstep
  | inspect call before runId =>
      simp only [verifyStep] at hstep
      split at hstep
      · split at hstep
        · cases hstep
          exact hsound.endCall call
        · split at hstep
          · cases hstep
            exact hsound.endCall call
          · next hclean =>
              split at hstep
              · next hfresh =>
                  cases hstep
                  exact hsound.startRun hfresh.1 hfresh.2 rfl (Bool.not_eq_true _ ▸ hclean)
              · cases hstep
      · cases hstep
  | command call startedAt completedAt outcome =>
      simp only [verifyStep] at hstep
      split at hstep
      · next run hcall =>
          split at hstep
          · next command hcommand =>
              split at hstep
              · next hok =>
                  cases hstep
                  exact hsound.command hcall hcommand hok
              · next hok =>
                  cases hstep
                  exact hsound.command hcall hcommand hok
              · cases hstep
                exact hsound.endCall call
          · cases hstep
      · cases hstep
  | finish ambient call after checkpointId =>
      simp only [verifyStep] at hstep
      split at hstep
      · next run hcall =>
          split at hstep
          · next hdone =>
              split at hstep
              · next hok =>
                  cases hstep
                  exact hsound.finish hcall hdone hok
              · cases hstep
                exact hsound.endCall call
          · cases hstep
      · cases hstep
  | elsewhere store =>
      simp only [verifyStep] at hstep
      split at hstep
      · next hevidence =>
          cases hstep
          exact hsound.of_evidence_eq hevidence rfl fun other run hrun => hrun
      · cases hstep
  | restart now =>
      simp only [verifyStep] at hstep
      cases hstep
      exact hsound.of_evidence_eq rfl rfl fun other run hrun => absurd hrun nofun

end Verifications

end Invariant

/-! ### What makes a task ready -/

section Ready

def EventStore.AwaitsDelivery (store : EventStore) (id : TaskId) : Prop :=
  ∃ task, store.loadTask id = some task ∧ task.state = .awaitingDeliveryApproval

/-- The step belongs to a verification. -/
def VerifyEvent.isVerification : VerifyEvent → Bool
  | .elsewhere _ | .restart _ => false
  | _ => true

/-- A row is the one before a list of saves or one of the saved ones. -/
theorem EventStore.loadTask_saveTaskEvents {store : EventStore} {events : List (Task × String)}
    {id : TaskId} {task : Task} (hrow : (store.saveTaskEvents events).loadTask id = some task) :
    store.loadTask id = some task ∨ ∃ event ∈ events, event.1 = task := by
  induction events generalizing store with
  | nil => exact .inl hrow
  | cons event events ih =>
      rcases ih hrow with hold | ⟨later, hlater, hsaved⟩
      · by_cases hid : id = event.1.id
        · subst hid
          rw [loadTask_saveTask_self, Option.some.injEq] at hold
          exact .inr ⟨event, List.mem_cons_self, hold⟩
        · rw [loadTask_saveTask_ne _ _ _ hid] at hold
          exact .inl hold
      · exact .inr ⟨later, List.mem_cons_of_mem _ hlater, hsaved⟩

/-- Submitting makes no task ready. -/
theorem verifyBegin_ready {ambient : Ambient} {store : EventStore} {taskId id : TaskId}
    (hready : (verifyBegin ambient store taskId).1.AwaitsDelivery id) :
    store.AwaitsDelivery id := by
  rcases hready with ⟨task, hrow, hstate⟩
  unfold verifyBegin at hrow
  cases hloaded : store.loadTask taskId with
  | none =>
      rw [hloaded] at hrow
      exact ⟨task, hrow, hstate⟩
  | some loaded =>
      rw [hloaded] at hrow
      dsimp only at hrow
      split at hrow
      · exact ⟨task, hrow, hstate⟩
      · cases hevents : advance ambient.now loaded (submitEdges loaded.state) with
        | error error =>
            rw [hevents] at hrow
            exact ⟨task, hrow, hstate⟩
        | ok events =>
            rw [hevents] at hrow
            rcases EventStore.loadTask_saveTaskEvents hrow with hold | ⟨event, hevent, hsaved⟩
            · exact ⟨task, hold, hstate⟩
            · have hstates := (advance_eq_ok hevents).2.2
              have hmem : event.1.state ∈ (submitEdges loaded.state).map Prod.fst := by
                rw [← hstates]
                exact List.mem_map_of_mem hevent
              rw [hsaved, hstate] at hmem
              unfold submitEdges at hmem
              split at hmem <;> simp at hmem

/-- The last hold of a run makes no task ready but its own. -/
theorem verifyFinish_ready {ambient : Ambient} {store next : EventStore} {task : Task}
    {checkpointId : Uuid} {id : TaskId}
    (hok : verifyFinish ambient store task checkpointId = .ok next)
    (hready : next.AwaitsDelivery id) (hbefore : ¬ store.AwaitsDelivery id) : task.id = id := by
  rcases verifyFinish_moves hok with ⟨payloads, hwrote, -⟩
  by_contra hother
  rcases hready with ⟨row, hrow, hstate⟩
  rw [hwrote.loadTask_ne fun hsame => hother hsame.symm] at hrow
  exact hbefore ⟨row, hrow, hstate⟩

end Ready

section Whole

variable [Sha256]

/-- A verification makes a task ready in its last hold only, and notes it. -/
theorem verifyStep_ready {state next : Verifications} {event : VerifyEvent} {id : TaskId}
    (hsound : state.Sound) (hverification : event.isVerification)
    (hstep : verifyStep state event = some next) (hbefore : ¬ state.store.AwaitsDelivery id)
    (hready : next.store.AwaitsDelivery id) :
    ∃ (runId : Uuid) (note : VerifyNote) (verdict : Verdict), note.task.id = id ∧
      state.notes.lookup runId = some { note with verdict := none } ∧
      next.notes.lookup runId = some { note with verdict := some verdict } := by
  cases event with
  | submit ambient call taskId =>
      simp only [verifyStep] at hstep
      split at hstep
      · split at hstep <;> cases hstep <;> exact absurd (verifyBegin_ready hready) hbefore
      · cases hstep
  | inspect call before runId =>
      simp only [verifyStep] at hstep
      split at hstep
      · split at hstep
        · cases hstep
          exact absurd hready hbefore
        · split at hstep
          · cases hstep
            exact absurd hready hbefore
          · split at hstep <;> cases hstep
            exact absurd hready hbefore
      · cases hstep
  | command call startedAt completedAt outcome =>
      simp only [verifyStep] at hstep
      split at hstep
      · split at hstep
        · split at hstep
          · next hok =>
              cases hstep
              rcases Verifications.runCommand_eq_ok hok with ⟨evidence, hsaved, -⟩
              rw [← EventStore.saveVerificationEvidence_eq_ok hsaved] at hready
              exact absurd hready hbefore
          · next hok =>
              cases hstep
              rcases Verifications.runCommand_eq_ok hok with ⟨evidence, hsaved, -⟩
              rw [← EventStore.saveVerificationEvidence_eq_ok hsaved] at hready
              exact absurd hready hbefore
          · cases hstep
            exact absurd hready hbefore
        · cases hstep
      · cases hstep
  | finish ambient call after checkpointId =>
      simp only [verifyStep] at hstep
      split at hstep
      · next run hcall =>
          split at hstep
          · split at hstep
            · next verdict hok =>
                cases hstep
                have hfinish := (Verifications.finishRun_eq_ok hok).1
                have hid := verifyFinish_ready hfinish hready hbefore
                exact ⟨run.runId, run.note none, verdict, hid, (hsound.running call run hcall).1,
                  AList.lookup_insert _⟩
            · cases hstep
              exact absurd hready hbefore
          · cases hstep
      · cases hstep
  | elsewhere store => exact absurd hverification nofun
  | restart now => exact absurd hverification nofun

/-- Evidence justifies the delivery gate.  After any interleaving, the evidence
of every run is that of its first commands, all of them passed but perhaps the
last; and a step of a verification that makes a task ready is the last step of a
run whose evidence is complete, on a clean worktree at one commit, and whose
task row is the one the run was started on. -/
theorem verification_evidence_sound {store : EventStore} {events : List VerifyEvent}
    {state : Verifications} (hrun : run verifyStep (.opened store) events = some state) :
    (∀ runId note, state.notes.lookup runId = some note →
      Recorded note.task.id note.commands (state.store.evidenceOf runId) ∧
        ∀ verdict ∈ note.verdict, note.Justifies (state.store.evidenceOf runId) verdict) ∧
    (∀ event next id, event.isVerification → verifyStep state event = some next →
      ¬ state.store.AwaitsDelivery id → next.store.AwaitsDelivery id →
      ∃ (runId : Uuid) (note : VerifyNote) (verdict : Verdict), note.task.id = id ∧
        state.notes.lookup runId = some { note with verdict := none } ∧
        next.notes.lookup runId = some { note with verdict := some verdict } ∧
        note.Justifies (next.store.evidenceOf runId) verdict) := by
  have hsound : state.Sound :=
    invariant_of_run (fun _ _ _ hinv hnext => hinv.step hnext) hrun (.opened store)
  refine ⟨hsound.notes, fun event next id hverification hnext hbefore hready => ?_⟩
  rcases verifyStep_ready hsound hverification hnext hbefore hready with
    ⟨runId, note, verdict, hid, hopen, hnoted⟩
  have hjustifies := ((hsound.step hnext).notes runId _ hnoted).2 verdict rfl
  exact ⟨runId, note, verdict, hid, hopen, hnoted, ⟨hjustifies.complete, hjustifies.passed,
    hjustifies.clean, hjustifies.sameHead, hjustifies.row⟩⟩

end Whole

namespace Sample

def codexRun (events : List CodexEvent) : EventStore :=
  ((run (fun engine event => codexStep ambient engine.1 engine.2 event)
    (runningStore .verifying, runningService) events).getD (.empty, .idle)).1

def pauseEvents : List CodexEvent :=
  [.interrupt taskId false, .loadInterrupted false, .saveInterrupted ⟨14⟩, .endInterrupt]

/-- The task is paused while its verification runs. -/
def pausedStore : EventStore := codexRun pauseEvents

/-- The task is resumed at an instant that reads like that of its last change. -/
def resumedStore : EventStore := codexRun (pauseEvents ++ [.start taskId])

def verifyRunId : Uuid := ⟨15⟩

def passedCommand : CommandOutcome := .output true (some 0) emptyDigest 0 emptyDigest 0
where emptyDigest := "e3b0c44298fc1c149afbf4c8996fb92427ae41e4649b934ca495991b7852b855"

def startVerify : List VerifyEvent :=
  [.submit ambient 0 taskId, .inspect 0 (.ok ⟨false, headSha⟩) verifyRunId]

def endVerify : List VerifyEvent :=
  [.command 0 0 0 passedCommand, .finish ambient 0 (.ok ⟨false, headSha⟩) ⟨16⟩]

def verified (events : List VerifyEvent) : Verifications :=
  (run verifyStep (.opened (runningStore .verifying)) events).getD (.opened .empty)

/-- The row of the sample, and what its run was started on. -/
def verifiedRow (events : List VerifyEvent) : Option Task := (verified events).store.loadTask taskId

def verifiedNote (events : List VerifyEvent) : Option VerifyNote :=
  (verified events).notes.lookup verifyRunId

def restoredVerify : List VerifyEvent :=
  startVerify ++ [.elsewhere pausedStore, .elsewhere resumedStore] ++ endVerify

theorem verify_samples :
    ((run verifyStep (.opened (runningStore .verifying)) (startVerify ++ endVerify)).isSome ∧
      (verifiedNote (startVerify ++ endVerify)).isSome) ∧
    ((run verifyStep (.opened (runningStore .verifying)) restoredVerify).isSome ∧
      (run verifyStep (.opened (runningStore .verifying)) (startVerify ++ [.elsewhere pausedStore])).isSome ∧
      (verifiedNote startVerify).map (fun note => note.task.state) = some .verifying ∧
      (verifiedRow (startVerify ++ [.elsewhere pausedStore])).map Task.state = some .paused ∧
      ((verifiedNote restoredVerify).bind VerifyNote.verdict).isSome ∧
      (verifiedRow restoredVerify).map Task.state = some .awaitingDeliveryApproval) := by
  decide +kernel

end Sample

open Sample

/-- A run makes its task ready although the task was paused and resumed while
the run was under way: the row is again the one the run was started on. -/
theorem verification_row_restored :
    ∃ started paused final,
      run verifyStep (.opened (runningStore .verifying)) startVerify = some started ∧
      run verifyStep started [.elsewhere pausedStore] = some paused ∧
      run verifyStep paused (.elsewhere resumedStore :: endVerify) = some final ∧
      (verifiedNote startVerify).map (fun note => note.task.state) = some .verifying ∧
      (paused.store.loadTask taskId).map Task.state = some .paused ∧
      ((final.notes.lookup verifyRunId).bind VerifyNote.verdict).isSome ∧
      (final.store.loadTask taskId).map Task.state = some .awaitingDeliveryApproval := by
  obtain ⟨hfinal, hpaused, hstarted, hbetween, hverdict, hready⟩ := verify_samples.2
  have hrun := eq_some_getD hfinal (.opened .empty)
  have hbefore := eq_some_getD hpaused (.opened .empty)
  unfold restoredVerify at hrun
  rw [List.append_assoc, run_append_eq_some] at hrun
  rw [run_append_eq_some] at hbefore
  rcases hrun with ⟨started, hstart, hrest⟩
  rcases hbefore with ⟨again, hagain, hpause⟩
  cases hstart.symm.trans hagain
  rw [List.cons_append, run_cons_eq_some] at hrest
  rcases hrest with ⟨paused, hstep, hrest⟩
  have hpause' : run verifyStep started [.elsewhere pausedStore] = some paused :=
    run_cons_eq_some.2 ⟨paused, hstep, rfl⟩
  have hsame := Option.some.inj (hpause'.symm.trans hpause)
  exact ⟨started, paused, _, hstart, hpause', hrest, hstarted, hsame ▸ hbetween, hverdict, hready⟩

/-- A run that nothing disturbs. -/
theorem verification_evidence_complete :
    ∃ note, (verified (startVerify ++ endVerify)).notes.lookup verifyRunId = some note ∧
      Recorded note.task.id note.commands
        ((verified (startVerify ++ endVerify)).store.evidenceOf verifyRunId) := by
  obtain ⟨hrun, hnote⟩ := verify_samples.1
  have hsound := verification_evidence_sound (eq_some_getD hrun (.opened .empty))
  obtain ⟨note, hfound⟩ := Option.isSome_iff_exists.mp hnote
  exact ⟨note, hfound, (hsound.1 verifyRunId note hfound).1⟩

end Patchwright
