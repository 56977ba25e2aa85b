import RaibitServer.Recovery.State

/-!
# Recovery.Worker — claims, the publication fence and mutations
(`resource-recovery-worker.ts`)
-/

namespace RaibitServer.Recovery

open Lib

/-- A claim is held for this long after the last heartbeat. -/
def leaseMillis : Millis := 60000

/-- An operation has this long from its first claim. -/
def deadlineMillis : Millis := 1800000

def recoveryOperation (s : RecoveryState) (input : RecoveryClaim) : Except Thrown Operation :=
  match input.kind with
  | .backup => do
    let backup ← recoveryBackup s input.operationId input.organizationId
    pure (.backup backup)
  | .restore => do
    let restore ← orThrow (s.restores.find? fun row =>
      row.id = input.operationId ∧ row.organizationId = input.organizationId)
      (.recovery "RECOVERY_NOT_FOUND" 404)
    pure (.restore restore)

def isString (value : Option Json) (text : String) : Bool := Json.asString value == some text

def isTrue : Option Json → Bool
  | some (.bool b) => b
  | _ => false

/-- The backup and the target of a restore are still the ones it was created for. -/
def currentRestoreTarget (s : RecoveryState) (operation : RecoveryRestore) : Except Thrown Unit := do
  let backup ← recoveryBackup s operation.backupId operation.organizationId
  throwIf (backup.status ∉ [.READY, .EXPIRED]) (recoveryError "BACKUP_NOT_RECOVERABLE")
  let target ← activeRecoveryResource s operation.targetResourceId operation.organizationId
  throwIf (target.projectId ≠ operation.projectId ∨ target.engine ≠ operation.engine ∨
      isString (Json.member target.desiredState "recoveryRestoreId") operation.id = false ∨
      isTrue (Json.member target.desiredState "recoveryPublicationBlocked") = false)
    (recoveryError "RESTORE_TARGET_INVALID")

def currentRecoverySource (P : Platform) (s : RecoveryState) (operation : Operation) :
    Except Thrown Unit := do
  let sourceId := match operation with
    | .backup b => b.resourceId
    | .restore r => r.sourceResourceId
  let resource ← activeRecoveryResource s sourceId operation.base.organizationId
  throwIf (resource.status ≠ "READY") (recoveryError "SOURCE_CHANGED")
  let captured ← captureRecoveryProvenance P resource
  throwIf (captured.sourceGeneration ≠ operation.base.sourceGeneration)
    (recoveryError "SOURCE_CHANGED")
  match operation with
  | .backup _ => pure ()
  | .restore r => currentRestoreTarget s r

/-! ### The fence -/

/-- `!job.lockedAt || recoveryMillis(job.lockedAt) + 60_000 <= Date.parse(now)`. -/
def leaseLost (lockedAt : Option Millis) (now : Millis) : Bool :=
  match lockedAt with
  | none => true
  | some t => decide (t + leaseMillis ≤ now)

/-- `job.lockedAt && recoveryMillis(job.lockedAt) + 60_000 > Date.parse(now)`. -/
def leaseBusy (lockedAt : Option Millis) (now : Millis) : Bool :=
  match lockedAt with
  | none => false
  | some t => decide (now < t + leaseMillis)

/-- `!operation.deadlineAt || recoveryMillis(operation.deadlineAt) <= Date.parse(now)`. -/
def deadlineLost (deadlineAt : Option Millis) (now : Millis) : Bool :=
  match deadlineAt with
  | none => true
  | some t => decide (t ≤ now)

/-- `operation.deadlineAt && recoveryMillis(operation.deadlineAt) <= Date.parse(now)`. -/
def deadlinePassed (deadlineAt : Option Millis) (now : Millis) : Bool :=
  match deadlineAt with
  | none => false
  | some t => decide (t ≤ now)

def fenceRecovery (P : Platform) (s : RecoveryState) (input : RecoveryFence) :
    Except Thrown (Operation × RecoveryJob × Millis) := do
  let operation ← recoveryOperation s input.toRecoveryClaim
  let job ← recoveryJob s operation.id
  let now ← recoveryNow P input.clock
  throwIf (job.status ≠ .running ∨ job.lockedBy ≠ some input.workerId ∨
      job.attempts ≠ input.attempt ∨ leaseLost job.lockedAt now ∨
      deadlineLost operation.base.deadlineAt now ∨
      operation.status ∉ [.RUNNING, .VERIFYING])
    (recoveryError "RECOVERY_LEASE_LOST")
  currentRecoverySource P s operation
  pure (operation, job, now)

/-! ### Claims -/

structure RecoveryResult where
  operation : Operation
  job : RecoveryJob

/-- `workerId` as both claims accept it. -/
def workerInvalid (workerId : String) : Bool :=
  decide (workerId = "") || decide (128 < Text.jsLength workerId)

/-- A `RecoveryError` from the source check is a failed source; anything else is rethrown. -/
def sourceFailure (P : Platform) (s : RecoveryState) (operation : Operation) :
    Except Thrown Bool :=
  match currentRecoverySource P s operation with
  | .ok _ => .ok false
  | .error (.recovery _ _) => .ok true
  | .error e => .error e

def failOperation (operation : Operation) (code : String) (now : Millis) : Operation :=
  operation.update fun b => { b with status := .FAILED, errorCode := some code, updatedAt := now }

/-- `{ ...job, status, lockedBy: null, lockedAt: null, updatedAt: now }`. -/
def releaseJob (job : RecoveryJob) (status : JobStatus) (now : Millis) : RecoveryJob :=
  { job with status, lockedBy := none, lockedAt := none, updatedAt := now }

def startOperation (operation : Operation) (deadline now : Millis) : Operation :=
  operation.update fun b => { b with
    status := if b.status = .QUEUED then .RUNNING else b.status
    startedAt := some (b.startedAt.getD now), deadlineAt := some (b.deadlineAt.getD deadline)
    updatedAt := now }

def lockJob (job : RecoveryJob) (workerId : String) (now : Millis) : RecoveryJob :=
  { job with status := .running, attempts := job.attempts + 1, lockedBy := some workerId,
             lockedAt := some now, updatedAt := now }

def claimFailure (sourceFailed : Bool) : String :=
  if sourceFailed then "SOURCE_CHANGED" else "DEADLINE_EXCEEDED"

/-- The new deadline is printed only when the operation has none. -/
def claimDeadline (operation : Operation) (now : Millis) : Except Thrown Millis :=
  match operation.base.deadlineAt with
  | some t => .ok t
  | none => toISOString (now + deadlineMillis)

/-- The source tests the operation's status once more before it writes, for its type checker. -/
def claimRecovery (P : Platform) (s : RecoveryState) (input : RecoveryClaim) :
    Except Thrown (RecoveryState × RecoveryResult) := do
  let operation ← recoveryOperation s input
  let job ← recoveryJob s operation.id
  let now ← recoveryNow P input.clock
  throwIf (workerInvalid input.workerId) (.recovery "RECOVERY_WORKER_INVALID" 400)
  throwIf (operation.status ∉ [.QUEUED, .RUNNING, .VERIFYING] ∨ job.status ∉ [.queued, .running])
    (recoveryError "RECOVERY_TERMINAL")
  throwIf (now < job.runAfter ∨ leaseBusy job.lockedAt now) (recoveryError "RECOVERY_LEASE_BUSY")
  let failed ← sourceFailure P s operation
  if failed ∨ 3 ≤ job.attempts ∨ deadlinePassed operation.base.deadlineAt now then
    let next := failOperation operation (claimFailure failed) now
    let nextJob := releaseJob job .failed now
    pure (recoverySet s next (some nextJob), { operation := next, job := nextJob })
  else
    let deadline ← claimDeadline operation now
    let next := startOperation operation deadline now
    let nextJob := lockJob job input.workerId now
    pure (recoverySet s next (some nextJob), { operation := next, job := nextJob })

/-! ### Mutations -/

/-- `^[A-Za-z0-9][A-Za-z0-9_-]{0,63}$`. -/
def isKeyVersion : String → Bool := Text.headTail Char.isAlphanum segmentChar 63

/-- `^[1-9][0-9]{0,10}$`. -/
def isPositiveSize : String → Bool := Text.headTail (fun c => c.isDigit && c != '0') Char.isDigit 10

/-- `^(0|[1-9][0-9]{0,10})$`. -/
def isSize (s : String) : Bool := decide (s = "0") || isPositiveSize s

/-- `^[0-9a-f]{64}$`. -/
def isChecksum : String → Bool := Text.bounded Text.lowerHex 64 64

def maxArtifactBytes : Nat := 10737418240

def isNumber (attempt : Nat) (row : RecoveryAttempt) : Bool := decide (row.attempt = attempt)

/-- `row === attempt`, where `attempt` is the row this search returned. -/
def isAttempt (backupId : String) (attempt : Nat) (row : RecoveryAttempt) : Bool :=
  decide (row.backupId = backupId) && isNumber attempt row

def updateAttempt (s : RecoveryState) (backupId : String) (attempt : Nat)
    (f : RecoveryAttempt → RecoveryAttempt) : RecoveryState :=
  { s with attempts := Table.updateFirst (isAttempt backupId attempt) f s.attempts }

def newAttempt (backupId : String) (attempt : Nat) (objectKey keyVersion : String)
    (firstClaimAt now : Millis) : RecoveryAttempt where
  backupId := backupId
  attempt := attempt
  objectKey := objectKey
  uploadId := none
  keyVersion := keyVersion
  firstClaimAt := firstClaimAt
  candidateStoredBytes := none
  candidatePlaintextBytes := none
  candidateChecksum := none
  state := .INTENT
  cleanupPending := true
  createdAt := now
  updatedAt := now

def setAttemptState (state : AttemptState) (now : Millis) (row : RecoveryAttempt) :
    RecoveryAttempt :=
  { row with state, updatedAt := now }

def recordUpload (uploadId : String) (now : Millis) (row : RecoveryAttempt) : RecoveryAttempt :=
  { row with uploadId := some uploadId, state := .UPLOADING, updatedAt := now }

def recordCandidate (storedBytes plaintextBytes checksum : String) (now : Millis)
    (row : RecoveryAttempt) : RecoveryAttempt :=
  { row with state := .PREPARED, candidateStoredBytes := some storedBytes,
             candidatePlaintextBytes := some plaintextBytes, candidateChecksum := some checksum,
             updatedAt := now }

/-- What the `switch` of `mutateRecovery` leaves for `recoverySet`. -/
structure Mutated where
  state : RecoveryState
  next : Operation
  nextJob : RecoveryJob

def mutateIntent (s : RecoveryState) (operation : Operation) (job : RecoveryJob) (number : Nat)
    (keyVersion : String) (now : Millis) : Except Thrown Mutated :=
  match operation with
  | .restore _ => .error (recoveryError "RECOVERY_KIND_INVALID")
  | .backup b => do
    let invalid := recoveryError "RECOVERY_ATTEMPT_INVALID"
    let startedAt ← orThrow b.startedAt invalid
    throwIf (isKeyVersion keyVersion = false) invalid
    match s.attempts.find? (isAttempt b.id number) with
    | some attempt =>
      throwIf (attempt.keyVersion ≠ keyVersion) invalid
      pure { state := s, next := operation, nextJob := job }
    | none =>
      let objectKey ← recoveryObjectKey b.organizationId b.resourceId b.id number
      let row := newAttempt b.id number objectKey keyVersion startedAt now
      pure { state := { s with attempts := s.attempts ++ [row] }, next := operation, nextJob := job }

def uploadInvalid (attempt : RecoveryAttempt) (uploadId : String) : Prop :=
  (attempt.uploadId ≠ none ∧ attempt.uploadId ≠ some uploadId) ∨
    attempt.state ∉ [.INTENT, .UPLOADING] ∨ Text.jsLength uploadId < 1 ∨
    2048 < Text.jsLength uploadId

instance (attempt : RecoveryAttempt) (uploadId : String) :
    Decidable (uploadInvalid attempt uploadId) := inferInstanceAs (Decidable (_ ∨ _ ∨ _ ∨ _))

def mutateUpload (s : RecoveryState) (operation : Operation) (job : RecoveryJob) (number : Nat)
    (uploadId : String) (now : Millis) : Except Thrown Mutated := do
  let invalid := recoveryError "RECOVERY_UPLOAD_INVALID"
  let attempt ← orThrow (s.attempts.find? (isAttempt operation.id number)) invalid
  throwIf (uploadInvalid attempt uploadId) invalid
  pure { state := updateAttempt s operation.id number (recordUpload uploadId now),
         next := operation, nextJob := job }

/-- A candidate, once recorded, is only accepted again unchanged. -/
def candidateInvalid (attempt : RecoveryAttempt) (storedBytes plaintextBytes checksum : String) :
    Prop :=
  attempt.state ∉ [.UPLOADING, .PREPARED] ∨ isPositiveSize storedBytes = false ∨
    isSize plaintextBytes = false ∨ maxArtifactBytes < Text.decimal storedBytes ∨
    maxArtifactBytes < Text.decimal plaintextBytes ∨ isChecksum checksum = false ∨
    (attempt.candidateStoredBytes ≠ none ∧
      (attempt.candidateStoredBytes ≠ some storedBytes ∨
        attempt.candidatePlaintextBytes ≠ some plaintextBytes ∨
        attempt.candidateChecksum ≠ some checksum))

instance (attempt : RecoveryAttempt) (storedBytes plaintextBytes checksum : String) :
    Decidable (candidateInvalid attempt storedBytes plaintextBytes checksum) :=
  inferInstanceAs (Decidable (_ ∨ _ ∨ _ ∨ _ ∨ _ ∨ _ ∨ _))

def mutateCandidate (s : RecoveryState) (operation : Operation) (job : RecoveryJob) (number : Nat)
    (storedBytes plaintextBytes checksum : String) (now : Millis) : Except Thrown Mutated := do
  let invalid := recoveryError "RECOVERY_CANDIDATE_INVALID"
  let attempt ← orThrow (s.attempts.find? (isAttempt operation.id number)) invalid
  throwIf (candidateInvalid attempt storedBytes plaintextBytes checksum) invalid
  pure { state := updateAttempt s operation.id number
           (recordCandidate storedBytes plaintextBytes checksum now),
         next := operation, nextJob := job }

def mutateComplete (s : RecoveryState) (operation : Operation) (job : RecoveryJob) (number : Nat)
    (now : Millis) : Except Thrown Mutated := do
  let invalid := recoveryError "RECOVERY_UPLOAD_INVALID"
  let attempt ← orThrow (s.attempts.find? (isAttempt operation.id number)) invalid
  throwIf (Text.truthy attempt.uploadId = false ∨ attempt.state ≠ .PREPARED) invalid
  pure { state := updateAttempt s operation.id number (setAttemptState .COMPLETE now),
         next := operation, nextJob := job }

/-- Of a backup, only the journalled artifact of the fenced attempt is verified. -/
def artifactComplete (s : RecoveryState) (operation : Operation) (number : Nat) : Bool :=
  match operation with
  | .restore _ => true
  | .backup b => (s.attempts.find? (isAttempt b.id number)).any fun row => row.state = .COMPLETE

def verifyOperation (operation : Operation) (now : Millis) : Operation :=
  operation.update fun b => { b with status := .VERIFYING, updatedAt := now }

def mutateVerify (s : RecoveryState) (kind : RecoveryKind) (operation : Operation)
    (job : RecoveryJob) (number : Nat) (now : Millis) : Except Thrown Mutated := do
  recoveryTransition kind operation.status .VERIFYING
  throwIf (artifactComplete s operation number = false)
    (recoveryError "RECOVERY_ARTIFACT_UNVERIFIED")
  pure { state := s, next := verifyOperation operation now, nextJob := job }

def readyRetention : Millis := 30 * 86400000

/-- The backup row that publishes `artifact`. -/
def publishBackup (b : RecoveryBackup) (attempt : RecoveryAttempt) (artifact : RecoveryArtifact)
    (number : Nat) (expiresAt now : Millis) : RecoveryBackup :=
  { b with status := .READY, artifactKey := some attempt.objectKey,
           artifactChecksum := some artifact.checksum, artifactSize := some artifact.size,
           encryptionKeyVersion := some artifact.keyVersion, winningAttempt := some number,
           readyAt := some now, expiresAt := some expiresAt, updatedAt := now }

def artifactUnverified (attempt : RecoveryAttempt) (artifact : RecoveryArtifact) : Prop :=
  attempt.state ≠ .COMPLETE ∨ attempt.candidateChecksum ≠ some artifact.checksum ∨
    attempt.candidateStoredBytes ≠ some artifact.size ∨ attempt.keyVersion ≠ artifact.keyVersion

instance (attempt : RecoveryAttempt) (artifact : RecoveryArtifact) :
    Decidable (artifactUnverified attempt artifact) := inferInstanceAs (Decidable (_ ∨ _ ∨ _ ∨ _))

def readyBackup (s : RecoveryState) (b : RecoveryBackup) (job : RecoveryJob) (number : Nat)
    (artifact : Option RecoveryArtifact) (now : Millis) : Except Thrown Mutated := do
  let unverified := recoveryError "RECOVERY_ARTIFACT_UNVERIFIED"
  let attempt ← orThrow (s.attempts.find? (isAttempt b.id number)) unverified
  let artifact ← orThrow artifact unverified
  throwIf (artifactUnverified attempt artifact) unverified
  let expiresAt ← toISOString (now + readyRetention)
  pure { state := updateAttempt s b.id number (setAttemptState .VERIFIED now)
         next := .backup (publishBackup b attempt artifact number expiresAt now)
         nextJob := releaseJob job .succeeded now }

/-- `state.pins.filter(row => row.restoreId !== operation.id)`. -/
def dropRestorePins (pins : List RecoveryPin) (restoreId : String) : List RecoveryPin :=
  pins.filter fun row => row.restoreId ≠ some restoreId

def publishRestore (r : RecoveryRestore) (now : Millis) : RecoveryRestore :=
  { r with status := .READY, readyAt := some now, updatedAt := now }

def readyRestore (s : RecoveryState) (r : RecoveryRestore) (job : RecoveryJob) (now : Millis) :
    Mutated where
  state := { s with
    resources := s.resources.map fun row =>
      if row.id = r.targetResourceId then
        { row with status := "READY",
                   desiredState := Json.setMember row.desiredState "recoveryPublicationBlocked"
                     (.bool false) }
      else row
    pins := dropRestorePins s.pins r.id }
  next := .restore (publishRestore r now)
  nextJob := releaseJob job .succeeded now

/-- The `switch` of `mutateRecovery`. -/
def applyMutation (s : RecoveryState) (input : RecoveryFence) (operation : Operation)
    (job : RecoveryJob) (now : Millis) : RecoveryMutation → Except Thrown Mutated
  | .heartbeat => pure { state := s, next := operation,
                         nextJob := { job with lockedAt := some now, updatedAt := now } }
  | .retry => do
    throwIf (3 ≤ job.attempts) (recoveryError "RECOVERY_ATTEMPTS_EXHAUSTED")
    pure { state := s, next := operation, nextJob := releaseJob job .queued now }
  | .fail code => do
    recoveryTransition input.kind operation.status .FAILED
    pure { state := s, next := failOperation operation code now,
           nextJob := releaseJob job .failed now }
  | .intent keyVersion => mutateIntent s operation job input.attempt keyVersion now
  | .upload uploadId => mutateUpload s operation job input.attempt uploadId now
  | .candidate storedBytes plaintextBytes checksum =>
    mutateCandidate s operation job input.attempt storedBytes plaintextBytes checksum now
  | .complete => mutateComplete s operation job input.attempt now
  | .verify => mutateVerify s input.kind operation job input.attempt now
  | .ready artifact => do
    recoveryTransition input.kind operation.status .READY
    match operation with
    | .backup b => readyBackup s b job input.attempt artifact now
    | .restore r => pure (readyRestore s r job now)

def mutateRecovery (P : Platform) (s : RecoveryState) (input : RecoveryFence)
    (mutation : RecoveryMutation) : Except Thrown (RecoveryState × RecoveryResult) := do
  let (operation, job, now) ← fenceRecovery P s input
  let m ← applyMutation s input operation job now mutation
  pure (recoverySet m.state m.next (some m.nextJob), { operation := m.next, job := m.nextJob })

end RaibitServer.Recovery
