import RaibitServer.Recovery.Worker

/-!
# Recovery.Cleanup — cancellation, expiry and the cleanup lease
(`resource-recovery-cleanup.ts`)
-/

namespace RaibitServer.Recovery

open Lib

structure CancelRequest extends RecoveryScope where
  operationId : String
  clock : Clock

structure ExpireRequest where
  organizationId : String
  operationId : String
  clock : Clock

def cancelRecoveryRestore (P : Platform) (s : RecoveryState) (request : CancelRequest) :
    Except Thrown (RecoveryState × RecoveryRestore) := do
  let operation ← orThrow (s.restores.find? fun row =>
    row.id = request.operationId ∧ row.organizationId = request.organizationId)
    (.recovery "RECOVERY_NOT_FOUND" 404)
  recoveryAuthorized s request.toRecoveryScope "backup:restore"
  recoveryTransition .restore operation.status .CANCELLED
  let now ← recoveryNow P request.clock
  let job ← recoveryJob s operation.id
  let next := { operation with status := .CANCELLED, updatedAt := now }
  pure (recoverySet s (.restore next) (some (releaseJob job .cancelled now)), next)

/-- `!backup.expiresAt || recoveryMillis(backup.expiresAt) > Date.parse(now)`. -/
def notExpired (expiresAt : Option Millis) (now : Millis) : Bool :=
  match expiresAt with
  | none => true
  | some t => decide (now < t)

def expireRecoveryBackup (P : Platform) (s : RecoveryState) (input : ExpireRequest) :
    Except Thrown (RecoveryState × RecoveryBackup) := do
  let backup ← recoveryBackup s input.operationId input.organizationId
  let now ← recoveryNow P input.clock
  throwIf (notExpired backup.expiresAt now) (recoveryError "RECOVERY_NOT_EXPIRED")
  recoveryTransition .backup backup.status .EXPIRED
  let next := { backup with status := .EXPIRED, updatedAt := now }
  pure (recoverySet s (.backup next) none, next)

/-! ### The cleanup lease -/

def jobTerminal (job : RecoveryJob) : Bool :=
  decide (job.status ∈ [JobStatus.succeeded, .failed, .cancelled])

/-- `state.pins.some(pin => pin.backupId === id && pin.kind === 'RESTORE_TARGET')`. -/
def restorePinned (pins : List RecoveryPin) (backupId : String) : Bool :=
  pins.any fun pin => pin.backupId = backupId ∧ pin.kind = .RESTORE_TARGET

/-- `operation.cleanupLeaseUntil && recoveryMillis(operation.cleanupLeaseUntil) > Date.parse(now)`. -/
def cleanupBusy (leaseUntil : Option Millis) (now : Millis) : Bool :=
  match leaseUntil with
  | none => false
  | some t => decide (now < t)

structure CleanupClaimed where
  operation : Operation
  attempts : List RecoveryAttempt

/-- The status part of a cleanup claim: a backup moves to `DELETING`, a restore keeps its status. -/
def cleanupOperation (s : RecoveryState) : Operation → Except Thrown Operation
  | .backup b => do
    throwIf (restorePinned s.pins b.id) (recoveryError "RECOVERY_RESTORE_PINNED")
    throwIf (b.status ∉ [.FAILED, .EXPIRED, .DELETING])
      (recoveryError "RECOVERY_CLEANUP_INELIGIBLE")
    if b.status ≠ .DELETING then recoveryTransition .backup b.status .DELETING
    pure (.backup { b with status := .DELETING })
  | .restore r => do
    throwIf (r.status ∉ [.FAILED, .CANCELLED]) (recoveryError "RECOVERY_CLEANUP_INELIGIBLE")
    pure (.restore r)

def takeLease (token workerId : String) (leaseUntil now : Millis) (b : RecoveryBase) :
    RecoveryBase :=
  { b with cleanupToken := some token, cleanupWorker := some workerId,
           cleanupLeaseUntil := some leaseUntil, updatedAt := now }

def claimRecoveryCleanup (P : Platform) (s : RecoveryState) (input : RecoveryClaim)
    (token : String) : Except Thrown (RecoveryState × CleanupClaimed) := do
  let operation ← recoveryOperation s input
  let now ← recoveryNow P input.clock
  let job ← recoveryJob s operation.id
  throwIf (jobTerminal job = false) (recoveryError "RECOVERY_PUBLICATION_UNFENCED")
  throwIf (cleanupBusy operation.base.cleanupLeaseUntil now) (recoveryError "RECOVERY_LEASE_BUSY")
  throwIf (workerInvalid input.workerId) (recoveryError "RECOVERY_WORKER_INVALID")
  let leaseUntil ← toISOString (now + leaseMillis)
  let next ← cleanupOperation s (operation.update (takeLease token input.workerId leaseUntil now))
  pure (recoverySet s next none,
    { operation := next, attempts := s.attempts.filter fun row => row.backupId = next.id })

/-- `{ ...operation, ...clearLease }`. -/
def clearLease (now : Millis) (b : RecoveryBase) : RecoveryBase :=
  { b with cleanupToken := none, cleanupWorker := none, cleanupLeaseUntil := none, updatedAt := now }

def cleanAttempt (now : Millis) (row : RecoveryAttempt) : RecoveryAttempt :=
  { row with state := .CLEANED, cleanupPending := false, updatedAt := now }

/-- The acknowledgement covers every recorded attempt of the backup. -/
def cleanAttempts (attempts : List RecoveryAttempt) (backupId : String) (now : Millis) :
    List RecoveryAttempt :=
  attempts.map fun row => if row.backupId = backupId then cleanAttempt now row else row

def deletedBackup (b : RecoveryBackup) (now : Millis) : RecoveryBackup :=
  { b with toRecoveryBase := { clearLease now b.toRecoveryBase with status := .DELETED } }

def finishBackupCleanup (s : RecoveryState) (b : RecoveryBackup) (now : Millis) :
    Except Thrown (RecoveryState × Operation) := do
  throwIf (restorePinned s.pins b.id) (recoveryError "RECOVERY_RESTORE_PINNED")
  recoveryTransition .backup b.status .DELETED
  let next := Operation.backup (deletedBackup b now)
  let set := recoverySet { s with attempts := cleanAttempts s.attempts b.id now } next none
  pure ({ set with pins := set.pins.filter fun row => row.backupId ≠ b.id }, next)

def cleanedRestore (r : RecoveryRestore) (now : Millis) : RecoveryRestore :=
  { r with toRecoveryBase := clearLease now r.toRecoveryBase, targetCleanedAt := some now }

def finishRestoreCleanup (s : RecoveryState) (r : RecoveryRestore) (now : Millis) :
    Except Thrown (RecoveryState × Operation) := do
  throwIf (r.status ∉ [.FAILED, .CANCELLED]) (recoveryError "RECOVERY_CLEANUP_INELIGIBLE")
  let next := Operation.restore (cleanedRestore r now)
  let set := recoverySet s next none
  pure ({ set with
    resources := set.resources.map fun row =>
      if row.id = r.targetResourceId then
        { row with status := "DELETED", deletionRequestedAt := some now }
      else row
    pins := dropRestorePins set.pins r.id }, next)

def finishRecoveryCleanup (P : Platform) (s : RecoveryState) (input : RecoveryCleanupFence) :
    Except Thrown (RecoveryState × Operation) := do
  let operation ← recoveryOperation s input.toRecoveryClaim
  let now ← recoveryNow P input.clock
  throwIf (operation.base.cleanupToken ≠ some input.token ∨
      operation.base.cleanupWorker ≠ some input.workerId ∨
      deadlineLost operation.base.cleanupLeaseUntil now)
    (recoveryError "RECOVERY_LEASE_LOST")
  let job ← recoveryJob s operation.id
  throwIf (jobTerminal job = false) (recoveryError "RECOVERY_PUBLICATION_UNFENCED")
  match operation with
  | .backup b => finishBackupCleanup s b now
  | .restore r => finishRestoreCleanup s r now

end RaibitServer.Recovery
