import RaibitServer.Lib.Run
import RaibitServer.Recovery.Cleanup

/-!
# Recovery.Repository — `ResourceRecoveryRepository` as a transition system
(`resource-recovery.ts`)

`exec` runs one call of the repository in one transaction.  A `Step` is a call that succeeds, a call
that throws (and leaves the tables as they were), or a change of the surrounding tables by the rest
of the control plane.  A call that draws random identifiers carries them as arguments; `Fresh` says
they are new.
-/

namespace RaibitServer.Recovery

open Lib

/-! ### Deletion requests -/

structure ResourceBackupView where
  id : String
  organizationId : String
  projectId : String
  engine : String
  status : OperationStatus
  createdAt : Millis
  readyAt : Option Millis
  errorCode : Option String
  resourceId : String
  size : Option String
  expiresAt : Option Millis
  recoverable : Bool

def publicRecoveryError (code : Option String) : Option String :=
  code.filter fun c => ["RECOVERY_EXECUTION_FAILED", "SOURCE_CHANGED", "DEADLINE_EXCEEDED"].contains c

def publicBackup (operation : RecoveryBackup) (current : Millis) : ResourceBackupView where
  id := operation.id
  organizationId := operation.organizationId
  projectId := operation.projectId
  engine := operation.engine
  status := operation.status
  createdAt := operation.createdAt
  readyAt := operation.readyAt
  errorCode := publicRecoveryError operation.errorCode
  resourceId := operation.resourceId
  size := operation.artifactSize
  expiresAt := operation.expiresAt
  recoverable := decide (operation.status = .READY) && operation.expiresAt.any (decide <| current < ·)

/-- `requireDeleteConfirmation`: the input is exactly `{ confirmed: true }`. -/
def requireDeleteConfirmation (input : Json) : Except Thrown Unit :=
  let invalid := Thrown.recovery "RECOVERY_INPUT_INVALID" 400
  let required := Thrown.recovery "RECOVERY_CONFIRMATION_REQUIRED" 400
  match input with
  | .obj [] => .error required
  | .obj [(key, value)] =>
    if key ≠ "confirmed" then .error invalid
    else match value with
      | .bool true => .ok ()
      | .bool false => .error required
      | _ => .error invalid
  | _ => .error invalid

structure DeletionRequest extends RecoveryScope where
  id : String
  input : Json
  clock : Clock

def deleteRequestedEvent (actorUserId : String) (next : RecoveryBackup) (at_ : Millis) :
    RecoveryAuditEvent where
  actorUserId := actorUserId
  action := "resource.backup:delete-requested"
  targetType := "resource-backup"
  targetId := next.id
  engine := next.engine
  status := next.status
  createdAt := at_

def markDeleting (P : Platform) (s : RecoveryState) (request : DeletionRequest)
    (backup : RecoveryBackup) : Except Thrown (RecoveryState × ResourceBackupView) := do
  throwIf (backup.status ∉ [.READY, .FAILED, .EXPIRED])
    (recoveryError "RECOVERY_CLEANUP_INELIGIBLE")
  throwIf (restorePinned s.pins backup.id) (recoveryError "RECOVERY_RESTORE_PINNED")
  recoveryTransition .backup backup.status .DELETING
  let now ← recoveryNow P request.clock
  let next := { backup with status := .DELETING, updatedAt := now }
  let set := recoverySet s (.backup next) none
  let event := deleteRequestedEvent request.actorUserId next now
  pure ({ set with auditEvents := set.auditEvents ++ [event] }, publicBackup next now)

def requestBackupDeletion (P : Platform) (s : RecoveryState) (request : DeletionRequest) :
    Except Thrown (RecoveryState × ResourceBackupView) := do
  requireDeleteConfirmation request.input
  let backup ← orThrow (s.backups.find? fun row =>
    row.id = request.id ∧ row.organizationId = request.organizationId)
    (.recovery "RECOVERY_NOT_FOUND" 404)
  recoveryAuthorized s request.toRecoveryScope "backup:manage"
  if backup.status = .DELETING ∨ backup.status = .DELETED then
    let now ← recoveryNow P request.clock
    pure (s, publicBackup backup now)
  else markDeleting P s request backup

/-! ### Calls -/

/-- The constructor's `enforceQuota`; it sees the state before the creation. -/
abbrev RecoveryQuotaPolicy := RecoveryState → RecoveryRequest → RecoveryKind → Except Thrown Unit

/-- `ResourceRecoveryRepository.create`. -/
def create (P : Platform) (enforceQuota : RecoveryQuotaPolicy) (s : RecoveryState)
    (request : RecoveryRequest) (kind : RecoveryKind) (ids : FreshIds) :
    Except Thrown (RecoveryState × Created) := do
  let (s', result) ← createRecovery P s request kind ids
  if result.replay then pure (s', result)
  else
    enforceQuota s request kind
    pure (s', result)

inductive Call
  | createBackup (request : RecoveryRequest) (ids : FreshIds)
  | createRestore (request : RecoveryRequest) (ids : FreshIds)
  | requestBackupDeletion (request : DeletionRequest)
  | claim (input : RecoveryClaim)
  | mutate (input : RecoveryFence) (mutation : RecoveryMutation)
  | cancelRestore (request : CancelRequest)
  | expireBackup (input : ExpireRequest)
  | claimCleanup (input : RecoveryClaim) (token : String)
  | finishCleanup (input : RecoveryCleanupFence)

inductive Output
  | created (result : Created)
  | view (backup : ResourceBackupView)
  | result (result : RecoveryResult)
  | cancelled (restore : RecoveryRestore)
  | expired (backup : RecoveryBackup)
  | cleanupClaimed (claimed : CleanupClaimed)
  | cleaned (operation : Operation)

/-- A transaction's state and result, with the result as an `Output`. -/
def answer {α : Type} (wrap : α → Output) (r : Except Thrown (RecoveryState × α)) :
    Except Thrown (RecoveryState × Output) := do
  let (s', a) ← r
  pure (s', wrap a)

def exec (P : Platform) (enforceQuota : RecoveryQuotaPolicy) (s : RecoveryState) :
    Call → Except Thrown (RecoveryState × Output)
  | .createBackup request ids => answer .created (create P enforceQuota s request .backup ids)
  | .createRestore request ids => answer .created (create P enforceQuota s request .restore ids)
  | .requestBackupDeletion request => answer .view (requestBackupDeletion P s request)
  | .claim input => answer .result (claimRecovery P s input)
  | .mutate input mutation => answer .result (mutateRecovery P s input mutation)
  | .cancelRestore request => answer .cancelled (cancelRecoveryRestore P s request)
  | .expireBackup input => answer .expired (expireRecoveryBackup P s input)
  | .claimCleanup input token => answer .cleanupClaimed (claimRecoveryCleanup P s input token)
  | .finishCleanup input => answer .cleaned (finishRecoveryCleanup P s input)

/-! ### Runs -/

/-- The identifiers a creation draws name no operation and no job yet. -/
def FreshFor (P : Platform) (s : RecoveryState) (kind : RecoveryKind) (ids : FreshIds) : Prop :=
  (∀ o ∈ s.operations, o.id ≠ operationId kind ids) ∧
    ∀ j ∈ s.jobs, j.id ≠ jobId P kind (operationId kind ids)

def Fresh (P : Platform) (s : RecoveryState) : Call → Prop
  | .createBackup _ ids => FreshFor P s .backup ids
  | .createRestore _ ids => FreshFor P s .restore ids
  | _ => True

instance (P : Platform) (s : RecoveryState) (kind : RecoveryKind) (ids : FreshIds) :
    Decidable (FreshFor P s kind ids) := inferInstanceAs (Decidable (_ ∧ _))

instance (P : Platform) (s : RecoveryState) : (call : Call) → Decidable (Fresh P s call)
  | .createBackup _ ids => inferInstanceAs (Decidable (FreshFor P s .backup ids))
  | .createRestore _ ids => inferInstanceAs (Decidable (FreshFor P s .restore ids))
  | .requestBackupDeletion _ | .claim _ | .mutate _ _ | .cancelRestore _ | .expireBackup _
  | .claimCleanup _ _ | .finishCleanup _ => inferInstanceAs (Decidable True)

/-- The recovery tables are untouched; the surrounding ones may differ. -/
structure SameTables (s t : RecoveryState) : Prop where
  backups : t.backups = s.backups
  restores : t.restores = s.restores
  pins : t.pins = s.pins
  attempts : t.attempts = s.attempts
  jobs : t.jobs = s.jobs

inductive Event
  | returned (call : Call) (output : Output)
  | threw (call : Call) (error : Thrown)
  | environment

inductive Step (P : Platform) (enforceQuota : RecoveryQuotaPolicy) :
    RecoveryState → Event → RecoveryState → Prop
  | returned {s t : RecoveryState} {call : Call} {output : Output} (fresh : Fresh P s call)
      (run : exec P enforceQuota s call = .ok (t, output)) :
      Step P enforceQuota s (.returned call output) t
  | threw {s : RecoveryState} {call : Call} {error : Thrown}
      (run : exec P enforceQuota s call = .error error) :
      Step P enforceQuota s (.threw call error) s
  | environment {s t : RecoveryState} (same : SameTables s t) :
      Step P enforceQuota s .environment t

/-- Empty recovery tables, whatever the surrounding ones hold. -/
structure EmptyTables (s : RecoveryState) : Prop where
  backups : s.backups = []
  restores : s.restores = []
  pins : s.pins = []
  attempts : s.attempts = []
  jobs : s.jobs = []

end RaibitServer.Recovery
