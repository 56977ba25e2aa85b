import RaibitServer.Lib.Json

/-!
# Recovery.Types — records of resource recovery (`resource-recovery-types.ts`)

Every time in the recovery tables was written by `toISOString`; the model holds its time value in
milliseconds.  A backup and a restore share `RecoveryBase`; their status types are the two state
sets of `lifecycle-v1.json`, and `status` here ranges over the union of both, as the parameters of
`recoveryTransition` do.
-/

namespace RaibitServer.Recovery

open Lib

abbrev Millis := Int

inductive RecoveryKind
  | backup | restore
  deriving DecidableEq

inductive OperationStatus
  | QUEUED | RUNNING | VERIFYING | READY | EXPIRED | FAILED | CANCELLED | DELETING | DELETED
  deriving DecidableEq

inductive JobStatus
  | queued | running | succeeded | failed | cancelled
  deriving DecidableEq

inductive AttemptState
  | INTENT | UPLOADING | PREPARED | COMPLETE | VERIFIED | CLEANED
  deriving DecidableEq

inductive PinKind
  | ARTIFACT_SOURCE | RESTORE_TARGET
  deriving DecidableEq

/-! ### The surrounding tables -/

structure RecoveryResource where
  id : String
  projectId : String
  name : String
  slug : String
  type : String
  engine : String
  provider : String
  plan : String
  region : String
  version : Option String
  status : String
  deletionRequestedAt : Option Millis
  desiredSpec : JsonObject
  desiredState : JsonObject
  connectionSecretName : Option String

structure RecoveryProject where
  id : String
  organizationId : String
  status : String
  deletionRequestedAt : Option Millis

structure RecoveryMember where
  organizationId : String
  userId : String
  role : String

/-! ### Operations -/

structure RecoveryImage where
  image : String
  workloadUid : String
  workloadGeneration : Int
  observedAt : String

structure ProviderIdentity where
  ns : String
  name : String

structure RecoveryProvenance where
  providerImageProvenance : RecoveryImage
  providerIdentity : ProviderIdentity
  credentialSecretUID : String
  credentialSecretGeneration : String

structure RecoveryBase where
  id : String
  formatVersion : Nat
  organizationId : String
  projectId : String
  engine : String
  provider : String
  sourceGeneration : String
  requestedByUserId : String
  requestIdempotencyKey : String
  requestFingerprint : String
  status : OperationStatus
  createdAt : Millis
  updatedAt : Millis
  startedAt : Option Millis
  deadlineAt : Option Millis
  readyAt : Option Millis
  errorCode : Option String
  cleanupToken : Option String
  cleanupWorker : Option String
  cleanupLeaseUntil : Option Millis

structure RecoveryBackup extends RecoveryBase where
  resourceId : String
  sourceProvenance : RecoveryProvenance
  sourceSpec : JsonObject
  artifactKey : Option String
  artifactChecksum : Option String
  artifactSize : Option String
  encryptionKeyVersion : Option String
  winningAttempt : Option Nat
  expiresAt : Option Millis

structure RecoveryRestore extends RecoveryBase where
  backupId : String
  sourceResourceId : String
  targetResourceId : String
  targetCleanedAt : Option Millis

structure RecoveryPin where
  id : String
  kind : PinKind
  resourceId : String
  backupId : String
  restoreId : Option String
  createdAt : Millis

structure RecoveryAttempt where
  backupId : String
  attempt : Nat
  objectKey : String
  uploadId : Option String
  keyVersion : String
  firstClaimAt : Millis
  candidateStoredBytes : Option String
  candidatePlaintextBytes : Option String
  candidateChecksum : Option String
  state : AttemptState
  cleanupPending : Bool
  createdAt : Millis
  updatedAt : Millis

structure RecoveryJob where
  id : String
  type : String
  targetType : String
  targetId : String
  payloadVersion : Nat
  payloadOperationId : String
  status : JobStatus
  attempts : Nat
  maxAttempts : Nat
  lockedBy : Option String
  lockedAt : Option Millis
  createdAt : Millis
  updatedAt : Millis
  runAfter : Millis

structure RecoveryAuditEvent where
  actorUserId : String
  action : String
  targetType : String
  targetId : String
  engine : String
  status : OperationStatus
  createdAt : Millis

/-- A backup row from before the format had a version. -/
structure LegacyBackup where
  id : String
  resourceId : String

structure RecoveryState where
  organizations : List String
  projects : List RecoveryProject
  resources : List RecoveryResource
  members : List RecoveryMember
  backups : List RecoveryBackup
  restores : List RecoveryRestore
  pins : List RecoveryPin
  attempts : List RecoveryAttempt
  jobs : List RecoveryJob
  auditEvents : List RecoveryAuditEvent
  legacyBackups : List LegacyBackup := []

/-- `RecoveryBackup | RecoveryRestore`; the source tells them apart by `'resourceId' in operation`. -/
inductive Operation
  | backup (row : RecoveryBackup)
  | restore (row : RecoveryRestore)

namespace Operation

def base : Operation → RecoveryBase
  | backup b => b.toRecoveryBase
  | restore r => r.toRecoveryBase

def kind : Operation → RecoveryKind
  | backup _ => .backup
  | restore _ => .restore

/-- `{ ...operation, … }` for fields both kinds have. -/
def update (f : RecoveryBase → RecoveryBase) : Operation → Operation
  | backup b => backup { b with toRecoveryBase := f b.toRecoveryBase }
  | restore r => restore { r with toRecoveryBase := f r.toRecoveryBase }

def id (o : Operation) : String := o.base.id

def status (o : Operation) : OperationStatus := o.base.status

@[simp] theorem base_backup (b : RecoveryBackup) : (backup b).base = b.toRecoveryBase := rfl

@[simp] theorem base_restore (r : RecoveryRestore) : (restore r).base = r.toRecoveryBase := rfl

@[simp] theorem id_backup (b : RecoveryBackup) : (backup b).id = b.id := rfl

@[simp] theorem id_restore (r : RecoveryRestore) : (restore r).id = r.id := rfl

@[simp] theorem status_backup (b : RecoveryBackup) : (backup b).status = b.status := rfl

@[simp] theorem status_restore (r : RecoveryRestore) : (restore r).status = r.status := rfl

@[simp] theorem base_id (o : Operation) : o.base.id = o.id := rfl

@[simp] theorem base_status (o : Operation) : o.base.status = o.status := rfl

@[simp] theorem id_update (f : RecoveryBase → RecoveryBase) (o : Operation) :
    (o.update f).id = (f o.base).id := by cases o <;> rfl

@[simp] theorem status_update (f : RecoveryBase → RecoveryBase) (o : Operation) :
    (o.update f).status = (f o.base).status := by cases o <;> rfl

@[simp] theorem base_update (f : RecoveryBase → RecoveryBase) (o : Operation) :
    (o.update f).base = f o.base := by cases o <;> rfl

@[simp] theorem kind_update (f : RecoveryBase → RecoveryBase) (o : Operation) :
    (o.update f).kind = o.kind := by cases o <;> rfl

end Operation

namespace RecoveryState

def operations (s : RecoveryState) : List Operation :=
  s.backups.map .backup ++ s.restores.map .restore

end RecoveryState

/-! ### Requests -/

structure RecoveryScope where
  organizationId : String
  actorUserId : String

/-- `now` is the caller's time; without one the host clock is read. -/
structure Clock where
  now : Option String
  host : Millis

structure RecoveryRequest extends RecoveryScope where
  sourceId : String
  body : Json
  clock : Clock

structure RecoveryClaim where
  organizationId : String
  kind : RecoveryKind
  operationId : String
  workerId : String
  clock : Clock

structure RecoveryFence extends RecoveryClaim where
  attempt : Nat

structure RecoveryCleanupFence extends RecoveryClaim where
  token : String

structure RecoveryArtifact where
  checksum : String
  size : String
  keyVersion : String

inductive RecoveryMutation
  | heartbeat
  | verify
  | ready (artifact : Option RecoveryArtifact)
  | fail (code : String)
  | retry
  | intent (keyVersion : String)
  | candidate (storedBytes plaintextBytes checksum : String)
  | upload (uploadId : String)
  | complete

/-- What a call throws: a `RecoveryError`, the `RangeError` of `toISOString`, or the refusal of the
quota policy. -/
inductive Thrown
  | recovery (code : String) (statusCode : Nat)
  | rangeError
  | quota (reason : String)
  deriving DecidableEq

/-- `new RecoveryError(code)`, whose default status is 409. -/
def recoveryError (code : String) : Thrown := .recovery code 409

/-- The host functions the repository calls. -/
structure Platform where
  /-- Hexadecimal SHA-256 of a text, given by its characters. -/
  sha256 : List Char → String
  /-- `Date.parse`; `none` is `NaN`. -/
  dateParse : String → Option Millis

end RaibitServer.Recovery
