import RaibitServer.Lib.Table
import RaibitServer.Core.Rbac
import RaibitServer.Recovery.Provenance

/-!
# Recovery.State — reads, the lifecycle contract, and the creation of operations
(`resource-recovery-state.ts`, the backup and restore machines of `lifecycle-v1.json`)

A function that changes the state returns the changed copy: a transaction works on a clone, and a
throw drops it.
-/

namespace RaibitServer.Recovery

open Lib

/-! ### Time -/

/-- `new Date(t).toISOString()`, by its time value. -/
def toISOString (t : Millis) : Except Thrown Millis :=
  if -8640000000000000 ≤ t ∧ t ≤ 8640000000000000 then .ok t else .error .rangeError

def recoveryNow (P : Platform) (clock : Clock) : Except Thrown Millis :=
  match clock.now with
  | none => toISOString clock.host
  | some value =>
    match P.dateParse value with
    | none => .error (.recovery "RECOVERY_TIME_INVALID" 400)
    | some t => toISOString t

/-! ### Reads -/

def recoveryAuthorized (s : RecoveryState) (scope : RecoveryScope) (permission : String) :
    Except Thrown Unit := do
  let member ← orThrow (s.members.find? fun row => row.organizationId = scope.organizationId ∧
    row.userId = scope.actorUserId) (.recovery "RECOVERY_NOT_FOUND" 404)
  throwIf (scope.organizationId ∉ s.organizations) (.recovery "RECOVERY_NOT_FOUND" 404)
  throwIf (Core.can member.role permission = false) (.recovery "RECOVERY_FORBIDDEN" 403)

def activeRecoveryResource (s : RecoveryState) (id organizationId : String) :
    Except Thrown RecoveryResource := do
  let resource ← orThrow (s.resources.find? fun row => row.id = id)
    (.recovery "RECOVERY_NOT_FOUND" 404)
  let project ← orThrow (s.projects.find? fun row => row.id = resource.projectId ∧
    row.organizationId = organizationId) (.recovery "RECOVERY_NOT_FOUND" 404)
  throwIf (project.status ≠ "ACTIVE" ∨ project.deletionRequestedAt.isSome ∨
      resource.deletionRequestedAt.isSome ∨
      resource.status ∈ ["DELETE_REQUESTED", "DELETING", "DELETED"])
    (recoveryError "RECOVERY_PARENT_DELETING")
  pure resource

/-- A row typed `RecoveryBackup` always has its provenance, so only the format can be legacy. -/
def recoveryBackup (s : RecoveryState) (id organizationId : String) :
    Except Thrown RecoveryBackup := do
  let backup ← orThrow (s.backups.find? fun row => row.id = id ∧ row.organizationId = organizationId)
    (.recovery "RECOVERY_NOT_FOUND" 404)
  throwIf (backup.formatVersion ≠ 1) (recoveryError "LEGACY_BACKUP_UNVERIFIED")
  pure backup

def recoveryJob (s : RecoveryState) (operationId : String) : Except Thrown RecoveryJob :=
  orThrow (s.jobs.find? fun row => row.targetId = operationId) (recoveryError "RECOVERY_JOB_MISSING")

/-! ### Transitions and writes -/

/-- `LIFECYCLE_CONTRACT.machines[kind].states[from].next`, empty for a state the machine lacks. -/
def lifecycleNext : RecoveryKind → OperationStatus → List OperationStatus
  | .backup, .QUEUED => [.RUNNING, .FAILED]
  | .backup, .RUNNING => [.VERIFYING, .FAILED]
  | .backup, .VERIFYING => [.READY, .FAILED]
  | .backup, .READY => [.EXPIRED, .DELETING]
  | .backup, .FAILED => [.DELETING]
  | .backup, .EXPIRED => [.DELETING]
  | .backup, .DELETING => [.DELETED, .FAILED]
  | .restore, .QUEUED => [.RUNNING, .FAILED, .CANCELLED]
  | .restore, .RUNNING => [.VERIFYING, .FAILED, .CANCELLED]
  | .restore, .VERIFYING => [.READY, .FAILED, .CANCELLED]
  | _, _ => []

def recoveryTransition (kind : RecoveryKind) (source target : OperationStatus) :
    Except Thrown Unit :=
  throwIf (source = target ∨ target ∉ lifecycleNext kind source)
    (recoveryError "RECOVERY_TRANSITION_INVALID")

def recoverySet (s : RecoveryState) (operation : Operation) (job : Option RecoveryJob) :
    RecoveryState :=
  let jobs := match job with
    | some j => Table.replace RecoveryJob.id j s.jobs
    | none => s.jobs
  match operation with
  | .backup b => { s with backups := Table.replace (·.id) b s.backups, jobs }
  | .restore r => { s with restores := Table.replace (·.id) r s.restores, jobs }

/-! ### Creation -/

/-- The random identifiers one creation draws. -/
structure FreshIds where
  operation : String
  target : String
  pin : String

structure Created where
  operation : Operation
  job : RecoveryJob
  replay : Bool

def kindText : RecoveryKind → String
  | .backup => "backup"
  | .restore => "restore"

def createPermission : RecoveryKind → String
  | .backup => "backup:manage"
  | .restore => "backup:restore"

def jobType : RecoveryKind → String
  | .backup => "resource.backup"
  | .restore => "resource.restore"

def targetType : RecoveryKind → String
  | .backup => "resource-backup"
  | .restore => "resource-restore"

def operationId (kind : RecoveryKind) (ids : FreshIds) : String :=
  kindText kind ++ "_" ++ ids.operation

def jobId (P : Platform) (kind : RecoveryKind) (id : String) : String :=
  "job_" ++ recoveryHash P (jobType kind ++ "\x00" ++ id).toList

def requestFingerprint (P : Platform) (request : RecoveryRequest) (body : RecoveryBody)
    (kind : RecoveryKind) : String :=
  recoveryHash P (canonicalRecoveryJson (.obj [("formatVersion", .num body.formatVersion),
    ("sourceId", .str request.sourceId), ("name", body.name.elim .null .str),
    ("kind", .str (kindText kind))]))

/-- The operation an earlier request with the same key created. -/
def existingOperation (s : RecoveryState) (request : RecoveryRequest) (body : RecoveryBody) :
    RecoveryKind → Option Operation
  | .backup => (s.backups.find? fun row => row.resourceId = request.sourceId ∧
      row.organizationId = request.organizationId ∧
      row.requestIdempotencyKey = body.requestIdempotencyKey).map .backup
  | .restore => (s.restores.find? fun row => row.backupId = request.sourceId ∧
      row.organizationId = request.organizationId ∧
      row.requestIdempotencyKey = body.requestIdempotencyKey).map .restore

/-- The source a request names belongs to its organization. -/
def sourceKnown (s : RecoveryState) (request : RecoveryRequest) : RecoveryKind → Bool
  | .backup => (s.resources.find? fun row => row.id = request.sourceId).any fun resource =>
      s.projects.any fun project =>
        project.id = resource.projectId ∧ project.organizationId = request.organizationId
  | .restore => s.backups.any fun row =>
      row.id = request.sourceId ∧ row.organizationId = request.organizationId

def recoveryEngines : List String := ["postgresql", "mysql", "mariadb", "mongodb", "redis", "valkey"]

/-- The source of a new operation: active, ready, of a known engine, with its provenance. -/
def readySource (P : Platform) (s : RecoveryState) (resourceId organizationId : String) :
    Except Thrown (RecoveryResource × CapturedProvenance) := do
  let source ← activeRecoveryResource s resourceId organizationId
  throwIf (source.status ≠ "READY") (recoveryError "SOURCE_NOT_READY")
  throwIf (source.engine ∉ recoveryEngines) (recoveryError "RECOVERY_ENGINE_UNSUPPORTED")
  let provenance ← captureRecoveryProvenance P source
  pure (source, provenance)

def newBase (request : RecoveryRequest) (kind : RecoveryKind) (ids : FreshIds)
    (source : RecoveryResource) (sourceGeneration : String) (body : RecoveryBody)
    (fingerprint : String) (now : Millis) : RecoveryBase where
  id := operationId kind ids
  formatVersion := 1
  organizationId := request.organizationId
  projectId := source.projectId
  engine := source.engine
  provider := source.provider
  sourceGeneration := sourceGeneration
  requestedByUserId := request.actorUserId
  requestIdempotencyKey := body.requestIdempotencyKey
  requestFingerprint := fingerprint
  status := .QUEUED
  createdAt := now
  updatedAt := now
  startedAt := none
  deadlineAt := none
  readyAt := none
  errorCode := none
  cleanupToken := none
  cleanupWorker := none
  cleanupLeaseUntil := none

def newJob (P : Platform) (kind : RecoveryKind) (id : String) (now : Millis) : RecoveryJob where
  id := jobId P kind id
  type := jobType kind
  targetType := targetType kind
  targetId := id
  payloadVersion := 1
  payloadOperationId := id
  status := .queued
  attempts := 0
  maxAttempts := 3
  lockedBy := none
  lockedAt := none
  createdAt := now
  updatedAt := now
  runAfter := now

def newBackup (base : RecoveryBase) (source : RecoveryResource) (provenance : CapturedProvenance) :
    RecoveryBackup where
  toRecoveryBase := base
  resourceId := source.id
  sourceProvenance := provenance.sourceProvenance
  sourceSpec := provenance.sourceSpec
  artifactKey := none
  artifactChecksum := none
  artifactSize := none
  encryptionKeyVersion := none
  winningAttempt := none
  expiresAt := none

def newRestore (base : RecoveryBase) (sourceBackup : RecoveryBackup) (source : RecoveryResource)
    (targetId : String) : RecoveryRestore where
  toRecoveryBase := base
  backupId := sourceBackup.id
  sourceResourceId := source.id
  targetResourceId := targetId
  targetCleanedAt := none

/-- The resource a restore is written into; it stays unpublished until the restore is ready. -/
def restoreTarget (source : RecoveryResource) (targetId name restoreId : String)
    (desiredSpec : JsonObject) : RecoveryResource :=
  { source with
    id := targetId, name := name, slug := name, status := "PROVISIONING",
    deletionRequestedAt := none, connectionSecretName := none, desiredSpec := desiredSpec,
    desiredState := [("recoveryRestoreId", .str restoreId), ("recoveryPublicationBlocked", .bool true)] }

def createdPin (kind : PinKind) (ids : FreshIds) (resourceId backupId : String)
    (restoreId : Option String) (now : Millis) : RecoveryPin :=
  { id := "pin_" ++ ids.pin, kind, resourceId, backupId, restoreId, createdAt := now }

def requestedEvent (request : RecoveryRequest) (kind : RecoveryKind) (base : RecoveryBase) :
    RecoveryAuditEvent where
  actorUserId := request.actorUserId
  action := jobType kind ++ ":requested"
  targetType := targetType kind
  targetId := base.id
  engine := base.engine
  status := base.status
  createdAt := base.createdAt

/-- The backup branch of `createRecovery`, once the request is known to be new and authorized. -/
def createBackupRow (P : Platform) (s : RecoveryState) (request : RecoveryRequest) (ids : FreshIds)
    (body : RecoveryBody) (now : Millis) : Except Thrown (RecoveryState × Created) := do
  let (source, provenance) ← readySource P s request.sourceId request.organizationId
  let base := newBase request .backup ids source provenance.sourceGeneration body
    (requestFingerprint P request body .backup) now
  let row := newBackup base source provenance
  let job := newJob P .backup base.id now
  pure ({ s with
    backups := s.backups ++ [row]
    pins := s.pins ++ [createdPin .ARTIFACT_SOURCE ids source.id base.id none now]
    jobs := s.jobs ++ [job]
    auditEvents := s.auditEvents ++ [requestedEvent request .backup base] },
    { operation := .backup row, job, replay := false })

/-- A backup that can be restored from at `now`. -/
def recoverable (backup : RecoveryBackup) (now : Millis) : Prop :=
  backup.status = .READY ∧ (∃ t ∈ backup.expiresAt, now < t) ∧ Text.truthy backup.artifactKey ∧
    Text.truthy backup.artifactChecksum ∧ Text.truthy backup.artifactSize ∧
    Text.truthy backup.encryptionKeyVersion

instance (backup : RecoveryBackup) (now : Millis) : Decidable (recoverable backup now) :=
  inferInstanceAs (Decidable (_ ∧ _ ∧ _ ∧ _ ∧ _ ∧ _))

/-- The restore branch of `createRecovery`. -/
def createRestoreRow (P : Platform) (s : RecoveryState) (request : RecoveryRequest)
    (ids : FreshIds) (body : RecoveryBody) (now : Millis) :
    Except Thrown (RecoveryState × Created) := do
  let sourceBackup ← recoveryBackup s request.sourceId request.organizationId
  let (source, provenance) ← readySource P s sourceBackup.resourceId request.organizationId
  throwIf (¬ recoverable sourceBackup now) (recoveryError "BACKUP_NOT_RECOVERABLE")
  throwIf (sourceBackup.sourceGeneration ≠ provenance.sourceGeneration)
    (recoveryError "SOURCE_CHANGED")
  let base := newBase request .restore ids source provenance.sourceGeneration body
    (requestFingerprint P request body .restore) now
  let name := body.name.getD ""
  throwIf (s.resources.any fun row =>
      row.projectId = source.projectId ∧ (row.name = name ∨ row.slug = name))
    (recoveryError "RESTORE_TARGET_EXISTS")
  let targetId := "res_" ++ ids.target
  let desiredSpec ← orThrow (Json.asObject (Json.member sourceBackup.sourceSpec "desiredSpec"))
    (recoveryError "SOURCE_PROVENANCE_UNAVAILABLE")
  let row := newRestore base sourceBackup source targetId
  let job := newJob P .restore base.id now
  pure ({ s with
    resources := s.resources ++ [restoreTarget source targetId name base.id desiredSpec]
    restores := s.restores ++ [row]
    pins := s.pins ++
      [createdPin .RESTORE_TARGET ids targetId sourceBackup.id (some base.id) now]
    jobs := s.jobs ++ [job]
    auditEvents := s.auditEvents ++ [requestedEvent request .restore base] },
    { operation := .restore row, job, replay := false })

/-- A repeated key answers with the operation it created, or with a conflict. -/
def replayRecovery (P : Platform) (s : RecoveryState) (request : RecoveryRequest)
    (kind : RecoveryKind) (body : RecoveryBody) (existing : Operation) :
    Except Thrown (RecoveryState × Created) := do
  recoveryAuthorized s request.toRecoveryScope (createPermission kind)
  throwIf (existing.base.requestFingerprint ≠ requestFingerprint P request body kind)
    (recoveryError "IDEMPOTENCY_CONFLICT")
  let job ← recoveryJob s existing.id
  pure (s, { operation := existing, job, replay := true })

def createRecovery (P : Platform) (s : RecoveryState) (request : RecoveryRequest)
    (kind : RecoveryKind) (ids : FreshIds) : Except Thrown (RecoveryState × Created) := do
  let body ← recoveryBody request.body (kind = .restore)
  let now ← recoveryNow P request.clock
  match existingOperation s request body kind with
  | some existing => replayRecovery P s request kind body existing
  | none =>
    throwIf (sourceKnown s request kind = false) (.recovery "RECOVERY_NOT_FOUND" 404)
    recoveryAuthorized s request.toRecoveryScope (createPermission kind)
    match kind with
    | .backup => createBackupRow P s request ids body now
    | .restore => createRestoreRow P s request ids body now

end RaibitServer.Recovery
