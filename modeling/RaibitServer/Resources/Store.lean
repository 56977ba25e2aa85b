import RaibitServer.Core.EnvFile
import RaibitServer.Core.Lifecycle
import RaibitServer.Lib.Guard
import RaibitServer.Lib.Keyed

/-!
# Resources.Store — deleting resources that are attached to services

The part of `packages/core/src/persistence.ts` that takes what a resource injected into the environment of
services out again and cancels the work on it.  What an attachment injects is kept three times: in
`injectedEnv` of the attachment, as rows of the environment with the source `resource:<id>`, and as
entries of `desiredSpec.secretEnv` of the service.

The deletion is one serializable transaction, a function of the tables that fails or gives the tables
after it.  Rows that the schema identifies by a unique pair (attachments, environment variables) are keyed
by that pair.
-/

namespace RaibitServer.Resources

open Lib Core

/-! ### Tables -/

structure Project where
  id : String
  organizationId : String
  status : String
  deletionRequestedAt : Option Nat
  deriving DecidableEq, Repr

structure Resource where
  id : String
  projectId : String
  engine : String
  status : String
  deletionRequestedAt : Option Nat
  deriving DecidableEq, Repr

/-- A JSON object with its names apart, in enumeration order. -/
abbrev Record := Keyed (Prod.fst : String × Json → String)

structure Service where
  id : String
  projectId : String
  status : String
  deletionRequestedAt : Option Nat
  desiredSpec : Record

structure SecretKeyRef where
  name : String
  key : String
  deriving DecidableEq, Repr

abbrev InjectedEnv := List (String × SecretKeyRef)

structure Attachment where
  resourceId : String
  serviceId : String
  envPrefix : Option String
  injectedEnv : InjectedEnv
  deriving DecidableEq, Repr

def Attachment.pair (a : Attachment) : String × String := (a.resourceId, a.serviceId)

def Attachment.keys (a : Attachment) : List String := a.injectedEnv.map Prod.fst

structure EnvironmentVariable where
  projectId : String
  serviceId : String
  key : String
  value : Option String
  isSecret : Bool
  valueMasked : String
  secretRef : Option String
  source : String
  deriving DecidableEq, Repr

def EnvironmentVariable.pair (v : EnvironmentVariable) : String × String := (v.serviceId, v.key)

structure SecretValue where
  id : String
  scopeType : String
  scopeId : String
  key : String

def SecretValue.scope (s : SecretValue) : String × String × String := (s.scopeType, s.scopeId, s.key)

structure Deployment where
  id : String
  serviceId : String
  projectId : String
  status : String
  finishedAt : Option Nat
  errorCode : Option String
  errorMessage : Option String
  reconcileAction : Option String
  reconcileLockedBy : Option String
  reconcileLockedAt : Option Nat
  deriving DecidableEq, Repr

structure WorkflowJob where
  id : String
  status : String
  targetType : String
  targetId : String
  lockedBy : Option String
  lockedAt : Option Nat
  deriving DecidableEq, Repr

structure RecoveryPin where
  resourceId : String
  kind : String
  deriving DecidableEq, Repr

structure AuditLog where
  actorUserId : Option String
  action : String
  targetType : String
  targetId : String
  metadata : Json

structure Database where
  projects : Keyed Project.id
  resources : Keyed Resource.id
  services : Keyed Service.id
  attachments : Keyed Attachment.pair
  environment : Keyed EnvironmentVariable.pair
  secretValues : Keyed SecretValue.scope
  deployments : Keyed Deployment.id
  workflowJobs : Keyed WorkflowJob.id
  recoveryPins : List RecoveryPin
  auditLogs : List AuditLog

/-! ### Guards -/

def deletionRequestedStatus : String := "DELETE_REQUESTED"

def deletionStatuses : List String := [deletionRequestedStatus, "DELETING"]

def isDeleting (status : String) : Bool := deletionStatuses.contains (Text.upper status)

def assertPostgresRecoveryPins (db : Database) (resourceIds : List String) : Except StatusError Unit :=
  throwIf (∃ pin ∈ db.recoveryPins, pin.resourceId ∈ resourceIds) ⟨409, "RESOURCE_RECOVERY_PINNED"⟩

/-- The rows that the deletion of a resource locks are those of its project. -/
def lockRecoveryResource (db : Database) (resourceId : String) : Except StatusError Unit :=
  match (db.resources.get? resourceId).bind fun r => db.projects.get? r.projectId with
  | none => .ok ()
  | some owner =>
    assertPostgresRecoveryPins db
      ((db.resources.select fun r => r.projectId = owner.id && r.id = resourceId).map Resource.id)

/-! ### Desired specs -/

def maskedMember (m : String × Json) : String × Json := (m.1, maskMember m.1 m.2)

theorem maskedMember_name (m : String × Json) : (maskedMember m).1 = m.1 := rfl

def sanitizeJson (spec : Record) : Record :=
  spec.update (fun _ => true) maskedMember maskedMember_name

/-- `spec.secretEnv`, if it is an array. -/
def secretEnvOf (spec : Record) : Option (List Json) :=
  Json.asArray ((spec.get? "secretEnv").map Prod.snd)

def withSecretEnv (spec : Record) (entries : List Json) : Record := spec.put ("secretEnv", .arr entries)

/-- `String(entry?.name || '')`. -/
def entryName : Json → String
  | .obj members =>
    match Json.member members "name" with
    | some name => if name.isTruthy then name.jsText else ""
    | none => ""
  | _ => ""

theorem secretEnvOf_eq_some {spec : Record} {entries : List Json} :
    secretEnvOf spec = some entries ↔ spec.get? "secretEnv" = some ("secretEnv", .arr entries) := by
  unfold secretEnvOf
  rw [Json.asArray_eq_some]
  constructor
  · intro h
    obtain ⟨⟨key, value⟩, hget, hvalue⟩ := Option.map_eq_some_iff.1 h
    obtain rfl : key = "secretEnv" := (Keyed.get?_eq_some.1 hget).2
    rw [hget, ← hvalue]
  · intro h
    rw [h]
    rfl

def Service.setSpec (spec : Record) (s : Service) : Service := { s with desiredSpec := spec }

/-! ### Revoking attachments -/

def resourceSource (resourceId : String) : String := "resource:" ++ resourceId

/-- The environment rows an attachment injected. -/
def injectedRows (db : Database) (a : Attachment) : List EnvironmentVariable :=
  db.environment.select fun v =>
    v.serviceId = a.serviceId && a.keys.contains v.key && v.source = resourceSource a.resourceId

/-- Ids of rows of `SecretValue`, not references to Secrets of the cluster. -/
def isSecretValueId (secretRef : String) : Bool := secretRef != "" && !Text.startsWith secretRef "k8s:"

/-- A service is rewritten for an attachment only if both have something to take out. -/
def losesSecretEnv (a : Attachment) (s : Service) : Bool :=
  s.id = a.serviceId && !a.keys.isEmpty && (secretEnvOf s.desiredSpec).isSome

/-- Entries go by name alone. -/
def dropSecretEnv (a : Attachment) (s : Service) : Service :=
  let secretEnv := ((secretEnvOf s.desiredSpec).getD []).filter fun entry =>
    !a.keys.contains (entryName entry)
  s.setSpec (sanitizeJson (withSecretEnv s.desiredSpec secretEnv))

theorem dropSecretEnv_id (a : Attachment) (s : Service) : (dropSecretEnv a s).id = s.id := rfl

def attachmentsOf (db : Database) (resourceIds : List String) : List Attachment :=
  db.attachments.select fun a => resourceIds.contains a.resourceId

def revokeResourceAttachments (db : Database) (resourceIds : List String) : Database × Nat :=
  if resourceIds.isEmpty then (db, 0)
  else
    let attachments := attachmentsOf db resourceIds
    let rows := attachments.flatMap (injectedRows db)
    let secretIds := (rows.filterMap EnvironmentVariable.secretRef).filter isSecretValueId
    ({ db with
      secretValues := db.secretValues.filter fun s => !secretIds.contains s.id
      environment := db.environment.filter fun v => !(rows.map EnvironmentVariable.pair).contains v.pair
      services := attachments.foldl
        (fun t a => t.update (losesSecretEnv a) (dropSecretEnv a) (dropSecretEnv_id a)) db.services
      attachments := db.attachments.filter fun a => !resourceIds.contains a.resourceId },
      attachments.length)

/-! ### Cancelling work -/

structure DeletionScope where
  projectId : String
  serviceIds : List String
  resourceIds : List String
  deploymentIds : List String

/-- The filter depends on which fields of the scope are given. -/
def DeletionScope.holds (scope : DeletionScope) (d : Deployment) : Bool :=
  if !scope.serviceIds.isEmpty then scope.serviceIds.contains d.serviceId
  else if scope.projectId ≠ "" then d.projectId = scope.projectId
  else true

def DeletionScope.targets (scope : DeletionScope) : List (String × String) :=
  (if scope.projectId ≠ "" then [("project", scope.projectId)] else []) ++
    scope.serviceIds.map (fun id => ("service", id)) ++ scope.resourceIds.map (fun id => ("resource", id)) ++
      scope.deploymentIds.map fun id => ("deployment", id)

def cancelledDeployment (now : Nat) (d : Deployment) : Deployment :=
  { d with
    status := "CANCELLED"
    finishedAt := some now
    errorCode := some "PARENT_DELETE_REQUESTED"
    errorMessage := some "Deployment cancelled because its parent is being deleted"
    reconcileAction := none
    reconcileLockedBy := none
    reconcileLockedAt := none }

def cancelledJob (j : WorkflowJob) : WorkflowJob := { j with status := "cancelled", lockedBy := none, lockedAt := none }

theorem cancelledDeployment_id (now : Nat) (d : Deployment) : (cancelledDeployment now d).id = d.id := rfl

theorem cancelledJob_id (j : WorkflowJob) : (cancelledJob j).id = j.id := rfl

def cancelDeletionWork (db : Database) (scope : DeletionScope) (now : Nat) : Database :=
  { db with
    deployments := db.deployments.update
      (fun d => !terminalDeploymentStatuses.contains d.status && scope.holds d) (cancelledDeployment now)
      (cancelledDeployment_id now)
    workflowJobs := db.workflowJobs.update
      (fun j => !terminalWorkflowStatuses.contains j.status && scope.targets.contains (j.targetType, j.targetId))
      cancelledJob cancelledJob_id }

/-! ### Deleting -/

def markedResource (requestedAt : Nat) (r : Resource) : Resource :=
  { r with status := deletionRequestedStatus, deletionRequestedAt := some requestedAt }

theorem markedResource_id (requestedAt : Nat) (r : Resource) : (markedResource requestedAt r).id = r.id := rfl

/-- Rows that are marked already keep their mark. -/
def markResources (t : Keyed Resource.id) (p : Resource → Bool) (requestedAt : Nat) : Keyed Resource.id :=
  t.update (fun r => p r && !deletionStatuses.contains r.status) (markedResource requestedAt)
    (markedResource_id requestedAt)

def deleteResource (db : Database) (resourceId : String) (now : Nat) :
    Except StatusError (Database × Option Resource) := do
  lockRecoveryResource db resourceId
  match db.resources.get? resourceId with
  | none => return (db, none)
  | some current =>
    let (revoked, attachmentsRevoked) := revokeResourceAttachments db [resourceId]
    let marked := { revoked with
      resources := markResources revoked.resources (fun r => r.id = resourceId)
        (current.deletionRequestedAt.getD now) }
    let quiet := cancelDeletionWork marked ⟨current.projectId, [], [resourceId], []⟩ now
    let metadata : Json := .obj [("projectId", .str current.projectId), ("engine", .str current.engine),
      ("repeated", .bool (isDeleting current.status)), ("attachmentsRevoked", .num attachmentsRevoked)]
    let done := { quiet with auditLogs := quiet.auditLogs ++
      [⟨none, "resource:delete-requested", "resource", resourceId, maskSecrets metadata⟩] }
    return (done, done.resources.get? resourceId)

end RaibitServer.Resources
