import RaibitServer.Lib.Guard
import RaibitServer.Lib.Regex
import RaibitServer.Lib.Sql
import RaibitServer.Lib.Time
import RaibitServer.Recovery.Types

/-!
# Builder.Store — build jobs and their deployments in PostgreSQL

`postgres_store.go` and what it uses of `store.go`.  A table is the list of its rows and a call is one
transaction: it returns the new tables, or an error and nothing changes.  Of a job's payload only the
member `deploymentId` is ever read, so the row keeps that member.  Statements that skip locked rows
are given the ids they skip.
-/

namespace RaibitServer.Builder

open Lib Text
open Recovery (JobStatus)

/-! ### Rows -/

structure WorkflowJob where
  id : String
  type : String
  status : JobStatus
  targetType : String
  targetId : String
  /-- The text of `payload ->> 'deploymentId'`. -/
  payloadDeploymentId : Option String
  attempts : Nat
  maxAttempts : Int
  runAfter : Micros
  lockedBy : Option String
  lockedAt : Option Micros
  createdAt : Micros
  updatedAt : Micros
  deriving DecidableEq

structure Deployment where
  id : String
  serviceId : String
  projectId : String
  status : String
  commitSha : Option String
  commitHash : Option String
  imageUrl : Option String
  imageDigest : Option String
  buildStartedAt : Option Micros
  buildFinishedAt : Option Micros
  errorCode : Option String
  errorMessage : Option String
  updatedAt : Micros
  deriving DecidableEq

structure Service where
  id : String
  projectId : String
  status : String
  image : Option String
  imageUrl : Option String
  updatedAt : Micros
  deriving DecidableEq

structure Project where
  id : String
  status : String
  deriving DecidableEq

structure Database where
  jobs : List WorkflowJob
  deployments : List Deployment
  services : List Service
  projects : List Project
  deriving DecidableEq

/-- `UPDATE "WorkflowJob" SET … WHERE …`. -/
def Database.updateJobs (db : Database) (cond : WorkflowJob → Bool) (f : WorkflowJob → WorkflowJob) :
    Database :=
  { db with jobs := Sql.update cond f db.jobs }

def Database.updateDeployments (db : Database) (cond : Deployment → Bool)
    (f : Deployment → Deployment) : Database :=
  { db with deployments := Sql.update cond f db.deployments }

def Database.updateServices (db : Database) (cond : Service → Bool) (f : Service → Service) :
    Database :=
  { db with services := Sql.update cond f db.services }

structure WorkflowLease where
  jobID : String
  workerID : String
  attempt : Nat
  deriving DecidableEq

inductive StoreError
  | ErrWorkflowLeaseLost
  | ErrBuildTargetDeleting
  /-- `notFound(kind, id)`. -/
  | notFound (kind id : String)
  /-- A rejected commit pin. -/
  | invalid (message : String)
  deriving DecidableEq

/-! ### Redaction -/

section Redaction

open Regex

def assignmentChar (c : Char) : Bool := c.isUpper || c.isDigit || c = '_'

def secretAssignmentPattern : Regex :=
  seq (group 1 (seqs [star (cls (folded assignmentChar)),
      alts (["SECRET", "PASSWORD", "TOKEN", "KEY", "DATABASE_URL", "MONGODB_URI", "REDIS_URL"].map
        litFold), star (cls (folded assignmentChar)), lit "="]))
    (group 2 (plus (noneOf isSpace [])))

def knownTokenPattern : Regex :=
  seq (group 1 (alts [seqs [litFold "gh", cls (folded ['o', 'p', 'u', 's', 'r'].contains), lit "_"],
      litFold "github_pat_", litFold "glpat-", litFold "sk-",
      seqs [litFold "xox", cls (folded ['b', 'a', 'p', 'r', 's'].contains), lit "-"]]))
    (plus (cls (folded fun c => c.isAlphanum || c = '_' || c = '-')))

def credentialedURLPattern : Regex :=
  seqs [group 2 (seq (cls (folded Char.isLower))
      (star (cls (folded fun c => c.isLower || c.isDigit || c = '+' || c = '.' || c = '-')))),
    lit "://", plus (noneOf isSpace ['/', '@']),
    upTo 1 (group 1 (seq (lit ":") (plus (noneOf isSpace ['/', '@'])))), lit "@"]

/-- `Redact`.  The scheme, which the source cuts off at `://`, is group 2 of the last pattern. -/
def redact (value : String) : String :=
  let value := secretAssignmentPattern.replaceAll (fun m => m.group 1 ++ "****".toList) value.toList
  let value := knownTokenPattern.replaceAll (fun m => m.group 1 ++ "****".toList) value
  String.ofList (credentialedURLPattern.replaceAll (fun m => m.group 2 ++ "://****@".toList) value)

end Redaction

/-! ### Jobs -/

def isBuilderWorkflowType (type : String) : Bool :=
  ["build-and-deploy", "preview-deploy", "build", "builder"].contains type

/-- The deployment of a job, as the statements compute it: the payload's or, if that is blank, the
target's; none if both are given and differ. -/
def WorkflowJob.deploymentId (j : WorkflowJob) : Option String :=
  let payload := btrim (j.payloadDeploymentId.getD "")
  let target := if lower (btrim j.targetType) = "deployment" then btrim j.targetId else ""
  if payload ≠ "" ∧ target ≠ "" ∧ payload ≠ target then none
  else if payload ≠ "" then some payload
  else if target ≠ "" then some target
  else none

/-- `CASE WHEN "maxAttempts" > 0 THEN "maxAttempts" ELSE 3 END`. -/
def WorkflowJob.attemptLimit (j : WorkflowJob) : Nat :=
  if 0 < j.maxAttempts then j.maxAttempts.toNat else 3

/-- `"lockedAt" <= cutoff`, where the cutoff is the lease before now. -/
def WorkflowJob.lockExpired (j : WorkflowJob) (now lease : Micros) : Bool :=
  j.lockedAt.any fun t => t + lease ≤ now

/-- The Go check of a lease: `NULL` reads as the empty name. -/
def WorkflowJob.heldBy (j : WorkflowJob) (lease : WorkflowLease) : Bool :=
  j.status = .running ∧ j.lockedBy.getD "" = lease.workerID ∧ j.attempts = lease.attempt

/-- The check of a lease in a statement: `NULL` equals nothing. -/
def WorkflowJob.leasedTo (lease : WorkflowLease) (j : WorkflowJob) : Bool :=
  j.id = lease.jobID ∧ j.status = .running ∧ j.lockedBy = some lease.workerID ∧
    j.attempts = lease.attempt

/-- `job.Lease()` of a job just claimed. -/
def WorkflowJob.lease (j : WorkflowJob) : WorkflowLease :=
  { jobID := j.id, workerID := j.lockedBy.getD "", attempt := j.attempts }

/-- `job.Payload` written back through `MaskSecrets`. -/
def WorkflowJob.masked (j : WorkflowJob) : Option String := j.payloadDeploymentId.map redact

/-! ### Claims -/

def deletionStatuses : List String := ["DELETE_REQUESTED", "DELETING", "DELETE_FAILED"]

/-- Whether the service or project of a deployment is being deleted, as the claim asks it. -/
def Database.deletingTarget (db : Database) (deploymentId : String) : Bool :=
  db.deployments.any fun d => d.id = deploymentId && db.services.any fun s => s.id = d.serviceId &&
    db.projects.any fun p => p.id = d.projectId &&
      (deletionStatuses.contains (upper s.status) || deletionStatuses.contains (upper p.status))

def byKeys (keys : WorkflowJob → List Nat) (a b : WorkflowJob) : Bool :=
  unitsLe (keys a) (keys b) && (keys a ≠ keys b || jsLe a.id b.id)

def exhaustedWorkflowReapLimit : Nat := 16

def exhaustedWorkflowFailureMessage : String :=
  "build worker lease expired after the final allowed attempt"

def WorkflowJob.exhausted (now lease : Micros) (j : WorkflowJob) : Bool :=
  isBuilderWorkflowType j.type && j.status = .running && j.lockExpired now lease &&
    j.attemptLimit ≤ j.attempts

/-- The CTE `exhausted`: jobs whose last allowed attempt lost its lease, longest first. -/
def Database.exhausted (db : Database) (now lease : Micros) (skipped : List String) :
    List WorkflowJob :=
  ((db.jobs.filter fun j => j.exhausted now lease && !skipped.contains j.id).insertionSort
    fun a b => byKeys (fun j => [j.lockedAt.getD 0, j.createdAt]) a b).take exhaustedWorkflowReapLimit

def WorkflowJob.claimable (db : Database) (now lease : Micros) (j : WorkflowJob) : Bool :=
  isBuilderWorkflowType j.type &&
    ((j.status = .queued && j.runAfter ≤ now && (j.lockedAt = none || j.lockExpired now lease)) ||
      (j.status = .running && j.lockExpired now lease && j.attempts < j.attemptLimit)) &&
    !j.deploymentId.any db.deletingTarget

/-- The CTE `candidate`. -/
def Database.candidate (db : Database) (now lease : Micros) (skipped : List String) :
    Option WorkflowJob :=
  ((db.jobs.filter fun j => j.claimable db now lease && !skipped.contains j.id).insertionSort
    fun a b => byKeys (fun j => [j.runAfter, j.createdAt]) a b).head?

/-- The CTE `failed_jobs`. -/
def reapJob (now : Micros) (j : WorkflowJob) : WorkflowJob :=
  { j with status := .failed, lockedBy := none, lockedAt := none, updatedAt := timestamp3 now }

/-- The CTE `failed_deployments`. -/
def reapDeployment (now : Micros) (d : Deployment) : Deployment :=
  { d with
    status := "BUILD_FAILED", buildFinishedAt := some (timestamp3 now), errorCode := some "BUILD_FAILED"
    errorMessage := some exhaustedWorkflowFailureMessage, updatedAt := timestamp3 now }

/-- The writes of both to the exhausted jobs and their deployments. -/
def reapExhaustedWorkflowJobs (db : Database) (now lease : Micros) (skipped : List String) : Database :=
  let reaped := db.exhausted now lease skipped
  (db.updateJobs (fun j => reaped.any fun r => r.id = j.id) (reapJob now)).updateDeployments
    (fun d => (reaped.any fun r => r.deploymentId = some d.id) &&
      ["QUEUED", "BUILDING"].contains (upper d.status)) (reapDeployment now)

/-- The CTE `claimed`. -/
def lockJob (now : Micros) (workerID : String) (j : WorkflowJob) : WorkflowJob :=
  { j with
    status := .running, attempts := j.attempts + 1, lockedBy := some workerID
    lockedAt := some (timestamp3 now), updatedAt := timestamp3 now }

structure ClaimOptions where
  workerID : String
  leaseSeconds : Int
  /-- Rows that other transactions hold. -/
  skipped : List String
  deriving DecidableEq

def ClaimOptions.worker (o : ClaimOptions) : String :=
  if o.workerID = "" then "raibitserver-builder" else o.workerID

def ClaimOptions.lease (o : ClaimOptions) : Micros :=
  (if o.leaseSeconds ≤ 0 then 300 else o.leaseSeconds.toNat) * 1000000

/-- `ClaimNextWorkflowJob`: one statement on one snapshot.  The jobs reaped and the job claimed are
different rows, so that the order of the two updates does not matter. -/
def claimNextWorkflowJob (db : Database) (o : ClaimOptions) (now : Micros) :
    Database × Option WorkflowJob :=
  let reaped := reapExhaustedWorkflowJobs db now o.lease o.skipped
  match db.candidate now o.lease o.skipped with
  | none => (reaped, none)
  | some c => (reaped.updateJobs (fun j => j.id = c.id) (lockJob now o.worker),
      some (lockJob now o.worker c))

/-! ### Job updates under a lease -/

/-- A job given back by its worker: `job` is the row as it was read, `next` its new status and, if
that changes, the time it may run again. -/
def releaseJob (now : Micros) (job : WorkflowJob) (next : JobStatus × Option Micros) (j : WorkflowJob) :
    WorkflowJob :=
  { j with
    status := next.1, payloadDeploymentId := job.masked, runAfter := next.2.getD j.runAfter
    lockedBy := none, lockedAt := none, updatedAt := timestamp3 now }

/-- `updateWorkflowJob`: `mutate` is given the row and returns its status and, if changed, `runAfter`. -/
def updateWorkflowJob (db : Database) (lease : WorkflowLease) (now : Micros)
    (mutate : WorkflowJob → JobStatus × Option Micros) : Except StoreError Database := do
  let job ← orThrow (db.jobs.find? fun j => j.id = lease.jobID) (.notFound "workflow job" lease.jobID)
  throwIf (¬ job.heldBy lease) .ErrWorkflowLeaseLost
  throwIf (Sql.affected (WorkflowJob.leasedTo lease) db.jobs ≠ 1) .ErrWorkflowLeaseLost
  return db.updateJobs (WorkflowJob.leasedTo lease) (releaseJob now job (mutate job))

def completeWorkflowJob (db : Database) (lease : WorkflowLease) (now : Micros) :
    Except StoreError Database :=
  updateWorkflowJob db lease now fun _ => (.succeeded, none)

def retryDelay (attempts : Nat) : Micros :=
  if attempts = 0 then 1000000 else 2 ^ (min attempts 6 - 1) * 1000000

def failWorkflowJob (db : Database) (lease : WorkflowLease) (now : Micros) :
    Except StoreError Database :=
  updateWorkflowJob db lease now fun job =>
    if job.attempts < job.attemptLimit then
      (.queued, some (timestamp3 (now + retryDelay job.attempts)))
    else (.failed, none)

def cancelWorkflowJob (db : Database) (lease : WorkflowLease) (now : Micros) :
    Except StoreError Database :=
  updateWorkflowJob db lease now fun _ => (.failed, none)

def renewJob (now : Micros) (j : WorkflowJob) : WorkflowJob :=
  { j with lockedAt := some (timestamp3 now), updatedAt := timestamp3 now }

def renewWorkflowJobLease (db : Database) (lease : WorkflowLease) (now : Micros) :
    Except StoreError Database := do
  throwIf (Sql.affected (WorkflowJob.leasedTo lease) db.jobs ≠ 1) .ErrWorkflowLeaseLost
  return db.updateJobs (WorkflowJob.leasedTo lease) (renewJob now)

/-! ### Deployments under a lease -/

def assertWorkflowLeaseLocked (db : Database) (lease : WorkflowLease) : Except StoreError Unit := do
  let job ← orThrow (db.jobs.find? fun j => j.id = lease.jobID) .ErrWorkflowLeaseLost
  throwIf (¬ job.heldBy lease) .ErrWorkflowLeaseLost

/-- The updates that the worker sends: a failed build, or the commit that was checked out. -/
inductive DeploymentUpdate
  | buildFailed (errorCode errorMessage : String) (buildFinishedAt : Micros)
  | commit (commitSha : String)
  deriving DecidableEq

def normalizeGitCommitSHA (value : String) : Except StoreError String := do
  let commit := lower (trimSpace value)
  throwIf (¬ (bounded lowerHex 40 40 commit ∨ bounded lowerHex 64 64 commit))
    (.invalid "checked-out Git commit must be a full 40 or 64 character hexadecimal object ID")
  return commit

/-- `leaseFencedDeploymentUpdates` for a commit. -/
def commitPinnable (d : Deployment) (commit : String) : Except StoreError Unit := do
  throwIf (¬ equalFold (trimSpace d.status) "BUILDING")
    (.invalid "deployment commit can only be pinned while BUILDING")
  let sha := trimSpace (d.commitSha.getD "")
  let current := if sha = "" then trimSpace (d.commitHash.getD "") else sha
  throwIf (current ≠ "" ∧ lower current ≠ commit)
    (.invalid "deployment commit is already pinned to a different revision")

/-- The columns an update sets; texts pass through `MaskSecrets`, which leaves a hash and the constant
statuses as they are. -/
def DeploymentUpdate.apply (now : Micros) (u : DeploymentUpdate) (d : Deployment) : Deployment :=
  match u with
  | .buildFailed errorCode errorMessage buildFinishedAt =>
    { d with
      status := "BUILD_FAILED", buildFinishedAt := some (timestamp3 buildFinishedAt)
      errorCode := some (redact errorCode), errorMessage := some (redact errorMessage)
      updatedAt := timestamp3 now }
  | .commit sha => { d with commitSha := some sha, commitHash := some sha, updatedAt := timestamp3 now }

/-- The update as it is written: a commit is normalised and checked against the row. -/
def fencedUpdate (db : Database) (deploymentID : String) :
    DeploymentUpdate → Except StoreError DeploymentUpdate
  | .buildFailed errorCode errorMessage at_ => .ok (.buildFailed errorCode errorMessage at_)
  | .commit sha => do
    let commit ← normalizeGitCommitSHA sha
    let d ← orThrow (db.deployments.find? fun d => d.id = deploymentID)
      (.notFound "deployment" deploymentID)
    commitPinnable d commit
    return .commit commit

def updateDeploymentForLease (db : Database) (lease : WorkflowLease) (deploymentID : String)
    (updates : DeploymentUpdate) (now : Micros) : Except StoreError Database := do
  assertWorkflowLeaseLocked db lease
  let u ← fencedUpdate db deploymentID updates
  throwIf (¬ db.deployments.any fun d => d.id = deploymentID) (.notFound "deployment" deploymentID)
  return db.updateDeployments (fun d => d.id = deploymentID) (u.apply now)

def isDeletionStatus (status : String) : Bool := deletionStatuses.contains (upper (trimSpace status))

/-- A row of `lockImagePublicationTargetSQL`: the statuses of deployment, service and project. -/
def Database.buildTarget (db : Database) (deploymentID serviceID projectID : String) :
    Option (String × String × String) := do
  let d ← db.deployments.find? fun d =>
    d.id = deploymentID && d.serviceId = serviceID && d.projectId = projectID
  let s ← db.services.find? fun s => s.id = serviceID && s.projectId = projectID
  let p ← db.projects.find? fun p => p.id = projectID
  return (d.status, s.status, p.status)

/-- The locks and checks that `StartBuild` and `PublishImageReady` share; `status` is what the
deployment has to be. -/
def lockBuild (db : Database) (lease : WorkflowLease) (deploymentID serviceID projectID : String)
    (kind status : String) : Except StoreError WorkflowJob := do
  let job ← orThrow (db.jobs.find? fun j => j.id = lease.jobID && isBuilderWorkflowType j.type &&
    j.deploymentId = some deploymentID) .ErrWorkflowLeaseLost
  throwIf (¬ job.heldBy lease) .ErrWorkflowLeaseLost
  let target ← orThrow (db.buildTarget deploymentID serviceID projectID) (.notFound kind deploymentID)
  throwIf (isDeletionStatus target.2.1 ∨ isDeletionStatus target.2.2) .ErrBuildTargetDeleting
  throwIf (¬ equalFold (trimSpace target.1) status) .ErrWorkflowLeaseLost
  return job

/-- `WHERE id = $2 AND UPPER(BTRIM(status)) = status`. -/
def inStatus (deploymentID status : String) (d : Deployment) : Bool :=
  d.id = deploymentID && upper (btrim d.status) = status

structure BuildStartInput where
  lease : WorkflowLease
  deploymentID : String
  serviceID : String
  projectID : String
  startedAt : Micros
  deriving DecidableEq

/-- `startBuildSQL`. -/
def setBuilding (startedAt : Micros) (d : Deployment) : Deployment :=
  { d with
    status := "BUILDING", buildStartedAt := some (timestamp3 startedAt)
    updatedAt := timestamp3 startedAt }

def startBuild (db : Database) (i : BuildStartInput) : Except StoreError Database := do
  let _ ← lockBuild db i.lease i.deploymentID i.serviceID i.projectID "build start target" "QUEUED"
  throwIf (Sql.affected (inStatus i.deploymentID "QUEUED") db.deployments ≠ 1) .ErrWorkflowLeaseLost
  return db.updateDeployments (inStatus i.deploymentID "QUEUED") (setBuilding i.startedAt)

structure ImagePublicationInput where
  lease : WorkflowLease
  deploymentID : String
  serviceID : String
  projectID : String
  imageURL : String
  imageDigest : String
  buildFinishedAt : Micros
  deriving DecidableEq

def setImageReady (i : ImagePublicationInput) (d : Deployment) : Deployment :=
  { d with
    status := "IMAGE_READY", imageUrl := some i.imageURL, imageDigest := some i.imageDigest
    buildFinishedAt := some (timestamp3 i.buildFinishedAt), errorCode := none, errorMessage := none
    updatedAt := timestamp3 i.buildFinishedAt }

def setServiceImage (i : ImagePublicationInput) (s : Service) : Service :=
  { s with
    image := some i.imageURL, imageUrl := some i.imageURL, status := "image-ready"
    updatedAt := timestamp3 i.buildFinishedAt }

def publishImageReady (db : Database) (i : ImagePublicationInput) : Except StoreError Database := do
  let job ← lockBuild db i.lease i.deploymentID i.serviceID i.projectID "image publication target"
    "BUILDING"
  throwIf (Sql.affected (inStatus i.deploymentID "BUILDING") db.deployments ≠ 1) .ErrWorkflowLeaseLost
  throwIf (Sql.affected (WorkflowJob.leasedTo i.lease) db.jobs ≠ 1) .ErrWorkflowLeaseLost
  return ((db.updateDeployments (inStatus i.deploymentID "BUILDING") (setImageReady i)).updateServices
    (fun s => s.id = i.serviceID) (setServiceImage i)).updateJobs (WorkflowJob.leasedTo i.lease)
      (releaseJob i.buildFinishedAt job (.succeeded, none))

/-! ### What a call that succeeds has found and written -/

section Specs

variable {db db' : Database} {lease : WorkflowLease} {now : Micros} {j : WorkflowJob} {D : String}

theorem leasedTo_iff : j.leasedTo lease = true ↔ j.id = lease.jobID ∧ j.status = .running ∧
    j.lockedBy = some lease.workerID ∧ j.attempts = lease.attempt := decide_eq_true_iff

theorem heldBy_iff : j.heldBy lease = true ↔ j.status = .running ∧ j.lockedBy.getD "" = lease.workerID ∧
    j.attempts = lease.attempt := decide_eq_true_iff

theorem find?_job {J : String} (h : (db.jobs.find? fun k => k.id = J) = some j) : j ∈ db.jobs ∧ j.id = J :=
  ⟨List.mem_of_find?_eq_some h, by simpa using List.find?_some h⟩

theorem renewWorkflowJobLease_ok (h : renewWorkflowJobLease db lease now = .ok db') :
    Sql.affected (WorkflowJob.leasedTo lease) db.jobs = 1 ∧
      db' = db.updateJobs (WorkflowJob.leasedTo lease) (renewJob now) := by
  obtain ⟨_, haffected, h⟩ := bind_ok.1 h
  exact ⟨not_not.1 (throwIf_ok.1 haffected), (pure_ok.1 h).symm⟩

theorem updateWorkflowJob_ok {mutate : WorkflowJob → JobStatus × Option Micros}
    (h : updateWorkflowJob db lease now mutate = .ok db') : ∃ job ∈ db.jobs, job.id = lease.jobID ∧
      Sql.affected (WorkflowJob.leasedTo lease) db.jobs = 1 ∧
      db' = db.updateJobs (WorkflowJob.leasedTo lease) (releaseJob now job (mutate job)) := by
  obtain ⟨job, hjob, h⟩ := bind_ok.1 h
  obtain ⟨-, -, h⟩ := bind_ok.1 h
  obtain ⟨_, haffected, h⟩ := bind_ok.1 h
  obtain ⟨hmem, hid⟩ := find?_job (orThrow_ok.1 hjob)
  exact ⟨job, hmem, hid, not_not.1 (throwIf_ok.1 haffected), (pure_ok.1 h).symm⟩

theorem fencedUpdate_commit {sha : String} {u : DeploymentUpdate} (h : fencedUpdate db D (.commit sha) = .ok u) :
    ∃ commit, normalizeGitCommitSHA sha = .ok commit ∧ u = .commit commit := by
  obtain ⟨commit, hcommit, h⟩ := bind_ok.1 h
  obtain ⟨_, -, h⟩ := bind_ok.1 h
  obtain ⟨_, -, h⟩ := bind_ok.1 h
  exact ⟨commit, hcommit, (pure_ok.1 h).symm⟩

theorem assertWorkflowLeaseLocked_ok (h : assertWorkflowLeaseLocked db lease = .ok ()) :
    ∃ job ∈ db.jobs, job.id = lease.jobID ∧ job.heldBy lease = true := by
  obtain ⟨job, hjob, hheld⟩ := bind_ok.1 h
  obtain ⟨hmem, hid⟩ := find?_job (orThrow_ok.1 hjob)
  exact ⟨job, hmem, hid, not_not.1 (throwIf_ok.1 hheld)⟩

theorem updateDeploymentForLease_ok {u : DeploymentUpdate} (h : updateDeploymentForLease db lease D u now = .ok db') :
    assertWorkflowLeaseLocked db lease = .ok () ∧ ∃ v, fencedUpdate db D u = .ok v ∧
      db' = db.updateDeployments (fun d => d.id = D) (v.apply now) := by
  obtain ⟨_, hlease, h⟩ := bind_ok.1 h
  obtain ⟨v, hv, h⟩ := bind_ok.1 h
  obtain ⟨_, -, h⟩ := bind_ok.1 h
  exact ⟨hlease, v, hv, (pure_ok.1 h).symm⟩

/-- A build is locked with its job, which the lease holds, its deployment and its service. -/
theorem lockBuild_ok {S P kind status : String} (h : lockBuild db lease D S P kind status = .ok j) :
    (j ∈ db.jobs ∧ j.id = lease.jobID ∧ j.deploymentId = some D ∧ j.heldBy lease = true) ∧
      (∃ d ∈ db.deployments, d.id = D ∧ equalFold (trimSpace d.status) status = true) ∧
      ∃ s ∈ db.services, s.id = S := by
  obtain ⟨job, hjob, h⟩ := bind_ok.1 h
  obtain ⟨_, hheld, h⟩ := bind_ok.1 h
  obtain ⟨target, htarget, h⟩ := bind_ok.1 h
  obtain ⟨_, -, h⟩ := bind_ok.1 h
  obtain ⟨_, hstatus, h⟩ := bind_ok.1 h
  obtain rfl := pure_ok.1 h
  rw [orThrow_ok] at hjob htarget
  rw [throwIf_ok, not_not] at hheld hstatus
  obtain ⟨d, hd, htarget⟩ := Option.bind_eq_some_iff.1 htarget
  obtain ⟨s, hs, htarget⟩ := Option.bind_eq_some_iff.1 htarget
  obtain ⟨p, -, htarget⟩ := Option.bind_eq_some_iff.1 htarget
  obtain rfl := Option.some.inj htarget
  have hfound := And.intro (List.find?_some hjob) (And.intro (List.find?_some hd) (List.find?_some hs))
  simp only [Bool.and_eq_true, decide_eq_true_eq] at hfound
  exact ⟨⟨List.mem_of_find?_eq_some hjob, hfound.1.1.1, hfound.1.2, hheld⟩,
    ⟨d, List.mem_of_find?_eq_some hd, hfound.2.1.1.1, hstatus⟩, s, List.mem_of_find?_eq_some hs, hfound.2.2.1⟩

theorem startBuild_ok {i : BuildStartInput} (h : startBuild db i = .ok db') :
    (∃ job, lockBuild db i.lease i.deploymentID i.serviceID i.projectID "build start target" "QUEUED" = .ok job) ∧
      Sql.affected (inStatus i.deploymentID "QUEUED") db.deployments = 1 ∧
      db' = db.updateDeployments (inStatus i.deploymentID "QUEUED") (setBuilding i.startedAt) := by
  obtain ⟨job, hlock, h⟩ := bind_ok.1 h
  obtain ⟨_, haffected, h⟩ := bind_ok.1 h
  exact ⟨⟨job, hlock⟩, not_not.1 (throwIf_ok.1 haffected), (pure_ok.1 h).symm⟩

theorem publishImageReady_ok {i : ImagePublicationInput} (h : publishImageReady db i = .ok db') :
    ∃ job, lockBuild db i.lease i.deploymentID i.serviceID i.projectID "image publication target" "BUILDING" =
        .ok job ∧ Sql.affected (inStatus i.deploymentID "BUILDING") db.deployments = 1 ∧
      Sql.affected (WorkflowJob.leasedTo i.lease) db.jobs = 1 ∧
      db' = ((db.updateDeployments (inStatus i.deploymentID "BUILDING") (setImageReady i)).updateServices
        (fun s => s.id = i.serviceID) (setServiceImage i)).updateJobs (WorkflowJob.leasedTo i.lease)
          (releaseJob i.buildFinishedAt job (.succeeded, none)) := by
  obtain ⟨job, hlock, h⟩ := bind_ok.1 h
  obtain ⟨_, hdeployment, h⟩ := bind_ok.1 h
  obtain ⟨_, hjob, h⟩ := bind_ok.1 h
  exact ⟨job, hlock, not_not.1 (throwIf_ok.1 hdeployment), not_not.1 (throwIf_ok.1 hjob), (pure_ok.1 h).symm⟩

end Specs

end RaibitServer.Builder
