import RaibitServer.Core.Ids
import RaibitServer.Lib.GoText
import RaibitServer.Lib.Keyed
import RaibitServer.Preview.Lineage

/-!
# Preview.Webhook — preview events of the Prisma repository (`persistence.ts`)

`handlePreviewWebhook` takes a parsed delivery, moves the lineage of every matched service and makes
the deployment and the job of an opened one; `applyNextPreviewObservation` does the same for what the
resolver observed.  Each is one serializable transaction: it returns the new database, or an error and
nothing is written.  The constraints and the trigger of the migration are part of the writes.

Left out are columns and tables that no function reads (deployment events, the audit log), advisory
locks, and the `CHECK` constraints, which every value written here passes.
-/

namespace RaibitServer.Preview

open Lib Core

/-! ### Rows -/

/-- What `parsePreviewWebhook` returns. -/
structure Delivery where
  deliveryId : String
  event : PreviewWebhook
  deriving DecidableEq, Repr

/-- `payload` is what `parsePreviewWebhookPayload` reads from the stored JSON, where it accepts it. -/
structure WebhookEventRow where
  deliveryId : String
  payload : Option Delivery
  handled : Bool

/-- The members of `desiredState` and of its `github` object; one that is missing is empty. -/
structure DesiredGithub where
  githubIntegrationId : String := ""
  githubRepositoryId : String := ""
  githubInstallationId : String := ""
  githubRepository : String := ""
  branch : String := ""
  integrationId : String := ""
  repositoryId : String := ""
  installationId : String := ""
  repository : String := ""

/-- The members of a captured snapshot that a successor reads; one that is missing, or is no string, is
empty. -/
structure SpecSnapshot where
  repoUrl : String := ""
  repositoryUrl : String := ""
  sourceType : String := ""
  buildMode : String := ""
  localPath : String := ""
  deriving DecidableEq, Repr

/-- A service with what is read of its project; `snapshot` is what `captureDeploymentSnapshot` makes of
it. -/
structure ServiceRow where
  id : String
  projectId : String
  organizationId : String
  status : String := ""
  projectStatus : String := ""
  githubRepositoryId : String := ""
  repoUrl : String := ""
  branch : String := ""
  desired : DesiredGithub := {}
  snapshot : SpecSnapshot := {}

structure CatalogRow where
  githubRepoId : String
  installationId : String
  fullName : String

structure IntegrationRow where
  id : String
  organizationId : String
  installationId : String

structure RouteIntent where
  lineageVersion : Nat
  operation : String
  deploymentId : Option String
  generation : Option Nat
  token : String
  «namespace» : String
  name : String
  uid : Option String
  resourceVersion : Option String
  deriving DecidableEq, Repr

structure ReconcileLease where
  token : String
  worker : String
  leaseUntil : Int
  deriving DecidableEq, Repr

/-- `resolutionObservation` is what `parsePreviewObservation` reads from the column, where it accepts
it. -/
structure LineageRow where
  lineage : PreviewLineageRecord
  routeIntent : Option RouteIntent := none
  resolutionObservation : Option PreviewObservation := none
  resolutionErrorCode : Option String := none
  reconcile : Option ReconcileLease := none
  deriving DecidableEq, Repr

def LineageRow.id (row : LineageRow) : String := row.lineage.id

/-- A text, or the number of a pull request, that is `null` is empty, or zero. -/
structure DeploymentRow where
  id : String
  serviceId : String
  projectId : String
  status : String
  deploymentType : String
  triggerType : String
  branch : String
  commitSha : String
  pullRequestNumber : Nat
  previewUrl : String
  previewLineageId : Option String
  previewGeneration : Option Nat
  previewRuntime : Option PreviewRuntime
  commitHash : String := ""
  imageUrl : String := ""
  imageDigest : String := ""
  sourceDeploymentId : Option String := none
  retryOfDeploymentId : Option String := none
  requestIdempotencyKey : Option String := none
  requestedByUserId : Option String := none
  snapshotVersion : Option Nat := none
  desiredSpecSnapshot : Option SpecSnapshot := none
  createdAt : Int := 0
  deriving DecidableEq, Repr

inductive OperationKind
  | retry
  | redeploy
  deriving DecidableEq, Repr

/-- `operationRequest` of a payload, as `operationIdentity` makes it. -/
structure OperationRequest where
  operation : OperationKind
  sourceDeploymentId : Option String
  snapshotVersion : Nat
  deriving DecidableEq, Repr

/-- The members of a payload; one that is missing is `none`. -/
structure JobPayload where
  lineageId : Option String := none
  lineageVersion : Option Nat := none
  generation : Option Nat := none
  deploymentId : Option String := none
  runtime : Option PreviewRuntime := none
  terminalReason : Option String := none
  appliedVersion : Option Nat := none
  operationRequest : Option OperationRequest := none
  deriving DecidableEq, Repr

structure JobRow where
  id : String
  type : String
  status : String := "queued"
  targetType : String
  targetId : String
  payload : JobPayload
  attempts : Nat := 0
  maxAttempts : Nat := 3
  runAfter : Int
  lockedBy : Option String := none
  lockedAt : Option Int := none
  createdAt : Int
  deriving DecidableEq, Repr

structure PreviewDb where
  webhookEvents : Keyed WebhookEventRow.deliveryId
  services : List ServiceRow
  catalog : List CatalogRow
  integrations : List IntegrationRow
  lineages : Keyed LineageRow.id
  deployments : Keyed DeploymentRow.id
  jobs : Keyed JobRow.id

/-- A constraint, the trigger, or an error of the handler. -/
inductive TxError
  | thrown (error : Thrown)
  | unique (name : String)
  | foreignKey (name : String)
  | raised (code : String)
  deriving DecidableEq, Repr

/-! ### Matching services -/

structure ActionPlan where
  kind : String
  repositoryId : String
  installationId : String
  repository : String
  baseBranch : String

/-- `.replace(/\.git$/i, '')`. -/
def dropGitSuffix (s : String) : String :=
  let body := s.toList.take (s.toList.length - 4)
  if 4 ≤ s.toList.length ∧ Text.lower (String.ofList (s.toList.drop (s.toList.length - 4))) = ".git" then
    String.ofList body
  else s

/-- The full name, or `none` where the text has no owner or no name. -/
def parsePrismaRepository (value : String) : Option String :=
  match GoText.split (dropGitSuffix (GoText.trimPrefix value "https://github.com/")) '/' with
  | owner :: repo :: _ => if owner = "" ∨ repo = "" then none else some (owner ++ "/" ++ repo)
  | _ => none

def normalizePrismaRepositoryId (value : String) : String :=
  let text := Text.jsTrim value
  if text = "" then ""
  else match parsePrismaRepository text with
    | some fullName => Text.jsLower fullName
    | none => GoText.trimPrefix (Text.jsLower text) "github:"

def inactive (status : String) : Bool := ["DELETE_REQUESTED", "DELETING", "DELETED"].contains (Text.upper status)

def previewParentIsActive (service : ServiceRow) : Bool :=
  !inactive service.status && !inactive service.projectStatus

/-- For a plan of a preview; that of a production deployment compares the pushed branch. -/
def serviceMatchesGitHubWebhook (service : ServiceRow) (plan : ActionPlan) : Bool :=
  let desired := service.desired
  let repositoryId :=
    Text.jsOr (Text.jsOr service.githubRepositoryId desired.githubRepositoryId) desired.repositoryId
  let installationId := Text.jsOr desired.githubInstallationId desired.installationId
  let repository := normalizePrismaRepositoryId
    (Text.jsOr (Text.jsOr desired.githubRepository desired.repository) service.repoUrl)
  let productionBranch := Text.jsOr (Text.jsOr service.branch desired.branch) "main"
  repositoryId = plan.repositoryId && installationId = plan.installationId &&
    repository = normalizePrismaRepositoryId plan.repository && plan.baseBranch = productionBranch

def servicesForPrismaGitHubWebhook (db : PreviewDb) (plan : ActionPlan) : List ServiceRow :=
  if plan.kind = "ignored" ∨ plan.repositoryId = "" ∨ plan.installationId = "" ∨ plan.repository = "" then []
  else match db.catalog.find? fun row =>
      row.githubRepoId = plan.repositoryId ∧ row.installationId = plan.installationId with
    | none => []
    | some catalog =>
      if normalizePrismaRepositoryId catalog.fullName ≠ normalizePrismaRepositoryId plan.repository then []
      else db.services.filter fun service =>
        service.githubRepositoryId = plan.repositoryId && previewParentIsActive service &&
          serviceMatchesGitHubWebhook service plan

def webhookPlan (event : PreviewWebhook) : ActionPlan :=
  { kind := if event.action = .closed then "preview-cleanup" else "preview-deploy"
    repositoryId := event.repositoryId, installationId := event.installationId
    repository := event.repository, baseBranch := event.baseRef }

/-! ### What the repository is given -/

/-- The digest, and the quota policy: the ids of the services it blocks. -/
structure WebhookHost where
  sha256 : Label.Hash
  prismaGitHubWebhookQuotaBlocks : PreviewDb → List ServiceRow → ActionPlan → List String

/-- The clock and the tokens drawn during a call, by lineage. -/
structure Draws where
  now : Int
  token : String → String

/-! ### Writes -/

/-- The columns of a lineage that no update may change. -/
def identityColumns (l : PreviewLineageRecord) : List String × Nat :=
  ([l.id, l.organizationId, l.projectId, l.serviceId, l.integrationId, l.installationId, l.repositoryId,
    l.repository, l.stableHost, l.namespace, l.routeName], l.pullRequestNumber)

/-- The columns of the constraint `PreviewLineage_identity`. -/
def tenantColumns (l : PreviewLineageRecord) : List String × Nat :=
  ([l.organizationId, l.projectId, l.serviceId, l.installationId, l.repositoryId], l.pullRequestNumber)

def tenantExists (db : PreviewDb) (l : PreviewLineageRecord) : Bool :=
  (db.services.any fun s =>
    s.id = l.serviceId && s.projectId = l.projectId && s.organizationId = l.organizationId) &&
  db.integrations.any fun i =>
    i.id = l.integrationId && i.organizationId = l.organizationId && i.installationId = l.installationId

/-- `raibit_preview_lineage_guard`. -/
def lineageGuard (db : PreviewDb) (old : Option PreviewLineageRecord) (new : PreviewLineageRecord) :
    Except TxError Unit := do
  throwIf (old.any fun old => identityColumns new ≠ identityColumns old ∨ new.version < old.version ∨
    new.generation < old.generation ∨ new.eventUpdatedAt.millis < old.eventUpdatedAt.millis)
    (.raised "PREVIEW_IDENTITY_IMMUTABLE")
  throwIf (¬ tenantExists db new) (.raised "PREVIEW_TENANT_MISMATCH")

/-- A new row, if its host and its tenant columns are free. -/
def insertLineage (db : PreviewDb) (lineage : PreviewLineageRecord) : Except TxError PreviewDb := do
  lineageGuard db none lineage
  throwIf (db.lineages.rows.any fun row => row.lineage.stableHost = lineage.stableHost)
    (.unique "PreviewLineage_stableHost_key")
  throwIf (db.lineages.rows.any fun row => tenantColumns row.lineage = tenantColumns lineage)
    (.unique "PreviewLineage_identity")
  return { db with lineages := db.lineages.put { lineage } }

def updateLineage (db : PreviewDb) (row : LineageRow) (lineage : PreviewLineageRecord) :
    Except TxError PreviewDb := do
  lineageGuard db (some row.lineage) lineage
  return { db with lineages := db.lineages.put { row with lineage } }

def upsertLineage (db : PreviewDb) (lineage : PreviewLineageRecord) : Except TxError PreviewDb :=
  match db.lineages.get? lineage.id with
  | some row => updateLineage db row lineage
  | none => insertLineage db lineage

def createDeployment (db : PreviewDb) (row : DeploymentRow) : Except TxError PreviewDb := do
  let deployments ← orThrow (db.deployments.insert? row) (.unique "Deployment_pkey")
  throwIf (db.deployments.rows.any fun other => other.previewLineageId.isSome ∧
    other.previewLineageId = row.previewLineageId ∧ other.previewGeneration.isSome ∧
      other.previewGeneration = row.previewGeneration) (.unique "Deployment_previewLineage_generation_key")
  throwIf (¬ db.lineages.rows.any fun lineage => some lineage.id = row.previewLineageId ∧
    lineage.lineage.projectId = row.projectId ∧ lineage.lineage.serviceId = row.serviceId)
    (.foreignKey "Deployment_preview_tenant_fk")
  return { db with deployments }

def createJob (db : PreviewDb) (row : JobRow) : Except TxError PreviewDb := do
  let jobs ← orThrow (db.jobs.insert? row) (.unique "WorkflowJob_pkey")
  return { db with jobs }

/-- `upsert` with an empty update. -/
def ensureJob (db : PreviewDb) (row : JobRow) : PreviewDb :=
  { db with jobs := (db.jobs.insert? row).getD db.jobs }

/-- An `update` by id that leaves the guarded columns alone. -/
def editLineage (db : PreviewDb) (id : String) (f : LineageRow → LineageRow)
    (hf : ∀ row, (f row).id = row.id) : PreviewDb :=
  { db with lineages := db.lineages.update (fun row => row.id = id) f hf }

def setCandidate (deploymentId : String) (generation : Nat) (row : LineageRow) : LineageRow :=
  { row with lineage := { row.lineage with
      candidateDeploymentId := some deploymentId, candidateGeneration := some generation } }

def previewCloseIntent (lineage : PreviewLineageRecord) (token : String) : RouteIntent :=
  { lineageVersion := lineage.version, operation := "clear", deploymentId := none, generation := none
    token, «namespace» := lineage.namespace, name := lineage.routeName, uid := none, resourceVersion := none }

/-- The deployments of a lineage. -/
def attemptsOf (db : PreviewDb) (lineageId : String) : List DeploymentRow :=
  db.deployments.select fun row => row.previewLineageId = some lineageId

def mutableIds (attempts : List DeploymentRow) : List String :=
  (attempts.filter fun attempt => Text.upper attempt.status ≠ "CLEANED_UP").map DeploymentRow.id

theorem cleanupRequested_id (row : DeploymentRow) :
    { row with status := "PREVIEW_CLEANUP_REQUESTED" }.id = row.id := rfl

def requestCleanup (db : PreviewDb) (ids : List String) : PreviewDb :=
  let deployments := db.deployments.update (fun row => ids.contains row.id)
    (fun row => { row with status := "PREVIEW_CLEANUP_REQUESTED" }) cleanupRequested_id
  { db with deployments }

theorem cancelled_id (job : JobRow) :
    { job with status := "cancelled", lockedBy := none, lockedAt := none }.id = job.id := rfl

/-- The queued and running jobs of the lineage and of its deployments. -/
def cancelJobs (db : PreviewDb) (lineageId : String) (attempts : List DeploymentRow) : PreviewDb :=
  let jobs := db.jobs.update
    (fun job => (job.status = "queued" || job.status = "running") &&
      ((job.targetType = "preview-lineage" && job.targetId = lineageId) ||
        (job.targetType = "deployment" && (attempts.map DeploymentRow.id).contains job.targetId)))
    (fun job => { job with status := "cancelled", lockedBy := none, lockedAt := none }) cancelled_id
  { db with jobs }

/-! ### Identifiers -/

/-- What a lineage is about. -/
structure LineageKey where
  organizationId : String
  projectId : String
  serviceId : String
  installationId : String
  repositoryId : String
  pullRequestNumber : Nat
  deriving DecidableEq

def LineageKey.lineageId (k : LineageKey) : String :=
  stableId "preview-lineage" [k.organizationId, k.projectId, k.serviceId, k.installationId, k.repositoryId,
    toString k.pullRequestNumber]

def keyOf (service : ServiceRow) (event : PreviewWebhook) : LineageKey :=
  { organizationId := service.organizationId, projectId := service.projectId, serviceId := service.id
    installationId := event.installationId, repositoryId := event.repositoryId
    pullRequestNumber := event.pullRequestNumber }

def webhookDeploymentId (deliveryId serviceId : String) (generation : Nat) : String :=
  stableId "dep" ["github-preview", deliveryId, serviceId, toString generation]

def webhookJobId (deliveryId serviceId : String) : String :=
  stableId "job" ["github-preview", deliveryId, serviceId]

def resolverJobId (lineage : PreviewLineageRecord) : String :=
  "preview-resolve:" ++ lineage.id ++ ":" ++ toString lineage.version

def previewResolverJob : String := "github.preview-resolve"

/-! ### One service of a delivery -/

inductive Action
  | stale (serviceId lineageId : String)
  | duplicate (serviceId lineageId : String)
  | resolutionEnqueued (serviceId lineageId workflowJobId : String)
  | cleanupRequested (serviceId lineageId : String) (deploymentIds : List String)
  | deploymentEnqueued (serviceId lineageId deploymentId workflowJobId : String) (generation : Nat)
  deriving DecidableEq, Repr

def resolverJob (lineage : PreviewLineageRecord) (now : Int) : JobRow :=
  { id := resolverJobId lineage, type := previewResolverJob, targetType := "preview-lineage"
    targetId := lineage.id, runAfter := now, createdAt := now
    payload := { lineageId := some lineage.id, lineageVersion := some lineage.version } }

/-- A deployment of a lineage, with the values of the event or the observation it comes from. -/
def previewDeployment (lineage : PreviewLineageRecord) (id serviceId projectId triggerType headSha headRef : String)
    (pullRequestNumber : Nat) (runtime : PreviewRuntime) : DeploymentRow :=
  { id, serviceId, projectId, status := "queued", deploymentType := "preview", triggerType, branch := headRef
    commitSha := headSha, commitHash := headSha, pullRequestNumber, previewUrl := "https://" ++ lineage.stableHost
    previewLineageId := some lineage.id, previewGeneration := some lineage.generation
    previewRuntime := some runtime }

/-- A deployment with the snapshot of its service. -/
def DeploymentRow.captured (row : DeploymentRow) (snapshot : SpecSnapshot) (now : Int) : DeploymentRow :=
  { row with snapshotVersion := some 1, desiredSpecSnapshot := some snapshot, createdAt := now }

def deployJob (id : String) (lineage : PreviewLineageRecord) (deploymentId : String)
    (runtime : PreviewRuntime) (now : Int) : JobRow :=
  { id, type := "preview-deploy", targetType := "deployment", targetId := deploymentId, runAfter := now
    createdAt := now
    payload := { lineageId := some lineage.id, lineageVersion := some lineage.version
                 generation := some lineage.generation, deploymentId := some deploymentId
                 runtime := some runtime } }

/-- The close of a lineage. -/
def closeLineage (db : PreviewDb) (lineage : PreviewLineageRecord) (draws : Draws) :
    PreviewDb × List String :=
  let attempts := attemptsOf db lineage.id
  let db := editLineage db lineage.id (fun row => { row with
    routeIntent := some (previewCloseIntent lineage (draws.token lineage.id)), reconcile := none }) fun _ => rfl
  let db := requestCleanup db (mutableIds attempts)
  (cancelJobs db lineage.id attempts, mutableIds attempts)

/-- The deployment and the job of an opened lineage. -/
def openLineage (host : WebhookHost) (db : PreviewDb) (lineage : PreviewLineageRecord)
    (deploymentId jobId serviceId projectId triggerType headSha headRef : String) (pullRequestNumber : Nat)
    (snapshot : SpecSnapshot) (draws : Draws) : Except TxError PreviewDb := do
  let runtime ← (createPreviewRuntime host.sha256 lineage deploymentId none).mapError .thrown
  let db ← createDeployment db ((previewDeployment lineage deploymentId serviceId projectId triggerType headSha
    headRef pullRequestNumber runtime).captured snapshot draws.now)
  let db ← createJob db (deployJob jobId lineage deploymentId runtime draws.now)
  return editLineage db lineage.id (setCandidate deploymentId lineage.generation) fun _ => rfl

def identityOf (service : ServiceRow) : PreviewIdentity :=
  { organizationId := service.organizationId, projectId := service.projectId, serviceId := service.id
    integrationId := Text.jsOr service.desired.githubIntegrationId service.desired.integrationId }

/-- What a delivery means for a service in a database. -/
def transitionFor (host : WebhookHost) (db : PreviewDb) (event : PreviewWebhook) (service : ServiceRow) :
    PreviewTransition :=
  transitionPreviewLineage host.sha256
    ((db.lineages.get? (keyOf service event).lineageId).map LineageRow.lineage) event (identityOf service)
    (keyOf service event).lineageId

/-- One turn of the loop over the services. -/
def handleService (host : WebhookHost) (draws : Draws) (delivery : Delivery) (db : PreviewDb)
    (service : ServiceRow) : Except TxError (PreviewDb × Action) :=
  let event := delivery.event
  let lineageId := (keyOf service event).lineageId
  let transition := transitionFor host db event service
  let lineage := transition.lineage
  match transition.decision with
  | .stale => .ok (db, .stale service.id lineageId)
  | .duplicate => .ok (db, .duplicate service.id lineageId)
  | .ambiguous => do
    let db ← upsertLineage db lineage
    return (ensureJob db (resolverJob lineage draws.now),
      .resolutionEnqueued service.id lineageId (resolverJobId lineage))
  | .closes => do
    let db ← upsertLineage db lineage
    let closed := closeLineage db lineage draws
    return (closed.1, .cleanupRequested service.id lineageId closed.2)
  | .opens => do
    let db ← upsertLineage db lineage
    let deploymentId := webhookDeploymentId delivery.deliveryId service.id lineage.generation
    let jobId := webhookJobId delivery.deliveryId service.id
    let db ← openLineage host db lineage deploymentId jobId service.id service.projectId
      "github_pull_request" event.headSha event.headRef event.pullRequestNumber service.snapshot draws
    return (db, .deploymentEnqueued service.id lineageId deploymentId jobId lineage.generation)

/-- The loop. -/
def handleServices (host : WebhookHost) (draws : Draws) (delivery : Delivery) :
    List ServiceRow → PreviewDb → Except TxError (PreviewDb × List Action)
  | [], db => .ok (db, [])
  | service :: services, db => do
    let (db, action) ← handleService host draws delivery db service
    let (db, actions) ← handleServices host draws delivery services db
    return (db, action :: actions)

/-! ### `handlePreviewWebhook` -/

structure WebhookReply where
  duplicate : Bool
  matchedServiceCount : Nat := 0
  actions : List Action := []
  deriving DecidableEq, Repr

/-- The services of a delivery that the quota policy lets through. -/
def deliveredServices (host : WebhookHost) (db : PreviewDb) (event : PreviewWebhook) : List ServiceRow :=
  let plan := webhookPlan event
  let services := servicesForPrismaGitHubWebhook db plan
  let blocked := if event.action = .closed then [] else host.prismaGitHubWebhookQuotaBlocks db services plan
  services.filter fun service => !blocked.contains service.id

def recordDelivery (db : PreviewDb) (delivery : Delivery) : PreviewDb :=
  match db.webhookEvents.get? delivery.deliveryId with
  | some _ => db
  | none => { db with webhookEvents := db.webhookEvents.put ⟨delivery.deliveryId, some delivery, false⟩ }

def markHandled (db : PreviewDb) (deliveryId : String) : PreviewDb :=
  let webhookEvents := db.webhookEvents.update (fun row => row.deliveryId = deliveryId)
    (fun row => { row with handled := true }) fun _ => rfl
  { db with webhookEvents }

def deliver (host : WebhookHost) (draws : Draws) (db : PreviewDb) (delivery : Delivery) :
    Except TxError (PreviewDb × WebhookReply) := do
  let db := recordDelivery db delivery
  let (after, actions) ← handleServices host draws delivery (deliveredServices host db delivery.event) db
  return (markHandled after delivery.deliveryId,
    { duplicate := false
      matchedServiceCount := (servicesForPrismaGitHubWebhook db (webhookPlan delivery.event)).length
      actions })

def handlePreviewWebhook (host : WebhookHost) (draws : Draws) (db : PreviewDb) (delivery : Delivery) :
    Except TxError (PreviewDb × WebhookReply) :=
  match db.webhookEvents.get? delivery.deliveryId with
  | none => deliver host draws db delivery
  | some existing =>
    if existing.payload ≠ some delivery then .error (.thrown ⟨"preview_delivery_conflict", 409⟩)
    else if existing.handled then .ok (db, { duplicate := true })
    else deliver host draws db delivery

end RaibitServer.Preview
