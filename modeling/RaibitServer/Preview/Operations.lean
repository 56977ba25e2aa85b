import RaibitServer.Preview.Turns
import RaibitServer.Resources.Store

/-!
# Preview.Operations — operations on deployments (`persistence.ts`)

`createDeploymentOperation` makes the successor of a deployment (`deployment-operations.ts`); that of a
preview moves the lineage to its next generation, if `assertPreviewRetry` lets it.
-/

namespace RaibitServer.Preview

open Lib Core

/-- `normalizeDeploymentStatus`; its error carries no status code, which the API answers with 500. -/
def normalizeDeploymentStatus (status : String) : Except TxError String :=
  (parseDeploymentStatus status).mapError fun message => .thrown ⟨message, 500⟩

/-! ### The order of deployments -/

/-- `orderBy: [{ createdAt: 'asc' }, { id: 'asc' }]`. -/
def createdBefore (a b : DeploymentRow) : Bool :=
  a.createdAt < b.createdAt || (a.createdAt = b.createdAt && a.id ≤ b.id)

/-- The row that comes last. -/
def newestBy (before : DeploymentRow → DeploymentRow → Bool) : List DeploymentRow → Option DeploymentRow
  | [] => none
  | row :: rows => match newestBy before rows with
    | none => some row
    | some other => if before other row then some row else some other

/-- The later one by `createdAt`, then by id, comes first. -/
def newest : List DeploymentRow → Option DeploymentRow := newestBy createdBefore

theorem newestBy_mem {before : DeploymentRow → DeploymentRow → Bool} {rows : List DeploymentRow} {row : DeploymentRow}
    (h : newestBy before rows = some row) : row ∈ rows := by
  induction rows generalizing row with
  | nil => cases h
  | cons first rows ih =>
    unfold newestBy at h
    cases hrest : newestBy before rows with
    | none =>
      rw [hrest] at h
      exact Option.some.inj h ▸ List.mem_cons_self
    | some other =>
      simp only [hrest] at h
      split_ifs at h
      · exact Option.some.inj h ▸ List.mem_cons_self
      · exact List.mem_cons_of_mem _ (Option.some.inj h ▸ ih hrest)

/-! ### `deploymentSuccessor` -/

structure DeploymentOperation where
  operation : OperationKind
  requestIdempotencyKey : String
  snapshotVersion : Nat
  serviceId : String
  sourceDeploymentId : Option String
  requestedByUserId : String

def operationError (code : String) (statusCode : Nat) : TxError := .thrown ⟨code, statusCode⟩

def operationIdentity (input : DeploymentOperation) : OperationRequest :=
  { operation := input.operation, sourceDeploymentId := input.sourceDeploymentId
    snapshotVersion := input.snapshotVersion }

inductive SourceKind
  | «local»
  | image
  | git
  | other
  deriving DecidableEq, Repr

def sourceKind (source : DeploymentRow) (spec : SpecSnapshot) : SourceKind :=
  let repo := Text.jsOr (Text.jsTrim spec.repoUrl) (Text.jsTrim spec.repositoryUrl)
  let sourceType := Text.jsLower (Text.jsTrim spec.sourceType)
  let mode := String.ofList ((Text.jsLower (Text.jsTrim spec.buildMode)).toList.map fun c =>
    if c = '_' then '-' else c)
  if Text.jsTrim spec.localPath ≠ "" then .local
  else if sourceType = "image" ∨ ["image", "prebuilt", "prebuilt-image"].contains mode ∨
      (repo = "" ∧ Text.jsTrim source.imageUrl ≠ "") then .image
  else if repo ≠ "" ∨ ["git", "github"].contains sourceType then .git
  else .other

def allZero (s : List Char) : Bool := !s.isEmpty && s.all fun c => c = '0'

/-- `/^(?:[0-9a-f]{40}|[0-9a-f]{64})$/`, and not `/^0+$/`. -/
def commitPattern (s : String) : Bool :=
  (s.toList.length = 40 || s.toList.length = 64) && s.toList.all Text.lowerHex && !allZero s.toList

def immutableGitCommit (source : DeploymentRow) : Except TxError String := do
  let sha := Text.jsLower (Text.jsTrim source.commitSha)
  let hash := Text.jsLower (Text.jsTrim source.commitHash)
  let commit := Text.jsOr sha hash
  throwIf (commitPattern commit = false ∨ (sha ≠ "" ∧ hash ≠ "" ∧ sha ≠ hash))
    (operationError "SOURCE_INELIGIBLE" 409)
  return commit

/-- `/^sha256:[0-9a-f]{64}$/`, and not `/^sha256:0+$/`. -/
def digestPattern (s : String) : Bool :=
  let hex := s.toList.drop 7
  Text.startsWith s "sha256:" && hex.length = 64 && hex.all Text.lowerHex && !allZero hex

def lastIndexOf (c : Char) (s : List Char) : Option Nat :=
  (s.reverse.findIdx? fun d => d = c).map fun i => s.length - 1 - i

def alnumRun : Regex := .plus (.cls Text.lowerAlnum)

/-- `/^[a-z0-9]+(?:(?:[._]|__|-+)[a-z0-9]+)*$/`. -/
def segmentPattern (s : String) : Bool :=
  (Regex.seqs [.start, alnumRun, .star (.seq
    (.alts [.oneOf ['.', '_'], .lit "__", .plus (.oneOf ['-'])]) alnumRun), .stop]).isMatch s.toList

/-- `/^[a-z0-9]+(?:[.-][a-z0-9]+)*(?::[1-9][0-9]{0,4})?$/`. -/
def registryPattern (s : String) : Bool :=
  (Regex.seqs [.start, alnumRun, .star (.seq (.oneOf ['.', '-']) alnumRun),
    .upTo 1 (.seqs [.lit ":", .cls fun c => c.isDigit && c ≠ '0', .upTo 4 (.cls Char.isDigit)]), .stop]).isMatch s.toList

/-- The port behind the colon, if there is one, is at most 65535. -/
def registryPort (s : String) : Bool :=
  match GoText.split s ':' with
  | _ :: port :: _ => Text.decimal port ≤ 65535
  | _ => true

def tagPattern (s : String) : Bool :=
  Text.headTail (Text.orOneOf Char.isAlphanum ['_']) (Text.orOneOf Char.isAlphanum ['_', '.', '-']) 127 s

structure NamedImage where
  repository : String
  tag : Option String

/-- The name before the digest, cut at the colon of its tag. -/
def namedImage (named : String) : NamedImage :=
  let chars := named.toList
  match lastIndexOf ':' chars with
  | none => ⟨named, none⟩
  | some i =>
    if (lastIndexOf '/' chars).all fun j => j < i then
      ⟨String.ofList (chars.take i), some (String.ofList (chars.drop (i + 1)))⟩
    else ⟨named, none⟩

/-- The segments of a repository, its registry taken off. -/
def validRepository (repository : String) : Bool :=
  match GoText.split repository '/' with
  | first :: second :: rest =>
    if first.toList.any fun c => c = '.' || c = ':' then
      registryPattern first && registryPort first && (second :: rest).all segmentPattern
    else (first :: second :: rest).all segmentPattern
  | segments => segments.all segmentPattern

structure ImageReference where
  imageUrl : String
  imageDigest : String

def immutableImage (source : DeploymentRow) : Except TxError ImageReference := do
  let parts := GoText.split (Text.jsTrim source.imageUrl) '@'
  let image := namedImage (parts.headD "")
  let embedded := if parts.length = 2 then Text.jsLower (parts.getD 1 "") else ""
  let separate := Text.jsLower (Text.jsTrim source.imageDigest)
  let digest := Text.jsOr embedded separate
  throwIf (parts.length > 2 ∨ validRepository image.repository = false ∨
    (image.tag.any fun tag => !tagPattern tag) = true ∨ digestPattern digest = false ∨
    (parts.length = 2 ∧ digestPattern embedded = false) ∨ (separate ≠ "" ∧ digestPattern separate = false) ∨
    (embedded ≠ "" ∧ separate ≠ "" ∧ embedded ≠ separate)) (operationError "SOURCE_INELIGIBLE" 409)
  return ⟨image.repository ++ "@" ++ digest, digest⟩

def OperationKind.text : OperationKind → String
  | .retry => "retry"
  | .redeploy => "redeploy"

/-- The statuses a source may be in. -/
def OperationKind.eligible : OperationKind → List String
  | .retry => ["BUILD_FAILED", "FAILED"]
  | .redeploy => ["BUILD_FAILED", "FAILED", "READY"]

/-- The ids and the time that are drawn during a call, and which job a `findFirst` without an order returns. -/
structure OperationDraws where
  now : Int
  uuid : String
  jobId : String
  choice : Nat := 0

def snapshotOf (source : DeploymentRow) (input : DeploymentOperation) : Except TxError SpecSnapshot := do
  let version ← orThrow (source.snapshotVersion.filter fun v => v ≠ 0) (operationError "SNAPSHOT_UNAVAILABLE" 409)
  let snapshot ← orThrow source.desiredSpecSnapshot (operationError "SNAPSHOT_UNAVAILABLE" 409)
  throwIf (version ≠ 1 ∨ input.snapshotVersion ≠ version) (operationError "STALE_SNAPSHOT" 409)
  return snapshot

/-- Empty for a source that is not built from a repository. -/
def successorCommit (source : DeploymentRow) (kind : SourceKind) : Except TxError String :=
  if kind = .git then immutableGitCommit source else .ok ""

def successorImage (source : DeploymentRow) (kind : SourceKind) : Except TxError ImageReference :=
  if kind = .image then immutableImage source else .ok ⟨source.imageUrl, source.imageDigest⟩

def successorOf (draws : OperationDraws) (source : DeploymentRow) (input : DeploymentOperation) (commit : String)
    (image : ImageReference) : DeploymentRow :=
  { source with
    id := "dep_" ++ draws.uuid
    status := "queued"
    sourceDeploymentId := some source.id
    retryOfDeploymentId := if input.operation = .retry then some source.id else none
    requestIdempotencyKey := some input.requestIdempotencyKey
    requestedByUserId := some input.requestedByUserId
    commitSha := Text.jsOr commit (Text.jsOr source.commitSha source.commitHash)
    commitHash := Text.jsOr commit (Text.jsOr source.commitHash source.commitSha)
    imageUrl := image.imageUrl
    imageDigest := image.imageDigest
    triggerType := input.operation.text
    createdAt := draws.now }

def deploymentSuccessor (draws : OperationDraws) (source : Option DeploymentRow) (input : DeploymentOperation) :
    Except TxError DeploymentRow := do
  let source ← orThrow (source.filter fun source => source.serviceId = input.serviceId)
    (operationError "DEPLOYMENT_SOURCE_NOT_FOUND" 404)
  let status ← normalizeDeploymentStatus source.status
  throwIf (status ∉ input.operation.eligible) (operationError "SOURCE_INELIGIBLE" 409)
  let snapshot ← snapshotOf source input
  let commit ← successorCommit source (sourceKind source snapshot)
  let image ← successorImage source (sourceKind source snapshot)
  return successorOf draws source input commit image

/-! ### `createDeploymentOperation` -/

/-- Besides what a webhook is given, the quota that a deployment of a type is charged to an actor. -/
structure OperationHost extends WebhookHost where
  enforcePrismaQuotaRequirements : PreviewDb → Option String → String → Except TxError Unit

structure OperationReply where
  deploymentId : String
  operationId : String
  status : String
  deriving DecidableEq, Repr

def operationSource (db : PreviewDb) (input : DeploymentOperation) : Option DeploymentRow :=
  match input.operation with
  | .retry => db.deployments.get? (input.sourceDeploymentId.getD "")
  | .redeploy => newest (db.deployments.select fun row =>
      row.serviceId = input.serviceId && ["BUILD_FAILED", "FAILED", "READY"].contains row.status)

def assertPreviewRetry (lineage : Option PreviewLineageRecord) (source : DeploymentRow) :
    Except Thrown PreviewLineageRecord := do
  let lineage ← orThrow (lineage.filter fun _ => source.previewLineageId.isSome && source.previewRuntime.isSome)
    (lifecycleError "PREVIEW_LEGACY")
  throwIf (source.previewLineageId ≠ some lineage.id ∨ source.serviceId ≠ lineage.serviceId ∨
    source.projectId ≠ lineage.projectId) (lifecycleError "PREVIEW_FOREIGN")
  throwIf (lineage.state = .closed) (lifecycleError "PREVIEW_CLOSED")
  throwIf (lineage.state = .ambiguous) (lifecycleError "PREVIEW_AMBIGUOUS")
  throwIf (source.commitSha ≠ lineage.headSha) (lifecycleError "PREVIEW_STALE")
  return lineage

/-- The lineage that the successor of a preview moves. -/
def retriedLineage (db : PreviewDb) (source : Option DeploymentRow) : Except TxError (Option LineageRow) :=
  match source.filter fun source => Text.jsLower source.deploymentType = "preview" with
  | none => .ok none
  | some source => do
    let row := source.previewLineageId.bind db.lineages.get?
    let _ ← (assertPreviewRetry (row.map LineageRow.lineage) source).mapError .thrown
    return row

def advancedLineage (lineage : PreviewLineageRecord) : PreviewLineageRecord :=
  { lineage with
    version := lineage.version + 1
    generation := lineage.generation + 1
    candidateDeploymentId := none
    candidateGeneration := none }

/-- The successor of a preview, in the next generation of the lineage. -/
def nextAttempt (lineage : PreviewLineageRecord) (runtime : PreviewRuntime) (candidate : DeploymentRow) :
    DeploymentRow :=
  { candidate with
    commitSha := lineage.headSha
    commitHash := lineage.headSha
    previewLineageId := some lineage.id
    previewGeneration := some (lineage.generation + 1)
    previewRuntime := some runtime
    previewUrl := "https://" ++ lineage.stableHost }

/-- The database and the row to create. -/
def advanceCandidate (host : WebhookHost) (db : PreviewDb) (row : Option LineageRow) (candidate : DeploymentRow) :
    Except TxError (PreviewDb × DeploymentRow) :=
  match row with
  | none => .ok (db, candidate)
  | some row => do
    let runtime ← (createPreviewRuntime host.sha256 (advancedLineage row.lineage) candidate.id none).mapError .thrown
    let db ← updateLineage db row (advancedLineage row.lineage)
    return (db, nextAttempt row.lineage runtime candidate)

/-- `Deployment_preview_identity_check`. -/
def previewIdentityCheck (row : DeploymentRow) : Bool :=
  match row.previewLineageId with
  | none => row.previewGeneration.isNone && row.previewRuntime.isNone
  | some lineageId =>
    (row.previewGeneration.any fun generation => 0 < generation) && Text.jsLower row.deploymentType = "preview" &&
      row.previewRuntime.any fun runtime => runtime.lineageId = lineageId && runtime.deploymentId = row.id &&
        some runtime.generation = row.previewGeneration

/-- `deployment.create` of a row of any type.  The key of the request is free: it was looked up before. -/
def insertDeployment (db : PreviewDb) (row : DeploymentRow) : Except TxError PreviewDb := do
  throwIf (previewIdentityCheck row = false) (.raised "Deployment_preview_identity_check")
  match row.previewLineageId with
  | some _ => createDeployment db row
  | none => do
    let deployments ← orThrow (db.deployments.insert? row) (.unique "Deployment_pkey")
    return { db with deployments }

def successorJob (draws : OperationDraws) (candidate : DeploymentRow) (input : DeploymentOperation) : JobRow :=
  { id := draws.jobId
    type := if Text.jsLower candidate.deploymentType = "preview" then "preview-deploy" else "build-and-deploy"
    targetType := "deployment", targetId := candidate.id, runAfter := draws.now, createdAt := draws.now
    payload :=
      { deploymentId := some candidate.id
        lineageId := candidate.previewLineageId
        lineageVersion := candidate.previewLineageId.bind fun _ => candidate.previewRuntime.map (·.lineageVersion)
        generation := candidate.previewLineageId.bind fun _ => candidate.previewGeneration
        runtime := candidate.previewLineageId.bind fun _ => candidate.previewRuntime
        operationRequest := some (operationIdentity input) } }

def setSuccessor (candidate : DeploymentRow) (row : LineageRow) : LineageRow :=
  { row with lineage := { row.lineage with
      candidateDeploymentId := some candidate.id, candidateGeneration := candidate.previewGeneration } }

theorem setSuccessor_id (candidate : DeploymentRow) (row : LineageRow) :
    (setSuccessor candidate row).id = row.id := rfl

/-- The checks and the writes of a new successor. -/
def enqueueSuccessor (host : OperationHost) (draws : OperationDraws) (db : PreviewDb) (service : ServiceRow)
    (candidate : DeploymentRow) (input : DeploymentOperation) : Except TxError PreviewDb := do
  throwIf ((db.deployments.rows.any fun row => row.serviceId = input.serviceId &&
    !terminalDeploymentStatuses.contains row.status) = true) (operationError "ACTIVE_DEPLOYMENT" 409)
  throwIf (Resources.isDeleting service.status = true) (.thrown ⟨"service is being deleted", 409⟩)
  throwIf (Resources.isDeleting service.projectStatus = true) (.thrown ⟨"project is being deleted", 409⟩)
  host.enforcePrismaQuotaRequirements db
    (if input.requestedByUserId = "system" then none else some input.requestedByUserId) candidate.deploymentType
  let db ← insertDeployment db candidate
  let db ← createJob db (successorJob draws candidate input)
  match candidate.previewLineageId with
  | some lineageId => return editLineage db lineageId (setSuccessor candidate) (setSuccessor_id candidate)
  | none => return db

def assertOperationReplay (input : DeploymentOperation) (payload : JobPayload) : Except TxError Unit :=
  throwIf (payload.operationRequest ≠ some (operationIdentity input)) (operationError "IDEMPOTENCY_CONFLICT" 409)

/-- A deployment made before with the key of a request. -/
def usedKey (db : PreviewDb) (input : DeploymentOperation) : Option DeploymentRow :=
  db.deployments.rows.find? fun row => row.serviceId = input.serviceId &&
    row.requestIdempotencyKey = some input.requestIdempotencyKey

/-- The answer to a request whose key was used before.  The `findFirst` has no order, and a rollout leaves a
second job with the deployment as its target. -/
def replayOperation (draws : OperationDraws) (db : PreviewDb) (existing : DeploymentRow) (input : DeploymentOperation) :
    Except TxError OperationReply := do
  let job ← orThrow
    (db.jobs.anyOf (fun job => job.targetId = existing.id && job.targetType = "deployment") draws.choice)
    (operationError "LINEAGE_JOB_MISSING" 409)
  assertOperationReplay input job.payload
  return ⟨existing.id, job.id, existing.status⟩

def createDeploymentOperation (host : OperationHost) (draws : OperationDraws) (db : PreviewDb)
    (input : DeploymentOperation) : Except TxError (PreviewDb × OperationReply) := do
  let service ← orThrow (db.services.find? fun service => service.id = input.serviceId)
    (operationError "DEPLOYMENT_SOURCE_NOT_FOUND" 404)
  match usedKey db input with
  | some existing => do
    let reply ← replayOperation draws db existing input
    return (db, reply)
  | none => do
    let source := operationSource db input
    let row ← retriedLineage db source
    let candidate ← deploymentSuccessor draws source input
    let (db, candidate) ← advanceCandidate host.toWebhookHost db row candidate
    let db ← enqueueSuccessor host draws db service candidate input
    return (db, ⟨candidate.id, draws.jobId, candidate.status⟩)

/-! ### What an operation writes -/

/-- What the retry of a preview asks of its lineage. -/
theorem assertPreviewRetry_ok {found : Option PreviewLineageRecord} {source : DeploymentRow}
    {lineage : PreviewLineageRecord} (h : assertPreviewRetry found source = .ok lineage) :
    found = some lineage ∧ source.previewLineageId = some lineage.id ∧ source.serviceId = lineage.serviceId ∧
      source.projectId = lineage.projectId ∧ source.commitSha = lineage.headSha := by
  unfold assertPreviewRetry at h
  obtain ⟨read, hread, h⟩ := bind_ok.1 h
  obtain ⟨hfound, -⟩ := Option.filter_eq_some_iff.1 (orThrow_ok.1 hread)
  obtain ⟨_, hforeign, h⟩ := bind_ok.1 h
  obtain ⟨_, -, h⟩ := bind_ok.1 h
  obtain ⟨_, -, h⟩ := bind_ok.1 h
  obtain ⟨_, hhead, h⟩ := bind_ok.1 h
  obtain rfl := pure_ok.1 h
  have hsame := throwIf_ok.1 hforeign
  push Not at hsame
  exact ⟨hfound, hsame.1, hsame.2.1, hsame.2.2, not_not.1 (throwIf_ok.1 hhead)⟩

/-- The lineage that is moved is a row of the table, and the source is at its head. -/
theorem retriedLineage_ok {db : PreviewDb} {source : DeploymentRow} {row : LineageRow}
    (h : retriedLineage db (some source) = .ok (some row)) :
    row ∈ db.lineages.rows ∧ source.commitSha = row.lineage.headSha := by
  unfold retriedLineage at h
  split at h
  · cases h
  · next found hfound =>
    obtain rfl := Option.some.inj (Option.filter_eq_some_iff.1 hfound).1
    obtain ⟨lineage, hlineage, h⟩ := bind_ok.1 h
    have hrow : source.previewLineageId.bind db.lineages.get? = some row := pure_ok.1 h
    rw [hrow] at hlineage
    obtain ⟨hsame, -, -, -, hhead⟩ := assertPreviewRetry_ok (mapError_ok.1 hlineage)
    obtain rfl : row.lineage = lineage := Option.some.inj hsame
    obtain ⟨id, -, hget⟩ := Option.bind_eq_some_iff.1 hrow
    exact ⟨(Keyed.get?_eq_some.1 hget).1, hhead⟩

theorem insertDeployment_ok {db db' : PreviewDb} {row : DeploymentRow} (h : insertDeployment db row = .ok db') :
    ∃ deployments, db.deployments.insert? row = some deployments ∧ db' = { db with deployments } := by
  unfold insertDeployment at h
  obtain ⟨_, -, h⟩ := bind_ok.1 h
  cases hlineage : row.previewLineageId with
  | none =>
    rw [hlineage] at h
    obtain ⟨deployments, hinsert, h⟩ := bind_ok.1 h
    exact ⟨deployments, orThrow_ok.1 hinsert, (pure_ok.1 h).symm⟩
  | some lineageId =>
    rw [hlineage] at h
    exact createDeployment_ok h

/-- A successor is enqueued where the other deployments of the service have ended. -/
theorem enqueueSuccessor_ok {host : OperationHost} {draws : OperationDraws} {db db' : PreviewDb}
    {service : ServiceRow} {candidate : DeploymentRow} {input : DeploymentOperation}
    (h : enqueueSuccessor host draws db service candidate input = .ok db') :
    ∃ deployments jobs, db.deployments.insert? candidate = some deployments ∧
      db.jobs.insert? (successorJob draws candidate input) = some jobs ∧
      (∀ row ∈ db.deployments.rows, row.serviceId = input.serviceId →
        terminalDeploymentStatuses.contains row.status = true) ∧
      db' = match candidate.previewLineageId with
        | some lineageId => editLineage { db with deployments, jobs } lineageId (setSuccessor candidate)
            (setSuccessor_id candidate)
        | none => { db with deployments, jobs } := by
  unfold enqueueSuccessor at h
  obtain ⟨_, hactive, h⟩ := bind_ok.1 h
  obtain ⟨_, -, h⟩ := bind_ok.1 h
  obtain ⟨_, -, h⟩ := bind_ok.1 h
  obtain ⟨_, -, h⟩ := bind_ok.1 h
  obtain ⟨db₁, hdeployment, h⟩ := bind_ok.1 h
  obtain ⟨db₂, hjob, h⟩ := bind_ok.1 h
  obtain ⟨deployments, hdeployments, rfl⟩ := insertDeployment_ok hdeployment
  obtain ⟨jobs, hjobs, rfl⟩ := createJob_ok hjob
  have hnone := throwIf_ok.1 hactive
  rw [Bool.not_eq_true, List.any_eq_false] at hnone
  refine ⟨deployments, jobs, hdeployments, hjobs, fun row hrow hservice => by simpa [hservice] using hnone row hrow, ?_⟩
  cases hlineage : candidate.previewLineageId with
  | none =>
    rw [hlineage] at h
    exact (pure_ok.1 h).symm
  | some lineageId =>
    rw [hlineage] at h
    exact (pure_ok.1 h).symm

end RaibitServer.Preview
