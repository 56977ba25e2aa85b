import RaibitServer.Lib.GoJson
import RaibitServer.Lib.GoText
import RaibitServer.Lib.Guard

/-!
# Orchestrator.Service — projects, services and deployments, and the runtime snapshot

The rows that the orchestrator reads (`store/store.go`), and `deployment_snapshot.go`: what a
deployment runs is the snapshot of its service's specification where it has one, with the live
identity and the live storage.  JSON columns are decoded already; numbers in them print plainly.
-/

namespace RaibitServer.Orchestrator

open Lib GoJson

structure Project where
  id : String
  organizationID : String
  organizationSlug : String
  name : String
  slug : String
  deriving DecidableEq, Repr

structure Service where
  healthCheckPath : String := ""
  livenessPath : String := ""
  readinessPath : String := ""
  publicHealthPath : String := ""
  id : String
  name : String
  slug : String
  type : String
  imageURL : String := ""
  port : Int
  replicas : Int
  baseDomain : String := ""
  /-- `none` is a nil map. -/
  desiredSpec : Option JsonObject := none
  desiredState : Option JsonObject := none

structure Deployment where
  id : String
  serviceID : String
  projectID : String
  /-- `none` is an empty message. -/
  desiredSpecSnapshot : Option Json := none
  snapshotVersion : Int := 0
  sourceDeploymentID : String := ""
  retryOfDeploymentID : String := ""
  deploymentType : String
  triggerType : String := ""
  commitSHA : String := ""
  imageURL : String := ""
  imageDigest : String := ""
  pullRequestNumber : Int := 0
  previewLineageID : String := ""
  previewGeneration : Int := 0
  previewRuntimeJSON : Option Json := none

/-! ### The snapshot -/

structure SnapshotHealthCheck where
  path : String := ""

structure SnapshotSecretEnv where
  name : String := ""
  secretName : String := ""
  secretKey : String := ""

/-- `runtimeSnapshot`, without the two members that are kept as they are. -/
structure RuntimeSnapshot where
  healthCheckPath : Option String := none
  livenessPath : Option String := none
  readinessPath : Option String := none
  publicHealthPath : Option String := none
  healthCheck : Option SnapshotHealthCheck := none
  type : String := ""
  port : Option Int := none
  replicas : Option Int := none
  command : List String := []
  args : List String := []
  schedule : String := ""
  env : StringMap := []
  secretEnv : List SnapshotSecretEnv := []
  allowPublicEgress : Bool := false
  publicEgress : Bool := false
  allowTenantIngress : Bool := false
  /-- `egress.publicInternet`. -/
  egress : Bool := false

def secretKeyRefDecoder : Decoder SnapshotSecretEnv := struct [
  field "name" (·.secretName) (fun s v => { s with secretName := v }) string,
  field "key" (·.secretKey) (fun s v => { s with secretKey := v }) string]

def secretEnvDecoder : Decoder SnapshotSecretEnv := struct [
  field "name" (·.name) (fun s v => { s with name := v }) string,
  ⟨"valueFrom", struct [⟨"secretKeyRef", secretKeyRefDecoder⟩]⟩]

def runtimeSnapshotDecoder : Decoder RuntimeSnapshot := struct [
  field "healthCheckPath" (·.healthCheckPath) (fun s v => { s with healthCheckPath := v })
    (pointer "" string),
  field "livenessPath" (·.livenessPath) (fun s v => { s with livenessPath := v }) (pointer "" string),
  field "readinessPath" (·.readinessPath) (fun s v => { s with readinessPath := v })
    (pointer "" string),
  field "publicHealthPath" (·.publicHealthPath) (fun s v => { s with publicHealthPath := v })
    (pointer "" string),
  field "healthCheck" (·.healthCheck) (fun s v => { s with healthCheck := v })
    (pointer {} (struct [field "path" (·.path) (fun h v => { h with path := v }) string])),
  field "type" (·.type) (fun s v => { s with type := v }) string,
  field "port" (·.port) (fun s v => { s with port := v }) (pointer 0 int),
  field "replicas" (·.replicas) (fun s v => { s with replicas := v }) (pointer 0 int),
  field "command" (·.command) (fun s v => { s with command := v }) (slice "" string),
  field "args" (·.args) (fun s v => { s with args := v }) (slice "" string),
  field "schedule" (·.schedule) (fun s v => { s with schedule := v }) string,
  field "env" (·.env) (fun s v => { s with env := v }) stringMap,
  field "secretEnv" (·.secretEnv) (fun s v => { s with secretEnv := v }) (slice {} secretEnvDecoder),
  field "allowPublicEgress" (·.allowPublicEgress) (fun s v => { s with allowPublicEgress := v }) bool,
  field "publicEgress" (·.publicEgress) (fun s v => { s with publicEgress := v }) bool,
  field "allowTenantIngress" (·.allowTenantIngress) (fun s v => { s with allowTenantIngress := v }) bool,
  field "egress" (·.egress) (fun s v => { s with egress := v })
    (struct [⟨"publicInternet", bool⟩])]

def snapshotKeys : List String :=
  ["type", "port", "replicas", "command", "args", "schedule", "env", "secretEnv", "allowPublicEgress",
    "publicEgress", "egress", "allowTenantIngress", "healthCheckPath", "livenessPath", "readinessPath",
    "publicHealthPath", "healthCheck", "persistence", "resources"]

/-- The members that may be `null`. -/
def nullableKeys : List String :=
  ["port", "replicas", "allowPublicEgress", "publicEgress", "egress", "allowTenantIngress",
    "healthCheckPath", "livenessPath", "readinessPath", "publicHealthPath", "healthCheck",
    "persistence", "resources"]

def errDeploymentSnapshot : String := "invalid deployment runtime snapshot"

def selectKey (fields selected : JsonObject) (key : String) : Except String JsonObject :=
  match Json.member fields key with
  | none => .ok selected
  | some .null => if key ∈ nullableKeys then .ok selected else .error errDeploymentSnapshot
  | some value => .ok (selected ++ [(key, value)])

/-- A member of the specification, else of the state. -/
def desiredValue (service : Service) (key : String) : Option Json :=
  (service.desiredSpec.bind fun m => Json.member m key).or
    (service.desiredState.bind fun m => Json.member m key)

/-- `runtimePersistenceFromService`. -/
def livePersistence (service : Service) : Option Json :=
  match desiredValue service "persistence" with
  | some .null => none
  | found => found

/-- The live service's storage counts, and a snapshot may not bring back storage it does not own. -/
def mergePersistence (live : Service) (selected : JsonObject) : Except String JsonObject :=
  match livePersistence live, Json.member selected "persistence" with
  | some a, some b =>
    if Json.canonical a = Json.canonical b then .ok selected else .error errDeploymentSnapshot
  | some a, none => .ok (selected ++ [("persistence", a)])
  | none, some _ => .error errDeploymentSnapshot
  | none, none => .ok selected

/-- `validHealthPath` of the store. -/
def validHealthPath (path : String) : Bool :=
  path ≠ "" && decide (path.utf8ByteSize ≤ 1024) && Text.startsWith path "/" &&
    !Text.startsWith path "//" && !GoText.containsAny path ['\\', '?', '#'] &&
    !path.toList.any Text.isGoSpace && !GoText.containsControl path &&
    match GoText.pathUnescape path with
    | none => false
    | some decoded =>
      !GoText.containsAny decoded ['\\', '?', '#', '%'] && !decoded.toList.any Text.isGoSpace &&
        !GoText.containsControl decoded && decoded.toList.count '/' = path.toList.count '/' &&
        (GoText.split decoded '/').all fun segment => segment ≠ "." && segment ≠ ".."

/-- A path of the snapshot; an absent one is empty. -/
def snapshotPath (value : Option String) : Except String String :=
  match value with
  | none => .ok ""
  | some path => if validHealthPath path then .ok path else .error errDeploymentSnapshot

/-- The legacy `healthCheck.path`, where it agrees with `healthCheckPath`. -/
def legacyHealthPath (fields : JsonObject) (execution : RuntimeSnapshot) (path : String) :
    Except String String :=
  match execution.healthCheck with
  | some healthCheck =>
    if healthCheck.path = "" then .ok path
    else if !validHealthPath healthCheck.path || (path ≠ "" && path ≠ healthCheck.path) then
      .error errDeploymentSnapshot
    else if Json.member fields "healthCheckPath" matches some .null then .error errDeploymentSnapshot
    else .ok healthCheck.path
  | none => .ok path

/-- A count of the snapshot: zero and absent mean the default. -/
def snapshotCount (value : Option Int) (default : Int) (max : Option Int) : Except String Int :=
  match value with
  | none => .ok default
  | some n =>
    if n < 0 ∨ max.any (fun m => decide (m < n)) = true then .error errDeploymentSnapshot
    else .ok (if 0 < n then n else default)

def decodeSnapshot (selected : JsonObject) : Except String RuntimeSnapshot :=
  match runtimeSnapshotDecoder {} (.obj selected) with
  | some execution =>
    if Text.trimSpace execution.type = "" then .error errDeploymentSnapshot else .ok execution
  | none => .error errDeploymentSnapshot

/-- The service as a snapshot makes it run. -/
def projectSnapshot (live : Service) (fields : JsonObject) : Except String Service := do
  let selected ← snapshotKeys.foldlM (selectKey fields) []
  let selected ← mergePersistence live selected
  let execution ← decodeSnapshot selected
  let healthCheckPath ← snapshotPath execution.healthCheckPath
  let livenessPath ← snapshotPath execution.livenessPath
  let readinessPath ← snapshotPath execution.readinessPath
  let publicHealthPath ← snapshotPath execution.publicHealthPath
  let healthCheckPath ← legacyHealthPath fields execution healthCheckPath
  throwIf (execution.type ≠ "web" ∧ publicHealthPath ≠ "") errDeploymentSnapshot
  let port ← snapshotCount execution.port 3000 (some 65535)
  let replicas ← snapshotCount execution.replicas 1 none
  return { live with
    healthCheckPath, livenessPath, readinessPath, publicHealthPath, port, replicas
    type := execution.type
    desiredState := none
    desiredSpec := some selected }

/-- A deployment that stands for another one may not run the live specification. -/
def lineaged (deployment : Deployment) : Bool :=
  deployment.sourceDeploymentID ≠ "" || deployment.retryOfDeploymentID ≠ "" ||
    Text.equalFold deployment.triggerType "retry" || Text.equalFold deployment.triggerType "redeploy"

/-- `RuntimeService`. -/
def runtimeService (deployment : Deployment) (live : Service) : Except String Service :=
  match deployment.desiredSpecSnapshot with
  | none | some .null =>
    if deployment.snapshotVersion = 0 ∧ lineaged deployment = false then .ok live
    else .error errDeploymentSnapshot
  | some (.obj fields) =>
    if deployment.snapshotVersion = 1 then projectSnapshot live fields else .error errDeploymentSnapshot
  | some _ => .error errDeploymentSnapshot

/-- A deployment without a snapshot that stands for no other one runs the live service. -/
theorem runtimeService_live {deployment : Deployment} {live : Service}
    (hsnapshot : deployment.desiredSpecSnapshot = none) (hversion : deployment.snapshotVersion = 0)
    (hlineaged : lineaged deployment = false) : runtimeService deployment live = .ok live := by
  unfold runtimeService
  rw [hsnapshot]
  exact if_pos ⟨hversion, hlineaged⟩

end RaibitServer.Orchestrator
