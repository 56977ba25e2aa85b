import RaibitServer.Orchestrator.Naming
import RaibitServer.Orchestrator.Service

/-!
# Orchestrator.Spec — the specification of a workload

`SpecFromState` of `kube/deployment.go` with the readers of the service's desired specification, and
`ParsePreviewRuntime` of `store/preview_types.go`.  A value that a reader refuses does not stop the
specification: its reason is recorded and the plan is refused later.  Where the source ranges over a
map, the members are taken in their order.
-/

namespace RaibitServer.Orchestrator

open Lib GoJson

/-! ### Preview runtimes -/

structure PreviewRuntime where
  version : Int := 0
  lineageID : String := ""
  deploymentID : String := ""
  generation : Int := 0
  lineageVersion : Int := 0
  stableHost : String := ""
  probeHost : String := ""
  «namespace» : String := ""
  workloadName : String := ""
  serviceName : String := ""
  probeIngressName : String := ""
  routeName : String := ""
  deriving DecidableEq, Repr

/-- `^[a-z0-9](?:[a-z0-9-]{0,61}[a-z0-9])?$`. -/
def dnsLabelPattern (s : String) : Bool := Text.edged Text.lowerAlnum Label.labelChar 61 s

/-- `^[A-Za-z0-9][A-Za-z0-9._:-]{0,127}$`. -/
def previewIDPattern (s : String) : Bool :=
  Text.headTail Char.isAlphanum (Text.orOneOf Char.isAlphanum ['.', '_', ':', '-']) 127 s

def validPreviewHost (host : String) : Bool :=
  decide (host.utf8ByteSize ≤ 253) && host.toList.contains '.' &&
    (GoText.split host '.').all dnsLabelPattern

def previewRuntimeDecoder : Decoder PreviewRuntime := strictStruct [
  field "version" (·.version) (fun r v => { r with version := v }) int,
  field "lineageId" (·.lineageID) (fun r v => { r with lineageID := v }) string,
  field "deploymentId" (·.deploymentID) (fun r v => { r with deploymentID := v }) string,
  field "generation" (·.generation) (fun r v => { r with generation := v }) int,
  field "lineageVersion" (·.lineageVersion) (fun r v => { r with lineageVersion := v }) int,
  field "stableHost" (·.stableHost) (fun r v => { r with stableHost := v }) string,
  field "probeHost" (·.probeHost) (fun r v => { r with probeHost := v }) string,
  field "namespace" (·.namespace) (fun r v => { r with «namespace» := v }) string,
  field "workloadName" (·.workloadName) (fun r v => { r with workloadName := v }) string,
  field "serviceName" (·.serviceName) (fun r v => { r with serviceName := v }) string,
  field "probeIngressName" (·.probeIngressName) (fun r v => { r with probeIngressName := v }) string,
  field "routeName" (·.routeName) (fun r v => { r with routeName := v }) string]

def errPreviewContract : String := "invalid preview lifecycle contract"

/-- What `ParsePreviewRuntime` asks of a decoded runtime. -/
structure ValidRuntime (runtime : PreviewRuntime) (lineageID deploymentID : String)
    (generation : Int) : Prop where
  version : runtime.version = 1
  lineageID : runtime.lineageID = lineageID
  deploymentID : runtime.deploymentID = deploymentID
  generation : runtime.generation = generation
  lineageVersion : 1 ≤ runtime.lineageVersion
  lineageIDPattern : previewIDPattern runtime.lineageID = true
  deploymentIDPattern : previewIDPattern runtime.deploymentID = true
  stableHost : validPreviewHost runtime.stableHost = true
  probeHost : validPreviewHost runtime.probeHost = true
  hosts : runtime.stableHost ≠ runtime.probeHost
  «namespace» : dnsLabelPattern runtime.namespace = true
  workloadName : dnsLabelPattern runtime.workloadName = true
  serviceName : runtime.serviceName = runtime.workloadName
  probeIngressName : runtime.probeIngressName = runtime.workloadName
  routeName : dnsLabelPattern runtime.routeName = true

def parsePreviewRuntime (raw : Option Json) (lineageID deploymentID : String) (generation : Int) :
    Except String PreviewRuntime :=
  match raw.bind (previewRuntimeDecoder {}) with
  | none => .error errPreviewContract
  | some runtime =>
    if runtime.version ≠ 1 ∨ runtime.lineageID ≠ lineageID ∨ runtime.deploymentID ≠ deploymentID ∨
        runtime.generation ≠ generation ∨ runtime.lineageVersion < 1 ∨
        previewIDPattern runtime.lineageID = false ∨ previewIDPattern runtime.deploymentID = false ∨
        validPreviewHost runtime.stableHost = false ∨ validPreviewHost runtime.probeHost = false ∨
        runtime.stableHost = runtime.probeHost ∨ dnsLabelPattern runtime.namespace = false ∨
        dnsLabelPattern runtime.workloadName = false ∨ runtime.serviceName ≠ runtime.workloadName ∨
        runtime.probeIngressName ≠ runtime.workloadName ∨ dnsLabelPattern runtime.routeName = false then
      .error errPreviewContract
    else .ok runtime

theorem parsePreviewRuntime_valid {raw : Option Json} {lineageID deploymentID : String}
    {generation : Int} {runtime : PreviewRuntime}
    (h : parsePreviewRuntime raw lineageID deploymentID generation = .ok runtime) :
    ValidRuntime runtime lineageID deploymentID generation := by
  unfold parsePreviewRuntime at h
  split at h
  · cases h
  · split_ifs at h with hc
    obtain rfl := Except.ok.inj h
    simp only [not_or, ne_eq, not_not, Bool.not_eq_false, Int.not_lt] at hc
    obtain ⟨h1, h2, h3, h4, h5, h6, h7, h8, h9, h10, h11, h12, h13, h14, h15⟩ := hc
    exact ⟨h1, h2, h3, h4, h5, h6, h7, h8, h9, h10, h11, h12, h13, h14, h15⟩

/-! ### Readers of the desired specification -/

structure ServicePersistence where
  sizeGi : Int
  mountPath : String
  deriving DecidableEq, Repr

structure ServiceResources where
  requests : StringMap := []
  limits : StringMap := []
  deriving DecidableEq, Repr

structure SecretEnv where
  name : String
  secretName : String
  key : String
  deriving DecidableEq, Repr

def maxRuntimeArrayEntries : Nat := 64
def maxRuntimeEntryBytes : Nat := 4096
def maxRuntimeEnvironmentEntries : Nat := 128
def maxCronScheduleBytes : Nat := 128
def maxServiceStorageGi : Int := 100
def maxServiceCPUMillicores : Int := 8000
def maxServiceMemoryMi : Int := 16384

/-- `^[A-Z_][A-Z0-9_]{0,127}$`. -/
def environmentNamePattern (s : String) : Bool :=
  Text.headTail (Text.orOneOf Char.isUpper ['_'])
    (fun c => Text.orOneOf Char.isUpper ['_'] c || c.isDigit) 127 s

/-- `^[a-z0-9](?:[-a-z0-9]*[a-z0-9])?$`. -/
def dnsLabelValidationPattern (s : String) : Bool :=
  Text.edged Text.lowerAlnum Label.labelChar s.toList.length s

/-- One entry of an array of strings. -/
def runtimeEntry (key : String) (value : Json) (index : Nat) : Except String String :=
  match value with
  | .str entry =>
    if Text.trimSpace entry = "" then
      .error (key ++ "[" ++ toString index ++ "] must be a non-empty string")
    else if entry.utf8ByteSize > maxRuntimeEntryBytes ∨ GoText.containsControl entry = true then
      .error (key ++ "[" ++ toString index ++ "] exceeds runtime argument safety limits")
    else .ok entry
  | _ => .error (key ++ "[" ++ toString index ++ "] must be a non-empty string")

def runtimeStringArray (service : Service) (key : String) : Except String (List String) :=
  match desiredValue service key with
  | none => .ok []
  | some (.arr values) =>
    if values = [] ∨ values.length > maxRuntimeArrayEntries then
      .error (key ++ " must contain between 1 and 64 entries")
    else values.zipIdx.mapM fun v => runtimeEntry key v.1 v.2
  | some _ => .error (key ++ " must be an array of strings")

structure CronFieldRule where
  min : Int
  max : Int
  names : List (String × Int) := []

def cronFieldRules : List CronFieldRule :=
  [{ min := 0, max := 59 }, { min := 0, max := 23 }, { min := 1, max := 31 },
    { min := 1, max := 12, names := [("jan", 1), ("feb", 2), ("mar", 3), ("apr", 4), ("may", 5),
        ("jun", 6), ("jul", 7), ("aug", 8), ("sep", 9), ("oct", 10), ("nov", 11), ("dec", 12)] },
    { min := 0, max := 7, names := [("sun", 0), ("mon", 1), ("tue", 2), ("wed", 3), ("thu", 4),
        ("fri", 5), ("sat", 6)] }]

/-- `^[0-9A-Za-z*/?,-]+$`. -/
def cronFieldPattern (s : String) : Bool :=
  s ≠ "" && s.toList.all (Text.orOneOf Char.isAlphanum ['*', '/', '?', ',', '-'])

def parseCronValue (value : String) (rule : CronFieldRule) : Except String Int :=
  match rule.names.lookup (Text.lower value) with
  | some named => .ok named
  | none =>
    match GoText.atoi value with
    | some parsed =>
      if parsed < rule.min ∨ parsed > rule.max then
        .error ("value must be between " ++ toString rule.min ++ " and " ++ toString rule.max)
      else .ok parsed
    | none => .error ("value must be between " ++ toString rule.min ++ " and " ++ toString rule.max)

def validateCronStep (stepParts : List String) : Except String Unit :=
  match stepParts with
  | [_, step] =>
    match GoText.atoi step with
    | some step => throwIf (step ≤ 0) "step must be a positive integer"
    | none => .error "step must be a positive integer"
  | _ => .ok ()

def validateCronRange (rangeParts : List String) (rule : CronFieldRule) : Except String Unit :=
  match rangeParts with
  | [start] => (parseCronValue start rule).map fun _ => ()
  | [start, stop] => do
    let first ← parseCronValue start rule
    let last ← parseCronValue stop rule
    throwIf (first > last) "range start exceeds range end"
  | _ => .error "invalid range"

def validateCronSegment (rule : CronFieldRule) (segment : String) : Except String Unit := do
  let stepParts := GoText.split segment '/'
  throwIf (stepParts.length > 2 ∨ stepParts.head? = some "") "invalid step expression"
  validateCronStep stepParts
  let base := stepParts.head?.getD ""
  if base = "*" ∨ base = "?" then return ()
  else validateCronRange (GoText.split base '-') rule

def validateCronField (field : String) (rule : CronFieldRule) : Except String Unit := do
  throwIf (cronFieldPattern field = false) "unsupported characters"
  (GoText.split field ',').forM (validateCronSegment rule)

def validateCronSchedule (schedule : String) : Except String Unit := do
  throwIf (schedule = "" ∨ schedule.utf8ByteSize > maxCronScheduleBytes ∨
    GoText.containsControl schedule = true) "invalid cron schedule"
  let fields := GoText.fields schedule
  throwIf (fields.length ≠ 5) "invalid cron schedule: expected five fields"
  (fields.zip cronFieldRules).forM fun f => (validateCronField f.1 f.2).mapError fun e =>
    "invalid cron schedule field " ++ GoText.quote f.1 ++ ": " ++ e

def runtimeSchedule (service : Service) : Except String String :=
  match desiredValue service "schedule" with
  | none => .ok "0 * * * *"
  | some (.str schedule) => (validateCronSchedule schedule).map fun _ => Text.trimSpace schedule
  | some _ => .error "schedule must be a string"

/-- `^/data(?:/[A-Za-z0-9_-]+)*$`. -/
def serviceDataMountPathPattern (s : String) : Bool :=
  match GoText.split s '/' with
  | "" :: "data" :: rest => rest.all fun part =>
      part ≠ "" && part.toList.all (Text.orOneOf Char.isAlphanum ['_', '-'])
  | _ => false

/-- `persistence.sizeGi` and `persistence.mountPath` of an object without other members. -/
def persistenceOf (entry : JsonObject) : Except String ServicePersistence :=
  match entry.find? fun m => m.1 ≠ "sizeGi" ∧ m.1 ≠ "mountPath" with
  | some (key, _) => .error ("persistence contains unsupported field " ++ GoText.quote key)
  | none =>
    match Json.member entry "sizeGi" with
    | some (.num sizeGi) =>
      if sizeGi < 1 ∨ sizeGi > maxServiceStorageGi then
        .error "persistence.sizeGi must be an integer from 1 through 100"
      else match Json.asString (Json.member entry "mountPath") with
        | some mountPath =>
          if serviceDataMountPathPattern mountPath then .ok ⟨sizeGi, mountPath⟩
          else .error "persistence.mountPath must be /data or a safe descendant of /data"
        | none => .error "persistence.mountPath must be /data or a safe descendant of /data"
    | _ => .error "persistence.sizeGi must be an integer from 1 through 100"

def runtimePersistence (service : Service) : Except String (Option ServicePersistence) :=
  match desiredValue service "persistence" with
  | none | some .null => .ok none
  | some (.obj entry) => (persistenceOf entry).map some
  | some _ => .error "persistence must be null or an object"

def cpuError : String := "must be a positive CPU quantity no greater than 8 cores"

/-- `[1-9]\d*`. -/
def positiveDigits (s : List Char) : Bool := s.all Char.isDigit && s.head?.any fun c => c ≠ '0'

/-- `^(?:[1-9]\d*m|(?:0|[1-9]\d*)(?:\.\d{1,3})?)$`, as the millicores it stands for. -/
def cpuQuantity (s : List Char) : Option Int :=
  if s.getLast? = some 'm' then
    if positiveDigits s.dropLast then some (Text.decimal (String.ofList s.dropLast)) else none
  else match s.splitOn '.' with
    | [whole] => if whole = ['0'] ∨ positiveDigits whole = true then
        some (1000 * Text.decimal (String.ofList whole)) else none
    | [whole, fraction] =>
      if (whole = ['0'] ∨ positiveDigits whole = true) ∧ fraction.all Char.isDigit = true ∧
          1 ≤ fraction.length ∧ fraction.length ≤ 3 then
        some (1000 * Text.decimal (String.ofList whole) +
          Text.decimal (String.ofList (fraction ++ List.replicate (3 - fraction.length) '0')))
      else none
    | _ => none

def cpuMillicores (value : String) : Except String Int :=
  if value.utf8ByteSize > 16 then .error cpuError
  else match cpuQuantity value.toList with
    | some millicores =>
      if millicores ≤ 0 ∨ millicores > maxServiceCPUMillicores then .error cpuError else .ok millicores
    | none => .error cpuError

def memoryError : String := "must be a positive integer Mi or Gi quantity no greater than 16Gi"

/-- `^([1-9]\d*)(Mi|Gi)$`, in Mi. -/
def memoryQuantity (s : List Char) : Option Int :=
  let quantity := s.take (s.length - 2)
  if positiveDigits quantity then
    if s.drop (s.length - 2) = ['M', 'i'] then some (Text.decimal (String.ofList quantity))
    else if s.drop (s.length - 2) = ['G', 'i'] then some (1024 * Text.decimal (String.ofList quantity))
    else none
  else none

def memoryMi (value : String) : Except String Int :=
  if value.utf8ByteSize > 16 then .error memoryError
  else match memoryQuantity value.toList with
    | some quantity =>
      if quantity ≤ 0 ∨ quantity > maxServiceMemoryMi then .error memoryError else .ok quantity
    | none => .error memoryError

def resourceEntry (field : String) (member : String × Json) : Except String (String × String) :=
  match member.2 with
  | .str text => .ok (member.1, text)
  | _ => .error (field ++ "." ++ member.1 ++ " must be a string")

def checkResource (field : String) (entry : String × String) : Except String Unit :=
  if entry.1 = "cpu" then
    ((cpuMillicores entry.2).mapError fun e => field ++ ".cpu " ++ e).map fun _ => ()
  else if entry.1 = "memory" then
    ((memoryMi entry.2).mapError fun e => field ++ ".memory " ++ e).map fun _ => ()
  else .error (field ++ " contains unsupported resource " ++ GoText.quote entry.1)

def runtimeResourceSet (value : Option Json) (field : String) : Except String StringMap :=
  match value with
  | none | some .null => .ok []
  | some (.obj members) => do
    let result ← members.mapM (resourceEntry field)
    result.forM (checkResource field)
    return result
  | some _ => .error (field ++ " must be an object")

/-- The two sets of `resources`, each request at most its limit. -/
def resourcesOf (entry : JsonObject) : Except String ServiceResources := do
  let requests ← runtimeResourceSet (Json.member entry "requests") "resources.requests"
  let limits ← runtimeResourceSet (Json.member entry "limits") "resources.limits"
  let requestCPU ← cpuMillicores (firstNonEmpty [StringMap.get requests "cpu", "100m"])
  let limitCPU ← cpuMillicores (firstNonEmpty [StringMap.get limits "cpu", "500m"])
  let requestMemory ← memoryMi (firstNonEmpty [StringMap.get requests "memory", "128Mi"])
  let limitMemory ← memoryMi (firstNonEmpty [StringMap.get limits "memory", "512Mi"])
  throwIf (requestCPU > limitCPU) "resources.requests.cpu must not exceed resources.limits.cpu"
  throwIf (requestMemory > limitMemory)
    "resources.requests.memory must not exceed resources.limits.memory"
  return { requests, limits }

def runtimeResources (service : Service) : Except String ServiceResources :=
  match desiredValue service "resources" with
  | none | some .null => .ok {}
  | some (.obj entry) =>
    match entry.find? fun m => m.1 ≠ "requests" ∧ m.1 ≠ "limits" with
    | some (key, _) => .error ("resources contains unsupported field " ++ GoText.quote key)
    | none => resourcesOf entry
  | some _ => .error "resources must be an object"

/-- The reference of one entry; what has another type reads as empty. -/
def secretReference (entry : JsonObject) : SecretEnv :=
  let valueFrom := (Json.asObject (Json.member entry "valueFrom")).getD []
  let secretKeyRef := (Json.asObject (Json.member valueFrom "secretKeyRef")).getD []
  { name := (Json.asString (Json.member entry "name")).getD ""
    secretName := (Json.asString (Json.member secretKeyRef "name")).getD ""
    key := (Json.asString (Json.member secretKeyRef "key")).getD "" }

def secretEntry (seen : List SecretEnv) (raw : Json) : Except String (List SecretEnv) :=
  let index := "secretEnv[" ++ toString seen.length ++ "]"
  match raw with
  | .obj entry =>
    let reference := secretReference entry
    if environmentNamePattern reference.name = false ∨
        seen.any (fun s => s.name = reference.name) = true then
      .error (index ++ " has an invalid or duplicate environment name")
    else if dnsLabelValidationPattern reference.secretName = false ∨
        reference.secretName.utf8ByteSize > 63 ∨ environmentNamePattern reference.key = false then
      .error (index ++ " has an invalid Kubernetes Secret reference")
    else .ok (seen ++ [reference])
  | _ => .error (index ++ " must be an object")

def secretEnvCountError : String :=
  "secretEnv must contain between 1 and 128 Kubernetes Secret references"

def runtimeSecretEnv (service : Service) : Except String (List SecretEnv) :=
  match desiredValue service "secretEnv" with
  | none => .ok []
  | some (.arr values) =>
    if values = [] ∨ values.length > maxRuntimeEnvironmentEntries then .error secretEnvCountError
    else values.foldlM secretEntry []
  | some _ => .error secretEnvCountError

/-- `result[name] = value`. -/
def setEntry (entries : StringMap) (name value : String) : StringMap :=
  if entries.any (fun e => e.1 = name) then entries.map fun e => if e.1 = name then (name, value) else e
  else entries ++ [(name, value)]

def envEntry (member : String × Json) : Except String (String × String) :=
  match member.2 with
  | .str text => .ok (member.1, text)
  | _ => .error ("env[" ++ member.1 ++ "] must be a string")

def tenantEnv (service : Service) : Except String StringMap :=
  match desiredValue service "env" with
  | none => .ok []
  | some (.obj members) => members.mapM envEntry
  | some _ => .error "env must be an object"

def checkEnv (entry : String × String) : Except String Unit := do
  throwIf (environmentNamePattern entry.1 = false)
    ("env contains an invalid environment name " ++ GoText.quote entry.1)
  throwIf (entry.2.utf8ByteSize > maxRuntimeEntryBytes ∨ GoText.containsControl entry.2 = true)
    ("env[" ++ entry.1 ++ "] contains an invalid value")

/-- What the control plane says of the release, over what the tenant set. -/
def releaseEnv (deployment : Deployment) : StringMap :=
  [("RAIBITSERVER_DEPLOYMENT_ID", deployment.id), ("RAIBITSERVER_SERVICE_ID", deployment.serviceID),
    ("RAIBITSERVER_PROJECT_ID", deployment.projectID),
    ("RAIBITSERVER_DEPLOYMENT_TYPE", firstNonEmpty [deployment.deploymentType, "production"])] ++
  if Text.trimSpace deployment.commitSHA ≠ "" then
    [("RAIBITSERVER_GIT_SHA", Text.trimSpace deployment.commitSHA)] else []

def runtimeEnvironment (service : Service) (deployment : Deployment) : Except String StringMap := do
  let tenant ← tenantEnv service
  let result := (releaseEnv deployment).foldl (fun r e => setEntry r e.1 e.2) tenant
  throwIf (result.length > maxRuntimeEnvironmentEntries) "env must contain at most 128 values"
  result.forM checkEnv
  return result

def runtimeEnvironmentConflict (environment : StringMap) (secretEnv : List SecretEnv) :
    Except String Unit := do
  throwIf (environment.length + secretEnv.length > maxRuntimeEnvironmentEntries)
    "environment must contain at most 128 plain values and Secret references in total"
  secretEnv.forM fun entry => throwIf (environment.any (fun e => e.1 = entry.name) = true)
    ("environment name " ++ entry.name ++ " is configured as both a plain value and a Secret reference")

structure HealthPaths where
  healthCheckPath : String
  livenessPath : String
  readinessPath : String
  publicHealthPath : String

def errHealthPath : String := "invalid service health path"

/-- One path: the desired one, where `null` clears it, else the column. -/
def healthPath (service : Service) (key column : String) : Except String String :=
  match desiredValue service key with
  | none => .ok column
  | some .null => .ok ""
  | some (.str value) => if value = "" then .error errHealthPath else .ok value
  | some _ => .error errHealthPath

/-- The legacy `healthCheck.path`; an explicit `null` of `healthCheckPath` counts over it. -/
def legacyPath (service : Service) (path : String) : Except String String :=
  match desiredValue service "healthCheck" with
  | none | some .null => .ok path
  | some (.obj legacy) =>
    match Json.member legacy "path" with
    | none | some .null => .ok path
    | some (.str value) =>
      if value = "" ∨ (path ≠ "" ∧ path ≠ value) then .error errHealthPath
      else if desiredValue service "healthCheckPath" matches some .null then .ok path
      else .ok value
    | some _ => .error errHealthPath
  | some _ => .error errHealthPath

/-- The paths and the error, if one is refused; the paths before it are read then, and the others are
those of the columns. -/
def healthPathsFromService (service : Service) : HealthPaths × Option String :=
  match healthPath service "healthCheckPath" service.healthCheckPath with
  | .error e => (⟨service.healthCheckPath, service.livenessPath, service.readinessPath,
      service.publicHealthPath⟩, some e)
  | .ok healthCheckPath =>
    match healthPath service "livenessPath" service.livenessPath with
    | .error e => (⟨healthCheckPath, service.livenessPath, service.readinessPath,
        service.publicHealthPath⟩, some e)
    | .ok livenessPath =>
      match healthPath service "readinessPath" service.readinessPath with
      | .error e => (⟨healthCheckPath, livenessPath, service.readinessPath,
          service.publicHealthPath⟩, some e)
      | .ok readinessPath =>
        match healthPath service "publicHealthPath" service.publicHealthPath with
        | .error e => (⟨healthCheckPath, livenessPath, readinessPath, service.publicHealthPath⟩, some e)
        | .ok publicHealthPath =>
          match legacyPath service healthCheckPath with
          | .error e => (⟨healthCheckPath, livenessPath, readinessPath, publicHealthPath⟩, some e)
          | .ok healthCheckPath =>
            (⟨healthCheckPath, livenessPath, readinessPath, publicHealthPath⟩, none)

def boolValue : Option Json → Bool
  | some (.bool b) => b
  | some (.str s) => Text.equalFold (Text.trimSpace s) "true" || Text.trimSpace s = "1"
  | some (.num n) => n ≠ 0
  | some (.frac _) => true
  | _ => false

/-- One map of the service: a nil map has no members. -/
def publicEgressIn (row : Option JsonObject) : Bool :=
  let row := row.getD []
  boolValue (Json.member row "allowPublicEgress") || boolValue (Json.member row "publicEgress") ||
    boolValue (Json.member ((Json.asObject (Json.member row "egress")).getD []) "publicInternet")

def servicePublicEgress (service : Service) : Bool :=
  publicEgressIn service.desiredSpec || publicEgressIn service.desiredState

def serviceTenantIngress (service : Service) : Bool :=
  match desiredValue service "allowTenantIngress" with
  | some (.bool enabled) => enabled
  | _ => false

/-- `^sha256:[a-f0-9]{64}$`. -/
def sha256DigestPattern (s : String) : Bool :=
  Text.startsWith s "sha256:" && Text.bounded Text.lowerHex 64 64 (GoText.trimPrefix s "sha256:")

/-- The tag of an image goes when a digest is added: what follows the last colon behind the last
slash. -/
def withoutTag (image : List Char) : List Char :=
  let tail := image.reverse.takeWhile fun c => c ≠ '/'
  if tail.contains ':' then image.take (image.length - (tail.takeWhile fun c => c ≠ ':').length - 1)
  else image

/-- `ResolveImageReference` of an image with a digest of its own. -/
def resolvePinned (name pinned digest : String) : Except String String := do
  throwIf (sha256DigestPattern pinned = false) "image reference contains an invalid sha256 digest"
  throwIf (digest ≠ "" ∧ sha256DigestPattern digest = false)
    "image digest field contains an invalid sha256 digest"
  throwIf (digest ≠ "" ∧ digest ≠ pinned)
    "image digest conflict between image reference and deployment record"
  return name ++ "@" ++ pinned

def resolveImageReference (image digest : String) (allowMutable : Bool) : Except String String :=
  let image := (Text.trimSpace image).toList
  let digest := Text.trimSpace digest
  if image = [] then .error "image reference is required"
  else if image.contains '@' then
    resolvePinned (String.ofList (image.takeWhile fun c => c ≠ '@'))
      (String.ofList ((image.dropWhile fun c => c ≠ '@').drop 1)) digest
  else if sha256DigestPattern digest = false then
    if allowMutable then .ok (String.ofList image)
    else .error "live deployment requires a valid sha256 image digest"
  else .ok (String.ofList (withoutTag image) ++ "@" ++ digest)

/-! ### The specification -/

structure AppServiceSpec where
  healthCheckPath : String := ""
  livenessPath : String := ""
  readinessPath : String := ""
  publicHealthPath : String := ""
  name : String := ""
  «namespace» : String := ""
  image : String := ""
  port : Int := 0
  replicas : Int := 0
  host : String := ""
  env : StringMap := []
  secretEnv : List SecretEnv := []
  projectID : String := ""
  serviceID : String := ""
  projectSlug : String := ""
  organizationSlug : String := ""
  serviceType : String := ""
  deploymentID : String := ""
  command : List String := []
  args : List String := []
  schedule : String := ""
  preview : Bool := false
  pullRequestNumber : Int := 0
  baseServiceName : String := ""
  publicEgress : Bool := false
  allowTenantIngress : Bool := false
  previewLineageID : String := ""
  previewGeneration : Int := 0
  persistence : Option ServicePersistence := none
  resources : ServiceResources := {}
  invalidReason : String := ""
  deriving DecidableEq, Repr

/-- The specification that only says why there is none. -/
def invalidSpec (project : Project) (service : Service) (deployment : Deployment) (reason : String) :
    AppServiceSpec :=
  { projectID := project.id, serviceID := service.id, deploymentID := deployment.id,
    invalidReason := reason }

def rootBaseDomain (domain : String) : String :=
  GoText.trimPrefix (GoText.trimPrefix (Text.trimSpace domain) "apps.") "preview."

def organizationNamespaceID (project : Project) : String :=
  normalizeDNSName (firstNonEmpty [project.organizationID, project.organizationSlug, "org"])

def projectNamespaceSlug (project : Project) : String :=
  normalizeDNSName (firstNonEmpty [project.slug, project.name, project.id, "project"])

def tenantLabel (sha256 : Label.Hash) (project : Project) : String :=
  boundedDNSName sha256 (organizationNamespaceID project ++ "--" ++ projectNamespaceSlug project)
    (project.organizationID ++ "\x00" ++ project.id) 63

def serviceRouteIdentity (project : Project) (service : Service) : String :=
  let tenant := normalizeDNSName (firstNonEmpty [project.organizationSlug, project.organizationID, "org"])
    ++ "--" ++ normalizeDNSName (firstNonEmpty [project.slug, project.name, project.id, "project"])
  let serviceRouteName := normalizeDNSName (firstNonEmpty [service.slug, service.name, service.id, "service"])
  if serviceRouteName ≠ "web" then tenant ++ "--" ++ serviceRouteName else tenant

/-- Where a workload is placed: its name, its namespace, its host and whether it is a preview. -/
structure Placement where
  name : String
  «namespace» : String
  host : String
  preview : Bool

def baseServiceName (sha256 : Label.Hash) (service : Service) : String :=
  boundedDNSName sha256 (firstNonEmpty [service.slug, service.name, service.id, "service"]) service.id 63

/-- The placement by names: of a production deployment, or of a preview without a lineage. -/
def namedPlacement (sha256 : Label.Hash) (project : Project) (service : Service)
    (deployment : Deployment) (baseDomain : String) : Placement :=
  let domain := rootBaseDomain (firstNonEmpty [baseDomain, service.baseDomain, "raibitserver.local"])
  let routeIdentity := serviceRouteIdentity project service
  let previewKey := "pr-" ++ toString deployment.pullRequestNumber
  if deployment.deploymentType = "preview" ∧ deployment.pullRequestNumber > 0 then
    { name := identityDNSName sha256 (previewKey ++ "-" ++ baseServiceName sha256 service) deployment.id 63
      «namespace» := tenantLabel sha256 project
      host := "preview--" ++ previewKey ++ "--" ++
        boundedDNSName sha256 routeIdentity routeIdentity 39 ++ "." ++ domain
      preview := true }
  else
    { name := baseServiceName sha256 service
      «namespace» := tenantLabel sha256 project
      host := boundedDNSName sha256 ("apps--" ++ routeIdentity) ("apps--" ++ routeIdentity) 63 ++ "." ++
        domain
      preview := false }

/-- A deployment of a lineage is placed as its runtime record says. -/
def placement (sha256 : Label.Hash) (project : Project) (service : Service) (deployment : Deployment)
    (baseDomain : String) : Except String Placement :=
  if deployment.previewLineageID = "" then .ok (namedPlacement sha256 project service deployment baseDomain)
  else (parsePreviewRuntime deployment.previewRuntimeJSON deployment.previewLineageID deployment.id
    deployment.previewGeneration).map fun runtime =>
      { name := runtime.workloadName, «namespace» := runtime.namespace, host := runtime.probeHost,
        preview := true }

/-- A reader's value, or the zero value where it refuses. -/
def valueOr {α : Type} (result : Except String α) (zero : α) : α :=
  match result with
  | .ok value => value
  | .error _ => zero

def reason {α : Type} (result : Except String α) : List String :=
  match result with
  | .ok _ => []
  | .error e => [e]

/-- `runtimeEnvironmentConflict` sees what the two readers returned. -/
def environmentConflict (service : Service) (deployment : Deployment) : Except String Unit :=
  runtimeEnvironmentConflict (valueOr (runtimeEnvironment service deployment) [])
    (valueOr (runtimeSecretEnv service) [])

def firstError (service : Service) (deployment : Deployment) : String :=
  (reason (runtimeStringArray service "command") ++ reason (runtimeStringArray service "args") ++
    reason (runtimeSchedule service) ++ reason (runtimeEnvironment service deployment) ++
    reason (runtimeSecretEnv service) ++ reason (environmentConflict service deployment) ++
    (healthPathsFromService service).2.toList ++ reason (runtimePersistence service) ++
    reason (runtimeResources service)).head?.getD ""

/-- The image: pinned where that works, else as it was given. -/
def specImage (service : Service) (deployment : Deployment) : String :=
  let image := firstNonEmpty [deployment.imageURL, service.imageURL]
  valueOr (resolveImageReference image deployment.imageDigest true) image

/-- The specification of a placed deployment; `live` is the service, `service` what it runs. -/
def placedSpec (sha256 : Label.Hash) (project : Project) (live service : Service)
    (deployment : Deployment) (place : Placement) : AppServiceSpec :=
  let paths := (healthPathsFromService service).1
  { healthCheckPath := paths.healthCheckPath
    livenessPath := paths.livenessPath
    readinessPath := paths.readinessPath
    publicHealthPath := paths.publicHealthPath
    name := place.name
    «namespace» := place.namespace
    image := specImage live deployment
    port := service.port
    replicas := service.replicas
    host := place.host
    env := valueOr (runtimeEnvironment service deployment) []
    secretEnv := valueOr (runtimeSecretEnv service) []
    projectID := project.id
    serviceID := live.id
    projectSlug := boundedDNSName sha256
      (firstNonEmpty [project.slug, project.name, project.id, "project"]) project.id 63
    organizationSlug := boundedDNSName sha256
      (firstNonEmpty [project.organizationSlug, project.organizationID, "org"])
      (firstNonEmpty [project.organizationID, project.organizationSlug]) 63
    serviceType := firstNonEmpty [service.type, "web"]
    deploymentID := deployment.id
    command := valueOr (runtimeStringArray service "command") []
    args := valueOr (runtimeStringArray service "args") []
    schedule := valueOr (runtimeSchedule service) ""
    preview := place.preview
    pullRequestNumber := deployment.pullRequestNumber
    baseServiceName := baseServiceName sha256 live
    publicEgress := servicePublicEgress service
    allowTenantIngress := serviceTenantIngress service
    previewLineageID := deployment.previewLineageID
    previewGeneration := deployment.previewGeneration
    persistence := valueOr (runtimePersistence service) none
    resources := valueOr (runtimeResources service) {}
    invalidReason := firstError service deployment }

def specFromState (sha256 : Label.Hash) (project : Project) (service : Service)
    (deployment : Deployment) (baseDomain : String) : AppServiceSpec :=
  match runtimeService deployment service with
  | .error snapshotErr => invalidSpec project service deployment snapshotErr
  | .ok runtime =>
    match placement sha256 project service deployment baseDomain with
    | .error runtimeErr => invalidSpec project service deployment runtimeErr
    | .ok place => placedSpec sha256 project service runtime deployment place

section Spec

variable {sha256 : Label.Hash} {project : Project} {service runtime : Service} {deployment : Deployment}
  {baseDomain : String}

theorem namedPlacement_namespace :
    (namedPlacement sha256 project service deployment baseDomain).namespace =
      tenantLabel sha256 project := by
  unfold namedPlacement
  generalize tenantLabel sha256 project = label
  dsimp only
  split_ifs
  · rfl
  · rfl

/-- Without a lineage the namespace is the tenant's, whatever the deployment runs. -/
theorem specFromState_namespace (hruntime : runtimeService deployment service = .ok runtime)
    (hlineage : deployment.previewLineageID = "") :
    (specFromState sha256 project service deployment baseDomain).namespace =
      tenantLabel sha256 project := by
  have hplace : placement sha256 project service deployment baseDomain =
      .ok (namedPlacement sha256 project service deployment baseDomain) := if_pos hlineage
  unfold specFromState
  rw [hruntime, hplace]
  exact namedPlacement_namespace

end Spec

end RaibitServer.Orchestrator
