import RaibitServer.Orchestrator.Spec

/-!
# Orchestrator.PreviewObject — what the cluster shows of a preview

`kube/preview.go` reads an object of a preview back from the cluster, `observePreviewInventory` of the
reconciler does so for every manifest of a plan, and `ParsePreviewInventory` of the store checks the
list before a rollout is recorded.  All kinds are decoded by one struct.
-/

namespace RaibitServer.Orchestrator

open Lib GoJson

/-- What `kubectl get -o json` prints: its length in bytes and the value it is, if it is one. -/
structure Document where
  length : Nat
  value : Option Json
  length_pos : value.isSome = true → 0 < length

structure PreviewObjectMetadata where
  name : String := ""
  «namespace» : String := ""
  uid : String := ""
  resourceVersion : String := ""
  deletionTimestamp : String := ""
  labels : StringMap := []
  annotations : StringMap := []

structure PreviewRule where
  host : String := ""
  /-- The name of each path's backend service. -/
  paths : List String := []

structure PreviewObjectSpec where
  selector : StringMap := []
  rules : List PreviewRule := []

/-- `previewObjectJSON`. -/
structure PreviewObject where
  apiVersion : String := ""
  kind : String := ""
  metadata : PreviewObjectMetadata := {}
  spec : PreviewObjectSpec := {}

def metadataDecoder : Decoder PreviewObjectMetadata := struct [
  field "name" (·.name) (fun m v => { m with name := v }) string,
  field "namespace" (·.namespace) (fun m v => { m with «namespace» := v }) string,
  field "uid" (·.uid) (fun m v => { m with uid := v }) string,
  field "resourceVersion" (·.resourceVersion) (fun m v => { m with resourceVersion := v }) string,
  field "deletionTimestamp" (·.deletionTimestamp) (fun m v => { m with deletionTimestamp := v }) string,
  field "labels" (·.labels) (fun m v => { m with labels := v }) stringMap,
  field "annotations" (·.annotations) (fun m v => { m with annotations := v }) stringMap]

def pathDecoder : Decoder String :=
  struct [⟨"backend", struct [⟨"service", struct [⟨"name", string⟩]⟩]⟩]

def ruleDecoder : Decoder PreviewRule := struct [
  field "host" (·.host) (fun r v => { r with host := v }) string,
  field "http" (·.paths) (fun r v => { r with paths := v }) (struct [⟨"paths", slice "" pathDecoder⟩])]

def specDecoder : Decoder PreviewObjectSpec := struct [
  field "selector" (·.selector) (fun s v => { s with selector := v }) stringMap,
  field "rules" (·.rules) (fun s v => { s with rules := v }) (slice {} ruleDecoder)]

def previewObjectDecoder : Decoder PreviewObject := struct [
  field "apiVersion" (·.apiVersion) (fun o v => { o with apiVersion := v }) string,
  field "kind" (·.kind) (fun o v => { o with kind := v }) string,
  field "metadata" (·.metadata) (fun o v => { o with metadata := v }) metadataDecoder,
  field "spec" (·.spec) (fun o v => { o with spec := v }) specDecoder]

def errPreviewObject : String := "owned preview Kubernetes object is unavailable"

def parsePreviewObject (raw : Document) : Except String PreviewObject :=
  if raw.length = 0 ∨ raw.length > 128 * 1024 then .error errPreviewObject
  else match raw.value.bind (previewObjectDecoder {}) with
    | none => .error errPreviewObject
    | some object =>
      if object.metadata.uid = "" ∨ object.metadata.uid.utf8ByteSize > 128 ∨
          object.metadata.resourceVersion = "" ∨ object.metadata.resourceVersion.utf8ByteSize > 32767 ∨
          object.metadata.deletionTimestamp ≠ "" then .error errPreviewObject
      else .ok object

structure PreviewOwnedObject where
  group : String := ""
  version : String := ""
  kind : String := ""
  «namespace» : String := ""
  name : String := ""
  uid : String := ""
  resourceVersion : String := ""
  deriving DecidableEq, Repr

/-- The group and the `apiVersion` of a kind that a preview owns. -/
def previewKind (kind : String) : Option (String × String) :=
  if kind = "Deployment" then some ("apps", "apps/v1")
  else if kind = "Service" then some ("", "v1")
  else if kind = "Ingress" then some ("networking.k8s.io", "networking.k8s.io/v1")
  else if kind = "NetworkPolicy" then some ("networking.k8s.io", "networking.k8s.io/v1")
  else none

/-- The labels that bind an object to its deployment. -/
def ownedLabels (labels : StringMap) (runtime : PreviewRuntime) (projectID serviceID : String) : Bool :=
  labels.get "app.kubernetes.io/managed-by" = "raibitserver" &&
    labels.get "raibitserver.io/project-id" = projectID &&
    labels.get "raibitserver.io/service-id" = serviceID &&
    labels.get "raibitserver.io/deployment-id" = runtime.deploymentID &&
    labels.get "raibitserver.io/preview-lineage-id" = runtime.lineageID &&
    labels.get "raibitserver.io/preview-generation" = toString runtime.generation

/-- The one rule of the preview's ingress. -/
def probeRules (rules : List PreviewRule) (runtime : PreviewRuntime) : Bool :=
  match rules with
  | [rule] => rule.host = runtime.probeHost && rule.paths = [runtime.serviceName]
  | _ => false

/-- `names` is the variable argument; without it the workload's name is expected. -/
def observePreviewObject (raw : Document) (runtime : PreviewRuntime)
    (projectID serviceID kind : String) (names : List String) : Except String PreviewOwnedObject := do
  let object ← parsePreviewObject raw
  throwIf (1 < names.length) errPreviewObject
  let expectedName := names.head?.getD runtime.workloadName
  let (group, apiVersion) ← orThrow (previewKind kind) errPreviewObject
  throwIf (object.apiVersion ≠ apiVersion ∨ object.kind ≠ kind ∨ object.metadata.name ≠ expectedName ∨
    object.metadata.namespace ≠ runtime.namespace ∨
    ownedLabels object.metadata.labels runtime projectID serviceID = false) errPreviewObject
  throwIf (kind = "Service" ∧
    object.spec.selector.get "app.kubernetes.io/name" ≠ runtime.workloadName) errPreviewObject
  throwIf (kind = "Ingress" ∧ probeRules object.spec.rules runtime = false) errPreviewObject
  return { group, version := "v1", kind, «namespace» := runtime.namespace, name := expectedName,
           uid := object.metadata.uid, resourceVersion := object.metadata.resourceVersion }

/-! ### Inventories -/

/-- `json.Marshal`; an empty resource version is left out. -/
def marshalOwned (object : PreviewOwnedObject) : Json :=
  .obj ([("group", .str object.group), ("version", .str object.version), ("kind", .str object.kind),
    ("namespace", .str object.namespace), ("name", .str object.name), ("uid", .str object.uid)] ++
    if object.resourceVersion = "" then [] else [("resourceVersion", .str object.resourceVersion)])

def marshalInventory (objects : List PreviewOwnedObject) : Json := .arr (objects.map marshalOwned)

def ownedDecoder : Decoder PreviewOwnedObject := strictStruct [
  field "group" (·.group) (fun o v => { o with group := v }) string,
  field "version" (·.version) (fun o v => { o with version := v }) string,
  field "kind" (·.kind) (fun o v => { o with kind := v }) string,
  field "namespace" (·.namespace) (fun o v => { o with «namespace» := v }) string,
  field "name" (·.name) (fun o v => { o with name := v }) string,
  field "uid" (·.uid) (fun o v => { o with uid := v }) string,
  field "resourceVersion" (·.resourceVersion) (fun o v => { o with resourceVersion := v }) string]

/-- `^[1-9][0-9]*$`. -/
def resourceVersionRe (s : String) : Bool := positiveDigits s.toList

def ownedKind (object : PreviewOwnedObject) : Bool :=
  object.version = "v1" && (previewKind object.kind).any fun k => k.1 = object.group

def validPreviewOwnedObject (object : PreviewOwnedObject) : Bool :=
  dnsLabelPattern object.namespace && dnsLabelPattern object.name && previewIDPattern object.uid &&
    (object.resourceVersion = "" ||
      (resourceVersionRe object.resourceVersion && decide (object.resourceVersion.utf8ByteSize ≤ 128))) &&
    ownedKind object

def ownedKey (object : PreviewOwnedObject) : String :=
  object.group ++ "/" ++ object.version ++ "/" ++ object.kind ++ "/" ++ object.namespace ++ "/" ++
    object.name

/-- The loop over the objects, with the keys seen so far. -/
def checkOwned (seen : List String) : List PreviewOwnedObject → Except String Unit
  | [] => .ok ()
  | object :: objects => do
    throwIf (validPreviewOwnedObject object = false) errPreviewContract
    throwIf (ownedKey object ∈ seen) errPreviewContract
    checkOwned (ownedKey object :: seen) objects

def parsePreviewInventory (raw : Option Json) : Except String (List PreviewOwnedObject) :=
  match raw.bind (slice {} ownedDecoder []) with
  | none => .error errPreviewContract
  | some objects => do
    throwIf (32 < objects.length) errPreviewContract
    checkOwned [] objects
    return objects

end RaibitServer.Orchestrator
