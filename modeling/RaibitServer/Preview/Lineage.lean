import RaibitServer.Core.DomainRouter
import RaibitServer.Lib.Guard
import RaibitServer.Lib.Run

/-!
# Preview.Lineage — pull request previews of the control plane

`preview-deployments.ts` (the plan of one preview) and `preview-lineage.ts` (the lineage of all
previews of one pull request), with the checks of `preview-contract.ts` that they call.  A lineage is
made by the first event of its pull request and then moved by webhook events and by observations of
the resolver; every deployment of it gets a runtime record.
-/

namespace RaibitServer.Preview

open Lib Core

/-! ### Plans -/

structure PlanService where
  id : Option String := none
  slug : Option String := none
  name : Option String := none
  baseDomain : Option String := none
  /-- `persistence` of the service, its `desiredState` or its `desiredSpec`, as a condition. -/
  persistence : Bool := false

structure PlanProject where
  id : Option String := none
  slug : Option String := none
  name : Option String := none
  organizationId : Option String := none
  organizationSlug : Option String := none
  baseDomain : Option String := none

structure PlanOrganization where
  id : Option String := none
  slug : Option String := none
  name : Option String := none

/-- The input of a plan.  Its older spellings `prNumber` and `deployment.id` are left out. -/
structure PlanInput where
  service : PlanService
  project : PlanProject
  organization : PlanOrganization
  pullRequestNumber : Nat
  deploymentId : Option String := none
  baseDomain : Option String := none
  action : Option String := none

/-- `a || b || … || last`. -/
def firstTruthy (values : List (Option String)) (last : String) : String :=
  ((values.find? fun v => Text.truthy v).join).getD last

/-- `a || last`. -/
theorem firstTruthy_some (value last : String) : firstTruthy [some value] last = Text.jsOr value last := by
  unfold firstTruthy Text.jsOr
  by_cases h : value = "" <;> simp [Text.truthy, h]

theorem firstTruthy_none (values : List (Option String)) (last : String) :
    firstTruthy (none :: values) last = firstTruthy values last := rfl

theorem firstTruthy_append_none (value : Option String) (last : String) :
    firstTruthy [value, none, none] last = firstTruthy [value] last := by
  cases value with
  | none => rfl
  | some value =>
    unfold firstTruthy
    by_cases h : value = "" <;> simp [Text.truthy, h]

/-- Numbers of pull requests are not negative, and print in full. -/
def previewKey (pullRequestNumber : Nat) : String := "pr-" ++ toString pullRequestNumber

structure PreviewNames where
  preview : String
  serviceName : String
  projectSlug : String
  «namespace» : String
  workloadName : String
  organizationRouteSlug : String
  projectRouteSlug : String
  serviceRouteName : String

def previewIdentity (sha256 : Label.Hash) (input : PlanInput) : PreviewNames :=
  let preview := previewKey input.pullRequestNumber
  let serviceRouteName :=
    firstTruthy [input.service.slug, input.service.name, input.service.id] "service"
  let projectRouteSlug :=
    firstTruthy [input.project.slug, input.project.name, input.project.id] "project"
  let organizationRouteSlug := firstTruthy [input.organization.slug, input.organization.name,
    input.project.organizationSlug, input.project.organizationId] "org"
  let organizationNamespaceIdentity :=
    firstTruthy [input.organization.id, input.project.organizationId] organizationRouteSlug
  let serviceName := boundedDnsLabel sha256 serviceRouteName 63
    (some (firstTruthy [input.service.id] serviceRouteName))
  let projectSlug := boundedDnsLabel sha256 projectRouteSlug 63
    (some (firstTruthy [input.project.id] projectRouteSlug))
  let stableIdentity := (input.project.id.filter fun id => id ≠ "").map fun id =>
    organizationNamespaceIdentity ++ "\x00" ++ id
  let base := preview ++ "-" ++ serviceName
  { preview, serviceName, projectSlug, organizationRouteSlug, projectRouteSlug, serviceRouteName
    «namespace» := tenantProjectLabel sha256 organizationNamespaceIdentity projectRouteSlug
      stableIdentity
    workloadName := match input.deploymentId.filter fun id => id ≠ "" with
      | some deploymentIdentity => identityDnsLabel sha256 base deploymentIdentity 63
      | none => boundedDnsLabel sha256 base 63 none }

structure KubernetesNames where
  «namespace» : String
  workloadName : String
  deploymentName : String
  serviceName : String
  ingressName : String
  labels : List (String × String)
  cleanupSelector : String

structure PreviewDeploymentPlan where
  action : String
  pullRequestNumber : Nat
  deploymentId : Option String
  url : String
  host : String
  kubernetes : KubernetesNames

def previewLabels (names : PreviewNames) (pullRequestNumber : Nat) (deploymentId : Option String) :
    List (String × String) :=
  [("app.kubernetes.io/name", names.workloadName),
    ("app.kubernetes.io/managed-by", "raibitserver"),
    ("raibitserver.io/project", names.projectSlug),
    ("raibitserver.io/service", names.serviceName),
    ("raibitserver.io/preview", "true"),
    ("raibitserver.io/pull-request", toString pullRequestNumber)] ++
  match deploymentId with
    | some id => [("raibitserver.io/deployment", id)]
    | none => []

/-- The plan behind the check of persistence. -/
def previewPlanOf (sha256 : Label.Hash) (input : PlanInput) : PreviewDeploymentPlan :=
  let names := previewIdentity sha256 input
  let baseDomain :=
    firstTruthy [input.baseDomain, input.service.baseDomain, input.project.baseDomain] defaultDomain
  let host := serviceHostname sha256 names.organizationRouteSlug names.projectRouteSlug
    names.serviceRouteName baseDomain (some names.preview)
  let deploymentId := input.deploymentId.filter fun id => id ≠ ""
  let labels := previewLabels names input.pullRequestNumber deploymentId
  { action := firstTruthy [input.action] "apply"
    pullRequestNumber := input.pullRequestNumber
    deploymentId
    url := "https://" ++ host
    host
    kubernetes := {
      «namespace» := names.namespace
      workloadName := names.workloadName
      deploymentName := names.workloadName
      serviceName := names.workloadName
      ingressName := names.workloadName
      labels
      cleanupSelector := String.intercalate "," (labels.map fun l => l.1 ++ "=" ++ l.2) } }

/-- What a call throws: its message or code, and the status. -/
structure Thrown where
  code : String
  statusCode : Nat
  deriving DecidableEq, Repr

/-! ### Lineages -/

/-- A timestamp that the checks accepted, with its `Date.parse`. -/
structure Timestamp where
  text : String
  millis : Int
  deriving DecidableEq, Repr

inductive PreviewAction
  | opened
  | synchronize
  | reopened
  | closed
  deriving DecidableEq, Repr

def PreviewAction.text : PreviewAction → String
  | .opened => "opened"
  | .synchronize => "synchronize"
  | .reopened => "reopened"
  | .closed => "closed"

structure PreviewWebhook where
  installationId : String
  repositoryId : String
  repository : String
  pullRequestNumber : Nat
  action : PreviewAction
  headSha : String
  headRef : String
  baseRef : String
  beforeSha : Option String
  updatedAt : Timestamp
  deriving DecidableEq, Repr

structure PreviewIdentity where
  organizationId : String
  projectId : String
  serviceId : String
  integrationId : String
  baseDomain : Option String := none
  deriving DecidableEq, Repr

/-- `OPEN`, `CLOSED` and `AMBIGUOUS`. -/
inductive LineageState
  | isOpen
  | closed
  | ambiguous
  deriving DecidableEq, Repr

structure PreviewLineageRecord where
  id : String
  organizationId : String
  projectId : String
  serviceId : String
  integrationId : String
  installationId : String
  repositoryId : String
  repository : String
  pullRequestNumber : Nat
  stableHost : String
  «namespace» : String
  routeName : String
  state : LineageState
  version : Nat
  generation : Nat
  eventUpdatedAt : Timestamp
  eventAction : String
  headSha : String
  headRef : String
  baseRef : String
  beforeSha : Option String
  candidateDeploymentId : Option String
  candidateGeneration : Option Nat
  currentDeploymentId : Option String
  currentGeneration : Option Nat
  deriving DecidableEq, Repr

/-- `stale`, `duplicate`, `ambiguous`, `open` and `close`. -/
inductive Decision
  | stale
  | duplicate
  | ambiguous
  | opens
  | closes
  deriving DecidableEq, Repr

structure PreviewTransition where
  decision : Decision
  lineage : PreviewLineageRecord
  enqueueResolver : Bool
  deriving DecidableEq, Repr

def joinKey (action headSha : String) (beforeSha : Option String) (headRef baseRef : String) : String :=
  String.intercalate "\x00" [action, headSha, beforeSha.getD "", headRef, baseRef]

def semanticKey (event : PreviewWebhook) : String :=
  joinKey event.action.text event.headSha event.beforeSha event.headRef event.baseRef

/-- The plan input of a lineage: ids only, neither slugs nor names. -/
def lineageInput (organizationId projectId serviceId : String) (pullRequestNumber : Nat)
    (deploymentId baseDomain : Option String) : PlanInput :=
  { service := { id := some serviceId }
    project := { id := some projectId, organizationId := some organizationId }
    organization := { id := some organizationId }
    pullRequestNumber, deploymentId, baseDomain }

/-- The lineage after an event that is not older than the last one; a new one without `current`. -/
def nextLineage (sha256 : Label.Hash) (current : Option PreviewLineageRecord) (event : PreviewWebhook)
    (identity : PreviewIdentity) (id : String) : PreviewLineageRecord :=
  let plan := previewPlanOf sha256 (lineageInput identity.organizationId identity.projectId
    identity.serviceId event.pullRequestNumber none identity.baseDomain)
  let closes := event.action = .closed
  let generation := (current.map (·.generation)).getD 0
  { id
    organizationId := identity.organizationId
    projectId := identity.projectId
    serviceId := identity.serviceId
    integrationId := identity.integrationId
    installationId := event.installationId
    repositoryId := event.repositoryId
    repository := event.repository
    pullRequestNumber := event.pullRequestNumber
    stableHost := (current.map (·.stableHost)).getD plan.host
    «namespace» := (current.map (·.namespace)).getD plan.kubernetes.namespace
    routeName := (current.map (·.routeName)).getD (identityDnsLabel sha256 "preview-route" id 63)
    state := if closes then .closed else .isOpen
    version := (current.map (·.version)).getD 0 + 1
    generation := if closes then generation else generation + 1
    eventUpdatedAt := event.updatedAt
    eventAction := event.action.text
    headSha := event.headSha
    headRef := event.headRef
    baseRef := event.baseRef
    beforeSha := event.beforeSha
    candidateDeploymentId := none
    candidateGeneration := none
    currentDeploymentId := if closes then none else current.bind (·.currentDeploymentId)
    currentGeneration := if closes then none else current.bind (·.currentGeneration) }

def advance (sha256 : Label.Hash) (current : Option PreviewLineageRecord) (event : PreviewWebhook)
    (identity : PreviewIdentity) (id : String) : PreviewTransition :=
  { decision := if event.action = .closed then .closes else .opens
    lineage := nextLineage sha256 current event identity id
    enqueueResolver := false }

/-- An event at the time of the last one: the same again, or one that leaves the order open. -/
def sameTime (current : PreviewLineageRecord) (event : PreviewWebhook) : PreviewTransition :=
  let previous := joinKey current.eventAction current.headSha current.beforeSha current.headRef
    current.baseRef
  if previous = semanticKey event then ⟨.duplicate, current, false⟩
  else if current.state = .ambiguous then ⟨.duplicate, current, false⟩
  else
    { decision := .ambiguous
      enqueueResolver := true
      lineage := { current with
        state := .ambiguous
        version := current.version + 1
        candidateDeploymentId := none
        candidateGeneration := none } }

/-- The plan is made by `previewRuntimePlan`, which does not throw here. -/
def transitionPreviewLineage (sha256 : Label.Hash) (current : Option PreviewLineageRecord)
    (event : PreviewWebhook) (identity : PreviewIdentity) (id : String) : PreviewTransition :=
  match current with
  | none => advance sha256 none event identity id
  | some lineage =>
    if event.updatedAt.millis < lineage.eventUpdatedAt.millis then ⟨.stale, lineage, false⟩
    else if event.updatedAt.millis = lineage.eventUpdatedAt.millis then sameTime lineage event
    else advance sha256 (some lineage) event identity id

structure PreviewObservation where
  lineageId : String
  lineageVersion : Nat
  installationId : String
  repositoryId : String
  pullRequestNumber : Nat
  closed : Bool
  headSha : String
  headRef : String
  baseRef : String
  updatedAt : Timestamp
  deriving DecidableEq, Repr

def lifecycleError (code : String) : Thrown := ⟨code, 409⟩

/-- The lineage as an observation of the pull request leaves it. -/
def observedLineage (current : PreviewLineageRecord) (observation : PreviewObservation) :
    PreviewLineageRecord :=
  { current with
    state := if observation.closed then .closed else .isOpen
    version := current.version + 1
    generation := if observation.closed then current.generation else current.generation + 1
    eventUpdatedAt := observation.updatedAt
    eventAction := "resolved"
    headSha := observation.headSha
    headRef := observation.headRef
    baseRef := observation.baseRef
    beforeSha := some current.headSha
    candidateDeploymentId := none
    candidateGeneration := none
    currentDeploymentId := if observation.closed then none else current.currentDeploymentId
    currentGeneration := if observation.closed then none else current.currentGeneration }

def applyPreviewObservation (current : PreviewLineageRecord) (observation : PreviewObservation) :
    Except Thrown PreviewTransition := do
  throwIf (observation.lineageId ≠ current.id ∨ observation.lineageVersion ≠ current.version ∨
    observation.installationId ≠ current.installationId ∨
    observation.repositoryId ≠ current.repositoryId ∨
    observation.pullRequestNumber ≠ current.pullRequestNumber) (lifecycleError "PREVIEW_FOREIGN")
  if observation.updatedAt.millis < current.eventUpdatedAt.millis then
    return ⟨.stale, current, false⟩
  else
    return ⟨if observation.closed then .closes else .opens, observedLineage current observation, false⟩

/-- An observation is older than the lineage, or moves it. -/
theorem applyPreviewObservation_cases {current : PreviewLineageRecord} {observation : PreviewObservation}
    {transition : PreviewTransition} (h : applyPreviewObservation current observation = .ok transition) :
    transition = ⟨.stale, current, false⟩ ∨
      transition = ⟨if observation.closed then .closes else .opens, observedLineage current observation, false⟩ := by
  unfold applyPreviewObservation at h
  obtain ⟨_, -, h⟩ := bind_ok.1 h
  by_cases hstale : observation.updatedAt.millis < current.eventUpdatedAt.millis
  · rw [if_pos hstale] at h
    exact .inl (pure_ok.1 h).symm
  · rw [if_neg hstale] at h
    exact .inr (pure_ok.1 h).symm

/-! ### Runtimes -/

structure PreviewRuntime where
  lineageId : String
  deploymentId : String
  generation : Nat
  lineageVersion : Nat
  stableHost : String
  probeHost : String
  «namespace» : String
  workloadName : String
  serviceName : String
  probeIngressName : String
  routeName : String
  deriving DecidableEq, Repr

def invalid : Thrown := ⟨"preview_invalid_input", 400⟩

/-- `^[A-Za-z0-9][A-Za-z0-9._:-]{0,127}$`. -/
def idPattern (s : String) : Bool :=
  Text.headTail Char.isAlphanum (Text.orOneOf Char.isAlphanum ['.', '_', ':', '-']) 127 s

/-- `^[a-z0-9](?:[a-z0-9-]{0,61}[a-z0-9])?$`. -/
def dnsLabelPattern (s : String) : Bool := Text.edged Text.lowerAlnum Label.labelChar 61 s

def splitDots (s : String) : List String := (s.toList.splitOn '.').map String.ofList

/-- `^[a-z0-9.-]+$`. -/
def hostPattern (s : String) : Bool :=
  s ≠ "" && s.toList.all (Text.orOneOf Text.lowerAlnum ['.', '-'])

def text (value : String) (pattern : String → Bool) (limit : Nat) : Except Thrown String := do
  throwIf (Text.jsLength value > limit ∨ pattern value = false) invalid
  return value

def host (value : String) : Except Thrown String := do
  let parsed ← text value hostPattern 253
  throwIf ('.' ∉ parsed.toList ∨ (splitDots parsed).any (fun part => !dnsLabelPattern part) = true) invalid
  return parsed

def previewProbeHost (sha256 : Label.Hash) (lineageId deploymentId baseDomain : String) :
    Except Thrown String := do
  let lineageId ← text lineageId idPattern 128
  let deploymentId ← text deploymentId idPattern 128
  let baseDomain ← host baseDomain
  let digest := (Hex.encode (sha256.sum
    ("raibitserver.preview-probe/v1\x00" ++ lineageId ++ "\x00" ++ deploymentId))).take 32
  host ("preview--probe-" ++ String.ofList digest ++ "." ++ baseDomain)

def createPreviewRuntime (sha256 : Label.Hash) (lineage : PreviewLineageRecord) (deploymentId : String)
    (baseDomain : Option String) : Except Thrown PreviewRuntime := do
  let plan := previewPlanOf sha256 (lineageInput lineage.organizationId lineage.projectId
    lineage.serviceId lineage.pullRequestNumber (some deploymentId) baseDomain)
  let probeHost ← previewProbeHost sha256 lineage.id deploymentId
    (baseDomain.getD (String.intercalate "." ((splitDots lineage.stableHost).drop 1)))
  return {
    lineageId := lineage.id
    deploymentId
    generation := lineage.generation
    lineageVersion := lineage.version
    stableHost := lineage.stableHost
    probeHost
    «namespace» := lineage.namespace
    workloadName := plan.kubernetes.workloadName
    serviceName := plan.kubernetes.serviceName
    probeIngressName := plan.kubernetes.ingressName
    routeName := lineage.routeName }

/-! ### The life of a lineage -/

inductive LineageEvent
  | webhook (event : PreviewWebhook) (identity : PreviewIdentity)
  | observation (observation : PreviewObservation)

inductive LineageStep (sha256 : Label.Hash) :
    PreviewLineageRecord → LineageEvent → PreviewLineageRecord → Prop
  | webhook (current : PreviewLineageRecord) (event : PreviewWebhook) (identity : PreviewIdentity) :
      LineageStep sha256 current (.webhook event identity)
        (transitionPreviewLineage sha256 (some current) event identity current.id).lineage
  | observation {current : PreviewLineageRecord} {observation : PreviewObservation}
      {transition : PreviewTransition}
      (applied : applyPreviewObservation current observation = .ok transition) :
      LineageStep sha256 current (.observation observation) transition.lineage

/-- The host, the namespace and the route of a lineage are settled once. -/
structure SameRoute (a b : PreviewLineageRecord) : Prop where
  id : b.id = a.id
  stableHost : b.stableHost = a.stableHost
  «namespace» : b.namespace = a.namespace
  routeName : b.routeName = a.routeName

theorem transition_sameRoute (sha256 : Label.Hash) (current : PreviewLineageRecord)
    (event : PreviewWebhook) (identity : PreviewIdentity) :
    SameRoute current (transitionPreviewLineage sha256 (some current) event identity current.id).lineage := by
  unfold transitionPreviewLineage
  dsimp only
  split_ifs
  · exact ⟨rfl, rfl, rfl, rfl⟩
  · unfold sameTime
    dsimp only
    split_ifs <;> exact ⟨rfl, rfl, rfl, rfl⟩
  · exact ⟨rfl, rfl, rfl, rfl⟩

/-- **A lineage keeps its route** through every event and observation. -/
theorem run_sameRoute {sha256 : Label.Hash} {first lineage : PreviewLineageRecord}
    {events : List LineageEvent} (run : Run (LineageStep sha256) first events lineage) :
    SameRoute first lineage := by
  refine run.invariant (I := SameRoute first) ?_ ⟨rfl, rfl, rfl, rfl⟩
  intro s e t hs hstep
  have hst : SameRoute s t := by
    cases hstep with
    | webhook event identity => exact transition_sameRoute sha256 s event identity
    | observation applied =>
      rcases applyPreviewObservation_cases applied with rfl | rfl <;> exact ⟨rfl, rfl, rfl, rfl⟩
  exact ⟨hst.id.trans hs.id, hst.stableHost.trans hs.stableHost,
    hst.namespace.trans hs.namespace, hst.routeName.trans hs.routeName⟩

theorem createPreviewRuntime_fields {sha256 : Label.Hash} {lineage : PreviewLineageRecord}
    {deploymentId : String} {baseDomain : Option String} {runtime : PreviewRuntime}
    (h : createPreviewRuntime sha256 lineage deploymentId baseDomain = .ok runtime) :
    runtime.namespace = lineage.namespace ∧ runtime.lineageId = lineage.id ∧ runtime.deploymentId = deploymentId ∧
      runtime.generation = lineage.generation := by
  unfold createPreviewRuntime at h
  obtain ⟨probeHost, -, h⟩ := bind_ok.1 h
  obtain rfl := pure_ok.1 h
  exact ⟨rfl, rfl, rfl, rfl⟩

namespace Sample

/-- No label of a sample is cut, so the digest does not matter. -/
def sha256 : Label.Hash := .repeated fun _ => 0

def opened : PreviewWebhook :=
  { installationId := "1", repositoryId := "2", repository := "acme/shop", pullRequestNumber := 7
    action := .opened, headSha := "a", headRef := "topic", baseRef := "main", beforeSha := none
    updatedAt := ⟨"2026-09-03T00:00:00Z", 1788393600000⟩ }

end Sample

end RaibitServer.Preview
