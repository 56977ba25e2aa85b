import RaibitServer.Preview.LineageFrame

/-!
# Preview.MemoryStore — preview events of the memory store (`store.ts`)

The memory store keeps its rows in maps.  Its `handlePreviewWebhook` takes the decisions of the Prisma
one, but nothing guards a write: a row replaces the one with the same key, and a job is added whatever
its id.  A failure puts the maps back.

Left out are the columns and logs that no function here reads and the masking of secrets in payloads.
-/

namespace RaibitServer.Preview

open Lib Core

/-! ### Rows -/

structure MemoryProject where
  id : String
  organizationId : String
  status : String := ""

structure MemoryService where
  id : String
  projectId : String
  status : String := ""
  githubIntegrationId : String := ""
  githubInstallationId : String := ""
  githubRepositoryId : String := ""
  githubRepository : String := ""
  repoUrl : String := ""
  branch : String := ""
  desired : DesiredGithub := {}

structure MemoryStore where
  webhookEvents : Keyed WebhookEventRow.deliveryId
  projects : Keyed MemoryProject.id
  services : List MemoryService
  githubRepositories : List CatalogRow
  previewLineages : Keyed LineageRow.id
  deployments : Keyed DeploymentRow.id
  workflowJobs : List JobRow

/-- An error the handler throws, or the read of a member of `undefined`. -/
inductive MemoryError
  | thrown (error : Thrown)
  | typeError
  deriving DecidableEq, Repr

/-! ### `parseGitHubRepository` (`github-integration.ts`) -/

/-- `[^/\s]`. -/
def ownerChar (c : Char) : Bool := c ≠ '/' && !Text.isJsSpace c

/-- `[^/\s#?]`. -/
def repoChar (c : Char) : Bool := ownerChar c && c ≠ '#' && c ≠ '?'

/-- `([^/\s]+)/` and what follows it. -/
def splitOwner (s : List Char) : Option (List Char × List Char) :=
  match s.dropWhile ownerChar with
  | '/' :: rest => if (s.takeWhile ownerChar).isEmpty then none else some (s.takeWhile ownerChar, rest)
  | _ => none

/-- `([^/\s#?]+?)(?:\.git)?`: the lazy group leaves out a suffix `.git` that is not the whole name. -/
def lazyName (name : List Char) : List Char :=
  if name.length = 4 then name else (dropGitSuffix (String.ofList name)).toList

/-- `(?:[?#].*)?$`. -/
def queryTail : List Char → Bool
  | [] => true
  | c :: cs => (c = '?' || c = '#') && cs.all fun d => d ≠ '\n' && d ≠ '\r' && d.toNat ≠ 0x2028 && d.toNat ≠ 0x2029

/-- An address that starts with a host, in any case; `tail` is what may follow the name. -/
def remoteRepository (host : String) (tail : List Char → Bool) (text : List Char) :
    Option (List Char × List Char) :=
  let n := host.toList.length
  if Text.lower (String.ofList (text.take n)) ≠ host then none
  else match splitOwner (text.drop n) with
    | none => none
    | some (owner, rest) =>
      let name := rest.takeWhile repoChar
      if name.isEmpty || !tail (rest.dropWhile repoChar) then none else some (owner, lazyName name)

def slugRepository (text : List Char) : Option (List Char × List Char) :=
  (splitOwner text).filter fun (_, repo) => !repo.isEmpty && repo.all ownerChar

/-- The full name; `none` where the function throws. -/
def parseGitHubRepository (value : String) : Option String :=
  let text := (Text.jsTrim value).toList
  let found := (remoteRepository "https://github.com/" queryTail text).or
    ((remoteRepository "git@github.com:" List.isEmpty text).or (slugRepository text))
  found.map fun (owner, repo) => String.ofList owner ++ "/" ++ dropGitSuffix (String.ofList repo)

/-! ### Matching services -/

def normalizeRepositoryId (value : String) : String :=
  let text := Text.jsTrim value
  if text = "" then ""
  else match parseGitHubRepository text with
    | some fullName => Text.jsLower fullName
    | none => GoText.trimPrefix (Text.jsLower text) "github:"

/-- `serviceMatchesGitHubWebhook` of `store.ts`, for a plan of a preview. -/
def memoryServiceMatches (service : MemoryService) (plan : ActionPlan) (repositories : List CatalogRow) : Bool :=
  let desired := service.desired
  let repositoryId :=
    Text.jsOr (Text.jsOr service.githubRepositoryId desired.githubRepositoryId) desired.repositoryId
  let installationId :=
    Text.jsOr (Text.jsOr service.githubInstallationId desired.githubInstallationId) desired.installationId
  let repository := normalizeRepositoryId (Text.jsOr (Text.jsOr (Text.jsOr service.githubRepository
    desired.githubRepository) desired.repository) service.repoUrl)
  let productionBranch := Text.jsOr (Text.jsOr service.branch desired.branch) "main"
  (repositories.any fun row => row.githubRepoId = plan.repositoryId && row.installationId = plan.installationId &&
      normalizeRepositoryId row.fullName = normalizeRepositoryId plan.repository) &&
    repositoryId = plan.repositoryId && installationId = plan.installationId &&
    repository = normalizeRepositoryId plan.repository && plan.baseBranch = productionBranch

/-- The status of a project that is not there reads `undefined`, which is not inactive. -/
def servicesForGitHubWebhook (store : MemoryStore) (plan : ActionPlan) : List MemoryService :=
  if plan.kind = "ignored" ∨ plan.repositoryId = "" ∨ plan.installationId = "" ∨ plan.repository = "" then []
  else store.services.filter fun service =>
    !inactive service.status &&
      !((store.projects.get? service.projectId).any fun project => inactive project.status) &&
      memoryServiceMatches service plan store.githubRepositories

structure MemoryHost where
  sha256 : Label.Hash
  githubWebhookQuotaBlocks : MemoryStore → List MemoryService → ActionPlan → List String

/-! ### One service of a delivery -/

def memoryKey (project : MemoryProject) (service : MemoryService) (event : PreviewWebhook) : LineageKey :=
  { organizationId := project.organizationId, projectId := project.id, serviceId := service.id
    installationId := event.installationId, repositoryId := event.repositoryId
    pullRequestNumber := event.pullRequestNumber }

def memoryIdentity (project : MemoryProject) (service : MemoryService) : PreviewIdentity :=
  { organizationId := project.organizationId, projectId := project.id, serviceId := service.id
    integrationId := Text.jsOr (Text.jsOr service.githubIntegrationId service.desired.githubIntegrationId)
      service.desired.integrationId }

def memoryTransition (host : MemoryHost) (store : MemoryStore) (event : PreviewWebhook)
    (project : MemoryProject) (service : MemoryService) : PreviewTransition :=
  transitionPreviewLineage host.sha256
    ((store.previewLineages.get? (memoryKey project service event).lineageId).map LineageRow.lineage) event
    (memoryIdentity project service) (memoryKey project service event).lineageId

/-- `previewLineages.set`. -/
def setLineage (store : MemoryStore) (row : LineageRow) : MemoryStore :=
  { store with previewLineages := store.previewLineages.put row }

def setDeployment (store : MemoryStore) (row : DeploymentRow) : MemoryStore :=
  { store with deployments := store.deployments.put row }

def enqueueWorkflowJob (store : MemoryStore) (job : JobRow) : MemoryStore :=
  { store with workflowJobs := store.workflowJobs ++ [job] }

def memoryAttempts (store : MemoryStore) (lineageId : String) : List DeploymentRow :=
  store.deployments.select fun row => row.previewLineageId = some lineageId

def closedRow (lineage : PreviewLineageRecord) (draws : Draws) : LineageRow :=
  { lineage, routeIntent := some (previewCloseIntent lineage (draws.token lineage.id)) }

def closeMemoryLineage (store : MemoryStore) (lineage : PreviewLineageRecord) (draws : Draws) :
    MemoryStore × List String :=
  let deploymentIds := mutableIds (memoryAttempts store lineage.id)
  let store := setLineage store (closedRow lineage draws)
  let deployments := store.deployments.update (fun row => deploymentIds.contains row.id)
    (fun row => { row with status := "PREVIEW_CLEANUP_REQUESTED" }) cleanupRequested_id
  let workflowJobs := store.workflowJobs.map fun job =>
    if (job.targetId = lineage.id || deploymentIds.contains job.targetId) &&
        (job.status = "queued" || job.status = "running") then
      { job with status := "cancelled", lockedBy := none, lockedAt := none }
    else job
  ({ store with deployments, workflowJobs }, deploymentIds)

def openMemoryLineage (host : MemoryHost) (store : MemoryStore) (delivery : Delivery)
    (service : MemoryService) (lineage : PreviewLineageRecord) (draws : Draws) :
    Except MemoryError (MemoryStore × Action) := do
  let event := delivery.event
  let deploymentId := webhookDeploymentId delivery.deliveryId service.id lineage.generation
  let runtime ← (createPreviewRuntime host.sha256 lineage deploymentId none).mapError .thrown
  let store := setDeployment store (previewDeployment lineage deploymentId service.id service.projectId
    "github_pull_request" event.headSha event.headRef event.pullRequestNumber runtime)
  let jobId := webhookJobId delivery.deliveryId service.id
  let store := enqueueWorkflowJob store (deployJob jobId lineage deploymentId runtime draws.now)
  let store := setLineage store (setCandidate deploymentId lineage.generation { lineage })
  return (store, .deploymentEnqueued service.id lineage.id deploymentId jobId lineage.generation)

/-- The row that `set` writes: an ambiguous transition spreads the row that was read, with the members
that are not part of a lineage. -/
def transitionRow (store : MemoryStore) (transition : PreviewTransition) : LineageRow :=
  match transition.decision, store.previewLineages.get? transition.lineage.id with
  | .ambiguous, some row => { row with lineage := transition.lineage }
  | _, _ => { lineage := transition.lineage }

def handleMemoryService (host : MemoryHost) (draws : Draws) (delivery : Delivery) (store : MemoryStore)
    (service : MemoryService) : Except MemoryError (MemoryStore × Action) := do
  let project ← orThrow (store.projects.get? service.projectId) .typeError
  let transition := memoryTransition host store delivery.event project service
  let lineage := transition.lineage
  match transition.decision with
  | .stale => return (store, .stale service.id lineage.id)
  | .duplicate => return (store, .duplicate service.id lineage.id)
  | .ambiguous =>
    return (enqueueWorkflowJob (setLineage store (transitionRow store transition))
      (resolverJob lineage draws.now), .resolutionEnqueued service.id lineage.id (resolverJobId lineage))
  | .closes =>
    let closed := closeMemoryLineage (setLineage store (transitionRow store transition)) lineage draws
    return (closed.1, .cleanupRequested service.id lineage.id closed.2)
  | .opens =>
    openMemoryLineage host (setLineage store (transitionRow store transition)) delivery service lineage draws

def handleMemoryServices (host : MemoryHost) (draws : Draws) (delivery : Delivery) :
    List MemoryService → MemoryStore → Except MemoryError (MemoryStore × List Action)
  | [], store => .ok (store, [])
  | service :: services, store => do
    let (store, action) ← handleMemoryService host draws delivery store service
    let (store, actions) ← handleMemoryServices host draws delivery services store
    return (store, action :: actions)

/-! ### `handlePreviewWebhook` -/

def deliveredMemoryServices (host : MemoryHost) (store : MemoryStore) (event : PreviewWebhook) :
    List MemoryService :=
  let plan := webhookPlan event
  let services := servicesForGitHubWebhook store plan
  let blocked := if event.action = .closed then [] else host.githubWebhookQuotaBlocks store services plan
  services.filter fun service => !blocked.contains service.id

/-- `webhookEvents.set`, before the services and after them. -/
def setDelivery (store : MemoryStore) (row : WebhookEventRow) : MemoryStore :=
  { store with webhookEvents := store.webhookEvents.put row }

def deliverToMemory (host : MemoryHost) (draws : Draws) (store : MemoryStore) (delivery : Delivery)
    (row : WebhookEventRow) : Except MemoryError (MemoryStore × WebhookReply) := do
  let store := setDelivery store row
  let (after, actions) ←
    handleMemoryServices host draws delivery (deliveredMemoryServices host store delivery.event) store
  return (setDelivery after { row with handled := true },
    { duplicate := false
      matchedServiceCount := (servicesForGitHubWebhook store (webhookPlan delivery.event)).length
      actions })

/-- `handlePreviewWebhook` of the memory store. -/
def handleMemoryWebhook (host : MemoryHost) (draws : Draws) (store : MemoryStore) (delivery : Delivery) :
    Except MemoryError (MemoryStore × WebhookReply) :=
  match store.webhookEvents.get? delivery.deliveryId with
  | none => deliverToMemory host draws store delivery ⟨delivery.deliveryId, some delivery, false⟩
  | some existing =>
    if existing.payload ≠ some delivery then .error (.thrown ⟨"preview_delivery_conflict", 409⟩)
    else if existing.handled then .ok (store, { duplicate := true })
    else deliverToMemory host draws store delivery existing

/-! ### What a turn leaves alone -/

/-- The row of a lineage, its deployments, and the maps that no webhook writes. -/
structure MemoryView where
  lineage : Option LineageRow
  attempts : List DeploymentRow
  projects : Keyed MemoryProject.id
  services : List MemoryService
  githubRepositories : List CatalogRow

def MemoryStore.seen (store : MemoryStore) (l : String) : MemoryView :=
  ⟨store.previewLineages.get? l, memoryAttempts store l, store.projects, store.services,
    store.githubRepositories⟩

section Turn

variable {host : MemoryHost} {draws : Draws} {delivery : Delivery} {store store' : MemoryStore}
  {service : MemoryService} {l : String}

theorem seen_setLineage {row : LineageRow} (h : row.id ≠ l) : (setLineage store row).seen l = store.seen l := by
  unfold MemoryStore.seen setLineage
  dsimp only
  rw [Keyed.get?_put_ne h]
  rfl

/-- No deployment of the lineage `l` has an id that the delivery computes for the service. -/
def Unclaimed (store : MemoryStore) (l deliveryId serviceId : String) : Prop :=
  ∀ attempt ∈ memoryAttempts store l, ∀ generation,
    attempt.id ≠ webhookDeploymentId deliveryId serviceId generation

theorem seen_setDeployment {row : DeploymentRow} (h : row.previewLineageId ≠ some l)
    (hid : ∀ attempt ∈ memoryAttempts store l, attempt.id ≠ row.id) :
    (setDeployment store row).seen l = store.seen l := by
  have hattempts : memoryAttempts (setDeployment store row) l = memoryAttempts store l :=
    Keyed.select_put (decide_eq_false h) fun r hr hq => hid r (List.mem_filter.2 ⟨hr, hq⟩)
  unfold MemoryStore.seen
  rw [hattempts]
  rfl

theorem seen_closeMemoryLineage {lineage : PreviewLineageRecord} (h : lineage.id ≠ l) :
    (closeMemoryLineage store lineage draws).1.seen l = store.seen l := by
  have hid : (closedRow lineage draws).id ≠ l := h
  have hattempts : memoryAttempts (closeMemoryLineage store lineage draws).1 l = memoryAttempts store l :=
    select_cleanup h
  have hset : (setLineage store (closedRow lineage draws)).seen l = store.seen l := seen_setLineage hid
  rw [← hset]
  unfold MemoryStore.seen
  rw [hattempts]
  rfl

theorem seen_openMemoryLineage {lineage : PreviewLineageRecord} {action : Action} (h : lineage.id ≠ l)
    (hfree : Unclaimed store l delivery.deliveryId service.id)
    (hrun : openMemoryLineage host store delivery service lineage draws = .ok (store', action)) :
    store'.seen l = store.seen l := by
  have hother : some lineage.id ≠ some l := fun e => h (Option.some.inj e)
  unfold openMemoryLineage at hrun
  dsimp only at hrun
  generalize hdeployment : webhookDeploymentId delivery.deliveryId service.id lineage.generation =
    deploymentId at hrun
  have hrow : (setCandidate deploymentId lineage.generation { lineage }).id ≠ l := h
  obtain ⟨runtime, -, hrun⟩ := bind_ok.1 hrun
  obtain ⟨rfl, -⟩ := Prod.mk.inj (pure_ok.1 hrun)
  rw [seen_setLineage hrow]
  change (setDeployment store _).seen l = _
  refine seen_setDeployment hother fun attempt hattempt => ?_
  show attempt.id ≠ deploymentId
  rw [← hdeployment]
  exact hfree attempt hattempt lineage.generation

theorem memoryTransition_id (host : MemoryHost) (store : MemoryStore) (event : PreviewWebhook)
    (project : MemoryProject) (service : MemoryService) :
    (memoryTransition host store event project service).lineage.id =
      (memoryKey project service event).lineageId := by
  refine transitionPreviewLineage_id fun lineage hlineage => ?_
  obtain ⟨row, hrow, rfl⟩ := Option.map_eq_some_iff.1 hlineage
  exact (Keyed.get?_eq_some.1 hrow).2

theorem transitionRow_id (store : MemoryStore) (transition : PreviewTransition) :
    (transitionRow store transition).id = transition.lineage.id := by
  unfold transitionRow
  split <;> rfl

theorem seen_handleMemoryService {action : Action}
    (h : ∀ project, store.projects.get? service.projectId = some project →
      (memoryKey project service delivery.event).lineageId ≠ l)
    (hfree : Unclaimed store l delivery.deliveryId service.id)
    (hrun : handleMemoryService host draws delivery store service = .ok (store', action)) :
    store'.seen l = store.seen l := by
  unfold handleMemoryService at hrun
  obtain ⟨project, hproject, hrun⟩ := bind_ok.1 hrun
  have hid : (memoryTransition host store delivery.event project service).lineage.id ≠ l := by
    rw [memoryTransition_id]
    exact h project (orThrow_ok.1 hproject)
  have hset : (setLineage store (transitionRow store
      (memoryTransition host store delivery.event project service))).seen l = store.seen l :=
    seen_setLineage (by rw [transitionRow_id]; exact hid)
  dsimp only at hrun
  split at hrun
  · obtain ⟨rfl, -⟩ := Prod.mk.inj (pure_ok.1 hrun)
    rfl
  · obtain ⟨rfl, -⟩ := Prod.mk.inj (pure_ok.1 hrun)
    rfl
  · obtain ⟨rfl, -⟩ := Prod.mk.inj (pure_ok.1 hrun)
    exact hset
  · obtain ⟨rfl, -⟩ := Prod.mk.inj (pure_ok.1 hrun)
    exact (seen_closeMemoryLineage hid).trans hset
  · refine (seen_openMemoryLineage hid ?_ hrun).trans hset
    exact hfree

end Turn

/-! ### Deliveries and runs -/

/-- The services of a delivery whose turns leave the lineage `l` alone. -/
def Harmless (store : MemoryStore) (l : String) (delivery : Delivery) (services : List MemoryService) : Prop :=
  ∀ service ∈ services, Unclaimed store l delivery.deliveryId service.id ∧
    ∀ project, store.projects.get? service.projectId = some project →
      (memoryKey project service delivery.event).lineageId ≠ l

/-- What is seen of a lineage settles which services are harmless to it. -/
theorem Harmless.congr {store store' : MemoryStore} {l : String} {delivery : Delivery}
    {services : List MemoryService} (h : Harmless store l delivery services)
    (hseen : store'.seen l = store.seen l) : Harmless store' l delivery services := by
  have hattempts : memoryAttempts store' l = memoryAttempts store l := congrArg MemoryView.attempts hseen
  have hprojects : store'.projects = store.projects := congrArg MemoryView.projects hseen
  intro service hservice
  obtain ⟨hfree, hkey⟩ := h service hservice
  refine ⟨?_, ?_⟩
  · unfold Unclaimed
    rw [hattempts]
    exact hfree
  · rw [hprojects]
    exact hkey

section Deliveries

variable {host : MemoryHost} {draws : Draws} {delivery : Delivery} {store store' : MemoryStore} {l : String}

theorem seen_handleMemoryServices {services : List MemoryService} {actions : List Action}
    (h : Harmless store l delivery services)
    (hrun : handleMemoryServices host draws delivery services store = .ok (store', actions)) :
    store'.seen l = store.seen l := by
  induction services generalizing store actions with
  | nil =>
    cases hrun
    rfl
  | cons service services ih =>
    obtain ⟨⟨store₁, action⟩, hfirst, hrun⟩ := bind_ok.1 hrun
    obtain ⟨⟨store₂, rest⟩, hrest, hrun⟩ := bind_ok.1 hrun
    obtain ⟨rfl, -⟩ := Prod.mk.inj (pure_ok.1 hrun)
    obtain ⟨hfree, hkey⟩ := h service List.mem_cons_self
    have hseen : store₁.seen l = store.seen l := seen_handleMemoryService hkey hfree hfirst
    have htail : Harmless store l delivery services := fun s hs => h s (List.mem_cons_of_mem _ hs)
    exact (ih (htail.congr hseen) hrest).trans hseen

theorem servicesForGitHubWebhook_congr (hseen : store'.seen l = store.seen l) (plan : ActionPlan) :
    servicesForGitHubWebhook store' plan = servicesForGitHubWebhook store plan := by
  have hprojects : store'.projects = store.projects := congrArg MemoryView.projects hseen
  have hservices : store'.services = store.services := congrArg MemoryView.services hseen
  have hcatalog : store'.githubRepositories = store.githubRepositories :=
    congrArg MemoryView.githubRepositories hseen
  unfold servicesForGitHubWebhook
  rw [hprojects, hservices, hcatalog]

theorem seen_deliverToMemory {row : WebhookEventRow} {reply : WebhookReply}
    (h : Harmless store l delivery (servicesForGitHubWebhook store (webhookPlan delivery.event)))
    (hrun : deliverToMemory host draws store delivery row = .ok (store', reply)) :
    store'.seen l = store.seen l := by
  unfold deliverToMemory at hrun
  obtain ⟨⟨after, actions⟩, hservices, hrun⟩ := bind_ok.1 hrun
  obtain ⟨rfl, -⟩ := Prod.mk.inj (pure_ok.1 hrun)
  have hrecorded : (setDelivery store row).seen l = store.seen l := rfl
  have hloop : after.seen l = (setDelivery store row).seen l := by
    refine seen_handleMemoryServices (Harmless.congr ?_ hrecorded) hservices
    intro service hservice
    have hmatched := (List.mem_filter.1 hservice).1
    rw [servicesForGitHubWebhook_congr hrecorded] at hmatched
    exact h service hmatched
  exact hloop.trans hrecorded

end Deliveries

/-- The store after a webhook; a failure restores it. -/
def afterMemoryWebhook (host : MemoryHost) (store : MemoryStore) (received : Draws × Delivery) : MemoryStore :=
  match handleMemoryWebhook host received.1 store received.2 with
  | .ok (store', _) => store'
  | .error _ => store

def afterMemoryWebhooks (host : MemoryHost) (store : MemoryStore) (received : List (Draws × Delivery)) :
    MemoryStore :=
  received.foldl (afterMemoryWebhook host) store

theorem seen_afterMemoryWebhooks {host : MemoryHost} {received : List (Draws × Delivery)} {store : MemoryStore}
    {l : String}
    (h : ∀ r ∈ received, Harmless store l r.2 (servicesForGitHubWebhook store (webhookPlan r.2.event))) :
    (afterMemoryWebhooks host store received).seen l = store.seen l := by
  induction received generalizing store with
  | nil => rfl
  | cons r received ih =>
    have hfirst : (afterMemoryWebhook host store r).seen l = store.seen l := by
      unfold afterMemoryWebhook
      split
      · next store' reply hrun =>
        unfold handleMemoryWebhook at hrun
        split at hrun
        · exact seen_deliverToMemory (h r List.mem_cons_self) hrun
        · split_ifs at hrun
          · cases hrun
            rfl
          · exact seen_deliverToMemory (h r List.mem_cons_self) hrun
      · rfl
    refine (ih fun r' hr' => ?_).trans hfirst
    rw [servicesForGitHubWebhook_congr hfirst]
    exact (h r' (List.mem_cons_of_mem _ hr')).congr hfirst

end RaibitServer.Preview
