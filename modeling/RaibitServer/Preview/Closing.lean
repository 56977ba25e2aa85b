import RaibitServer.Preview.LineageFrame

/-!
# Preview.Closing — whether the end of a pull request ends its previews

`handlePreviewWebhook` looks for the services of a closed pull request again, by the settings they have
now: the branch of the service has to be the base branch of the event.  The stored lineages are not
asked.  So the lineage of a closed pull request is closed exactly if the delivery is new and the service
still matches the event (`closed_event_closes_iff`); a pull request that was retargeted, or whose
service changed its branch, leaves its preview open.
-/

namespace RaibitServer.Preview

open Lib Core

/-! ### Setting -/

/-- What a stored lineage is about. -/
def storedKey (lineage : PreviewLineageRecord) : LineageKey :=
  { organizationId := lineage.organizationId, projectId := lineage.projectId
    serviceId := lineage.serviceId, installationId := lineage.installationId
    repositoryId := lineage.repositoryId, pullRequestNumber := lineage.pullRequestNumber }

/-- An open or ambiguous lineage of an active service, and an event that closes its pull request.  The
ids of services are a primary key; ids of lineages are taken to be distinct. -/
structure ClosingEvent (db : PreviewDb) (event : PreviewWebhook) (service : ServiceRow)
    (row : LineageRow) : Prop where
  keyed : (db.services.map ServiceRow.id).Nodup
  bound : service ∈ db.services
  active : previewParentIsActive service = true
  stored : row ∈ db.lineages.rows
  id : row.lineage.id = (storedKey row.lineage).lineageId
  about : storedKey row.lineage = keyOf service event
  live : row.lineage.state ≠ .closed
  closes : event.action = .closed
  later : row.lineage.eventUpdatedAt.millis < event.updatedAt.millis
  distinct : ∀ other ∈ db.services, (keyOf other event).lineageId = (keyOf service event).lineageId →
    keyOf other event = keyOf service event

/-- The lineage is closed, and each of its deployments is cleaned up or about to be. -/
def ClosedDown (db : PreviewDb) (l : String) : Prop :=
  (∃ row, db.lineages.get? l = some row ∧ row.lineage.state = .closed) ∧
    ∀ d ∈ attemptsOf db l, d.status = "PREVIEW_CLEANUP_REQUESTED" ∨ Text.upper d.status = "CLEANED_UP"

/-! ### One service -/

section Close

variable {host : WebhookHost} {draws : Draws} {delivery : Delivery} {db db' : PreviewDb}
  {service : ServiceRow} {row : LineageRow} {l : String}

theorem ClosedDown.of_view (h : ClosedDown db l) (hview : lineageView db' l = lineageView db l) :
    ClosedDown db' l := by
  obtain ⟨hlineage, hattempts⟩ := Prod.mk.inj hview
  unfold ClosedDown
  rw [hlineage, hattempts]
  exact h

/-- The close marks every deployment of the lineage that is not cleaned up. -/
theorem closeLineage_closedDown {lineage : PreviewLineageRecord} (hstate : lineage.state = .closed)
    (hrow : db.lineages.get? lineage.id = some row) (hlineage : row.lineage = lineage) :
    ClosedDown (closeLineage db lineage draws).1 lineage.id := by
  refine ⟨⟨setCloseIntent lineage draws row,
    editLineage_get? (f := setCloseIntent lineage draws) (fun _ => rfl) hrow, ?_⟩, fun d hd => ?_⟩
  · rw [← hstate, ← hlineage]
    rfl
  · obtain ⟨hmem, hof⟩ := List.mem_filter.1 hd
    obtain ⟨d₀, hd₀, rfl⟩ := (@Keyed.mem_update _ _ _ db.deployments _ _ cleanupRequested_id d).1 hmem
    by_cases hmutable : (mutableIds (attemptsOf db lineage.id)).contains d₀.id = true
    · rw [if_pos hmutable]
      exact .inl rfl
    · rw [if_neg hmutable] at hof ⊢
      refine .inr ?_
      by_contra hne
      refine hmutable (List.contains_iff_mem.2 (List.mem_map_of_mem ?_))
      exact List.mem_filter.2 ⟨List.mem_filter.2 ⟨hd₀, hof⟩, decide_eq_true hne⟩

theorem handleService_closedDown {action : Action}
    (hrow : db.lineages.get? (keyOf service delivery.event).lineageId = some row)
    (hcloses : delivery.event.action = .closed)
    (hlater : row.lineage.eventUpdatedAt.millis < delivery.event.updatedAt.millis)
    (hrun : handleService host draws delivery db service = .ok (db', action)) :
    ClosedDown db' (keyOf service delivery.event).lineageId := by
  have htransition : transitionFor host db delivery.event service = ⟨.closes, nextLineage host.sha256
      (some row.lineage) delivery.event (identityOf service) (keyOf service delivery.event).lineageId, false⟩ := by
    unfold transitionFor transitionPreviewLineage
    rw [hrow, Option.map_some]
    dsimp only
    rw [if_neg (not_lt.2 hlater.le), if_neg hlater.ne', advance, if_pos hcloses]
  cases handleService_ok hrun with
  | stale decision | duplicate decision | ambiguous decision _ _ | opens decision _ _ _ _ _ =>
    rw [htransition] at decision
    cases decision
  | @closes row' lineage _ next upserted =>
    have hid : lineage.id = (keyOf service delivery.event).lineageId := by
      rw [← next]
      exact transitionFor_id host db delivery.event service
    have hstate : lineage.state = .closed := by
      rw [← next, htransition]
      exact if_pos hcloses
    have hput : (db.lineages.put row').get? lineage.id = some row' := by
      rw [← upserted.written]
      exact Keyed.get?_put_self
    rw [← hid]
    exact closeLineage_closedDown hstate hput upserted.written

/-- The loop: the services before and after leave the lineage of `service` alone. -/
theorem handleServices_closedDown {services : List ServiceRow} {actions : List Action}
    (hrow : db.lineages.get? (keyOf service delivery.event).lineageId = some row)
    (hcloses : delivery.event.action = .closed)
    (hlater : row.lineage.eventUpdatedAt.millis < delivery.event.updatedAt.millis)
    (hmem : service ∈ services) (hnodup : services.Nodup)
    (hothers : ∀ other ∈ services, other ≠ service →
      (keyOf other delivery.event).lineageId ≠ (keyOf service delivery.event).lineageId)
    (hrun : handleServices host draws delivery services db = .ok (db', actions)) :
    ClosedDown db' (keyOf service delivery.event).lineageId := by
  induction services generalizing db actions with
  | nil => cases hmem
  | cons first rest ih =>
    obtain ⟨db₁, action, actions', hfirst, hrest, -⟩ := handleServices_cons hrun
    obtain ⟨hnotin, hnodup⟩ := List.nodup_cons.1 hnodup
    rcases List.mem_cons.1 hmem with rfl | hmem
    · have hclosed := handleService_closedDown hrow hcloses hlater hfirst
      have hspared : Spares (keyOf service delivery.event).lineageId db₁ db' :=
        spares_handleServices (fun other hother => hothers other (List.mem_cons_of_mem _ hother)
          fun heq => hnotin (heq ▸ hother)) hrest
      exact hclosed.of_view hspared.view
    · have hne : first ≠ service := fun heq => hnotin (heq ▸ hmem)
      have hspared := spares_handleService (hothers first List.mem_cons_self hne) hfirst
      refine ih ?_ hmem hnodup (fun other hother => hothers other (List.mem_cons_of_mem _ hother)) hrest
      rw [← hrow]
      exact (Prod.mk.inj hspared.view).1

end Close

/-! ### A delivery -/

section Delivery

variable {host : WebhookHost} {draws : Draws} {delivery : Delivery} {db db' : PreviewDb}
  {service : ServiceRow} {row : LineageRow} {reply : WebhookReply}

theorem ClosingEvent.found (h : ClosingEvent db delivery.event service row) :
    db.lineages.get? (keyOf service delivery.event).lineageId = some row :=
  Keyed.get?_eq_some.2 ⟨h.stored, h.id.trans (congrArg LineageKey.lineageId h.about)⟩

/-- Another service has another lineage. -/
theorem ClosingEvent.others (h : ClosingEvent db delivery.event service row) {other : ServiceRow}
    (hother : other ∈ db.services) (hne : other ≠ service) :
    (keyOf other delivery.event).lineageId ≠ (keyOf service delivery.event).lineageId := by
  intro heq
  have hids : other.id = service.id := congrArg LineageKey.serviceId (h.distinct other hother heq)
  exact hne (List.inj_on_of_nodup_map h.keyed hother h.bound hids)

theorem ClosingEvent.not_closedDown (h : ClosingEvent db delivery.event service row)
    (hview : lineageView db' (keyOf service delivery.event).lineageId =
      lineageView db (keyOf service delivery.event).lineageId) :
    ¬ ClosedDown db' (keyOf service delivery.event).lineageId := by
  rintro ⟨⟨row', hrow', hclosed⟩, -⟩
  rw [(Prod.mk.inj hview).1, h.found] at hrow'
  obtain rfl := Option.some.inj hrow'
  exact h.live hclosed

theorem mem_servicesFor {plan : ActionPlan} {other : ServiceRow}
    (h : other ∈ servicesForPrismaGitHubWebhook db plan) : other ∈ db.services := by
  unfold servicesForPrismaGitHubWebhook at h
  split_ifs at h
  · cases h
  · split at h
    · cases h
    · split_ifs at h
      · cases h
      · exact (List.mem_filter.1 h).1

theorem nodup_servicesFor {plan : ActionPlan} (h : db.services.Nodup) :
    (servicesForPrismaGitHubWebhook db plan).Nodup := by
  unfold servicesForPrismaGitHubWebhook
  split_ifs
  · exact List.nodup_nil
  · split
    · exact List.nodup_nil
    · split_ifs
      · exact List.nodup_nil
      · exact h.filter _

/-- The quota policy is not asked about a close. -/
theorem deliveredServices_closed (hcloses : delivery.event.action = .closed) :
    deliveredServices host db delivery.event =
      servicesForPrismaGitHubWebhook db (webhookPlan delivery.event) := by
  unfold deliveredServices
  dsimp only
  rw [if_pos hcloses]
  exact List.filter_eq_self.2 fun _ _ => rfl

/-- **Closing a pull request**: the event that closes the pull request of an open lineage leaves the
lineage closed and its deployments to be cleaned up exactly if the delivery was not handled before and
the service still matches the event. -/
theorem closed_event_closes_iff (h : ClosingEvent db delivery.event service row)
    (hrun : handlePreviewWebhook host draws db delivery = .ok (db', reply)) :
    ClosedDown db' row.id ↔ wasHandled db delivery = false ∧
      service ∈ servicesForPrismaGitHubWebhook db (webhookPlan delivery.event) := by
  have hid : row.id = (keyOf service delivery.event).lineageId := (Keyed.get?_eq_some.1 h.found).2
  rw [hid]
  rcases handlePreviewWebhook_ok hrun with ⟨rfl, hhandled⟩ | ⟨hdeliver, hnew⟩
  · refine iff_of_false (h.not_closedDown rfl) ?_
    rw [hhandled]
    exact fun hnot => nomatch hnot.1
  · rw [hnew]
    simp only [true_and]
    constructor
    · intro hclosed
      by_contra hunmatched
      refine h.not_closedDown (spares_deliver (fun other hother => ?_) hdeliver).view hclosed
      exact h.others (mem_servicesFor hother) fun heq => hunmatched (heq ▸ hother)
    · intro hmatched
      obtain ⟨after, hloop, rfl, -⟩ := deliver_ok hdeliver
      have hrecorded : Spares (keyOf service delivery.event).lineageId db (recordDelivery db delivery) :=
        spares_recordDelivery db delivery
      rw [deliveredServices_closed h.closes, servicesFor_congr hrecorded.tenants] at hloop
      have hrow : (recordDelivery db delivery).lineages.get? (keyOf service delivery.event).lineageId =
          some row := (Prod.mk.inj hrecorded.view).1.trans h.found
      have hclosed := handleServices_closedDown hrow h.closes h.later hmatched
        (nodup_servicesFor (List.Nodup.of_map _ h.keyed))
        (fun other hother hne => h.others (mem_servicesFor hother) hne) hloop
      exact hclosed.of_view rfl

theorem deliver_unmatched (host : WebhookHost) (draws : Draws) (hcloses : delivery.event.action = .closed)
    (hservices : servicesForPrismaGitHubWebhook (recordDelivery db delivery) (webhookPlan delivery.event) = [])
    (hnew : db.webhookEvents.get? delivery.deliveryId = none) :
    handlePreviewWebhook host draws db delivery =
      .ok (markHandled (recordDelivery db delivery) delivery.deliveryId, { duplicate := false }) := by
  unfold handlePreviewWebhook
  rw [hnew]
  dsimp only
  unfold deliver
  dsimp only
  rw [deliveredServices_closed hcloses, hservices]
  rfl

end Delivery

/-! ### A retargeted pull request -/

namespace Retargeted

def webhookHost : WebhookHost := ⟨Sample.sha256, fun _ _ _ => []⟩

def draws : Draws := ⟨0, fun _ => "token"⟩

/-- Deployed from `main`. -/
def service : ServiceRow :=
  { id := "svc", projectId := "prj", organizationId := "org", githubRepositoryId := "2", branch := "main"
    desired := { githubIntegrationId := "int", githubInstallationId := "1", githubRepository := "acme/shop" } }

/-- The pull request, opened into `main`. -/
def opened : PreviewWebhook :=
  { Sample.opened with pullRequestNumber := 4, headSha := String.ofList (List.replicate 40 'a') }

/-- It is closed a minute later, with the base branch it has then. -/
def closed (baseRef : String) : PreviewWebhook :=
  { opened with action := .closed, baseRef, updatedAt := ⟨"2026-09-03T00:01:00Z", 1788393660000⟩ }

def delivery (baseRef : String) : Delivery := ⟨"delivery", closed baseRef⟩

def lineage : PreviewLineageRecord :=
  nextLineage webhookHost.sha256 none opened (identityOf service) (keyOf service opened).lineageId

def row : LineageRow := { lineage }

def runtime : PreviewRuntime :=
  { lineageId := lineage.id, deploymentId := "dep_pr", generation := 1, lineageVersion := 1
    stableHost := lineage.stableHost, probeHost := "probe", «namespace» := lineage.namespace
    workloadName := "web", serviceName := "web", probeIngressName := "web", routeName := lineage.routeName }

/-- The deployment of the head. -/
def attempt : DeploymentRow :=
  { id := "dep_pr", serviceId := "svc", projectId := "prj", status := "FAILED", deploymentType := "preview"
    triggerType := "webhook", branch := "topic", commitSha := lineage.headSha, pullRequestNumber := 4, previewUrl := ""
    previewLineageId := some lineage.id, previewGeneration := some 1, previewRuntime := some runtime
    snapshotVersion := some 1, desiredSpecSnapshot := some { sourceType := "git" }, createdAt := 1 }

def database : PreviewDb :=
  { webhookEvents := .empty, services := [service], catalog := [⟨"2", "1", "acme/shop"⟩]
    integrations := [⟨"int", "org", "1"⟩], lineages := Keyed.empty.put row, deployments := Keyed.empty.put attempt
    jobs := .empty }

theorem closingEvent (baseRef : String) : ClosingEvent database (delivery baseRef).event service row where
  keyed := List.nodup_singleton _
  bound := List.mem_singleton_self _
  active := by decide
  stored := (Keyed.get?_eq_some.1 (Keyed.get?_put_self (t := Keyed.empty) (a := row))).1
  id := (nextLineage_id ..).trans
    (congrArg LineageKey.lineageId (rfl : keyOf service opened = storedKey row.lineage))
  about := rfl
  live := by
    show LineageState.isOpen ≠ .closed
    decide
  closes := rfl
  later := by
    show (1788393600000 : Int) < 1788393660000
    decide
  distinct := by
    intro other hother _
    rw [List.mem_singleton.1 hother]

end Retargeted

open Retargeted in
/-- A pull request that still goes into `main` is closed with its preview. -/
theorem closed_event_closes_main : ∃ db' reply, ClosingEvent database (delivery "main").event service row ∧
    handlePreviewWebhook webhookHost draws database (delivery "main") = .ok (db', reply) ∧ ClosedDown db' row.id ∧
    db'.deployments.rows.map (fun d => (d.id, d.status)) = [("dep_pr", "PREVIEW_CLEANUP_REQUESTED")] := by
  have hstatus : (handlePreviewWebhook webhookHost draws database (delivery "main")).map
      (fun r => r.1.deployments.rows.map fun d => (d.id, d.status)) =
        .ok [("dep_pr", "PREVIEW_CLEANUP_REQUESTED")] := by
    decide +kernel
  obtain ⟨⟨db', reply⟩, hrun, hstatus⟩ := map_ok.1 hstatus
  refine ⟨db', reply, closingEvent "main", hrun, ?_, hstatus⟩
  exact (closed_event_closes_iff (closingEvent "main") hrun).2 ⟨rfl, List.mem_singleton_self _⟩

open Retargeted in
/-- The pull request was retargeted to `develop` and closed there: no service matches, and the preview
stays open. -/
theorem retargeted_preview_stays_open : ∃ db', ClosingEvent database (delivery "develop").event service row ∧
    handlePreviewWebhook webhookHost draws database (delivery "develop") = .ok (db', { duplicate := false }) ∧
    (db'.lineages.get? row.id).map (fun row => row.lineage.state) = some .isOpen ∧
    ¬ ClosedDown db' row.id := by
  have hrun : handlePreviewWebhook webhookHost draws database (delivery "develop") = _ :=
    deliver_unmatched webhookHost draws rfl rfl rfl
  have hid : row.id = (keyOf service (delivery "develop").event).lineageId :=
    (Keyed.get?_eq_some.1 (closingEvent "develop").found).2
  have hview : lineageView (markHandled (recordDelivery database (delivery "develop")) "delivery")
      (keyOf service (delivery "develop").event).lineageId =
        lineageView database (keyOf service (delivery "develop").event).lineageId :=
    (spares_recordDelivery database (delivery "develop")).view
  refine ⟨_, closingEvent "develop", hrun, ?_, ?_⟩
  · rw [hid]
    exact congrArg _ ((Prod.mk.inj hview).1.trans (closingEvent "develop").found)
  · rw [hid]
    exact (closingEvent "develop").not_closedDown hview

end RaibitServer.Preview
