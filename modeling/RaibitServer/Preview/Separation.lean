import RaibitServer.Preview.MemoryStore

/-!
# Preview.Separation — lineages of different pull requests

A lineage is meant to belong to one pull request of one service.  Its id keeps the organization and a
part of the project only, so the lineages of two keys are kept apart exactly when the keys differ there
(`Separated`); then no event of one changes the other.
-/

namespace RaibitServer.Preview

open Lib Core

/-- **Lineages are kept apart exactly by their separated parts.**

* Two keys of the issued form have different lineage ids exactly when they are separated.
* In the database, the turn of a service whose key is separated from `k'` leaves the row and the
  deployments of the lineage of `k'` alone, and so does a run of webhooks that match only such services,
  whatever their order and outcome.
* In the memory store the same holds where no deployment of the lineage of `k'` has an id that the
  delivery computes for the service. -/
theorem separated_lineages_spared (host : WebhookHost) (memory : MemoryHost) :
    (∀ k k' : LineageKey, k.Issued → k'.Issued → (k.lineageId ≠ k'.lineageId ↔ Separated k k')) ∧
    ∀ k' : LineageKey, k'.Issued →
      (∀ db draws delivery service db' action, (keyOf service delivery.event).Issued →
        Separated (keyOf service delivery.event) k' →
        handleService host draws delivery db service = .ok (db', action) →
        lineageView db' k'.lineageId = lineageView db k'.lineageId) ∧
      (∀ db (received : List (Draws × Delivery)),
        (∀ r ∈ received, ∀ service ∈ servicesForPrismaGitHubWebhook db (webhookPlan r.2.event),
          (keyOf service r.2.event).Issued ∧ Separated (keyOf service r.2.event) k') →
        lineageView (afterWebhooks host db received) k'.lineageId = lineageView db k'.lineageId) ∧
      (∀ store draws delivery service store' action,
        (∀ project, store.projects.get? service.projectId = some project →
          (memoryKey project service delivery.event).Issued ∧
            Separated (memoryKey project service delivery.event) k') →
        Unclaimed store k'.lineageId delivery.deliveryId service.id →
        handleMemoryService memory draws delivery store service = .ok (store', action) →
        store'.seen k'.lineageId = store.seen k'.lineageId) ∧
      ∀ store (received : List (Draws × Delivery)),
        (∀ r ∈ received, ∀ service ∈ servicesForGitHubWebhook store (webhookPlan r.2.event),
          Unclaimed store k'.lineageId r.2.deliveryId service.id ∧
          ∀ project, store.projects.get? service.projectId = some project →
            (memoryKey project service r.2.event).Issued ∧
              Separated (memoryKey project service r.2.event) k') →
        (afterMemoryWebhooks memory store received).seen k'.lineageId = store.seen k'.lineageId := by
  refine ⟨fun k k' hk hk' => lineageId_ne_iff hk hk', ?_⟩
  intro k' hk'
  have hne : ∀ {k : LineageKey}, k.Issued ∧ Separated k k' → k.lineageId ≠ k'.lineageId :=
    fun h => (lineageId_ne_iff h.1 hk').2 h.2
  refine ⟨?_, ?_, ?_, ?_⟩
  · intro db draws delivery service db' action hissued hseparated hrun
    exact (spares_handleService (hne ⟨hissued, hseparated⟩) hrun).view
  · intro db received hseparated
    exact (spares_afterWebhooks fun r hr service hservice => hne (hseparated r hr service hservice)).view
  · intro store draws delivery service store' action hkey hfree hrun
    exact seen_handleMemoryService (fun project hproject => hne (hkey project hproject)) hfree hrun
  · intro store received hseparated
    refine seen_afterMemoryWebhooks fun r hr service hservice => ?_
    obtain ⟨hfree, hkey⟩ := hseparated r hr service hservice
    exact ⟨hfree, fun project hproject => hne (hkey project hproject)⟩

/-! ### Events of two pull requests in one lineage -/

variable {db : PreviewDb} {delivery : Delivery} {draws : Draws} {host : WebhookHost} {service : ServiceRow}

/-- A new delivery for one service. -/
theorem afterWebhook_single {db' : PreviewDb} {action : Action}
    (hnew : db.webhookEvents.get? delivery.deliveryId = none)
    (hservices : deliveredServices host (recordDelivery db delivery) delivery.event = [service])
    (hturn : handleService host draws delivery (recordDelivery db delivery) service = .ok (db', action)) :
    afterWebhook host db (draws, delivery) = markHandled db' delivery.deliveryId := by
  unfold afterWebhook handlePreviewWebhook
  dsimp only
  rw [hnew]
  dsimp only
  unfold deliver
  dsimp only
  rw [hservices]
  unfold handleServices
  rw [hturn]
  rfl

namespace PullRequests

/-- An id of the issued form. -/
def cuid (n : Nat) : String := String.ofList ('c' :: (List.replicate 23 'a' ++ [Char.ofNat (48 + n)]))

def shopService : ServiceRow :=
  { id := cuid 2, projectId := cuid 1, organizationId := cuid 0, githubRepositoryId := "2"
    desired := { githubIntegrationId := "int_1", githubInstallationId := "1", githubRepository := "acme/shop" } }

/-- One service bound to the repository, and no lineage yet. -/
def previews : PreviewDb :=
  { webhookEvents := .empty, services := [shopService], catalog := [⟨"2", "1", "acme/shop"⟩]
    integrations := [⟨"int_1", cuid 0, "1"⟩], lineages := .empty, deployments := .empty, jobs := .empty }

def previewHost : WebhookHost := ⟨Sample.sha256, fun _ _ _ => []⟩

def memoryHost : MemoryHost := ⟨Sample.sha256, fun _ _ _ => []⟩

/-- The pull request `n`, opened at a fixed second. -/
def openedRequest (n : Nat) : PreviewWebhook :=
  { Sample.opened with pullRequestNumber := n, headSha := "a" ++ toString n }

def deliveredRequest (n : Nat) : Draws × Delivery :=
  (⟨0, fun _ => "token"⟩, ⟨"00000000-0000-1000-8000-00000000000" ++ toString n, openedRequest n⟩)

/-- The pull request `n`, closed at that second. -/
def closedRequest (n : Nat) : Draws × Delivery :=
  ((deliveredRequest n).1, { (deliveredRequest n).2 with event := { openedRequest n with action := .closed } })

def requestKey (n : Nat) : LineageKey := keyOf shopService (openedRequest n)

/-- The same pull request in another organization. -/
def otherKey : LineageKey := { requestKey 7 with organizationId := cuid 3 }

/-- The state of a lineage and the pull request it is about. -/
def stateOf (db : PreviewDb) (k : LineageKey) : Option (LineageState × Nat) :=
  (db.lineages.get? k.lineageId).map fun row => (row.lineage.state, row.lineage.pullRequestNumber)

theorem requestKey_issued (n : Nat) (h : 0 < n) : (requestKey n).Issued := by
  have hcuid : ∀ i < 3, isCuid (cuid i) = true := by decide
  have hdecimal : isPositiveDecimal "1" = true ∧ isPositiveDecimal "2" = true := by decide
  exact ⟨hcuid 0 (by decide), hcuid 1 (by decide), hcuid 2 (by decide), hdecimal.1, hdecimal.2, h⟩

theorem otherKey_issued : otherKey.Issued :=
  ⟨by decide, by decide, by decide, by decide, by decide, by decide⟩

end PullRequests

open PullRequests in
/-- Opening a pull request leaves the lineage of the same request of another organization alone. -/
theorem separated_lineages_spared_other :
    Separated (requestKey 7) otherKey ∧ (requestKey 7).lineageId ≠ otherKey.lineageId ∧
    lineageView (afterWebhooks previewHost previews [deliveredRequest 7]) otherKey.lineageId =
      lineageView previews otherKey.lineageId := by
  have hseparated : Separated (requestKey 7) otherKey := .inl (by decide)
  have hissued : (requestKey 7).Issued := requestKey_issued 7 (by decide)
  obtain ⟨hids, hframes⟩ := separated_lineages_spared previewHost memoryHost
  refine ⟨hseparated, (hids _ _ hissued otherKey_issued).2 hseparated, ?_⟩
  refine (hframes otherKey otherKey_issued).2.1 previews [deliveredRequest 7] ?_
  intro r hr service hservice
  rw [List.mem_singleton.1 hr] at hservice ⊢
  have hshop : servicesForPrismaGitHubWebhook previews (webhookPlan (openedRequest 7)) = [shopService] := by
    rfl
  have hmem : service ∈ [shopService] := hshop ▸ hservice
  rw [List.mem_singleton.1 hmem]
  exact ⟨hissued, hseparated⟩

namespace PullRequests

/-- The lineage id of every pull request of the service. -/
def sharedId : String := "preview-lineage-caaaaaaaaaaaaaaaaaaaaaaa0-caaaaaaaaaaaaaaaaaaaa"

theorem requestKey_lineageId (n : Nat) (h : 0 < n) : (requestKey n).lineageId = sharedId := by
  have hparts : "preview-lineage".toList ++ '-' :: ((cuid 0).toList ++ '-' :: (cuid 1).toList.take projectCut) =
      sharedId.toList := by decide
  rw [← String.toList_inj, ← hparts, lineageId_toList (requestKey_issued n h)]
  rfl

/-- What the close of request 7 writes. -/
def closedPreviews : PreviewDb :=
  let lineage := nextLineage Sample.sha256 none (closedRequest 7).2.event (identityOf shopService) sharedId
  { recordDelivery previews (closedRequest 7).2 with
    lineages := Keyed.empty.put { lineage, routeIntent := some (previewCloseIntent lineage "token") } }

theorem afterWebhook_closed : afterWebhook previewHost previews (closedRequest 7) =
    markHandled closedPreviews (closedRequest 7).2.deliveryId := by
  have hturn : handleService previewHost (closedRequest 7).1 (closedRequest 7).2
      (recordDelivery previews (closedRequest 7).2) shopService =
        .ok (closedPreviews, .cleanupRequested shopService.id sharedId []) := by
    unfold handleService transitionFor
    dsimp only
    rw [show (keyOf shopService (closedRequest 7).2.event).lineageId = sharedId from requestKey_lineageId 7 (by decide)]
    rfl
  exact afterWebhook_single rfl rfl hturn

/-- The turn of request 8 behind it. -/
theorem handleService_ambiguous : (handleService previewHost (deliveredRequest 8).1 (deliveredRequest 8).2
    (recordDelivery (markHandled closedPreviews (closedRequest 7).2.deliveryId) (deliveredRequest 8).2) shopService).map
      (fun turn => (turn.1.lineages.get? sharedId).map fun row => (row.lineage.state, row.lineage.pullRequestNumber)) =
    .ok (some (.ambiguous, 7)) := by
  unfold handleService transitionFor
  dsimp only
  rw [show (keyOf shopService (deliveredRequest 8).2.event).lineageId = sharedId from requestKey_lineageId 8 (by decide)]
  decide +kernel

end PullRequests

open PullRequests in
/-- **Two pull requests in one lineage**: the keys of the requests 7 and 8 of a service differ and have one
lineage id; opening request 8 turns the closed lineage of request 7 ambiguous. -/
theorem pull_requests_share_lineage :
    (requestKey 7).Issued ∧ (requestKey 8).Issued ∧ requestKey 7 ≠ requestKey 8 ∧
    (requestKey 7).lineageId = (requestKey 8).lineageId ∧
    stateOf (afterWebhooks previewHost previews [closedRequest 7]) (requestKey 7) = some (.closed, 7) ∧
    stateOf (afterWebhooks previewHost previews [closedRequest 7, deliveredRequest 8]) (requestKey 7) =
      some (.ambiguous, 7) := by
  have hid := requestKey_lineageId 7 (by decide)
  obtain ⟨turn, hturn, hstate⟩ := map_ok.1 handleService_ambiguous
  have hrow : closedPreviews.lineages.get? sharedId = some _ := Keyed.get?_put_self (t := Keyed.empty)
  have hsecond := afterWebhook_single rfl rfl hturn
  unfold stateOf afterWebhooks
  rw [List.foldl_cons, List.foldl_cons, List.foldl_cons, afterWebhook_closed, hid]
  refine ⟨requestKey_issued 7 (by decide), requestKey_issued 8 (by decide), by decide,
    (requestKey_lineageId 8 (by decide)).symm, congrArg _ hrow, ?_⟩
  rw [List.foldl_nil, hsecond]
  exact hstate

end RaibitServer.Preview
