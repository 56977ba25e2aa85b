import RaibitServer.Preview.Keys
import RaibitServer.Preview.Turns

/-!
# Preview.LineageFrame — which lineages a webhook can change

A delivery writes the rows of the lineages it computes the ids of, and the deployments of those.  The
lineage of another key is safe exactly as far as its id is another one: for keys that are separated a run
of deliveries leaves it as it was, and keys that are not separated share one lineage.
-/

namespace RaibitServer.Preview

open Lib Core

/-! ### What is seen of a lineage -/

/-- The row of a lineage (its state, head, host and the rest) and its deployments. -/
def lineageView (db : PreviewDb) (l : String) : Option LineageRow × List DeploymentRow :=
  (db.lineages.get? l, attemptsOf db l)

/-- What no preview event writes. -/
structure SameTenants (db db' : PreviewDb) : Prop where
  services : db'.services = db.services
  catalog : db'.catalog = db.catalog

/-- A change that leaves the lineage `l` and the tenants alone. -/
structure Spares (l : String) (db db' : PreviewDb) : Prop where
  view : lineageView db' l = lineageView db l
  tenants : SameTenants db db'

theorem Spares.refl (l : String) (db : PreviewDb) : Spares l db db := ⟨rfl, rfl, rfl⟩

theorem Spares.trans {l : String} {a b c : PreviewDb} (h : Spares l a b) (h' : Spares l b c) :
    Spares l a c :=
  ⟨h'.view.trans h.view, h'.tenants.services.trans h.tenants.services,
    h'.tenants.catalog.trans h.tenants.catalog⟩

/-! ### Writes -/

/-- The deployments that a close cleans up are those of the closed lineage only. -/
theorem select_cleanup {t : Keyed DeploymentRow.id} {id l : String} (h : id ≠ l) :
    (t.update (fun row => (mutableIds (t.select fun row => row.previewLineageId = some id)).contains row.id)
        (fun row => { row with status := "PREVIEW_CLEANUP_REQUESTED" }) fun _ => rfl).select
      (fun row => row.previewLineageId = some l) = t.select fun row => row.previewLineageId = some l := by
  rw [Keyed.select_update]
  intro row hrow hmem
  obtain ⟨attempt, hattempt, heq⟩ := List.mem_map.1 (List.contains_iff_mem.1 hmem)
  obtain ⟨hof, -⟩ := List.mem_filter.1 hattempt
  obtain ⟨hin, hlineage⟩ := List.mem_filter.1 hof
  obtain rfl := Keyed.eq_of_key hin hrow heq
  have hother : attempt.previewLineageId ≠ some l := by
    rw [of_decide_eq_true hlineage]
    exact fun e => h (Option.some.inj e)
  exact ⟨decide_eq_false hother, decide_eq_false hother⟩

section Writes

variable {l : String} {db db' : PreviewDb}

theorem spares_putLineage {row : LineageRow} (h : row.id ≠ l) :
    Spares l db { db with lineages := db.lineages.put row } :=
  ⟨Prod.ext (Keyed.get?_put_ne h) rfl, rfl, rfl⟩

theorem spares_editLineage {id : String} {f : LineageRow → LineageRow} {hf : ∀ row, (f row).id = row.id}
    (h : id ≠ l) : Spares l db (editLineage db id f hf) := by
  refine ⟨Prod.ext ?_ rfl, rfl, rfl⟩
  show (db.lineages.update _ f hf).get? l = db.lineages.get? l
  rw [Keyed.get?_update]
  cases hrow : db.lineages.get? l with
  | none => rfl
  | some row =>
    obtain ⟨-, hid⟩ := Keyed.get?_eq_some.1 hrow
    have hne : ¬ decide (row.id = id) = true := by
      rw [decide_eq_true_eq, hid]
      exact h.symm
    rw [Option.map_some, if_neg hne]

theorem spares_jobs {jobs : Keyed JobRow.id} : Spares l db { db with jobs } := ⟨rfl, rfl, rfl⟩

theorem spares_requestCleanup {id : String} (h : id ≠ l) :
    Spares l db (requestCleanup db (mutableIds (attemptsOf db id))) :=
  ⟨Prod.ext rfl (select_cleanup h), rfl, rfl⟩

theorem spares_closeLineage {lineage : PreviewLineageRecord} {draws : Draws} (h : lineage.id ≠ l) :
    Spares l db (closeLineage db lineage draws).1 := by
  have hedit : Spares l db (editLineage db lineage.id (fun row => { row with
      routeIntent := some (previewCloseIntent lineage (draws.token lineage.id)), reconcile := none })
      fun _ => rfl) := spares_editLineage h
  exact hedit.trans ((spares_requestCleanup h).trans spares_jobs)

theorem spares_openLineage {host : WebhookHost} {lineage : PreviewLineageRecord}
    {deploymentId jobId serviceId projectId triggerType headSha headRef : String} {n : Nat}
    {snapshot : SpecSnapshot} {draws : Draws} (h : lineage.id ≠ l)
    (hrun : openLineage host db lineage deploymentId jobId serviceId projectId triggerType headSha headRef n
      snapshot draws = .ok db') : Spares l db db' := by
  unfold openLineage at hrun
  obtain ⟨runtime, -, hrun⟩ := bind_ok.1 hrun
  obtain ⟨db₁, hdeployment, hrun⟩ := bind_ok.1 hrun
  obtain ⟨db₂, hjob, hrun⟩ := bind_ok.1 hrun
  obtain ⟨deployments, hinsert, rfl⟩ := createDeployment_ok hdeployment
  obtain ⟨jobs, -, rfl⟩ := createJob_ok hjob
  obtain rfl := pure_ok.1 hrun
  have hother : some lineage.id ≠ some l := fun e => h (Option.some.inj e)
  have hcreate : Spares l db { db with deployments, jobs } :=
    ⟨Prod.ext rfl (Keyed.select_insert? hinsert (decide_eq_false hother)), rfl, rfl⟩
  exact hcreate.trans (spares_editLineage h)

end Writes

/-! ### A delivery -/

theorem nextLineage_id (sha256 : Label.Hash) (current : Option PreviewLineageRecord) (event : PreviewWebhook)
    (identity : PreviewIdentity) (id : String) : (nextLineage sha256 current event identity id).id = id := rfl

theorem transitionPreviewLineage_id {sha256 : Label.Hash} {current : Option PreviewLineageRecord}
    {event : PreviewWebhook} {identity : PreviewIdentity} {id : String}
    (h : ∀ lineage, current = some lineage → lineage.id = id) :
    (transitionPreviewLineage sha256 current event identity id).lineage.id = id := by
  cases current with
  | none => exact nextLineage_id ..
  | some lineage =>
    obtain rfl := h lineage rfl
    exact (transition_sameRoute sha256 lineage event identity).id

/-- The lineage that is moved is the one that was read. -/
theorem transitionFor_id (host : WebhookHost) (db : PreviewDb) (event : PreviewWebhook)
    (service : ServiceRow) :
    (transitionFor host db event service).lineage.id = (keyOf service event).lineageId := by
  refine transitionPreviewLineage_id fun lineage hlineage => ?_
  obtain ⟨row, hrow, rfl⟩ := Option.map_eq_some_iff.1 hlineage
  exact (Keyed.get?_eq_some.1 hrow).2

variable {delivery : Delivery} {draws : Draws} {host : WebhookHost}

theorem spares_handleService {db db' : PreviewDb} {service : ServiceRow} {action : Action} {l : String}
    (h : (keyOf service delivery.event).lineageId ≠ l)
    (hrun : handleService host draws delivery db service = .ok (db', action)) : Spares l db db' := by
  have hid : (transitionFor host db delivery.event service).lineage.id ≠ l := by
    rw [transitionFor_id]
    exact h
  have hput : ∀ {row}, Upserted db (transitionFor host db delivery.event service).lineage row →
      Spares l db { db with lineages := db.lineages.put row } := by
    intro row hrow
    refine spares_putLineage ?_
    unfold LineageRow.id
    rw [hrow.written]
    exact hid
  cases handleService_ok hrun with
  | stale => exact .refl l db
  | duplicate => exact .refl l db
  | ambiguous _ next upserted =>
    subst next
    exact (hput upserted).trans spares_jobs
  | closes _ next upserted =>
    subst next
    exact (hput upserted).trans (spares_closeLineage hid)
  | opens _ next upserted _ _ opened =>
    subst next
    exact (hput upserted).trans (spares_openLineage hid opened)

/-- The loop over the services, by what each turn spares. -/
theorem spares_handleServices {l : String} {services : List ServiceRow} {db db' : PreviewDb} {actions : List Action}
    (h : ∀ service ∈ services, (keyOf service delivery.event).lineageId ≠ l)
    (hrun : handleServices host draws delivery services db = .ok (db', actions)) : Spares l db db' := by
  induction services generalizing db actions with
  | nil =>
    cases hrun
    exact .refl l db'
  | cons service services ih =>
    obtain ⟨db₁, action, rest, hfirst, hrest, -⟩ := handleServices_cons hrun
    exact (spares_handleService (h service List.mem_cons_self) hfirst).trans
      (ih (fun s hs => h s (List.mem_cons_of_mem _ hs)) hrest)

theorem spares_recordDelivery {l : String} (db : PreviewDb) (delivery : Delivery) :
    Spares l db (recordDelivery db delivery) := by
  obtain ⟨webhookEvents, hrecord⟩ := recordDelivery_tables db delivery
  rw [hrecord]
  exact ⟨rfl, rfl, rfl⟩

/-- The services a plan matches depend on the tenants only. -/
theorem servicesFor_congr {db db' : PreviewDb} (h : SameTenants db db') (plan : ActionPlan) :
    servicesForPrismaGitHubWebhook db' plan = servicesForPrismaGitHubWebhook db plan := by
  unfold servicesForPrismaGitHubWebhook
  rw [h.services, h.catalog]

theorem spares_deliver {db db' : PreviewDb} {reply : WebhookReply} {l : String}
    (h : ∀ service ∈ servicesForPrismaGitHubWebhook db (webhookPlan delivery.event),
      (keyOf service delivery.event).lineageId ≠ l) (hrun : deliver host draws db delivery = .ok (db', reply)) :
    Spares l db db' := by
  have hrecorded : Spares l db (recordDelivery db delivery) := spares_recordDelivery db delivery
  obtain ⟨after, hservices, rfl, -⟩ := deliver_ok hrun
  have hloop : Spares l (recordDelivery db delivery) after := by
    refine spares_handleServices (fun service hservice => h service ?_) hservices
    have hmatched := (List.mem_filter.1 hservice).1
    rw [servicesFor_congr hrecorded.tenants] at hmatched
    exact hmatched
  exact hrecorded.trans (hloop.trans ⟨rfl, rfl, rfl⟩)

/-! ### Runs -/

/-- The database after a webhook; a transaction that fails leaves it as it was. -/
def afterWebhook (host : WebhookHost) (db : PreviewDb) (received : Draws × Delivery) : PreviewDb :=
  match handlePreviewWebhook host received.1 db received.2 with
  | .ok (db', _) => db'
  | .error _ => db

def afterWebhooks (host : WebhookHost) (db : PreviewDb) (received : List (Draws × Delivery)) : PreviewDb :=
  received.foldl (afterWebhook host) db

theorem spares_afterWebhooks {received : List (Draws × Delivery)} {db : PreviewDb} {l : String}
    (h : ∀ r ∈ received, ∀ service ∈ servicesForPrismaGitHubWebhook db (webhookPlan r.2.event),
      (keyOf service r.2.event).lineageId ≠ l) : Spares l db (afterWebhooks host db received) := by
  induction received generalizing db with
  | nil => exact .refl l db
  | cons r received ih =>
    have hfirst : Spares l db (afterWebhook host db r) := by
      unfold afterWebhook
      split
      · next db' reply hrun =>
        rcases handlePreviewWebhook_ok hrun with ⟨rfl, -⟩ | ⟨hdeliver, -⟩
        · exact .refl l _
        · exact spares_deliver (h r List.mem_cons_self) hdeliver
      · exact .refl l db
    refine hfirst.trans (ih fun r' hr' service hservice => ?_)
    rw [servicesFor_congr hfirst.tenants] at hservice
    exact h r' (List.mem_cons_of_mem _ hr') service hservice

end RaibitServer.Preview
