import RaibitServer.Preview.Webhook

/-!
# Preview.Turns — what a preview event can do

One lemma for each function of `Preview.Webhook` says what it wrote when it succeeded; invariants are
proved from these and never unfold the functions again.
-/

namespace RaibitServer.Preview

open Lib Core

/-! ### Writes -/

variable {db db' : PreviewDb} {lineage : PreviewLineageRecord} {draws : Draws} {host : WebhookHost}
  {delivery : Delivery}

theorem updateLineage_ok {row : LineageRow} (h : updateLineage db row lineage = .ok db') :
    lineageGuard db (some row.lineage) lineage = .ok () ∧
      db' = { db with lineages := db.lineages.put { row with lineage } } := by
  unfold updateLineage at h
  obtain ⟨⟨⟩, hguard, h⟩ := bind_ok.1 h
  exact ⟨hguard, (pure_ok.1 h).symm⟩

/-- The row that an upsert leaves: with the new lineage and, if there was one, the other columns of the
old row, which the guard has let through. -/
structure Upserted (db : PreviewDb) (lineage : PreviewLineageRecord) (row : LineageRow) : Prop where
  written : row.lineage = lineage
  old : ∀ old, db.lineages.get? lineage.id = some old →
    lineageGuard db (some old.lineage) lineage = .ok () ∧ row = { old with lineage }
  new : db.lineages.get? lineage.id = none → row = { lineage }

theorem upsertLineage_ok (h : upsertLineage db lineage = .ok db') :
    ∃ row, Upserted db lineage row ∧ db' = { db with lineages := db.lineages.put row } := by
  unfold upsertLineage at h
  cases hrow : db.lineages.get? lineage.id with
  | some old =>
    rw [hrow] at h
    obtain ⟨hguard, rfl⟩ := updateLineage_ok h
    refine ⟨_, ⟨rfl, ?_, ?_⟩, rfl⟩
    · intro old' hold
      obtain rfl : old = old' := Option.some.inj (hrow.symm.trans hold)
      exact ⟨hguard, rfl⟩
    · intro hnone
      cases hrow.symm.trans hnone
  | none =>
    rw [hrow] at h
    unfold insertLineage at h
    obtain ⟨_, -, h⟩ := bind_ok.1 h
    obtain ⟨_, -, h⟩ := bind_ok.1 h
    obtain ⟨_, -, h⟩ := bind_ok.1 h
    refine ⟨_, ⟨rfl, ?_, ?_⟩, (pure_ok.1 h).symm⟩
    · intro old' hold
      cases hrow.symm.trans hold
    · exact fun _ => rfl

theorem editLineage_get? {id : String} {f : LineageRow → LineageRow} {row : LineageRow}
    (hf : ∀ row, (f row).id = row.id) (h : db.lineages.get? id = some row) :
    (editLineage db id f hf).lineages.get? id = some (f row) := by
  unfold editLineage
  dsimp only
  rw [Keyed.get?_update, h, Option.map_some, if_pos (decide_eq_true (Keyed.get?_eq_some.1 h).2)]

/-- What the close of a lineage writes into its row. -/
def setCloseIntent (lineage : PreviewLineageRecord) (draws : Draws) (row : LineageRow) : LineageRow :=
  { row with routeIntent := some (previewCloseIntent lineage (draws.token lineage.id)), reconcile := none }

theorem createDeployment_ok {row : DeploymentRow} (h : createDeployment db row = .ok db') :
    ∃ deployments, db.deployments.insert? row = some deployments ∧ db' = { db with deployments } := by
  unfold createDeployment at h
  obtain ⟨deployments, hinsert, h⟩ := bind_ok.1 h
  obtain ⟨_, -, h⟩ := bind_ok.1 h
  obtain ⟨_, -, h⟩ := bind_ok.1 h
  exact ⟨deployments, orThrow_ok.1 hinsert, (pure_ok.1 h).symm⟩

theorem createJob_ok {row : JobRow} (h : createJob db row = .ok db') :
    ∃ jobs, db.jobs.insert? row = some jobs ∧ db' = { db with jobs } := by
  unfold createJob at h
  obtain ⟨jobs, hinsert, h⟩ := bind_ok.1 h
  exact ⟨jobs, orThrow_ok.1 hinsert, (pure_ok.1 h).symm⟩

/-! ### One service of a delivery -/

/-- The turns of a service, by the decision. -/
inductive Turn (host : WebhookHost) (draws : Draws) (delivery : Delivery) (db : PreviewDb)
    (service : ServiceRow) : PreviewDb → Action → Prop
  | stale (decision : (transitionFor host db delivery.event service).decision = .stale) :
      Turn host draws delivery db service db (.stale service.id (keyOf service delivery.event).lineageId)
  | duplicate (decision : (transitionFor host db delivery.event service).decision = .duplicate) :
      Turn host draws delivery db service db (.duplicate service.id (keyOf service delivery.event).lineageId)
  | ambiguous {row : LineageRow} {lineage : PreviewLineageRecord}
      (decision : (transitionFor host db delivery.event service).decision = .ambiguous)
      (next : (transitionFor host db delivery.event service).lineage = lineage)
      (upserted : Upserted db lineage row) :
      Turn host draws delivery db service
        (ensureJob { db with lineages := db.lineages.put row } (resolverJob lineage draws.now))
        (.resolutionEnqueued service.id (keyOf service delivery.event).lineageId (resolverJobId lineage))
  | closes {row : LineageRow} {lineage : PreviewLineageRecord}
      (decision : (transitionFor host db delivery.event service).decision = .closes)
      (next : (transitionFor host db delivery.event service).lineage = lineage)
      (upserted : Upserted db lineage row) :
      Turn host draws delivery db service
        (closeLineage { db with lineages := db.lineages.put row } lineage draws).1
        (.cleanupRequested service.id (keyOf service delivery.event).lineageId
          (closeLineage { db with lineages := db.lineages.put row } lineage draws).2)
  | opens {row : LineageRow} {lineage : PreviewLineageRecord} {deploymentId jobId : String} {db' : PreviewDb}
      (decision : (transitionFor host db delivery.event service).decision = .opens)
      (next : (transitionFor host db delivery.event service).lineage = lineage)
      (upserted : Upserted db lineage row)
      (deployment : webhookDeploymentId delivery.deliveryId service.id lineage.generation = deploymentId)
      (job : webhookJobId delivery.deliveryId service.id = jobId)
      (opened : openLineage host { db with lineages := db.lineages.put row } lineage deploymentId jobId
        service.id service.projectId "github_pull_request" delivery.event.headSha delivery.event.headRef
        delivery.event.pullRequestNumber service.snapshot draws = .ok db') :
      Turn host draws delivery db service db' (.deploymentEnqueued service.id
        (keyOf service delivery.event).lineageId deploymentId jobId lineage.generation)

theorem handleService_ok {service : ServiceRow} {action : Action}
    (h : handleService host draws delivery db service = .ok (db', action)) :
    Turn host draws delivery db service db' action := by
  unfold handleService at h
  dsimp only at h
  split at h
  · next hdecision =>
    cases h
    exact .stale hdecision
  · next hdecision =>
    cases h
    exact .duplicate hdecision
  · next hdecision =>
    obtain ⟨db₁, hupsert, h⟩ := bind_ok.1 h
    obtain ⟨row, hrow, rfl⟩ := upsertLineage_ok hupsert
    obtain ⟨rfl, rfl⟩ := Prod.mk.inj (pure_ok.1 h)
    exact .ambiguous hdecision rfl hrow
  · next hdecision =>
    obtain ⟨db₁, hupsert, h⟩ := bind_ok.1 h
    obtain ⟨row, hrow, rfl⟩ := upsertLineage_ok hupsert
    obtain ⟨rfl, rfl⟩ := Prod.mk.inj (pure_ok.1 h)
    exact .closes hdecision rfl hrow
  · next hdecision =>
    obtain ⟨db₁, hupsert, h⟩ := bind_ok.1 h
    obtain ⟨row, hrow, rfl⟩ := upsertLineage_ok hupsert
    obtain ⟨db₂, hopen, h⟩ := bind_ok.1 h
    obtain ⟨rfl, rfl⟩ := Prod.mk.inj (pure_ok.1 h)
    exact .opens hdecision rfl hrow rfl rfl hopen

/-! ### A delivery -/

theorem handleServices_cons {service : ServiceRow} {services : List ServiceRow} {actions : List Action}
    (h : handleServices host draws delivery (service :: services) db = .ok (db', actions)) :
    ∃ db₁ action rest, handleService host draws delivery db service = .ok (db₁, action) ∧
      handleServices host draws delivery services db₁ = .ok (db', rest) ∧ actions = action :: rest := by
  obtain ⟨⟨db₁, action⟩, hfirst, h⟩ := bind_ok.1 h
  obtain ⟨⟨db₂, rest⟩, hrest, h⟩ := bind_ok.1 h
  obtain ⟨rfl, rfl⟩ := Prod.mk.inj (pure_ok.1 h)
  exact ⟨db₁, action, rest, hfirst, hrest, rfl⟩

theorem deliver_ok {reply : WebhookReply} (h : deliver host draws db delivery = .ok (db', reply)) :
    ∃ after, handleServices host draws delivery
        (deliveredServices host (recordDelivery db delivery) delivery.event) (recordDelivery db delivery) =
        .ok (after, reply.actions) ∧
      db' = markHandled after delivery.deliveryId ∧ reply.duplicate = false := by
  unfold deliver at h
  obtain ⟨⟨after, actions⟩, hservices, h⟩ := bind_ok.1 h
  obtain ⟨rfl, rfl⟩ := Prod.mk.inj (pure_ok.1 h)
  exact ⟨after, hservices, rfl, rfl⟩

/-- The delivery was handled before. -/
def wasHandled (db : PreviewDb) (delivery : Delivery) : Bool :=
  (db.webhookEvents.get? delivery.deliveryId).any WebhookEventRow.handled

/-- A webhook that succeeds repeats a handled delivery, and changes nothing, or delivers one that was not
handled. -/
theorem handlePreviewWebhook_ok {reply : WebhookReply}
    (h : handlePreviewWebhook host draws db delivery = .ok (db', reply)) :
    (db' = db ∧ wasHandled db delivery = true) ∨
      (deliver host draws db delivery = .ok (db', reply) ∧ wasHandled db delivery = false) := by
  unfold handlePreviewWebhook at h
  unfold wasHandled
  cases hrow : db.webhookEvents.get? delivery.deliveryId with
  | none =>
    rw [hrow] at h
    exact .inr ⟨h, rfl⟩
  | some existing =>
    rw [hrow] at h
    dsimp only at h
    split_ifs at h with hpayload hhandled
    · cases h
      exact .inl ⟨rfl, hhandled⟩
    · exact .inr ⟨h, Bool.eq_false_iff.2 hhandled⟩

theorem recordDelivery_tables (db : PreviewDb) (delivery : Delivery) :
    ∃ webhookEvents, recordDelivery db delivery = { db with webhookEvents } := by
  unfold recordDelivery
  split
  · exact ⟨_, rfl⟩
  · exact ⟨_, rfl⟩

end RaibitServer.Preview
