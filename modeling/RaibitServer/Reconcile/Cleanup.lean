import RaibitServer.Core.Deployments
import RaibitServer.Reconcile.Store

/-!
# Reconcile.Cleanup — cleaning up the objects of a closed preview

`cleanupOwnedPreview` of the reconciler, on a deployment that the control plane left
PREVIEW_CLEANUP_REQUESTED when it closed the lineage and that the worker has claimed.  The worker looks for
the objects of the recorded inventory only, and a preview without one is refused:
`cleanup_finishes_iff` says when a cleanup in a cluster that gives the objects up comes to its end.
-/

namespace RaibitServer.Reconcile

open Lib Text
open Orchestrator (Document PreviewOwnedObject PreviewRuntime parsePreviewRuntime parsePreviewInventory
  observePreviewObject ClaimOptions)

/-! ### How the control plane closes a preview -/

def DeploymentRow.setStatus (status : String) (d : DeploymentRow) : DeploymentRow := { d with status }

def DeploymentRow.cleanupRequested (d : DeploymentRow) : DeploymentRow := d.setStatus "PREVIEW_CLEANUP_REQUESTED"

theorem cleanupRequested_id (d : DeploymentRow) : d.cleanupRequested.id = d.id := rfl

/-- An attempt that the close branch of `handlePreviewWebhook` writes. -/
def DeploymentRow.closes (lineageId : String) (d : DeploymentRow) : Bool :=
  d.previewLineageId = some lineageId && upper d.status ≠ "CLEANED_UP"

def Database.requestCleanup (db : Database) (cond : DeploymentRow → Bool) : Database :=
  { db with
    deployments := db.deployments.update cond DeploymentRow.cleanupRequested cleanupRequested_id }

/-- The `updateMany` of the close branch. -/
def Database.closePreview (db : Database) (lineageId : String) : Database :=
  db.requestCleanup (DeploymentRow.closes lineageId)

theorem get?_closePreview {db : Database} {lineageId : String} {d : DeploymentRow}
    (hd : db.deployments.get? d.id = some d) (hcloses : d.closes lineageId = true) :
    (db.closePreview lineageId).deployments.get? d.id = some d.cleanupRequested := by
  show (db.deployments.update _ _ cleanupRequested_id).get? d.id = _
  rw [Keyed.get?_update, hd, Option.map_some, if_pos hcloses]

/-- The service has an active deployment: `ACTIVE_DEPLOYMENT`. -/
def DeploymentRow.active (d : DeploymentRow) : Bool := !Core.terminalDeploymentStatuses.contains d.status

/-! ### `cleanupOwnedPreview` -/

/-- What the calls about an object return; a blank output is `none`. -/
structure Kubectl where
  get : PreviewOwnedObject → Except String (Option Document)
  delete : PreviewOwnedObject → Except String Unit
  /-- The `get` after a delete that did or did not succeed. -/
  after : PreviewOwnedObject → Bool → Except String (Option Document)
  /-- The clock before and after the delete. -/
  clock : PreviewOwnedObject → Micros × Micros

inductive CleanupError
  | ErrPreviewContract
  | ErrPreviewObject
  | kubectl (message : String)
  | store (error : StoreError)
  deriving DecidableEq

section Cleanup

variable (k : Kubectl) (runtime : PreviewRuntime) (d : DeploymentRow) (lease : DeploymentLease)

def observeOwned (raw : Document) (object : PreviewOwnedObject) : Except String PreviewOwnedObject :=
  observePreviewObject raw runtime d.projectId d.serviceId object.kind [object.name]

/-- The object must be gone after its delete, or another one in its place. -/
def confirmGone (object : PreviewOwnedObject) (deleted : Bool) : Except CleanupError Unit := do
  let output ← (k.after object deleted).mapError .kubectl
  match output with
  | none => return ()
  | some raw => match observeOwned runtime d raw object with
    | .ok remaining => throwIf (remaining.uid = object.uid) .ErrPreviewObject
    | .error _ => .error .ErrPreviewObject

/-- The file with the delete options is taken to be written.  The error of the delete is kept for the message,
and does not end the cleanup. -/
def deleteOwned (db : Database) (object : PreviewOwnedObject) : Except CleanupError Database := do
  let db ← (renewDeploymentLease db lease (k.clock object).1).mapError .store
  let deleted := (k.delete object).isOk
  let db ← (renewDeploymentLease db lease (k.clock object).2).mapError .store
  confirmGone k runtime d object deleted
  return db

def cleanupObject (db : Database) (object : PreviewOwnedObject) : Except CleanupError Database := do
  throwIf (object.namespace ≠ runtime.namespace) .ErrPreviewContract
  let output ← (k.get object).mapError .kubectl
  match output with
  | none => return db
  | some raw => do
    let actual ← (observeOwned runtime d raw object).mapError fun _ => .ErrPreviewObject
    if actual.uid ≠ object.uid then return db else deleteOwned k runtime d lease db object

end Cleanup

def DeploymentRow.runtime (d : DeploymentRow) : Except String PreviewRuntime :=
  parsePreviewRuntime d.previewRuntime (d.previewLineageId.getD "") d.id (d.previewGeneration.getD 0)

def cleanedUp : DeploymentUpdates := ⟨some "CLEANED_UP", none, true⟩

def cleanupOwnedPreview (k : Kubectl) (dryRun : Bool) (db : Database) (d : DeploymentRow) (lease : DeploymentLease) :
    Except CleanupError Database := do
  throwIf (d.previewLineageId.getD "" = "" ∨ dryRun = true) .ErrPreviewContract
  let runtime ← d.runtime.mapError fun _ => .ErrPreviewContract
  let objects ← (parsePreviewInventory d.previewOwnedObjects).mapError fun _ => .ErrPreviewContract
  throwIf (objects = []) .ErrPreviewContract
  let db ← objects.foldlM (cleanupObject k runtime d lease) db
  (transitionDeployment db lease cleanedUp).mapError .store

/-! ### The lease during the cleanup -/

/-- The row of the lease is held by it, and is `d` but for the time of the lock. -/
def HeldRow (db : Database) (lease : DeploymentLease) (d : DeploymentRow) : Prop :=
  ∃ lockedAt, db.deployments.get? lease.deploymentID = some { d with reconcileLockedAt := lockedAt }

section Lease

variable {k : Kubectl} {runtime : PreviewRuntime} {d : DeploymentRow} {lease : DeploymentLease}
  {db db' : Database}

theorem renew_held (hlease : d.leasedTo lease = true) (h : HeldRow db lease d) (renewedAt : Micros) :
    ∃ db', renewDeploymentLease db lease renewedAt = .ok db' ∧ HeldRow db' lease d := by
  obtain ⟨lockedAt, hrow⟩ := h
  have hany : (db.deployments.get? lease.deploymentID).any (DeploymentRow.leasedTo lease) = true := by
    rw [hrow]
    exact hlease
  have hrenewed := get?_updateDeployment (fun d => { d with toLeaseColumns := d.renewed (timestamp3 renewedAt) })
    (fun _ => rfl) hrow
  exact ⟨_, bind_ok.2 ⟨(), throwIf_ok.2 (not_not.2 hany), rfl⟩, some (timestamp3 renewedAt), hrenewed⟩

theorem transition_held (hlease : d.leasedTo lease = true) (h : HeldRow db lease d) :
    ∃ db' row, transitionDeployment db lease cleanedUp = .ok db' ∧
      db'.deployments.get? lease.deploymentID = some row ∧ row.status = "CLEANED_UP" := by
  obtain ⟨lockedAt, hrow⟩ := h
  have hany : (db.deployments.get? lease.deploymentID).any
      (fun d => d.leasedTo lease && db.admits cleanedUp d) = true := by
    rw [hrow]
    exact (Bool.and_eq_true _ _).mpr ⟨hlease, rfl⟩
  exact ⟨_, _, bind_ok.2 ⟨(), throwIf_ok.2 (by decide), bind_ok.2 ⟨(), throwIf_ok.2 (not_not.2 hany), rfl⟩⟩,
    get?_updateDeployment _ _ hrow, rfl⟩

/-- The cluster gives an object up: it is absent or recognised as the preview's, its delete succeeds, and the
`get` after the delete reports absence. -/
structure GivenUp (k : Kubectl) (runtime : PreviewRuntime) (d : DeploymentRow) (object : PreviewOwnedObject) :
    Prop where
  seen : k.get object = .ok none ∨
    ∃ raw actual, k.get object = .ok (some raw) ∧ observeOwned runtime d raw object = .ok actual
  deleted : k.delete object = .ok ()
  gone : k.after object true = .ok none

theorem cleanupObject_held {object : PreviewOwnedObject} (hgiven : GivenUp k runtime d object)
    (hnamespace : object.namespace = runtime.namespace) (hlease : d.leasedTo lease = true)
    (h : HeldRow db lease d) :
    ∃ db', cleanupObject k runtime d lease db object = .ok db' ∧ HeldRow db' lease d := by
  unfold cleanupObject
  rw [throwIf_ok (u := ()) |>.2 (not_not.2 hnamespace)]
  show ∃ db', ((k.get object).mapError _ >>= _) = .ok db' ∧ _
  rcases hgiven.seen with hget | ⟨raw, actual, hget, hactual⟩
  · rw [hget]
    exact ⟨db, rfl, h⟩
  · rw [hget]
    show ∃ db', ((observeOwned runtime d raw object).mapError _ >>= _) = .ok db' ∧ _
    rw [hactual]
    show ∃ db', (if actual.uid ≠ object.uid then pure db else deleteOwned k runtime d lease db object) = .ok db' ∧ _
    by_cases huid : actual.uid ≠ object.uid
    · rw [if_pos huid]
      exact ⟨db, rfl, h⟩
    · rw [if_neg huid]
      obtain ⟨db₁, hrenew, h₁⟩ := renew_held hlease h (k.clock object).1
      obtain ⟨db₂, hrenew', h₂⟩ := renew_held hlease h₁ (k.clock object).2
      refine ⟨db₂, ?_, h₂⟩
      unfold deleteOwned confirmGone
      rw [hrenew, hgiven.deleted]
      show ((renewDeploymentLease db₁ lease _).mapError _ >>= _) = _
      rw [hrenew']
      show (((k.after object true).mapError _ >>= _) >>= _) = _
      rw [hgiven.gone]
      rfl

theorem cleanupObjects_held {objects : List PreviewOwnedObject} (hlease : d.leasedTo lease = true)
    (hgiven : ∀ object ∈ objects, GivenUp k runtime d object)
    (hnamespace : ∀ object ∈ objects, object.namespace = runtime.namespace) (h : HeldRow db lease d) :
    ∃ db', objects.foldlM (cleanupObject k runtime d lease) db = .ok db' ∧ HeldRow db' lease d := by
  induction objects generalizing db with
  | nil => exact ⟨db, rfl, h⟩
  | cons object objects ih =>
    obtain ⟨db₁, hobject, h₁⟩ := cleanupObject_held (hgiven object List.mem_cons_self)
      (hnamespace object List.mem_cons_self) hlease h
    obtain ⟨db₂, hrest, h₂⟩ := ih (fun o ho => hgiven o (List.mem_cons_of_mem _ ho))
      (fun o ho => hnamespace o (List.mem_cons_of_mem _ ho)) h₁
    exact ⟨db₂, by rw [List.foldlM_cons]; exact bind_ok.2 ⟨db₁, hobject, hrest⟩, h₂⟩

end Lease

/-! ### When a cleanup finishes -/

/-- The rollout has recorded a runtime and a list of objects in its namespace. -/
def DeploymentRow.Recorded (d : DeploymentRow) : Prop :=
  ∃ runtime objects, d.runtime = .ok runtime ∧ parsePreviewInventory d.previewOwnedObjects = .ok objects ∧
    objects ≠ [] ∧ ∀ object ∈ objects, object.namespace = runtime.namespace

theorem lineage_ne_of_runtime {d : DeploymentRow} {runtime : PreviewRuntime} (h : d.runtime = .ok runtime) :
    d.previewLineageId.getD "" ≠ "" := by
  have hvalid := Orchestrator.parsePreviewRuntime_valid h
  intro hempty
  have hpattern := hvalid.lineageIDPattern
  rw [hvalid.lineageID, hempty] at hpattern
  exact absurd hpattern (by decide)

theorem recorded_of_cleanup {k : Kubectl} {dryRun : Bool} {db db' : Database} {d : DeploymentRow}
    {lease : DeploymentLease} (h : cleanupOwnedPreview k dryRun db d lease = .ok db') :
    dryRun = false ∧ d.Recorded := by
  obtain ⟨_, hguard, h⟩ := bind_ok.1 h
  obtain ⟨runtime, hruntime, h⟩ := bind_ok.1 h
  obtain ⟨objects, hobjects, h⟩ := bind_ok.1 h
  obtain ⟨_, hsome, h⟩ := bind_ok.1 h
  obtain ⟨db₁, hloop, -⟩ := bind_ok.1 h
  refine ⟨Bool.eq_false_iff.2 fun hdry => throwIf_ok.1 hguard (.inr hdry), runtime, objects, mapError_ok.1 hruntime,
    mapError_ok.1 hobjects, throwIf_ok.1 hsome, fun object hobject => ?_⟩
  obtain ⟨_, _, hone⟩ := foldlM_mem hloop hobject
  obtain ⟨_, hnamespace, -⟩ := bind_ok.1 hone
  exact not_not.1 (throwIf_ok.1 hnamespace)

theorem cleanup_of_recorded {k : Kubectl} {db : Database} {d : DeploymentRow} {lease : DeploymentLease}
    (hrecorded : d.Recorded) (hlease : d.leasedTo lease = true)
    (hrow : db.deployments.get? lease.deploymentID = some d)
    (hgiven : ∀ runtime objects, d.runtime = .ok runtime → parsePreviewInventory d.previewOwnedObjects = .ok objects →
      ∀ object ∈ objects, GivenUp k runtime d object) :
    ∃ db' row, cleanupOwnedPreview k false db d lease = .ok db' ∧
      db'.deployments.get? lease.deploymentID = some row ∧ row.status = "CLEANED_UP" := by
  obtain ⟨runtime, objects, hruntime, hobjects, hsome, hnamespace⟩ := hrecorded
  obtain ⟨db₁, hloop, hheld⟩ := cleanupObjects_held hlease (hgiven runtime objects hruntime hobjects) hnamespace
    ⟨d.reconcileLockedAt, hrow⟩
  obtain ⟨db₂, row, htransition, hget, hstatus⟩ := transition_held hlease hheld
  refine ⟨db₂, row, bind_ok.2 ⟨(), throwIf_ok.2 ?_, bind_ok.2 ⟨runtime, mapError_ok.2 hruntime, bind_ok.2 ⟨objects,
    mapError_ok.2 hobjects, bind_ok.2 ⟨(), throwIf_ok.2 hsome, bind_ok.2 ⟨db₁, hloop, mapError_ok.2 htransition⟩⟩⟩⟩⟩,
    hget, hstatus⟩
  rintro (hempty | hdry)
  · exact lineage_ne_of_runtime hruntime hempty
  · cases hdry

/-- **Cleanups.**  A deployment was closed with its lineage and is claimed for its cleanup, and the cluster gives
up every object that it owns.  The cleanup brings the deployment to CLEANED_UP, which is not active any more,
exactly if a runtime and an inventory are recorded for it. -/
theorem cleanup_finishes_iff {k : Kubectl} (dryRun : Bool) {db₀ db db' : Database} {o : ClaimOptions Micros}
    {lease : DeploymentLease} {before : DeploymentRow} {lineageId : String}
    (hbefore : db₀.deployments.get? before.id = some before) (hcloses : before.closes lineageId = true)
    (hclosed : db.deployments.get? before.id = (db₀.closePreview lineageId).deployments.get? before.id)
    (hclaim : claimNextDeployment db o = .ok (db', some lease)) (hid : lease.deploymentID = before.id)
    (hgiven : ∀ runtime objects, before.runtime = .ok runtime →
      parsePreviewInventory before.previewOwnedObjects = .ok objects →
      ∀ object ∈ objects, GivenUp k runtime before object) :
    (∃ claimed db'' after, db'.deployments.get? before.id = some claimed ∧
      cleanupOwnedPreview k dryRun db' claimed lease = .ok db'' ∧ db''.deployments.get? before.id = some after ∧
      after.status = "CLEANED_UP" ∧ after.active = false) ↔ dryRun = false ∧ before.Recorded := by
  obtain ⟨d, action, hget, haction, rfl, rfl, -, -⟩ := claimNextDeployment_row hclaim
  have hid : d.id = before.id := hid
  have hrow := hclosed.trans (get?_closePreview hbefore hcloses)
  have hd : before.cleanupRequested = d := by
    rw [hid, hrow] at hget
    exact Option.some.inj hget
  obtain rfl := hd
  have hclaimed : (db.updateDeployment before.id (DeploymentRow.claimed o action) fun _ => rfl).deployments.get?
      before.id = some (before.cleanupRequested.claimed o action) := get?_updateDeployment _ _ hrow
  constructor
  · rintro ⟨claimed, db'', after, hclaimed', hcleanup, -⟩
    obtain rfl := Option.some.inj (hclaimed.symm.trans hclaimed')
    exact recorded_of_cleanup hcleanup
  · rintro ⟨rfl, hrecorded⟩
    have hlease : (before.cleanupRequested.claimed o action).leasedTo (before.cleanupRequested.leaseFor o action) =
        true := by
      unfold DeploymentRow.leasedTo DeploymentRow.claimed DeploymentRow.leaseFor
      simp
    obtain ⟨db'', after, hcleanup, hafter, hstatus⟩ := cleanup_of_recorded (k := k)
      (d := before.cleanupRequested.claimed o action) hrecorded hlease hclaimed
      (fun runtime objects hruntime hobjects object hobject =>
        ⟨(hgiven runtime objects hruntime hobjects object hobject).seen,
          (hgiven runtime objects hruntime hobjects object hobject).deleted,
          (hgiven runtime objects hruntime hobjects object hobject).gone⟩)
    refine ⟨_, db'', after, hclaimed, hcleanup, hafter, hstatus, ?_⟩
    unfold DeploymentRow.active
    rw [hstatus]
    decide +kernel

namespace Closed

def runtimeJSON : Json :=
  .obj [("version", .num 1), ("lineageId", .str "lin_1"), ("deploymentId", .str "dep_1"),
    ("generation", .num 1), ("lineageVersion", .num 1), ("stableHost", .str "web-pr-7.example.test"),
    ("probeHost", .str "probe.example.test"), ("namespace", .str "org-1--shop"),
    ("workloadName", .str "web-pr-7"), ("serviceName", .str "web-pr-7"),
    ("probeIngressName", .str "web-pr-7"), ("routeName", .str "web-pr-7")]

def runtime : PreviewRuntime :=
  { version := 1, lineageID := "lin_1", deploymentID := "dep_1", generation := 1, lineageVersion := 1
    stableHost := "web-pr-7.example.test", probeHost := "probe.example.test"
    «namespace» := "org-1--shop", workloadName := "web-pr-7", serviceName := "web-pr-7"
    probeIngressName := "web-pr-7", routeName := "web-pr-7" }

def policy : PreviewOwnedObject :=
  { group := "networking.k8s.io", version := "v1", kind := "NetworkPolicy", «namespace» := "org-1--shop"
    name := "web-pr-7", uid := "uid-1", resourceVersion := "1" }

/-- The policy as the cluster prints it. -/
def document : Document where
  length := 4096
  value := some <| .obj [("apiVersion", .str "networking.k8s.io/v1"), ("kind", .str "NetworkPolicy"),
    ("metadata", .obj [("name", .str "web-pr-7"), ("namespace", .str "org-1--shop"), ("uid", .str "uid-1"),
      ("resourceVersion", .str "1"), ("labels", .obj [("app.kubernetes.io/managed-by", .str "raibitserver"),
        ("raibitserver.io/project-id", .str "prj_1"), ("raibitserver.io/service-id", .str "svc_1"),
        ("raibitserver.io/deployment-id", .str "dep_1"), ("raibitserver.io/preview-lineage-id", .str "lin_1"),
        ("raibitserver.io/preview-generation", .str "1")])])]
  length_pos := fun _ => by decide

def deployment (status : String) (owned : Option Json) : DeploymentRow :=
  { id := "dep_1", serviceId := "svc_1", projectId := "prj_1", status, createdAt := 1, imageUrl := none
    reconcileAction := none, reconcileLockedBy := none, reconcileLockedAt := none, reconcileAttempts := 0
    previewLineageId := some "lin_1", previewGeneration := some 1, previewRuntime := some runtimeJSON
    previewOwnedObjects := owned }

def database (d : DeploymentRow) : Database where
  deployments := ⟨[d], List.nodup_singleton _⟩
  services := ⟨[⟨"svc_1", "prj_1", "READY"⟩], List.nodup_singleton _⟩
  projects := ⟨[⟨"prj_1", "READY"⟩], List.nodup_singleton _⟩

def options : ClaimOptions Micros := ⟨"worker-1", 0, 10, []⟩

/-- A job's preview, applied and with its policy recorded. -/
def applied : DeploymentRow := deployment "READY" (some (Orchestrator.marshalInventory [policy]))

/-- A preview that waits for its build. -/
def queued : DeploymentRow := deployment "QUEUED" none

/-- A cluster in which the policy is present until it is deleted. -/
def cluster : Kubectl where
  get _ := .ok (some document)
  delete _ := .ok ()
  after _ _ := .ok none
  clock _ := (20, 30)

/-- The claim of the closed preview. -/
theorem claim {d : DeploymentRow} (h : (claimNextDeployment ((database d).closePreview "lin_1") options).map (·.2) =
    .ok (some ⟨"dep_1", "worker-1", 1, .cleanup⟩)) :
    ∃ db', claimNextDeployment ((database d).closePreview "lin_1") options =
      .ok (db', some ⟨"dep_1", "worker-1", 1, .cleanup⟩) := by
  obtain ⟨⟨db', lease⟩, hclaim, rfl⟩ := map_ok.1 h
  exact ⟨db', hclaim⟩

end Closed

open Closed in
theorem cleanup_finishes_iff_applied :
    ∃ db' lease claimed db'' after,
      claimNextDeployment ((database applied).closePreview "lin_1") options = .ok (db', some lease) ∧
      db'.deployments.get? "dep_1" = some claimed ∧ cleanupOwnedPreview cluster false db' claimed lease = .ok db'' ∧
      db''.deployments.get? "dep_1" = some after ∧ after.status = "CLEANED_UP" ∧ after.active = false := by
  obtain ⟨db', hclaim⟩ := claim (d := applied) (by decide +kernel)
  have hruntime : applied.runtime = .ok runtime := rfl
  have hinventory : parsePreviewInventory applied.previewOwnedObjects = .ok [policy] := rfl
  have hbefore : (database applied).deployments.get? applied.id = some applied := rfl
  have hcloses : applied.closes "lin_1" = true := by decide +kernel
  have hgiven : ∀ r objects, applied.runtime = .ok r →
      parsePreviewInventory applied.previewOwnedObjects = .ok objects → ∀ object ∈ objects,
      GivenUp cluster r applied object := by
    intro r objects hr hobjects object hobject
    obtain rfl := Except.ok.inj (hruntime.symm.trans hr)
    obtain rfl := Except.ok.inj (hinventory.symm.trans hobjects)
    rw [List.mem_singleton.1 hobject]
    exact ⟨.inr ⟨document, policy, rfl, by decide +kernel⟩, rfl, rfl⟩
  obtain ⟨claimed, db'', after, hclaimed, hcleanup, hafter, hstatus, hactive⟩ :=
    (cleanup_finishes_iff false hbefore hcloses rfl hclaim rfl hgiven).2
      ⟨rfl, runtime, [policy], hruntime, hinventory, List.cons_ne_nil _ _, fun object hobject => by
        rw [List.mem_singleton.1 hobject]
        rfl⟩
  exact ⟨db', _, claimed, db'', after, hclaim, hclaimed, hcleanup, hafter, hstatus, hactive⟩

open Closed in
/-- **A preview that never ends**: it was closed before anything of it was applied.  Its cleanup is claimed and
refused whatever the cluster holds, and the deployment stays DEPLOYING and active. -/
theorem queued_preview_not_cleaned_up :
    queued.closes "lin_1" = true ∧
    ∃ db' lease claimed, claimNextDeployment ((database queued).closePreview "lin_1") options = .ok (db', some lease) ∧
      db'.deployments.get? "dep_1" = some claimed ∧
      (∀ k dryRun, cleanupOwnedPreview k dryRun db' claimed lease = .error .ErrPreviewContract) ∧
      claimed.status = "DEPLOYING" ∧ claimed.active = true := by
  refine ⟨by decide +kernel, ?_⟩
  obtain ⟨db', hclaim⟩ := claim (d := queued) (by decide +kernel)
  obtain ⟨d, action, hget, -, hlease, rfl, -, -⟩ := claimNextDeployment_row hclaim
  have hid : "dep_1" = d.id := congrArg (·.deploymentID) hlease
  obtain rfl : queued.cleanupRequested = d := by
    rw [← hid] at hget
    exact Option.some.inj hget
  refine ⟨_, _, queued.cleanupRequested.claimed options action, hclaim, get?_updateDeployment _ _ hget,
    fun k dryRun => ?_, rfl, ?_⟩
  · cases dryRun with
    | true => rfl
    | false => rfl
  · show (!Core.terminalDeploymentStatuses.contains "DEPLOYING") = true
    decide +kernel

end RaibitServer.Reconcile
