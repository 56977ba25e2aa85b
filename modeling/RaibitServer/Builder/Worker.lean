import RaibitServer.Core.Deployments
import RaibitServer.Builder.Fencing

/-!
# Builder.Worker — `RunOnce` of the build worker, and the statuses it writes

`builder.go`.  A worker claims a job and takes it through `processClaimedJob`: every stage has its store
calls and can fail, and a failure is recorded on the deployment (`markFailed`) before the job is given
back.  Any number of workers run side by side; any of them may crash, and between two steps the control
plane may write what it likes.

`StartBuild` and `PublishImageReady` look at the status they overwrite.  `markFailed` and the reaper do
not, or not as the status machine has it: `builder_step_follows_iff` says when their write is a move of
the machine.
-/

namespace RaibitServer.Builder

open Lib Text Core

/-! ### A worker -/

structure Target where
  deploymentID : String
  serviceID : String
  projectID : String
  deriving DecidableEq

/-- How `RunOnce` gives back a job that was not built. -/
inductive Ending
  | fail
  | cancel
  deriving DecidableEq

/-- Where a worker is; `leaseLost` says whether the failure that is being recorded is a lost lease. -/
inductive Stage
  | resolving
  | preparing (target : Target) (deleting : Bool)
  | starting (target : Target)
  | building (target : Target)
  | publishing (target : Target)
  | failing (target : Target) (leaseLost : Bool)
  | ending (ending : Ending)
  deriving DecidableEq

structure Session where
  job : WorkflowJob
  stage : Stage
  deriving DecidableEq

def Session.next (session : Session) (stage : Stage) : Option Session := some { session with stage }

/-- The deployment a job names, as the worker reads it. -/
def WorkflowJob.resolvedID (job : WorkflowJob) : Option String :=
  let payload := trimSpace (job.payloadDeploymentId.getD "")
  let target := if equalFold (trimSpace job.targetType) "deployment" then trimSpace job.targetId else ""
  if payload ≠ "" ∧ target ≠ "" ∧ payload ≠ target then none
  else if payload ≠ "" then some payload
  else if target ≠ "" then some target
  else none

/-- `resolveState` with `validateBuildOwnership`, and what `currentTargetDeletionError` will say of the
rows just read. -/
def resolveState (db : Database) (job : WorkflowJob) : Option (Target × Bool) := do
  let id ← job.resolvedID
  let d ← db.deployments.find? fun d => d.id = id
  let s ← db.services.find? fun s => s.id = d.serviceId
  let p ← db.projects.find? fun p => p.id = d.projectId
  if s.projectId = p.id ∧ trimSpace p.id ≠ "" ∧ trimSpace s.id ≠ "" ∧ trimSpace job.id ≠ "" then
    some (⟨d.id, s.id, p.id⟩, isDeletionStatus s.status || isDeletionStatus p.status)
  else none

/-- `recheckTargetDeletion`. -/
def deletionSeen (db : Database) (target : Target) : Bool :=
  (db.services.any fun s => s.id = target.serviceID && isDeletionStatus s.status) ||
    db.projects.any fun p => p.id = target.projectID && isDeletionStatus p.status

/-- What happens next at a worker.  `fault` is any failure of a stage that is not the answer of one of
the store calls below. -/
inductive Move
  | resolve
  | proceed
  | fault
  | sawDeletion
  | renew
  | pin (commitSha : String)
  | start (eventLost : Bool)
  | publish (imageURL imageDigest : String) (cleanupFails : Bool)
  | markFailed (errorCode errorMessage : String)
  | finish
  deriving DecidableEq

/-- What becomes of a worker whose recorded failure it was. -/
def Session.marked (session : Session) (leaseLost : Bool) : Option Session :=
  if leaseLost then none else session.next (.ending .fail)

/-- After `StartBuild`. -/
def Session.started (session : Session) (db : Database) (target : Target) (eventLost : Bool) :
    Except StoreError Database → Database × Option Session
  | .ok db' => (db', session.next (if eventLost then .failing target false else .building target))
  | .error .ErrWorkflowLeaseLost => (db, none)
  | .error .ErrBuildTargetDeleting => (db, session.next (.ending .cancel))
  | .error _ => (db, session.next (.failing target false))

/-- After `PublishImageReady`; the artifacts are cleaned up last. -/
def Session.published (session : Session) (db : Database) (cleanupFails : Bool) :
    Except StoreError Database → Database × Option Session
  | .ok db' => (db', if cleanupFails then session.next (.ending .fail) else none)
  | .error .ErrWorkflowLeaseLost => (db, none)
  | .error .ErrBuildTargetDeleting => (db, session.next (.ending .cancel))
  | .error _ => (db, session.next (.ending .fail))

/-- After a call whose failure fails the build. -/
def Session.called (session : Session) (db : Database) (target : Target) (stage : Stage) :
    Except StoreError Database → Database × Option Session
  | .ok db' => (db', session.next stage)
  | .error e => (db, session.next (.failing target (e = .ErrWorkflowLeaseLost)))

/-- After the last renewal. -/
def Session.renewed (session : Session) (db : Database) (target : Target) :
    Except StoreError Database → Database × Option Session
  | .ok db' => (db', session.next (.publishing target))
  | .error .ErrWorkflowLeaseLost => (db, none)
  | .error _ => (db, session.next (.ending .fail))

/-- After `markFailed`. -/
def Session.failed (session : Session) (db : Database) (leaseLost : Bool) :
    Except StoreError Database → Database × Option Session
  | .ok db' => (db', session.marked leaseLost)
  | .error .ErrWorkflowLeaseLost => (db, none)
  | .error _ => (db, session.marked leaseLost)

def Ending.call : Ending → Database → WorkflowLease → Micros → Except StoreError Database
  | .fail => failWorkflowJob
  | .cancel => cancelWorkflowJob

def kept (db : Database) : Except StoreError Database → Database
  | .ok db' => db'
  | .error _ => db

/-- One step of `RunOnce` after the claim: the database it leaves, and the worker unless it is done;
`none` where the stage has no such step. -/
def advance (db : Database) (now : Micros) (session : Session) :
    Stage → Move → Option (Database × Option Session)
  | .resolving, .resolve => match resolveState db session.job with
    | none => some (db, session.next (.ending .fail))
    | some (target, deleting) => some (db, session.next (.preparing target deleting))
  | .resolving, .fault => some (db, session.next (.ending .fail))
  -- the artifacts, then the deletion check, then the configuration
  | .preparing target _, .fault => some (db, session.next (.failing target false))
  | .preparing target deleting, .proceed =>
    some (db, session.next (if deleting then .ending .cancel else .starting target))
  | .starting target, .start eventLost => some (session.started db target eventLost
      (startBuild db ⟨session.job.lease, target.deploymentID, target.serviceID, target.projectID, now⟩))
  | .starting target, .fault => some (db, session.next (.failing target false))
  | .building target, .pin commitSha => some (session.called db target (.building target)
      (updateDeploymentForLease db session.job.lease target.deploymentID (.commit commitSha) now))
  | .building target, .renew => some (session.called db target (.building target)
      (renewWorkflowJobLease db session.job.lease now))
  | .building target, .sawDeletion =>
    if deletionSeen db target then some (db, session.next (.ending .cancel)) else none
  | .building target, .fault => some (db, session.next (.failing target false))
  | .building target, .proceed =>
    some (session.renewed db target (renewWorkflowJobLease db session.job.lease now))
  | .publishing target, .fault => some (db, session.next (.failing target false))
  | .publishing target, .publish imageURL imageDigest cleanupFails => some (session.published db cleanupFails
      (publishImageReady db ⟨session.job.lease, target.deploymentID, target.serviceID, target.projectID,
        imageURL, imageDigest, now⟩))
  | .failing target leaseLost, .markFailed errorCode errorMessage => some (session.failed db leaseLost
      (updateDeploymentForLease db session.job.lease target.deploymentID
        (.buildFailed errorCode errorMessage now) now))
  | .failing _ leaseLost, .fault => some (db, session.marked leaseLost)
  | .ending ending, .finish => some (kept db (ending.call db session.job.lease now), none)
  | _, _ => none

/-! ### Any number of workers -/

structure System where
  db : Database
  sessions : Nat → Option Session

inductive Label
  | claim (worker : Nat) (o : ClaimOptions) (now : Micros)
  | heartbeat (worker : Nat) (now : Micros)
  | move (worker : Nat) (m : Move) (now : Micros)
  | crash (worker : Nat)
  | controlPlane
  deriving DecidableEq

/-- A step of the builder. -/
def System.perform (s : System) : Label → Option System
  | .claim worker o now => match s.sessions worker with
    | some _ => none
    | none =>
      let claimed := claimNextWorkflowJob s.db o now
      some ⟨claimed.1, Function.update s.sessions worker (claimed.2.map (⟨·, .resolving⟩))⟩
  | .heartbeat worker now => (s.sessions worker).map fun session =>
      { s with db := kept s.db (renewWorkflowJobLease s.db session.job.lease now) }
  | .move worker m now => do
    let session ← s.sessions worker
    let (db, session) ← advance s.db now session session.stage m
    return ⟨db, Function.update s.sessions worker session⟩
  | .crash worker => some { s with sessions := Function.update s.sessions worker none }
  | .controlPlane => none

/-- The primary key of the deployments. -/
def Database.Keyed (db : Database) : Prop := (db.deployments.map Deployment.id).Nodup

inductive WorkerStep : System → Label → System → Prop
  | builder {s t : System} {l : Label} (h : s.perform l = some t) : WorkerStep s l t
  /-- The control plane leaves any statuses, jobs and parents. -/
  | controlPlane {s : System} {db : Database} (keyed : db.Keyed) :
      WorkerStep s .controlPlane { s with db }

/-! ### What is written -/

/-- Every deployment keeps its status, or moves as the status machine has it. -/
def Conforms (db db' : Database) : Prop :=
  List.Forall₂ (fun d d' => d'.id = d.id ∧ (d'.status = d.status ∨ Follows d.status d'.status))
    db.deployments db'.deployments

/-- The statuses from which a failed build is a move, or no change. -/
def Failable (status : String) : Prop :=
  parseDeploymentStatus status = .ok "BUILDING" ∨ parseDeploymentStatus status = .ok "BUILD_FAILED"

/-- The deployments that a claim marks as failed. -/
def Database.reaped (db : Database) (now lease : Micros) (skipped : List String) (d : Deployment) : Bool :=
  ((db.exhausted now lease skipped).any fun r => r.deploymentId = some d.id) &&
    ["QUEUED", "BUILDING"].contains (upper d.status)

/-- A failure that is recorded under a lease still held, and the failure of an exhausted job, find the
deployment building (or already failed). -/
def Admits (s : System) : Label → Prop
  | .claim _ o now => ∀ d ∈ s.db.deployments, s.db.reaped now o.lease o.skipped d = true → Failable d.status
  | .move worker (.markFailed _ _) _ => ∀ session target leaseLost, s.sessions worker = some session →
      session.stage = .failing target leaseLost →
      assertWorkflowLeaseLocked s.db session.job.lease = .ok () →
      ∀ d ∈ s.db.deployments, d.id = target.deploymentID → Failable d.status
  | _ => True

section Writes

variable {db db' : Database} {now : Micros} {lease : WorkflowLease}

theorem Conforms.refl (db : Database) : Conforms db db := by
  unfold Conforms
  rw [List.forall₂_same]
  exact fun d _ => ⟨rfl, .inl rfl⟩

theorem conforms_of_deployments (h : db'.deployments = db.deployments) : Conforms db db' := by
  have hrefl := Conforms.refl db
  unfold Conforms at hrefl ⊢
  rwa [h]

theorem conforms_update {w : Deployment → Bool} {f : Deployment → Deployment} (hid : ∀ d, (f d).id = d.id) :
    Conforms db (db.updateDeployments w f) ↔
      ∀ d ∈ db.deployments, w d = true → (f d).status = d.status ∨ Follows d.status (f d).status := by
  unfold Conforms Database.updateDeployments
  rw [Sql.forall₂_update fun d => ⟨rfl, .inl rfl⟩]
  exact forall₂_congr fun d _ => imp_congr_right fun _ => and_iff_right (hid d)

theorem follows_buildFailed {status : String} : Follows status "BUILD_FAILED" ↔ Failable status := by
  have hparse : parseDeploymentStatus "BUILD_FAILED" = .ok "BUILD_FAILED" := by decide +kernel
  have honly : ∀ p ∈ deploymentMachine.states, "BUILD_FAILED" ∈ p.2.next → p.1 = "BUILDING" := by decide
  unfold Failable
  rw [follows_iff]
  constructor
  · rintro ⟨a, b, ha, hb, hmove⟩
    obtain rfl := Except.ok.inj (hparse.symm.trans hb)
    rcases hmove with rfl | hnext
    · exact .inr ha
    · obtain ⟨state, hmem, hnext⟩ := mem_deploymentNext hnext
      have hbuilding : a = "BUILDING" := honly _ hmem hnext
      exact .inl (hbuilding ▸ ha)
  · rintro (h | h)
    · exact ⟨_, _, h, hparse, .inr (by decide)⟩
    · exact ⟨_, _, h, hparse, .inl rfl⟩

theorem failable_of_same {status : String} (h : "BUILD_FAILED" = status) : Failable status := by
  subst h
  exact .inr (by decide +kernel)

/-- A write of `BUILD_FAILED` conforms exactly where the status may fail. -/
theorem buildFailed_iff {status : String} :
    ("BUILD_FAILED" = status ∨ Follows status "BUILD_FAILED") ↔ Failable status := by
  rw [follows_buildFailed]
  exact ⟨fun h => h.elim failable_of_same id, .inr⟩

/-- The row that was locked and the row that is written are one. -/
theorem lockBuild_status {job : WorkflowJob} {D S P kind status : String}
    (keyed : db.Keyed) (h : lockBuild db lease D S P kind status = .ok job) {d : Deployment}
    (hd : d ∈ db.deployments) (hid : d.id = D) : equalFold (trimSpace d.status) status = true := by
  obtain ⟨-, ⟨d', hd', hid', hstatus⟩, -⟩ := lockBuild_ok h
  rwa [List.inj_on_of_nodup_map keyed hd' hd (hid'.trans hid.symm)] at hstatus

theorem startBuild_conforms (keyed : db.Keyed) {i : BuildStartInput} (h : startBuild db i = .ok db') :
    Conforms db db' := by
  obtain ⟨⟨job, hlock⟩, -, rfl⟩ := startBuild_ok h
  refine (conforms_update (f := setBuilding i.startedAt) fun d => rfl).2 fun d hd hstatus => ?_
  have hgo := lockBuild_status keyed hlock hd (inStatus_id hstatus)
  have hsql : upper (btrim d.status) = "QUEUED" := of_decide_eq_true (Bool.and_eq_true_iff.1 hstatus).2
  have hparse := parseDeploymentStatus_of_checks (by simp) hgo hsql (by decide)
  have hqueued : parseDeploymentStatus "QUEUED" = .ok "queued" := by decide +kernel
  refine .inr (follows_iff.2 ⟨"queued", "BUILDING", hparse.trans hqueued, ?_, .inr (by decide)⟩)
  show parseDeploymentStatus "BUILDING" = _
  decide +kernel

theorem publish_conforms (keyed : db.Keyed) {i : ImagePublicationInput}
    (h : publishImageReady db i = .ok db') : Conforms db db' := by
  obtain ⟨job, hlock, -, -, rfl⟩ := publishImageReady_ok h
  show Conforms db (db.updateDeployments _ (setImageReady i))
  refine (conforms_update (f := setImageReady i) fun d => rfl).2 fun d hd hstatus => ?_
  have hgo := lockBuild_status keyed hlock hd (inStatus_id hstatus)
  have hsql : upper (btrim d.status) = "BUILDING" := of_decide_eq_true (Bool.and_eq_true_iff.1 hstatus).2
  have hparse := parseDeploymentStatus_of_checks (by simp) hgo hsql (by decide)
  have hbuilding : parseDeploymentStatus "BUILDING" = .ok "BUILDING" := by decide +kernel
  refine .inr (follows_iff.2 ⟨"BUILDING", "IMAGE_READY", hparse.trans hbuilding, ?_, .inr (by decide)⟩)
  show parseDeploymentStatus "IMAGE_READY" = _
  decide +kernel

theorem pin_conforms {D sha : String} (h : updateDeploymentForLease db lease D (.commit sha) now = .ok db') :
    Conforms db db' := by
  obtain ⟨-, v, hv, rfl⟩ := updateDeploymentForLease_ok h
  obtain ⟨commit, -, rfl⟩ := fencedUpdate_commit hv
  exact (conforms_update (f := DeploymentUpdate.apply now (.commit commit)) fun d => rfl).2 fun d _ _ => .inl rfl

theorem markFailed_conforms {D code message : String}
    (h : updateDeploymentForLease db lease D (.buildFailed code message now) now = .ok db') :
    Conforms db db' ↔ ∀ d ∈ db.deployments, d.id = D → Failable d.status := by
  obtain ⟨-, v, hv, rfl⟩ := updateDeploymentForLease_ok h
  obtain rfl := Except.ok.inj hv
  rw [conforms_update (f := DeploymentUpdate.apply now (.buildFailed code message now)) fun d => rfl]
  refine forall₂_congr fun d _ => ?_
  rw [decide_eq_true_eq]
  exact imp_congr_right fun _ => buildFailed_iff

theorem claim_conforms (db : Database) (o : ClaimOptions) (now : Micros) :
    Conforms db (claimNextWorkflowJob db o now).1 ↔
      ∀ d ∈ db.deployments, db.reaped now o.lease o.skipped d = true → Failable d.status := by
  have hdeployments : (claimNextWorkflowJob db o now).1.deployments =
      (db.updateDeployments (db.reaped now o.lease o.skipped) (reapDeployment now)).deployments := by
    unfold claimNextWorkflowJob
    split <;> rfl
  have hreap : Conforms db (db.updateDeployments (db.reaped now o.lease o.skipped) (reapDeployment now)) ↔
      ∀ d ∈ db.deployments, db.reaped now o.lease o.skipped d = true → Failable d.status := by
    rw [conforms_update (f := reapDeployment now) fun d => rfl]
    exact forall₂_congr fun d _ => imp_congr_right fun _ => buildFailed_iff
  unfold Conforms at hreap ⊢
  rw [hdeployments, hreap]

theorem kept_conforms {x : Except StoreError Database} (h : ∀ db', x = .ok db' → Conforms db db') :
    Conforms db (kept db x) := by
  cases x with
  | ok db' => exact h db' rfl
  | error e => exact Conforms.refl db

theorem renew_deployments (h : renewWorkflowJobLease db lease now = .ok db') :
    db'.deployments = db.deployments := by
  obtain ⟨-, rfl⟩ := renewWorkflowJobLease_ok h
  rfl

theorem ending_deployments {ending : Ending} (h : ending.call db lease now = .ok db') :
    db'.deployments = db.deployments := by
  cases ending <;>
  · obtain ⟨job, -, -, -, rfl⟩ := updateWorkflowJob_ok h
    rfl

end Writes

/-! ### One step of a worker -/

section Advance

variable {db db' : Database} {now : Micros} {session : Session} {next : Option Session}

variable {target : Target} {x : Except StoreError Database}

/-! What a call leaves is what it returned, or nothing changed. -/

theorem started_db (eventLost : Bool) : (session.started db target eventLost x).1 = kept db x := by
  unfold Session.started
  split <;> rfl

theorem published_db (cleanupFails : Bool) : (session.published db cleanupFails x).1 = kept db x := by
  unfold Session.published
  split <;> rfl

theorem called_db (stage : Stage) : (session.called db target stage x).1 = kept db x := by
  cases x <;> rfl

theorem renewed_db : (session.renewed db target x).1 = kept db x := by
  unfold Session.renewed
  split <;> rfl

theorem failed_db (leaseLost : Bool) : (session.failed db leaseLost x).1 = kept db x := by
  unfold Session.failed
  split <;> rfl

theorem conforms_kept_of_eq {r : Database × Option Session} (h : some r = some (db', next))
    (hr : r.1 = kept db x) (hx : ∀ db', x = .ok db' → Conforms db db') : Conforms db db' := by
  obtain rfl := Option.some.inj h
  have hkept := kept_conforms hx
  rwa [← hr] at hkept

theorem conforms_of_same {r : Option Session} (h : some (db, r) = some (db', next)) : Conforms db db' := by
  obtain ⟨rfl, -⟩ := Prod.mk.inj (Option.some.inj h)
  exact Conforms.refl db

/-- Every step that records no failure conforms. -/
theorem advance_conforms (keyed : db.Keyed) {stage : Stage} {m : Move}
    (hm : ∀ code message, m ≠ .markFailed code message)
    (h : advance db now session stage m = some (db', next)) : Conforms db db' := by
  unfold advance at h
  split at h
  · split at h <;> exact conforms_of_same h
  · exact conforms_of_same h
  · exact conforms_of_same h
  · exact conforms_of_same h
  · exact conforms_kept_of_eq h (started_db _) fun _ => startBuild_conforms keyed
  · exact conforms_of_same h
  · exact conforms_kept_of_eq h (called_db _) fun _ => pin_conforms
  · exact conforms_kept_of_eq h (called_db _) fun _ hok => conforms_of_deployments (renew_deployments hok)
  · split_ifs at h
    exact conforms_of_same h
  · exact conforms_of_same h
  · exact conforms_kept_of_eq h renewed_db fun _ hok => conforms_of_deployments (renew_deployments hok)
  · exact conforms_of_same h
  · exact conforms_kept_of_eq h (published_db _) fun _ => publish_conforms keyed
  · exact absurd rfl (hm _ _)
  · exact conforms_of_same h
  · exact conforms_kept_of_eq h rfl fun _ hok => conforms_of_deployments (ending_deployments hok)
  · cases h

/-- Recording a failure conforms where the deployment may fail, or the lease is lost. -/
theorem markFailed_advance_iff {leaseLost : Bool} {code message : String}
    (h : advance db now session (.failing target leaseLost) (.markFailed code message) = some (db', next)) :
    Conforms db db' ↔ (assertWorkflowLeaseLocked db session.job.lease = .ok () →
      ∀ d ∈ db.deployments, d.id = target.deploymentID → Failable d.status) := by
  have hdb : db' = kept db (updateDeploymentForLease db session.job.lease target.deploymentID
      (.buildFailed code message now) now) := by
    exact (congrArg Prod.fst (Option.some.inj h)).symm.trans (failed_db leaseLost)
  rw [hdb]
  cases hx : updateDeploymentForLease db session.job.lease target.deploymentID
      (.buildFailed code message now) now with
  | ok db₁ =>
    have hlease := (updateDeploymentForLease_ok hx).1
    rw [show kept db (.ok db₁) = db₁ from rfl, markFailed_conforms hx]
    exact ⟨fun hd _ => hd, fun hd => hd hlease⟩
  | error e =>
    refine iff_of_true (Conforms.refl db) fun hlease d hd hid => ?_
    -- with the lease held, only a missing deployment makes the call fail
    have hany : db.deployments.any (fun d => d.id = target.deploymentID) = true :=
      List.any_eq_true.2 ⟨d, hd, decide_eq_true hid⟩
    unfold updateDeploymentForLease at hx
    rw [hlease] at hx
    simp [fencedUpdate, bind, Except.bind, throwIf, hany, pure, Except.pure] at hx

end Advance

/-! ### Runs -/

section Runs

variable {s t u : System} {l : Label} {es : List Label}

theorem Conforms.keyed {db db' : Database} (h : Conforms db db') (keyed : db.Keyed) : db'.Keyed := by
  unfold Database.Keyed at keyed ⊢
  have hids : db'.deployments.map Deployment.id = db.deployments.map Deployment.id := by
    unfold Conforms at h
    generalize db.deployments = rows at h
    generalize db'.deployments = rows' at h
    induction h with
    | nil => rfl
    | cons hd _ ih => rw [List.map_cons, List.map_cons, hd.1, ih]
  rwa [hids]

theorem keyed_update {db : Database} {w : Deployment → Bool} {f : Deployment → Deployment}
    (hid : ∀ d, (f d).id = d.id) (keyed : db.Keyed) : (db.updateDeployments w f).Keyed := by
  show ((Sql.update w f db.deployments).map Deployment.id).Nodup
  rwa [Sql.map_update fun d _ => hid d]

theorem claim_keyed {db : Database} (o : ClaimOptions) (now : Micros) (keyed : db.Keyed) :
    (claimNextWorkflowJob db o now).1.Keyed := by
  have hreaped := keyed_update (w := db.reaped now o.lease o.skipped) (f := reapDeployment now)
    (fun d => rfl) keyed
  unfold claimNextWorkflowJob
  split <;> exact hreaped

theorem advance_keyed {db db' : Database} {now : Micros} {session : Session} {next : Option Session} {m : Move}
    (keyed : db.Keyed) (h : advance db now session session.stage m = some (db', next)) : db'.Keyed := by
  by_cases hm : ∃ code message, m = .markFailed code message
  · obtain ⟨code, message, rfl⟩ := hm
    cases hstage : session.stage with
    | failing target leaseLost =>
      rw [hstage] at h
      have hdb := congrArg Prod.fst (Option.some.inj h)
      rw [failed_db] at hdb
      rw [← show _ = db' from hdb]
      cases hx : updateDeploymentForLease db session.job.lease target.deploymentID
          (.buildFailed code message now) now with
      | ok db₁ =>
        obtain ⟨-, v, hv, rfl⟩ := updateDeploymentForLease_ok hx
        obtain rfl := Except.ok.inj hv
        exact keyed_update (f := DeploymentUpdate.apply now (.buildFailed code message now)) (fun d => rfl) keyed
      | error e => exact keyed
    | resolving | preparing _ _ | starting _ | building _ | publishing _ | ending _ =>
      rw [hstage] at h
      cases h
  · exact (advance_conforms keyed (fun code message heq => hm ⟨code, message, heq⟩) h).keyed keyed

theorem perform_claim {worker : Nat} {o : ClaimOptions} {now : Micros}
    (h : s.perform (.claim worker o now) = some t) : t.db = (claimNextWorkflowJob s.db o now).1 := by
  cases hw : s.sessions worker with
  | some session =>
    simp only [System.perform, hw] at h
    cases h
  | none =>
    simp only [System.perform, hw] at h
    rw [← Option.some.inj h]

theorem step_keyed (keyed : s.db.Keyed) (h : WorkerStep s l t) : t.db.Keyed := by
  cases h with
  | controlPlane keyed => exact keyed
  | builder h =>
    cases l with
    | claim worker o now =>
      rw [perform_claim h]
      exact claim_keyed o now keyed
    | heartbeat worker now =>
      obtain ⟨session, -, rfl⟩ := Option.map_eq_some_iff.1 h
      exact (kept_conforms fun _ hok => conforms_of_deployments (renew_deployments hok)).keyed keyed
    | move worker m now =>
      obtain ⟨session, -, h⟩ := Option.bind_eq_some_iff.1 h
      obtain ⟨⟨db', next⟩, hadvance, h⟩ := Option.bind_eq_some_iff.1 h
      obtain rfl := Option.some.inj h
      exact advance_keyed keyed hadvance
    | crash worker =>
      obtain rfl := Option.some.inj h
      exact keyed
    | controlPlane => cases h

/-- **Statuses of the builder**: in every run of workers, and of the control plane between their steps,
a step of the builder moves every deployment as the status machine has it, or not at all, exactly if
what it marks as failed is building or has failed already. -/
theorem builder_step_follows_iff (keyed : s.db.Keyed) (run : Run WorkerStep s es t)
    (step : WorkerStep t l u) (builder : l ≠ .controlPlane) : Conforms t.db u.db ↔ Admits t l := by
  have hkeyed : t.db.Keyed := run.invariant (I := fun s => s.db.Keyed) (fun _ _ _ => step_keyed) keyed
  cases step with
  | controlPlane _ => exact absurd rfl builder
  | builder h =>
    cases l with
    | claim worker o now =>
      rw [perform_claim h]
      exact claim_conforms t.db o now
    | heartbeat worker now =>
      obtain ⟨session, -, rfl⟩ := Option.map_eq_some_iff.1 h
      exact iff_of_true (kept_conforms fun _ hok => conforms_of_deployments (renew_deployments hok)) trivial
    | move worker m now =>
      obtain ⟨session, hsession, h⟩ := Option.bind_eq_some_iff.1 h
      obtain ⟨⟨db', next⟩, hadvance, h⟩ := Option.bind_eq_some_iff.1 h
      obtain rfl := Option.some.inj h
      by_cases hm : ∃ code message, m = .markFailed code message
      · obtain ⟨code, message, rfl⟩ := hm
        show Conforms t.db db' ↔ _
        cases hstage : session.stage with
        | failing target leaseLost =>
          rw [hstage] at hadvance
          rw [markFailed_advance_iff hadvance]
          constructor
          · intro hd session' target' leaseLost' hsession' hstage'
            obtain rfl := Option.some.inj (hsession.symm.trans hsession')
            obtain ⟨rfl, -⟩ := Stage.failing.inj (hstage.symm.trans hstage')
            exact hd
          · exact fun hd => hd session target leaseLost hsession hstage
        | resolving | preparing _ _ | starting _ | building _ | publishing _ | ending _ =>
          rw [hstage] at hadvance
          cases hadvance
      · have hconforms := advance_conforms hkeyed (fun code message heq => hm ⟨code, message, heq⟩) hadvance
        refine iff_of_true hconforms ?_
        cases m with
        | markFailed code message => exact absurd ⟨code, message, rfl⟩ hm
        | resolve | proceed | fault | sawDeletion | renew | pin _ | start _ | publish _ _ _ | finish => trivial
    | crash worker =>
      obtain rfl := Option.some.inj h
      exact iff_of_true (Conforms.refl _) trivial
    | controlPlane => cases h

end Runs

/-! ### Two sample builds -/

theorem step_of_perform_label (s : System) (l e : Label) (t : System)
    (h : (s.perform l).map (l, ·) = some (e, t)) : WorkerStep s e t := by
  obtain ⟨t', ht, heq⟩ := Option.map_eq_some_iff.1 h
  obtain ⟨rfl, rfl⟩ := Prod.mk.inj heq
  exact .builder ht

namespace Failing

/-- A queued build, and no worker yet. -/
def start : System :=
  { db :=
      { jobs := [{ Sample.job with id := "job_5", targetId := "dep_5", payloadDeploymentId := none }],
        deployments := [{ Sample.deployment with
          id := "dep_5", serviceId := "svc_5", projectId := "prj_5", status := "queued" }],
        services := [⟨"svc_5", "prj_5", "created", none, none, 0⟩], projects := [⟨"prj_5", "active"⟩] }
    sessions := fun _ => none }

theorem start_keyed : start.db.Keyed := by
  show (start.db.deployments.map Deployment.id).Nodup
  decide

def claimed : List Label := [.claim 0 ⟨"builder", 300, []⟩ 1000000, .move 0 .resolve 1000000]

/-- The workspace directory cannot be made. -/
def early : List Label := claimed ++ [.move 0 .fault 2000000]

/-- The build is started, and its command fails. -/
def late : List Label :=
  claimed ++ [.move 0 .proceed 2000000, .move 0 (.start false) 3000000, .move 0 .fault 4000000]

def record : Label := .move 0 (.markFailed "BUILD_FAILED" "build failed") 5000000

/-- What the record leaves of the deployment's status. -/
def recorded (s : System) : Option (List String) :=
  (s.perform record).map fun t => t.db.deployments.map Deployment.status

theorem exists_record {s : System} {statuses : List String} (h : recorded s = some statuses) :
    ∃ t, WorkerStep s record t ∧ t.db.deployments.map Deployment.status = statuses := by
  obtain ⟨t, ht, hstatuses⟩ := Option.map_eq_some_iff.1 h
  exact ⟨t, .builder ht, hstatuses⟩

end Failing

open Failing in
/-- A failure after the start of the build is a move of the machine. -/
theorem builder_step_follows_late : ∃ es s t, start.db.Keyed ∧
    Run WorkerStep start es s ∧ WorkerStep s record t ∧
    t.db.deployments.map Deployment.status = ["BUILD_FAILED"] ∧ Conforms s.db t.db := by
  obtain ⟨es, s, hrun, hcheck⟩ := Run.exists_of_trace step_of_perform_label start late
    (fun _ s => (s.db.deployments.all fun d => parseDeploymentStatus d.status = .ok "BUILDING") ∧
      recorded s = some ["BUILD_FAILED"]) (by decide +kernel)
  obtain ⟨hbuilding, hrecorded⟩ := of_decide_eq_true hcheck
  obtain ⟨t, hstep, hstatuses⟩ := exists_record hrecorded
  refine ⟨es, s, t, start_keyed, hrun, hstep, hstatuses,
    (builder_step_follows_iff start_keyed hrun hstep (by decide)).2 ?_⟩
  intro session target leaseLost _ _ _ d hd _
  exact .inl (of_decide_eq_true (List.all_eq_true.1 hbuilding d hd))

open Failing in
/-- A worker that fails before it starts the build takes the deployment from `queued` to
`BUILD_FAILED`, which is no move of the machine. -/
theorem early_failure_leaves_machine : ∃ es s t, start.db.Keyed ∧
    Run WorkerStep start es s ∧ s.db.deployments.map Deployment.status = ["queued"] ∧
    WorkerStep s record t ∧ t.db.deployments.map Deployment.status = ["BUILD_FAILED"] ∧
    ¬ Follows "queued" "BUILD_FAILED" ∧ ¬ Conforms s.db t.db := by
  obtain ⟨es, s, hrun, hcheck⟩ := Run.exists_of_trace step_of_perform_label start early
    (fun _ s => s.db.deployments.map Deployment.status = ["queued"] ∧
      recorded s = some ["BUILD_FAILED"]) (by decide +kernel)
  obtain ⟨hqueued, hrecorded⟩ := of_decide_eq_true hcheck
  obtain ⟨t, hstep, hstatuses⟩ := exists_record hrecorded
  have hno : ¬ Follows "queued" "BUILD_FAILED" := by decide +kernel
  refine ⟨es, s, t, start_keyed, hrun, hqueued, hstep, hstatuses, hno, fun hconforms => ?_⟩
  obtain ⟨d, hd, hone⟩ := List.map_eq_singleton_iff.1 hqueued
  obtain ⟨d', hd', hone'⟩ := List.map_eq_singleton_iff.1 hstatuses
  unfold Conforms at hconforms
  rw [hd, hd', List.forall₂_cons] at hconforms
  obtain ⟨⟨-, hmove⟩, -⟩ := hconforms
  rw [hone, hone'] at hmove
  rcases hmove with hsame | hfollows
  · exact absurd hsame (by decide)
  · exact hno hfollows

end RaibitServer.Builder
