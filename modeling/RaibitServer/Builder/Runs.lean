import RaibitServer.Lib.Run
import RaibitServer.Lib.Table
import RaibitServer.Builder.Store

/-!
# Builder.Runs — runs of the store on one build job

Workers claim jobs and write under their leases, in any order and with any clocks; a worker that
crashes just stops calling.  `Step J D` has the calls about the job `J` and its deployment `D`;
everything else that happens in the database is the environment, which leaves the two rows alone,
adds no second job for the deployment, and keeps its service and project from being deleted.
-/

namespace RaibitServer.Builder

open Lib Text

/-! ### Calls -/

inductive Call
  | claim (o : ClaimOptions)
  | renew (lease : WorkflowLease)
  | startBuild (i : BuildStartInput)
  | updateDeployment (lease : WorkflowLease) (deploymentID : String) (updates : DeploymentUpdate)
  | publish (i : ImagePublicationInput)
  | complete (lease : WorkflowLease)
  | fail (lease : WorkflowLease)
  | cancel (lease : WorkflowLease)
  deriving DecidableEq

/-- A worker of `J` presents a lease of `J`, and the deployment that it resolved from the job. -/
def Call.concerns (J D : String) : Call → Bool
  | .claim _ => true
  | .renew lease | .complete lease | .fail lease | .cancel lease => lease.jobID = J
  | .startBuild i => i.lease.jobID = J && i.deploymentID = D
  | .updateDeployment lease deploymentID _ => lease.jobID = J && deploymentID = D
  | .publish i => i.lease.jobID = J && i.deploymentID = D

def exec (db : Database) (now : Micros) : Call → Except StoreError (Database × Option WorkflowJob)
  | .claim o => .ok (claimNextWorkflowJob db o now)
  | .renew lease => (renewWorkflowJobLease db lease now).map (·, none)
  | .startBuild i => (startBuild db i).map (·, none)
  | .updateDeployment lease deploymentID updates =>
    (updateDeploymentForLease db lease deploymentID updates now).map (·, none)
  | .publish i => (publishImageReady db i).map (·, none)
  | .complete lease => (completeWorkflowJob db lease now).map (·, none)
  | .fail lease => (failWorkflowJob db lease now).map (·, none)
  | .cancel lease => (cancelWorkflowJob db lease now).map (·, none)

/-- A call that returns no job. -/
theorem ok_of_map {x : Except StoreError Database} {db' : Database} {r : Option WorkflowJob}
    (h : x.map (·, none) = .ok (db', r)) : x = .ok db' := by
  obtain ⟨db₁, hok, heq⟩ := map_ok.1 h
  obtain ⟨rfl, -⟩ := Prod.mk.inj heq
  exact hok

/-! ### The rows of one build -/

/-- The job `j` and the deployment `d` are the rows of `J` and `D`, no other job is about `D`, and the
service and the project of `D` are there and not being deleted. -/
structure Setting (J D : String) (db : Database) (j : WorkflowJob) (d : Deployment) : Prop where
  job : db.jobs.filter (fun k => k.id = J) = [j]
  deployment : db.deployments.filter (fun e => e.id = D) = [d]
  alone : ∀ k ∈ db.jobs, k.deploymentId = some D → k.id = J
  service : (∃ s ∈ db.services, s.id = d.serviceId) ∧ ∀ s ∈ db.services, s.id = d.serviceId →
    s.projectId = d.projectId ∧ isDeletionStatus s.status = false
  project : (∃ p ∈ db.projects, p.id = d.projectId) ∧ ∀ p ∈ db.projects, p.id = d.projectId →
    isDeletionStatus p.status = false

inductive Event
  | returned (call : Call) (now : Micros) (job : Option WorkflowJob)
  | refused (call : Call) (now : Micros) (error : StoreError)
  | environment
  deriving DecidableEq

inductive Step (J D : String) : Database → Event → Database → Prop
  | returned {db db' : Database} {call : Call} {now : Micros} {job : Option WorkflowJob}
      (about : call.concerns J D = true) (h : exec db now call = .ok (db', job)) :
      Step J D db (.returned call now job) db'
  | refused {db : Database} {call : Call} {now : Micros} {error : StoreError}
      (about : call.concerns J D = true) (h : exec db now call = .error error) :
      Step J D db (.refused call now error) db
  | environment {db db' : Database} (h : ∀ j d, Setting J D db j d → Setting J D db' j d) :
      Step J D db .environment db'

/-- The checks of `StartBuild` on the status, in Go and in the statement. -/
def isQueued (status : String) : Bool :=
  equalFold (trimSpace status) "QUEUED" && upper (btrim status) = "QUEUED"

/-- A build just requested: the job names the deployment, which is queued. -/
def Requested (J D : String) (db : Database) : Prop :=
  ∃ j d, Setting J D db j d ∧ j.deploymentId = some D ∧ isQueued d.status = true

/-- Successful writes of the deployment's status under an attempt: a start, or a recorded failure. -/
def Event.touches : Event → Bool
  | .returned (.startBuild _) _ _ => true
  | .returned (.updateDeployment _ _ (.buildFailed _ _ _)) _ _ => true
  | _ => false

/-- From here, a build of `D` can still be started under the lease. -/
def CanStart (J D : String) (db : Database) (lease : WorkflowLease) : Prop :=
  ∃ es u, Run (Step J D) db es u ∧
    ∃ i u', i.lease = lease ∧ i.deploymentID = D ∧ startBuild u i = .ok u'

section JobRow

variable {J : String} {db : Database} {j : WorkflowJob}

/-- The row of the job `J`. -/
def JobRow (J : String) (db : Database) (j : WorkflowJob) : Prop :=
  db.jobs.filter (fun k => k.id = J) = [j]

theorem JobRow.mem (h : JobRow J db j) : j ∈ db.jobs ∧ j.id = J := by
  have hmem : j ∈ db.jobs.filter (fun k => k.id = J) := by
    rw [h]
    exact List.mem_singleton_self j
  exact ⟨(List.mem_filter.1 hmem).1, by simpa using (List.mem_filter.1 hmem).2⟩

theorem JobRow.eq (h : JobRow J db j) {k : WorkflowJob} (hk : k ∈ db.jobs) (hid : k.id = J) :
    k = j := by
  have hmem : k ∈ db.jobs.filter (fun k => k.id = J) := List.mem_filter.2 ⟨hk, by simpa using hid⟩
  rw [h] at hmem
  exact List.mem_singleton.1 hmem

theorem JobRow.setJobs (h : JobRow J db j) (w : WorkflowJob → Bool) (f : WorkflowJob → WorkflowJob)
    (hid : ∀ k, (f k).id = k.id) : JobRow J (db.updateJobs w f) (if w j then f j else j) := by
  show (Sql.update w f db.jobs).filter _ = _
  rw [Sql.filter_update fun k _ => by rw [hid], h]
  rfl

/-- A write under a lease of `J` affects the row `j`. -/
theorem JobRow.leased (h : JobRow J db j) {lease : WorkflowLease} (hJ : lease.jobID = J)
    (haffected : Sql.affected (WorkflowJob.leasedTo lease) db.jobs = 1) :
    j.leasedTo lease = true := by
  rw [Sql.affected_of_filter h fun k hk => by simpa using (leasedTo_iff.1 hk).1.trans hJ] at haffected
  by_contra hne
  rw [if_neg hne] at haffected
  exact absurd haffected (by decide)

end JobRow

section Setting

variable {J D : String} {db : Database} {j : WorkflowJob} {d : Deployment}

theorem Setting.jobRow (h : Setting J D db j d) : JobRow J db j := h.job

theorem Setting.job_id (h : Setting J D db j d) : j ∈ db.jobs ∧ j.id = J := h.jobRow.mem

theorem Setting.deployment_id (h : Setting J D db j d) : d ∈ db.deployments ∧ d.id = D := by
  have hmem : d ∈ db.deployments.filter (fun e => e.id = D) := by
    rw [h.deployment]
    exact List.mem_singleton_self d
  exact ⟨(List.mem_filter.1 hmem).1, by simpa using (List.mem_filter.1 hmem).2⟩

theorem Setting.eq_job (h : Setting J D db j d) {k : WorkflowJob} (hk : k ∈ db.jobs)
    (hid : k.id = J) : k = j := h.jobRow.eq hk hid

theorem Setting.eq_deployment (h : Setting J D db j d) {e : Deployment} (he : e ∈ db.deployments)
    (hid : e.id = D) : e = d := by
  have hmem : e ∈ db.deployments.filter (fun e => e.id = D) :=
    List.mem_filter.2 ⟨he, by simpa using hid⟩
  rw [h.deployment] at hmem
  exact List.mem_singleton.1 hmem

/-- A write to the job table that changes the deployment of no job besides `J`. -/
theorem Setting.setJobs (h : Setting J D db j d) (w : WorkflowJob → Bool)
    (f : WorkflowJob → WorkflowJob) (hid : ∀ k, (f k).id = k.id)
    (hw : ∀ k, w k = true → k.id = J ∨ (f k).deploymentId = k.deploymentId) :
    Setting J D (db.updateJobs w f) (if w j then f j else j) d := by
  refine ⟨h.jobRow.setJobs w f hid, h.deployment, fun k hk hD => ?_, h.service, h.project⟩
  obtain ⟨k₀, hk₀, rfl⟩ := Sql.mem_update.1 hk
  by_cases hwk : w k₀ = true
  · rw [if_pos hwk] at hD ⊢
    rw [hid]
    rcases hw k₀ hwk with hJ | hsame
    · exact hJ
    · exact h.alone k₀ hk₀ (hsame ▸ hD)
  · rw [if_neg hwk] at hD ⊢
    exact h.alone k₀ hk₀ hD

/-- A write to the deployment table that moves no deployment to another service or project. -/
theorem Setting.setDeployments (h : Setting J D db j d) (w : Deployment → Bool)
    (f : Deployment → Deployment)
    (hf : ∀ e, (f e).id = e.id ∧ (f e).serviceId = e.serviceId ∧ (f e).projectId = e.projectId) :
    Setting J D (db.updateDeployments w f) j (if w d then f d else d) := by
  have hrow : (if w d then f d else d).serviceId = d.serviceId ∧
      (if w d then f d else d).projectId = d.projectId := by
    split_ifs
    · exact (hf d).2
    · exact ⟨rfl, rfl⟩
  refine ⟨h.job, ?_, h.alone, ?_, ?_⟩
  · show (Sql.update w f db.deployments).filter _ = _
    rw [Sql.filter_update fun e _ => by rw [(hf e).1], h.deployment]
    rfl
  · rw [hrow.1, hrow.2]
    exact h.service
  · rw [hrow.2]
    exact h.project

theorem Setting.setServices (h : Setting J D db j d) (w : Service → Bool) (f : Service → Service)
    (hf : ∀ s, (f s).id = s.id ∧ (f s).projectId = s.projectId ∧
      isDeletionStatus (f s).status = false) :
    Setting J D (db.updateServices w f) j d := by
  refine ⟨h.job, h.deployment, h.alone, ⟨?_, fun s hs hid => ?_⟩, h.project⟩
  · obtain ⟨⟨s, hs, hid⟩, -⟩ := h.service
    refine ⟨_, Sql.mem_update.2 ⟨s, hs, rfl⟩, ?_⟩
    split_ifs
    · rw [(hf s).1, hid]
    · exact hid
  · obtain ⟨s₀, hs₀, rfl⟩ := Sql.mem_update.1 hs
    by_cases hw : w s₀ = true
    · rw [if_pos hw] at hid ⊢
      rw [(hf s₀).2.1]
      exact ⟨(h.service.2 s₀ hs₀ ((hf s₀).1 ▸ hid)).1, (hf s₀).2.2⟩
    · rw [if_neg hw] at hid ⊢
      exact h.service.2 s₀ hs₀ hid

theorem inStatus_id {status : String} {e : Deployment} (h : inStatus D status e = true) :
    e.id = D := by
  unfold inStatus at h
  simp only [Bool.and_eq_true, decide_eq_true_eq] at h
  exact h.1

theorem Setting.leased (h : Setting J D db j d) {lease : WorkflowLease} (hJ : lease.jobID = J)
    (haffected : Sql.affected (WorkflowJob.leasedTo lease) db.jobs = 1) :
    j.leasedTo lease = true := h.jobRow.leased hJ haffected

theorem Setting.affected_inStatus (h : Setting J D db j d) (status : String) :
    Sql.affected (inStatus D status) db.deployments = if inStatus D status d then 1 else 0 :=
  Sql.affected_of_filter h.deployment fun e he => by simpa using inStatus_id he

end Setting

end RaibitServer.Builder
