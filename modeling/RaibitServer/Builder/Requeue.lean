import RaibitServer.Builder.Runs

/-!
# Builder.Requeue — when a claimed build can be started

`FailWorkflowJob` puts a job back into the queue, and a claim takes over a job whose lease ran out; but
`StartBuild` wants a queued deployment, and no call puts a deployment back.  So an attempt can start
its build exactly as long as no attempt before it has started one or recorded a failure.
-/

namespace RaibitServer.Builder

open Lib Text
open Recovery (JobStatus)

/-! ### What a call does to the two rows -/

/-- The job can still be claimed or written. -/
def WorkflowJob.Active (j : WorkflowJob) : Prop := j.status = .queued ∨ j.status = .running

/-- A move of job and deployment; `touched` says whether it wrote the deployment's status. -/
structure Moves (touched : Bool) (j : WorkflowJob) (d : Deployment) (j' : WorkflowJob)
    (d' : Deployment) : Prop where
  active : j'.Active → j.Active ∧ (isQueued d'.status = true ↔ isQueued d.status = true ∧ touched = false)
  attempts : j.attempts ≤ j'.attempts
  lease : j'.attempts = j.attempts → j'.status = .running →
    j.status = .running ∧ j'.deploymentId = j.deploymentId

/-- Nothing that matters changes. -/
theorem Moves.same {j j' : WorkflowJob} {d d' : Deployment} (hstatus : j'.status = j.status)
    (hattempts : j'.attempts = j.attempts) (hid : j'.deploymentId = j.deploymentId)
    (hd : d'.status = d.status) : Moves false j d j' d' := by
  refine ⟨fun ha => ⟨?_, by simp [hd]⟩, hattempts.ge, fun _ hr => ⟨hstatus ▸ hr, hid⟩⟩
  unfold WorkflowJob.Active at ha ⊢
  rwa [hstatus] at ha

/-- The job leaves its worker. -/
theorem Moves.released {j j' : WorkflowJob} {d d' : Deployment} (hj : j.status = .running)
    (hattempts : j'.attempts = j.attempts) (hstatus : j'.status ≠ .running)
    (hd : j'.status = .queued → d'.status = d.status) : Moves false j d j' d' := by
  refine ⟨fun ha => ⟨.inr hj, ?_⟩, hattempts.ge, fun _ hr => absurd hr hstatus⟩
  rcases ha with hq | hr
  · simp [hd hq]
  · exact absurd hr hstatus

/-- The deployment leaves the queue. -/
theorem Moves.touched {j : WorkflowJob} {d d' : Deployment} (hd : isQueued d'.status = false) :
    Moves true j d j d' :=
  ⟨fun ha => ⟨ha, by simp [hd]⟩, le_rfl, fun _ hr => ⟨hr, rfl⟩⟩

section Effects

variable {J D : String} {db db' : Database} {j : WorkflowJob} {d : Deployment} {now : Micros}

/-- Whatever the call did, the two rows are still there and moved so. -/
def Carries (J D : String) (touched : Bool) (j : WorkflowJob) (d : Deployment) (db' : Database) : Prop :=
  ∃ j' d', Setting J D db' j' d' ∧ Moves touched j d j' d'

theorem renew_carries (hs : Setting J D db j d) {lease : WorkflowLease} (hJ : lease.jobID = J)
    (h : renewWorkflowJobLease db lease now = .ok db') : Carries J D false j d db' := by
  obtain ⟨-, rfl⟩ := renewWorkflowJobLease_ok h
  refine ⟨_, d, hs.setJobs _ _ (fun k => rfl) fun k hk => .inl ((leasedTo_iff.1 hk).1.trans hJ), ?_⟩
  refine Moves.same ?_ ?_ ?_ rfl <;> split_ifs <;> rfl

theorem updateWorkflowJob_carries (hs : Setting J D db j d) {lease : WorkflowLease}
    (hJ : lease.jobID = J) {mutate : WorkflowJob → JobStatus × Option Micros}
    (hmutate : ∀ k, (mutate k).1 ≠ .running)
    (h : updateWorkflowJob db lease now mutate = .ok db') : Carries J D false j d db' := by
  obtain ⟨job, -, -, haffected, rfl⟩ := updateWorkflowJob_ok h
  have hleased := hs.leased hJ haffected
  refine ⟨_, d, hs.setJobs _ _ (fun k => rfl) fun k hk => .inl ((leasedTo_iff.1 hk).1.trans hJ), ?_⟩
  rw [if_pos hleased]
  exact Moves.released (leasedTo_iff.1 hleased).2.1 rfl (hmutate job) fun _ => rfl

theorem startBuild_carries (hs : Setting J D db j d) {i : BuildStartInput} (hD : i.deploymentID = D)
    (h : startBuild db i = .ok db') : Carries J D true j d db' := by
  obtain ⟨-, haffected, rfl⟩ := startBuild_ok h
  subst hD
  have hd : inStatus i.deploymentID "QUEUED" d = true := by
    rw [hs.affected_inStatus] at haffected
    by_contra hne
    rw [if_neg hne] at haffected
    exact absurd haffected (by decide)
  refine ⟨j, _, hs.setDeployments _ _ fun e => ⟨rfl, rfl, rfl⟩, ?_⟩
  rw [if_pos hd]
  exact Moves.touched (show isQueued "BUILDING" = false by decide)

/-- Whether an update writes the status. -/
def DeploymentUpdate.touches : DeploymentUpdate → Bool
  | .buildFailed _ _ _ => true
  | .commit _ => false

theorem updateDeployment_carries (hs : Setting J D db j d) {lease : WorkflowLease}
    {updates : DeploymentUpdate} (h : updateDeploymentForLease db lease D updates now = .ok db') :
    Carries J D updates.touches j d db' := by
  obtain ⟨-, u, hu, rfl⟩ := updateDeploymentForLease_ok h
  have htouches : u.touches = updates.touches := by
    cases updates with
    | buildFailed code message at_ =>
      obtain rfl := Except.ok.inj hu
      rfl
    | commit sha =>
      obtain ⟨commit, -, rfl⟩ := fencedUpdate_commit hu
      rfl
  refine ⟨j, _, hs.setDeployments _ _ fun e => by cases u <;> exact ⟨rfl, rfl, rfl⟩, ?_⟩
  rw [if_pos (by simpa using hs.deployment_id.2), ← htouches]
  cases u with
  | buildFailed code message at_ => exact Moves.touched (show isQueued "BUILD_FAILED" = false by decide)
  | commit sha => exact Moves.same rfl rfl rfl rfl

theorem publish_carries (hs : Setting J D db j d) {i : ImagePublicationInput}
    (hJ : i.lease.jobID = J) (h : publishImageReady db i = .ok db') : Carries J D false j d db' := by
  obtain ⟨job, -, -, haffected, rfl⟩ := publishImageReady_ok h
  have hleased := hs.leased hJ haffected
  have hready : isDeletionStatus "image-ready" = false := by decide
  have hs' := ((hs.setDeployments (inStatus i.deploymentID "BUILDING") (setImageReady i)
    fun e => ⟨rfl, rfl, rfl⟩).setServices (fun s => s.id = i.serviceID) (setServiceImage i)
      fun s => ⟨rfl, rfl, hready⟩).setJobs (WorkflowJob.leasedTo i.lease)
        (releaseJob i.buildFinishedAt job (.succeeded, none)) (fun k => rfl)
          fun k hk => .inl ((leasedTo_iff.1 hk).1.trans hJ)
  rw [if_pos hleased] at hs'
  refine ⟨_, _, hs', ?_⟩
  exact Moves.released (leasedTo_iff.1 hleased).2.1 rfl (by simp [releaseJob]) (by simp [releaseJob])

/-! ### Claims -/

variable {lease : Micros} {skipped : List String}

theorem mem_exhausted {r : WorkflowJob} (h : r ∈ db.exhausted now lease skipped) :
    r ∈ db.jobs ∧ r.exhausted now lease = true := by
  unfold Database.exhausted at h
  obtain ⟨hr, hcond⟩ := List.mem_filter.1 ((List.mem_insertionSort _).1 (List.mem_of_mem_take h))
  exact ⟨hr, (Bool.and_eq_true_iff.1 hcond).1⟩

theorem mem_candidate {c : WorkflowJob} (h : db.candidate now lease skipped = some c) :
    c ∈ db.jobs ∧ c.claimable db now lease = true := by
  unfold Database.candidate at h
  obtain ⟨hc, hcond⟩ := List.mem_filter.1 ((List.mem_insertionSort _).1 (List.mem_of_mem_head? h))
  exact ⟨hc, (Bool.and_eq_true_iff.1 hcond).1⟩

theorem claimable_cases (h : j.claimable db now lease = true) :
    isBuilderWorkflowType j.type = true ∧
      (j.status = .queued ∨ j.status = .running ∧ j.attempts < j.attemptLimit) := by
  unfold WorkflowJob.claimable at h
  simp only [Bool.and_eq_true, Bool.or_eq_true, decide_eq_true_eq] at h
  obtain ⟨⟨htype, hstatus⟩, -⟩ := h
  refine ⟨htype, ?_⟩
  rcases hstatus with hq | hr
  · exact .inl hq.1.1
  · exact .inr ⟨hr.1.1, hr.2⟩

theorem exhausted_cases (h : j.exhausted now lease = true) :
    j.status = .running ∧ j.attemptLimit ≤ j.attempts := by
  unfold WorkflowJob.exhausted at h
  simp only [Bool.and_eq_true, decide_eq_true_eq] at h
  exact ⟨h.1.1.2, h.2⟩

/-- A job is not claimed and reaped at once. -/
theorem not_exhausted_of_claimable (h : j.claimable db now lease = true) : ¬ j.exhausted now lease = true := by
  intro hexhausted
  obtain ⟨hrunning, hlimit⟩ := exhausted_cases hexhausted
  rcases (claimable_cases h).2 with hq | ⟨-, hlt⟩
  · rw [hrunning] at hq
    cases hq
  · omega

theorem JobRow.exhausted (h : JobRow J db j)
    (hreaped : ((db.exhausted now lease skipped).any fun r => r.id = j.id) = true) : j.exhausted now lease = true := by
  obtain ⟨r, hr, hid⟩ := List.any_eq_true.1 hreaped
  obtain ⟨hmem, hexhausted⟩ := mem_exhausted hr
  rwa [h.eq hmem ((of_decide_eq_true hid).trans h.mem.2)] at hexhausted

/-- Reaping fails the job, exhausted, or leaves both rows as they are. -/
theorem reap_setting (hs : Setting J D db j d) (now lease : Micros) (skipped : List String) :
    (j.exhausted now lease = true ∧
      ∃ d', Setting J D (reapExhaustedWorkflowJobs db now lease skipped) (reapJob now j) d') ∨
    Setting J D (reapExhaustedWorkflowJobs db now lease skipped) j d := by
  have hs' := (hs.setJobs (fun k => (db.exhausted now lease skipped).any fun r => r.id = k.id)
    (reapJob now) (fun k => rfl) fun k _ => .inr rfl).setDeployments
      (fun d => ((db.exhausted now lease skipped).any fun r => r.deploymentId = some d.id) &&
        ["QUEUED", "BUILDING"].contains (upper d.status)) (reapDeployment now)
      fun e => ⟨rfl, rfl, rfl⟩
  by_cases hreaped : ((db.exhausted now lease skipped).any fun r => r.id = j.id) = true
  · rw [if_pos hreaped] at hs'
    exact .inl ⟨hs.jobRow.exhausted hreaped, _, hs'⟩
  · have hkept : ((db.exhausted now lease skipped).any fun r => r.deploymentId = some d.id) = false := by
      -- only `J` is about the deployment, and it is not among the reaped
      rw [List.any_eq_false]
      intro r hr hD
      have hDid : r.deploymentId = some D := (of_decide_eq_true hD).trans (by rw [hs.deployment_id.2])
      have hid := hs.alone r (mem_exhausted hr).1 hDid
      exact hreaped (List.any_eq_true.2 ⟨r, hr, by simpa using hid.trans hs.job_id.2.symm⟩)
    rw [if_neg hreaped, if_neg (by rw [hkept]; simp)] at hs'
    exact .inr hs'

/-- The claim of `J` itself. -/
theorem claim_job (hs : Setting J D db j d) {o : ClaimOptions} {job : WorkflowJob}
    (h : claimNextWorkflowJob db o now = (db', some job)) (hid : job.id = J) :
    job = lockJob now o.worker j ∧ isBuilderWorkflowType j.type = true ∧ j.Active ∧
      Setting J D db' job d := by
  unfold claimNextWorkflowJob at h
  split at h
  · cases (Prod.mk.inj h).2
  · next c hc =>
    obtain ⟨hdb, hjob⟩ := Prod.mk.inj h
    obtain rfl := Option.some.inj hjob
    obtain ⟨hmem, hclaimable⟩ := mem_candidate hc
    obtain rfl := hs.eq_job hmem hid
    obtain ⟨htype, hcases⟩ := claimable_cases hclaimable
    refine ⟨rfl, htype, ?_, ?_⟩
    · rcases hcases with hq | hr
      · exact .inl hq
      · exact .inr hr.1
    · rcases reap_setting hs now o.lease o.skipped with ⟨hexhausted, -⟩ | hreaped
      · exact absurd hexhausted (not_exhausted_of_claimable hclaimable)
      · have hs' := hreaped.setJobs (fun k => k.id = c.id) (lockJob now o.worker) (fun k => rfl)
          fun k _ => .inr rfl
        rw [if_pos (by simp), hdb] at hs'
        exact hs'

theorem claim_carries (hs : Setting J D db j d) {o : ClaimOptions} {r : Option WorkflowJob}
    (h : claimNextWorkflowJob db o now = (db', r)) : Carries J D false j d db' := by
  by_cases hclaimed : ∃ job ∈ r, job.id = J
  · obtain ⟨job, rfl, hid⟩ := hclaimed
    obtain ⟨rfl, -, hactive, hs'⟩ := claim_job hs h hid
    refine ⟨_, d, hs', fun _ => ⟨hactive, by simp⟩, Nat.le_succ _, fun hsame => ?_⟩
    exact absurd hsame (Nat.succ_ne_self _)
  · -- the claim is of another job, or of none
    have hreaped : Carries J D false j d (reapExhaustedWorkflowJobs db now o.lease o.skipped) := by
      rcases reap_setting hs now o.lease o.skipped with ⟨hexhausted, d', hs'⟩ | hs'
      · exact ⟨_, d', hs', .released (exhausted_cases hexhausted).1 rfl (by simp [reapJob])
          (by simp [reapJob])⟩
      · exact ⟨j, d, hs', .same rfl rfl rfl rfl⟩
    unfold claimNextWorkflowJob at h
    split at h
    · obtain ⟨rfl, -⟩ := Prod.mk.inj h
      exact hreaped
    · next c hc =>
      obtain ⟨rfl, rfl⟩ := Prod.mk.inj h
      obtain ⟨j', d', hs', hmoves⟩ := hreaped
      have hother : ¬ j'.id = c.id := fun heq =>
        hclaimed ⟨_, rfl, (heq.symm.trans hs'.job_id.2 : c.id = J)⟩
      have hfinal := hs'.setJobs (fun k => k.id = c.id) (lockJob now o.worker) (fun k => rfl)
        fun k _ => .inr rfl
      rw [if_neg (by simpa using hother)] at hfinal
      exact ⟨j', d', hfinal, hmoves⟩

end Effects

/-! ### Runs -/

section Runs

variable {J D : String} {db db' : Database} {j : WorkflowJob} {d : Deployment}

theorem exec_carries (hs : Setting J D db j d) {call : Call} {now : Micros}
    {r : Option WorkflowJob} (about : call.concerns J D = true) (h : exec db now call = .ok (db', r)) :
    Carries J D (Event.returned call now r).touches j d db' := by
  cases call with
  | claim o => exact claim_carries hs (Except.ok.inj h)
  | renew lease => exact renew_carries hs (by simpa [Call.concerns] using about) (ok_of_map h)
  | startBuild i =>
    obtain ⟨-, hD⟩ := Bool.and_eq_true_iff.1 about
    exact startBuild_carries hs (of_decide_eq_true hD) (ok_of_map h)
  | updateDeployment lease deploymentID updates =>
    obtain ⟨-, hD⟩ := Bool.and_eq_true_iff.1 about
    obtain rfl : deploymentID = D := of_decide_eq_true hD
    have hcarries := updateDeployment_carries hs (ok_of_map h)
    cases updates <;> exact hcarries
  | publish i =>
    obtain ⟨hJ, -⟩ := Bool.and_eq_true_iff.1 about
    exact publish_carries hs (of_decide_eq_true hJ) (ok_of_map h)
  | complete lease =>
    exact updateWorkflowJob_carries hs (by simpa [Call.concerns] using about) (by simp) (ok_of_map h)
  | fail lease =>
    refine updateWorkflowJob_carries hs (by simpa [Call.concerns] using about) (fun k => ?_) (ok_of_map h)
    split_ifs <;> simp
  | cancel lease =>
    exact updateWorkflowJob_carries hs (by simpa [Call.concerns] using about) (by simp) (ok_of_map h)

theorem step_carries (hs : Setting J D db j d) {e : Event} (h : Step J D db e db') :
    Carries J D e.touches j d db' := by
  cases h with
  | returned about h => exact exec_carries hs about h
  | refused about h => exact ⟨j, d, hs, .same rfl rfl rfl rfl⟩
  | environment h => exact ⟨j, d, h j d hs, .same rfl rfl rfl rfl⟩

/-- While the job can be written, its deployment is queued if and only if no status was written. -/
def QueuedInv (J D : String) (es : List Event) (db : Database) : Prop :=
  ∃ j d, Setting J D db j d ∧
    (j.Active → (isQueued d.status = true ↔ ∀ e ∈ es, e.touches = false))

theorem step_queuedInv {es : List Event} {e : Event} (hi : QueuedInv J D es db)
    (h : Step J D db e db') : QueuedInv J D (es ++ [e]) db' := by
  obtain ⟨j, d, hs, hqueued⟩ := hi
  obtain ⟨j', d', hs', hmoves⟩ := step_carries hs h
  refine ⟨j', d', hs', fun hactive => ?_⟩
  obtain ⟨hactive, hiff⟩ := hmoves.active hactive
  rw [hiff, hqueued hactive, List.forall_mem_append, List.forall_mem_singleton]

theorem run_queuedInv {db₀ : Database} {es : List Event} (requested : Requested J D db₀)
    (run : Run (Step J D) db₀ es db) : QueuedInv J D es db := by
  obtain ⟨j, d, hs, -, hqueued⟩ := requested
  exact run.history (fun _ _ _ _ => step_queuedInv) ⟨j, d, hs, fun _ => by simp [hqueued]⟩

/-- A job that is still, or again, under a lease of attempt `j.attempts` was there all the time. -/
theorem run_lease {es : List Event} (hs : Setting J D db j d) (run : Run (Step J D) db es db') :
    ∃ j' d', Setting J D db' j' d' ∧ j.attempts ≤ j'.attempts ∧
      (j'.attempts = j.attempts → j'.status = .running →
        j.status = .running ∧ j'.deploymentId = j.deploymentId) := by
  refine run.invariant (I := fun u => ∃ j' d', Setting J D u j' d' ∧ j.attempts ≤ j'.attempts ∧
    (j'.attempts = j.attempts → j'.status = .running →
      j.status = .running ∧ j'.deploymentId = j.deploymentId)) ?_
    ⟨j, d, hs, le_rfl, fun _ hr => ⟨hr, rfl⟩⟩
  rintro u e u' ⟨j₁, d₁, hs₁, hle₁, hlease₁⟩ hstep
  obtain ⟨j₂, d₂, hs₂, hmoves⟩ := step_carries hs₁ hstep
  refine ⟨j₂, d₂, hs₂, hle₁.trans hmoves.attempts, fun hsame hrunning => ?_⟩
  have hsame₁ : j₁.attempts = j.attempts := le_antisymm (hsame ▸ hmoves.attempts) hle₁
  obtain ⟨hrunning₁, hid⟩ := hmoves.lease (hsame.trans hsame₁.symm) hrunning
  obtain ⟨hrunning₀, hid₀⟩ := hlease₁ hsame₁ hrunning₁
  exact ⟨hrunning₀, hid.trans hid₀⟩

/-! ### Starting a build -/

theorem startBuild_facts (hs : Setting J D db j d) {i : BuildStartInput} (hJ : i.lease.jobID = J)
    (hD : i.deploymentID = D) (h : startBuild db i = .ok db') :
    j.heldBy i.lease = true ∧ j.deploymentId = some D ∧ isQueued d.status = true := by
  obtain ⟨⟨job, hlock⟩, haffected, -⟩ := startBuild_ok h
  obtain ⟨⟨hjob, hid, hname, hheld⟩, ⟨d', hd', hdid, hstatus⟩, -⟩ := lockBuild_ok hlock
  obtain rfl := hs.eq_job hjob (hid.trans hJ)
  -- the status that was locked is that of the row `d`
  obtain rfl := hs.eq_deployment hd' (hdid.trans hD)
  have hstatement : upper (btrim d'.status) = "QUEUED" := by
    rw [hD, hs.affected_inStatus] at haffected
    by_contra hne
    rw [if_neg (by simp [inStatus, hne])] at haffected
    exact absurd haffected (by decide)
  refine ⟨hheld, hname.trans (by rw [hD]), ?_⟩
  unfold isQueued
  rw [hstatus, hstatement]
  rfl

/-- The target of a build is found, and is not being deleted. -/
theorem Setting.buildTarget (hs : Setting J D db j d) : ∃ service project,
    db.buildTarget D d.serviceId d.projectId = some (d.status, service, project) ∧
      isDeletionStatus service = false ∧ isDeletionStatus project = false := by
  have hdep : db.deployments.find? (fun e => e.id = D && e.serviceId = d.serviceId &&
      e.projectId = d.projectId) = some d := by
    refine Table.find?_unique hs.deployment_id.1 (by simp [hs.deployment_id.2]) fun e he hcond => ?_
    simp only [Bool.and_eq_true, decide_eq_true_eq] at hcond
    exact hs.eq_deployment he hcond.1.1
  obtain ⟨⟨s₀, hs₀, hs₀id⟩, hservice⟩ := hs.service
  obtain ⟨⟨p₀, hp₀, hp₀id⟩, hproject⟩ := hs.project
  obtain ⟨s, hfind⟩ : ∃ s, db.services.find? (fun s => s.id = d.serviceId &&
      s.projectId = d.projectId) = some s :=
    Option.isSome_iff_exists.1 (List.find?_isSome.2
      ⟨s₀, hs₀, by simp [hs₀id, (hservice s₀ hs₀ hs₀id).1]⟩)
  obtain ⟨p, hpfind⟩ : ∃ p, db.projects.find? (fun p => p.id = d.projectId) = some p :=
    Option.isSome_iff_exists.1 (List.find?_isSome.2 ⟨p₀, hp₀, by simp [hp₀id]⟩)
  have hsid := List.find?_some hfind
  simp only [Bool.and_eq_true, decide_eq_true_eq] at hsid
  refine ⟨s.status, p.status, ?_, (hservice s (List.mem_of_find?_eq_some hfind) hsid.1).2,
    hproject p (List.mem_of_find?_eq_some hpfind) (by simpa using List.find?_some hpfind)⟩
  unfold Database.buildTarget
  rw [hdep, hfind, hpfind]
  rfl

theorem startBuild_succeeds (hs : Setting J D db j d) {lease : WorkflowLease}
    (hJ : lease.jobID = J) (htype : isBuilderWorkflowType j.type = true)
    (hheld : j.heldBy lease = true) (hid : j.deploymentId = some D)
    (hqueued : isQueued d.status = true) (now : Micros) :
    ∃ db', startBuild db ⟨lease, D, d.serviceId, d.projectId, now⟩ = .ok db' := by
  unfold isQueued at hqueued
  obtain ⟨hfold, hstatement⟩ := Bool.and_eq_true_iff.1 hqueued
  obtain ⟨service, project, htarget, hservice, hproject⟩ := hs.buildTarget
  have hjob : db.jobs.find? (fun k => k.id = lease.jobID && isBuilderWorkflowType k.type &&
      k.deploymentId = some D) = some j := by
    refine Table.find?_unique hs.job_id.1 (by simp [hJ, hs.job_id.2, htype, hid]) fun k hk hcond => ?_
    simp only [Bool.and_eq_true, decide_eq_true_eq] at hcond
    exact hs.eq_job hk (hcond.1.1.trans hJ)
  have hlock : lockBuild db lease D d.serviceId d.projectId "build start target" "QUEUED" = .ok j := by
    unfold lockBuild
    rw [hjob, htarget]
    simp [orThrow, throwIf, bind, Except.bind, pure, Except.pure, hheld, hfold, hservice, hproject]
  have haffected : Sql.affected (inStatus D "QUEUED") db.deployments = 1 := by
    rw [hs.affected_inStatus]
    refine if_pos ?_
    unfold inStatus
    rw [hs.deployment_id.2, hstatement]
    simp
  refine ⟨db.updateDeployments (inStatus D "QUEUED") (setBuilding now), ?_⟩
  unfold startBuild
  refine bind_ok.2 ⟨j, hlock, bind_ok.2 ⟨(), throwIf_ok.2 (not_not.2 haffected), rfl⟩⟩

/-- Once a status was written, no continuation starts a build of the deployment. -/
theorem canStart_untouched {es : List Event} (hi : QueuedInv J D es db) {lease : WorkflowLease}
    (hJ : lease.jobID = J) (h : CanStart J D db lease) : ∀ e ∈ es, e.touches = false := by
  obtain ⟨fs, u, run, i, u', rfl, hD, hstart⟩ := h
  obtain ⟨j, d, hs, hqueued⟩ : QueuedInv J D (es ++ fs) u := by
    refine run.history (I := fun fs u => QueuedInv J D (es ++ fs) u) (fun gs s e t hgs hstep => ?_)
      (by simpa using hi)
    rw [← List.append_assoc]
    exact step_queuedInv hgs hstep
  obtain ⟨hheld, -, hd⟩ := startBuild_facts hs hJ hD hstart
  intro e he
  exact (hqueued (.inr (heldBy_iff.1 hheld).1)).1 hd e (List.mem_append_left _ he)

/-- **Starting a claimed build**: in every run on a requested build, a claim of the job can be followed
by a start of the build under it exactly if no earlier call has started the build or recorded its
failure, and the job still names the deployment. -/
theorem claimed_canStart_iff {db₀ : Database} {es : List Event} {o : ClaimOptions} {now : Micros}
    {job : WorkflowJob} (requested : Requested J D db₀) (run : Run (Step J D) db₀ es db)
    (claim : claimNextWorkflowJob db o now = (db', some job)) (hid : job.id = J) :
    CanStart J D db' job.lease ↔
      (∀ e ∈ es, e.touches = false) ∧ job.deploymentId = some D := by
  obtain ⟨j, d, hs, hqueued⟩ := run_queuedInv requested run
  obtain ⟨hjob, htype, hactive, hs'⟩ := claim_job hs claim hid
  constructor
  · intro h
    have hclaimed : QueuedInv J D (es ++ [.returned (.claim o) now (some job)]) db' :=
      step_queuedInv ⟨j, d, hs, hqueued⟩ (.returned rfl (congrArg Except.ok claim))
    refine ⟨fun e he => canStart_untouched hclaimed hid h e (List.mem_append_left _ he), ?_⟩
    -- the lease under which the build starts is still the one of the claim
    obtain ⟨fs, u, run', i, u', hlease, hD, hstart⟩ := h
    obtain ⟨j', d', hsu, -, hkept⟩ := run_lease hs' run'
    obtain ⟨hheld, hname, -⟩ := startBuild_facts hsu (by rw [hlease]; exact hid) hD hstart
    obtain ⟨hrunning, -, hattempt⟩ := heldBy_iff.1 hheld
    have hattempts : j'.attempts = job.attempts := by
      rw [hattempt, hlease]
      rfl
    rw [← (hkept hattempts hrunning).2, hname]
  · rintro ⟨huntouched, hname⟩
    have hheld : job.heldBy job.lease = true := by
      rw [hjob]
      simp [WorkflowJob.heldBy, WorkflowJob.lease, lockJob]
    obtain ⟨u', hstart⟩ := startBuild_succeeds hs' hid (by rw [hjob]; exact htype) hheld hname
      ((hqueued hactive).2 huntouched) now
    exact ⟨[], db', .nil, _, u', rfl, rfl, hstart⟩

end Runs

/-! ### A sample build -/

/-- One call and its outcome; `none` if it is about another job. -/
def perform (J D : String) (db : Database) (call : Call × Micros) : Option (Event × Database) :=
  if call.1.concerns J D then
    match exec db call.2 call.1 with
    | .ok (db', job) => some (.returned call.1 call.2 job, db')
    | .error e => some (.refused call.1 call.2 e, db)
  else none

theorem step_of_perform (J D : String) (db : Database) (call : Call × Micros) (e : Event)
    (db' : Database) (h : perform J D db call = some (e, db')) : Step J D db e db' := by
  unfold perform at h
  split_ifs at h with habout
  split at h <;> rename_i hexec <;> obtain ⟨rfl, rfl⟩ := Prod.mk.inj (Option.some.inj h)
  · exact .returned habout hexec
  · exact .refused habout hexec

namespace Sample

def job : WorkflowJob :=
  { id := "job_1", type := "build-and-deploy", status := .queued, targetType := "deployment",
    targetId := "dep_1", payloadDeploymentId := some "dep_1", attempts := 0, maxAttempts := 3,
    runAfter := 0, lockedBy := none, lockedAt := none, createdAt := 0, updatedAt := 0 }

def deployment : Deployment :=
  { id := "dep_1", serviceId := "svc_1", projectId := "prj_1", status := "QUEUED", commitSha := none,
    commitHash := none, imageUrl := none, imageDigest := none, buildStartedAt := none,
    buildFinishedAt := none, errorCode := none, errorMessage := none, updatedAt := 0 }

def database : Database :=
  { jobs := [job], deployments := [deployment],
    services := [⟨"svc_1", "prj_1", "created", none, none, 0⟩], projects := [⟨"prj_1", "active"⟩] }

theorem database_requested : Requested "job_1" "dep_1" database := by
  refine ⟨job, deployment, ⟨rfl, rfl, ?_, ?_, ?_⟩, by decide, by decide⟩
  · intro k hk _
    obtain rfl := List.mem_singleton.1 hk
    rfl
  · refine ⟨⟨_, List.mem_singleton_self _, rfl⟩, fun s hs _ => ?_⟩
    obtain rfl := List.mem_singleton.1 hs
    exact ⟨rfl, by decide⟩
  · refine ⟨⟨_, List.mem_singleton_self _, rfl⟩, fun p hp _ => ?_⟩
    obtain rfl := List.mem_singleton.1 hp
    decide

def options (worker : String) : ClaimOptions := ⟨worker, 300, []⟩

/-- The first attempt is claimed at second 1. -/
def first : Call × Micros := (.claim (options "w1"), 1000000)

/-- Its worker starts the build a second later. -/
def start : Call × Micros :=
  (.startBuild ⟨⟨"job_1", "w1", 1⟩, "dep_1", "svc_1", "prj_1", 2000000⟩, 2000000)

/-- Six minutes later another worker claims the job. -/
def second : Micros := 361000000

/-- What the second worker is given, after some calls of the first. -/
theorem exists_second {calls : List (Call × Micros)} {p : List Event → Prop} {q : WorkflowJob → Prop}
    [DecidablePred p] [DecidablePred q]
    (h : (trace (perform "job_1" "dep_1") database calls).any fun r =>
      p r.1 ∧ (claimNextWorkflowJob r.2 (options "w2") second).2.any fun job => q job) :
    ∃ es db db' job, Run (Step "job_1" "dep_1") database es db ∧ p es ∧
      claimNextWorkflowJob db (options "w2") second = (db', some job) ∧ q job := by
  obtain ⟨es, db, hrun, hcheck⟩ := Run.exists_of_trace (step_of_perform "job_1" "dep_1") database calls
    (fun es db => p es ∧ (claimNextWorkflowJob db (options "w2") second).2.any fun job => q job) h
  obtain ⟨hes, hclaim⟩ := of_decide_eq_true hcheck
  obtain ⟨job, hjob, hfacts⟩ := (Option.any_eq_true _ _).1 hclaim
  exact ⟨es, db, _, job, hrun, hes, Prod.ext rfl hjob, of_decide_eq_true hfacts⟩

end Sample

open Sample in
/-- Attempt 1 crashes before it starts the build; attempt 2 can. -/
theorem claimed_canStart_second : ∃ es db db' job,
    Run (Step "job_1" "dep_1") database es db ∧
      claimNextWorkflowJob db (options "w2") second = (db', some job) ∧
      job.id = "job_1" ∧ job.attempts = 2 ∧ CanStart "job_1" "dep_1" db' job.lease := by
  obtain ⟨es, db, db', job, hrun, hes, hclaim, hid, hattempts, hname⟩ := @exists_second [first]
    (fun es => ∀ e ∈ es, e.touches = false)
    (fun job => job.id = "job_1" ∧ job.attempts = 2 ∧ job.deploymentId = some "dep_1") _ _ (by decide +kernel)
  exact ⟨es, db, db', job, hrun, hclaim, hid, hattempts,
    (claimed_canStart_iff database_requested hrun hclaim hid).2 ⟨hes, hname⟩⟩

open Sample in
/-- Attempt 1 starts the build and crashes.  Its lease runs out and attempt 2, of 3 allowed, is
claimed; but the deployment is BUILDING, and no run starts the build under the new lease. -/
theorem crashed_build_stuck : ∃ es db db' job,
    Requested "job_1" "dep_1" database ∧ Run (Step "job_1" "dep_1") database es db ∧
      claimNextWorkflowJob db (options "w2") second = (db', some job) ∧
      job.id = "job_1" ∧ job.attempts = 2 ∧ job.attemptLimit = 3 ∧
      job.deploymentId = some "dep_1" ∧ ¬ CanStart "job_1" "dep_1" db' job.lease := by
  obtain ⟨es, db, db', job, hrun, ⟨e, he, htouches⟩, hclaim, hid, hattempts, hlimit, hname⟩ :=
    @exists_second [first, start] (fun es => ∃ e ∈ es, e.touches = true)
      (fun job => job.id = "job_1" ∧ job.attempts = 2 ∧ job.attemptLimit = 3 ∧ job.deploymentId = some "dep_1") _ _
      (by decide +kernel)
  refine ⟨es, db, db', job, database_requested, hrun, hclaim, hid, hattempts, hlimit, hname, fun hstart => ?_⟩
  have hstep : Step "job_1" "dep_1" db (.returned (.claim (options "w2")) second (some job)) db' :=
    .returned rfl (congrArg Except.ok hclaim)
  have hinv := step_queuedInv (run_queuedInv database_requested hrun) hstep
  rw [canStart_untouched hinv hid hstart e (List.mem_append_left _ he)] at htouches
  cases htouches

end RaibitServer.Builder
