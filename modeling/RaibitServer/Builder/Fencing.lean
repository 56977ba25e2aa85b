import RaibitServer.Builder.Requeue

/-!
# Builder.Fencing — attempts, leases and publications of one job

Every call of every worker, with any lease, name and clock, on a database with any other jobs.  To the
row of a job a call can do four things: nothing, reap it, claim it (which counts `attempts` up), or
write under a lease, which has to present the current `attempts` of a running job.  From these four
`Turn`s everything follows: attempts of successful writes never decrease, the counter stays within the
limit, a publication ends the job, and an ended job is never written again.
-/

namespace RaibitServer.Builder

open Lib Text
open Recovery (JobStatus)

/-! ### Calls on any jobs -/

inductive CallStep : Database → Event → Database → Prop
  | returned {db db' : Database} {call : Call} {now : Micros} {job : Option WorkflowJob}
      (h : exec db now call = .ok (db', job)) : CallStep db (.returned call now job) db'
  | refused {db : Database} {call : Call} {now : Micros} {error : StoreError}
      (h : exec db now call = .error error) : CallStep db (.refused call now error) db

/-- The lease that a call presents. -/
def Call.lease : Call → Option WorkflowLease
  | .claim _ => none
  | .renew lease | .updateDeployment lease _ _ | .complete lease | .fail lease | .cancel lease =>
    some lease
  | .startBuild i => some i.lease
  | .publish i => some i.lease

/-- The attempt of a successful write under a lease of `J`. -/
def Event.fencedAttempt (J : String) : Event → Option Nat
  | .returned call _ _ => (call.lease.filter fun lease => lease.jobID = J).map (·.attempt)
  | _ => none

def Event.publishes (J : String) : Event → Bool
  | .returned (.publish i) _ _ => i.lease.jobID = J
  | _ => false

/-- The job as it is created, whatever else is in the database. -/
def Created (J : String) (db : Database) : Prop :=
  ∃ j, JobRow J db j ∧ j.status = .queued ∧ j.attempts = 0

/-- The job is over. -/
def Ended (J : String) (db : Database) : Prop :=
  ∃ j ∈ db.jobs, j.id = J ∧ (j.status = .succeeded ∨ j.status = .failed ∨ j.status = .cancelled)

/-- The three rows of a publication, changed together. -/
structure Published (i : ImagePublicationInput) (db db' : Database) : Prop where
  deployment : ∃ before d d' after, db.deployments = before ++ d :: after ∧
    d.id = i.deploymentID ∧ upper (btrim d.status) = "BUILDING" ∧
    db'.deployments = before ++ d' :: after ∧ d'.id = i.deploymentID ∧ d'.status = "IMAGE_READY" ∧
    d'.imageUrl = some i.imageURL ∧ d'.imageDigest = some i.imageDigest
  service : (∃ s ∈ db'.services, s.id = i.serviceID) ∧ (∀ s ∈ db'.services, s.id = i.serviceID →
      s.image = some i.imageURL ∧ s.imageUrl = some i.imageURL) ∧
    db'.services.filter (fun s => s.id ≠ i.serviceID) = db.services.filter (fun s => s.id ≠ i.serviceID)
  job : ∃ before j j' after, db.jobs = before ++ j :: after ∧ j.leasedTo i.lease = true ∧
    db'.jobs = before ++ j' :: after ∧ j'.id = i.lease.jobID ∧ j'.status = .succeeded
  projects : db'.projects = db.projects

/-! ### What a call does to the row of a job -/

/-- The label is the attempt, if the row was written under a lease. -/
inductive Turn (j j' : WorkflowJob) : Option Nat → Prop
  | idle (status : j'.status = j.status) (attempts : j'.attempts = j.attempts) : Turn j j' none
  | reaped (running : j.status = .running) (status : j'.status = .failed)
      (attempts : j'.attempts = j.attempts) : Turn j j' none
  | claimed (claimable : j.status = .queued ∨ j.status = .running ∧ j.attempts < j.attemptLimit)
      (status : j'.status = .running) (attempts : j'.attempts = j.attempts + 1) : Turn j j' none
  | written (running : j.status = .running) (status : j'.status = .queued → j.attempts < j.attemptLimit)
      (attempts : j'.attempts = j.attempts) : Turn j j' (some j.attempts)

/-- Whatever the call did, the row of `J` is still there, with its limit, and took the turn. -/
def Turns (J : String) (j : WorkflowJob) (label : Option Nat) (db' : Database) : Prop :=
  ∃ j', JobRow J db' j' ∧ j'.maxAttempts = j.maxAttempts ∧ Turn j j' label

section Turns

variable {J : String} {db db' : Database} {j : WorkflowJob} {now : Micros} {lease : WorkflowLease}

theorem JobRow.idle (h : JobRow J db j) (hjobs : db'.jobs = db.jobs) : Turns J j none db' :=
  ⟨j, by rw [JobRow, hjobs, h], rfl, .idle rfl rfl⟩

/-- The label of a write under a lease. -/
def fence (J : String) (lease : WorkflowLease) : Option Nat :=
  if lease.jobID = J then some lease.attempt else none

theorem fencedAttempt_returned {call : Call} {r : Option WorkflowJob} (hlease : call.lease = some lease) :
    (Event.returned call now r).fencedAttempt J = fence J lease := by
  show (call.lease.filter fun lease => lease.jobID = J).map (·.attempt) = fence J lease
  unfold fence
  rw [hlease]
  by_cases hJ : lease.jobID = J <;> simp [hJ]

/-- A write to the row that the lease names. -/
theorem JobRow.write (h : JobRow J db j) (f : WorkflowJob → WorkflowJob)
    (haffected : Sql.affected (WorkflowJob.leasedTo lease) db.jobs = 1)
    (hf : ∀ k, (f k).id = k.id ∧ (f k).attempts = k.attempts ∧ (f k).maxAttempts = k.maxAttempts)
    (hstatus : lease.jobID = J → (f j).status = .queued → j.attempts < j.attemptLimit) :
    Turns J j (fence J lease) (db.updateJobs (WorkflowJob.leasedTo lease) f) := by
  have hrow := h.setJobs (WorkflowJob.leasedTo lease) f fun k => (hf k).1
  unfold fence
  by_cases hJ : lease.jobID = J
  · have hleased := h.leased hJ haffected
    obtain ⟨-, hrunning, -, hattempt⟩ := leasedTo_iff.1 hleased
    rw [if_pos hleased] at hrow
    rw [if_pos hJ, ← hattempt]
    exact ⟨_, hrow, (hf j).2.2, .written hrunning (hstatus hJ) (hf j).2.1⟩
  · have hother : ¬ j.leasedTo lease = true := fun hleased =>
      hJ ((leasedTo_iff.1 hleased).1.symm.trans h.mem.2)
    rw [if_neg hother] at hrow
    rw [if_neg hJ]
    exact ⟨j, hrow, rfl, .idle rfl rfl⟩

/-- A write elsewhere, under a lease that was checked. -/
theorem JobRow.checked (h : JobRow J db j) (hjobs : db'.jobs = db.jobs) {k : WorkflowJob}
    (hk : k ∈ db.jobs) (hid : k.id = lease.jobID) (hheld : k.heldBy lease = true) :
    Turns J j (fence J lease) db' := by
  have hrow : JobRow J db' j := by rw [JobRow, hjobs, h]
  unfold fence
  by_cases hJ : lease.jobID = J
  · obtain rfl := h.eq hk (hid.trans hJ)
    obtain ⟨hrunning, -, hattempt⟩ := heldBy_iff.1 hheld
    rw [if_pos hJ, ← hattempt]
    refine ⟨k, hrow, rfl, .written hrunning (fun hq => ?_) rfl⟩
    rw [hrunning] at hq
    cases hq
  · rw [if_neg hJ]
    exact ⟨j, hrow, rfl, .idle rfl rfl⟩

theorem renew_turns (h : JobRow J db j) (hok : renewWorkflowJobLease db lease now = .ok db') :
    Turns J j (fence J lease) db' := by
  obtain ⟨haffected, rfl⟩ := renewWorkflowJobLease_ok hok
  refine h.write (renewJob now) haffected (fun k => ⟨rfl, rfl, rfl⟩) fun hJ hq => ?_
  have hrunning := (leasedTo_iff.1 (h.leased hJ haffected)).2.1
  rw [show (renewJob now j).status = j.status from rfl, hrunning] at hq
  cases hq

theorem updateWorkflowJob_turns (h : JobRow J db j)
    {mutate : WorkflowJob → JobStatus × Option Micros}
    (hmutate : ∀ k, (mutate k).1 = .queued → k.attempts < k.attemptLimit)
    (hok : updateWorkflowJob db lease now mutate = .ok db') : Turns J j (fence J lease) db' := by
  obtain ⟨job, hmem, hid, haffected, rfl⟩ := updateWorkflowJob_ok hok
  refine h.write _ haffected (fun k => ⟨rfl, rfl, rfl⟩) fun hJ hq => ?_
  obtain rfl := h.eq hmem (hid.trans hJ)
  exact hmutate job hq

theorem startBuild_turns (h : JobRow J db j) {i : BuildStartInput} (hok : startBuild db i = .ok db') :
    Turns J j (fence J i.lease) db' := by
  obtain ⟨⟨job, hlock⟩, -, rfl⟩ := startBuild_ok hok
  obtain ⟨⟨hmem, hid, -, hheld⟩, -⟩ := lockBuild_ok hlock
  exact h.checked rfl hmem hid hheld

theorem updateDeployment_turns (h : JobRow J db j) {D : String} {updates : DeploymentUpdate}
    (hok : updateDeploymentForLease db lease D updates now = .ok db') :
    Turns J j (fence J lease) db' := by
  obtain ⟨hlease, u, -, rfl⟩ := updateDeploymentForLease_ok hok
  obtain ⟨job, hmem, hid, hheld⟩ := assertWorkflowLeaseLocked_ok hlease
  exact h.checked rfl hmem hid hheld

theorem publish_turns (h : JobRow J db j) {i : ImagePublicationInput}
    (hok : publishImageReady db i = .ok db') : Turns J j (fence J i.lease) db' := by
  obtain ⟨job, -, -, haffected, rfl⟩ := publishImageReady_ok hok
  have hrow : JobRow J ((db.updateDeployments (inStatus i.deploymentID "BUILDING")
    (setImageReady i)).updateServices (fun s => s.id = i.serviceID) (setServiceImage i)) j := h
  refine hrow.write _ haffected (fun k => ⟨rfl, rfl, rfl⟩) fun _ hq => ?_
  cases hq

/-! ### Claims -/

/-- Reaping fails the job, exhausted, or leaves its row. -/
theorem reap_jobRow (h : JobRow J db j) (now lease : Micros) (skipped : List String) :
    (j.exhausted now lease = true ∧
      JobRow J (reapExhaustedWorkflowJobs db now lease skipped) (reapJob now j)) ∨
    JobRow J (reapExhaustedWorkflowJobs db now lease skipped) j := by
  have hrow := h.setJobs (fun k => (db.exhausted now lease skipped).any fun r => r.id = k.id)
    (reapJob now) fun k => rfl
  by_cases hreaped : ((db.exhausted now lease skipped).any fun r => r.id = j.id) = true
  · rw [if_pos hreaped] at hrow
    exact .inl ⟨h.exhausted hreaped, hrow⟩
  · rw [if_neg hreaped] at hrow
    exact .inr hrow

theorem claim_turns (h : JobRow J db j) {o : ClaimOptions} {r : Option WorkflowJob}
    (hok : claimNextWorkflowJob db o now = (db', r)) : Turns J j none db' := by
  have hreap := reap_jobRow h now o.lease o.skipped
  unfold claimNextWorkflowJob at hok
  split at hok
  · obtain ⟨rfl, -⟩ := Prod.mk.inj hok
    rcases hreap with ⟨hexhausted, hrow⟩ | hrow
    · exact ⟨_, hrow, rfl, .reaped (exhausted_cases hexhausted).1 rfl rfl⟩
    · exact ⟨j, hrow, rfl, .idle rfl rfl⟩
  · next c hc =>
    obtain ⟨rfl, -⟩ := Prod.mk.inj hok
    obtain ⟨hmem, hclaimable⟩ := mem_candidate hc
    by_cases hJ : c.id = J
    · obtain rfl := h.eq hmem hJ
      rcases hreap with ⟨hexhausted, -⟩ | hrow
      · exact absurd hexhausted (not_exhausted_of_claimable hclaimable)
      · have hlocked := hrow.setJobs (fun k => k.id = c.id) (lockJob now o.worker) fun k => rfl
        rw [if_pos (by simp)] at hlocked
        exact ⟨_, hlocked, rfl, .claimed (claimable_cases hclaimable).2 rfl rfl⟩
    · have hkept : ∀ j', JobRow J (reapExhaustedWorkflowJobs db now o.lease o.skipped) j' →
          JobRow J ((reapExhaustedWorkflowJobs db now o.lease o.skipped).updateJobs
            (fun k => k.id = c.id) (lockJob now o.worker)) j' := by
        intro j' hrow
        have hlocked := hrow.setJobs (fun k => k.id = c.id) (lockJob now o.worker) fun k => rfl
        rw [if_neg (by simpa using fun heq : j'.id = c.id => hJ (heq.symm.trans hrow.mem.2))] at hlocked
        exact hlocked
      rcases hreap with ⟨hexhausted, hrow⟩ | hrow
      · exact ⟨_, hkept _ hrow, rfl, .reaped (exhausted_cases hexhausted).1 rfl rfl⟩
      · exact ⟨j, hkept _ hrow, rfl, .idle rfl rfl⟩

/-- Every call gives the row one of the four turns. -/
theorem step_turns (h : JobRow J db j) {e : Event} (step : CallStep db e db') :
    Turns J j (e.fencedAttempt J) db' := by
  cases step with
  | refused hexec => exact h.idle rfl
  | @returned _ call now r hexec =>
    cases call with
    | claim o => exact claim_turns h (Except.ok.inj hexec)
    | renew lease =>
      rw [fencedAttempt_returned rfl]
      exact renew_turns h (ok_of_map hexec)
    | startBuild i =>
      rw [fencedAttempt_returned rfl]
      exact startBuild_turns h (ok_of_map hexec)
    | updateDeployment lease D updates =>
      rw [fencedAttempt_returned rfl]
      exact updateDeployment_turns h (ok_of_map hexec)
    | publish i =>
      rw [fencedAttempt_returned rfl]
      exact publish_turns h (ok_of_map hexec)
    | complete lease =>
      rw [fencedAttempt_returned rfl]
      exact updateWorkflowJob_turns h (by simp) (ok_of_map hexec)
    | fail lease =>
      rw [fencedAttempt_returned rfl]
      refine updateWorkflowJob_turns h (fun k hq => ?_) (ok_of_map hexec)
      by_contra hlimit
      rw [if_neg hlimit] at hq
      cases hq
    | cancel lease =>
      rw [fencedAttempt_returned rfl]
      exact updateWorkflowJob_turns h (by simp) (ok_of_map hexec)

end Turns

/-! ### Publications -/

section Publication

variable {J : String} {db db' : Database} {i : ImagePublicationInput}

theorem publishImageReady_published (hok : publishImageReady db i = .ok db') : Published i db db' := by
  obtain ⟨job, hlock, hdeployment, hjob, rfl⟩ := publishImageReady_ok hok
  refine ⟨?_, ?_, ?_, rfl⟩
  · obtain ⟨before, d, after, hd, hstatus, -, -, hd'⟩ :=
      Sql.update_split (f := setImageReady i) hdeployment
    have hid := inStatus_id hstatus
    unfold inStatus at hstatus
    exact ⟨before, d, _, after, hd, hid, of_decide_eq_true (Bool.and_eq_true_iff.1 hstatus).2,
      hd', hid, rfl, rfl, rfl⟩
  · obtain ⟨-, -, s, hs, hid⟩ := lockBuild_ok hlock
    refine ⟨⟨setServiceImage i s, Sql.mem_update.2 ⟨s, hs, ?_⟩, hid⟩, fun s' hs' hid' => ?_, ?_⟩
    · rw [if_pos (by simpa using hid)]
    · obtain ⟨s₀, -, rfl⟩ := Sql.mem_update.1 hs'
      by_cases hw : s₀.id = i.serviceID
      · rw [if_pos (by simpa using hw)]
        exact ⟨rfl, rfl⟩
      · rw [if_neg (by simpa using hw)] at hid'
        exact absurd hid' hw
    · exact Sql.filter_update_of_disjoint (fun s _ => rfl) fun s hne => by simpa using hne
  · obtain ⟨before, j, after, hj, hleased, -, -, hj'⟩ :=
      Sql.update_split (f := releaseJob i.buildFinishedAt job (.succeeded, none)) hjob
    exact ⟨before, j, _, after, hj, hleased, hj', (leasedTo_iff.1 hleased).1, rfl⟩

theorem publish_ends {j : WorkflowJob} (h : Published i db db') (hJ : i.lease.jobID = J)
    (hrow : JobRow J db' j) : j.status = .succeeded := by
  obtain ⟨before, -, j', after, -, -, hjobs, hid, hstatus⟩ := h.job
  have hmem : j' ∈ db'.jobs := by
    rw [hjobs]
    exact List.mem_append_right _ List.mem_cons_self
  obtain rfl := hrow.eq hmem (hid.trans hJ)
  exact hstatus

end Publication

/-! ### Runs -/

section Runs

variable {J : String} {db db' : Database} {j j' : WorkflowJob} {es : List Event} {e : Event}

theorem attemptLimit_pos (j : WorkflowJob) : 0 < j.attemptLimit := by
  unfold WorkflowJob.attemptLimit
  split_ifs with hpos
  · exact Int.pos_iff_toNat_pos.1 hpos
  · decide

theorem attemptLimit_congr (h : j'.maxAttempts = j.maxAttempts) : j'.attemptLimit = j.attemptLimit := by
  unfold WorkflowJob.attemptLimit
  rw [h]

/-- The counter is within the limit, with one attempt left while the job is queued. -/
def WorkflowJob.WithinLimit (j : WorkflowJob) : Prop :=
  j.attempts ≤ j.attemptLimit ∧ (j.status = .queued → j.attempts < j.attemptLimit)

theorem Turn.withinLimit {label : Option Nat} (h : Turn j j' label)
    (hlimit : j'.attemptLimit = j.attemptLimit) (hj : j.WithinLimit) : j'.WithinLimit := by
  obtain ⟨hle, hqueued⟩ := hj
  unfold WorkflowJob.WithinLimit
  rw [hlimit]
  cases h with
  | idle status attempts =>
    rw [status, attempts]
    exact ⟨hle, hqueued⟩
  | reaped running status attempts =>
    rw [status, attempts]
    exact ⟨hle, by simp⟩
  | claimed claimable status attempts =>
    rw [status, attempts]
    refine ⟨?_, by simp⟩
    rcases claimable with hq | ⟨-, hlt⟩
    · exact hqueued hq
    · exact hlt
  | written running status attempts =>
    rw [attempts]
    exact ⟨hle, status⟩

theorem Turn.attempts_le {label : Option Nat} (h : Turn j j' label) : j.attempts ≤ j'.attempts := by
  cases h with
  | idle _ attempts | reaped _ _ attempts | written _ _ attempts => exact attempts.ge
  | claimed _ _ attempts =>
    rw [attempts]
    exact Nat.le_succ _

/-- A write under a lease presents the attempt of a running job. -/
theorem Turn.fenced {a : Nat} (h : Turn j j' (some a)) : a = j.attempts ∧ j.status = .running := by
  cases h with
  | written running status attempts => exact ⟨rfl, running⟩

/-- A job that is over stays as it is, and no write finds it. -/
theorem Turn.ended {label : Option Nat} (h : Turn j j' label) (hj : ¬ j.Active) :
    j'.status = j.status ∧ label = none := by
  unfold WorkflowJob.Active at hj
  cases h with
  | idle status attempts => exact ⟨status, rfl⟩
  | reaped running status attempts => exact absurd (.inr running) hj
  | claimed claimable status attempts => exact absurd (claimable.imp_right And.left) hj
  | written running status attempts => exact absurd (.inr running) hj

/-- What the history of a job says about its row. -/
structure Fenced (J : String) (es : List Event) (db : Database) (j : WorkflowJob) : Prop where
  row : JobRow J db j
  limit : j.WithinLimit
  ordered : (es.filterMap (Event.fencedAttempt J)).Pairwise (· ≤ ·)
  past : ∀ a ∈ es.filterMap (Event.fencedAttempt J), a ≤ j.attempts
  published : es.countP (Event.publishes J) = 0 ∨
    es.countP (Event.publishes J) = 1 ∧ j.status = .succeeded

theorem fencedAttempt_of_publishes (h : e.publishes J = true) : (e.fencedAttempt J).isSome = true := by
  unfold Event.publishes at h
  split at h
  · next i now r => simpa [Event.fencedAttempt, Call.lease] using h
  · cases h

theorem step_publishes (step : CallStep db e db') (h : e.publishes J = true) (hrow : JobRow J db' j) :
    j.status = .succeeded := by
  unfold Event.publishes at h
  split at h
  · next i now r =>
    cases step with
    | returned hexec =>
      exact publish_ends (publishImageReady_published (ok_of_map hexec)) (of_decide_eq_true h) hrow
  · cases h

theorem step_fenced (h : Fenced J es db j) (step : CallStep db e db') :
    ∃ j', Fenced J (es ++ [e]) db' j' := by
  obtain ⟨j', hrow, hmax, hturn⟩ := step_turns h.row step
  have hattempts := hturn.attempts_le
  have hnew : ∀ a ∈ [e].filterMap (Event.fencedAttempt J), a = j.attempts := by
    intro a ha
    obtain ⟨e₁, he₁, hlabel⟩ := List.mem_filterMap.1 ha
    obtain rfl := List.mem_singleton.1 he₁
    rw [hlabel] at hturn
    exact hturn.fenced.1
  refine ⟨j', hrow, hturn.withinLimit (attemptLimit_congr hmax) h.limit, ?_, ?_, ?_⟩
  · rw [List.filterMap_append, List.pairwise_append]
    refine ⟨h.ordered, ?_, fun a ha b hb => ?_⟩
    · cases hl : e.fencedAttempt J <;> simp [List.filterMap, hl]
    · rw [hnew b hb]
      exact h.past a ha
  · intro a ha
    rw [List.filterMap_append, List.mem_append] at ha
    rcases ha with ha | ha
    · exact (h.past a ha).trans hattempts
    · exact (hnew a ha).le.trans hattempts
  · rw [List.countP_append, List.countP_singleton]
    by_cases hpub : e.publishes J = true
    · rw [if_pos hpub]
      rcases h.published with hnone | ⟨-, hsucceeded⟩
      · exact .inr ⟨by rw [hnone], step_publishes step hpub hrow⟩
      · -- a second publication would be a write to a job that is over
        obtain ⟨a, ha⟩ := Option.isSome_iff_exists.1 (fencedAttempt_of_publishes hpub)
        rw [ha] at hturn
        rw [hturn.fenced.2] at hsucceeded
        cases hsucceeded
    · rw [if_neg hpub]
      rcases h.published with hnone | ⟨hone, hsucceeded⟩
      · exact .inl hnone
      · refine .inr ⟨hone, ?_⟩
        have hover : ¬ j.Active := by simp [WorkflowJob.Active, hsucceeded]
        rw [(hturn.ended hover).1, hsucceeded]

theorem run_fenced {db₀ : Database} (created : Created J db₀) (run : Run CallStep db₀ es db) :
    ∃ j, Fenced J es db j := by
  obtain ⟨j, hrow, hqueued, hzero⟩ := created
  refine run.history (I := fun es db => ∃ j, Fenced J es db j)
    (fun es s e t ⟨j, hj⟩ hstep => step_fenced hj hstep) ⟨j, hrow, ?_, by simp, by simp, by simp⟩
  have hpos := attemptLimit_pos j
  exact ⟨by omega, fun _ => by omega⟩

/-- From a job that is over, no run has a successful write under one of its leases. -/
theorem run_ended (hrow : JobRow J db j) (hj : ¬ j.Active) (run : Run CallStep db es db') :
    es.filterMap (Event.fencedAttempt J) = [] := by
  suffices hinv : ∃ j', JobRow J db' j' ∧ ¬ j'.Active ∧ es.filterMap (Event.fencedAttempt J) = [] by
    obtain ⟨-, -, -, hnone⟩ := hinv
    exact hnone
  refine run.history (I := fun es u => ∃ j', JobRow J u j' ∧ ¬ j'.Active ∧
    es.filterMap (Event.fencedAttempt J) = []) ?_ ⟨j, hrow, hj, rfl⟩
  rintro es u e u' ⟨j₁, hrow₁, hover₁, hnone⟩ hstep
  obtain ⟨j₂, hrow₂, -, hturn⟩ := step_turns hrow₁ hstep
  obtain ⟨hstatus, hlabel⟩ := hturn.ended hover₁
  refine ⟨j₂, hrow₂, ?_, ?_⟩
  · unfold WorkflowJob.Active at hover₁ ⊢
    rwa [hstatus]
  · rw [List.filterMap_append, hnone]
    simp [List.filterMap, hlabel]

/-- **Lease fencing**: whatever the workers do with a job from its creation on, the attempts of
successful writes under its leases never decrease; its counter stays within `maxAttempts`, or 3 if
that is not positive; at most one publication succeeds, and a publication changes deployment, service
and job together or nothing; and once the job is over no write under its leases succeeds. -/
theorem lease_fencing {db₀ : Database} (created : Created J db₀) (run : Run CallStep db₀ es db) :
    (es.filterMap (Event.fencedAttempt J)).Pairwise (· ≤ ·) ∧
      (∀ j ∈ db.jobs, j.id = J →
        (j.attempts : Int) ≤ if 0 < j.maxAttempts then j.maxAttempts else 3) ∧
      es.countP (Event.publishes J) ≤ 1 ∧
      (∀ i now r db', CallStep db (.returned (.publish i) now r) db' → Published i db db') ∧
      (∀ i now error db', CallStep db (.refused (.publish i) now error) db' → db' = db) ∧
      (Ended J db → ∀ fs db', Run CallStep db fs db' → fs.filterMap (Event.fencedAttempt J) = []) := by
  obtain ⟨j, h⟩ := run_fenced created run
  refine ⟨h.ordered, fun k hk hid => ?_, ?_, ?_, ?_, ?_⟩
  · obtain rfl := h.row.eq hk hid
    have hle := h.limit.1
    unfold WorkflowJob.attemptLimit at hle
    split_ifs at hle ⊢ <;> omega
  · rcases h.published with hnone | ⟨hone, -⟩ <;> omega
  · intro i now r db' hstep
    cases hstep with
    | returned hexec => exact publishImageReady_published (ok_of_map hexec)
  · intro i now error db' hstep
    cases hstep with
    | refused _ => rfl
  · rintro ⟨k, hk, hid, hover⟩ fs db' hrun
    obtain rfl := h.row.eq hk hid
    refine run_ended h.row ?_ hrun
    unfold WorkflowJob.Active
    rcases hover with hs | hs | hs <;> rw [hs] <;> simp

end Runs

/-! ### Two sample runs -/

/-- One call and its outcome. -/
def performCall (db : Database) (call : Call × Micros) : Option (Event × Database) :=
  match exec db call.2 call.1 with
  | .ok (db', job) => some (.returned call.1 call.2 job, db')
  | .error e => some (.refused call.1 call.2 e, db)

theorem step_of_performCall (db : Database) (call : Call × Micros) (e : Event) (db' : Database)
    (h : performCall db call = some (e, db')) : CallStep db e db' := by
  unfold performCall at h
  split at h <;> rename_i hexec <;> obtain ⟨rfl, rfl⟩ := Prod.mk.inj (Option.some.inj h)
  · exact .returned hexec
  · exact .refused hexec

namespace Retried

/-- A queued build; the column `maxAttempts` takes any integer. -/
def database (maxAttempts : Int) : Database :=
  { jobs := [{ Sample.job with
      id := "job_9", type := "build", targetId := "dep_9", payloadDeploymentId := none, maxAttempts := maxAttempts }],
    deployments := [{ Sample.deployment with id := "dep_9", serviceId := "svc_9", projectId := "prj_9" }],
    services := [⟨"svc_9", "prj_9", "created", none, none, 0⟩], projects := [⟨"prj_9", "active"⟩] }

theorem database_created (maxAttempts : Int) : Created "job_9" (database maxAttempts) :=
  ⟨_, rfl, rfl, rfl⟩

/-- Two workers of one name: the first crashes, the second claims the job when the lease ran out. -/
def claims : List (Call × Micros) :=
  [(.claim ⟨"builder", 300, []⟩, 1000000), (.claim ⟨"builder", 300, []⟩, 302000000)]

def lease : WorkflowLease := ⟨"job_9", "builder", 2⟩

/-- The second worker builds and publishes; the first comes back and cannot publish. -/
def publication : List (Call × Micros) :=
  [(.startBuild ⟨lease, "dep_9", "svc_9", "prj_9", 303000000⟩, 303000000),
    (.publish ⟨{ lease with attempt := 1 }, "dep_9", "svc_9", "prj_9", "r/app:1", "sha256:1", 304000000⟩,
      304000000),
    (.publish ⟨lease, "dep_9", "svc_9", "prj_9", "r/app:2", "sha256:2", 305000000⟩, 305000000)]

end Retried

open Retried in
/-- After the publication by the second of two workers of one name, no write to the job succeeds. -/
theorem lease_fencing_retried : ∃ es db, Created "job_9" (database 3) ∧
    Run CallStep (database 3) es db ∧ es.countP (Event.publishes "job_9") = 1 ∧
    Ended "job_9" db ∧ ∀ fs db', Run CallStep db fs db' →
      fs.filterMap (Event.fencedAttempt "job_9") = [] := by
  obtain ⟨es, db, hrun, hcheck⟩ := Run.exists_of_trace step_of_performCall (database 3)
    (claims ++ publication)
    (fun es db => es.countP (Event.publishes "job_9") = 1 ∧
      db.jobs.any fun j => j.id = "job_9" ∧ j.status = .succeeded) (by decide +kernel)
  obtain ⟨hone, hjob⟩ := of_decide_eq_true hcheck
  obtain ⟨j, hj, hfacts⟩ := List.any_eq_true.1 hjob
  obtain ⟨hid, hsucceeded⟩ := of_decide_eq_true hfacts
  have hended : Ended "job_9" db := ⟨j, hj, hid, .inl hsucceeded⟩
  have hfencing := lease_fencing (database_created 3) hrun
  exact ⟨es, db, database_created 3, hrun, hone, hended, hfencing.2.2.2.2.2 hended⟩

open Retried in
/-- `maxAttempts = -1` is read as 3: the job is claimed a second time. -/
theorem negative_maxAttempts_retried : ∃ es db, Created "job_9" (database (-1)) ∧
    Run CallStep (database (-1)) es db ∧ ∃ j ∈ db.jobs, j.id = "job_9" ∧ j.maxAttempts = -1 ∧
      ¬ (j.attempts : Int) ≤ if j.maxAttempts = 0 then 3 else max j.maxAttempts 1 := by
  obtain ⟨es, db, hrun, hcheck⟩ := Run.exists_of_trace step_of_performCall (database (-1))
    claims
    (fun _ db => db.jobs.any fun j => j.id = "job_9" ∧ j.maxAttempts = -1 ∧
      ¬ (j.attempts : Int) ≤ if j.maxAttempts = 0 then 3 else max j.maxAttempts 1) (by decide +kernel)
  obtain ⟨j, hj, hfacts⟩ := List.any_eq_true.1 hcheck
  exact ⟨es, db, database_created (-1), hrun, j, hj, of_decide_eq_true hfacts⟩

end RaibitServer.Builder
