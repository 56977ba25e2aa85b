import RaibitServer.Recovery.Refinement
import RaibitServer.Recovery.Trace

/-!
# Recovery.Coherence — an operation and its job agree

The operation row and the workflow job are two machines that every repository function has to move
together.  `Coherent` is their coupling; each `Change` of a cell restores it, and moves the status
along an edge of the lifecycle contract or not at all.
-/

namespace RaibitServer.Recovery

open Lib

variable {P : Platform} {enforceQuota : RecoveryQuotaPolicy}

/-- The job statuses that go with the status of an operation. -/
structure Coupled (o : OperationStatus) (j : JobStatus) : Prop where
  active : Active o ↔ j = .queued ∨ j = .running
  ready : o = .READY → j = .succeeded
  cancelled : o = .CANCELLED → j = .cancelled
  failed : o = .FAILED → j = .failed
  settled : o ∈ [OperationStatus.EXPIRED, .DELETING, .DELETED] →
    j ∈ [JobStatus.succeeded, .failed, .cancelled]

structure Coherent (o : Operation) (j : RecoveryJob) : Prop where
  statuses : Coupled o.status j.status
  lockedBy : j.lockedBy ≠ none ↔ j.status = .running
  lockedAt : j.lockedAt ≠ none ↔ j.status = .running
  attempts : j.attempts ≤ 3
  deadline : (o.base.startedAt = none ∧ o.base.deadlineAt = none) ∨
    ∃ t, o.base.startedAt = some t ∧ o.base.deadlineAt = some (t + 1800000)

/-! ### Statuses -/

variable {o : OperationStatus} {j : RecoveryJob} {c : Cell}

theorem coupled_queued (h : Active o) : Coupled o .queued := by
  cases o <;> first | (exfalso; revert h; decide) | (constructor <;> decide)

theorem coupled_running (h : Active o) : Coupled o .running := by
  cases o <;> first | (exfalso; revert h; decide) | (constructor <;> decide)

theorem coupled_succeeded : Coupled .READY .succeeded := by constructor <;> decide

theorem coupled_failed : Coupled .FAILED .failed := by constructor <;> decide

theorem coupled_cancelled : Coupled .CANCELLED .cancelled := by constructor <;> decide

/-- A settled operation may move on to the end of its life with its job untouched. -/
theorem Coupled.settle {o' : OperationStatus} {j : JobStatus} (h : Coupled o j) (hold : ¬ Active o)
    (hnew : o' ∈ [OperationStatus.EXPIRED, .DELETING, .DELETED]) : Coupled o' j := by
  have hj := h.active.not.1 hold
  have hold' : ¬ Active o' := by
    simp only [List.mem_cons, List.not_mem_nil, or_false] at hnew
    rcases hnew with rfl | rfl | rfl <;> decide
  refine ⟨iff_of_false hold' hj, ?_, ?_, ?_, fun _ => ?_⟩
  · rintro rfl
    simp at hnew
  · rintro rfl
    simp at hnew
  · rintro rfl
    simp at hnew
  · cases j <;> simp_all

theorem active_iff {status : OperationStatus} :
    Active status ↔ status = .QUEUED ∨ status = .RUNNING ∨ status = .VERIFYING := by simp [Active]

theorem Active.of_fence (h : o = .RUNNING ∨ o = .VERIFYING) : Active o := by
  rcases h with rfl | rfl <;> decide

/-! ### One change -/

/-- A job given back, next to the status its operation has then. -/
theorem Coherent.release {o o' : Operation} (h : Coherent o j) {status : JobStatus} (now : Millis)
    (hs : status ≠ .running) (hc : Coupled o'.status status) (hstart : o'.base.startedAt = o.base.startedAt)
    (hdead : o'.base.deadlineAt = o.base.deadlineAt) : Coherent o' (releaseJob j status now) :=
  ⟨hc, by simp [releaseJob, hs], by simp [releaseJob, hs], h.attempts,
    by simpa only [hstart, hdead] using h.deadline⟩

theorem Coherent.fail {o : Operation} (h : Coherent o j) {code : String} {now : Millis} :
    Coherent (failOperation o code now) (releaseJob j .failed now) :=
  h.release now (by simp) (by simpa [failOperation] using coupled_failed) (by simp [failOperation])
    (by simp [failOperation])

/-- A write of the operation alone. -/
theorem Coherent.rewrite {o o' : Operation} (h : Coherent o j) (hc : Coupled o'.status j.status)
    (hstart : o'.base.startedAt = o.base.startedAt) (hdead : o'.base.deadlineAt = o.base.deadlineAt) : Coherent o' j :=
  ⟨hc, h.lockedBy, h.lockedAt, h.attempts, by simpa only [hstart, hdead] using h.deadline⟩

/-- A claim starts the clock once, and keeps a clock that runs. -/
theorem Coherent.claim {o : Operation} (h : Coherent o j) {worker : String} {deadline now : Millis}
    (active : Active o.status) (left : j.attempts < 3)
    (due : o.base.deadlineAt = none → deadline = now + deadlineMillis) :
    Coherent (startOperation o deadline now) (lockJob j worker now) := by
  refine ⟨coupled_running ?_, by simp [lockJob], by simp [lockJob], left, .inr ?_⟩
  · by_cases hq : o.status = .QUEUED
    · simp [startOperation, hq, Active]
    · simpa [startOperation, hq] using active
  · rcases h.deadline with ⟨hstart, hdead⟩ | ⟨t, hstart, hdead⟩
    · exact ⟨now, by simp [startOperation, hstart], by simp [startOperation, hdead, due hdead, deadlineMillis]⟩
    · exact ⟨t, by simp [startOperation, hstart], by simp [startOperation, hdead]⟩

theorem Mutation.coherent {n now m c pins c' pins'} (h : Mutation n now m c pins c' pins')
    (hc : Coherent c.operation c.job) {worker : String} (hf : Fenced c worker n now) :
    Coherent c'.operation c'.job := by
  have hact := Active.of_fence hf.status
  cases h with
  | heartbeat => exact ⟨hc.statuses, hc.lockedBy, by simpa using hf.running, hc.attempts, hc.deadline⟩
  | retry _ => exact hc.release now (by simp) (coupled_queued hact) rfl rfl
  | fail => exact hc.fail
  | intentAgain => exact hc
  | intent _ _ => exact hc
  | upload _ _ => exact hc
  | candidate _ _ => exact hc
  | complete _ _ => exact hc
  | verify _ _ =>
    refine hc.rewrite ?_ (by simp [verifyOperation]) (by simp [verifyOperation])
    have hrun : Coupled .VERIFYING .running := coupled_running (by decide)
    simpa [verifyOperation, hf.running] using hrun
  | readyBackup _ _ _ => exact hc.release now (by simp) coupled_succeeded rfl rfl
  | readyRestore _ => exact hc.release now (by simp) coupled_succeeded rfl rfl

theorem Change.coherent {l c pins c' pins'} (h : Change l c pins c' pins')
    (hc : Coherent c.operation c.job) : Coherent c'.operation c'.job := by
  cases h with
  | claimFailed _ => exact hc.fail
  | claimed active _ left due => exact hc.claim active left due
  | mutated fenced apply => exact apply.coherent hc fenced
  | @cancelled _ _ _ _ now _ => exact hc.release now (by simp) coupled_cancelled rfl rfl
  | expired ready =>
    exact hc.rewrite (hc.statuses.settle (by simp [ready, Active]) (by simp)) rfl rfl
  | deletionRequested settled _ =>
    refine hc.rewrite (hc.statuses.settle ?_ (by simp)) rfl rfl
    simp only [List.mem_cons, List.not_mem_nil, or_false] at settled
    rcases settled with h | h | h <;> simp [h, Active]
  | backupCleanupClaimed settled _ =>
    refine hc.rewrite (hc.statuses.settle ?_ (by simp)) rfl rfl
    simp only [List.mem_cons, List.not_mem_nil, or_false] at settled
    rcases settled with h | h | h <;> simp [h, Active]
  | restoreCleanupClaimed _ => exact hc.rewrite hc.statuses rfl rfl
  | backupCleaned deleting _ =>
    exact hc.rewrite (hc.statuses.settle (by simp [deleting, Active]) (by simp [deletedBackup])) rfl rfl
  | restoreCleaned _ => exact hc.rewrite hc.statuses rfl rfl

/-- The status moves along an edge of the lifecycle contract, if it moves. -/
theorem Change.edge {l c pins c' pins'} (h : Change l c pins c' pins') :
    c'.operation.status = c.operation.status ∨
      c'.operation.status ∈ lifecycleNext c.operation.kind c.operation.status := by
  have active_failed : ∀ (kind : RecoveryKind) (status : OperationStatus), Active status →
      OperationStatus.FAILED ∈ lifecycleNext kind status := fun kind status hact => by
    cases kind <;> cases status <;> first | decide | (exfalso; revert hact; decide)
  cases h with
  | claimFailed active => exact .inr (by simpa [failOperation] using active_failed _ _ active)
  | @claimed c _ _ _ _ active _ _ _ =>
    by_cases hq : c.operation.status = .QUEUED
    · refine .inr ?_
      cases hk : c.operation.kind <;> simp [startOperation, hq, lifecycleNext]
    · exact .inl (by simp [startOperation, hq])
  | mutated fenced apply =>
    cases apply with
    | fail => exact .inr (by simpa [failOperation] using active_failed _ _ (.of_fence fenced.status))
    | @verify c _ running _ =>
      refine .inr ?_
      cases hk : c.operation.kind <;> simp [verifyOperation, running, lifecycleNext]
    | readyBackup verifying _ _ =>
      exact .inr (by simp [publishBackup, verifying, lifecycleNext, Operation.kind])
    | readyRestore verifying =>
      exact .inr (by simp [publishRestore, verifying, lifecycleNext, Operation.kind])
    | _ => exact .inl rfl
  | @cancelled r _ _ _ _ active =>
    refine .inr ?_
    simp only [Active, List.mem_cons, List.not_mem_nil, or_false] at active
    rcases active with h | h | h <;> simp [h, lifecycleNext, Operation.kind]
  | expired ready => exact .inr (by simp [ready, lifecycleNext, Operation.kind])
  | deletionRequested settled _ =>
    simp only [List.mem_cons, List.not_mem_nil, or_false] at settled
    rcases settled with h | h | h <;> exact .inr (by simp [h, lifecycleNext, Operation.kind])
  | backupCleanupClaimed settled _ =>
    simp only [List.mem_cons, List.not_mem_nil, or_false] at settled
    rcases settled with h | h | h
    · exact .inr (by simp [h, lifecycleNext, Operation.kind])
    · exact .inr (by simp [h, lifecycleNext, Operation.kind])
    · exact .inl (by simp [h])
  | restoreCleanupClaimed _ => exact .inl rfl
  | backupCleaned deleting _ =>
    exact .inr (by simp [deletedBackup, deleting, lifecycleNext, Operation.kind])
  | restoreCleaned _ => exact .inl rfl

/-- A clock that runs is not set again. -/
def KeepsClock (o o' : Operation) : Prop :=
  (∀ t, o.base.startedAt = some t → o'.base.startedAt = some t) ∧
    ∀ t, o.base.deadlineAt = some t → o'.base.deadlineAt = some t

theorem KeepsClock.trans {o₁ o₂ o₃ : Operation} (h₁ : KeepsClock o₁ o₂) (h₂ : KeepsClock o₂ o₃) :
    KeepsClock o₁ o₃ :=
  ⟨fun t ht => h₂.1 t (h₁.1 t ht), fun t ht => h₂.2 t (h₁.2 t ht)⟩

theorem Change.keepsClock {l c pins c' pins'} (h : Change l c pins c' pins') :
    KeepsClock c.operation c'.operation := by
  cases h with
  | mutated _ apply =>
    cases apply <;> constructor <;> intro t ht <;>
      first
      | exact ht
      | simpa [failOperation, verifyOperation] using ht
  | _ =>
    constructor <;> intro t ht <;>
      first
      | exact ht
      | simp [failOperation, startOperation, ht]

/-! ### Runs -/

theorem Cell.Initial.coherent (h : c.Initial) : Coherent c.operation c.job where
  statuses := by
    rw [h.status, h.job]
    exact coupled_queued (by decide)
  lockedBy := by simp [h.lockedBy, h.job]
  lockedAt := by simp [h.lockedAt, h.job]
  attempts := by simp [h.attempts]
  deadline := .inl ⟨h.startedAt, h.deadlineAt⟩

theorem cellRun_coherent {c' : Cell} {ls : List (Option Label)} (h : Run CellStep c ls c')
    (hc : Coherent c.operation c.job) : Coherent c'.operation c'.job :=
  h.invariant (I := fun c => Coherent c.operation c.job)
    (fun _ _ _ hc ⟨_, _, change⟩ => change.coherent hc) hc

theorem cellRun_keepsClock {c' : Cell} {ls : List (Option Label)} (h : Run CellStep c ls c') :
    KeepsClock c.operation c'.operation :=
  h.relates (I := fun _ => True) (R := fun c c' : Cell => KeepsClock c.operation c'.operation)
    (fun _ _ _ _ _ => trivial) (fun _ _ => ⟨fun _ h => h, fun _ h => h⟩)
    (fun _ _ _ h₁ h₂ => h₁.trans h₂)
    (fun _ _ _ _ ⟨_, _, change⟩ => change.keepsClock) trivial

/-- What holds of a reachable state, of each step from it, and of every run from it: one job for each
operation, coherent with it; status changes along the contract; clocks that are set once. -/
structure Conforms (P : Platform) (enforceQuota : RecoveryQuotaPolicy) (s : RecoveryState) : Prop where
  job : ∀ o ∈ s.operations, ∃ j, (s.jobs.filter fun row => row.targetId = o.id) = [j] ∧ Coherent o j
  edge : ∀ e s', Step P enforceQuota s e s' → ∀ o ∈ s.operations, ∃ o',
    (s'.operations.filter fun row => row.id = o.id) = [o'] ∧ o'.kind = o.kind ∧
      (o'.status = o.status ∨ o'.status ∈ lifecycleNext o.kind o.status)
  clock : ∀ es s', Run (Step P enforceQuota) s es s' → ∀ o ∈ s.operations, ∃ o',
    (s'.operations.filter fun row => row.id = o.id) = [o'] ∧ KeepsClock o o'

/-- The operation of a cell is the only one with its identifier. -/
theorem Keyed.filter_operations {s : RecoveryState} (hk : Keyed s) {x : String} (hc : s.cell x = some c) :
    (s.operations.filter fun row => row.id = x) = [c.operation] := by
  obtain ⟨hmem, rfl, -, -, -, -, -⟩ := cell_eq_some hc
  exact Table.filter_key_eq Operation.id hmem hk.ids

theorem Keyed.filter_jobs {s : RecoveryState} (hk : Keyed s) {x : String} (hc : s.cell x = some c) :
    (s.jobs.filter fun row => row.targetId = x) = [c.job] := by
  obtain ⟨-, -, hmem, rfl, -, -, -⟩ := cell_eq_some hc
  exact Table.filter_key_eq RecoveryJob.targetId hmem (hk.targets.nodup_iff.2 hk.ids)

/-- **Operations and jobs stay coherent and follow the lifecycle contract in every run.** -/
theorem run_conforms {s₀ s : RecoveryState} {es : List Event} (empty : EmptyTables s₀)
    (run : Run (Step P enforceQuota) s₀ es s) : Conforms P enforceQuota s := by
  have hk := run_keyed empty run
  refine ⟨fun o ho => ?_, fun e s' hstep o ho => ?_, fun es' s' hrun o ho => ?_⟩ <;>
    obtain ⟨c, hc, rfl⟩ := hk.exists_cell ho
  · obtain ⟨c₀, ls, hinit, hcell, -⟩ := run_cell empty run hc
    exact ⟨c.job, hk.filter_jobs hc, cellRun_coherent hcell hinit.coherent⟩
  · have hk' := step_keyed _ _ _ hk hstep
    have hseen := step_seen c.operation.id hk hstep
    rw [hc] at hseen
    generalize hv : s'.cell c.operation.id = v at hseen
    generalize e.labelOf c.operation.id = l at hseen
    cases hseen with
    | stay => exact ⟨c.operation, hk'.filter_operations hv, rfl, .inl rfl⟩
    | moved hmove =>
      obtain ⟨pins, pins', change⟩ := hmove
      exact ⟨_, hk'.filter_operations hv, change.sameKeys.kind, change.edge⟩
  · obtain ⟨c', ls, hc', hcell, -⟩ := run_cell_from hk hrun hc
    exact ⟨c'.operation, (hrun.invariant step_keyed hk).filter_operations hc',
      cellRun_keepsClock hcell⟩

theorem run_conforms_publication : ∃ es s, Run (Step Sample.platform Sample.quota) Sample.state es s ∧
    s.operations.map Operation.status = [.READY] ∧ Conforms Sample.platform Sample.quota s := by
  obtain ⟨es, s, hrun, hcheck⟩ := exists_run Sample.platform Sample.quota Sample.state
    Sample.publication
    (fun _ s => s.operations.map Operation.status = [.READY]) (by decide +kernel)
  exact ⟨es, s, hrun, by simpa using hcheck, run_conforms Sample.state_empty hrun⟩

end RaibitServer.Recovery
