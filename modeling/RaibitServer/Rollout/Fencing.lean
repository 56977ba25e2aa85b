import RaibitServer.Rollout.NewestWins

/-!
# Rollout.Fencing — what a worker may still write

Workers stall and come back after their deployment was claimed again.  Each claim counts `reconcileAttempts` up,
so only the attempt of the last claim writes, and a deployment that has ended keeps its status and the columns
of its lease.
-/

namespace RaibitServer.Rollout

open Lib
open Orchestrator (LeaseColumns)
open RolloutStatus

variable {observes : Bool} {s t : Cluster} {es : List RolloutEvent} {row : RolloutRow}

/-- What later rows have kept of earlier ones. -/
def Later (before after : Keyed RolloutRow.id) : Prop :=
  ∀ row ∈ before.rows, ∃ row' ∈ after.rows, row'.id = row.id ∧ row.reconcileAttempts ≤ row'.reconcileAttempts ∧
    (row.status.terminal = true → row' = row)

namespace Later

theorem refl (rows : Keyed RolloutRow.id) : Later rows rows :=
  fun row hrow => ⟨row, hrow, rfl, le_rfl, fun _ => rfl⟩

theorem trans {a b c : Keyed RolloutRow.id} (hab : Later a b) (hbc : Later b c) : Later a c := by
  intro row hrow
  obtain ⟨mid, hmid, hid, hle, hended⟩ := hab row hrow
  obtain ⟨last, hlast, hid', hle', hended'⟩ := hbc mid hmid
  refine ⟨last, hlast, hid'.trans hid, hle.trans hle', fun h => ?_⟩
  obtain rfl := hended h
  exact hended' h

theorem update {rows : Keyed RolloutRow.id} {p : RolloutRow → Bool} {f : RolloutRow → RolloutRow}
    (hf : ∀ row, (f row).id = row.id) (hattempts : ∀ row, row.reconcileAttempts ≤ (f row).reconcileAttempts)
    (hgoing : ∀ row ∈ rows.rows, p row = true → row.status.terminal = false) : Later rows (rows.update p f hf) := by
  intro row hrow
  refine ⟨_, Keyed.mem_update.2 ⟨row, hrow, rfl⟩, ?_⟩
  by_cases hp : p row = true
  · rw [if_pos hp, hgoing row hrow hp]
    exact ⟨hf row, hattempts row, fun h => absurd h Bool.false_ne_true⟩
  · rw [if_neg hp]
    exact ⟨rfl, le_rfl, fun _ => rfl⟩

end Later

theorem ownedBy_going {lease : DeploymentLease} (h : row.ownedBy lease = true) : row.status.terminal = false := by
  simp only [RolloutRow.ownedBy, LeaseColumns.heldBy, Bool.and_eq_true, decide_eq_true_eq] at h
  rw [h.2.1.1.1]
  rfl

theorem claimAction_going {action : ReconcileAction} (h : row.claimAction = some action) :
    row.status.terminal = false := by
  unfold RolloutRow.claimAction at h
  split at h <;> simp_all [RolloutStatus.terminal]

theorem later_failed (i : Nat) (attempt : Attempt) : Later s.deployments (s.failed i attempt).deployments :=
  .update (endRow_id FAILED) (fun _ => le_rfl) fun _ _ => ownedBy_going

theorem later_work (i : Nat) (attempt : Attempt) : Later s.deployments (work observes s i attempt).deployments := by
  unfold work
  cases attempt.phase <;> dsimp only
  case claimed | pruned | rolledOut =>
    split
    all_goals first | exact .refl _ | exact later_failed i attempt
  all_goals exact .refl _

theorem later_step {e : RolloutEvent} (hstep : RolloutStep observes s e t) : Later s.deployments t.deployments := by
  unfold RolloutStep at hstep
  cases e with
  | create row =>
    simp only [Cluster.next, Option.ite_none_right_eq_some] at hstep
    obtain ⟨deployments, hinsert, rfl⟩ := Option.map_eq_some_iff.1 hstep.2
    intro r hr
    refine ⟨r, ?_, rfl, le_rfl, fun _ => rfl⟩
    rw [(Keyed.insert?_rows hinsert).2]
    exact List.mem_append_left _ hr
  | build deploymentId status =>
    simp only [Cluster.next, Option.ite_none_right_eq_some] at hstep
    obtain rfl := Option.some.inj hstep.2
    -- a build writes no deployment that has ended
    refine .update (setStatus_id status) (fun _ => le_rfl) fun r _ hp => ?_
    have hunclaimed := (Bool.and_eq_true _ _ ▸ hp).2
    unfold RolloutRow.unclaimed at hunclaimed
    cases hstatus : r.status <;> simp_all [RolloutStatus.terminal]
  | claim options =>
    obtain ⟨row, hselected, hrest⟩ := Option.bind_eq_some_iff.1 hstep
    obtain ⟨action, haction, hclaim⟩ := Option.bind_eq_some_iff.1 hrest
    obtain rfl := Option.some.inj hclaim
    refine .update (lockRow_id options action) (fun _ => Nat.le_succ _) fun r hr hp => ?_
    -- the one row under the id is the selected one, and that has an action left
    rw [s.deployments.eq_of_key hr (selected_mem hselected) (of_decide_eq_true hp)]
    exact claimAction_going haction
  | work i =>
    obtain ⟨attempt, -, rfl⟩ := Option.map_eq_some_iff.1 hstep
    exact later_work i attempt
  | complete i now duration =>
    obtain ⟨attempt, -, rfl⟩ := Option.map_eq_some_iff.1 hstep
    refine .update (endRow_id READY) (fun _ => le_rfl) fun r _ hp => @ownedBy_going r attempt.lease ?_
    simp only [RolloutRow.heldAt, Bool.and_eq_true] at hp
    exact hp.1.1.1.1
  | renew i now =>
    obtain ⟨attempt, -, rfl⟩ := Option.map_eq_some_iff.1 hstep
    exact .update (renewRow_id now) (fun _ => le_rfl) fun _ _ => ownedBy_going
  | stop i =>
    obtain ⟨-, -, rfl⟩ := Option.map_eq_some_iff.1 hstep
    exact .refl _

theorem later_run (run : Run (RolloutStep observes) s es t) : Later s.deployments t.deployments := by
  induction run with
  | nil => exact .refl _
  | snoc _ last ih => exact ih.trans (later_step last)

/-- The first worker on `slow` comes back after a second one has claimed it. -/
def lateCluster : Cluster where
  deployments :=
    ⟨[setStatus READY (exampleRow "done" 1),
      ⟨⟨DEPLOYING, some .apply, some "second", some 20, 2⟩, "slow", 2, true⟩], by decide⟩
  workload := some "slow"
  attempts := [⟨⟨"slow", "first", 1, .apply⟩, .observed⟩]

/-- **A superseded attempt writes nothing**: once its deployment was claimed again, it can neither fail, renew
nor complete it, whatever happens in between. -/
theorem superseded_attempt_fenced (run : Run (RolloutStep observes) s es t) (hrow : row ∈ s.deployments.rows)
    {lease : DeploymentLease} (hid : row.id = lease.deploymentID) (hlease : lease.attempt < row.reconcileAttempts)
    (now duration : Int) :
    markFailed t.deployments lease = t.deployments ∧ renewDeploymentLease t.deployments lease now = t.deployments ∧
      completeRollout t.deployments lease now duration = t.deployments := by
  obtain ⟨row', hrow', hid', hle, -⟩ := later_run run row hrow
  have hlost : ∀ r ∈ t.deployments.rows, r.ownedBy lease = false := by
    intro r hr
    refine Bool.eq_false_iff.2 fun howned => ?_
    have hkey := (ownedBy_id howned).trans (hid.symm.trans hid'.symm)
    obtain rfl := t.deployments.eq_of_key hr hrow' hkey
    simp only [RolloutRow.ownedBy, LeaseColumns.heldBy, Bool.and_eq_true, decide_eq_true_eq] at howned
    omega
  have hunheld : ∀ r ∈ t.deployments.rows, r.heldAt lease now duration = false := by
    intro r hr
    simp [RolloutRow.heldAt, hlost r hr]
  exact ⟨Keyed.update_eq_self hlost, Keyed.update_eq_self hlost, Keyed.update_eq_self hunheld⟩

theorem superseded_attempt_fenced_late :
    ∃ t, Run (RolloutStep true) lateCluster [.renew 0 30] t ∧
      markFailed t.deployments ⟨"slow", "first", 1, .apply⟩ = t.deployments := by
  refine ⟨_, Run.single rfl, ?_⟩
  exact (superseded_attempt_fenced (Run.single rfl : Run (RolloutStep true) lateCluster [.renew 0 30] _)
    (List.mem_cons_of_mem _ List.mem_cons_self) rfl (by decide) 30 0).1

end RaibitServer.Rollout
