import RaibitServer.Rollout.System

/-!
# Rollout.NewestWins — which deployment owns the production workload in the end

Nothing in a claim looks at the other deployments of the service.  A deployment whose build takes longer is
claimed after a newer one and takes the workload from it.  Where deployments are claimed one at a time and in
the order of their age, the workload ends with the newest deployment that is ready.
-/

namespace RaibitServer.Rollout

open Lib
open Orchestrator (LeaseColumns)
open RolloutStatus

variable {observes : Bool} {s t : Cluster}

/-- Once every deployment has ended, the newest one that is ready owns the workload. -/
def NewestWins (s : Cluster) : Prop :=
  (∀ row ∈ s.deployments.rows, row.status.terminal = true) →
    ∀ top ∈ s.deployments.rows, top.status = READY →
      (∀ row ∈ s.deployments.rows, row.status = READY → row.age ≤ top.age) → s.workload = some top.id

instance (s : Cluster) : Decidable (NewestWins s) :=
  inferInstanceAs (Decidable ((∀ row ∈ s.deployments.rows, row.status.terminal = true) → _))

/-- A claim waits for the attempts of other deployments, and takes none older than one claimed before. -/
def InTurn (s : Cluster) : RolloutEvent → Prop
  | .claim options => ∀ row, s.selected options = some row →
      (∀ attempt ∈ s.attempts, attempt.lease.deploymentID = row.id) ∧
        ∀ r ∈ s.deployments.rows, 0 < r.reconcileAttempts → r.age ≤ row.age
  | _ => True

instance (s : Cluster) : (e : RolloutEvent) → Decidable (InTurn s e)
  | .claim options => inferInstanceAs (Decidable (∀ row ∈ s.selected options, _ ∧ _))
  | .create _ | .build _ _ | .work _ | .complete _ _ _ | .renew _ _ | .stop _ => isTrue trivial

/-- A step together with its event, under a condition. -/
def Cluster.execute (observes : Bool) (condition : Cluster → RolloutEvent → Bool) (s : Cluster)
    (e : RolloutEvent) : Option (RolloutEvent × Cluster) :=
  if condition s e then (s.next observes e).map fun t => (e, t) else none

theorem execute_eq_some {observes : Bool} {condition : Cluster → RolloutEvent → Bool} {s t : Cluster}
    {e e' : RolloutEvent} (h : s.execute observes condition e = some (e', t)) :
    RolloutStep observes s e' t ∧ condition s e' = true := by
  unfold Cluster.execute at h
  split at h
  · rename_i hcondition
    obtain ⟨u, hnext, heq⟩ := Option.map_eq_some_iff.1 h
    obtain ⟨rfl, rfl⟩ := Prod.mk.inj heq
    exact ⟨hnext, hcondition⟩
  · exact nomatch h

def exampleRow (id : String) (createdAt : Int) : RolloutRow :=
  ⟨⟨queued, none, none, none, 0⟩, id, createdAt, true⟩

/-- The one attempt under way goes from its claim to its end. -/
def rollOut (now : Int) : List RolloutEvent :=
  [.claim ⟨"worker", 0, now, []⟩, .work 0, .work 0, .work 0, .work 0, .complete 0 (now + 1) 0]

/-- **The older deployment wins**: its build ends after the newer deployment was rolled out. -/
theorem late_build_takes_workload :
    ∃ es s, Run (RolloutStep true) emptyCluster es s ∧ ¬ NewestWins s := by
  have hexec : ∀ s e e' t, s.execute true (fun _ _ => true) e = some (e', t) → RolloutStep true s e' t :=
    fun _ _ _ _ h => (execute_eq_some h).1
  have htrace := Run.exists_of_trace hexec emptyCluster
    ([.create (exampleRow "older" 1), .create (exampleRow "newer" 2), .build "newer" IMAGE_READY] ++ rollOut 10 ++
      [.build "older" IMAGE_READY] ++ rollOut 20)
    (fun _ s => decide (¬ NewestWins s)) (by decide +kernel)
  obtain ⟨es, s, run, hlost⟩ := htrace
  exact ⟨es, s, run, of_decide_eq_true hlost⟩

/-! ### Deployments that were claimed -/

/-- What no step changes of a deployment. -/
structure Identity where
  id : String
  createdAt : Int
  applicable : Bool

def Identity.age (d : Identity) : Int ×ₗ String := toLex (d.createdAt, d.id)

theorem Identity.id_of_age {d e : Identity} (h : d.age = e.age) : d.id = e.id :=
  congrArg (fun k => (ofLex k).2) h

def RolloutRow.identity (row : RolloutRow) : Identity := ⟨row.id, row.createdAt, row.applicable⟩

def Cluster.started (s : Cluster) : List Identity :=
  (s.deployments.select fun row => 0 < row.reconcileAttempts).map RolloutRow.identity

theorem mem_started {d : Identity} :
    d ∈ s.started ↔ ∃ row ∈ s.deployments.rows, 0 < row.reconcileAttempts ∧ row.identity = d := by
  unfold Cluster.started Keyed.select
  simp only [List.mem_map, List.mem_filter, decide_eq_true_eq, and_assoc]

variable {row : RolloutRow}

theorem RolloutRow.mem_started (hrow : row ∈ s.deployments.rows) (h : 0 < row.reconcileAttempts) :
    row.identity ∈ s.started :=
  Rollout.mem_started.2 ⟨row, hrow, h, rfl⟩

theorem mem_claim {options : ClaimOptions} {r : RolloutRow} {action : ReconcileAction} :
    r ∈ (s.claim options row action).deployments.rows ↔
      ∃ a ∈ s.deployments.rows, (if a.id = row.id then lockRow options action a else a) = r := by
  unfold Cluster.claim
  simp only [Keyed.mem_update, decide_eq_true_eq]

theorem ownedBy_id {lease : DeploymentLease} (h : row.ownedBy lease = true) : row.id = lease.deploymentID := by
  simp only [RolloutRow.ownedBy, Bool.and_eq_true, decide_eq_true_eq] at h
  exact h.1

theorem heldAt_attempts {lease : DeploymentLease} {now duration : Int} (h : row.heldAt lease now duration = true) :
    0 < row.reconcileAttempts := by
  simp only [RolloutRow.heldAt, RolloutRow.ownedBy, LeaseColumns.heldBy, Bool.and_eq_true, decide_eq_true_eq] at h
  omega

/-! ### The invariant -/

structure Orderly (s : Cluster) : Prop where
  /-- Attempts are of the newest deployment claimed so far. -/
  newest : ∀ attempt ∈ s.attempts, ∃ d ∈ s.started, d.id = attempt.lease.deploymentID ∧
    ∀ e ∈ s.started, e.age ≤ d.age
  applied : ∀ attempt ∈ s.attempts, attempt.phase ≠ .claimed →
    s.workload = some attempt.lease.deploymentID
  owner : ∀ id, s.workload = some id → ∃ d ∈ s.started, d.id = id ∧ d.applicable = true
  ready : ∀ row ∈ s.deployments.rows, row.status = READY → 0 < row.reconcileAttempts ∧
    ∃ d ∈ s.started, s.workload = some d.id ∧ row.age ≤ d.age
  /-- A deployment that can be applied does not fail any more. -/
  going : ∀ row ∈ s.deployments.rows, 0 < row.reconcileAttempts → row.applicable = true →
    row.status = DEPLOYING ∨ row.status = READY

theorem orderly_empty : Orderly emptyCluster where
  newest := fun _ h => absurd h List.not_mem_nil
  applied := fun _ h => absurd h List.not_mem_nil
  owner := fun _ h => nomatch h
  ready := fun _ h => absurd h List.not_mem_nil
  going := fun _ h => absurd h List.not_mem_nil

namespace Orderly

theorem same_deployment (h : Orderly s) {a b : Attempt} (ha : a ∈ s.attempts) (hb : b ∈ s.attempts) :
    a.lease.deploymentID = b.lease.deploymentID := by
  obtain ⟨d, hd, hda, hdmax⟩ := h.newest a ha
  obtain ⟨e, he, heb, hemax⟩ := h.newest b hb
  rw [← hda, ← heb]
  exact Identity.id_of_age (le_antisymm (hemax d hd) (hdmax e he))

/-- **The newest deployment wins** where all of them have ended. -/
theorem newestWins (h : Orderly s) : NewestWins s := by
  intro hterminal top htop hready hmax
  obtain ⟨-, d, hd, hworkload, hage⟩ := h.ready top htop hready
  obtain ⟨e, he, hid, happlicable⟩ := h.owner d.id hworkload
  obtain ⟨owner, howner, hattempts, rfl⟩ := mem_started.1 he
  obtain ⟨row, hrow, -, rfl⟩ := mem_started.1 hd
  obtain rfl : owner = row := s.deployments.eq_of_key howner hrow hid
  have hended := hterminal owner howner
  have hstatus : owner.status = READY := by
    rcases h.going owner howner hattempts happlicable with hstatus | hstatus
    · rw [hstatus] at hended
      exact absurd hended (by decide)
    · exact hstatus
  have heq : owner.identity.age = top.identity.age := le_antisymm (hmax owner howner hstatus) hage
  rw [hworkload]
  exact congrArg some (Identity.id_of_age heq)

/-! ### Steps -/

/-- A write to deployments keeps the invariant, if what it makes ready owns the workload and what can be
applied does not fail. -/
theorem update (h : Orderly s) {p : RolloutRow → Bool} {f : RolloutRow → RolloutRow}
    {hf : ∀ row, (f row).id = row.id} (hidentity : ∀ row, (f row).identity = row.identity)
    (hattempts : ∀ row, (f row).reconcileAttempts = row.reconcileAttempts)
    (hready : ∀ row ∈ s.deployments.rows, p row = true → (f row).status = READY → 0 < row.reconcileAttempts ∧
      ∃ d ∈ s.started, s.workload = some d.id ∧ row.age ≤ d.age)
    (hgoing : ∀ row ∈ s.deployments.rows, p row = true → 0 < row.reconcileAttempts → row.applicable = true →
      (f row).status = DEPLOYING ∨ (f row).status = READY) :
    Orderly { s with deployments := s.deployments.update p f hf } := by
  have hstarted : Cluster.started { s with deployments := s.deployments.update p f hf } = s.started :=
    @Keyed.map_select_update _ _ _ s.deployments p _ f hf _ _ (fun row => by rw [hattempts]) hidentity
  have hage : ∀ row, (f row).age = row.age := fun row => congrArg Identity.age (hidentity row)
  refine ⟨hstarted ▸ h.newest, h.applied, hstarted ▸ h.owner, ?_, ?_⟩
  · rw [hstarted]
    intro row hrow hstatus
    obtain ⟨r, hr, rfl⟩ := (@Keyed.mem_update _ _ _ s.deployments p f hf _).1 hrow
    by_cases hp : p r = true
    · rw [if_pos hp] at hstatus ⊢
      rw [hattempts, hage]
      exact hready r hr hp hstatus
    · rw [if_neg hp] at hstatus ⊢
      exact h.ready r hr hstatus
  · intro row hrow hattempted happlicable
    obtain ⟨r, hr, rfl⟩ := (@Keyed.mem_update _ _ _ s.deployments p f hf _).1 hrow
    by_cases hp : p r = true
    · rw [if_pos hp] at hattempted happlicable ⊢
      rw [hattempts] at hattempted
      refine hgoing r hr hp hattempted ?_
      rw [← happlicable]
      exact (congrArg Identity.applicable (hidentity r)).symm
    · rw [if_neg hp] at hattempted happlicable ⊢
      exact h.going r hr hattempted happlicable

/-- Attempts may end. -/
theorem drop (h : Orderly s) (i : Nat) : Orderly { s with attempts := s.attempts.eraseIdx i } where
  newest := fun attempt ha => h.newest attempt (List.mem_of_mem_eraseIdx ha)
  applied := fun attempt ha => h.applied attempt (List.mem_of_mem_eraseIdx ha)
  owner := h.owner
  ready := h.ready
  going := h.going

variable {attempt : Attempt} {i : Nat}

theorem advance (h : Orderly s) (ha : attempt ∈ s.attempts) (hworkload : s.workload = some attempt.lease.deploymentID)
    (phase : Phase) : Orderly (s.advance i attempt phase) where
  newest := by
    intro a hmem
    rcases List.mem_or_eq_of_mem_set hmem with hmem | rfl
    · exact h.newest a hmem
    · exact h.newest attempt ha
  applied := by
    intro a hmem hphase
    rcases List.mem_or_eq_of_mem_set hmem with hmem | rfl
    · exact h.applied a hmem hphase
    · exact hworkload
  owner := h.owner
  ready := h.ready
  going := h.going

theorem create (h : Orderly s) {row : RolloutRow} {deployments : Keyed RolloutRow.id}
    (hinsert : s.deployments.insert? row = some deployments) (hfresh : row.fresh = true) :
    Orderly { s with deployments } := by
  simp only [RolloutRow.fresh, Bool.and_eq_true, decide_eq_true_eq, List.contains_iff_mem] at hfresh
  obtain ⟨⟨hstatus, hattempts⟩, -⟩ := hfresh
  have hstarted : Cluster.started { s with deployments } = s.started :=
    congrArg (List.map _) (Keyed.select_insert? hinsert (by rw [hattempts]; rfl))
  have hrows := (Keyed.insert?_rows hinsert).2
  refine ⟨hstarted ▸ h.newest, h.applied, hstarted ▸ h.owner, ?_, ?_⟩
  · rw [hstarted]
    intro r hr hready
    rw [hrows, List.mem_append, List.mem_singleton] at hr
    rcases hr with hr | rfl
    · exact h.ready r hr hready
    · rw [hready] at hstatus
      exact absurd hstatus (by decide)
  · intro r hr hattempted happlicable
    rw [hrows, List.mem_append, List.mem_singleton] at hr
    rcases hr with hr | rfl
    · exact h.going r hr hattempted happlicable
    · omega

theorem build (h : Orderly s) {deploymentId : String} {status : RolloutStatus} (hstatus : builtStatus status = true) :
    Orderly { s with
      deployments := s.deployments.update (fun r => r.id = deploymentId && r.unclaimed) (setStatus status)
        (setStatus_id status) } := by
  refine h.update (fun _ => rfl) (fun _ => rfl) ?_ ?_
  · rintro row - - hready
    obtain rfl : status = READY := hready
    exact absurd hstatus (by decide)
  · -- a deployment that a worker has claimed is out of reach of a build, unless it has failed its checks
    intro row hrow hp hattempted happlicable
    have hunclaimed := (Bool.and_eq_true _ _ ▸ hp).2
    unfold RolloutRow.unclaimed at hunclaimed
    rcases h.going row hrow hattempted happlicable with hgoing | hgoing <;>
    · rw [hgoing] at hunclaimed
      exact absurd hunclaimed (by decide)

theorem claim (h : Orderly s) {options : ClaimOptions} {row : RolloutRow} {action : ReconcileAction}
    (hrow : row ∈ s.deployments.rows)
    (hwait : ∀ attempt ∈ s.attempts, attempt.lease.deploymentID = row.id)
    (horder : ∀ r ∈ s.deployments.rows, 0 < r.reconcileAttempts → r.age ≤ row.age) :
    Orderly (s.claim options row action) := by
  have hnew : row.identity ∈ (s.claim options row action).started := by
    refine mem_started.2 ⟨lockRow options action row, ?_, Nat.succ_pos _, rfl⟩
    exact mem_claim.2 ⟨row, hrow, if_pos rfl⟩
  have hsub : ∀ d ∈ s.started, d ∈ (s.claim options row action).started := by
    intro d hd
    obtain ⟨r, hr, hattempted, rfl⟩ := mem_started.1 hd
    refine mem_started.2 ⟨_, mem_claim.2 ⟨r, hr, rfl⟩, ?_, ?_⟩
    · split
      · exact Nat.succ_pos _
      · exact hattempted
    · split <;> rfl
  have hmax : ∀ d ∈ (s.claim options row action).started, d.age ≤ row.identity.age := by
    intro d hd
    obtain ⟨r', hr', hattempted, rfl⟩ := mem_started.1 hd
    obtain ⟨r, hr, rfl⟩ := mem_claim.1 hr'
    by_cases hid : r.id = row.id
    · obtain rfl := s.deployments.eq_of_key hr hrow hid
      rw [if_pos rfl]
      exact le_refl _
    · rw [if_neg hid] at hattempted ⊢
      exact horder r hr hattempted
  refine ⟨?_, ?_, ?_, ?_, ?_⟩
  · intro attempt ha
    refine ⟨row.identity, hnew, ?_, hmax⟩
    rcases List.mem_append.1 ha with ha | ha
    · exact (hwait attempt ha).symm
    · rw [List.mem_singleton.1 ha]
      rfl
  · intro attempt ha hphase
    rcases List.mem_append.1 ha with ha | ha
    · exact h.applied attempt ha hphase
    · rw [List.mem_singleton.1 ha] at hphase
      exact absurd rfl hphase
  · intro id hid
    obtain ⟨d, hd, hdid⟩ := h.owner id hid
    exact ⟨d, hsub d hd, hdid⟩
  · intro r' hr' hready
    obtain ⟨r, hr, rfl⟩ := mem_claim.1 hr'
    by_cases hid : r.id = row.id
    · rw [if_pos hid] at hready
      exact nomatch hready
    · rw [if_neg hid] at hready ⊢
      obtain ⟨hattempted, d, hd, howner⟩ := h.ready r hr hready
      exact ⟨hattempted, d, hsub d hd, howner⟩
  · intro r' hr' hattempted happlicable
    obtain ⟨r, hr, rfl⟩ := mem_claim.1 hr'
    by_cases hid : r.id = row.id
    · rw [if_pos hid]
      exact .inl rfl
    · rw [if_neg hid] at hattempted happlicable ⊢
      exact h.going r hr hattempted happlicable

/-- A failure of a deployment that cannot be applied. -/
theorem failed (h : Orderly s) (i : Nat) (hchecks : s.applicable attempt.lease.deploymentID = false) :
    Orderly (s.failed i attempt) := by
  refine Orderly.drop (s := { s with deployments := markFailed s.deployments attempt.lease }) ?_ i
  refine h.update (fun _ => rfl) (fun _ => rfl) (fun _ _ _ hready => nomatch hready) ?_
  intro row hrow howned _ happlicable
  have hid := ownedBy_id howned
  unfold Cluster.applicable at hchecks
  rw [List.any_eq_false] at hchecks
  exact absurd (by simp [hid, happlicable]) (hchecks row hrow)

/-- Attempts under way are all of the deployment that takes the workload. -/
theorem takeWorkload (h : Orderly s) (ha : attempt ∈ s.attempts)
    (hchecks : s.applicable attempt.lease.deploymentID = true) :
    Orderly { s.advance i attempt .applied with workload := some attempt.lease.deploymentID } := by
  obtain ⟨d, hd, hid, hmax⟩ := h.newest attempt ha
  refine ⟨?_, ?_, ?_, ?_, h.going⟩
  · intro a hmem
    rcases List.mem_or_eq_of_mem_set hmem with hmem | rfl
    · exact h.newest a hmem
    · exact h.newest attempt ha
  · intro a hmem _
    rcases List.mem_or_eq_of_mem_set hmem with hmem | rfl
    · exact congrArg some (h.same_deployment ha hmem)
    · rfl
  · intro id hworkload
    obtain rfl : attempt.lease.deploymentID = id := Option.some.inj hworkload
    refine ⟨d, hd, hid, ?_⟩
    obtain ⟨row, hrow, hmatch⟩ := List.any_eq_true.1 hchecks
    rw [Bool.and_eq_true, decide_eq_true_eq] at hmatch
    obtain ⟨r, hr, -, rfl⟩ := mem_started.1 hd
    obtain rfl : r = row := s.deployments.eq_of_key hr hrow (hid.trans hmatch.1.symm)
    exact hmatch.2
  · intro row hrow hready
    obtain ⟨hattempted, -⟩ := h.ready row hrow hready
    exact ⟨hattempted, d, hd, congrArg some hid.symm, hmax _ (row.mem_started hrow hattempted)⟩

theorem work (h : Orderly s) (ha : attempt ∈ s.attempts) : Orderly (Rollout.work observes s i attempt) := by
  have happlied := h.applied attempt ha
  unfold Rollout.work
  cases hphase : attempt.phase with
  | claimed =>
    by_cases hchecks : s.applicable attempt.lease.deploymentID = true
    · simp only [if_pos hchecks]
      exact h.takeWorkload ha hchecks
    · simp only [if_neg hchecks]
      exact h.failed i (Bool.eq_false_iff.2 hchecks)
  | applied =>
    have hworkload := happlied (by rw [hphase]; decide)
    have hkeep : s.workload.filter (fun owner => owner = attempt.lease.deploymentID) = s.workload := by
      rw [hworkload]
      simp
    simp only [hkeep]
    exact h.advance ha hworkload .pruned
  | pruned =>
    have hworkload := happlied (by rw [hphase]; decide)
    simp only [hworkload, Option.isSome_some, if_true]
    exact h.advance ha hworkload .rolledOut
  | rolledOut =>
    have hworkload := happlied (by rw [hphase]; decide)
    simp only [hworkload, ne_eq, not_true_eq_false, decide_false, Bool.and_false, Bool.false_eq_true, if_false]
    exact h.advance ha hworkload .observed
  | observed => exact h

theorem complete (h : Orderly s) (i : Nat) {attempt : Attempt} (ha : attempt ∈ s.attempts)
    (hphase : attempt.phase = .observed) (now duration : Int) :
    Orderly { s with
      deployments := completeRollout s.deployments attempt.lease now duration
      attempts := s.attempts.eraseIdx i } := by
  refine Orderly.drop (s := { s with deployments := completeRollout s.deployments attempt.lease now duration }) ?_ i
  have hworkload := h.applied attempt ha (by rw [hphase]; decide)
  obtain ⟨d, hd, hid, hmax⟩ := h.newest attempt ha
  refine h.update (fun _ => rfl) (fun _ => rfl) ?_ (fun _ _ _ _ _ => .inr rfl)
  intro row hrow hheld _
  have hattempted := heldAt_attempts hheld
  exact ⟨hattempted, d, hd, hid ▸ hworkload, hmax _ (row.mem_started hrow hattempted)⟩

theorem renew (h : Orderly s) (lease : DeploymentLease) (now : Int) :
    Orderly { s with deployments := renewDeploymentLease s.deployments lease now } := by
  refine h.update (fun _ => rfl) (fun _ => rfl) ?_ ?_
  · rintro row hrow - hready
    exact h.ready row hrow hready
  · rintro row hrow - hattempted happlicable
    exact h.going row hrow hattempted happlicable

end Orderly

/-! ### Runs -/

theorem selected_mem {options : ClaimOptions} (h : s.selected options = some row) : row ∈ s.deployments.rows := by
  have hmem := List.mem_of_mem_head? (Option.mem_def.2 h)
  rw [List.mem_insertionSort] at hmem
  exact List.mem_of_mem_filter hmem

/-- What a step does where claims are in turn keeps the invariant. -/
theorem orderly_step {e : RolloutEvent} (h : Orderly s) (hstep : RolloutStep observes s e t)
    (hturn : InTurn s e) : Orderly t := by
  unfold RolloutStep at hstep
  cases e with
  | create row =>
    simp only [Cluster.next] at hstep
    split at hstep
    · rename_i hfresh
      obtain ⟨deployments, hinsert, rfl⟩ := Option.map_eq_some_iff.1 hstep
      exact h.create hinsert hfresh
    · exact nomatch hstep
  | build deploymentId status =>
    simp only [Cluster.next] at hstep
    split at hstep
    · rename_i hstatus
      obtain rfl := Option.some.inj hstep
      exact h.build hstatus
    · exact nomatch hstep
  | claim options =>
    obtain ⟨row, hselected, hrest⟩ := Option.bind_eq_some_iff.1 hstep
    obtain ⟨action, -, hclaim⟩ := Option.bind_eq_some_iff.1 hrest
    obtain rfl := Option.some.inj hclaim
    obtain ⟨hwait, horder⟩ := hturn row hselected
    exact h.claim (selected_mem hselected) hwait horder
  | work i =>
    obtain ⟨attempt, hi, rfl⟩ := Option.map_eq_some_iff.1 hstep
    exact h.work (List.mem_of_getElem? hi)
  | complete i now duration =>
    obtain ⟨attempt, hi, rfl⟩ := Option.map_eq_some_iff.1 hstep
    obtain ⟨hi, hphase⟩ := Option.filter_eq_some_iff.1 hi
    exact h.complete i (List.mem_of_getElem? hi) (of_decide_eq_true hphase) now duration
  | renew i now =>
    obtain ⟨attempt, -, rfl⟩ := Option.map_eq_some_iff.1 hstep
    exact h.renew attempt.lease now
  | stop i =>
    obtain ⟨-, -, rfl⟩ := Option.map_eq_some_iff.1 hstep
    exact h.drop i

/-- **Claims in turn**: in every state of a run whose claims wait for each other and follow the age of the
deployments, the newest deployment wins. -/
theorem newest_wins_in_turn (observes : Bool) {es : List RolloutEvent} {s : Cluster}
    (run : Run (fun s e t => RolloutStep observes s e t ∧ InTurn s e) emptyCluster es s) : NewestWins s := by
  have horderly : Orderly s :=
    run.invariant (I := Orderly) (fun _ _ _ h hstep => orderly_step h hstep.1 hstep.2) orderly_empty
  exact horderly.newestWins

theorem newest_wins_in_turn_twice :
    ∃ es s, Run (fun s e t => RolloutStep true s e t ∧ InTurn s e) emptyCluster es s ∧
      s.deployments.rows.map (fun row => (row.id, row.status)) = [("older", READY), ("newer", READY)] ∧
        NewestWins s := by
  have hexec : ∀ s e e' t, s.execute true (fun s e => decide (InTurn s e)) e = some (e', t) →
      RolloutStep true s e' t ∧ InTurn s e' :=
    fun _ _ _ _ h => ⟨(execute_eq_some h).1, of_decide_eq_true (execute_eq_some h).2⟩
  have htrace := Run.exists_of_trace hexec emptyCluster
    ([.create (exampleRow "older" 1), .create (exampleRow "newer" 2), .build "older" IMAGE_READY] ++ rollOut 10 ++
      [.build "newer" IMAGE_READY] ++ rollOut 20)
    (fun _ s => s.deployments.rows.map (fun row => (row.id, row.status)) = [("older", READY), ("newer", READY)])
    (by decide +kernel)
  obtain ⟨es, s, run, hrows⟩ := htrace
  exact ⟨es, s, run, of_decide_eq_true hrows, newest_wins_in_turn true run⟩

end RaibitServer.Rollout
