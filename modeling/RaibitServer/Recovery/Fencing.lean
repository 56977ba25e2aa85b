import RaibitServer.Recovery.Coherence

/-!
# Recovery.Fencing — stale workers are fenced off

A claim draws the next attempt number and a mutation must name it, so the numbers in an operation's
history tell the workers apart.  `FenceInv` is the invariant that ties the history to the job: the
claims are numbered `1, 2, …` up to the job's counter, a locked job is locked by the worker of the
last claim, and every mutation comes after the claim of its own worker and number.
-/

namespace RaibitServer.Recovery

open Lib

variable {P : Platform} {enforceQuota : RecoveryQuotaPolicy}

def Label.claim? : Label → Option (String × Nat)
  | .claimed worker attempt => some (worker, attempt)
  | .mutated _ _ _ => none

def Label.mutation? : Label → Option (String × Nat)
  | .claimed _ _ => none
  | .mutated worker attempt _ => some (worker, attempt)

/-- The workers and numbers of the claims of a history. -/
def claims (h : List Label) : List (String × Nat) := h.filterMap Label.claim?

/-- The workers and numbers of the mutations of a history. -/
def mutations (h : List Label) : List (String × Nat) := h.filterMap Label.mutation?

@[simp] theorem claims_append (h h' : List Label) : claims (h ++ h') = claims h ++ claims h' :=
  List.filterMap_append

@[simp] theorem mutations_append (h h' : List Label) :
    mutations (h ++ h') = mutations h ++ mutations h' := List.filterMap_append

@[simp] theorem claims_claimed (worker : String) (n : Nat) :
    claims [.claimed worker n] = [(worker, n)] := rfl

@[simp] theorem claims_mutated (worker : String) (n : Nat) (m : RecoveryMutation) :
    claims [.mutated worker n m] = [] := rfl

@[simp] theorem mutations_claimed (worker : String) (n : Nat) :
    mutations [.claimed worker n] = [] := rfl

@[simp] theorem mutations_mutated (worker : String) (n : Nat) (m : RecoveryMutation) :
    mutations [.mutated worker n m] = [(worker, n)] := rfl

structure FenceInv (h : List Label) (c : Cell) : Prop where
  numbers : (claims h).map Prod.snd = List.range' 1 c.job.attempts
  holder : ∀ worker, c.job.lockedBy = some worker → (worker, c.job.attempts) ∈ claims h
  sorted : ((mutations h).map Prod.snd).Pairwise (· ≤ ·)
  bounded : ∀ m ∈ mutations h, m.2 ≤ c.job.attempts
  claimed : ∀ h₁ worker n m h₂, h = h₁ ++ .mutated worker n m :: h₂ → (worker, n) ∈ claims h₁

variable {c c' : Cell} {h : List Label} {ls : List (Option Label)}

theorem Cell.Initial.fenceInv (hc : c.Initial) : FenceInv [] c where
  numbers := by simp [claims, hc.attempts]
  holder := by simp [hc.lockedBy]
  sorted := by simp [mutations]
  bounded := by simp [mutations]
  claimed := by simp

/-- A change that draws no number and does not hand the lock to anybody. -/
theorem FenceInv.keep (hi : FenceInv h c) (hatt : c'.job.attempts = c.job.attempts)
    (hby : ∀ worker, c'.job.lockedBy = some worker → c.job.lockedBy = some worker) : FenceInv h c' :=
  ⟨hatt ▸ hi.numbers, fun worker hw => hatt ▸ hi.holder worker (hby worker hw), hi.sorted,
    hatt ▸ hi.bounded, hi.claimed⟩

theorem FenceInv.claim (hi : FenceInv h c) {worker : String} (hatt : c'.job.attempts = c.job.attempts + 1)
    (hby : c'.job.lockedBy = some worker) : FenceInv (h ++ [.claimed worker (c.job.attempts + 1)]) c' := by
  refine ⟨?_, fun w hw => ?_, by simpa using hi.sorted, fun m hm => ?_, fun h₁ w n m h₂ heq => ?_⟩
  · rw [claims_append, List.map_append, hi.numbers, hatt, List.range'_1_concat]
    simp [Nat.add_comm]
  · obtain rfl : worker = w := by simpa [hby] using hw
    simp [hatt]
  · have := hi.bounded m (by simpa using hm)
    omega
  · rcases snoc_eq_append_cons heq with ⟨-, hl, -⟩ | ⟨h₃, rfl, -⟩
    · cases hl
    · exact hi.claimed h₁ w n m h₃ rfl

theorem FenceInv.mutate (hi : FenceInv h c) {worker : String} {n : Nat} {m : RecoveryMutation}
    (hby : c.job.lockedBy = some worker) (hatt : c.job.attempts = n) : FenceInv (h ++ [.mutated worker n m]) c := by
  refine ⟨by simpa using hi.numbers, fun w hw => by simpa using hi.holder w hw, ?_, fun k hk => ?_,
    fun h₁ w n' m' h₂ heq => ?_⟩
  · rw [mutations_append, List.map_append, List.pairwise_append]
    refine ⟨hi.sorted, by simp, fun a ha b hb => ?_⟩
    obtain ⟨k, hk, rfl⟩ := List.mem_map.1 ha
    obtain rfl : b = n := by simpa using hb
    exact hatt ▸ hi.bounded k hk
  · rw [mutations_append, List.mem_append] at hk
    rcases hk with hk | hk
    · exact hi.bounded k hk
    · obtain rfl : k = (worker, n) := by simpa using hk
      exact hatt.ge
  · rcases snoc_eq_append_cons heq with ⟨rfl, hl, -⟩ | ⟨h₃, rfl, -⟩
    · cases hl
      exact hatt ▸ hi.holder worker hby
    · exact hi.claimed h₁ w n' m' h₃ rfl

/-- No mutation hands the lock to another worker or draws a number. -/
theorem Mutation.job {n now m c pins c' pins'} (h : Mutation n now m c pins c' pins') :
    c'.job.attempts = c.job.attempts ∧
      ∀ worker, c'.job.lockedBy = some worker → c.job.lockedBy = some worker := by
  cases h <;> refine ⟨rfl, fun worker hw => ?_⟩ <;> first | exact hw | simp [releaseJob] at hw

theorem cellStep_fenceInv {l : Option Label} (hi : FenceInv h c) (hstep : CellStep c l c') :
    FenceInv (h ++ l.toList) c' := by
  obtain ⟨pins, pins', change⟩ := hstep
  cases change with
  | claimed _ _ _ _ => exact hi.claim rfl rfl
  | mutated fenced apply =>
    exact (hi.mutate fenced.lockedBy fenced.attempts).keep apply.job.1 apply.job.2
  | _ =>
    rw [Option.toList_none, List.append_nil]
    refine hi.keep rfl fun worker hw => ?_
    first | exact hw | simp [releaseJob] at hw

theorem cellRun_fenceInv {c₀ : Cell} (h : Run CellStep c₀ ls c) (h0 : c₀.Initial) : FenceInv ls.reduceOption c := by
  induction h with
  | nil => exact h0.fenceInv
  | @snoc ls c c' l _ last ih =>
    have := cellStep_fenceInv ih last
    rw [List.reduceOption_append]
    cases l <;> simpa using this

/-! ### After the operation left its worker -/

theorem not_active_next {kind : RecoveryKind} {status next : OperationStatus} (h : ¬ Active status)
    (hnext : next ∈ lifecycleNext kind status) : ¬ Active next := by
  cases kind <;> cases status <;> first
    | (exfalso; revert h; decide)
    | (revert hnext; cases next <;> decide)

theorem queued_not_next {kind : RecoveryKind} {status : OperationStatus} :
    OperationStatus.QUEUED ∉ lifecycleNext kind status := by
  cases kind <;> cases status <;> decide

theorem CellStep.edge {l : Option Label} (h : CellStep c l c') :
    c'.operation.status = c.operation.status ∨
      c'.operation.status ∈ lifecycleNext c.operation.kind c.operation.status := by
  obtain ⟨_, _, change⟩ := h
  exact change.edge

/-- An operation that is no longer active stays so, and no mutation passes its fence. -/
theorem cellRun_retired (h : Run CellStep c ls c') (hc : ¬ Active c.operation.status) :
    ¬ Active c'.operation.status ∧ mutations ls.reduceOption = [] := by
  induction h with
  | nil => exact ⟨hc, rfl⟩
  | @snoc ls c' c'' l _ last ih =>
    obtain ⟨hret, hnone⟩ := ih
    refine ⟨?_, ?_⟩
    · rcases last.edge with heq | hmem
      · rwa [heq]
      · exact not_active_next hret hmem
    · rw [List.reduceOption_append, mutations_append, hnone, List.nil_append]
      obtain ⟨_, _, change⟩ := last
      cases change with
      | mutated fenced _ => exact absurd (Active.of_fence fenced.status) hret
      | _ => rfl

theorem cellRun_not_queued (h : Run CellStep c ls c') (hc : c.operation.status ≠ .QUEUED) :
    c'.operation.status ≠ .QUEUED :=
  h.invariant (I := fun c : Cell => c.operation.status ≠ .QUEUED) (fun c _ c' hne hstep heq => by
    rcases hstep.edge with h | h
    · exact hne (h ▸ heq)
    · exact queued_not_next (heq ▸ h)) hc

/-! ### At one instant -/

/-- The two lease tests are exact complements. -/
theorem leaseLost_eq_not_leaseBusy (lockedAt : Option Millis) (now : Millis) :
    leaseLost lockedAt now = !leaseBusy lockedAt now := by
  cases lockedAt with
  | none => rfl
  | some t => simp [leaseLost, leaseBusy, ← decide_not, not_lt]

/-! ### Runs -/

/-- What the history `es` that led to `s` says about the workers on operation `x`. -/
structure WorkersFenced (P : Platform) (enforceQuota : RecoveryQuotaPolicy) (es : List Event)
    (s : RecoveryState) (x : String) : Prop where
  /-- The attempt numbers of the successful mutations never decrease. -/
  sorted : ((mutations (history x es)).map Prod.snd).Pairwise (· ≤ ·)
  /-- The successful claims draw the numbers `1, 2, …` in turn, each of them once. -/
  numbers : ∃ k, (claims (history x es)).map Prod.snd = List.range' 1 k
  /-- A mutation under number `n` comes after the claim that drew `n`, from the same worker, and no
  other worker's claim drew `n`. -/
  owner : ∀ h₁ worker n m h₂, history x es = h₁ ++ .mutated worker n m :: h₂ →
    (worker, n) ∈ claims h₁ ∧ ∀ worker', (worker', n) ∈ claims (history x es) → worker' = worker
  /-- Once the operation left `RUNNING` and `VERIFYING`, no mutation of it succeeds again. -/
  left : ∀ es₁ s₁ es₂ s₂, Run (Step P enforceQuota) s es₁ s₁ → Run (Step P enforceQuota) s₁ es₂ s₂ →
    ∀ o ∈ s.operations, o.id = x → o.status ∈ [OperationStatus.RUNNING, .VERIFYING] →
    ∀ o₁ ∈ s₁.operations, o₁.id = x → o₁.status ∉ [OperationStatus.RUNNING, .VERIFYING] →
      mutations (history x es₂) = []
  /-- At one instant, a mutation and a claim of the operation do not both succeed. -/
  exclusive : ∀ (f : RecoveryFence) (m : RecoveryMutation) (i : RecoveryClaim) (now : Millis),
    f.operationId = x → i.operationId = x →
    recoveryNow P f.clock = .ok now → recoveryNow P i.clock = .ok now →
      ∀ r r', mutateRecovery P s f m = .ok r → claimRecovery P s i ≠ .ok r'
  /-- The lease test of the fence is the negation of the busy test of the claim. -/
  complement : ∀ lockedAt now, leaseLost lockedAt now = !leaseBusy lockedAt now

theorem FenceInv.unique (hi : FenceInv h c) {w w' : String} {n : Nat} (hw : (w, n) ∈ claims h)
    (hw' : (w', n) ∈ claims h) : w' = w := by
  have hnodup : ((claims h).map Prod.snd).Nodup := hi.numbers ▸ List.nodup_range'
  simpa using List.inj_on_of_nodup_map hnodup hw' hw rfl

/-- **Workers are fenced in every run**, by their names, attempt numbers, leases and statuses. -/
theorem run_workersFenced {s₀ s : RecoveryState} {es : List Event} (empty : EmptyTables s₀)
    (run : Run (Step P enforceQuota) s₀ es s) {x : String} {o : Operation} (ho : o ∈ s.operations)
    (hx : o.id = x) : WorkersFenced P enforceQuota es s x := by
  have hk := run_keyed empty run
  obtain ⟨c, hc, rfl⟩ := hk.exists_cell ho
  subst hx
  obtain ⟨c₀, ls, hinit, hcell, hls⟩ := run_cell empty run hc
  have hi := cellRun_fenceInv hcell hinit
  rw [hls] at hi
  refine ⟨hi.sorted, ⟨_, hi.numbers⟩, fun h₁ worker n m h₂ heq => ?_, ?_, ?_,
    leaseLost_eq_not_leaseBusy⟩
  · have hclaim := hi.claimed h₁ worker n m h₂ heq
    have hmem : (worker, n) ∈ claims (history c.operation.id es) := by
      rw [heq, claims_append]
      exact List.mem_append_left _ hclaim
    exact ⟨hclaim, fun worker' hw => hi.unique hmem hw⟩
  · intro es₁ s₁ es₂ s₂ run₁ run₂ o ho hid hstatus o₁ ho₁ hid₁ hstatus₁
    obtain rfl : o = c.operation := List.inj_on_of_nodup_map hk.ids ho (cell_eq_some hc).1 hid
    have hk₁ := run₁.invariant step_keyed hk
    obtain ⟨c₁, ls₁, hc₁, hcell₁, -⟩ := run_cell_from hk run₁ hc
    obtain ⟨hmem₁, hcid₁, -⟩ := cell_eq_some hc₁
    obtain rfl : o₁ = c₁.operation := List.inj_on_of_nodup_map hk₁.ids ho₁ hmem₁ (hid₁.trans hcid₁.symm)
    obtain ⟨c₂, ls₂, -, hcell₂, hls₂⟩ := run_cell_from hk₁ run₂ hc₁
    have hq : c₁.operation.status ≠ .QUEUED := cellRun_not_queued hcell₁ fun h => by
      simp [h] at hstatus
    have hret : ¬ Active c₁.operation.status := by
      simp only [List.mem_cons, List.not_mem_nil, or_false, not_or] at hstatus₁
      simp only [active_iff, not_or]
      exact ⟨hq, hstatus₁⟩
    rw [← hls₂]
    exact (cellRun_retired hcell₂ hret).2
  · -- while a mutation passes the fence at an instant, no claim of the operation does
    intro f m i now hf hi hnow hnow' r r' hm hclaim
    obtain ⟨t, r'⟩ := r'
    obtain ⟨o, j, time, hmem, hoid, hj, htime, -, hfree, -, -⟩ := claimRecovery_ok hclaim
    obtain rfl : time = now := by simpa [hnow', eq_comm] using htime
    simp only [mutateRecovery, bind_ok] at hm
    obtain ⟨⟨o', j', time'⟩, hfence, -⟩ := hm
    obtain ⟨hmem', hoid', -, hj', htime', hfenced⟩ := fenceRecovery_ok hfence
    obtain rfl : time' = time := by simpa [hnow, eq_comm] using htime'
    obtain rfl : o' = o :=
      List.inj_on_of_nodup_map hk.ids hmem' hmem (by rw [hoid, hoid', hi, hf])
    obtain rfl : j' = j := by simpa [hj] using hj'.symm
    have hlease := (hfenced []).lease
    rw [leaseLost_eq_not_leaseBusy, hfree] at hlease
    simp at hlease

/-- A worker whose lease ran out is refused, and its successor works under the next number. -/
theorem run_workersFenced_takeover : ∃ es s, Run (Step Sample.platform Sample.quota) Sample.state es s ∧
    mutations (history "backup_1" es) = [("w1", 1), ("w2", 2)] ∧
    WorkersFenced Sample.platform Sample.quota es s "backup_1" := by
  obtain ⟨es, s, hrun, hcheck⟩ := exists_run Sample.platform Sample.quota Sample.state
    ([Sample.createBackup, Sample.claim "w1" 0, Sample.mutate "w1" 1 1 .heartbeat,
      Sample.claim "w2" 60000, Sample.claim "w2" 60001, Sample.mutate "w1" 1 60002 .heartbeat,
      Sample.mutate "w2" 2 60002 .heartbeat])
    (fun es s => mutations (history "backup_1" es) = [("w1", 1), ("w2", 2)] ∧
      s.operations.map Operation.id = ["backup_1"]) (by decide +kernel)
  simp only [decide_eq_true_eq] at hcheck
  obtain ⟨o, ho, hid⟩ := List.mem_map.1 (hcheck.2 ▸ List.mem_singleton_self "backup_1")
  exact ⟨es, s, hrun, hcheck.1, run_workersFenced Sample.state_empty hrun ho hid⟩

end RaibitServer.Recovery
