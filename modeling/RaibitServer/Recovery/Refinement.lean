import RaibitServer.Recovery.View

/-!
# Recovery.Refinement — the repository refines the cell machine

For each repository function there is one lemma that says which `Change` it makes on which cell;
`step_effect` collects them, and `step_seen` reads a step through the cell of a fixed operation.
`run_cell` is the refinement for whole runs: the cell of an operation has run the cell machine from
its creation, and the claims and mutations the history records for it are that run's labels.
-/

namespace RaibitServer.Recovery

open Lib

variable {P : Platform} {enforceQuota : RecoveryQuotaPolicy} {s s' : RecoveryState}

/-! ### Effects -/

/-- The pin a creation writes for its operation. -/
def CreatedPin (s : RecoveryState) (pin : RecoveryPin) : Operation → Prop
  | .backup b => pin.kind = .ARTIFACT_SOURCE ∧ pin.backupId = b.id ∧ pin.restoreId = none
  | .restore r => pin.kind = .RESTORE_TARGET ∧ pin.backupId = r.backupId ∧
      pin.restoreId = some r.id ∧ pin.resourceId = r.targetResourceId ∧ r.targetCleanedAt = none ∧
      ∃ b ∈ s.backups, b.id = r.backupId ∧ b.status = .READY

/-- What a step does to the recovery tables, with the operation and the label it is about. -/
inductive Effect (s s' : RecoveryState) : Option (String × Label) → Prop
  | quiet (same : SameTables s s') : Effect s s' none
  | created {o j pin l₁ l₂} (new : Cell.Initial ⟨o, j, []⟩) (target : j.targetId = o.id)
      (freshId : ∀ o' ∈ s.operations, o'.id ≠ o.id) (freshJob : ∀ j' ∈ s.jobs, j'.id ≠ j.id)
      (before : s.operations = l₁ ++ l₂) (after : s'.operations = l₁ ++ o :: l₂)
      (jobs : s'.jobs = s.jobs ++ [j]) (attempts : s'.attempts = s.attempts)
      (pins : s'.pins = s.pins ++ [pin]) (pinned : CreatedPin s pin o) : Effect s s' none
  | changed {c c' l} (cell : s.cell c.operation.id = some c)
      (change : Change l c s.pins c' s'.pins) (writes : Rewrites s s' c') :
      Effect s s' (l.map fun l => (c.operation.id, l))

/-! ### The cleanup lease of a call -/

/-- Token, worker and end of the cleanup lease. -/
def Operation.lease (o : Operation) : Option String × Option String × Option Millis :=
  (o.base.cleanupToken, o.base.cleanupWorker, o.base.cleanupLeaseUntil)

/-- A worker has no hand in the cleanup lease. -/
theorem Mutation.lease {n now m c pins c' pins'} (h : Mutation n now m c pins c' pins') :
    c'.operation.lease = c.operation.lease := by
  cases h <;>
    first
    | rfl
    | simp [Operation.lease, failOperation, verifyOperation]

/-- The calls of a cleanup. -/
def Call.cleans : Call → Bool
  | .claimCleanup _ _ | .finishCleanup _ => true
  | _ => false

/-- What becomes of the cleanup lease of the operation that a call rewrites. -/
inductive LeaseMove (P : Platform) (o o' : Operation) : Call → Prop
  | kept {call} (keeps : call.cleans = false) (same : o'.lease = o.lease) : LeaseMove P o o' call
  | taken {input token now} (id : o.id = input.operationId) (clock : recoveryNow P input.clock = .ok now)
      (free : cleanupBusy o.base.cleanupLeaseUntil now = false)
      (alive : o.kind = .backup → o.status ≠ .DELETED)
      (lease : o'.lease = (some token, some input.workerId, some (now + leaseMillis))) :
      LeaseMove P o o' (.claimCleanup input token)
  | cleared {input now} (id : o.id = input.operationId) (clock : recoveryNow P input.clock = .ok now)
      (token : o.base.cleanupToken = some input.token)
      (live : deadlineLost o.base.cleanupLeaseUntil now = false)
      (deleted : o.kind = .backup → o'.status = .DELETED) (lease : o'.lease = (none, none, none)) :
      LeaseMove P o o' (.finishCleanup input)

/-- What a call that rewrites an operation does: the change of its cell and the move of its cleanup lease. -/
inductive Moved (P : Platform) (s s' : RecoveryState) (call : Call) (l : Option (String × Label)) : Prop
  | mk {c c' k} (cell : s.cell c.operation.id = some c) (change : Change k c s.pins c' s'.pins)
      (writes : Rewrites s s' c') (lease : LeaseMove P c.operation c'.operation call)
      (label : k.map (fun k => (c.operation.id, k)) = l)

theorem Moved.effect {call : Call} {l : Option (String × Label)} (h : Moved P s s' call l) : Effect s s' l := by
  obtain ⟨cell, change, writes, -, rfl⟩ := h
  exact .changed cell change writes

variable {j : RecoveryJob} {o : Operation} {b : RecoveryBackup} {input : RecoveryClaim} {kind : RecoveryKind}
  {r : RecoveryResult} {now : Millis} {f : RecoveryAttempt → RecoveryAttempt} {n : Nat} {x : String}
  {m : RecoveryMutation} {ids : FreshIds} {request : RecoveryRequest} {es : List Event}

/-- A write through `recoverySet` is the change it makes on the cell. -/
theorem Moved.of_recoverySet (hk : Keyed s) {s₁ : RecoveryState} {o' : Operation} {l : Option Label} {c : Call}
    (job : Option RecoveryJob) (ho : o ∈ s.operations) (hj : recoveryJob s o.id = .ok j) (ht : Touches s s₁ o.id)
    (change : Change l ⟨o, j, s.journal o.id⟩ s.pins ⟨o', writtenJob job j, s₁.journal o.id⟩ s₁.pins)
    (lease : LeaseMove P o o' c) : Moved P s (recoverySet s₁ o' job) c (l.map fun l => (o.id, l)) :=
  .mk (hk.cell_eq ho hj) (by simpa using change)
    (ht.rewrites hk o' ho hj change.sameKeys.id change.sameKeys.kind job) lease rfl

/-! ### Reads that succeed -/

theorem recoveryBackup_ok {id organizationId : String} (h : recoveryBackup s id organizationId = .ok b) :
    b ∈ s.backups ∧ b.id = id := by
  simp only [recoveryBackup, bind_ok, orThrow_ok, throwIf_ok, pure_ok] at h
  obtain ⟨b', hb', -, -, rfl⟩ := h
  have hp := List.find?_some hb'
  simp only [decide_eq_true_eq] at hp
  exact ⟨List.mem_of_find?_eq_some hb', hp.1⟩

theorem restore_found {id organizationId : String} {r : RecoveryRestore}
    (h : (s.restores.find? fun row => row.id = id ∧ row.organizationId = organizationId) = some r) :
    r ∈ s.restores ∧ r.id = id := by
  have hp := List.find?_some h
  simp only [decide_eq_true_eq] at hp
  exact ⟨List.mem_of_find?_eq_some h, hp.1⟩

theorem recoveryOperation_ok (h : recoveryOperation s input = .ok o) :
    o ∈ s.operations ∧ o.id = input.operationId ∧ o.kind = input.kind := by
  unfold recoveryOperation at h
  cases hkind : input.kind with
  | backup =>
    simp only [hkind, bind_ok, pure_ok] at h
    obtain ⟨b, hb, rfl⟩ := h
    obtain ⟨hmem, hid⟩ := recoveryBackup_ok hb
    exact ⟨mem_operations_backup.2 hmem, hid, rfl⟩
  | restore =>
    simp only [hkind, bind_ok, orThrow_ok, pure_ok] at h
    obtain ⟨r, hr, rfl⟩ := h
    obtain ⟨hmem, hid⟩ := restore_found hr
    exact ⟨mem_operations_restore.2 hmem, hid, rfl⟩

theorem recoveryTransition_ok {source target : OperationStatus} {u : Unit} :
    recoveryTransition kind source target = .ok u ↔
      source ≠ target ∧ target ∈ lifecycleNext kind source := by
  simp [recoveryTransition]

theorem toISOString_ok {t t' : Millis} (h : toISOString t = .ok t') : t' = t := by
  unfold toISOString at h
  split_ifs at h
  simpa using h.symm

/-! ### Claims -/

/-- A claim that succeeds found the operation active and its lease free; it then fails the operation
or hands it to the worker. -/
theorem claimRecovery_ok (h : claimRecovery P s input = .ok (s', r)) : ∃ o j now, o ∈ s.operations ∧
      o.id = input.operationId ∧ recoveryJob s o.id = .ok j ∧ recoveryNow P input.clock = .ok now ∧
      Active o.status ∧ leaseBusy j.lockedAt now = false ∧
      s' = recoverySet s r.operation (some r.job) ∧
      ((∃ code, r = ⟨failOperation o code now, releaseJob j .failed now⟩) ∨
        j.attempts < 3 ∧ ∃ deadline, (o.base.deadlineAt = none → deadline = now + deadlineMillis) ∧
          r = ⟨startOperation o deadline now, lockJob j input.workerId now⟩) := by
  simp only [claimRecovery, bind_ok, throwIf_ok, exists_const] at h
  obtain ⟨o, ho, j, hj, now, hnow, -, hactive, hbusy, failed, -, h⟩ := h
  obtain ⟨hmem, hid, -⟩ := recoveryOperation_ok ho
  have hact : Active o.status := by
    by_contra hcon
    exact hactive (.inl hcon)
  have hfree : leaseBusy j.lockedAt now = false := by
    by_contra hcon
    exact hbusy (.inr (by simpa using hcon))
  refine ⟨o, j, now, hmem, hid, hj, hnow, hact, hfree, ?_⟩
  split_ifs at h with hfail
  · obtain ⟨rfl, rfl⟩ : _ ∧ _ := by simpa [pure_ok] using h
    exact ⟨rfl, .inl ⟨_, rfl⟩⟩
  · simp only [bind_ok, pure_ok, Prod.mk.injEq] at h
    obtain ⟨deadline, hdeadline, rfl, rfl⟩ := h
    simp only [not_or, not_le] at hfail
    refine ⟨rfl, .inr ⟨hfail.2.1, deadline, fun hnone => ?_, rfl⟩⟩
    rw [claimDeadline, hnone] at hdeadline
    exact toISOString_ok hdeadline

theorem claimRecovery_moved (hk : Keyed s) (h : claimRecovery P s input = .ok (s', r)) :
    Moved P s s' (.claim input) (if r.job.status = .running then
      some (input.operationId, .claimed input.workerId r.job.attempts) else none) := by
  obtain ⟨o, j, now, hmem, hid, hj, -, hact, hfree, rfl, hr⟩ := claimRecovery_ok h
  rcases hr with ⟨code, rfl⟩ | ⟨hleft, deadline, hdue, rfl⟩
  · have hkept : (failOperation o code now).lease = o.lease := by simp [Operation.lease, failOperation]
    have := Moved.of_recoverySet (P := P) (c := .claim input) hk (some (releaseJob j .failed now)) hmem hj
      (Touches.refl s o.id) (@Change.claimFailed _ _ code _ hact) (.kept rfl hkept)
    simpa [releaseJob] using this
  · have hkept : (startOperation o deadline now).lease = o.lease := by simp [Operation.lease, startOperation]
    have := Moved.of_recoverySet (P := P) (c := .claim input) hk (some (lockJob j input.workerId now)) hmem hj
      (Touches.refl s o.id) (@Change.claimed _ _ input.workerId _ _ hact hfree hleft hdue) (.kept rfl hkept)
    simpa [lockJob, hid] using this

/-! ### Mutations -/

theorem fenceRecovery_ok {input : RecoveryFence} (h : fenceRecovery P s input = .ok (o, j, now)) :
    o ∈ s.operations ∧ o.id = input.operationId ∧ o.kind = input.kind ∧
      recoveryJob s o.id = .ok j ∧ recoveryNow P input.clock = .ok now ∧
      ∀ journal, Fenced ⟨o, j, journal⟩ input.workerId input.attempt now := by
  simp only [fenceRecovery, bind_ok, throwIf_ok, pure_ok, exists_const, Prod.mk.injEq] at h
  obtain ⟨o', ho, j', hj, now', hnow, hfence, -, -, rfl, rfl, rfl⟩ := h
  obtain ⟨hmem, hid, hkind⟩ := recoveryOperation_ok ho
  simp only [not_or, not_not, Bool.not_eq_true] at hfence
  obtain ⟨hrun, hby, hatt, hlease, hdead, hstatus⟩ := hfence
  exact ⟨hmem, hid, hkind, hj, hnow,
    fun _ => ⟨hrun, hby, hatt, hlease, hdead, by simpa using hstatus⟩⟩

theorem find?_journal (x : String) (n : Nat) :
    s.attempts.find? (isAttempt x n) = (s.journal x).find? (isNumber n) := by
  simp only [RecoveryState.journal, List.find?_filter]
  refine congrArg₂ _ (funext fun row => ?_) rfl
  simp [isAttempt]

theorem journal_updateAttempt (hf : ∀ row, (f row).backupId = row.backupId) :
    (updateAttempt s x n f).journal x = Table.updateFirst (isNumber n) f (s.journal x) := by
  unfold RecoveryState.journal updateAttempt isAttempt
  exact Table.filter_updateFirst (q := fun row : RecoveryAttempt => decide (row.backupId = x))
    (fun row h => by simpa [hf] using h) s.attempts

theorem touches_updateAttempt (hf : ∀ row, (f row).backupId = row.backupId) : Touches s (updateAttempt s x n f) x where
  backups := rfl
  restores := rfl
  jobs := rfl
  others y hy := by
    refine Table.filter_updateFirst_of_not (fun row hrow => ?_) s.attempts
    have hx : row.backupId = x := by
      simp only [isAttempt, Bool.and_eq_true, decide_eq_true_eq] at hrow
      exact hrow.1
    simpa [hf, hx] using hy.symm

/-- An update of the fenced attempt's row is an update of that row in the cell. -/
theorem mutation_updateAttempt {pins : List RecoveryPin} (hf : ∀ row, (f row).backupId = row.backupId)
    (apply : Mutation n now m ⟨o, j, s.journal o.id⟩ s.pins (Cell.updateRow ⟨o, j, s.journal o.id⟩ n f) pins) :
    Mutation n now m ⟨o, j, s.journal o.id⟩ s.pins ⟨o, j, (updateAttempt s o.id n f).journal o.id⟩ pins := by
  rw [journal_updateAttempt hf]
  exact apply

theorem mutateIntent_ok {keyVersion : String} {r : Mutated} (h : mutateIntent s o j n keyVersion now = .ok r) :
    Mutation n now (.intent keyVersion) ⟨o, j, s.journal o.id⟩ s.pins
      ⟨r.next, r.nextJob, r.state.journal o.id⟩ r.state.pins ∧ Touches s r.state o.id := by
  cases o with
  | restore r' => simp [mutateIntent] at h
  | backup b =>
    simp only [mutateIntent, bind_ok, orThrow_ok, throwIf_ok, exists_const] at h
    obtain ⟨startedAt, hstarted, -, h⟩ := h
    rw [find?_journal] at h
    split at h
    · simp only [bind_ok, throwIf_ok, pure_ok, exists_const] at h
      obtain ⟨-, rfl⟩ := h
      exact ⟨.intentAgain, Touches.refl s _⟩
    · rename_i hnone
      simp only [bind_ok, pure_ok] at h
      obtain ⟨objectKey, -, rfl⟩ := h
      have hunused : ∀ row ∈ s.journal b.id, row.attempt ≠ n := by
        simpa [isNumber] using List.find?_eq_none.1 hnone
      refine ⟨?_, rfl, rfl, rfl, fun y hy => ?_⟩
      · have hj : ({ s with attempts := s.attempts ++
            [newAttempt b.id n objectKey keyVersion startedAt now] } : RecoveryState).journal b.id =
            s.journal b.id ++ [newAttempt b.id n objectKey keyVersion startedAt now] := by
          simp [RecoveryState.journal, newAttempt]
        simp only [Operation.id_backup, hj]
        exact .intent hstarted hunused
      · have : b.id ≠ y := fun h => hy (by simp [h])
        simp [RecoveryState.journal, newAttempt, this]

theorem readyBackup_ok {artifact : Option RecoveryArtifact} {r : Mutated} (verifying : b.status = .VERIFYING)
    (h : readyBackup s b j n artifact now = .ok r) :
    Mutation n now (.ready artifact) ⟨.backup b, j, s.journal b.id⟩ s.pins
      ⟨r.next, r.nextJob, r.state.journal b.id⟩ r.state.pins ∧ Touches s r.state b.id := by
  simp only [readyBackup, bind_ok, orThrow_ok, throwIf_ok, pure_ok, exists_const] at h
  obtain ⟨row, hrow, artifact, rfl, hmatch, expiresAt, -, rfl⟩ := h
  rw [find?_journal] at hrow
  refine ⟨?_, touches_updateAttempt fun _ => rfl⟩
  simp only [journal_updateAttempt (f := setAttemptState .VERIFIED now) fun _ => rfl]
  exact .readyBackup verifying hrow hmatch

/-- The `switch` of `mutateRecovery` makes the mutation it is asked for on the fenced cell. -/
theorem applyMutation_ok {input : RecoveryFence} {r : Mutated} (hkind : o.kind = input.kind)
    (hstatus : o.status = .RUNNING ∨ o.status = .VERIFYING) (h : applyMutation s input o j now m = .ok r) :
    Mutation input.attempt now m ⟨o, j, s.journal o.id⟩ s.pins
      ⟨r.next, r.nextJob, r.state.journal o.id⟩ r.state.pins ∧ Touches s r.state o.id := by
  cases m with
  | heartbeat =>
    obtain rfl : _ = r := by simpa [applyMutation, pure_ok] using h
    exact ⟨.heartbeat, Touches.refl s _⟩
  | retry =>
    simp only [applyMutation, bind_ok, throwIf_ok, pure_ok, exists_const, not_le] at h
    obtain ⟨hleft, rfl⟩ := h
    exact ⟨.retry hleft, Touches.refl s _⟩
  | fail code =>
    simp only [applyMutation, bind_ok, pure_ok] at h
    obtain ⟨-, -, rfl⟩ := h
    exact ⟨.fail, Touches.refl s _⟩
  | intent keyVersion => exact mutateIntent_ok h
  | upload uploadId =>
    simp only [applyMutation, mutateUpload, bind_ok, orThrow_ok, throwIf_ok, pure_ok,
      exists_const, find?_journal] at h
    obtain ⟨row, hrow, hvalid, rfl⟩ := h
    exact ⟨mutation_updateAttempt (fun _ => rfl) (.upload hrow hvalid),
      touches_updateAttempt fun _ => rfl⟩
  | candidate storedBytes plaintextBytes checksum =>
    simp only [applyMutation, mutateCandidate, bind_ok, orThrow_ok, throwIf_ok, pure_ok,
      exists_const, find?_journal] at h
    obtain ⟨row, hrow, hvalid, rfl⟩ := h
    exact ⟨mutation_updateAttempt (fun _ => rfl) (.candidate hrow hvalid),
      touches_updateAttempt fun _ => rfl⟩
  | complete =>
    simp only [applyMutation, mutateComplete, bind_ok, orThrow_ok, throwIf_ok, pure_ok,
      exists_const, find?_journal, not_or, not_not] at h
    obtain ⟨row, hrow, ⟨-, hprepared⟩, rfl⟩ := h
    exact ⟨mutation_updateAttempt (fun _ => rfl) (.complete hrow hprepared),
      touches_updateAttempt fun _ => rfl⟩
  | verify =>
    simp only [applyMutation, mutateVerify, bind_ok, recoveryTransition_ok, throwIf_ok, pure_ok,
      exists_const] at h
    obtain ⟨⟨hne, -⟩, hcomplete, rfl⟩ := h
    refine ⟨.verify (hstatus.resolve_right hne) fun hb => ?_, Touches.refl s _⟩
    obtain ⟨b, rfl⟩ : ∃ b, o = .backup b := by cases o <;> simp_all [Operation.kind]
    simp only [artifactComplete, Bool.not_eq_false, Option.any_eq_true, decide_eq_true_eq,
      find?_journal] at hcomplete
    exact hcomplete
  | ready artifact =>
    simp only [applyMutation, bind_ok, recoveryTransition_ok, exists_const] at h
    obtain ⟨⟨-, hnext⟩, h⟩ := h
    have hverifying : o.status = .VERIFYING := by
      refine hstatus.resolve_left fun hrun => ?_
      rw [hrun] at hnext
      cases hk : input.kind <;> simp [hk, lifecycleNext] at hnext
    cases o with
    | backup b => exact readyBackup_ok hverifying h
    | restore r' =>
      obtain rfl : _ = r := by simpa [pure_ok] using h
      exact ⟨.readyRestore hverifying, rfl, rfl, rfl, fun _ _ => rfl⟩

theorem mutateRecovery_moved (hk : Keyed s) {input : RecoveryFence} (h : mutateRecovery P s input m = .ok (s', r)) :
    Moved P s s' (.mutate input m) (some (input.operationId, .mutated input.workerId input.attempt m)) := by
  simp only [mutateRecovery, bind_ok, pure_ok, Prod.mk.injEq] at h
  obtain ⟨⟨o, j, now⟩, hfence, m', hm, rfl, rfl⟩ := h
  obtain ⟨hmem, hid, hkind, hj, -, hfenced⟩ := fenceRecovery_ok hfence
  obtain ⟨hmut, htouch⟩ := applyMutation_ok hkind (hfenced []).status hm
  have := Moved.of_recoverySet (P := P) (c := .mutate input m) hk (some m'.nextJob) hmem hj htouch
    (.mutated (hfenced _) hmut) (.kept rfl hmut.lease)
  simpa [hid] using this

/-! ### Cancellation, expiry, deletion and cleanup -/

theorem cancelRecoveryRestore_moved (hk : Keyed s) {request : CancelRequest} {r' : RecoveryRestore}
    (h : cancelRecoveryRestore P s request = .ok (s', r')) : Moved P s s' (.cancelRestore request) none := by
  simp only [cancelRecoveryRestore, bind_ok, orThrow_ok, recoveryTransition_ok, pure_ok,
    Prod.mk.injEq, exists_const] at h
  obtain ⟨r, hr, -, -, ⟨-, hnext⟩, now, -, j, hj, rfl, rfl⟩ := h
  have hactive : Active r.status := by
    cases hs : r.status <;> simp [hs, lifecycleNext, Active] at hnext ⊢
  have hmem := mem_operations_restore.2 (restore_found hr).1
  exact .of_recoverySet (l := none) hk (some (releaseJob j .cancelled now)) hmem hj
    (Touches.refl s _) (.cancelled hactive) (.kept rfl rfl)

/-- A write of a backup row alone. -/
theorem Moved.of_backup (hk : Keyed s) {b' : RecoveryBackup} {call : Call} (hb : b ∈ s.backups)
    (change : ∀ j, Change none ⟨.backup b, j, s.journal b.id⟩ s.pins ⟨.backup b', j, s.journal b.id⟩ s.pins)
    (lease : LeaseMove P (.backup b) (.backup b') call) : Moved P s (recoverySet s (.backup b') none) call none := by
  obtain ⟨c, hc, hop⟩ := hk.exists_cell (mem_operations_backup.2 hb)
  obtain ⟨-, -, -, -, -, -, hj⟩ := cell_eq_some hc
  exact .of_recoverySet (l := none) hk none (mem_operations_backup.2 hb)
    (by simpa [recoveryJob] using hj) (Touches.refl s _) (change c.job) lease

theorem expireRecoveryBackup_moved (hk : Keyed s) {input : ExpireRequest} {b' : RecoveryBackup}
    (h : expireRecoveryBackup P s input = .ok (s', b')) : Moved P s s' (.expireBackup input) none := by
  simp only [expireRecoveryBackup, bind_ok, recoveryTransition_ok, throwIf_ok, pure_ok,
    Prod.mk.injEq, exists_const] at h
  obtain ⟨b, hb, now, -, -, ⟨-, hnext⟩, rfl, rfl⟩ := h
  have hready : b.status = .READY := by
    cases hs : b.status <;> simp [hs, lifecycleNext] at hnext ⊢
  exact .of_backup hk (recoveryBackup_ok hb).1 (fun _ => .expired hready) (.kept rfl rfl)

/-- The audit log is no part of the recovery tables. -/
theorem Moved.audit {call : Call} {l : Option (String × Label)} (h : Moved P s s' call l)
    (events : List RecoveryAuditEvent) : Moved P s { s' with auditEvents := events } call l := by
  obtain ⟨cell, change, writes, lease, label⟩ := h
  exact .mk cell change ⟨writes.operations, writes.jobs, writes.journal, writes.others⟩ lease label

theorem requestBackupDeletion_moved (hk : Keyed s) {request : DeletionRequest}
    {view : ResourceBackupView} (h : requestBackupDeletion P s request = .ok (s', view)) :
    s' = s ∨ Moved P s s' (.requestBackupDeletion request) none := by
  simp only [requestBackupDeletion, bind_ok, orThrow_ok] at h
  obtain ⟨-, -, b, hb, -, -, h⟩ := h
  split_ifs at h
  · simp only [bind_ok, pure_ok, Prod.mk.injEq] at h
    obtain ⟨-, -, rfl, -⟩ := h
    exact .inl rfl
  · simp only [markDeleting, bind_ok, throwIf_ok, recoveryTransition_ok, pure_ok, Prod.mk.injEq,
      exists_const, not_not, Bool.not_eq_true] at h
    obtain ⟨hsettled, hpin, -, now, -, rfl, -⟩ := h
    exact .inr ((Moved.of_backup hk (List.mem_of_find?_eq_some hb) (fun _ =>
      .deletionRequested hsettled hpin) (.kept rfl rfl)).audit _)

theorem claimRecoveryCleanup_moved (hk : Keyed s) {token : String} {r : CleanupClaimed}
    (h : claimRecoveryCleanup P s input token = .ok (s', r)) : Moved P s s' (.claimCleanup input token) none := by
  simp only [claimRecoveryCleanup, bind_ok, throwIf_ok, pure_ok, Prod.mk.injEq, exists_const,
    Bool.not_eq_true] at h
  obtain ⟨o, ho, now, hnow, j, hj, -, hfree, -, leaseUntil, huntil, next, hnext, rfl, -⟩ := h
  obtain ⟨hmem, hid, -⟩ := recoveryOperation_ok ho
  obtain rfl := toISOString_ok huntil
  cases o with
  | backup b =>
    simp only [Operation.update, cleanupOperation, bind_ok, throwIf_ok, exists_const,
      not_not, Bool.not_eq_true] at hnext
    obtain ⟨hpin, hsettled, hnext⟩ := hnext
    obtain rfl : _ = next := by
      split_ifs at hnext
      · simp only [bind_ok, pure_ok] at hnext
        obtain ⟨-, -, heq⟩ := hnext
        exact heq
      · simpa [bind_ok, pure_ok] using hnext
    refine .of_recoverySet (l := none) hk none hmem hj (Touches.refl s _) (.backupCleanupClaimed hsettled hpin)
      (.taken hid hnow hfree (fun _ hdeleted => ?_) rfl)
    have hstatus : b.status ∈ [OperationStatus.FAILED, .EXPIRED, .DELETING] := hsettled
    rw [show b.status = .DELETED from hdeleted] at hstatus
    exact absurd hstatus (by decide)
  | restore r =>
    simp only [Operation.update, cleanupOperation, bind_ok, throwIf_ok, pure_ok, exists_const,
      not_not] at hnext
    obtain ⟨hsettled, rfl⟩ := hnext
    exact .of_recoverySet (l := none) hk none hmem hj (Touches.refl s _) (.restoreCleanupClaimed hsettled)
      (.taken hid hnow hfree (fun hkind => by cases hkind) rfl)

@[simp] theorem backupId_cleanAttempt (now : Millis) (row : RecoveryAttempt) :
    (cleanAttempt now row).backupId = row.backupId := rfl

theorem journal_cleanAttempts : ({ s with attempts := cleanAttempts s.attempts x now } : RecoveryState).journal x =
      (s.journal x).map (cleanAttempt now) := by
  simp only [RecoveryState.journal, cleanAttempts]
  induction s.attempts with
  | nil => rfl
  | cons row rows ih => by_cases h : row.backupId = x <;> simp [h, ih]

theorem touches_cleanAttempts (x : String) (now : Millis) :
    Touches s { s with attempts := cleanAttempts s.attempts x now } x where
  backups := rfl
  restores := rfl
  jobs := rfl
  others y hy := by
    simp only [RecoveryState.journal, cleanAttempts]
    induction s.attempts with
    | nil => rfl
    | cons row rows ih =>
      by_cases h : row.backupId = x
      · simp [h, ih, hy.symm]
      · by_cases h' : row.backupId = y <;> simp [h, h', ih, hy]

theorem finishRecoveryCleanup_moved (hk : Keyed s) {input : RecoveryCleanupFence} {o' : Operation}
    (h : finishRecoveryCleanup P s input = .ok (s', o')) : Moved P s s' (.finishCleanup input) none := by
  simp only [finishRecoveryCleanup, bind_ok, throwIf_ok, exists_const, not_or, not_not, Bool.not_eq_true] at h
  obtain ⟨o, ho, now, hnow, ⟨htoken, -, hopen⟩, j, hj, -, h⟩ := h
  obtain ⟨hmem, hid, -⟩ := recoveryOperation_ok ho
  have hcell := hk.cell_eq hmem hj
  cases o with
  | backup b =>
    simp only [finishBackupCleanup, bind_ok, throwIf_ok, recoveryTransition_ok, pure_ok,
      Prod.mk.injEq, exists_const, Bool.not_eq_true] at h
    obtain ⟨hpin, ⟨-, hnext⟩, rfl, -⟩ := h
    have hdeleting : b.status = .DELETING := by
      cases hs : b.status <;> simp [hs, lifecycleNext] at hnext ⊢
    have w := (touches_cleanAttempts b.id now).rewrites hk (.backup (deletedBackup b now)) hmem hj
      rfl rfl none
    rw [Operation.id_backup, journal_cleanAttempts] at w
    refine .mk (c := ⟨.backup b, j, s.journal b.id⟩) (k := none) hcell ?_
      ⟨w.operations, w.jobs, w.journal, w.others⟩ (.cleared hid hnow htoken hopen (fun _ => rfl) rfl) rfl
    have := @Change.backupCleaned b j (s.journal b.id) s.pins now hdeleting hpin
    simpa using this
  | restore r =>
    simp only [finishRestoreCleanup, bind_ok, throwIf_ok, pure_ok, Prod.mk.injEq, exists_const,
      not_not] at h
    obtain ⟨hsettled, rfl, -⟩ := h
    have w := (Touches.refl s r.id).rewrites hk (.restore (cleanedRestore r now)) hmem hj
      rfl rfl none
    refine .mk (c := ⟨.restore r, j, s.journal r.id⟩) (k := none) hcell ?_
      ⟨w.operations, w.jobs, w.journal, w.others⟩
      (.cleared hid hnow htoken hopen (fun hkind => by cases hkind) rfl) rfl
    have := @Change.restoreCleaned r j (s.journal r.id) s.pins now hsettled
    simpa using this

/-! ### Creation -/

theorem createBackupRow_effect {body : RecoveryBody} {r : Created} (fresh : FreshFor P s .backup ids)
    (h : createBackupRow P s request ids body now = .ok (s', r)) : Effect s s' none := by
  simp only [createBackupRow, bind_ok, pure_ok, Prod.mk.injEq] at h
  obtain ⟨⟨source, provenance⟩, -, rfl, -⟩ := h
  have hops : s.operations = s.backups.map .backup ++ s.restores.map .restore := rfl
  refine .created (o := .backup (newBackup (newBase request .backup ids source
      provenance.sourceGeneration body (requestFingerprint P request body .backup) now) source
      provenance)) ?_ rfl fresh.1 fresh.2 hops ?_ rfl rfl rfl ⟨rfl, rfl, rfl⟩
  · exact ⟨rfl, rfl, rfl, rfl, rfl, rfl, rfl, rfl⟩
  · simp [RecoveryState.operations]

theorem createRestoreRow_effect {body : RecoveryBody} {r : Created} (fresh : FreshFor P s .restore ids)
    (h : createRestoreRow P s request ids body now = .ok (s', r)) : Effect s s' none := by
  simp only [createRestoreRow, bind_ok, throwIf_ok, orThrow_ok, pure_ok, Prod.mk.injEq,
    exists_const, not_not] at h
  obtain ⟨b, hb, ⟨source, provenance⟩, -, hrec, -, -, desiredSpec, -, rfl, -⟩ := h
  have hops : s.operations = s.operations ++ [] := (List.append_nil _).symm
  refine .created (o := .restore (newRestore (newBase request .restore ids source
      provenance.sourceGeneration body (requestFingerprint P request body .restore) now) b source
      ("res_" ++ ids.target))) ?_ rfl fresh.1 fresh.2 hops ?_ rfl rfl rfl
    ⟨rfl, rfl, rfl, rfl, rfl, b, (recoveryBackup_ok hb).1, rfl, hrec.1⟩
  · exact ⟨rfl, rfl, rfl, rfl, rfl, rfl, rfl, rfl⟩
  · simp [RecoveryState.operations]

/-- A creation that succeeds is a replay and writes nothing, or makes the rows of a new request. -/
theorem create_ok {r : Created} (h : create P enforceQuota s request kind ids = .ok (s', r)) :
    (r.replay = true ∧ s' = s) ∨ ∃ body now, recoveryBody request.body (kind = .restore) = .ok body ∧
      existingOperation s request body kind = none ∧
      (kind = .backup ∧ createBackupRow P s request ids body now = .ok (s', r) ∨
        kind = .restore ∧ createRestoreRow P s request ids body now = .ok (s', r)) := by
  simp only [create, bind_ok] at h
  obtain ⟨⟨s₁, r₁⟩, hcreate, h⟩ := h
  obtain ⟨rfl, rfl⟩ : s₁ = s' ∧ r₁ = r := by
    split_ifs at h
    · simpa only [pure_ok, Prod.mk.injEq] using h
    · simp only [bind_ok, pure_ok, Prod.mk.injEq] at h
      obtain ⟨-, -, heq⟩ := h
      exact heq
  simp only [createRecovery, bind_ok] at hcreate
  obtain ⟨body, hbody, now, -, hcreate⟩ := hcreate
  split at hcreate
  · simp only [replayRecovery, bind_ok, pure_ok, Prod.mk.injEq] at hcreate
    obtain ⟨-, -, -, -, -, -, rfl, rfl⟩ := hcreate
    exact .inl ⟨rfl, rfl⟩
  · rename_i hnew
    simp only [bind_ok] at hcreate
    obtain ⟨-, -, -, -, hcreate⟩ := hcreate
    refine .inr ⟨body, now, hbody, hnew, ?_⟩
    cases kind with
    | backup => exact .inl ⟨rfl, hcreate⟩
    | restore => exact .inr ⟨rfl, hcreate⟩

theorem create_effect {r : Created} (fresh : FreshFor P s kind ids)
    (h : create P enforceQuota s request kind ids = .ok (s', r)) : Effect s s' none := by
  obtain ⟨-, rfl⟩ | ⟨body, now, -, -, ⟨rfl, hrow⟩ | ⟨rfl, hrow⟩⟩ := create_ok h
  · exact .quiet ⟨rfl, rfl, rfl, rfl, rfl⟩
  · exact createBackupRow_effect fresh hrow
  · exact createRestoreRow_effect fresh hrow

/-! ### Steps -/

/-- The claim or mutation an event records, with the operation it is about. -/
def Event.label : Event → Option (String × Label)
  | .returned (.claim input) (.result r) =>
    if r.job.status = .running then
      some (input.operationId, .claimed input.workerId r.job.attempts)
    else none
  | .returned (.mutate input mutation) _ =>
    some (input.operationId, .mutated input.workerId input.attempt mutation)
  | _ => none

theorem answer_ok {α : Type} {wrap : α → Output} {x : Except Thrown (RecoveryState × α)}
    {output : Output} (h : answer wrap x = .ok (s', output)) :
    ∃ a, x = .ok (s', a) ∧ wrap a = output := by
  simp only [answer, bind_ok, pure_ok, Prod.mk.injEq] at h
  obtain ⟨⟨t, a⟩, hx, rfl, rfl⟩ := h
  exact ⟨a, hx, rfl⟩

/-- **Every step is one change of one cell, a creation, or nothing.** -/
theorem step_effect (hk : Keyed s) {e : Event} (h : Step P enforceQuota s e s') :
    Effect s s' e.label := by
  cases h with
  | threw _ => exact .quiet ⟨rfl, rfl, rfl, rfl, rfl⟩
  | environment same => exact .quiet same
  | @returned _ call output fresh run =>
    cases call <;> obtain ⟨a, ha, rfl⟩ := answer_ok run
    case createBackup => exact create_effect fresh ha
    case createRestore => exact create_effect fresh ha
    case requestBackupDeletion =>
      rcases requestBackupDeletion_moved hk ha with rfl | h
      · exact .quiet ⟨rfl, rfl, rfl, rfl, rfl⟩
      · exact h.effect
    case claim => exact (claimRecovery_moved hk ha).effect
    case mutate => exact (mutateRecovery_moved hk ha).effect
    case cancelRestore => exact (cancelRecoveryRestore_moved hk ha).effect
    case expireBackup => exact (expireRecoveryBackup_moved hk ha).effect
    case claimCleanup => exact (claimRecoveryCleanup_moved hk ha).effect
    case finishCleanup => exact (finishRecoveryCleanup_moved hk ha).effect

theorem journal_congr (h : s'.attempts = s.attempts) : s'.journal x = s.journal x := by
  simp [RecoveryState.journal, h]

theorem SameTables.operations (h : SameTables s s') : s'.operations = s.operations :=
  operations_congr h.backups h.restores

theorem SameTables.cell (h : SameTables s s') (x : String) : s'.cell x = s.cell x := by
  simp [RecoveryState.cell, h.operations, h.jobs, journal_congr h.attempts]

theorem mem_journal {row : RecoveryAttempt} : row ∈ s.journal x ↔ row ∈ s.attempts ∧ row.backupId = x := by
  simp [RecoveryState.journal]

theorem mem_attempts {row : RecoveryAttempt} : row ∈ s.attempts ↔ row ∈ s.journal row.backupId := by
  simp [mem_journal]

theorem Effect.keyed (hk : Keyed s) {l : Option (String × Label)} (h : Effect s s' l) : Keyed s' := by
  cases h with
  | quiet same =>
    exact ⟨same.operations ▸ hk.ids, same.jobs ▸ hk.jobIds, same.jobs ▸ same.operations ▸ hk.targets,
      same.attempts ▸ same.operations ▸ hk.journals⟩
  | @created o j pin l₁ l₂ new target freshId freshJob before after jobs attempts pins pinned =>
    have hperm : s'.operations.Perm (o :: s.operations) := by
      rw [before, after]
      exact List.perm_middle
    refine ⟨(hperm.map _).nodup_iff.2 ?_, ?_, ?_, fun row hrow => ?_⟩
    · rw [List.map_cons, List.nodup_cons]
      exact ⟨fun hmem => by
        obtain ⟨o', ho', hid⟩ := List.mem_map.1 hmem
        exact freshId o' ho' hid, hk.ids⟩
    · rw [jobs, List.map_append, List.nodup_append]
      refine ⟨hk.jobIds, by simp, fun id hid id' hid' => ?_⟩
      obtain ⟨j', hj', rfl⟩ := List.mem_map.1 hid
      simp only [List.map_cons, List.map_nil, List.mem_singleton] at hid'
      exact hid' ▸ freshJob j' hj'
    · rw [jobs, List.map_append]
      refine List.perm_append_comm.trans ?_
      refine List.Perm.trans ?_ (hperm.map _).symm
      simpa [target] using hk.targets
    · obtain ⟨o', ho', hid⟩ := hk.journals row (attempts ▸ hrow)
      exact ⟨o', hperm.mem_iff.2 (List.mem_cons_of_mem _ ho'), hid⟩
  | @changed c c' l cell change writes =>
    have hids : s'.operations.map Operation.id = s.operations.map Operation.id := by
      simp [writes.operations]
    have htargets : s'.jobs.map RecoveryJob.targetId = s.jobs.map RecoveryJob.targetId := by
      obtain ⟨-, -, hj, -, -, -, -⟩ := cell_eq_some cell
      rw [writes.jobs, Table.replace, List.map_map]
      refine List.map_congr_left fun j hj' => ?_
      by_cases hid : j.id = c'.job.id
      · obtain rfl : j = c.job :=
          List.inj_on_of_nodup_map hk.jobIds hj' hj (hid.trans change.sameKeys.jobId)
        simp [hid, change.sameKeys.targetId]
      · simp [hid]
    refine ⟨hids ▸ hk.ids, by simpa [writes.jobs] using hk.jobIds, htargets ▸ hids ▸ hk.targets,
      fun row hrow => ?_⟩
    have hmem : row.backupId ∈ s'.operations.map Operation.id := by
      rw [hids]
      by_cases hid : row.backupId = c'.operation.id
      · rw [hid, change.sameKeys.id]
        exact List.mem_map_of_mem (cell_eq_some cell).1
      · have := mem_attempts.1 hrow
        rw [writes.others _ hid, mem_journal] at this
        obtain ⟨o, ho, hoid⟩ := hk.journals row this.1
        exact hoid ▸ List.mem_map_of_mem ho
    obtain ⟨o, ho, hoid⟩ := List.mem_map.1 hmem
    exact ⟨o, ho, hoid⟩

/-! ### Runs -/

/-- The label of an event for the operation `x`. -/
def Event.labelOf (x : String) (e : Event) : Option Label :=
  e.label.bind fun p => if p.1 = x then some p.2 else none

/-- The successful claims and mutations of `x` in a run, in order. -/
def history (x : String) (es : List Event) : List Label := es.filterMap (Event.labelOf x)

theorem cell_created {l₁ l₂ : List Operation} (hk : Keyed s) (target : j.targetId = o.id)
    (freshId : ∀ o' ∈ s.operations, o'.id ≠ o.id) (before : s.operations = l₁ ++ l₂)
    (after : s'.operations = l₁ ++ o :: l₂) (jobs : s'.jobs = s.jobs ++ [j]) (attempts : s'.attempts = s.attempts)
    (x : String) :
    (x = o.id ∧ s.cell x = none ∧ s'.cell x = some ⟨o, j, []⟩) ∨
      (x ≠ o.id ∧ s'.cell x = s.cell x) := by
  have hnone : ∀ l ⊆ s.operations, l.find? (fun o' => decide (o'.id = o.id)) = none := fun l hl =>
    List.find?_eq_none.2 fun o' ho' => by simpa using freshId o' (hl ho')
  by_cases hx : x = o.id
  · subst hx
    have hjobs : s.jobs.find? (fun j' => decide (j'.targetId = o.id)) = none := by
      refine List.find?_eq_none.2 fun j' hj' => ?_
      obtain ⟨o', ho', hid⟩ :=
        List.mem_map.1 (hk.targets.mem_iff.1 (List.mem_map_of_mem (f := RecoveryJob.targetId) hj'))
      simpa [← hid] using freshId o' ho'
    have hjournal : s'.journal o.id = [] := by
      rw [journal_congr attempts]
      refine List.filter_eq_nil_iff.2 fun row hrow => ?_
      obtain ⟨o', ho', hid⟩ := hk.journals row hrow
      simpa [← hid] using freshId o' ho'
    refine .inl ⟨rfl, by simp [RecoveryState.cell, hnone s.operations (fun _ h => h)], ?_⟩
    have h₁ := hnone l₁ (by simp [before])
    simp [RecoveryState.cell, after, jobs, List.find?_append, h₁, hjobs, target, hjournal]
  · have hne : ¬ o.id = x := fun h => hx h.symm
    refine .inr ⟨hx, ?_⟩
    simp [RecoveryState.cell, after, before, jobs, List.find?_append, hne, target,
      journal_congr attempts]

/-- **A step, read through one cell**: nothing, its creation, or a move of the cell machine with the
label the event records for it. -/
theorem step_seen (x : String) (hk : Keyed s) {e : Event} (h : Step P enforceQuota s e s') :
    Seen Cell.Initial CellStep (s.cell x) (e.labelOf x) (s'.cell x) := by
  have heff := step_effect hk h
  unfold Event.labelOf
  generalize e.label = l at heff
  cases heff with
  | quiet same =>
    rw [same.cell x]
    exact .stay _
  | created new target freshId freshJob before after jobs attempts pins pinned =>
    rcases cell_created hk target freshId before after jobs attempts x with ⟨-, h₁, h₂⟩ | ⟨-, h⟩
    · rw [h₁, h₂]
      exact .born new
    · rw [h]
      exact .stay _
  | @changed c c' l cell change writes =>
    rw [writes.cell hk cell change.sameKeys x]
    by_cases hx : x = c.operation.id
    · subst hx
      rw [if_pos rfl, cell]
      cases l with
      | none => exact .moved ⟨_, _, change⟩
      | some l => simpa using @Seen.moved _ _ Cell.Initial CellStep _ _ _ ⟨_, _, change⟩
    · rw [if_neg hx]
      cases l with
      | none => exact .stay _
      | some l =>
        have hne : ¬ c.operation.id = x := fun h => hx h.symm
        simpa [hne] using @Seen.stay _ _ Cell.Initial CellStep (s.cell x)

theorem keyed_of_empty (h : EmptyTables s) : Keyed s := by
  constructor <;> simp [RecoveryState.operations, h.backups, h.restores, h.jobs, h.attempts]

theorem step_keyed (s : RecoveryState) (e : Event) (s' : RecoveryState) (hk : Keyed s)
    (h : Step P enforceQuota s e s') : Keyed s' := (step_effect hk h).keyed hk

theorem run_keyed (h0 : EmptyTables s) (h : Run (Step P enforceQuota) s es s') :
    Keyed s' := h.invariant step_keyed (keyed_of_empty h0)

/-- From any keyed state, a cell runs the cell machine. -/
theorem run_cell_from (hk : Keyed s) (h : Run (Step P enforceQuota) s es s') {c : Cell} (hc : s.cell x = some c) :
    ∃ c' ls, s'.cell x = some c' ∧ Run CellStep c ls c' ∧ ls.reduceOption = history x es :=
  h.seen_some step_keyed (fun _ _ _ hk hstep => step_seen x hk hstep) hk hc

/-- **Refinement**: in every run from empty recovery tables, the cell of an operation has run the
cell machine from its creation, and the operation's history is that run's labels. -/
theorem run_cell (h0 : EmptyTables s) (h : Run (Step P enforceQuota) s es s') {c : Cell} (hc : s'.cell x = some c) :
    ∃ c₀ ls, c₀.Initial ∧ Run CellStep c₀ ls c ∧ ls.reduceOption = history x es := by
  have hnone : s.cell x = none := by
    simp [RecoveryState.cell, RecoveryState.operations, h0.backups, h0.restores]
  rcases h.seen_none step_keyed (fun _ _ _ hk hstep => step_seen x hk hstep) (keyed_of_empty h0)
    hnone with ⟨hno, -⟩ | ⟨c₀, c', ls, hinit, hc', hrun, hls⟩
  · simp [hno] at hc
  · obtain rfl : c' = c := by simpa [hc'] using hc
    exact ⟨c₀, ls, hinit, hrun, hls⟩

end RaibitServer.Recovery
