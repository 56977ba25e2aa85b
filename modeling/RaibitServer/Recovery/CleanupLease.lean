import RaibitServer.Recovery.Coherence
import RaibitServer.Recovery.Writes

/-!
# Recovery.CleanupLease — deletion is final, and cleanup has one holder

A deleted backup is an end state of the cell machine, and its journal is clean (`cellRun_clean`).  The
cleanup lease of an operation is the one that its last claim took: `LeaseStep` is what a step does to it,
and the history of a run tells which token is good (`run_leaseOf`) and who is kept out (`run_blocked`).
-/

namespace RaibitServer.Recovery

open Lib

variable {P : Platform} {enforceQuota : RecoveryQuotaPolicy} {s s' : RecoveryState}

/-! ### Deleted backups -/

def Cell.Deleted (c : Cell) : Prop := c.operation.kind = .backup ∧ c.operation.status = .DELETED

/-- Nothing happens to a deleted backup. -/
theorem Change.not_deleted {l c pins c' pins'} (h : Change l c pins c' pins') : ¬ c.Deleted := by
  rintro ⟨hkind, hstatus⟩
  have hactive : ¬ Active .DELETED := by decide
  cases h with
  | claimFailed active => exact hactive (hstatus ▸ active)
  | claimed active _ _ _ => exact hactive (hstatus ▸ active)
  | mutated fenced _ => exact hactive (hstatus ▸ Active.of_fence fenced.status)
  | cancelled _ => cases hkind
  | @expired b _ _ _ _ ready => exact absurd (ready.symm.trans hstatus) (by decide)
  | @deletionRequested b _ _ _ _ settled _ =>
    rw [show b.status = .DELETED from hstatus] at settled
    exact absurd settled (by decide)
  | @backupCleanupClaimed b _ _ _ _ _ _ _ settled _ =>
    rw [show b.status = .DELETED from hstatus] at settled
    exact absurd settled (by decide)
  | restoreCleanupClaimed _ => cases hkind
  | backupCleaned deleting _ => exact absurd (deleting.symm.trans hstatus) (by decide)
  | restoreCleaned _ => cases hkind

theorem cellRun_deleted {c c' : Cell} {ls : List (Option Label)} (h : Run CellStep c ls c')
    (hc : c.Deleted) : c' = c := by
  refine h.invariant (I := fun c' => c' = c) ?_ rfl
  rintro _ _ _ rfl ⟨_, _, change⟩
  exact absurd hc change.not_deleted

def Cleaned (row : RecoveryAttempt) : Prop := row.state = .CLEANED ∧ row.cleanupPending = false

/-- The journal of a deleted backup is clean. -/
def Cell.Clean (c : Cell) : Prop := c.Deleted → ∀ row ∈ c.journal, Cleaned row

theorem Mutation.not_deleted {n now m c pins c' pins'} (h : Mutation n now m c pins c' pins')
    (hstatus : c.operation.status = .RUNNING ∨ c.operation.status = .VERIFYING) :
    c'.operation.status ≠ .DELETED := by
  have hkept : c.operation.status ≠ .DELETED := by
    rcases hstatus with h | h <;> rw [h] <;> decide
  cases h with
  | fail => simp [failOperation]
  | verify _ _ => simp [verifyOperation]
  | readyBackup _ _ _ => simp [publishBackup]
  | readyRestore _ => simp [publishRestore]
  | _ => exact hkept

/-- Only the acknowledgement of a cleanup leads to `DELETED`, and it cleans the journal. -/
theorem Change.clean {l c pins c' pins'} (h : Change l c pins c' pins') : c'.Clean := by
  rintro ⟨hkind, hstatus⟩
  cases h with
  | claimFailed _ => simp [failOperation] at hstatus
  | @claimed c _ _ _ _ active _ _ _ =>
    by_cases hq : c.operation.status = .QUEUED
    · simp [startOperation, hq] at hstatus
    · have hkept : c.operation.status = .DELETED := by simpa [startOperation, hq] using hstatus
      rw [hkept] at active
      exact absurd active (by decide)
  | mutated fenced apply => exact absurd hstatus (apply.not_deleted fenced.status)
  | cancelled _ => cases hkind
  | expired _ => cases hstatus
  | deletionRequested _ _ => cases hstatus
  | backupCleanupClaimed _ _ => cases hstatus
  | restoreCleanupClaimed _ => cases hkind
  | @backupCleaned _ _ journal _ now _ _ =>
    intro row hrow
    obtain ⟨row', -, rfl⟩ := List.mem_map.1 hrow
    exact ⟨rfl, rfl⟩
  | restoreCleaned _ => cases hkind

theorem cellRun_clean {c c' : Cell} {ls : List (Option Label)} (h : Run CellStep c ls c')
    (hc : c.Initial) : c'.Clean := by
  refine h.invariant (I := Cell.Clean) (fun _ _ _ _ ⟨_, _, change⟩ => change.clean) fun hdeleted => ?_
  rw [Cell.Deleted, hc.status] at hdeleted
  cases hdeleted.2

/-! ### The lease -/

/-- The event is a successful cleanup claim of `x`. -/
def Event.ClaimsCleanup (x : String) (e : Event) : Prop :=
  ∃ input token output, e = .returned (.claimCleanup input token) output ∧ input.operationId = x

/-- The event is a successful acknowledgement of the cleanup of `x`. -/
def Event.FinishesCleanup (x : String) (e : Event) : Prop :=
  ∃ input output, e = .returned (.finishCleanup input) output ∧ input.operationId = x

/-- What a step does to the cleanup lease of an operation. -/
inductive LeaseStep (P : Platform) (o : Operation) (e : Event) (o' : Operation) : Prop
  | kept (same : o'.lease = o.lease) (noClaim : ¬ e.ClaimsCleanup o.id) (noFinish : ¬ e.FinishesCleanup o.id)
  | taken {input token output now} (event : e = .returned (.claimCleanup input token) output)
      (id : input.operationId = o.id) (clock : recoveryNow P input.clock = .ok now)
      (free : cleanupBusy o.base.cleanupLeaseUntil now = false)
      (lease : o'.lease = (some token, some input.workerId, some (now + leaseMillis)))
  | cleared {input output} (event : e = .returned (.finishCleanup input) output)
      (id : input.operationId = o.id) (deleted : o.kind = .backup → o'.status = .DELETED)
      (lease : o'.lease = (none, none, none))

variable {o o' : Operation} {output : Output} {e : Event} {es : List Event} {now : Millis}

def Event.cleans : Event → Bool
  | .returned call _ => call.cleans
  | _ => false

theorem leaseStep_idle (h : e.cleans = false) (same : o'.lease = o.lease) : LeaseStep P o e o' := by
  refine .kept same ?_ ?_
  · rintro ⟨input, token, output, rfl, -⟩
    cases h
  · rintro ⟨input, output, rfl, -⟩
    cases h

theorem leaseStep_returned {call : Call} (h : LeaseMove P o o' call) : LeaseStep P o (.returned call output) o' := by
  cases h with
  | kept keeps same => exact leaseStep_idle keeps same
  | taken id clock free alive lease => exact .taken rfl id.symm clock free lease
  | cleared id clock token live deleted lease => exact .cleared rfl id.symm deleted lease

/-- A call that rewrites another operation is no cleanup of this one. -/
theorem leaseStep_other {call : Call} {o₁ : Operation} (h : LeaseMove P o o₁ call) (hid : o'.id ≠ o.id) :
    LeaseStep P o' (.returned call output) o' := by
  refine .kept rfl ?_ ?_
  · rintro ⟨input, token, output, heq, hinput⟩
    cases heq
    cases h with
    | kept keeps _ => cases keeps
    | taken id _ _ _ _ => exact hid (hinput.symm.trans id.symm)
  · rintro ⟨input, output, heq, hinput⟩
    cases heq
    cases h with
    | kept keeps _ => cases keeps
    | cleared id _ _ _ _ _ => exact hid (hinput.symm.trans id.symm)

/-- **Where the lease of an operation comes from**: the operation is new and has none, or a step has done
something to the lease it had. -/
theorem step_lease (hk : Keyed s) (h : Step P enforceQuota s e s') (ho' : o' ∈ s'.operations) :
    (o'.lease = (none, none, none) ∧ ∀ o ∈ s.operations, o.id ≠ o'.id) ∨
      ∃ o ∈ s.operations, o.id = o'.id ∧ o.kind = o'.kind ∧ LeaseStep P o e o' := by
  have hids := (step_keyed s e s' hk h).ids
  cases h with
  | threw _ => exact .inr ⟨o', ho', rfl, rfl, leaseStep_idle rfl rfl⟩
  | environment same => exact .inr ⟨o', same.operations ▸ ho', rfl, rfl, leaseStep_idle rfl rfl⟩
  | @returned _ call output fresh run =>
    cases exec_wrote hk run with
    | @replayed kind _ _ _ call_eq _ _ same =>
      subst same call_eq
      exact .inr ⟨o', ho', rfl, rfl, leaseStep_idle (by cases kind <;> rfl) rfl⟩
    | again call_eq same =>
      subst same call_eq
      exact .inr ⟨o', ho', rfl, rfl, leaseStep_idle rfl rfl⟩
    | @created kind _ _ _ _ call_eq _ _ born operations _ =>
      subst call_eq
      rcases List.mem_cons.1 (operations.mem_iff.1 ho') with rfl | ho
      · rw [(operations.map _).nodup_iff, List.map_cons, List.nodup_cons] at hids
        exact .inl ⟨born.lease, fun o ho hid => hids.1 (hid ▸ List.mem_map_of_mem ho)⟩
      · exact .inr ⟨o', ho, rfl, rfl, leaseStep_idle (by cases kind <;> rfl) rfl⟩
    | @rewrote o o₁ mem same lease operations =>
      rw [operations, Table.mem_replace] at ho'
      rcases ho' with ⟨ho', hne⟩ | ⟨rfl, -⟩
      · exact .inr ⟨o', ho', rfl, rfl, leaseStep_other lease (same.id ▸ hne)⟩
      · exact .inr ⟨o, mem, same.id.symm, same.kind.symm, leaseStep_returned lease⟩

/-! ### The last claim -/

/-- The lease of the operation, by the history: the one of its last cleanup claim, or none. -/
def LeaseOf (P : Platform) (es : List Event) (o : Operation) : Prop :=
  o.lease = (none, none, none) ∨ ∃ es₁ input token output es₂ now,
    es = es₁ ++ .returned (.claimCleanup input token) output :: es₂ ∧ input.operationId = o.id ∧
    (∀ e ∈ es₂, ¬ e.ClaimsCleanup o.id) ∧ recoveryNow P input.clock = .ok now ∧
    o.lease = (some token, some input.workerId, some (now + leaseMillis))

theorem LeaseOf.step (h : LeaseOf P es o) (hstep : LeaseStep P o e o') (hid : o.id = o'.id) :
    LeaseOf P (es ++ [e]) o' := by
  cases hstep with
  | kept same noClaim _ =>
    unfold LeaseOf
    rw [same, ← hid]
    refine h.imp_right ?_
    rintro ⟨es₁, input, token, output, es₂, now, rfl, hinput, hlast, hclock, hlease⟩
    refine ⟨es₁, input, token, output, es₂ ++ [e], now, by simp, hinput, fun e' he' => ?_, hclock, hlease⟩
    rcases List.mem_append.1 he' with he' | he'
    · exact hlast e' he'
    · exact List.mem_singleton.1 he' ▸ noClaim
  | @taken input token output now event id clock _ lease =>
    exact .inr ⟨es, input, token, output, [], now, by rw [event], id.trans hid, by simp, clock, lease⟩
  | cleared _ _ _ lease => exact .inl lease

theorem run_leaseOf {s₀ : RecoveryState} (empty : EmptyTables s₀) (run : Run (Step P enforceQuota) s₀ es s) :
    ∀ o ∈ s.operations, LeaseOf P es o := by
  refine (run.history (I := fun es s => Keyed s ∧ ∀ o ∈ s.operations, LeaseOf P es o) ?_ ?_).2
  · rintro es s e s' ⟨hk, hleases⟩ hstep
    refine ⟨step_keyed _ _ _ hk hstep, fun o' ho' => ?_⟩
    rcases step_lease hk hstep ho' with ⟨hnone, -⟩ | ⟨o, ho, hid, -, hlease⟩
    · exact .inl hnone
    · exact (hleases o ho).step hlease hid
  · refine ⟨keyed_of_empty empty, fun o ho => ?_⟩
    simp [RecoveryState.operations, empty.backups, empty.restores] at ho

/-! ### Kept out -/

/-- Why no other worker can claim the cleanup of `x` before `now + leaseMillis`: the lease runs at least
until then, or the backup is deleted; a restore may have been cleaned in the meantime. -/
def Blocked (now : Millis) (x : String) (es : List Event) (s : RecoveryState) : Prop :=
  ∃ o ∈ s.operations, o.id = x ∧ ((∃ u, o.base.cleanupLeaseUntil = some u ∧ now + leaseMillis ≤ u) ∨
    (o.kind = .backup ∧ o.status = .DELETED) ∨ (o.kind = .restore ∧ ∃ e ∈ es, e.FinishesCleanup x))

theorem leaseUntil_of_lease {token worker : Option String} {u : Option Millis} (h : o.lease = (token, worker, u)) :
    o.base.cleanupLeaseUntil = u := congrArg (·.2.2) h

theorem le_of_not_busy {u : Millis} (h : cleanupBusy (some u) now = false) : u ≤ now := by
  simpa [cleanupBusy] using h

theorem LeaseStep.blocked (h : LeaseStep P o e o') (hkind : o.kind = o'.kind) {u : Millis}
    (hu : o.base.cleanupLeaseUntil = some u) (hle : now + leaseMillis ≤ u) :
    (∃ u, o'.base.cleanupLeaseUntil = some u ∧ now + leaseMillis ≤ u) ∨
      (o'.kind = .backup ∧ o'.status = .DELETED) ∨
      (o'.kind = .restore ∧ ∃ e' ∈ es ++ [e], e'.FinishesCleanup o.id) := by
  cases h with
  | kept same _ _ => exact .inl ⟨u, by rw [leaseUntil_of_lease same]; exact hu, hle⟩
  | taken _ _ _ free lease =>
    rw [hu] at free
    have hpassed := le_of_not_busy free
    have hlonger : u ≤ _ + leaseMillis := Int.le_trans hpassed (Int.le_add_of_nonneg_right (by decide))
    exact .inl ⟨_, leaseUntil_of_lease lease, Int.le_trans hle hlonger⟩
  | @cleared input output event id deleted _ =>
    cases hk : o.kind with
    | backup => exact .inr (.inl ⟨hkind ▸ hk, deleted hk⟩)
    | restore => exact .inr (.inr ⟨hkind ▸ hk, e, by simp, input, output, event, id⟩)

/-- An operation that has a cell keeps one. -/
theorem step_operation (hk : Keyed s) (h : Step P enforceQuota s e s') (ho : o ∈ s.operations) :
    ∃ c c' ls, s.cell o.id = some c ∧ c.operation = o ∧
      s'.cell o.id = some c' ∧ Run CellStep c ls c' := by
  obtain ⟨c, hc, hop⟩ := hk.exists_cell ho
  obtain ⟨c', ls, hc', hrun, -⟩ := run_cell_from hk (.single h) hc
  exact ⟨c, c', ls, hc, hop, hc', hrun⟩

theorem step_blocked {x : String} (hk : Keyed s) (h : Step P enforceQuota s e s') (hb : Blocked now x es s) :
    Blocked now x (es ++ [e]) s' := by
  obtain ⟨o, ho, rfl, hcase⟩ := hb
  obtain ⟨c, c', ls, hc, rfl, hc', hrun⟩ := step_operation hk h ho
  obtain ⟨hmem', hid', -⟩ := cell_eq_some hc'
  refine ⟨c'.operation, hmem', hid', ?_⟩
  rcases hcase with ⟨u, hu, hle⟩ | hdeleted | ⟨hrestore, e', he', hfinish⟩
  · rcases step_lease hk h hmem' with ⟨-, hnew⟩ | ⟨o, ho, hid, hkind, hlease⟩
    · exact absurd hid'.symm (hnew c.operation (cell_eq_some hc).1)
    · obtain rfl : o = c.operation := List.inj_on_of_nodup_map hk.ids ho (cell_eq_some hc).1 (hid.trans hid')
      exact hlease.blocked hkind hu hle
  · obtain rfl := cellRun_deleted hrun hdeleted
    exact .inr (.inl hdeleted)
  · have hkind := (cellRun_sameRequest hrun).1.kind
    exact .inr (.inr ⟨hkind.trans hrestore, e', by simp [he'], hfinish⟩)

/-- The write of a cleanup claim that succeeds. -/
theorem step_claimCleanup (hk : Keyed s) {input : RecoveryClaim} {token : String}
    (h : Step P enforceQuota s (.returned (.claimCleanup input token) output) s') :
    ∃ o ∈ s.operations, ∃ o' ∈ s'.operations, ∃ now, o'.id = o.id ∧ o.id = input.operationId ∧
      recoveryNow P input.clock = .ok now ∧ cleanupBusy o.base.cleanupLeaseUntil now = false ∧
      (o.kind = .backup → o.status ≠ .DELETED) ∧ o'.base.cleanupLeaseUntil = some (now + leaseMillis) := by
  cases h with
  | returned _ run =>
    obtain ⟨_, ha, -⟩ := answer_ok run
    obtain ⟨cell, change, writes, lease, -⟩ := claimRecoveryCleanup_moved hk ha
    have hmem := (cell_eq_some cell).1
    cases lease with
    | kept keeps _ => cases keeps
    | taken id clock free alive lease =>
      refine ⟨_, hmem, _, ?_, _, change.sameKeys.id, id, clock, free, alive, leaseUntil_of_lease lease⟩
      rw [writes.operations, Table.mem_replace]
      exact .inr ⟨rfl, _, hmem, change.sameKeys.id.symm⟩

theorem run_blocked {s₀ : RecoveryState} {es₁ es₂ : List Event} {input : RecoveryClaim} {token : String}
    (empty : EmptyTables s₀)
    (run : Run (Step P enforceQuota) s₀ (es₁ ++ .returned (.claimCleanup input token) output :: es₂) s)
    (hnow : recoveryNow P input.clock = .ok now) : Blocked now input.operationId es₂ s := by
  obtain ⟨t, t', hbefore, hstep, hafter⟩ := run.at_label
  have hk := run_keyed empty hbefore
  have hk' := step_keyed _ _ _ hk hstep
  refine (hafter.history (I := fun es s => Keyed s ∧ Blocked now input.operationId es s)
    (fun es s e s' hs hstep => ⟨step_keyed _ _ _ hs.1 hstep, step_blocked hs.1 hstep hs.2⟩) ⟨hk', ?_⟩).2
  obtain ⟨o, -, o', ho', _, hid', hid, hclock, -, -, huntil⟩ := step_claimCleanup hk hstep
  obtain rfl := Except.ok.inj (hclock.symm.trans hnow)
  exact ⟨o', ho', hid'.trans hid, .inl ⟨_, huntil, Int.le_refl _⟩⟩

/-- Who is blocked cannot claim. -/
theorem Blocked.no_claim {now' : Millis} {x : String} (hk : Keyed s) (hb : Blocked now x es s)
    (hx : (∃ b ∈ s.backups, b.id = x) ∨ ∀ e ∈ es, ¬ e.FinishesCleanup x) {other : RecoveryClaim}
    (hid : other.operationId = x) (hnow : recoveryNow P other.clock = .ok now') (hearly : now' < now + leaseMillis)
    (token : String) (output : Output) : ¬ Step P enforceQuota s (.returned (.claimCleanup other token) output) s' := by
  intro hstep
  obtain ⟨o, ho, rfl, hcase⟩ := hb
  obtain ⟨o₁, ho₁, o', -, _, -, hid₁, hclock, hfree, halive, -⟩ := step_claimCleanup hk hstep
  obtain rfl : o₁ = o := List.inj_on_of_nodup_map hk.ids ho₁ ho (hid₁.trans hid)
  obtain rfl := Except.ok.inj (hclock.symm.trans hnow)
  rcases hcase with ⟨u, hu, hle⟩ | ⟨hbackup, hdeleted⟩ | ⟨hrestore, e, he, hfinish⟩
  · rw [hu] at hfree
    exact absurd (Int.le_trans hle (le_of_not_busy hfree)) (Int.not_le.2 hearly)
  · exact halive hbackup hdeleted
  · rcases hx with ⟨b, hb, hbid⟩ | hnone
    · have hsame := List.inj_on_of_nodup_map hk.ids (mem_operations_backup.2 hb) ho hbid
      rw [← hsame] at hrestore
      cases hrestore
    · exact hnone e he hfinish

/-! ### Runs -/

/-- Cleanup is complete and final: the rows of a deleted backup are clean and stay as they are; an
acknowledgement takes the token of the last claim, before its lease ends; and until a claim has ended no
other claim of the operation succeeds. -/
structure CleanupComplete (P : Platform) (enforceQuota : RecoveryQuotaPolicy) (es : List Event)
    (s : RecoveryState) : Prop where
  clean : ∀ b ∈ s.backups, b.status = .DELETED → ∀ row ∈ s.attempts, row.backupId = b.id →
    row.state = .CLEANED ∧ row.cleanupPending = false
  final : ∀ b ∈ s.backups, b.status = .DELETED → ∀ es' s', Run (Step P enforceQuota) s es' s' →
    b ∈ s'.backups ∧ (s'.attempts.filter fun row => row.backupId = b.id) =
      s.attempts.filter fun row => row.backupId = b.id
  finish : ∀ input output s', Step P enforceQuota s (.returned (.finishCleanup input) output) s' →
    ∃ es₁ claim output' es₂ now now',
      es = es₁ ++ .returned (.claimCleanup claim input.token) output' :: es₂ ∧
      claim.operationId = input.operationId ∧ (∀ e ∈ es₂, ¬ e.ClaimsCleanup input.operationId) ∧
      recoveryNow P claim.clock = .ok now ∧ recoveryNow P input.clock = .ok now' ∧ now' < now + 60000
  exclusive : ∀ es₁ claim token output es₂ now,
    es = es₁ ++ .returned (.claimCleanup claim token) output :: es₂ →
    recoveryNow P claim.clock = .ok now →
    ((∃ b ∈ s.backups, b.id = claim.operationId) ∨ ∀ e ∈ es₂, ¬ e.FinishesCleanup claim.operationId) →
    ∀ other token' now', other.operationId = claim.operationId →
      recoveryNow P other.clock = .ok now' → now' < now + 60000 →
      ∀ output' s', ¬ Step P enforceQuota s (.returned (.claimCleanup other token') output') s'

theorem deleted_cell (hk : Keyed s) {b : RecoveryBackup} (hb : b ∈ s.backups) (hdeleted : b.status = .DELETED) :
    ∃ c, s.cell b.id = some c ∧ c.operation = .backup b ∧ c.Deleted := by
  obtain ⟨c, hc, hop⟩ := hk.exists_cell (mem_operations_backup.2 hb)
  refine ⟨c, hc, hop, ?_⟩
  unfold Cell.Deleted
  rw [hop]
  exact ⟨rfl, hdeleted⟩

theorem step_finishCleanup (hk : Keyed s) {input : RecoveryCleanupFence}
    (h : Step P enforceQuota s (.returned (.finishCleanup input) output) s') :
    ∃ o ∈ s.operations, o.id = input.operationId ∧ o.base.cleanupToken = some input.token ∧
      ∃ now', recoveryNow P input.clock = .ok now' ∧ deadlineLost o.base.cleanupLeaseUntil now' = false := by
  cases h with
  | returned _ run =>
    obtain ⟨_, ha, -⟩ := answer_ok run
    obtain ⟨cell, change, writes, lease, -⟩ := finishRecoveryCleanup_moved hk ha
    cases lease with
    | kept keeps _ => cases keeps
    | cleared id clock token live _ _ => exact ⟨_, (cell_eq_some cell).1, id, token, _, clock, live⟩

/-- **Cleanup is complete in every run.** -/
theorem run_cleanupComplete {s₀ s : RecoveryState} {es : List Event} (empty : EmptyTables s₀)
    (run : Run (Step P enforceQuota) s₀ es s) : CleanupComplete P enforceQuota es s := by
  have hk := run_keyed empty run
  refine ⟨fun b hb hdeleted row hrow hid => ?_, fun b hb hdeleted es' s' hrun => ?_,
    fun input output s' hstep => ?_, ?_⟩
  · obtain ⟨c, hc, -, hcell⟩ := deleted_cell hk hb hdeleted
    obtain ⟨c₀, ls, hinit, hcells, -⟩ := run_cell empty run hc
    obtain ⟨-, -, -, -, hjournal, -, -⟩ := cell_eq_some hc
    refine cellRun_clean hcells hinit hcell row ?_
    rw [hjournal]
    exact mem_journal.2 ⟨hrow, hid⟩
  · obtain ⟨c, hc, hop, hcell⟩ := deleted_cell hk hb hdeleted
    obtain ⟨c', ls, hc', hcells, -⟩ := run_cell_from hk hrun hc
    obtain rfl := cellRun_deleted hcells hcell
    obtain ⟨hmem, -, -, -, hjournal', -, -⟩ := cell_eq_some hc'
    obtain ⟨-, -, -, -, hjournal, -, -⟩ := cell_eq_some hc
    rw [hop] at hmem
    exact ⟨mem_operations_backup.1 hmem, hjournal'.symm.trans hjournal⟩
  · obtain ⟨o, ho, hid, htoken, now', hnow', hlive⟩ := step_finishCleanup hk hstep
    rcases run_leaseOf empty run o ho with hnone | ⟨es₁, claim, token, output', es₂, now, hes, hclaim, hlast,
      hnow, hlease⟩
    · have hnone := congrArg Prod.fst hnone
      rw [show o.lease.1 = o.base.cleanupToken from rfl, htoken] at hnone
      cases hnone
    · obtain rfl : input.token = token :=
        Option.some.inj (htoken.symm.trans (congrArg Prod.fst hlease))
      rw [leaseUntil_of_lease hlease] at hlive
      refine ⟨es₁, claim, output', es₂, now, now', hes, hclaim.trans hid, hid ▸ hlast, hnow, hnow', ?_⟩
      exact Int.not_le.1 (of_decide_eq_false hlive)
  · rintro es₁ claim token output es₂ now rfl hnow hx other token' now' hother hnow' hearly output' s'
    exact (run_blocked empty run hnow).no_claim hk hx hother hnow' hearly token' output'

/-- A backup that fails with one journalled attempt and is cleaned up. -/
def Sample.cleanup : List Call :=
  [createBackup, claim "w1" 0, mutate "w1" 1 1 (.intent "v1"), mutate "w1" 1 2 (.fail "ENOSPC"),
    .claimCleanup (claimOf .backup "backup_1" "w2" 3) "t1",
    .finishCleanup { claimOf .backup "backup_1" "w2" 4 with token := "t1" }]

theorem run_cleanupComplete_failed : ∃ es s, Run (Step Sample.platform Sample.quota) Sample.state es s ∧
    s.backups.map (·.status) = [.DELETED] ∧ s.attempts.map (·.state) = [.CLEANED] ∧
    CleanupComplete Sample.platform Sample.quota es s := by
  obtain ⟨es, s, hrun, hcheck⟩ := exists_run Sample.platform Sample.quota Sample.state Sample.cleanup
    (fun _ s => s.backups.map (·.status) = [.DELETED] ∧ s.attempts.map (·.state) = [.CLEANED])
    (by decide +kernel)
  obtain ⟨hstatus, hstate⟩ := of_decide_eq_true hcheck
  exact ⟨es, s, hrun, hstatus, hstate, run_cleanupComplete Sample.state_empty hrun⟩

/-- The operations whose cleanup was claimed, with the times of the claims. -/
def cleanupClaims (P : Platform) (es : List Event) : List (String × Option Millis) :=
  es.filterMap fun
    | .returned (.claimCleanup input _) _ => some (input.operationId, (recoveryNow P input.clock).toOption)
    | _ => none

/-- A restore that is cancelled, cleaned up and claimed once more. -/
def Sample.reclaimed : List Call :=
  publication ++ [createRestore 3,
    .cancelRestore { organizationId := "org_1", actorUserId := "usr_1", operationId := "restore_1",
                     clock := clock 4 },
    .claimCleanup (claimOf .restore "restore_1" "w2" 5) "t1",
    .finishCleanup { claimOf .restore "restore_1" "w2" 5 with token := "t1" },
    .claimCleanup (claimOf .restore "restore_1" "w3" 5) "t2"]

/-- The acknowledgement gives the lease of a restore back, and a claim does not ask whether the target is
clean: two claims succeed at one time. -/
theorem restore_cleanup_reclaimed : ∃ es s, Run (Step Sample.platform Sample.quota) Sample.state es s ∧
    cleanupClaims Sample.platform es = [("restore_1", some 5), ("restore_1", some 5)] ∧
    s.restores.map (·.cleanupToken) = [some "t2"] := by
  obtain ⟨es, s, hrun, hcheck⟩ := exists_run Sample.platform Sample.quota Sample.state Sample.reclaimed
    (fun es s => cleanupClaims Sample.platform es = [("restore_1", some 5), ("restore_1", some 5)] ∧
      s.restores.map (·.cleanupToken) = [some "t2"]) (by decide +kernel)
  exact ⟨es, s, hrun, of_decide_eq_true hcheck⟩

end RaibitServer.Recovery
