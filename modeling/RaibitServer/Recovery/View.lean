import RaibitServer.Recovery.Cell

/-!
# Recovery.View — the cells of a recovery state

`RecoveryState.cell s x` is the cell of operation `x`.  `Keyed` says that identifiers identify and
that every operation has its job; `Rewrites` is the write a repository function makes on one cell,
and `Rewrites.cell` reads the state after it.
-/

namespace RaibitServer.Recovery

open Lib

variable {s s' : RecoveryState}

/-! ### Views of the tables -/

def RecoveryState.journal (s : RecoveryState) (x : String) : List RecoveryAttempt :=
  s.attempts.filter fun row => row.backupId = x

def RecoveryState.cell (s : RecoveryState) (x : String) : Option Cell := do
  let operation ← s.operations.find? fun o => o.id = x
  let job ← s.jobs.find? fun j => j.targetId = x
  some ⟨operation, job, s.journal x⟩

/-- Identifiers identify, and every operation has its job. -/
structure Keyed (s : RecoveryState) : Prop where
  ids : (s.operations.map Operation.id).Nodup
  jobIds : (s.jobs.map RecoveryJob.id).Nodup
  targets : (s.jobs.map RecoveryJob.targetId).Perm (s.operations.map Operation.id)
  journals : ∀ row ∈ s.attempts, ∃ o ∈ s.operations, o.id = row.backupId

theorem mem_operations_backup {b : RecoveryBackup} : .backup b ∈ s.operations ↔ b ∈ s.backups := by
  simp [RecoveryState.operations]

theorem mem_operations_restore {r : RecoveryRestore} :
    .restore r ∈ s.operations ↔ r ∈ s.restores := by
  simp [RecoveryState.operations]

theorem operations_congr (hb : s'.backups = s.backups) (hr : s'.restores = s.restores) :
    s'.operations = s.operations := by
  simp [RecoveryState.operations, hb, hr]

/-- An operation and the job a search for its identifier returns are a cell. -/
theorem Keyed.cell_eq (hk : Keyed s) {o : Operation} {j : RecoveryJob} (ho : o ∈ s.operations)
    (hj : recoveryJob s o.id = .ok j) : s.cell o.id = some ⟨o, j, s.journal o.id⟩ := by
  have hfind := Table.find?_key_eq Operation.id ho hk.ids
  simp only [recoveryJob, orThrow_ok] at hj
  simp [RecoveryState.cell, hfind, hj]

theorem cell_eq_some {x : String} {c : Cell} (h : s.cell x = some c) :
    c.operation ∈ s.operations ∧ c.operation.id = x ∧ c.job ∈ s.jobs ∧ c.job.targetId = x ∧
      c.journal = s.journal x ∧ s.operations.find? (fun o => o.id = x) = some c.operation ∧
      s.jobs.find? (fun j => j.targetId = x) = some c.job := by
  unfold RecoveryState.cell at h
  simp only [Option.bind_eq_bind, Option.bind_eq_some_iff, Option.some.injEq] at h
  obtain ⟨o, ho, j, hj, rfl⟩ := h
  exact ⟨List.mem_of_find?_eq_some ho, by simpa using List.find?_some ho,
    List.mem_of_find?_eq_some hj, by simpa using List.find?_some hj, rfl, ho, hj⟩

/-- Every operation has a cell. -/
theorem Keyed.exists_cell (hk : Keyed s) {o : Operation} (ho : o ∈ s.operations) :
    ∃ c, s.cell o.id = some c ∧ c.operation = o := by
  have hmem : o.id ∈ s.jobs.map RecoveryJob.targetId :=
    hk.targets.mem_iff.2 (List.mem_map_of_mem ho)
  obtain ⟨j, hj, hid⟩ := List.mem_map.1 hmem
  obtain ⟨j', hj'⟩ : ∃ j', s.jobs.find? (fun r => decide (r.targetId = o.id)) = some j' := by
    rw [← Option.isSome_iff_exists, List.find?_isSome]
    exact ⟨j, hj, by simpa using hid⟩
  have hcell := hk.cell_eq (j := j') ho (by simp [recoveryJob, hj'])
  exact ⟨_, hcell, rfl⟩

/-! ### Writes -/

/-- The tables of `s` with the cell `c'` written over the one of the same identifier. -/
structure Rewrites (s s' : RecoveryState) (c' : Cell) : Prop where
  operations : s'.operations = Table.replace Operation.id c'.operation s.operations
  jobs : s'.jobs = Table.replace RecoveryJob.id c'.job s.jobs
  journal : s'.journal c'.operation.id = c'.journal
  others : ∀ y, y ≠ c'.operation.id → s'.journal y = s.journal y

theorem operations_recoverySet (ids : (s.operations.map Operation.id).Nodup) {o o' : Operation}
    (ho : o ∈ s.operations) (hid : o'.id = o.id) (hkind : o'.kind = o.kind)
    (job : Option RecoveryJob) :
    (recoverySet s o' job).operations = Table.replace Operation.id o' s.operations := by
  have inj := List.inj_on_of_nodup_map ids
  cases o' with
  | backup b' =>
    obtain ⟨b, rfl⟩ : ∃ b, o = .backup b := by cases o <;> simp_all [Operation.kind]
    have hne : ∀ r ∈ s.restores, r.id ≠ b'.id := fun r hr heq => by
      have := inj (mem_operations_restore.2 hr) ho (by simp_all)
      cases this
    simp only [recoverySet, RecoveryState.operations, Table.replace, List.map_append, List.map_map]
    refine congrArg₂ _ (List.map_congr_left fun b₁ _ => ?_) (List.map_congr_left fun r hr => ?_)
    · by_cases h : b₁.id = b'.id <;> simp [h]
    · simp [hne r hr]
  | restore r' =>
    obtain ⟨r, rfl⟩ : ∃ r, o = .restore r := by cases o <;> simp_all [Operation.kind]
    have hne : ∀ b ∈ s.backups, b.id ≠ r'.id := fun b hb heq => by
      have := inj (mem_operations_backup.2 hb) ho (by simp_all)
      cases this
    simp only [recoverySet, RecoveryState.operations, Table.replace, List.map_append, List.map_map]
    refine congrArg₂ _ (List.map_congr_left fun b hb => ?_) (List.map_congr_left fun r₁ _ => ?_)
    · simp [hne b hb]
    · by_cases h : r₁.id = r'.id <;> simp [h]

@[simp] theorem pins_recoverySet (o : Operation) (job : Option RecoveryJob) :
    (recoverySet s o job).pins = s.pins := by cases o <;> rfl

@[simp] theorem attempts_recoverySet (o : Operation) (job : Option RecoveryJob) :
    (recoverySet s o job).attempts = s.attempts := by cases o <;> rfl

@[simp] theorem journal_recoverySet (o : Operation) (job : Option RecoveryJob) (x : String) :
    (recoverySet s o job).journal x = s.journal x := by simp [RecoveryState.journal]

@[simp] theorem jobs_recoverySet_some (o : Operation) (j : RecoveryJob) :
    (recoverySet s o (some j)).jobs = Table.replace RecoveryJob.id j s.jobs := by cases o <;> rfl

@[simp] theorem jobs_recoverySet_none (o : Operation) :
    (recoverySet s o none).jobs = s.jobs := by cases o <;> rfl

/-- Up to the journal of `x`, the recovery tables that hold cells are the same. -/
structure Touches (s s' : RecoveryState) (x : String) : Prop where
  backups : s'.backups = s.backups
  restores : s'.restores = s.restores
  jobs : s'.jobs = s.jobs
  others : ∀ y, y ≠ x → s'.journal y = s.journal y

theorem Touches.refl (s : RecoveryState) (x : String) : Touches s s x := ⟨rfl, rfl, rfl, fun _ _ => rfl⟩

/-- The job a write leaves in the table: the one it was given, or the old one. -/
def writtenJob (job : Option RecoveryJob) (j : RecoveryJob) : RecoveryJob := job.getD j

@[simp] theorem writtenJob_none (j : RecoveryJob) : writtenJob none j = j := rfl

theorem Touches.rewrites {s₁ : RecoveryState} {o : Operation} {j : RecoveryJob}
    (ht : Touches s s₁ o.id) (hk : Keyed s) (o' : Operation) (ho : o ∈ s.operations)
    (hj : recoveryJob s o.id = .ok j) (hid : o'.id = o.id) (hkind : o'.kind = o.kind)
    (job : Option RecoveryJob) :
    Rewrites s (recoverySet s₁ o' job) ⟨o', writtenJob job j, s₁.journal o.id⟩ := by
  have hops : s₁.operations = s.operations := operations_congr ht.backups ht.restores
  constructor
  · rw [← hops] at ho ⊢
    exact operations_recoverySet (hops ▸ hk.ids) ho hid hkind job
  · cases job with
    | some j' => simp [writtenJob, ht.jobs]
    | none =>
      simp only [recoveryJob, orThrow_ok] at hj
      simp [writtenJob, ht.jobs,
        Table.replace_self RecoveryJob.id (List.mem_of_find?_eq_some hj) hk.jobIds]
  · simp [hid]
  · intro y hy
    simpa using ht.others y (hid ▸ hy)

/-- A rewritten cell is the new one; the others are the old ones. -/
theorem Rewrites.cell {c c' : Cell} (w : Rewrites s s' c') (hk : Keyed s)
    (hc : s.cell c.operation.id = some c) (hs : SameKeys c c') (y : String) :
    s'.cell y = if y = c.operation.id then some c' else s.cell y := by
  obtain ⟨-, -, hj, hjt, -, hof, hjf⟩ := cell_eq_some hc
  have hp : ∀ o ∈ s.operations, o.id = c'.operation.id →
      decide (o.id = y) = decide (c'.operation.id = y) := fun o _ h => by rw [h]
  have hq : ∀ j ∈ s.jobs, j.id = c'.job.id →
      decide (j.targetId = y) = decide (c'.job.targetId = y) := fun j hj' h => by
    rw [List.inj_on_of_nodup_map hk.jobIds hj' hj (h.trans hs.jobId), hs.targetId]
  unfold RecoveryState.cell
  rw [w.operations, w.jobs]
  by_cases hy : y = c.operation.id
  · subst hy
    rw [Table.find?_replace_hit Operation.id hp hof hs.id.symm,
      Table.find?_replace_hit RecoveryJob.id hq hjf hs.jobId.symm, if_pos rfl, ← hs.id, w.journal]
    rfl
  · have hid : c'.operation.id ≠ y := by rw [hs.id]; exact fun h => hy h.symm
    have htarget : c'.job.targetId ≠ y := by rw [hs.targetId, hjt]; exact fun h => hy h.symm
    rw [Table.find?_replace_miss Operation.id hp (by simpa using hid),
      Table.find?_replace_miss RecoveryJob.id hq (by simpa using htarget), if_neg hy,
      w.others y hid.symm]

end RaibitServer.Recovery
