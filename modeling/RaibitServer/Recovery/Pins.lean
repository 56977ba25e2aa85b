import RaibitServer.Recovery.Coherence

/-!
# Recovery.Pins — a restore keeps its artifact and its target pinned

Pins are written at creation and dropped by publication and cleanup, keyed sometimes by the backup
and sometimes by the restore.  `PinInv` is the joint invariant over backups, restores and pins;
`PinChange` says what a change of one operation means for it.
-/

namespace RaibitServer.Recovery

open Lib

variable {P : Platform} {enforceQuota : RecoveryQuotaPolicy}

/-- The artifact of a backup in this state can be restored from. -/
def Restorable (status : OperationStatus) : Prop := status = .READY ∨ status = .EXPIRED

/-- The restore still needs its target: it is not ready and its target is not cleaned. -/
def OpenRestore (r : RecoveryRestore) : Prop := r.status ≠ .READY ∧ r.targetCleanedAt = none

/-- A restore in this state has ended without a result. -/
abbrev Settled (status : OperationStatus) : Prop := status ∈ [OperationStatus.FAILED, .CANCELLED]

def isTargetPin (restoreId : String) (pin : RecoveryPin) : Bool :=
  decide (pin.kind = .RESTORE_TARGET) && decide (pin.restoreId = some restoreId)

def isSourcePin (backupId : String) (pin : RecoveryPin) : Bool :=
  decide (pin.kind = .ARTIFACT_SOURCE) && decide (pin.backupId = backupId)

structure PinInv (ops : List Operation) (pins : List RecoveryPin) : Prop where
  /-- A source pin names a backup that is not deleted. -/
  source : ∀ pin ∈ pins, pin.kind = .ARTIFACT_SOURCE → pin.restoreId = none ∧
    ∃ b, .backup b ∈ ops ∧ b.id = pin.backupId
  /-- A target pin names an open restore and the restorable backup it restores from. -/
  target : ∀ pin ∈ pins, pin.kind = .RESTORE_TARGET →
    (∃ r, .restore r ∈ ops ∧ pin.restoreId = some r.id ∧ OpenRestore r) ∧
    ∃ b, .backup b ∈ ops ∧ b.id = pin.backupId ∧ Restorable b.status
  /-- An open restore has one target pin, on its target and its backup. -/
  pinned : ∀ r, .restore r ∈ ops → OpenRestore r → ∃ pin, pins.filter (isTargetPin r.id) = [pin] ∧
    pin.resourceId = r.targetResourceId ∧ pin.backupId = r.backupId
  /-- A backup has one source pin until it is deleted. -/
  kept : ∀ b, .backup b ∈ ops → b.status ≠ .DELETED → (pins.filter (isSourcePin b.id)).length = 1
  /-- A deleted backup has no pin. -/
  gone : ∀ b, .backup b ∈ ops → b.status = .DELETED → ∀ pin ∈ pins, pin.backupId ≠ b.id
  /-- Only a failed or cancelled restore has its target cleaned. -/
  cleaned : ∀ r, .restore r ∈ ops → r.targetCleanedAt ≠ none → Settled r.status

/-- What the change of one operation means for the pins. -/
inductive PinChange (pins : List RecoveryPin) : Operation → Operation → List RecoveryPin → Prop
  | backup {b b'} (id : b'.id = b.id)
      (restorable : Restorable b.status → Restorable b'.status ∨ restorePinned pins b.id = false)
      (deleted : b'.status = .DELETED ↔ b.status = .DELETED) :
      PinChange pins (.backup b) (.backup b') pins
  | backupDeleted {b b'} (id : b'.id = b.id) (unpinned : restorePinned pins b.id = false)
      (deleted : b'.status = .DELETED) :
      PinChange pins (.backup b) (.backup b') (pins.filter fun row => row.backupId ≠ b.id)
  | restore {r r'} (id : r'.id = r.id) (target : r'.targetResourceId = r.targetResourceId)
      (backupId : r'.backupId = r.backupId) (cleaned : r'.targetCleanedAt = r.targetCleanedAt)
      (ready : r'.status = .READY ↔ r.status = .READY)
      (settled : Settled r.status → Settled r'.status) :
      PinChange pins (.restore r) (.restore r') pins
  | restoreClosed {r r'} (id : r'.id = r.id) (closed : ¬ OpenRestore r')
      (cleaned : r'.targetCleanedAt ≠ none → Settled r'.status ∨
        (r'.targetCleanedAt = r.targetCleanedAt ∧ ¬ Settled r.status)) :
      PinChange pins (.restore r) (.restore r') (dropRestorePins pins r.id)

/-! ### Changes of cells -/

theorem not_settled_of_active {status : OperationStatus} (h : Active status) :
    ¬ Settled status ∧ ¬ Restorable status ∧ status ≠ .DELETED ∧
      status ≠ .READY := by
  rcases active_iff.1 h with rfl | rfl | rfl <;> simp [Restorable]

/-- A write that moves an active operation to a state that is neither published nor deleted. -/
theorem PinChange.update {pins : List RecoveryPin} {o : Operation} (f : RecoveryBase → RecoveryBase)
    (hactive : Active o.status) (hid : (f o.base).id = o.base.id)
    (hstatus : (f o.base).status ≠ .READY ∧ (f o.base).status ≠ .DELETED) :
    PinChange pins o (o.update f) pins := by
  obtain ⟨hsettled, hrest, hdel, hready⟩ := not_settled_of_active hactive
  cases o with
  | backup b => exact .backup hid (fun h => absurd h hrest) (iff_of_false hstatus.2 hdel)
  | restore r =>
    exact .restore hid rfl rfl rfl (iff_of_false hstatus.1 hready) (fun h => absurd h hsettled)

theorem PinChange.fail {pins : List RecoveryPin} {o : Operation} {code : String} {now : Millis}
    (hactive : Active o.status) : PinChange pins o (failOperation o code now) pins := by
  simp only [failOperation]
  exact .update _ hactive rfl (by simp)

/-- A change that leaves the operation as it is. -/
theorem PinChange.refl (pins : List RecoveryPin) (o : Operation) : PinChange pins o o pins := by
  cases o with
  | backup b => exact .backup rfl .inl Iff.rfl
  | restore r => exact .restore rfl rfl rfl rfl Iff.rfl id

theorem Mutation.pinChange {n now m c pins c' pins' worker} (h : Mutation n now m c pins c' pins')
    (hf : Fenced c worker n now) : PinChange pins c.operation c'.operation pins' := by
  have hact := Active.of_fence hf.status
  obtain ⟨hsettled, hrest, hdel, hready⟩ := not_settled_of_active hact
  cases h with
  | fail => exact .fail hact
  | verify _ _ =>
    simp only [verifyOperation]
    exact .update _ hact rfl (by simp)
  | readyBackup _ _ _ =>
    exact .backup rfl (fun h => absurd h hrest) (iff_of_false (by simp [publishBackup]) hdel)
  | readyRestore _ =>
    exact .restoreClosed rfl (fun h => h.1 rfl) fun _ => .inr ⟨rfl, hsettled⟩
  | _ => exact .refl _ _

theorem Change.pinChange {l c pins c' pins'} (h : Change l c pins c' pins') :
    PinChange pins c.operation c'.operation pins' := by
  cases h with
  | claimFailed active => exact .fail active
  | @claimed c _ _ _ _ active _ _ _ =>
    simp only [startOperation]
    refine .update _ active rfl ?_
    rcases active_iff.1 active with h | h | h <;> simp [h]
  | mutated fenced apply => exact apply.pinChange fenced
  | cancelled active =>
    obtain ⟨hsettled, -, -, hready⟩ := not_settled_of_active active
    exact .restore rfl rfl rfl rfl (iff_of_false (by simp) hready) (fun h => absurd h hsettled)
  | expired ready => exact .backup rfl (fun _ => .inl (.inr rfl)) (by simp [ready])
  | deletionRequested settled unpinned =>
    refine .backup rfl (fun _ => .inr unpinned) (iff_of_false (by simp) fun h => ?_)
    simp [h] at settled
  | backupCleanupClaimed settled unpinned =>
    refine .backup rfl (fun _ => .inr unpinned) (iff_of_false (by simp) fun h => ?_)
    simp [h] at settled
  | restoreCleanupClaimed _ => exact .restore rfl rfl rfl rfl Iff.rfl id
  | backupCleaned _ unpinned => exact .backupDeleted rfl unpinned rfl
  | restoreCleaned settled =>
    exact .restoreClosed rfl (fun h => by cases h.2) fun _ => .inl settled

/-! ### One rewritten operation -/

section Rewrite

variable {ops : List Operation} {pins : List RecoveryPin}

theorem mem_rewritten (ids : (ops.map Operation.id).Nodup) {o o' x : Operation} (ho : o ∈ ops)
    (hid : o'.id = o.id) : x ∈ Table.replace Operation.id o' ops ↔ (x ∈ ops ∧ x ≠ o) ∨ x = o' := by
  rw [Table.mem_replace]
  constructor
  · rintro (⟨hx, hne⟩ | ⟨rfl, -⟩)
    · exact .inl ⟨hx, fun h => hne (by rw [h, hid])⟩
    · exact .inr rfl
  · rintro (⟨hx, hne⟩ | rfl)
    · exact .inl ⟨hx, fun h => hne (List.inj_on_of_nodup_map ids hx ho (h.trans hid))⟩
    · exact .inr ⟨rfl, o, ho, hid.symm⟩

variable {b b' : RecoveryBackup} {r r' : RecoveryRestore}

/-- A restore among the operations after the rewrite of a backup was there before. -/
theorem restore_mem_of_backup {ops' : List Operation}
    (hmem : ∀ x, x ∈ ops' ↔ (x ∈ ops ∧ x ≠ .backup b) ∨ x = .backup b') (r : RecoveryRestore) :
    .restore r ∈ ops' ↔ .restore r ∈ ops := by simp [hmem]

theorem backup_mem_of_restore {ops' : List Operation}
    (hmem : ∀ x, x ∈ ops' ↔ (x ∈ ops ∧ x ≠ .restore r) ∨ x = .restore r') (b : RecoveryBackup) :
    .backup b ∈ ops' ↔ .backup b ∈ ops := by simp [hmem]

theorem not_restorePinned {backupId : String} (h : restorePinned pins backupId = false)
    {pin : RecoveryPin} (hpin : pin ∈ pins) (hkind : pin.kind = .RESTORE_TARGET) :
    pin.backupId ≠ backupId := fun hb => by
  have : restorePinned pins backupId = true :=
    List.any_eq_true.2 ⟨pin, hpin, by simp [hb, hkind]⟩
  simp [h] at this

theorem isTargetPin_iff {restoreId : String} {pin : RecoveryPin} :
    isTargetPin restoreId pin = true ↔ pin.kind = .RESTORE_TARGET ∧ pin.restoreId = some restoreId := by
  simp [isTargetPin]

theorem isSourcePin_iff {backupId : String} {pin : RecoveryPin} :
    isSourcePin backupId pin = true ↔ pin.kind = .ARTIFACT_SOURCE ∧ pin.backupId = backupId := by
  simp [isSourcePin]

variable {ops' : List Operation}

theorem PinInv.backup (hi : PinInv ops pins) (hb : .backup b ∈ ops)
    (hmem : ∀ x, x ∈ ops' ↔ (x ∈ ops ∧ x ≠ .backup b) ∨ x = .backup b') (id : b'.id = b.id)
    (restorable : Restorable b.status → Restorable b'.status ∨ restorePinned pins b.id = false)
    (deleted : b'.status = .DELETED ↔ b.status = .DELETED) : PinInv ops' pins := by
  have hres := restore_mem_of_backup hmem
  refine ⟨fun pin hpin hkind => ?_, fun pin hpin hkind => ?_, fun r hr => hi.pinned r ((hres r).1 hr),
    fun x hx hdel => ?_, fun x hx hdel => ?_, fun r hr => hi.cleaned r ((hres r).1 hr)⟩
  · obtain ⟨hnone, b₀, hb₀, hid₀⟩ := hi.source pin hpin hkind
    refine ⟨hnone, ?_⟩
    by_cases heq : b₀ = b
    · exact ⟨b', (hmem _).2 (.inr rfl), by rw [id, ← heq, hid₀]⟩
    · exact ⟨b₀, (hmem _).2 (.inl ⟨hb₀, by simpa using heq⟩), hid₀⟩
  · obtain ⟨⟨r, hr, hrest⟩, b₀, hb₀, hid₀, hst⟩ := hi.target pin hpin hkind
    refine ⟨⟨r, (hres r).2 hr, hrest⟩, ?_⟩
    by_cases heq : b₀ = b
    · subst heq
      rcases restorable hst with hst' | hun
      · exact ⟨b', (hmem _).2 (.inr rfl), by rw [id, hid₀], hst'⟩
      · exact absurd hid₀.symm (not_restorePinned hun hpin hkind)
    · exact ⟨b₀, (hmem _).2 (.inl ⟨hb₀, by simpa using heq⟩), hid₀, hst⟩
  · rcases (hmem _).1 hx with ⟨hx, -⟩ | heq
    · exact hi.kept x hx hdel
    · cases heq
      rw [id]
      exact hi.kept b hb fun h => hdel (deleted.2 h)
  · rcases (hmem _).1 hx with ⟨hx, -⟩ | heq
    · exact hi.gone x hx hdel
    · cases heq
      rw [id]
      exact hi.gone b hb (deleted.1 hdel)

theorem PinInv.backupDeleted (hi : PinInv ops pins) (ids : (ops.map Operation.id).Nodup) (hb : .backup b ∈ ops)
    (hmem : ∀ x, x ∈ ops' ↔ (x ∈ ops ∧ x ≠ .backup b) ∨ x = .backup b') (id : b'.id = b.id)
    (unpinned : restorePinned pins b.id = false) (deleted : b'.status = .DELETED) :
    PinInv ops' (pins.filter fun row => row.backupId ≠ b.id) := by
  have hres := restore_mem_of_backup hmem
  have hother : ∀ b₀, .backup b₀ ∈ ops → b₀.id ≠ b.id → .backup b₀ ∈ ops' := fun b₀ hb₀ hne =>
    (hmem _).2 (.inl ⟨hb₀, fun h => hne (by cases h; rfl)⟩)
  refine ⟨fun pin hpin hkind => ?_, fun pin hpin hkind => ?_, fun r hr hopen => ?_,
    fun x hx hdel => ?_, fun x hx hdel pin hpin => ?_, fun r hr => hi.cleaned r ((hres r).1 hr)⟩
  · simp only [List.mem_filter, decide_eq_true_eq] at hpin
    obtain ⟨hnone, b₀, hb₀, hid₀⟩ := hi.source pin hpin.1 hkind
    exact ⟨hnone, b₀, hother b₀ hb₀ (hid₀ ▸ hpin.2), hid₀⟩
  · simp only [List.mem_filter, decide_eq_true_eq] at hpin
    obtain ⟨⟨r, hr, hrest⟩, b₀, hb₀, hid₀, hst⟩ := hi.target pin hpin.1 hkind
    exact ⟨⟨r, (hres r).2 hr, hrest⟩, b₀, hother b₀ hb₀ (hid₀ ▸ hpin.2), hid₀, hst⟩
  · rw [Table.filter_filter_of_imp fun pin hpin htarget => ?_]
    · exact hi.pinned r ((hres r).1 hr) hopen
    · simpa using not_restorePinned unpinned hpin (isTargetPin_iff.1 htarget).1
  · rcases (hmem _).1 hx with ⟨hx, hne⟩ | heq
    · rw [Table.filter_filter_of_imp fun pin hpin hsource => ?_]
      · exact hi.kept x hx hdel
      · have hxb : x.id ≠ b.id := fun h => hne (List.inj_on_of_nodup_map ids hx hb h)
        simpa [(isSourcePin_iff.1 hsource).2] using hxb
    · cases heq
      exact absurd deleted hdel
  · simp only [List.mem_filter, decide_eq_true_eq] at hpin
    rcases (hmem _).1 hx with ⟨hx, -⟩ | heq
    · exact hi.gone x hx hdel pin hpin.1
    · cases heq
      rw [id]
      exact hpin.2

theorem PinInv.restore (hi : PinInv ops pins) (hr : .restore r ∈ ops)
    (hmem : ∀ x, x ∈ ops' ↔ (x ∈ ops ∧ x ≠ .restore r) ∨ x = .restore r') (id : r'.id = r.id)
    (target : r'.targetResourceId = r.targetResourceId) (backupId : r'.backupId = r.backupId)
    (cleaned : r'.targetCleanedAt = r.targetCleanedAt) (ready : r'.status = .READY ↔ r.status = .READY)
    (settled : Settled r.status → Settled r'.status) :
    PinInv ops' pins := by
  have hback := backup_mem_of_restore hmem
  have hopen : OpenRestore r' ↔ OpenRestore r := by simp [OpenRestore, ready, cleaned]
  refine ⟨fun pin hpin hkind => ?_, fun pin hpin hkind => ?_, fun x hx hxo => ?_,
    fun b hb => hi.kept b ((hback b).1 hb), fun b hb => hi.gone b ((hback b).1 hb), fun x hx hcl => ?_⟩
  · obtain ⟨hnone, b, hb, hid⟩ := hi.source pin hpin hkind
    exact ⟨hnone, b, (hback b).2 hb, hid⟩
  · obtain ⟨⟨r₀, hr₀, hid₀, ho₀⟩, b, hb, hrest⟩ := hi.target pin hpin hkind
    refine ⟨?_, b, (hback b).2 hb, hrest⟩
    by_cases heq : r₀ = r
    · subst heq
      exact ⟨r', (hmem _).2 (.inr rfl), by rw [id, hid₀], hopen.2 ho₀⟩
    · exact ⟨r₀, (hmem _).2 (.inl ⟨hr₀, by simpa using heq⟩), hid₀, ho₀⟩
  · rcases (hmem _).1 hx with ⟨hx, -⟩ | heq
    · exact hi.pinned x hx hxo
    · cases heq
      rw [id, target, backupId]
      exact hi.pinned r hr (hopen.1 hxo)
  · rcases (hmem _).1 hx with ⟨hx, -⟩ | heq
    · exact hi.cleaned x hx hcl
    · cases heq
      exact settled (hi.cleaned r hr (cleaned ▸ hcl))

theorem PinInv.restoreClosed (hi : PinInv ops pins) (ids : (ops.map Operation.id).Nodup) (hr : .restore r ∈ ops)
    (hmem : ∀ x, x ∈ ops' ↔ (x ∈ ops ∧ x ≠ .restore r) ∨ x = .restore r') (closed : ¬ OpenRestore r')
    (cleaned : r'.targetCleanedAt ≠ none → Settled r'.status ∨
      (r'.targetCleanedAt = r.targetCleanedAt ∧ ¬ Settled r.status)) :
    PinInv ops' (dropRestorePins pins r.id) := by
  have hback := backup_mem_of_restore hmem
  have hsub : ∀ pin ∈ dropRestorePins pins r.id, pin ∈ pins ∧ pin.restoreId ≠ some r.id :=
    fun pin hpin => by simpa [dropRestorePins] using hpin
  refine ⟨fun pin hpin hkind => ?_, fun pin hpin hkind => ?_, fun x hx hxo => ?_,
    fun b hb hdel => ?_, fun b hb hdel pin hpin => hi.gone b ((hback b).1 hb) hdel pin (hsub pin hpin).1,
    fun x hx hcl => ?_⟩
  · obtain ⟨hnone, b, hb, hid⟩ := hi.source pin (hsub pin hpin).1 hkind
    exact ⟨hnone, b, (hback b).2 hb, hid⟩
  · obtain ⟨⟨r₀, hr₀, hid₀, ho₀⟩, b, hb, hrest⟩ := hi.target pin (hsub pin hpin).1 hkind
    refine ⟨⟨r₀, (hmem _).2 (.inl ⟨hr₀, fun h => ?_⟩), hid₀, ho₀⟩, b, (hback b).2 hb, hrest⟩
    cases h
    exact (hsub pin hpin).2 hid₀
  · rcases (hmem _).1 hx with ⟨hx, hne⟩ | heq
    · rw [dropRestorePins, Table.filter_filter_of_imp fun pin _ htarget => ?_]
      · exact hi.pinned x hx hxo
      · have hxr : x.id ≠ r.id := fun h => hne (List.inj_on_of_nodup_map ids hx hr h)
        simpa [(isTargetPin_iff.1 htarget).2] using hxr
    · cases heq
      exact absurd hxo closed
  · rw [dropRestorePins, Table.filter_filter_of_imp fun pin hpin hsource => ?_]
    · exact hi.kept b ((hback b).1 hb) hdel
    · simp [(hi.source pin hpin (isSourcePin_iff.1 hsource).1).1]
  · rcases (hmem _).1 hx with ⟨hx, -⟩ | heq
    · exact hi.cleaned x hx hcl
    · cases heq
      rcases cleaned hcl with h | ⟨hsame, hnot⟩
      · exact h
      · exact absurd (hi.cleaned r hr (hsame ▸ hcl)) hnot

theorem PinInv.change (hi : PinInv ops pins) (ids : (ops.map Operation.id).Nodup)
    {o o' : Operation} {pins' : List RecoveryPin} (ho : o ∈ ops) (h : PinChange pins o o' pins') :
    PinInv (Table.replace Operation.id o' ops) pins' := by
  cases h with
  | backup id restorable deleted =>
    exact hi.backup ho (fun _ => mem_rewritten ids ho id) id restorable deleted
  | backupDeleted id unpinned deleted =>
    exact hi.backupDeleted ids ho (fun _ => mem_rewritten ids ho id) id unpinned deleted
  | restore id target backupId cleaned ready settled =>
    exact hi.restore ho (fun _ => mem_rewritten ids ho id) id target backupId cleaned ready settled
  | restoreClosed id closed cleaned =>
    exact hi.restoreClosed ids ho (fun _ => mem_rewritten ids ho id) closed cleaned

end Rewrite

/-! ### One created operation -/

section Create

variable {ops ops' : List Operation} {pins : List RecoveryPin} {pin : RecoveryPin}

theorem PinInv.createBackup (hi : PinInv ops pins) {b : RecoveryBackup}
    (hmem : ∀ x, x ∈ ops' ↔ x ∈ ops ∨ x = .backup b) (fresh : ∀ o ∈ ops, o.id ≠ b.id)
    (queued : b.status = .QUEUED) (hkind : pin.kind = .ARTIFACT_SOURCE) (hid : pin.backupId = b.id)
    (hnone : pin.restoreId = none) : PinInv ops' (pins ++ [pin]) := by
  have hres : ∀ r, .restore r ∈ ops' ↔ .restore r ∈ ops := fun r => by simp [hmem]
  have hold : ∀ o ∈ ops, o ∈ ops' := fun o ho => (hmem o).2 (.inl ho)
  have hother : ∀ b₀, .backup b₀ ∈ ops → isSourcePin b₀.id pin = false := fun b₀ hb₀ => by
    simpa [isSourcePin, hkind, hid] using (fresh _ hb₀).symm
  refine ⟨fun p hp hk => ?_, fun p hp hk => ?_, fun r hr hopen => ?_, fun x hx hdel => ?_,
    fun x hx hdel p hp => ?_, fun r hr => hi.cleaned r ((hres r).1 hr)⟩
  · rcases List.mem_append.1 hp with hp | hp
    · obtain ⟨h1, b₀, hb₀, hid₀⟩ := hi.source p hp hk
      exact ⟨h1, b₀, hold _ hb₀, hid₀⟩
    · obtain rfl := List.mem_singleton.1 hp
      exact ⟨hnone, b, (hmem _).2 (.inr rfl), hid.symm⟩
  · rcases List.mem_append.1 hp with hp | hp
    · obtain ⟨⟨r, hr, hrest⟩, b₀, hb₀, hst⟩ := hi.target p hp hk
      exact ⟨⟨r, hold _ hr, hrest⟩, b₀, hold _ hb₀, hst⟩
    · obtain rfl := List.mem_singleton.1 hp
      simp [hkind] at hk
  · rw [List.filter_append, List.filter_cons_of_neg (by simp [isTargetPin, hkind])]
    simpa using hi.pinned r ((hres r).1 hr) hopen
  · rcases (hmem _).1 hx with hx | heq
    · rw [List.filter_append, List.filter_cons_of_neg (by simp [hother x hx])]
      simpa using hi.kept x hx hdel
    · cases heq
      -- no source pin named the new backup before
      have hnil : pins.filter (isSourcePin b.id) = [] := List.filter_eq_nil_iff.2 fun p hp hs => by
        obtain ⟨-, b₀, hb₀, hid₀⟩ := hi.source p hp (isSourcePin_iff.1 hs).1
        exact fresh _ hb₀ (hid₀.trans (isSourcePin_iff.1 hs).2)
      simp [List.filter_append, hnil, isSourcePin, hkind, hid]
  · rcases (hmem _).1 hx with hx | heq
    · rcases List.mem_append.1 hp with hp | hp
      · exact hi.gone x hx hdel p hp
      · obtain rfl := List.mem_singleton.1 hp
        rw [hid]
        exact (fresh _ hx).symm
    · cases heq
      simp [queued] at hdel

theorem PinInv.createRestore (hi : PinInv ops pins) (ids : (ops.map Operation.id).Nodup)
    {r : RecoveryRestore} {b : RecoveryBackup} (hmem : ∀ x, x ∈ ops' ↔ x ∈ ops ∨ x = .restore r)
    (fresh : ∀ o ∈ ops, o.id ≠ r.id) (queued : r.status = .QUEUED) (hclean : r.targetCleanedAt = none)
    (hkind : pin.kind = .RESTORE_TARGET) (hid : pin.backupId = r.backupId)
    (hrestore : pin.restoreId = some r.id) (htarget : pin.resourceId = r.targetResourceId)
    (hb : .backup b ∈ ops) (hbid : b.id = r.backupId) (hready : b.status = .READY) :
    PinInv ops' (pins ++ [pin]) := by
  have hback : ∀ b, .backup b ∈ ops' ↔ .backup b ∈ ops := fun b => by simp [hmem]
  have hold : ∀ o ∈ ops, o ∈ ops' := fun o ho => (hmem o).2 (.inl ho)
  have hopen : OpenRestore r := ⟨by simp [queued], hclean⟩
  refine ⟨fun p hp hk => ?_, fun p hp hk => ?_, fun x hx hxo => ?_, fun x hx hdel => ?_,
    fun x hx hdel p hp => ?_, fun x hx hcl => ?_⟩
  · rcases List.mem_append.1 hp with hp | hp
    · obtain ⟨h1, b₀, hb₀, hid₀⟩ := hi.source p hp hk
      exact ⟨h1, b₀, hold _ hb₀, hid₀⟩
    · obtain rfl := List.mem_singleton.1 hp
      simp [hkind] at hk
  · rcases List.mem_append.1 hp with hp | hp
    · obtain ⟨⟨r₀, hr₀, hrest⟩, b₀, hb₀, hst⟩ := hi.target p hp hk
      exact ⟨⟨r₀, hold _ hr₀, hrest⟩, b₀, hold _ hb₀, hst⟩
    · obtain rfl := List.mem_singleton.1 hp
      exact ⟨⟨r, (hmem _).2 (.inr rfl), hrestore, hopen⟩, b, hold _ hb, hbid.trans hid.symm, .inl hready⟩
  · rcases (hmem _).1 hx with hx | heq
    · have hne : r.id ≠ x.id := (fresh _ hx).symm
      rw [List.filter_append, List.filter_cons_of_neg (by simp [isTargetPin, hrestore, hne])]
      simpa using hi.pinned x hx hxo
    · cases heq
      have hnil : pins.filter (isTargetPin r.id) = [] := List.filter_eq_nil_iff.2 fun p hp hs => by
        obtain ⟨⟨r₀, hr₀, hid₀, -⟩, -⟩ := hi.target p hp (isTargetPin_iff.1 hs).1
        refine fresh _ hr₀ ?_
        simpa [hid₀] using (isTargetPin_iff.1 hs).2
      exact ⟨pin, by simp [List.filter_append, hnil, isTargetPin, hkind, hrestore], htarget, hid⟩
  · rw [List.filter_append, List.filter_cons_of_neg (by simp [isSourcePin, hkind])]
    simpa using hi.kept x ((hback x).1 hx) hdel
  · have hx := (hback x).1 hx
    rcases List.mem_append.1 hp with hp | hp
    · exact hi.gone x hx hdel p hp
    · obtain rfl := List.mem_singleton.1 hp
      rw [hid, ← hbid]
      intro heq
      have : Operation.backup b = .backup x := List.inj_on_of_nodup_map ids hb hx heq
      cases this
      simp [hready] at hdel
  · rcases (hmem _).1 hx with hx | heq
    · exact hi.cleaned x hx hcl
    · cases heq
      exact absurd hclean hcl

end Create

/-! ### Runs -/

theorem Effect.pinInv {s s' : RecoveryState} {l : Option (String × Label)} (h : Effect s s' l)
    (hk : Keyed s) (hi : PinInv s.operations s.pins) : PinInv s'.operations s'.pins := by
  cases h with
  | quiet same => rwa [same.operations, same.pins]
  | @created o j pin l₁ l₂ new _ freshId _ before after _ _ pins pinned =>
    have hmem : ∀ x, x ∈ s'.operations ↔ x ∈ s.operations ∨ x = o := fun x => by
      rw [before, after, List.mem_append, List.mem_append, List.mem_cons, or_assoc,
        or_comm (a := x = o)]
    rw [pins]
    cases o with
    | backup b => exact hi.createBackup hmem freshId new.status pinned.1 pinned.2.1 pinned.2.2
    | restore r =>
      obtain ⟨hkind, hid, hrestore, htarget, hclean, b, hb, hbid, hready⟩ := pinned
      exact hi.createRestore hk.ids hmem freshId new.status hclean hkind hid hrestore htarget
        (mem_operations_backup.2 hb) hbid hready
  | changed cell change writes =>
    rw [writes.operations]
    exact hi.change hk.ids (cell_eq_some cell).1 change.pinChange

/-- What the pins guarantee in a state. -/
structure PinsSafe (s : RecoveryState) : Prop where
  /-- A target pin holds a restorable backup, for a restore that is not ready and not cleaned. -/
  target : ∀ pin ∈ s.pins, pin.kind = .RESTORE_TARGET →
    (∃ b ∈ s.backups, b.id = pin.backupId ∧ b.status ∈ [OperationStatus.READY, .EXPIRED]) ∧
    ∃ r ∈ s.restores, pin.restoreId = some r.id ∧ r.status ≠ .READY ∧ r.targetCleanedAt = none
  /-- A restore that runs, or ended without its target cleaned, has one such pin. -/
  restore : ∀ r ∈ s.restores, r.status ∈ [OperationStatus.QUEUED, .RUNNING, .VERIFYING] ∨
      (r.status ∈ [OperationStatus.FAILED, .CANCELLED] ∧ r.targetCleanedAt = none) →
    ∃ pin, s.pins.filter (isTargetPin r.id) = [pin] ∧ pin.resourceId = r.targetResourceId ∧
      pin.backupId = r.backupId
  /-- A backup that is not deleted has one source pin. -/
  source : ∀ b ∈ s.backups, b.status ≠ .DELETED → (s.pins.filter (isSourcePin b.id)).length = 1
  /-- A deleted backup has no pin of any kind. -/
  deleted : ∀ b ∈ s.backups, b.status = .DELETED → ∀ pin ∈ s.pins, pin.backupId ≠ b.id

theorem PinInv.pinsSafe {s : RecoveryState} (hi : PinInv s.operations s.pins) : PinsSafe s where
  target pin hpin hkind := by
    obtain ⟨⟨r, hr, hid, hopen⟩, b, hb, hbid, hst⟩ := hi.target pin hpin hkind
    exact ⟨⟨b, mem_operations_backup.1 hb, hbid, by simpa [Restorable] using hst⟩, r,
      mem_operations_restore.1 hr, hid, hopen⟩
  restore r hr hst := by
    have hr' := mem_operations_restore.2 hr
    refine hi.pinned r hr' ?_
    rcases hst with hactive | ⟨hsettled, hclean⟩
    · obtain ⟨hnot, -, -, hready⟩ := not_settled_of_active hactive
      exact ⟨hready, by_contra fun h => hnot (hi.cleaned r hr' h)⟩
    · exact ⟨fun h => by simp [h] at hsettled, hclean⟩
  source b hb := hi.kept b (mem_operations_backup.2 hb)
  deleted b hb := hi.gone b (mem_operations_backup.2 hb)

/-- **Pins are safe in every run**: no artifact is deleted under a restore. -/
theorem run_pinsSafe {s₀ s : RecoveryState} {es : List Event} (empty : EmptyTables s₀)
    (run : Run (Step P enforceQuota) s₀ es s) : PinsSafe s := by
  have h0 : Keyed s₀ ∧ PinInv s₀.operations s₀.pins := by
    refine ⟨keyed_of_empty empty, ?_⟩
    constructor <;> simp [RecoveryState.operations, empty.backups, empty.restores, empty.pins]
  have hI := run.invariant (I := fun s => Keyed s ∧ PinInv s.operations s.pins)
    (fun s e s' h hstep => ⟨step_keyed s e s' h.1 hstep, (step_effect h.1 hstep).pinInv h.1 h.2⟩) h0
  exact hI.2.pinsSafe

theorem run_pinsSafe_restore : ∃ es s, Run (Step Sample.platform Sample.quota) Sample.state es s ∧
    s.pins.map RecoveryPin.kind = [.ARTIFACT_SOURCE, .RESTORE_TARGET] ∧ PinsSafe s := by
  obtain ⟨es, s, hrun, hcheck⟩ := exists_run Sample.platform Sample.quota Sample.state
    (Sample.publication ++ [Sample.createRestore 3])
    (fun _ s => s.pins.map RecoveryPin.kind = [.ARTIFACT_SOURCE, .RESTORE_TARGET])
    (by decide +kernel)
  exact ⟨es, s, hrun, by simpa using hcheck, run_pinsSafe Sample.state_empty hrun⟩

end RaibitServer.Recovery
