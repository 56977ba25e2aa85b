import RaibitServer.Recovery.Coherence

/-!
# Recovery.Artifact — what a published backup points at

Up to three attempts of a backup are journalled side by side.  `JournalInv` says that their numbers
differ, that no row is `VERIFIED` before publication, and that afterwards exactly one is, and it is
the row the backup's artifact fields were copied from.  `Binds` is what a row keeps for its life.
-/

namespace RaibitServer.Recovery

open Lib

variable {P : Platform} {enforceQuota : RecoveryQuotaPolicy}

def isVerified (row : RecoveryAttempt) : Bool := decide (row.state = .VERIFIED)

/-- The artifact fields of the backup are those of the journal row. -/
structure Published (b : RecoveryBackup) (row : RecoveryAttempt) : Prop where
  winningAttempt : b.winningAttempt = some row.attempt
  artifactKey : b.artifactKey = some row.objectKey
  artifactSize : b.artifactSize = row.candidateStoredBytes
  artifactChecksum : b.artifactChecksum = row.candidateChecksum
  encryptionKeyVersion : b.encryptionKeyVersion = some row.keyVersion
  size : row.candidateStoredBytes ≠ none
  checksum : row.candidateChecksum ≠ none

/-- The candidate fields of a row are written together. -/
def CandidateWhole (row : RecoveryAttempt) : Prop :=
  row.candidateStoredBytes = none → row.candidatePlaintextBytes = none ∧ row.candidateChecksum = none

structure JournalInv (c : Cell) : Prop where
  numbers : (c.journal.map RecoveryAttempt.attempt).Nodup
  candidates : ∀ row ∈ c.journal, CandidateWhole row
  unverified : Active c.operation.status → ∀ row ∈ c.journal, isVerified row = false
  published : ∀ b, c.operation = .backup b → b.status ∈ [OperationStatus.READY, .EXPIRED] →
    ∃ row, c.journal.filter isVerified = [row] ∧ Published b row

/-- `row'` is `row` at a later time. -/
structure Binds (row row' : RecoveryAttempt) : Prop where
  backupId : row'.backupId = row.backupId
  attempt : row'.attempt = row.attempt
  objectKey : row'.objectKey = row.objectKey
  keyVersion : row'.keyVersion = row.keyVersion
  firstClaimAt : row'.firstClaimAt = row.firstClaimAt
  storedBytes : row.candidateStoredBytes ≠ none → row'.candidateStoredBytes = row.candidateStoredBytes
  plaintextBytes : row.candidatePlaintextBytes ≠ none →
    row'.candidatePlaintextBytes = row.candidatePlaintextBytes
  checksum : row.candidateChecksum ≠ none → row'.candidateChecksum = row.candidateChecksum

theorem Binds.refl (row : RecoveryAttempt) : Binds row row :=
  ⟨rfl, rfl, rfl, rfl, rfl, fun _ => rfl, fun _ => rfl, fun _ => rfl⟩

theorem Binds.trans {r₁ r₂ r₃ : RecoveryAttempt} (h : Binds r₁ r₂) (h' : Binds r₂ r₃) : Binds r₁ r₃ where
  backupId := h'.backupId.trans h.backupId
  attempt := h'.attempt.trans h.attempt
  objectKey := h'.objectKey.trans h.objectKey
  keyVersion := h'.keyVersion.trans h.keyVersion
  firstClaimAt := h'.firstClaimAt.trans h.firstClaimAt
  storedBytes hne := (h'.storedBytes (h.storedBytes hne ▸ hne)).trans (h.storedBytes hne)
  plaintextBytes hne := (h'.plaintextBytes (h.plaintextBytes hne ▸ hne)).trans (h.plaintextBytes hne)
  checksum hne := (h'.checksum (h.checksum hne ▸ hne)).trans (h.checksum hne)

/-! ### One row -/

theorem binds_setAttemptState (state : AttemptState) (now : Millis) (row : RecoveryAttempt) :
    Binds row (setAttemptState state now row) :=
  ⟨rfl, rfl, rfl, rfl, rfl, fun _ => rfl, fun _ => rfl, fun _ => rfl⟩

theorem binds_recordUpload (uploadId : String) (now : Millis) (row : RecoveryAttempt) :
    Binds row (recordUpload uploadId now row) :=
  ⟨rfl, rfl, rfl, rfl, rfl, fun _ => rfl, fun _ => rfl, fun _ => rfl⟩

theorem binds_cleanAttempt (now : Millis) (row : RecoveryAttempt) : Binds row (cleanAttempt now row) :=
  ⟨rfl, rfl, rfl, rfl, rfl, fun _ => rfl, fun _ => rfl, fun _ => rfl⟩

variable {now : Millis} {row : RecoveryAttempt} {c c' : Cell} {n : Nat} {s : RecoveryState}

/-- A recorded candidate is only accepted again unchanged, so nothing of it changes. -/
theorem binds_recordCandidate {storedBytes plaintextBytes checksum : String} (whole : CandidateWhole row)
    (valid : ¬ candidateInvalid row storedBytes plaintextBytes checksum) :
    Binds row (recordCandidate storedBytes plaintextBytes checksum now row) := by
  simp only [candidateInvalid, not_or, not_and, not_not] at valid
  obtain ⟨-, -, -, -, -, -, hsame⟩ := valid
  by_cases hnone : row.candidateStoredBytes = none
  · obtain ⟨hp, hc⟩ := whole hnone
    exact ⟨rfl, rfl, rfl, rfl, rfl, fun h => absurd hnone h, fun h => absurd hp h,
      fun h => absurd hc h⟩
  · obtain ⟨hs, hp, hc⟩ := hsame hnone
    exact ⟨rfl, rfl, rfl, rfl, rfl, fun _ => hs.symm, fun _ => hp.symm, fun _ => hc.symm⟩

/-! ### The journal -/

/-- Every row of `l` lives on in `l'`. -/
def Survives (l l' : List RecoveryAttempt) : Prop := ∀ row ∈ l, ∃ row' ∈ l', Binds row row'

theorem Survives.refl (l : List RecoveryAttempt) : Survives l l := fun row h => ⟨row, h, .refl row⟩

theorem survives_updateFirst {l : List RecoveryAttempt} {p : RecoveryAttempt → Bool}
    {f : RecoveryAttempt → RecoveryAttempt} (found : l.find? p = some row) (hf : Binds row (f row)) :
    Survives l (Table.updateFirst p f l) := by
  obtain ⟨l₁, l₂, rfl, hu, -⟩ := Table.updateFirst_split (f := f) found
  rw [hu]
  intro r hr
  rcases List.mem_append.1 hr with hr | hr
  · exact ⟨r, List.mem_append_left _ hr, .refl r⟩
  · rcases List.mem_cons.1 hr with rfl | hr
    · exact ⟨f r, by simp, hf⟩
    · exact ⟨r, by simp [hr], .refl r⟩

/-- The step that verifies a row makes it the only verified one. -/
theorem filter_verified_updateFirst {l : List RecoveryAttempt} {p : RecoveryAttempt → Bool}
    (found : l.find? p = some row) (none : ∀ r ∈ l, isVerified r = false) :
    (Table.updateFirst p (setAttemptState .VERIFIED now) l).filter isVerified =
      [setAttemptState .VERIFIED now row] := by
  obtain ⟨l₁, l₂, rfl, hu, -⟩ := Table.updateFirst_split (f := setAttemptState .VERIFIED now) found
  have hnil : ∀ l' ⊆ l₁ ++ row :: l₂, l'.filter isVerified = [] := fun l' hl' =>
    List.filter_eq_nil_iff.2 fun r hr => by simp [none r (hl' hr)]
  rw [hu, List.filter_append, List.filter_cons_of_pos (by simp [isVerified, setAttemptState]),
    hnil l₁ (by simp), hnil l₂ (by intro r hr; simp [hr]), List.nil_append]

/-! ### One change -/

theorem not_published_of_active {status : OperationStatus} (h : Active status) :
    status ∉ [OperationStatus.READY, .EXPIRED] := by
  cases status <;> first | decide | (exfalso; revert h; decide)

/-- A change that leaves the journal alone. -/
theorem JournalInv.same (hi : JournalInv c) (hj : c'.journal = c.journal)
    (hact : Active c'.operation.status → Active c.operation.status)
    (hpub : ∀ b', c'.operation = .backup b' → b'.status ∈ [OperationStatus.READY, .EXPIRED] →
      ∃ b, c.operation = .backup b ∧ b.status ∈ [OperationStatus.READY, .EXPIRED] ∧
        ∀ row, Published b row → Published b' row) : JournalInv c' := by
  refine ⟨hj ▸ hi.numbers, hj ▸ hi.candidates, fun h => hj ▸ hi.unverified (hact h),
    fun b' hb' hs => ?_⟩
  obtain ⟨b, hb, hbs, hrow⟩ := hpub b' hb' hs
  obtain ⟨row, hfilter, hrow'⟩ := hi.published b hb hbs
  exact ⟨row, hj ▸ hfilter, hrow row hrow'⟩

/-- A change that leaves the journal alone and ends unpublished. -/
theorem JournalInv.unpublished (hi : JournalInv c) (hj : c'.journal = c.journal)
    (hact : Active c'.operation.status → Active c.operation.status)
    (hnot : c'.operation.status ∉ [OperationStatus.READY, .EXPIRED]) : JournalInv c' :=
  hi.same hj hact fun b' hb' hs => absurd (by rw [hb']; exact hs) hnot

/-- A change of a restore that leaves the journal alone. -/
theorem JournalInv.restore (hi : JournalInv c) (hj : c'.journal = c.journal)
    (hact : Active c'.operation.status → Active c.operation.status) {r : RecoveryRestore}
    (hr : c'.operation = .restore r) : JournalInv c' :=
  hi.same hj hact fun b' hb' _ => by simp [hr] at hb'

theorem JournalInv.updateRow (hi : JournalInv c) {f : RecoveryAttempt → RecoveryAttempt}
    (hact : Active c.operation.status) (found : c.journal.find? (isNumber n) = some row)
    (hatt : ∀ r, (f r).attempt = r.attempt) (hwhole : CandidateWhole (f row)) (hstate : isVerified (f row) = false) :
    JournalInv (c.updateRow n f) := by
  refine ⟨?_, fun r hr => ?_, fun _ r hr => ?_, fun b hb hs => ?_⟩
  · rw [Cell.updateRow, Table.map_updateFirst fun r _ => hatt r]
    exact hi.numbers
  · rcases Table.mem_updateFirst found hr with rfl | hr
    · exact hwhole
    · exact hi.candidates r hr
  · rcases Table.mem_updateFirst found hr with rfl | hr
    · exact hstate
    · exact hi.unverified hact r hr
  · have hb' : c.operation = .backup b := hb
    rw [hb'] at hact
    exact absurd hs (not_published_of_active hact)

theorem JournalInv.intent {b : RecoveryBackup} {j : RecoveryJob} {journal : List RecoveryAttempt}
    {objectKey keyVersion : String} {startedAt : Millis} (hi : JournalInv ⟨.backup b, j, journal⟩)
    (hact : Active b.status) (unused : ∀ row ∈ journal, row.attempt ≠ n) :
    JournalInv ⟨.backup b, j, journal ++ [newAttempt b.id n objectKey keyVersion startedAt now]⟩ := by
  refine ⟨?_, fun r hr => ?_, fun _ r hr => ?_, fun b' hb hs => ?_⟩
  · rw [List.map_append, List.nodup_append]
    refine ⟨hi.numbers, by simp, fun k hk k' hk' => ?_⟩
    obtain ⟨r, hr, rfl⟩ := List.mem_map.1 hk
    simp only [newAttempt, List.map_cons, List.map_nil, List.mem_singleton] at hk'
    exact hk' ▸ unused r hr
  · rcases List.mem_append.1 hr with hr | hr
    · exact hi.candidates r hr
    · obtain rfl := List.mem_singleton.1 hr
      exact fun _ => ⟨rfl, rfl⟩
  · rcases List.mem_append.1 hr with hr | hr
    · exact hi.unverified hact r hr
    · obtain rfl := List.mem_singleton.1 hr
      rfl
  · cases hb
    exact absurd hs (not_published_of_active hact)

theorem JournalInv.ready {b : RecoveryBackup} {j j' : RecoveryJob} {journal : List RecoveryAttempt}
    {artifact : RecoveryArtifact} {expiresAt : Millis} (hi : JournalInv ⟨.backup b, j, journal⟩)
    (hact : Active b.status) (found : journal.find? (isNumber n) = some row)
    (matching : ¬ artifactUnverified row artifact) :
    JournalInv ⟨.backup (publishBackup b row artifact n expiresAt now), j',
      Table.updateFirst (isNumber n) (setAttemptState .VERIFIED now) journal⟩ := by
  have hn : row.attempt = n := by simpa [isNumber] using List.find?_some found
  simp only [artifactUnverified, not_or, not_not] at matching
  obtain ⟨-, hcheck, hsize, hkey⟩ := matching
  refine ⟨?_, fun r hr => ?_, fun h => ?_, fun b' hb _ => ?_⟩
  · have hmap := Table.map_updateFirst (p := isNumber n) (f := setAttemptState .VERIFIED now)
      (g := RecoveryAttempt.attempt) (fun _ _ => rfl) journal
    exact hmap ▸ hi.numbers
  · rcases Table.mem_updateFirst found hr with rfl | hr
    · exact hi.candidates row (List.mem_of_find?_eq_some found)
    · exact hi.candidates r hr
  · simp [Active, publishBackup] at h
  · cases hb
    refine ⟨_, filter_verified_updateFirst found (hi.unverified hact), ?_⟩
    exact ⟨by simp [publishBackup, setAttemptState, hn], rfl, hsize.symm, hcheck.symm,
      by simp [publishBackup, setAttemptState, hkey], by simp [setAttemptState, hsize],
      by simp [setAttemptState, hcheck]⟩

theorem Mutation.journalInv {n now m c pins c' pins'} (h : Mutation n now m c pins c' pins')
    {worker : String} (hf : Fenced c worker n now) (hi : JournalInv c) : JournalInv c' := by
  have hact := Active.of_fence hf.status
  cases h with
  | heartbeat => exact hi.unpublished rfl id (not_published_of_active hact)
  | retry _ => exact hi.unpublished rfl id (not_published_of_active hact)
  | fail => exact hi.unpublished rfl (fun _ => hact) (by simp [failOperation])
  | intentAgain => exact hi
  | intent _ unused => exact hi.intent hact unused
  | @upload _ _ row _ found _ =>
    have hwhole := hi.candidates row (List.mem_of_find?_eq_some found)
    exact hi.updateRow hact found (fun _ => rfl) hwhole rfl
  | candidate found _ =>
    exact hi.updateRow hact found (fun _ => rfl) (by simp [CandidateWhole, recordCandidate]) rfl
  | @complete _ _ row found _ =>
    have hwhole := hi.candidates row (List.mem_of_find?_eq_some found)
    exact hi.updateRow hact found (fun _ => rfl) hwhole rfl
  | verify _ _ => exact hi.unpublished rfl (fun _ => hact) (by simp [verifyOperation])
  | readyBackup _ found matching => exact hi.ready hact found matching
  | readyRestore _ => exact hi.restore rfl (fun _ => hact) rfl

theorem Change.journalInv {l c pins c' pins'} (h : Change l c pins c' pins') (hi : JournalInv c) :
    JournalInv c' := by
  cases h with
  | claimFailed active => exact hi.unpublished rfl (fun _ => active) (by simp [failOperation])
  | @claimed c _ _ _ _ active _ _ _ =>
    refine hi.unpublished rfl (fun _ => active) (not_published_of_active ?_)
    by_cases hq : c.operation.status = .QUEUED
    · simp [startOperation, hq, Active]
    · simpa [startOperation, hq] using active
  | mutated fenced apply => exact apply.journalInv fenced hi
  | cancelled active => exact hi.restore rfl (fun _ => active) rfl
  | expired ready =>
    refine hi.same rfl (fun h => by simp [Active] at h) fun b' hb' _ => ⟨_, rfl, by simp [ready], ?_⟩
    cases hb'
    exact fun row h => ⟨h.1, h.2, h.3, h.4, h.5, h.6, h.7⟩
  | deletionRequested _ _ => exact hi.unpublished rfl (fun h => by simp [Active] at h) (by simp)
  | backupCleanupClaimed _ _ => exact hi.unpublished rfl (fun h => by simp [Active] at h) (by simp)
  | restoreCleanupClaimed _ => exact hi.restore rfl id rfl
  | @backupCleaned b _ journal _ now _ _ =>
    refine ⟨?_, fun r hr => ?_, fun h => by simp [Active, deletedBackup] at h, fun b' hb hs => ?_⟩
    · rw [List.map_map]
      exact hi.numbers
    · obtain ⟨r', hr', rfl⟩ := List.mem_map.1 hr
      exact hi.candidates r' hr'
    · cases hb
      simp [deletedBackup] at hs
  | restoreCleaned _ => exact hi.restore rfl id rfl

/-- No change drops a row or rebinds it. -/
theorem Change.survives {l c pins c' pins'} (h : Change l c pins c' pins') (hi : JournalInv c) :
    Survives c.journal c'.journal := by
  cases h with
  | mutated _ apply =>
    cases apply with
    | intent _ _ => exact fun row hrow => ⟨row, List.mem_append_left _ hrow, .refl row⟩
    | upload found _ => exact survives_updateFirst found (binds_recordUpload _ _ _)
    | candidate found valid =>
      exact survives_updateFirst found
        (binds_recordCandidate (hi.candidates _ (List.mem_of_find?_eq_some found)) valid)
    | complete found _ => exact survives_updateFirst found (binds_setAttemptState _ _ _)
    | readyBackup _ found _ => exact survives_updateFirst found (binds_setAttemptState _ _ _)
    | _ => exact .refl _
  | @backupCleaned b _ journal _ now _ _ =>
    exact fun row hrow => ⟨_, List.mem_map_of_mem hrow, binds_cleanAttempt now row⟩
  | _ => exact .refl _

/-! ### Runs -/

theorem Cell.Initial.journalInv (h : c.Initial) : JournalInv c where
  numbers := by simp [h.journal]
  candidates := by simp [h.journal]
  unverified := by simp [h.journal]
  published b hb hs := by
    have hq := h.status
    rw [hb, Operation.status_backup] at hq
    simp [hq] at hs

theorem cellRun_journalInv {ls : List (Option Label)} (h : Run CellStep c ls c') (hi : JournalInv c) : JournalInv c' :=
  h.invariant (fun _ _ _ hi ⟨_, _, change⟩ => change.journalInv hi) hi

theorem cellRun_survives {ls : List (Option Label)} (h : Run CellStep c ls c') (hi : JournalInv c) :
    Survives c.journal c'.journal :=
  h.relates (R := fun c c' : Cell => Survives c.journal c'.journal)
    (fun _ _ _ hi ⟨_, _, change⟩ => change.journalInv hi) (fun c _ => .refl c.journal)
    (fun _ _ _ h₁ h₂ row hrow => by
      obtain ⟨row', hrow', hb⟩ := h₁ row hrow
      obtain ⟨row'', hrow'', hb'⟩ := h₂ row' hrow'
      exact ⟨row'', hrow'', hb.trans hb'⟩)
    (fun _ _ _ hi ⟨_, _, change⟩ => change.survives hi) hi

/-- Every cell of a reachable state satisfies the journal invariant. -/
theorem run_journalInv {s₀ : RecoveryState} {es : List Event} (empty : EmptyTables s₀)
    (run : Run (Step P enforceQuota) s₀ es s) {x : String} (hc : s.cell x = some c) : JournalInv c := by
  obtain ⟨c₀, ls, hinit, hcell, -⟩ := run_cell empty run hc
  exact cellRun_journalInv hcell hinit.journalInv

/-- A journalled attempt belongs to a cell. -/
theorem Keyed.cell_of_attempt (hk : Keyed s) (hrow : row ∈ s.attempts) :
    ∃ c, s.cell row.backupId = some c ∧ row ∈ c.journal := by
  obtain ⟨o, ho, hid⟩ := hk.journals row hrow
  obtain ⟨c, hc, -⟩ := hk.exists_cell ho
  rw [hid] at hc
  obtain ⟨-, -, -, -, hj, -, -⟩ := cell_eq_some hc
  exact ⟨c, hc, by rw [hj]; exact mem_attempts.1 hrow⟩

theorem filter_journal (x : String) (p : RecoveryAttempt → Bool) :
    (s.attempts.filter fun row => row.backupId = x ∧ p row) = (s.journal x).filter p := by
  rw [RecoveryState.journal, List.filter_filter]
  refine List.filter_congr fun row _ => ?_
  simp [Bool.and_comm]

/-- In a reachable state, an attempt is the only row with its backup and number. -/
theorem run_filter_attempt {s₀ : RecoveryState} {es : List Event} (empty : EmptyTables s₀)
    (run : Run (Step P enforceQuota) s₀ es s) (hrow : row ∈ s.attempts) :
    (s.attempts.filter fun r => r.backupId = row.backupId ∧ r.attempt = row.attempt) = [row] := by
  obtain ⟨c, hc, hmem⟩ := (run_keyed empty run).cell_of_attempt hrow
  have hi := run_journalInv empty run hc
  obtain ⟨-, -, -, -, hj, -, -⟩ := cell_eq_some hc
  have hfilter := filter_journal (s := s) row.backupId fun r => decide (r.attempt = row.attempt)
  simp only [decide_eq_true_eq] at hfilter
  rw [hfilter, ← hj]
  exact Table.filter_key_eq RecoveryAttempt.attempt hmem hi.numbers

/-- What holds of the attempts of a reachable state and of every run from it. -/
structure ArtifactsBound (P : Platform) (enforceQuota : RecoveryQuotaPolicy) (s : RecoveryState) :
    Prop where
  /-- At most one row per backup and attempt number. -/
  numbers : ∀ x n, (s.attempts.filter fun row => row.backupId = x ∧ row.attempt = n).length ≤ 1
  /-- A row stays, with its key, versions, first claim and recorded candidate. -/
  stable : ∀ es s', Run (Step P enforceQuota) s es s' → ∀ row ∈ s.attempts, ∃ row',
    (s'.attempts.filter fun r => r.backupId = row.backupId ∧ r.attempt = row.attempt) = [row'] ∧
      Binds row row'
  /-- A published backup points at its one verified attempt. -/
  published : ∀ b ∈ s.backups, b.status ∈ [OperationStatus.READY, .EXPIRED] → ∃ row,
    (s.attempts.filter fun r => r.backupId = b.id ∧ r.state = .VERIFIED) = [row] ∧ Published b row

/-- **Artifacts are bound to their attempt in every run.** -/
theorem run_artifactsBound {s₀ s : RecoveryState} {es : List Event} (empty : EmptyTables s₀)
    (run : Run (Step P enforceQuota) s₀ es s) : ArtifactsBound P enforceQuota s := by
  have hk := run_keyed empty run
  refine ⟨fun x n => ?_, fun es' s' run' row hrow => ?_, fun b hb hs => ?_⟩
  · rcases hl : s.attempts.filter (fun row => row.backupId = x ∧ row.attempt = n) with _ | ⟨row, l⟩
    · rw [hl]
      exact Nat.zero_le 1
    · have hmem : row ∈ s.attempts.filter fun row => row.backupId = x ∧ row.attempt = n :=
        hl ▸ List.mem_cons_self
      simp only [List.mem_filter, decide_eq_true_eq] at hmem
      obtain ⟨hrow, rfl, rfl⟩ := hmem
      rw [run_filter_attempt empty run hrow]
      exact Nat.le_refl 1
  · obtain ⟨c, hc, hmem⟩ := hk.cell_of_attempt hrow
    obtain ⟨c', ls, hc', hcell, -⟩ := run_cell_from hk run' hc
    obtain ⟨row', hrow', hb⟩ := cellRun_survives hcell (run_journalInv empty run hc) row hmem
    obtain ⟨-, -, -, -, hj, -, -⟩ := cell_eq_some hc'
    have hmem' : row' ∈ s'.attempts := (mem_journal.1 (hj ▸ hrow')).1
    have hfilter := run_filter_attempt empty (run.append run') hmem'
    rw [hb.backupId, hb.attempt] at hfilter
    exact ⟨row', hfilter, hb⟩
  · obtain ⟨c, hc, hop⟩ := hk.exists_cell (mem_operations_backup.2 hb)
    obtain ⟨row, hfilter, hpub⟩ := (run_journalInv empty run hc).published b hop hs
    obtain ⟨-, -, -, -, hj, -, -⟩ := cell_eq_some hc
    rw [hj] at hfilter
    refine ⟨row, ?_, hpub⟩
    have := filter_journal (s := s) b.id isVerified
    simpa [isVerified, ← hfilter] using this

theorem run_artifactsBound_publication : ∃ es s,
    Run (Step Sample.platform Sample.quota) Sample.state es s ∧
    s.backups.map (fun b => b.artifactChecksum) = [some Sample.digest] ∧
    ArtifactsBound Sample.platform Sample.quota s := by
  obtain ⟨es, s, hrun, hcheck⟩ := exists_run Sample.platform Sample.quota Sample.state
    Sample.publication
    (fun _ s => s.backups.map (fun b => b.artifactChecksum) = [some Sample.digest])
    (by decide +kernel)
  exact ⟨es, s, hrun, by simpa using hcheck, run_artifactsBound Sample.state_empty hrun⟩

end RaibitServer.Recovery
