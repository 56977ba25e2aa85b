import RaibitServer.Recovery.Coherence

/-!
# Recovery.Publication — verification and publication of a backup

`verify` moves a backup to `VERIFYING` once the upload of the fenced attempt is complete, and `ready`
publishes the artifact of the fenced attempt.  The two are tied by the status alone, and the status
survives a retry and a lost lease: after them the next attempt stands in `VERIFYING` already and is
published without a `verify` of its own (`ready_without_verify`).  `ready_verified_iff` says exactly
when the published attempt was verified.
-/

namespace RaibitServer.Recovery

open Lib

variable {P : Platform} {enforceQuota : RecoveryQuotaPolicy}

def Label.verify? : Label → Option Nat
  | .mutated _ n .verify => some n
  | _ => none

/-- The attempt numbers under which a history verifies. -/
def verifies (h : List Label) : List Nat := h.filterMap Label.verify?

@[simp] theorem verifies_append (h h' : List Label) : verifies (h ++ h') = verifies h ++ verifies h' :=
  List.filterMap_append

variable {h : List Label} {n : Nat} {c : Cell}

theorem mem_verifies : n ∈ verifies h ↔ ∃ worker, Label.mutated worker n .verify ∈ h := by
  unfold verifies
  rw [List.mem_filterMap]
  constructor
  · rintro ⟨l, hl, heq⟩
    unfold Label.verify? at heq
    split at heq
    · obtain rfl := Option.some.inj heq
      exact ⟨_, hl⟩
    · cases heq
  · rintro ⟨worker, hl⟩
    exact ⟨_, hl, rfl⟩

/-- The history completes the upload of attempt `n` and, after that, verifies it. -/
def VerifiedAfterComplete (h : List Label) (n : Nat) : Prop :=
  ∃ h₁ worker₁ h₂ worker₂ h₃,
    h = h₁ ++ .mutated worker₁ n .complete :: (h₂ ++ .mutated worker₂ n .verify :: h₃)

/-- What the status and the journal of a cell say about its history. -/
structure VerifyInv (h : List Label) (c : Cell) : Prop where
  unverified : c.operation.status = .QUEUED ∨ c.operation.status = .RUNNING → verifies h = []
  once : c.operation.status = .VERIFYING → ∃ n, verifies h = [n]
  completed : ∀ row ∈ c.journal, row.state = .COMPLETE →
    ∃ worker, Label.mutated worker row.attempt .complete ∈ h
  ordered : c.operation.kind = .backup → ∀ n ∈ verifies h, VerifiedAfterComplete h n

theorem VerifiedAfterComplete.append (hv : VerifiedAfterComplete h n) (h' : List Label) :
    VerifiedAfterComplete (h ++ h') n := by
  obtain ⟨h₁, w₁, h₂, w₂, h₃, rfl⟩ := hv
  exact ⟨h₁, w₁, h₂, w₂, h₃ ++ h', by simp⟩

/-- A label that verifies nothing, on a change that keeps status and kind and completes no row. -/
theorem VerifyInv.keep {c' : Cell} {l : Option Label} (hi : VerifyInv h c) (hl : verifies l.toList = [])
    (hkind : c'.operation.kind = c.operation.kind) (hstatus : Active c'.operation.status →
      c'.operation.status = c.operation.status ∨
        (c.operation.status = .QUEUED ∧ c'.operation.status = .RUNNING))
    (hrows : ∀ row ∈ c'.journal, row.state = .COMPLETE →
      row ∈ c.journal ∨ ∃ worker, l = some (.mutated worker row.attempt .complete)) : VerifyInv (h ++ l.toList) c' := by
  refine ⟨fun hs => ?_, fun hs => ?_, fun row hrow hst => ?_, fun hb n hn => ?_⟩
  · rw [verifies_append, hl, List.append_nil]
    rcases hstatus (by rcases hs with h | h <;> simp [h, Active]) with heq | ⟨hq, -⟩
    · exact hi.unverified (heq ▸ hs)
    · exact hi.unverified (.inl hq)
  · rw [verifies_append, hl, List.append_nil]
    rcases hstatus (by simp [hs, Active]) with heq | ⟨-, hrun⟩
    · exact hi.once (heq ▸ hs)
    · simp [hs] at hrun
  · rcases hrows row hrow hst with hold | ⟨worker, rfl⟩
    · obtain ⟨worker, hmem⟩ := hi.completed row hold hst
      exact ⟨worker, List.mem_append_left _ hmem⟩
    · exact ⟨worker, by simp⟩
  · rw [verifies_append, hl, List.append_nil] at hn
    exact (hi.ordered (hkind ▸ hb) n hn).append _

/-- The verification itself: the first of the operation, of an attempt that completed. -/
theorem VerifyInv.verify {h : List Label} {c : Cell} {worker : String} {n : Nat} {now : Millis}
    (hi : VerifyInv h c) (running : c.operation.status = .RUNNING)
    (complete : c.operation.kind = .backup →
      ∃ row, c.journal.find? (isNumber n) = some row ∧ row.state = .COMPLETE) :
    VerifyInv (h ++ [.mutated worker n .verify])
      { c with operation := verifyOperation c.operation now } := by
  have hnone := hi.unverified (.inr running)
  have hone : verifies (h ++ [.mutated worker n .verify]) = [n] := by
    rw [verifies_append, hnone]
    rfl
  refine ⟨fun hs => by simp [verifyOperation] at hs, fun _ => ⟨n, hone⟩, fun row hrow hst => ?_,
    fun hb n' hn => ?_⟩
  · obtain ⟨worker', hmem⟩ := hi.completed row hrow hst
    exact ⟨worker', List.mem_append_left _ hmem⟩
  · obtain rfl : n' = n := by simpa [hone] using hn
    obtain ⟨row, hfound, hst⟩ := complete (by simpa [verifyOperation] using hb)
    have hnum : row.attempt = n' := by simpa [isNumber] using List.find?_some hfound
    obtain ⟨worker', hmem⟩ := hi.completed row (List.mem_of_find?_eq_some hfound) hst
    obtain ⟨h₁, h₂, rfl⟩ := List.append_of_mem hmem
    exact ⟨h₁, worker', h₂, worker, [], by simp [hnum]⟩

/-- A rewritten row that is not complete adds none. -/
theorem completed_updateRow {f : RecoveryAttempt → RecoveryAttempt} {row r : RecoveryAttempt}
    (found : c.journal.find? (isNumber n) = some row) (hf : (f row).state ≠ .COMPLETE)
    (hr : r ∈ (c.updateRow n f).journal) (hst : r.state = .COMPLETE) : r ∈ c.journal := by
  rcases Table.mem_updateFirst found hr with rfl | hr
  · exact absurd hst hf
  · exact hr

theorem Mutation.verifyInv {n now m c pins c' pins' worker} (h : Mutation n now m c pins c' pins')
    {hist : List Label} (hi : VerifyInv hist c) :
    VerifyInv (hist ++ [.mutated worker n m]) c' := by
  cases h with
  | verify running complete => exact hi.verify running complete
  | complete found _ =>
    refine hi.keep (l := some _) rfl rfl (fun _ => .inl rfl) fun r hr _ => ?_
    rcases Table.mem_updateFirst found hr with rfl | hr
    · have hn := List.find?_some found
      simp only [isNumber, decide_eq_true_eq] at hn
      exact .inr ⟨worker, by simp [setAttemptState, hn]⟩
    · exact .inl hr
  | fail =>
    exact hi.keep (l := some _) rfl (by simp [failOperation])
      (fun h => by simp [failOperation, Active] at h) fun r hr _ => .inl hr
  | intent _ _ =>
    refine hi.keep (l := some _) rfl rfl (fun _ => .inl rfl) fun r hr hst => ?_
    rcases List.mem_append.1 hr with hr | hr
    · exact .inl hr
    · obtain rfl := List.mem_singleton.1 hr
      simp [newAttempt] at hst
  | upload found _ =>
    exact hi.keep (l := some _) rfl rfl (fun _ => .inl rfl) fun r hr hst =>
      .inl (completed_updateRow found (by simp [recordUpload]) hr hst)
  | candidate found _ =>
    exact hi.keep (l := some _) rfl rfl (fun _ => .inl rfl) fun r hr hst =>
      .inl (completed_updateRow found (by simp [recordCandidate]) hr hst)
  | @readyBackup b j _ _ _ _ _ _ found _ =>
    exact hi.keep (l := some _) rfl rfl (fun h => by simp [publishBackup, Active] at h)
      fun r hr hst => .inl (completed_updateRow (c := ⟨.backup b, j, _⟩) found
        (by simp [setAttemptState]) hr hst)
  | readyRestore _ =>
    exact hi.keep (l := some _) rfl rfl (fun h => by simp [publishRestore, Active] at h)
      fun r hr _ => .inl hr
  | _ => exact hi.keep (l := some _) rfl rfl (fun _ => .inl rfl) fun r hr _ => .inl hr

theorem cellStep_verifyInv {c' : Cell} {l : Option Label} (hi : VerifyInv h c) (hstep : CellStep c l c') :
    VerifyInv (h ++ l.toList) c' := by
  obtain ⟨pins, pins', change⟩ := hstep
  cases change with
  | mutated _ apply => exact apply.verifyInv hi
  | claimFailed _ =>
    exact hi.keep rfl (by simp [failOperation]) (fun h => by simp [failOperation, Active] at h)
      fun r hr _ => .inl hr
  | @claimed c _ _ _ _ _ _ _ _ =>
    refine hi.keep rfl (by simp [startOperation]) (fun _ => ?_) fun r hr _ => .inl hr
    by_cases hq : c.operation.status = .QUEUED
    · exact .inr ⟨hq, by simp [startOperation, hq]⟩
    · exact .inl (by simp [startOperation, hq])
  | backupCleaned _ _ =>
    refine hi.keep rfl rfl (fun h => by simp [deletedBackup, Active] at h) fun r hr hst => ?_
    obtain ⟨r', -, rfl⟩ := List.mem_map.1 hr
    simp [cleanAttempt] at hst
  | restoreCleanupClaimed _ => exact hi.keep rfl rfl (fun _ => .inl rfl) fun r hr _ => .inl hr
  | restoreCleaned _ => exact hi.keep rfl rfl (fun _ => .inl rfl) fun r hr _ => .inl hr
  | _ => exact hi.keep rfl rfl (fun h => by simp [Active] at h) fun r hr _ => .inl hr

theorem cellRun_verifyInv {c₀ : Cell} {ls : List (Option Label)} (h : Run CellStep c₀ ls c) (h0 : c₀.Initial) :
    VerifyInv ls.reduceOption c := by
  induction h with
  | nil => exact ⟨fun _ => rfl, by simp [h0.status], by simp [h0.journal], fun _ n hn => by simp [verifies] at hn⟩
  | @snoc ls c c' l _ last ih =>
    have := cellStep_verifyInv ih last
    rw [List.reduceOption_append]
    cases l <;> simpa using this

/-! ### Runs -/

theorem Mutation.ready_verifying {n now a c pins c' pins'}
    (h : Mutation n now (.ready a) c pins c' pins') : c.operation.status = .VERIFYING := by
  cases h with
  | readyBackup verifying _ _ => exact verifying
  | readyRestore verifying => exact verifying

/-- A `ready` on a backup passes only from `VERIFYING`. -/
theorem ready_verifying {s s' : RecoveryState} (hk : Keyed s) {f : RecoveryFence}
    {a : Option RecoveryArtifact} {r : RecoveryResult} (hkind : f.kind = .backup)
    (h : mutateRecovery P s f (.ready a) = .ok (s', r)) :
    ∃ c, s.cell f.operationId = some c ∧ c.operation.kind = .backup ∧ c.operation.status = .VERIFYING := by
  simp only [mutateRecovery, bind_ok] at h
  obtain ⟨⟨o, j, now⟩, hfence, m, hm, -⟩ := h
  obtain ⟨hmem, hid, hokind, hj, -, hfenced⟩ := fenceRecovery_ok hfence
  have hcell := hk.cell_eq hmem hj
  rw [hid] at hcell
  refine ⟨_, hcell, hokind.trans hkind, ?_⟩
  exact (applyMutation_ok hokind (hfenced []).status hm).1.ready_verifying

/-- **When a published attempt was verified.**  A `ready` that succeeds under attempt `n` comes after
the completion and, later, the verification of attempt `n` exactly if the backup was not verified
under another attempt before. -/
theorem ready_verified_iff {s₀ s : RecoveryState} {es es' : List Event} (empty : EmptyTables s₀)
    {f : RecoveryFence} {a : Option RecoveryArtifact} {out : Output} (hkind : f.kind = .backup)
    (run : Run (Step P enforceQuota) s₀ (es ++ .returned (.mutate f (.ready a)) out :: es') s) :
    VerifiedAfterComplete (history f.operationId es) f.attempt ↔
      ∀ n ∈ verifies (history f.operationId es), n = f.attempt := by
  obtain ⟨t, t', run₁, hstep, -⟩ := run.at_label
  cases hstep with
  | returned _ hexec =>
    obtain ⟨r, hr, -⟩ := answer_ok hexec
    have hk := run_keyed empty run₁
    obtain ⟨c, hc, hb, hverifying⟩ := ready_verifying hk hkind hr
    obtain ⟨c₀, ls, hinit, hcell, hls⟩ := run_cell empty run₁ hc
    have hi := cellRun_verifyInv hcell hinit
    rw [hls] at hi
    -- the backup was verified exactly once
    obtain ⟨n₀, hone⟩ := hi.once hverifying
    constructor
    · rintro ⟨h₁, w₁, h₂, w₂, h₃, heq⟩ n hn
      have hmem : f.attempt ∈ verifies (history f.operationId es) :=
        mem_verifies.2 ⟨w₂, by rw [heq]; simp⟩
      rw [hone, List.mem_singleton] at hn hmem
      rw [hn, hmem]
    · intro hall
      have hmem : n₀ ∈ verifies (history f.operationId es) := by simp [hone]
      rw [← hall n₀ hmem]
      exact hi.ordered hb n₀ hmem

/-- The attempt, the earlier history and the attempts verified in it, if a trace ends in a `ready`. -/
def lastReady (es : List Event) : Option (RecoveryFence × List Event) :=
  match es.reverse with
  | .returned (.mutate f (.ready _)) _ :: rest => some (f, rest.reverse)
  | _ => none

theorem lastReady_eq {es pre : List Event} {f : RecoveryFence} (h : lastReady es = some (f, pre)) :
    ∃ a out, es = pre ++ [.returned (.mutate f (.ready a)) out] := by
  unfold lastReady at h
  split at h
  · rename_i f' a out rest heq
    obtain ⟨rfl, rfl⟩ := Prod.mk.inj (Option.some.inj h)
    exact ⟨a, out, by simpa using congrArg List.reverse heq⟩
  · cases h

theorem ready_verified_iff_publication : ∃ es f a out s,
    Run (Step Sample.platform Sample.quota) Sample.state
      (es ++ [.returned (.mutate f (.ready a)) out]) s ∧
    VerifiedAfterComplete (history f.operationId es) f.attempt := by
  obtain ⟨es, s, hrun, hcheck⟩ := exists_run Sample.platform Sample.quota Sample.state
    Sample.publication
    (fun es _ => (lastReady es).any fun r => r.1.kind = .backup ∧
      ∀ n ∈ verifies (history r.1.operationId r.2), n = r.1.attempt) (by decide +kernel)
  obtain ⟨⟨f, pre⟩, hlast, hcond⟩ := (Option.any_eq_true _ _).1 hcheck
  obtain ⟨a, out, rfl⟩ := lastReady_eq hlast
  simp only [decide_eq_true_eq] at hcond
  exact ⟨pre, f, a, out, s, hrun, (ready_verified_iff Sample.state_empty hcond.1 hrun).2 hcond.2⟩

/-- Attempt 1 completes and verifies its upload and is retried; attempt 2 completes another upload
and publishes it without ever verifying it. -/
theorem ready_without_verify : EmptyTables Sample.state ∧ ∃ es f a out s,
    Run (Step Sample.platform Sample.quota) Sample.state
      (es ++ [.returned (.mutate f (.ready a)) out]) s ∧
    f.kind = .backup ∧ f.attempt = 2 ∧ verifies (history f.operationId es) = [1] ∧
    ¬ VerifiedAfterComplete (history f.operationId es) f.attempt := by
  refine ⟨Sample.state_empty, ?_⟩
  obtain ⟨es, s, hrun, hcheck⟩ := exists_run Sample.platform Sample.quota Sample.state
    ([Sample.createBackup, Sample.claim "w1" 0] ++ Sample.journalSteps "w1" 1 1 ++
      [Sample.mutate "w1" 1 2 .verify, Sample.mutate "w1" 1 3 .retry, Sample.claim "w2" 4] ++
      Sample.journalSteps "w2" 2 5 ++ [Sample.mutate "w2" 2 6 (.ready (some Sample.artifact))])
    (fun es _ => (lastReady es).any fun r => r.1.kind = .backup ∧ r.1.attempt = 2 ∧
      verifies (history r.1.operationId r.2) = [1]) (by decide +kernel)
  obtain ⟨⟨f, pre⟩, hlast, hcond⟩ := (Option.any_eq_true _ _).1 hcheck
  obtain ⟨a, out, rfl⟩ := lastReady_eq hlast
  simp only [decide_eq_true_eq] at hcond
  obtain ⟨hkind, hatt, hver⟩ := hcond
  refine ⟨pre, f, a, out, s, hrun, hkind, hatt, hver, ?_⟩
  rintro ⟨h₁, w₁, h₂, w₂, h₃, heq⟩
  have hmem : f.attempt ∈ verifies (history f.operationId pre) :=
    mem_verifies.2 ⟨w₂, by rw [heq]; simp⟩
  simp [hver, hatt] at hmem

end RaibitServer.Recovery
