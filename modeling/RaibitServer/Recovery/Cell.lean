import RaibitServer.Recovery.Repository

/-!
# Recovery.Cell — the life of one recovery operation

A `Cell` is everything the recovery tables hold for one operation: its row, its workflow job and
the journal of its attempts.  `Change` lists what can happen to a cell, each case with the guard
under which the code does it; `pins` is the pin table before and after.  The refinement to the
repository is in `Recovery.Refinement`: every step of it is one of these changes on one cell, and
leaves every other cell alone.
-/

namespace RaibitServer.Recovery

open Lib

structure Cell where
  operation : Operation
  job : RecoveryJob
  journal : List RecoveryAttempt

/-- The journal row of attempt `n` is rewritten. -/
def Cell.updateRow (c : Cell) (n : Nat) (f : RecoveryAttempt → RecoveryAttempt) : Cell :=
  { c with journal := Table.updateFirst (isNumber n) f c.journal }

/-- The operation waits for a worker or is in the hands of one. -/
def Active (status : OperationStatus) : Prop := status ∈ [OperationStatus.QUEUED, .RUNNING, .VERIFYING]

instance (status : OperationStatus) : Decidable (Active status) :=
  inferInstanceAs (Decidable (_ ∈ _))

/-- What a worker does, with its name and its attempt number. -/
inductive Label
  | claimed (worker : String) (attempt : Nat)
  | mutated (worker : String) (attempt : Nat) (mutation : RecoveryMutation)

/-- The publication fence: `worker` holds the live lease of attempt `n`. -/
structure Fenced (c : Cell) (worker : String) (n : Nat) (now : Millis) : Prop where
  running : c.job.status = .running
  lockedBy : c.job.lockedBy = some worker
  attempts : c.job.attempts = n
  lease : leaseLost c.job.lockedAt now = false
  deadline : deadlineLost c.operation.base.deadlineAt now = false
  status : c.operation.status = .RUNNING ∨ c.operation.status = .VERIFYING

/-- What a fenced mutation of attempt `n` does to its cell. -/
inductive Mutation (n : Nat) (now : Millis) :
    RecoveryMutation → Cell → List RecoveryPin → Cell → List RecoveryPin → Prop
  | heartbeat {c pins} : Mutation n now .heartbeat c pins
      { c with job := { c.job with lockedAt := some now, updatedAt := now } } pins
  | retry {c pins} (left : c.job.attempts < 3) : Mutation n now .retry c pins
      { c with job := releaseJob c.job .queued now } pins
  | fail {c pins code} : Mutation n now (.fail code) c pins
      { c with operation := failOperation c.operation code now, job := releaseJob c.job .failed now }
      pins
  | intentAgain {c pins keyVersion} : Mutation n now (.intent keyVersion) c pins c pins
  | intent {b j journal pins keyVersion objectKey startedAt} (started : b.startedAt = some startedAt)
      (unused : ∀ row ∈ journal, row.attempt ≠ n) :
      Mutation n now (.intent keyVersion) ⟨.backup b, j, journal⟩ pins
        ⟨.backup b, j, journal ++ [newAttempt b.id n objectKey keyVersion startedAt now]⟩ pins
  | upload {c pins row uploadId} (found : c.journal.find? (isNumber n) = some row)
      (valid : ¬ uploadInvalid row uploadId) :
      Mutation n now (.upload uploadId) c pins
        (c.updateRow n (recordUpload uploadId now)) pins
  | candidate {c pins row storedBytes plaintextBytes checksum}
      (found : c.journal.find? (isNumber n) = some row)
      (valid : ¬ candidateInvalid row storedBytes plaintextBytes checksum) :
      Mutation n now (.candidate storedBytes plaintextBytes checksum) c pins
        (c.updateRow n (recordCandidate storedBytes plaintextBytes checksum now)) pins
  | complete {c pins row} (found : c.journal.find? (isNumber n) = some row)
      (prepared : row.state = .PREPARED) :
      Mutation n now .complete c pins (c.updateRow n (setAttemptState .COMPLETE now)) pins
  | verify {c pins} (running : c.operation.status = .RUNNING)
      (complete : c.operation.kind = .backup →
        ∃ row, c.journal.find? (isNumber n) = some row ∧ row.state = .COMPLETE) :
      Mutation n now .verify c pins { c with operation := verifyOperation c.operation now } pins
  | readyBackup {b j journal pins row artifact expiresAt} (verifying : b.status = .VERIFYING)
      (found : journal.find? (isNumber n) = some row) (matching : ¬ artifactUnverified row artifact) :
      Mutation n now (.ready (some artifact)) ⟨.backup b, j, journal⟩ pins
        ⟨.backup (publishBackup b row artifact n expiresAt now), releaseJob j .succeeded now,
          Table.updateFirst (isNumber n) (setAttemptState .VERIFIED now) journal⟩ pins
  | readyRestore {r j journal pins artifact} (verifying : r.status = .VERIFYING) :
      Mutation n now (.ready artifact) ⟨.restore r, j, journal⟩ pins
        ⟨.restore (publishRestore r now), releaseJob j .succeeded now, journal⟩
        (dropRestorePins pins r.id)

/-- What one step of the repository can do to a cell. -/
inductive Change : Option Label → Cell → List RecoveryPin → Cell → List RecoveryPin → Prop
  | claimFailed {c pins code now} (active : Active c.operation.status) :
      Change none c pins
        { c with operation := failOperation c.operation code now,
                 job := releaseJob c.job .failed now } pins
  | claimed {c pins worker deadline now} (active : Active c.operation.status)
      (free : leaseBusy c.job.lockedAt now = false) (left : c.job.attempts < 3)
      (due : c.operation.base.deadlineAt = none → deadline = now + deadlineMillis) :
      Change (some (.claimed worker (c.job.attempts + 1))) c pins
        { c with operation := startOperation c.operation deadline now,
                 job := lockJob c.job worker now } pins
  | mutated {c pins c' pins' worker n now mutation} (fenced : Fenced c worker n now)
      (apply : Mutation n now mutation c pins c' pins') :
      Change (some (.mutated worker n mutation)) c pins c' pins'
  | cancelled {r j journal pins now} (active : Active r.status) :
      Change none ⟨.restore r, j, journal⟩ pins
        ⟨.restore { r with status := .CANCELLED, updatedAt := now }, releaseJob j .cancelled now,
          journal⟩ pins
  | expired {b j journal pins now} (ready : b.status = .READY) :
      Change none ⟨.backup b, j, journal⟩ pins
        ⟨.backup { b with status := .EXPIRED, updatedAt := now }, j, journal⟩ pins
  | deletionRequested {b j journal pins now}
      (settled : b.status ∈ [OperationStatus.READY, .FAILED, .EXPIRED])
      (unpinned : restorePinned pins b.id = false) :
      Change none ⟨.backup b, j, journal⟩ pins
        ⟨.backup { b with status := .DELETING, updatedAt := now }, j, journal⟩ pins
  | backupCleanupClaimed {b j journal pins token worker leaseUntil now}
      (settled : b.status ∈ [OperationStatus.FAILED, .EXPIRED, .DELETING])
      (unpinned : restorePinned pins b.id = false) :
      Change none ⟨.backup b, j, journal⟩ pins
        ⟨.backup { b with toRecoveryBase :=
            { takeLease token worker leaseUntil now b.toRecoveryBase with status := .DELETING } },
          j, journal⟩ pins
  | restoreCleanupClaimed {r j journal pins token worker leaseUntil now}
      (settled : r.status ∈ [OperationStatus.FAILED, .CANCELLED]) :
      Change none ⟨.restore r, j, journal⟩ pins
        ⟨.restore { r with toRecoveryBase := takeLease token worker leaseUntil now r.toRecoveryBase },
          j, journal⟩ pins
  | backupCleaned {b j journal pins now} (deleting : b.status = .DELETING)
      (unpinned : restorePinned pins b.id = false) :
      Change none ⟨.backup b, j, journal⟩ pins
        ⟨.backup (deletedBackup b now), j, journal.map (cleanAttempt now)⟩
        (pins.filter fun row => row.backupId ≠ b.id)
  | restoreCleaned {r j journal pins now}
      (settled : r.status ∈ [OperationStatus.FAILED, .CANCELLED]) :
      Change none ⟨.restore r, j, journal⟩ pins ⟨.restore (cleanedRestore r now), j, journal⟩
        (dropRestorePins pins r.id)

/-- A change of one cell, whatever the pin table. -/
def CellStep (c : Cell) (l : Option Label) (c' : Cell) : Prop := ∃ pins pins', Change l c pins c' pins'

/-- A cell as its creation writes it. -/
structure Cell.Initial (c : Cell) : Prop where
  status : c.operation.status = .QUEUED
  startedAt : c.operation.base.startedAt = none
  deadlineAt : c.operation.base.deadlineAt = none
  job : c.job.status = .queued
  attempts : c.job.attempts = 0
  lockedBy : c.job.lockedBy = none
  lockedAt : c.job.lockedAt = none
  journal : c.journal = []

/-! ### Identity -/

/-- The fields that name a cell never change. -/
structure SameKeys (c c' : Cell) : Prop where
  id : c'.operation.id = c.operation.id
  kind : c'.operation.kind = c.operation.kind
  jobId : c'.job.id = c.job.id
  targetId : c'.job.targetId = c.job.targetId

theorem Mutation.sameKeys {n now m c pins c' pins'} (h : Mutation n now m c pins c' pins') :
    SameKeys c c' := by
  cases h <;> constructor <;>
    first
    | rfl
    | simp [failOperation, verifyOperation]

theorem Change.sameKeys {l c pins c' pins'} (h : Change l c pins c' pins') : SameKeys c c' := by
  cases h with
  | mutated _ apply => exact apply.sameKeys
  | _ =>
    constructor <;>
      first
      | rfl
      | simp [failOperation, startOperation]

end RaibitServer.Recovery
