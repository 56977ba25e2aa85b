import Mathlib.Data.Prod.Lex
import Mathlib.Data.String.Basic
import RaibitServer.Lib.Keyed
import RaibitServer.Lib.Run
import RaibitServer.Orchestrator.Lease

/-!
# Rollout.System — production deployments of a service and the workers that roll them out

The claim of a deployment (`claimDeploymentSQL`, `ClaimNextDeployment`), `applyAndWatch` with the prune step,
and `CompleteRollout` of the orchestrator, for the production deployments of one service.  The cluster holds at
most one production workload of the service, labelled with the deployment that applied it last.  Every
statement and every `kubectl` call is a step of its own, and any number of attempts may be under way.

Builds are steps of their own as well.  Left out are deletions of the service and its project, previews, what
the cluster does besides the workload, and the columns for the public health of a deployment, which a worker of
its own writes.
-/

namespace RaibitServer.Rollout

open Lib
open Orchestrator (LeaseColumns)

/-! ### Rows -/

inductive RolloutStatus
  | queued
  | BUILDING
  | IMAGE_READY
  | ROLLBACK_REQUESTED
  | DEPLOYING
  | READY
  | BUILD_FAILED
  | FAILED
  | CANCELLED
  deriving DecidableEq, Repr

open RolloutStatus

def RolloutStatus.terminal : RolloutStatus → Bool
  | queued | BUILDING | IMAGE_READY | ROLLBACK_REQUESTED | DEPLOYING => false
  | READY | BUILD_FAILED | FAILED | CANCELLED => true

/-- `DeploymentActionApply` and `DeploymentActionRollback`. -/
inductive ReconcileAction
  | apply
  | rollback
  deriving DecidableEq, Repr

abbrev DeploymentLease := Orchestrator.DeploymentLease ReconcileAction

abbrev ClaimOptions := Orchestrator.ClaimOptions Int

/-- `applicable`: the image of the deployment (of a rollback, its previous image) resolves, its plan is safe,
and its ids are ownership labels; nothing that a run does changes that. -/
structure RolloutRow extends LeaseColumns RolloutStatus ReconcileAction Int where
  id : String
  createdAt : Int
  applicable : Bool
  deriving DecidableEq, Repr

/-- `ORDER BY d."createdAt" ASC, d.id ASC`. -/
def RolloutRow.age (row : RolloutRow) : Int ×ₗ String := toLex (row.createdAt, row.id)

/-- How far an attempt has come. -/
inductive Phase
  | claimed
  | applied
  | pruned
  | rolledOut
  | observed
  deriving DecidableEq, Repr

structure Attempt where
  lease : DeploymentLease
  phase : Phase
  deriving DecidableEq, Repr

/-- `workload` is the owner label of the production workload, where there is one. -/
structure Cluster where
  deployments : Keyed RolloutRow.id
  workload : Option String
  attempts : List Attempt

/-! ### Claims -/

/-- In milliseconds; without a lease, fifteen minutes. -/
def leaseMillis (lease : Int) : Int := if lease ≤ 0 then 900000 else lease

/-- `deploymentActionForPostgresClaim`. -/
def RolloutRow.claimAction (row : RolloutRow) : Option ReconcileAction :=
  match row.status with
  | DEPLOYING => row.reconcileAction
  | IMAGE_READY => some .apply
  | ROLLBACK_REQUESTED => some .rollback
  | _ => none

/-- The condition of `claimDeploymentSQL`. -/
def RolloutRow.claimable (options : ClaimOptions) (row : RolloutRow) : Bool :=
  row.due [IMAGE_READY, ROLLBACK_REQUESTED].contains DEPLOYING
    (fun lockedAt => lockedAt ≤ options.now - leaseMillis options.lease) && !options.skipped.contains row.id

/-- The row that `claimDeploymentSQL` selects. -/
def Cluster.selected (s : Cluster) (options : ClaimOptions) : Option RolloutRow :=
  ((s.deployments.rows.filter (RolloutRow.claimable options)).insertionSort fun a b => a.age ≤ b.age).head?

def lockRow (options : ClaimOptions) (action : ReconcileAction) (row : RolloutRow) : RolloutRow :=
  { row with toLeaseColumns := row.toLeaseColumns.claimed DEPLOYING options.worker options.now action }

theorem lockRow_id (options : ClaimOptions) (action : ReconcileAction) (row : RolloutRow) :
    (lockRow options action row).id = row.id := rfl

/-- The row is locked for the worker, and an attempt starts. -/
def Cluster.claim (s : Cluster) (options : ClaimOptions) (row : RolloutRow) (action : ReconcileAction) : Cluster :=
  { s with
    deployments := s.deployments.update (fun r => r.id = row.id) (lockRow options action) (lockRow_id options action)
    attempts := s.attempts ++ [⟨⟨row.id, options.worker, row.reconcileAttempts + 1, action⟩, .claimed⟩] }

def claimNextDeployment (s : Cluster) (options : ClaimOptions) : Option Cluster := do
  let row ← s.selected options
  let action ← row.claimAction
  return s.claim options row action

/-! ### Writes under a lease -/

/-- The predicate of `TransitionDeployment` and `RenewDeploymentLease`. -/
def RolloutRow.ownedBy (lease : DeploymentLease) (row : RolloutRow) : Bool :=
  row.id = lease.deploymentID && row.heldBy DEPLOYING lease

/-- `TransitionDeployment` and `CompleteRollout` end the lease with the attempt. -/
def endRow (status : RolloutStatus) (row : RolloutRow) : RolloutRow :=
  { row with toLeaseColumns := row.ended status }

theorem endRow_id (status : RolloutStatus) (row : RolloutRow) : (endRow status row).id = row.id := rfl

/-- `markFailed`: nothing where the lease is lost. -/
def markFailed (deployments : Keyed RolloutRow.id) (lease : DeploymentLease) : Keyed RolloutRow.id :=
  deployments.update (RolloutRow.ownedBy lease) (endRow FAILED) (endRow_id FAILED)

/-- `recordOwnsDeploymentLease`, and the lease has not run out. -/
def RolloutRow.heldAt (lease : DeploymentLease) (now duration : Int) (row : RolloutRow) : Bool :=
  row.ownedBy lease && lease.deploymentID ≠ "" && lease.workerID ≠ "" && 0 < lease.attempt &&
    row.reconcileLockedAt.any fun lockedAt => now < lockedAt + leaseMillis duration

def completeRollout (deployments : Keyed RolloutRow.id) (lease : DeploymentLease) (now duration : Int) :
    Keyed RolloutRow.id :=
  deployments.update (RolloutRow.heldAt lease now duration) (endRow READY) (endRow_id READY)

def renewRow (now : Int) (row : RolloutRow) : RolloutRow := { row with toLeaseColumns := row.renewed now }

theorem renewRow_id (now : Int) (row : RolloutRow) : (renewRow now row).id = row.id := rfl

def renewDeploymentLease (deployments : Keyed RolloutRow.id) (lease : DeploymentLease) (now : Int) :
    Keyed RolloutRow.id :=
  deployments.update (RolloutRow.ownedBy lease) (renewRow now) (renewRow_id now)

/-! ### `applyAndWatch` -/

section Work

variable (observes : Bool) (s : Cluster)

/-- The attempt at a place moves on. -/
def Cluster.advance (i : Nat) (attempt : Attempt) (phase : Phase) : Cluster :=
  { s with attempts := s.attempts.set i { attempt with phase } }

/-- The attempt at a place ends in a failure. -/
def Cluster.failed (i : Nat) (attempt : Attempt) : Cluster :=
  { s with deployments := markFailed s.deployments attempt.lease, attempts := s.attempts.eraseIdx i }

/-- The image of the deployment resolves and its plan is safe. -/
def Cluster.applicable (deploymentId : String) : Bool :=
  s.deployments.rows.any fun row => row.id = deploymentId && row.applicable

/-- The next call of an attempt: apply, prune, wait for the workload, and read it (`observes`: a workload of
the kind Deployment, whose labels are compared). -/
def work (i : Nat) (attempt : Attempt) : Cluster :=
  let deploymentId := attempt.lease.deploymentID
  match attempt.phase with
  | .claimed =>
    if s.applicable deploymentId then { s.advance i attempt .applied with workload := some deploymentId }
    else s.failed i attempt
  | .applied =>
    -- the selector of the prune step excludes what the deployment owns itself
    { s.advance i attempt .pruned with workload := s.workload.filter fun owner => owner = deploymentId }
  | .pruned => if s.workload.isSome then s.advance i attempt .rolledOut else s.failed i attempt
  | .rolledOut =>
    if observes && s.workload ≠ some deploymentId then s.failed i attempt else s.advance i attempt .observed
  | .observed => s

end Work

/-! ### Steps -/

inductive RolloutEvent
  | create (row : RolloutRow)
  | build (deploymentId : String) (status : RolloutStatus)
  | claim (options : ClaimOptions)
  | work (i : Nat)
  | complete (i : Nat) (now duration : Int)
  | renew (i : Nat) (now : Int)
  | stop (i : Nat)

/-- A deployment as it is created: queued, or with the image of the deployment it goes back to. -/
def RolloutRow.fresh (row : RolloutRow) : Bool :=
  [queued, IMAGE_READY, ROLLBACK_REQUESTED].contains row.status && row.reconcileAttempts = 0 &&
    row.reconcileLockedBy = none

/-- What a build writes, to a deployment that no worker has claimed. -/
def builtStatus (status : RolloutStatus) : Bool :=
  [BUILDING, IMAGE_READY, BUILD_FAILED, FAILED, CANCELLED].contains status

def RolloutRow.unclaimed (row : RolloutRow) : Bool :=
  [queued, BUILDING, IMAGE_READY, ROLLBACK_REQUESTED].contains row.status

def setStatus (status : RolloutStatus) (row : RolloutRow) : RolloutRow := { row with status }

theorem setStatus_id (status : RolloutStatus) (row : RolloutRow) : (setStatus status row).id = row.id := rfl

/-- One step; `none` where there is nothing to do. -/
def Cluster.next (observes : Bool) (s : Cluster) : RolloutEvent → Option Cluster
  | .create row =>
    if row.fresh then (s.deployments.insert? row).map fun deployments => { s with deployments } else none
  | .build deploymentId status =>
    if builtStatus status then
      some { s with
        deployments := s.deployments.update (fun r => r.id = deploymentId && r.unclaimed) (setStatus status)
          (setStatus_id status) }
    else none
  | .claim options => claimNextDeployment s options
  | .work i => s.attempts[i]?.map (Rollout.work observes s i)
  | .complete i now duration =>
    (s.attempts[i]?.filter fun attempt => attempt.phase = .observed).map fun attempt =>
      { s with
        deployments := completeRollout s.deployments attempt.lease now duration
        attempts := s.attempts.eraseIdx i }
  | .renew i now => s.attempts[i]?.map fun attempt =>
      { s with deployments := renewDeploymentLease s.deployments attempt.lease now }
  | .stop i => s.attempts[i]?.map fun _ => { s with attempts := s.attempts.eraseIdx i }

def RolloutStep (observes : Bool) (s : Cluster) (e : RolloutEvent) (t : Cluster) : Prop :=
  s.next observes e = some t

def emptyCluster : Cluster := ⟨.empty, none, []⟩

end RaibitServer.Rollout
