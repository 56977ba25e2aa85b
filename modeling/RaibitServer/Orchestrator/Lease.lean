import RaibitServer.Lib.Text

/-!
# Orchestrator.Lease — the lease of a worker on a deployment

The columns that `ClaimNextDeployment`, `RenewDeploymentLease` and `TransitionDeployment` of
`store/postgres_store.go` share, and what their statements do to them.  The statuses, the actions and the
clock are those of the rows in which the columns stand.
-/

namespace RaibitServer.Orchestrator

open Lib

variable {σ α τ : Type}

structure LeaseColumns (σ α τ : Type) where
  status : σ
  reconcileAction : Option α
  reconcileLockedBy : Option String
  reconcileLockedAt : Option τ
  reconcileAttempts : Nat
  deriving DecidableEq, Repr

structure DeploymentLease (α : Type) where
  deploymentID : String
  workerID : String
  attempt : Nat
  action : α
  deriving DecidableEq, Repr

structure ClaimOptions (τ : Type) where
  workerID : String
  /-- In the unit of the clock. -/
  lease : Int
  /-- `time.Now()` in place of a zero time. -/
  now : τ
  /-- Rows that other transactions hold. -/
  skipped : List String

def ClaimOptions.worker (o : ClaimOptions τ) : String :=
  let workerID := Text.trimSpace o.workerID
  if workerID = "" then "raibitserver-orchestrator" else workerID

namespace LeaseColumns

/-- The condition of `claimDeploymentSQL` on the columns: the status asks for a worker, or the lease of the
last one has run out. -/
def due [DecidableEq σ] (requested : σ → Bool) (deploying : σ) (expired : τ → Bool) (c : LeaseColumns σ α τ) : Bool :=
  requested c.status || (c.status = deploying && c.reconcileLockedAt.any expired && c.reconcileAction.isSome)

/-- `reconcileAttempts` counts the claims. -/
def claimed (deploying : σ) (worker : String) (lockedAt : τ) (action : α) (c : LeaseColumns σ α τ) :
    LeaseColumns σ α τ :=
  { status := deploying, reconcileAction := some action, reconcileLockedBy := some worker
    reconcileLockedAt := some lockedAt, reconcileAttempts := c.reconcileAttempts + 1 }

/-- `transitionDeploymentLeasePredicate`, and the condition of `renewDeploymentLeaseSQL`. -/
def heldBy [DecidableEq σ] [DecidableEq α] (deploying : σ) (lease : DeploymentLease α) (c : LeaseColumns σ α τ) : Bool :=
  c.status = deploying && c.reconcileLockedBy = some lease.workerID && c.reconcileAttempts = lease.attempt &&
    c.reconcileAction = some lease.action

@[simp] theorem heldBy_claimed [DecidableEq σ] [DecidableEq α] (deploying : σ) (id worker : String) (lockedAt : τ)
    (action : α) (c : LeaseColumns σ α τ) :
    (c.claimed deploying worker lockedAt action).heldBy deploying
      ⟨id, worker, c.reconcileAttempts + 1, action⟩ = true := by
  simp [heldBy, claimed]

def renewed (lockedAt : τ) (c : LeaseColumns σ α τ) : LeaseColumns σ α τ := { c with reconcileLockedAt := some lockedAt }

/-- The lease ends with the attempt; the count stays. -/
def ended (status : σ) (c : LeaseColumns σ α τ) : LeaseColumns σ α τ :=
  { c with status, reconcileAction := none, reconcileLockedBy := none, reconcileLockedAt := none }

end LeaseColumns

end RaibitServer.Orchestrator
