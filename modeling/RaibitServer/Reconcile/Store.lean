import Mathlib.Data.Prod.Lex
import Mathlib.Data.String.Basic
import RaibitServer.Lib.Keyed
import RaibitServer.Lib.Time
import RaibitServer.Orchestrator.Lease
import RaibitServer.Orchestrator.PreviewObject

/-!
# Reconcile.Store — deployments under reconciliation in PostgreSQL

`ClaimNextDeployment`, `RenewDeploymentLease` and `TransitionDeployment` of the orchestrator's
`store/postgres_store.go`.  A call is one transaction that locks the rows it decides on.
-/

namespace RaibitServer.Reconcile

open Lib Text
open Orchestrator (LeaseColumns ClaimOptions)

/-! ### Rows -/

inductive DeploymentAction
  | apply
  | rollback
  | cleanup
  deriving DecidableEq, Repr

abbrev DeploymentLease := Orchestrator.DeploymentLease DeploymentAction

structure DeploymentRow extends LeaseColumns String DeploymentAction Micros where
  id : String
  serviceId : String
  projectId : String
  createdAt : Micros
  imageUrl : Option String
  previewLineageId : Option String
  previewGeneration : Option Int
  previewRuntime : Option Json
  previewOwnedObjects : Option Json

/-- `ORDER BY d."createdAt" ASC, d.id ASC`. -/
def DeploymentRow.age (d : DeploymentRow) : Micros ×ₗ String := toLex (d.createdAt, d.id)

structure ServiceRow where
  id : String
  projectId : String
  status : String
  deriving DecidableEq

structure ProjectRow where
  id : String
  status : String
  deriving DecidableEq

structure Database where
  deployments : Keyed DeploymentRow.id
  services : Keyed ServiceRow.id
  projects : Keyed ProjectRow.id

/-- `UPPER(status) IN ('DELETE_REQUESTED', 'DELETING', 'DELETED')`. -/
def deleting (status : String) : Bool := ["DELETE_REQUESTED", "DELETING", "DELETED"].contains (upper status)

/-- The project is not being deleted. -/
def Database.projectLive (db : Database) (projectId : String) : Bool :=
  (db.projects.get? projectId).any fun p => !deleting p.status

/-- The service belongs to the project, and neither is being deleted. -/
def Database.parentsLive (db : Database) (serviceId projectId : String) : Bool :=
  ((db.services.get? serviceId).any fun s => s.projectId = projectId && !deleting s.status) &&
    db.projectLive projectId

def Database.updateDeployment (db : Database) (deploymentID : String) (f : DeploymentRow → DeploymentRow)
    (hf : ∀ d, (f d).id = d.id) : Database :=
  { db with deployments := db.deployments.update (fun d => d.id = deploymentID) f hf }

/-- `healthTransaction.deployment`: the row, locked with its parents. -/
def Database.lockDeployment (db : Database) (deploymentID : String) : Option DeploymentRow :=
  (db.deployments.get? deploymentID).filter fun d => db.parentsLive d.serviceId d.projectId

inductive StoreError
  | ErrDeploymentLeaseLost
  | ErrParentDeletionRequested
  | noReconcileAction (deploymentID : String)
  | updateRequired
  deriving DecidableEq

/-! ### Claims -/

/-- Fifteen minutes without a lease. -/
def leaseMicros (lease : Int) : Micros := if lease ≤ 0 then 15 * 60 * 1000000 else lease.toNat

/-- The condition of `claimDeploymentSQL`. -/
def Database.claimable (db : Database) (o : ClaimOptions Micros) (d : DeploymentRow) : Bool :=
  d.due ["IMAGE_READY", "ROLLBACK_REQUESTED", "PREVIEW_CLEANUP_REQUESTED", "CLEANUP_REQUESTED"].contains "DEPLOYING"
    (fun t => t + leaseMicros o.lease ≤ o.now) &&
  ((db.services.get? d.serviceId).any fun s => !deleting s.status) && db.projectLive d.projectId &&
  !o.skipped.contains d.id

def Database.candidate (db : Database) (o : ClaimOptions Micros) : Option DeploymentRow :=
  ((db.deployments.select (db.claimable o)).insertionSort fun a b => a.age ≤ b.age).head?

/-- `deploymentActionForPostgresClaim`. -/
def DeploymentRow.claimAction (d : DeploymentRow) : Option DeploymentAction :=
  if equalFold d.status "DEPLOYING" then d.reconcileAction
  else match upper d.status with
    | "IMAGE_READY" => some .apply
    | "ROLLBACK_REQUESTED" => some .rollback
    | "PREVIEW_CLEANUP_REQUESTED" | "CLEANUP_REQUESTED" => some .cleanup
    | _ => none

def DeploymentRow.claimed (o : ClaimOptions Micros) (action : DeploymentAction) (d : DeploymentRow) : DeploymentRow :=
  { d with toLeaseColumns := d.toLeaseColumns.claimed "DEPLOYING" o.worker (timestamp3 o.now) action }

/-- The lease of a row as `ClaimNextDeployment` returns it. -/
def DeploymentRow.leaseFor (o : ClaimOptions Micros) (action : DeploymentAction) (d : DeploymentRow) : DeploymentLease :=
  ⟨d.id, o.worker, d.reconcileAttempts + 1, action⟩

def claimNextDeployment (db : Database) (o : ClaimOptions Micros) :
    Except StoreError (Database × Option DeploymentLease) :=
  match db.candidate o with
  | none => .ok (db, none)
  | some d => do
    throwIf ((db.lockDeployment d.id).isNone = true) .ErrParentDeletionRequested
    let action ← orThrow d.claimAction (.noReconcileAction d.id)
    return (db.updateDeployment d.id (DeploymentRow.claimed o action) fun _ => rfl, some (d.leaseFor o action))

/-! ### Writes under a lease -/

/-- `transitionDeploymentLeasePredicate`, and the condition of `renewDeploymentLeaseSQL`. -/
def DeploymentRow.leasedTo (lease : DeploymentLease) (d : DeploymentRow) : Bool :=
  d.id = lease.deploymentID && d.heldBy "DEPLOYING" lease

def renewDeploymentLease (db : Database) (lease : DeploymentLease) (renewedAt : Micros) :
    Except StoreError Database := do
  throwIf (¬ (db.deployments.get? lease.deploymentID).any (DeploymentRow.leasedTo lease)) .ErrDeploymentLeaseLost
  return db.updateDeployment lease.deploymentID
    (fun d => { d with toLeaseColumns := d.renewed (timestamp3 renewedAt) }) fun _ => rfl

/-- The columns that `TransitionDeployment` may set; of the others nothing is read. -/
structure DeploymentUpdates where
  status : Option String
  imageUrl : Option String
  /-- `deployedAt`, `finishedAt`, `errorCode` or `errorMessage` is set. -/
  others : Bool
  deriving DecidableEq

def DeploymentRow.transitioned (u : DeploymentUpdates) (d : DeploymentRow) : DeploymentRow :=
  { d with toLeaseColumns := d.ended (u.status.getD d.status), imageUrl := u.imageUrl.or d.imageUrl }

/-- A transition to READY asks for live parents. -/
def Database.admits (db : Database) (u : DeploymentUpdates) (d : DeploymentRow) : Bool :=
  !(u.status.any fun status => equalFold status "READY") || db.parentsLive d.serviceId d.projectId

def transitionDeployment (db : Database) (lease : DeploymentLease) (u : DeploymentUpdates) :
    Except StoreError Database := do
  throwIf (u.status = none ∧ u.imageUrl = none ∧ u.others = false) .updateRequired
  throwIf (¬ (db.deployments.get? lease.deploymentID).any fun d => d.leasedTo lease && db.admits u d)
    .ErrDeploymentLeaseLost
  return db.updateDeployment lease.deploymentID (DeploymentRow.transitioned u) fun _ => rfl

/-! ### What a call does to a row -/

theorem get?_updateDeployment {db : Database} {row : DeploymentRow} {id : String} (f : DeploymentRow → DeploymentRow)
    (hf : ∀ d, (f d).id = d.id) (h : db.deployments.get? id = some row) :
    (db.updateDeployment id f hf).deployments.get? id = some (f row) := by
  refine (Keyed.get?_update_at db.deployments id f hf id).trans ?_
  rw [if_pos rfl, h, Option.map_some]

theorem claimNextDeployment_row {db db' : Database} {o : ClaimOptions Micros} {lease : DeploymentLease}
    (h : claimNextDeployment db o = .ok (db', some lease)) :
    ∃ d action, db.deployments.get? d.id = some d ∧ d.claimAction = some action ∧ lease = d.leaseFor o action ∧
      db' = db.updateDeployment d.id (DeploymentRow.claimed o action) (fun _ => rfl) ∧
      db.claimable o d = true ∧ db.parentsLive d.serviceId d.projectId = true := by
  unfold claimNextDeployment at h
  cases hcandidate : db.candidate o with
  | none =>
    rw [hcandidate] at h
    cases (Prod.mk.inj (Except.ok.inj h)).2
  | some d =>
    rw [hcandidate] at h
    obtain ⟨_, hlock, h⟩ := bind_ok.1 h
    obtain ⟨action, haction, h⟩ := bind_ok.1 h
    obtain ⟨hdb, hlease⟩ := Prod.mk.inj (pure_ok.1 h)
    have hmem := List.mem_of_head? hcandidate
    rw [List.mem_insertionSort] at hmem
    obtain ⟨hrow, hclaimable⟩ := List.mem_filter.1 hmem
    have hget : db.deployments.get? d.id = some d := Keyed.get?_eq_some.2 ⟨hrow, rfl⟩
    refine ⟨d, action, hget, orThrow_ok.1 haction, (Option.some.inj hlease).symm, hdb.symm, hclaimable, ?_⟩
    cases hparents : db.parentsLive d.serviceId d.projectId with
    | true => rfl
    | false =>
      refine absurd ?_ (throwIf_ok.1 hlock)
      unfold Database.lockDeployment
      rw [hget, Option.filter_some, hparents]
      rfl

end RaibitServer.Reconcile
