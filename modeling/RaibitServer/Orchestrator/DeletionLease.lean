import Mathlib.Data.List.Sort
import RaibitServer.Lib.Keyed
import RaibitServer.Lib.Run

/-!
# Orchestrator.DeletionLease — deleting a service under a lease (`postgres_store.go`)

The `updatedAt` of a service that is being deleted is the token of the lease on its deletion: a claim and a
renewal write it and return what they wrote, and whoever renews, releases or finalizes has to name it.  Everybody
else who writes the row writes `updatedAt` too, knowing nothing of leases.

`deletion_leases_exclusive` follows one service through any interleaving of statements whose timestamps on it are
distinct.  A statement is one step; a claim, which holds the row lock from its `SELECT` to its `UPDATE`, is one
as well.
-/

namespace RaibitServer.Orchestrator.Deletion

open Lib

/-! ### Tables -/

structure ServiceRow where
  id : String
  projectId : String
  status : String
  deletionRequestedAt : Option Int
  createdAt : Int
  updatedAt : Int

structure DeploymentRow where
  serviceId : String
  status : String
  reconcileLockedBy : Option String

/-- A job of the type `PublicHealthObserve`. -/
structure HealthJob where
  serviceId : String
  status : String
  lockedBy : Option String
  lockedAt : Option Int
  updatedAt : Int

structure DeletionLease where
  id : String
  claimedAt : Int
  deriving DecidableEq

structure Database where
  services : Keyed ServiceRow.id
  deployments : List DeploymentRow
  jobs : List HealthJob
  /-- The leases that were ever returned to a worker. -/
  held : List DeletionLease

/-- What a call did: the lease it returned, the lease it succeeded with, the service it deleted, and the
timestamp it wrote to a service. -/
structure Event where
  granted : Option DeletionLease
  used : Option DeletionLease
  finalized : Option String
  written : String → Option Int

/-- A call that did nothing. -/
def Event.none : Event := ⟨.none, .none, .none, fun _ => .none⟩

/-! ### Statements -/

/-- `UPDATE "Service" SET …, "updatedAt" = time WHERE p`. -/
def Database.write (db : Database) (p : ServiceRow → Bool) (set : ServiceRow → ServiceRow) (time : Int) : Database :=
  { db with
    services := db.services.update p (fun row => { set row with id := row.id, updatedAt := time }) fun _ => rfl }

/-- The timestamp that such a statement writes to a service. -/
def Database.stamps (db : Database) (p : ServiceRow → Bool) (time : Int) (id : String) : Option Int :=
  if (db.services.get? id).any p then some time else none

structure ClaimOptions where
  lease : Int
  now : Option Int

/-- `deletionClaimClock`; `clock` is `time.Now()`, and durations are in nanoseconds. -/
def deletionClaimClock (options : ClaimOptions) (clock : Int) : Int × Int :=
  (options.now.getD clock, if options.lease ≤ 0 then 15 * 60 * 1000000000 else options.lease)

/-- The condition of `claimServiceDeletionSQL`. -/
def claimable (cutoff : Int) (row : ServiceRow) : Bool :=
  row.status = "DELETE_REQUESTED" || row.status = "DELETING" && row.updatedAt ≤ cutoff

/-- `ORDER BY "deletionRequestedAt" ASC NULLS LAST, "createdAt" ASC, id ASC`. -/
def claimOrder (collation : String → String → Bool) (a b : ServiceRow) : Bool :=
  match a.deletionRequestedAt, b.deletionRequestedAt with
  | some _, none => true
  | none, some _ => false
  | some x, some y => x < y || x = y && tail
  | none, none => tail
where
  tail : Bool := a.createdAt < b.createdAt || a.createdAt = b.createdAt && collation a.id b.id

/-- `locked` are the rows that other transactions hold. -/
def claimNextServiceDeletion (collation : String → String → Bool) (db : Database) (options : ClaimOptions)
    (clock : Int) (locked : String → Bool) : Event × Database :=
  let (claimNow, lease) := deletionClaimClock options clock
  let found := db.services.select fun row => claimable (claimNow - lease) row && !locked row.id
  match (found.insertionSort fun a b => claimOrder collation a b).head? with
  | none => (.none, db)
  | some service =>
    let same (row : ServiceRow) : Bool :=
      row.id = service.id && row.status = service.status && row.updatedAt = service.updatedAt
    let claimed : DeletionLease := ⟨service.id, claimNow⟩
    if (db.services.get? service.id).any same then
      (⟨some claimed, none, none, db.stamps same claimNow⟩,
        { db.write same (fun row => { row with status := "DELETING" }) claimNow with held := claimed :: db.held })
    else (.none, db)

/-- `id = $1 AND status = 'DELETING' AND "updatedAt" = $2`. -/
def DeletionLease.fits (lease : DeletionLease) (row : ServiceRow) : Bool :=
  row.id = lease.id && row.status = "DELETING" && row.updatedAt = lease.claimedAt

/-- The row of the lease is there. -/
def Database.holds (db : Database) (lease : DeletionLease) : Bool := (db.services.get? lease.id).any lease.fits

def renewServiceDeletionLease (db : Database) (lease : DeletionLease) (renewedAt : Option Int) (clock : Int)
    (cancelled : Bool) : Event × Database :=
  let stored := renewedAt.getD clock
  let renewed : DeletionLease := ⟨lease.id, stored⟩
  if !cancelled && db.holds lease then
    (⟨some renewed, some lease, none, db.stamps lease.fits stored⟩,
      { db.write lease.fits id stored with held := renewed :: db.held })
  else (.none, db)

def releaseServiceDeletion (db : Database) (lease : DeletionLease) (clock : Int) : Event × Database :=
  if db.holds lease then
    (⟨none, some lease, none, db.stamps lease.fits clock⟩,
      db.write lease.fits (fun row => { row with status := "DELETE_REQUESTED" }) clock)
  else (.none, db)

/-- The condition on deployments in `finalizeServiceDeletionSQL`. -/
def DeploymentRow.blocks (id : String) (row : DeploymentRow) : Bool :=
  row.serviceId = id && (row.reconcileLockedBy.isSome ||
    row.status ∉ ["READY", "FAILED", "BUILD_FAILED", "CANCELLED", "CLEANED_UP"])

def HealthJob.cancel (id : String) (clock : Int) (job : HealthJob) : HealthJob :=
  if job.serviceId = id ∧ job.status ∈ ["queued", "running"] then
    { job with status := "cancelled", lockedBy := none, lockedAt := none, updatedAt := clock }
  else job

/-- `finalizeHealthParent` of a service. -/
def finalizeServiceDeletion (db : Database) (lease : DeletionLease) (clock : Int) : Event × Database :=
  if db.holds lease && !db.deployments.any (DeploymentRow.blocks lease.id) then
    (⟨none, some lease, some lease.id, fun _ => none⟩,
      { db with
        services := db.services.filter fun row => !lease.fits row
        jobs := db.jobs.map (HealthJob.cancel lease.id clock) })
  else (.none, db)

def deletionStatuses : List String := ["DELETE_REQUESTED", "DELETING", "DELETED"]

/-- The update of `deleteService` and, with the services of a project, of `deleteProject`. -/
def requestDeletion (db : Database) (chosen : ServiceRow → Bool) (requestedAt : ServiceRow → Int) (clock : Int) :
    Event × Database :=
  let p (row : ServiceRow) : Bool := chosen row && row.status ∉ deletionStatuses
  (⟨none, none, none, db.stamps p clock⟩, db.write p (fun row =>
    { row with status := "DELETE_REQUESTED", deletionRequestedAt := some (requestedAt row) }) clock)

/-! ### Calls -/

inductive Call
  | claimNextServiceDeletion (options : ClaimOptions) (clock : Int) (locked : String → Bool)
  | renewServiceDeletionLease (lease : DeletionLease) (renewedAt : Option Int) (clock : Int) (cancelled : Bool)
  | releaseServiceDeletion (lease : DeletionLease) (clock : Int)
  | finalizeServiceDeletion (lease : DeletionLease) (clock : Int)
  | requestDeletion (chosen : ServiceRow → Bool) (requestedAt : ServiceRow → Int) (clock : Int)
  /-- Any other update of services, which writes `updatedAt`. -/
  | update (p : ServiceRow → Bool) (set : ServiceRow → ServiceRow) (clock : Int)
  /-- Any change of deployments and jobs. -/
  | other (deployments : List DeploymentRow) (jobs : List HealthJob)

/-- Workers use leases that the store returned to one of them. -/
def Call.Allowed (db : Database) : Call → Prop
  | .renewServiceDeletionLease lease _ _ _ => lease ∈ db.held
  | .releaseServiceDeletion lease _ => lease ∈ db.held
  | .finalizeServiceDeletion lease _ => lease ∈ db.held
  | _ => True

section Runs

variable (collation : String → String → Bool)

def exec (db : Database) : Call → Event × Database
  | .claimNextServiceDeletion options clock locked => claimNextServiceDeletion collation db options clock locked
  | .renewServiceDeletionLease lease renewedAt clock cancelled =>
    renewServiceDeletionLease db lease renewedAt clock cancelled
  | .releaseServiceDeletion lease clock => releaseServiceDeletion db lease clock
  | .finalizeServiceDeletion lease clock => finalizeServiceDeletion db lease clock
  | .requestDeletion chosen requestedAt clock => requestDeletion db chosen requestedAt clock
  | .update p set clock => (⟨none, none, none, db.stamps p clock⟩, db.write p set clock)
  | .other deployments jobs => (.none, { db with deployments, jobs })

def Step (db : Database) (e : Event) (db' : Database) : Prop :=
  ∃ call : Call, call.Allowed db ∧ exec collation db call = (e, db')

/-! ### What a step does to a service -/

/-- **What a step does to the service `id`.** -/
structure Effect (id : String) (db : Database) (e : Event) (db' : Database) : Prop where
  /-- The row is as it was, or it has the new timestamp. -/
  row : ∀ row, db'.services.get? id = some row →
    (e.written id = none ∧ db.services.get? id = some row) ∨ e.written id = some row.updatedAt
  gone : db.services.get? id = none → db'.services.get? id = none
  granted : ∀ lease ∈ db'.held, lease.id = id → lease ∈ db.held ∨
    (e.granted = some lease ∧ e.written id = some lease.claimedAt)
  used : ∀ lease ∈ e.used, lease.id = id → lease ∈ db.held ∧
    ∃ row, db.services.get? id = some row ∧ row.updatedAt = lease.claimedAt
  finalized : e.finalized = some id → (∀ row ∈ db.deployments, row.blocks id = false) ∧
    db.services.get? id ≠ none ∧ db'.services.get? id = none

variable {collation} {id : String} {db db' : Database} {e : Event} {es : List Event} {p : ServiceRow → Bool}
  {set : ServiceRow → ServiceRow} {time : Int} {lease : DeletionLease}

theorem stamps_of_any (h : (db.services.get? id).any p = true) : db.stamps p time id = some time := if_pos h

theorem write_row {row : ServiceRow} (h : (db.write p set time).services.get? id = some row) :
    (db.stamps p time id = none ∧ db.services.get? id = some row) ∨ db.stamps p time id = some row.updatedAt := by
  unfold Database.write at h
  rw [Keyed.get?_update] at h
  obtain ⟨before, hbefore, hrow⟩ := Option.map_eq_some_iff.1 h
  unfold Database.stamps
  rw [hbefore, Option.any_some]
  by_cases hp : p before = true
  · rw [if_pos hp] at hrow
    subst hrow
    exact .inr (if_pos hp)
  · rw [if_neg hp] at hrow
    subst hrow
    exact .inl ⟨if_neg hp, rfl⟩

theorem write_gone (h : db.services.get? id = none) : (db.write p set time).services.get? id = none := by
  unfold Database.write
  rw [Keyed.get?_update, h]
  rfl

theorem holds_row (h : db.holds lease = true) :
    ∃ row, db.services.get? lease.id = some row ∧ lease.fits row = true ∧ row.updatedAt = lease.claimedAt := by
  obtain ⟨row, hrow, hfits⟩ := (Option.any_eq_true _ _).1 h
  refine ⟨row, hrow, hfits, ?_⟩
  unfold DeletionLease.fits at hfits
  simp only [Bool.and_eq_true, decide_eq_true_eq] at hfits
  exact hfits.2

theorem effect_none (deployments : List DeploymentRow) (jobs : List HealthJob) :
    Effect id db .none { db with deployments, jobs } where
  row := fun _ hrow => .inl ⟨rfl, hrow⟩
  gone := fun h => h
  granted := fun _ hlease _ => .inl hlease
  used := by simp [Event.none]
  finalized := by simp [Event.none]

/-- An update that returns the lease `grant` or none, with the lease `use` or without. -/
theorem effect_write {grant use : Option DeletionLease}
    (hgrant : ∀ lease ∈ grant, lease.claimedAt = time ∧ (db.services.get? lease.id).any p = true)
    (huse : ∀ lease ∈ use, lease ∈ db.held ∧ db.holds lease = true) :
    Effect id db ⟨grant, use, none, db.stamps p time⟩
      { db.write p set time with held := grant.toList ++ db.held } where
  row := fun _ hrow => write_row hrow
  gone := write_gone
  granted := by
    rintro lease hlease rfl
    rcases List.mem_append.1 hlease with hnew | hold
    · have hnew := Option.mem_toList.1 hnew
      obtain ⟨htime, hany⟩ := hgrant lease hnew
      exact .inr ⟨hnew, htime ▸ stamps_of_any hany⟩
    · exact .inl hold
  used := by
    rintro lease hlease rfl
    obtain ⟨hheld, hholds⟩ := huse lease hlease
    obtain ⟨row, hrow, -, htime⟩ := holds_row hholds
    exact ⟨hheld, row, hrow, htime⟩
  finalized := by simp

theorem effect_finalize (hheld : lease ∈ db.held) (clock : Int) :
    Effect id db (finalizeServiceDeletion db lease clock).1 (finalizeServiceDeletion db lease clock).2 := by
  unfold finalizeServiceDeletion
  split
  · rename_i hcond
    obtain ⟨hholds, hfree⟩ := Bool.and_eq_true_iff.1 hcond
    obtain ⟨row, hrow, hfits, htime⟩ := holds_row hholds
    exact {
      row := by
        intro after hafter
        rw [Keyed.get?_filter] at hafter
        exact .inl ⟨rfl, (Option.filter_eq_some_iff.1 hafter).1⟩
      gone := by
        intro h
        rw [Keyed.get?_filter, h]
        rfl
      granted := fun _ hlease _ => .inl hlease
      used := by
        rintro used hused rfl
        obtain rfl : lease = used := by simpa using hused
        exact ⟨hheld, row, hrow, htime⟩
      finalized := by
        intro h
        obtain rfl : lease.id = id := by simpa using h
        refine ⟨?_, by rw [hrow]; simp, ?_⟩
        · simpa using hfree
        · rw [Keyed.get?_filter, hrow]
          simp [hfits] }
  · exact effect_none _ _

theorem step_effect (h : Step collation db e db') (id : String) : Effect id db e db' := by
  obtain ⟨call, hallowed, hexec⟩ := h
  obtain ⟨rfl, rfl⟩ := Prod.mk.inj hexec.symm
  cases call with
  | claimNextServiceDeletion options clock locked =>
    simp only [claimNextServiceDeletion]
    split
    · exact effect_none _ _
    · split
      · rename_i hany
        exact effect_write (by simpa using hany) (by simp)
      · exact effect_none _ _
  | renewServiceDeletionLease lease renewedAt clock cancelled =>
    simp only [renewServiceDeletionLease]
    split
    · rename_i hcond
      have hholds := (Bool.and_eq_true_iff.1 hcond).2
      exact effect_write (by simpa [Database.holds] using hholds) (by simpa using ⟨hallowed, hholds⟩)
    · exact effect_none _ _
  | releaseServiceDeletion lease clock =>
    simp only [releaseServiceDeletion]
    split
    · rename_i hholds
      exact effect_write (by simp) (by simpa using ⟨hallowed, hholds⟩)
    · exact effect_none _ _
  | finalizeServiceDeletion lease clock => exact effect_finalize hallowed clock
  | requestDeletion chosen requestedAt clock => exact effect_write (by simp) (by simp)
  | update p set clock => exact effect_write (by simp) (by simp)
  | other deployments jobs => exact effect_none deployments jobs

/-! ### Runs -/

/-- The timestamps of a service: the one it starts with, and those written to it. -/
def timestamps (start : Database) (id : String) (es : List Event) : List Int :=
  ((start.services.get? id).map (·.updatedAt)).toList ++ es.filterMap (·.written id)

def finalizations (id : String) (es : List Event) : Nat := es.countP fun e => e.finalized = some id

structure Tracked (start : Database) (id : String) (es : List Event) (db : Database) : Prop where
  last : ∀ row, db.services.get? id = some row → (timestamps start id es).getLast? = some row.updatedAt
  held : ∀ lease ∈ db.held, lease.id = id → ∃ es₁ e es₂, es = es₁ ++ e :: es₂ ∧ e.granted = some lease ∧
    e.written id = some lease.claimedAt
  once : finalizations id es ≤ 1
  gone : 0 < finalizations id es → db.services.get? id = none

theorem timestamps_snoc (start : Database) (id : String) (es : List Event) (e : Event) :
    timestamps start id (es ++ [e]) = timestamps start id es ++ (e.written id).toList := by
  unfold timestamps
  rw [List.filterMap_append, List.append_assoc]
  congr 2

theorem finalizations_snoc (id : String) (es : List Event) (e : Event) :
    finalizations id (es ++ [e]) = finalizations id es + if e.finalized = some id then 1 else 0 := by
  simp [finalizations, List.countP_append, List.countP_singleton]

theorem Effect.tracked {start : Database} (h : Effect id db e db') (ht : Tracked start id es db) :
    Tracked start id (es ++ [e]) db' where
  last := by
    intro row hrow
    rw [timestamps_snoc]
    rcases h.row row hrow with ⟨hwritten, hbefore⟩ | hwritten
    · rw [hwritten, Option.toList_none, List.append_nil]
      exact ht.last row hbefore
    · rw [hwritten, Option.toList_some, List.getLast?_concat]
  held := by
    intro lease hlease hid
    rcases h.granted lease hlease hid with hbefore | ⟨hgranted, hwritten⟩
    · obtain ⟨es₁, e₀, es₂, rfl, hgranted, hwritten⟩ := ht.held lease hbefore hid
      exact ⟨es₁, e₀, es₂ ++ [e], by simp, hgranted, hwritten⟩
    · exact ⟨es, e, [], rfl, hgranted, hwritten⟩
  once := by
    rw [finalizations_snoc]
    split
    · rename_i hfinal
      have hzero : ¬ 0 < finalizations id es := fun hpos => (h.finalized hfinal).2.1 (ht.gone hpos)
      omega
    · exact ht.once
  gone := by
    rw [finalizations_snoc]
    intro hpos
    by_cases hfinal : e.finalized = some id
    · exact (h.finalized hfinal).2.2
    · rw [if_neg hfinal] at hpos
      exact h.gone (ht.gone hpos)

theorem run_tracked {start : Database} (h : Run (Step collation) start es db) (hheld : start.held = [])
    (id : String) : Tracked start id es db := by
  refine h.history (fun es db e db' ht hstep => (step_effect hstep id).tracked ht) ?_
  exact {
    last := by
      intro row hrow
      simp [timestamps, hrow]
    held := by simp [hheld]
    once := Nat.zero_le _
    gone := by simp [finalizations] }

/-- A lease whose time the row shows was granted by the last event that wrote the row. -/
theorem Tracked.last_writer {start : Database} (ht : Tracked start id es db)
    (hdistinct : (timestamps start id es).Nodup) (hlease : lease ∈ db.held) (hid : lease.id = id) {row : ServiceRow}
    (hrow : db.services.get? id = some row)
    (htime : row.updatedAt = lease.claimedAt) :
    ∃ es₁ e es₂, es = es₁ ++ e :: es₂ ∧ e.granted = some lease ∧ ∀ e' ∈ es₂, e'.written id = none := by
  obtain ⟨es₁, e, es₂, rfl, hgranted, hwritten⟩ := ht.held lease hlease hid
  refine ⟨es₁, e, es₂, rfl, hgranted, ?_⟩
  have hsplit : timestamps start id (es₁ ++ e :: es₂) =
      timestamps start id es₁ ++ lease.claimedAt :: es₂.filterMap (·.written id) := by
    simp [timestamps, hwritten]
  have hlast := ht.last row hrow
  rw [hsplit, htime] at hlast
  rw [hsplit] at hdistinct
  have hnotin := (List.nodup_cons.1 (List.nodup_append.1 hdistinct).2.1).1
  rcases List.eq_nil_or_concat (es₂.filterMap (·.written id)) with hnone | ⟨front, time, hconcat⟩
  · exact List.filterMap_eq_nil_iff.1 hnone
  · -- were anything written since, the time of the lease would be in the list twice
    rw [hconcat] at hlast hnotin
    simp only [List.concat_eq_append, ← List.cons_append, ← List.append_assoc, List.getLast?_concat,
      Option.some.injEq] at hlast
    simp [hlast] at hnotin

theorem run_gone (h : Run (Step collation) db es db') (hgone : db.services.get? id = none) :
    db'.services.get? id = none :=
  h.invariant (I := fun db => db.services.get? id = none)
    (fun _ _ _ hgone hstep => (step_effect hstep id).gone hgone) hgone

/-- **Leases on the deletion of a service are exclusive.**  After any run in which the timestamps of the service are
distinct: a renewal, release or finalization succeeds only with the lease that the last event that wrote the row has
returned, a finalization only if no deployment blocks it, and there is at most one; a service that left the table
stays away. -/
theorem deletion_leases_exclusive {start : Database} (hheld : start.held = []) (h : Run (Step collation) start es db)
    (id : String) (hdistinct : (timestamps start id es).Nodup) :
    (∀ e db' lease, Step collation db e db' → e.used = some lease → lease.id = id →
      ∃ es₁ e' es₂, es = es₁ ++ e' :: es₂ ∧ e'.granted = some lease ∧ ∀ e'' ∈ es₂, e''.written id = none) ∧
    (∀ e db', Step collation db e db' → e.finalized = some id → ∀ row ∈ db.deployments, row.blocks id = false) ∧
    finalizations id es ≤ 1 ∧
    (db.services.get? id = none → ∀ es' db', Run (Step collation) db es' db' → db'.services.get? id = none) := by
  have ht := run_tracked h hheld id
  refine ⟨?_, fun e db' hstep hfinal => ((step_effect hstep id).finalized hfinal).1, ht.once,
    fun hgone es' db' hrun => run_gone hrun hgone⟩
  intro e db' lease hstep hused hid
  obtain ⟨hlease, row, hrow, htime⟩ := (step_effect hstep id).used lease hused hid
  exact ht.last_writer hdistinct hlease hid hrow htime

end Runs

namespace Sample

def start : Database where
  services := ⟨[⟨"svc", "prj", "DELETE_REQUESTED", some 4, 1, 5⟩], List.nodup_singleton _⟩
  deployments := [⟨"svc", "READY", none⟩, ⟨"other", "QUEUED", none⟩]
  jobs := []
  held := []

def claimed : Event × Database :=
  exec (fun _ _ => true) start (.claimNextServiceDeletion ⟨0, some 10⟩ 10 fun _ => false)

def lease : DeletionLease := ⟨"svc", 10⟩

def finalized : Event × Database := exec (fun _ _ => true) claimed.2 (.finalizeServiceDeletion lease 20)

end Sample

open Sample in
theorem deletion_leases_exclusive_sample :
    finalized.1.finalized = some "svc" ∧
      ∃ es₁ e es₂, [claimed.1] = es₁ ++ e :: es₂ ∧ e.granted = some lease ∧ ∀ e' ∈ es₂, e'.written "svc" = none := by
  have hrun : Run (Step fun _ _ => true) start [claimed.1] claimed.2 :=
    .single ⟨.claimNextServiceDeletion ⟨0, some 10⟩ 10 fun _ => false, trivial, rfl⟩
  have hlease : lease ∈ claimed.2.held := by decide
  have hstep : Step (fun _ _ => true) claimed.2 finalized.1 finalized.2 :=
    ⟨.finalizeServiceDeletion lease 20, hlease, rfl⟩
  have hdistinct : (timestamps start "svc" [claimed.1]).Nodup := by decide
  exact ⟨by decide, (deletion_leases_exclusive rfl hrun "svc" hdistinct).1 _ _ lease hstep (by decide) rfl⟩

end RaibitServer.Orchestrator.Deletion
