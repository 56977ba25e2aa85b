import RaibitServer.Preview.Idempotency
import RaibitServer.Preview.MemoryStore

/-!
# Preview.Redeploy — what a redeploy starts from

A redeploy takes the newest deployment of its service that failed or is ready.  Previews are among them, and
so are deployments without a snapshot or without a commit: if such a one is the newest, the operation fails
or makes another preview, whatever production deployments there are (`redeploy_iff`).  Both repositories are
modelled, that of Prisma (`createDeploymentOperation`) and that of the memory store.
-/

namespace RaibitServer.Preview

open Lib Core

/-! ### The newest row -/

section Newest

variable {before : DeploymentRow → DeploymentRow → Bool} {rows : List DeploymentRow} {row : DeploymentRow}

/-- An order of rows in which two rows of a table never tie. -/
structure Chronology (before : DeploymentRow → DeploymentRow → Bool) : Prop where
  total : ∀ a b, before a b = true ∨ before b a = true
  trans : ∀ a b c, before a b = true → before b c = true → before a c = true
  anti : ∀ a b, before a b = true → before b a = true → a.id = b.id

theorem Chronology.newestBy_max (hbefore : Chronology before) (h : newestBy before rows = some row) :
    ∀ other ∈ rows, before other row = true := by
  induction rows generalizing row with
  | nil => cases h
  | cons first rows ih =>
    have hrefl : ∀ a, before a a = true := fun a => (hbefore.total a a).elim id id
    unfold newestBy at h
    cases hrest : newestBy before rows with
    | none =>
      rw [hrest] at h
      obtain rfl := Option.some.inj h
      cases rows with
      | nil => exact fun other hother => List.mem_singleton.1 hother ▸ hrefl other
      | cons second rows =>
        unfold newestBy at hrest
        split at hrest
        · cases hrest
        · split_ifs at hrest
    | some other =>
      have hmax := ih hrest
      simp only [hrest] at h
      split_ifs at h with hlater
      · obtain rfl := Option.some.inj h
        intro x hx
        rcases List.mem_cons.1 hx with rfl | hx
        · exact hrefl x
        · exact hbefore.trans _ _ _ (hmax x hx) hlater
      · obtain rfl := Option.some.inj h
        intro x hx
        rcases List.mem_cons.1 hx with rfl | hx
        · exact (hbefore.total x other).resolve_right hlater
        · exact hmax x hx

theorem newestBy_isSome (h : row ∈ rows) : ∃ newest, newestBy before rows = some newest := by
  cases rows with
  | nil => cases h
  | cons first rows =>
    unfold newestBy
    split
    · exact ⟨_, rfl⟩
    · split_ifs <;> exact ⟨_, rfl⟩

/-- The newest of some rows of a table is the newest of fewer, if it is one of them. -/
theorem Chronology.newestBy_select (hbefore : Chronology before) {table : Keyed DeploymentRow.id}
    {p q : DeploymentRow → Bool} (hsub : ∀ r, q r = true → p r = true)
    (h : newestBy before (table.select p) = some row) (hrow : q row = true) :
    newestBy before (table.select q) = some row := by
  have hknown := (List.mem_filter.1 (newestBy_mem h)).1
  have hin : row ∈ table.select q := List.mem_filter.2 ⟨hknown, hrow⟩
  obtain ⟨other, hother⟩ := @newestBy_isSome before _ _ hin
  obtain ⟨hoknown, hoq⟩ := List.mem_filter.1 (newestBy_mem hother)
  have hlater := hbefore.newestBy_max h other (List.mem_filter.2 ⟨hoknown, hsub other hoq⟩)
  rw [hother, Keyed.eq_of_key hoknown hknown (hbefore.anti other row hlater (hbefore.newestBy_max hother row hin))]

end Newest

/-- By the time, then by an order of the ids. -/
theorem chronology_of {le : String → String → Bool} (htotal : ∀ a b, le a b = true ∨ le b a = true)
    (htrans : ∀ a b c, le a b = true → le b c = true → le a c = true)
    (hanti : ∀ a b, le a b = true → le b a = true → a = b) :
    Chronology fun a b => a.createdAt < b.createdAt || (a.createdAt = b.createdAt && le a.id b.id) where
  total a b := by
    simp only [Bool.or_eq_true, Bool.and_eq_true, decide_eq_true_eq]
    rcases lt_trichotomy a.createdAt b.createdAt with h | h | h
    · exact .inl (.inl h)
    · exact (htotal a.id b.id).imp (fun hid => .inr ⟨h, hid⟩) fun hid => .inr ⟨h.symm, hid⟩
    · exact .inr (.inl h)
  trans a b c := by
    simp only [Bool.or_eq_true, Bool.and_eq_true, decide_eq_true_eq]
    rintro (hab | ⟨hab, hid⟩) (hbc | ⟨hbc, hid'⟩)
    · exact .inl (hab.trans hbc)
    · exact .inl (hbc ▸ hab)
    · exact .inl (hab ▸ hbc)
    · exact .inr ⟨hab.trans hbc, htrans _ _ _ hid hid'⟩
  anti a b := by
    simp only [Bool.or_eq_true, Bool.and_eq_true, decide_eq_true_eq]
    rintro (hab | ⟨hab, hid⟩) (hba | ⟨hba, hid'⟩)
    · exact absurd hba (lt_asymm hab)
    · exact absurd hab (by rw [hba]; exact lt_irrefl _)
    · exact absurd hba (by rw [hab]; exact lt_irrefl _)
    · exact hanti _ _ hid hid'

theorem createdBefore_chronology : Chronology createdBefore := by
  refine @chronology_of (fun a b => decide (a ≤ b)) (fun a b => ?_) (fun a b c => ?_) fun a b => ?_
  · simpa only [decide_eq_true_eq] using String.le_total a b
  · simpa only [decide_eq_true_eq] using String.le_trans
  · simpa only [decide_eq_true_eq] using String.le_antisymm

/-! ### Production deployments -/

def eligibleStatuses : List String := ["BUILD_FAILED", "FAILED", "READY"]

def eligibleRow (input : DeploymentOperation) (row : DeploymentRow) : Bool :=
  row.serviceId = input.serviceId && eligibleStatuses.contains row.status

/-- A version-1 snapshot from which a successor can be made: its commit or its image is pinned. -/
def usableSnapshot (row : DeploymentRow) : Bool :=
  row.snapshotVersion = some 1 && row.desiredSpecSnapshot.any fun snapshot =>
    (successorCommit row (sourceKind row snapshot)).isOk && (successorImage row (sourceKind row snapshot)).isOk

/-- Types are stored as `production` or `PRODUCTION`. -/
def usableProduction (input : DeploymentOperation) (row : DeploymentRow) : Bool :=
  eligibleRow input row && Text.jsLower row.deploymentType = "production" && usableSnapshot row

/-- The successor is a production deployment made from the newest usable one. -/
def FromProduction (newestProduction : Option DeploymentRow) (deployments : Keyed DeploymentRow.id)
    (deploymentId : String) : Prop :=
  ∃ source successor, newestProduction = some source ∧ deployments.get? deploymentId = some successor ∧
    Text.jsLower successor.deploymentType = "production" ∧ successor.sourceDeploymentId = some source.id

variable {input : DeploymentOperation} {draws : OperationDraws} {row : DeploymentRow}

theorem usableProduction_eligible (h : usableProduction input row = true) : eligibleRow input row = true :=
  (Bool.and_eq_true_iff.1 (Bool.and_eq_true_iff.1 h).1).1

theorem normalize_eligible {status : String} (h : eligibleStatuses.contains status = true) :
    normalizeDeploymentStatus status = .ok status := by
  have hall : ∀ status ∈ eligibleStatuses, normalizeDeploymentStatus status = .ok status := by decide +kernel
  exact hall status (List.contains_iff_mem.1 h)

/-- An eligible row has a successor just if its snapshot is usable. -/
theorem deploymentSuccessor_redeploy (hoperation : input.operation = .redeploy) (hversion : input.snapshotVersion = 1)
    (heligible : eligibleRow input row = true) :
    (∃ candidate, deploymentSuccessor draws (some row) input = .ok candidate) ↔ usableSnapshot row = true := by
  simp only [eligibleRow, Bool.and_eq_true, decide_eq_true_eq] at heligible
  constructor
  · rintro ⟨candidate, h⟩
    obtain ⟨found, status, snapshot, commit, image, hfound, -, -, -, hsnapshot, hcommit, himage, -⟩ :=
      deploymentSuccessor_ok.1 h
    obtain rfl := Option.some.inj hfound
    obtain ⟨hone, hdesired, -⟩ := snapshotOf_ok.1 hsnapshot
    simp only [usableSnapshot, hone, hdesired, hcommit, himage, Option.any_some]
    rfl
  · intro husable
    simp only [usableSnapshot, Bool.and_eq_true, decide_eq_true_eq, Option.any_eq_true, isOk_iff] at husable
    obtain ⟨hone, snapshot, hdesired, ⟨commit, hcommit⟩, image, himage⟩ := husable
    refine ⟨_, deploymentSuccessor_ok.2 ⟨row, row.status, snapshot, commit, image, rfl, heligible.1,
      normalize_eligible heligible.2, ?_, snapshotOf_ok.2 ⟨hone, hdesired, hversion⟩, hcommit, himage, rfl⟩⟩
    rw [hoperation]
    exact List.contains_iff_mem.1 heligible.2

theorem successor_fields {candidate : DeploymentRow} (h : deploymentSuccessor draws (some row) input = .ok candidate) :
    candidate.id = "dep_" ++ draws.uuid ∧ candidate.status = "queued" ∧ candidate.sourceDeploymentId = some row.id ∧
      candidate.deploymentType = row.deploymentType ∧ candidate.previewLineageId = row.previewLineageId ∧
      candidate.previewGeneration = row.previewGeneration ∧ candidate.previewRuntime = row.previewRuntime := by
  obtain ⟨found, status, snapshot, commit, image, hfound, -, -, -, -, -, -, rfl⟩ := deploymentSuccessor_ok.1 h
  obtain rfl := Option.some.inj hfound
  exact ⟨rfl, rfl, rfl, rfl, rfl, rfl, rfl⟩

theorem any_active {rows : List DeploymentRow} (hidle : ∀ row ∈ rows, row.serviceId = input.serviceId →
    terminalDeploymentStatuses.contains row.status = true) :
    (rows.any fun row => row.serviceId = input.serviceId && !terminalDeploymentStatuses.contains row.status) = false := by
  rw [List.any_eq_false]
  intro row hrow hboth
  rw [Bool.and_eq_true, decide_eq_true_eq] at hboth
  rw [hidle row hrow hboth.1] at hboth
  cases hboth.2

/-! ### The Prisma repository -/

section Prisma

variable {host : OperationHost} {db db' : PreviewDb}

/-- A state and a request in which only the source can be wrong: the service is active and idle, the actor
has quota, the key and the ids drawn are new, and the rows pass the check of their table. -/
structure Serviceable (host : OperationHost) (draws : OperationDraws) (db : PreviewDb) (input : DeploymentOperation) :
    Prop where
  unused : usedKey db input = none
  service : ∃ service, (db.services.find? fun service => service.id = input.serviceId) = some service ∧
    Resources.isDeleting service.status = false ∧ Resources.isDeleting service.projectStatus = false
  idle : ∀ row ∈ db.deployments.rows, row.serviceId = input.serviceId →
    terminalDeploymentStatuses.contains row.status = true
  quota : ∀ db deploymentType, host.enforcePrismaQuotaRequirements db
    (if input.requestedByUserId = "system" then none else some input.requestedByUserId) deploymentType = .ok ()
  fresh : "dep_" ++ draws.uuid ∉ db.deployments.keys ∧ draws.jobId ∉ db.jobs.keys
  checked : ∀ row ∈ db.deployments.rows, previewIdentityCheck row = true

/-- A redeploy that should go through: there is a usable production deployment. -/
structure Redeployable (host : OperationHost) (draws : OperationDraws) (db : PreviewDb) (input : DeploymentOperation) :
    Prop extends Serviceable host draws db input where
  operation : input.operation = .redeploy
  version : input.snapshotVersion = 1
  production : ∃ row ∈ db.deployments.rows, usableProduction input row = true

def Redeploys (host : OperationHost) (draws : OperationDraws) (db : PreviewDb) (input : DeploymentOperation) : Prop :=
  ∃ db' reply, createDeploymentOperation host draws db input = .ok (db', reply) ∧
    FromProduction (newest (db.deployments.select (usableProduction input))) db'.deployments reply.deploymentId

/-- The newest eligible deployment is a usable production deployment. -/
def newestIsProduction (db : PreviewDb) (input : DeploymentOperation) : Bool :=
  (newest (db.deployments.select (eligibleRow input))).any (usableProduction input)

theorem operationSource_redeploy (h : input.operation = .redeploy) :
    operationSource db input = newest (db.deployments.select (eligibleRow input)) := by
  unfold operationSource
  rw [h]
  rfl

/-- The table keeps all deployments but previews out of the lineages. -/
theorem lineage_of_plain (hcheck : previewIdentityCheck row = true) (htype : Text.jsLower row.deploymentType ≠ "preview") :
    row.previewLineageId = none ∧ row.previewGeneration = none ∧ row.previewRuntime = none := by
  unfold previewIdentityCheck at hcheck
  cases hlineage : row.previewLineageId with
  | none =>
    rw [hlineage] at hcheck
    simp only [Bool.and_eq_true, Option.isNone_iff_eq_none] at hcheck
    exact ⟨rfl, hcheck⟩
  | some lineageId =>
    rw [hlineage] at hcheck
    simp only [Bool.and_eq_true, decide_eq_true_eq] at hcheck
    exact absurd hcheck.1.2 htype

/-- Once its row can be inserted, a successor is enqueued. -/
theorem enqueueSuccessor_accepts (h : Serviceable host draws db input) {db₁ : PreviewDb} {service : ServiceRow}
    (hdeployments₁ : db₁.deployments = db.deployments) (hjobs₁ : db₁.jobs = db.jobs)
    (hstatus : Resources.isDeleting service.status = false)
    (hproject : Resources.isDeleting service.projectStatus = false) {candidate : DeploymentRow}
    {deployments : Keyed DeploymentRow.id} (hdeployments : db₁.deployments.insert? candidate = some deployments)
    (hinsert : insertDeployment db₁ candidate = .ok { db₁ with deployments }) :
    ∃ db', enqueueSuccessor host draws db₁ service candidate input = .ok db' ∧
      db'.deployments.get? candidate.id = some candidate := by
  have hactive := any_active (hdeployments₁ ▸ h.idle)
  obtain ⟨jobs, hjobs⟩ := Keyed.insert?_fresh (t := db₁.jobs) (a := successorJob draws candidate input) (hjobs₁ ▸ h.fresh.2)
  have hget : deployments.get? candidate.id = some candidate := by
    rw [Keyed.get?_insert? hdeployments, if_pos rfl]
  simp only [enqueueSuccessor, hactive, hstatus, hproject, h.quota, hinsert, createJob, hjobs, throwIf, orThrow, bind,
    Except.bind, pure, Except.pure, Bool.false_eq_true, if_false]
  cases candidate.previewLineageId with
  | none => exact ⟨_, rfl, hget⟩
  | some lineageId => exact ⟨_, rfl, hget⟩

/-- A source that is no preview is redeployed or retried, if it has a successor. -/
theorem Serviceable.accepts (h : Serviceable host draws db input) {candidate : DeploymentRow}
    (hselected : operationSource db input = some row)
    (hcandidate : deploymentSuccessor draws (some row) input = .ok candidate)
    (htype : Text.jsLower row.deploymentType ≠ "preview") :
    ∃ db', createDeploymentOperation host draws db input = .ok (db', ⟨candidate.id, draws.jobId, candidate.status⟩) ∧
      db'.deployments.get? candidate.id = some candidate := by
  obtain ⟨hid, -, -, -, hlineage, hgeneration, hruntime⟩ := successor_fields hcandidate
  obtain ⟨service, hfind, hactive, hproject⟩ := h.service
  have hplain := lineage_of_plain (h.checked row (operationSource_mem hselected)) htype
  rw [← hlineage, ← hgeneration, ← hruntime] at hplain
  obtain ⟨deployments, hdeployments⟩ := Keyed.insert?_fresh (t := db.deployments) (a := candidate) (hid ▸ h.fresh.1)
  have hcheck : previewIdentityCheck candidate = true := by
    unfold previewIdentityCheck
    rw [hplain.1, hplain.2.1, hplain.2.2]
    rfl
  have hinsert : insertDeployment db candidate = .ok { db with deployments } := by
    simp only [insertDeployment, hcheck, hplain.1, hdeployments, throwIf, orThrow, bind, Except.bind, pure, Except.pure,
      Bool.true_eq_false, if_false]
  obtain ⟨db', henqueue, hget⟩ := enqueueSuccessor_accepts h rfl rfl hactive hproject hdeployments hinsert
  have hretried : retriedLineage db (some row) = .ok none := by
    unfold retriedLineage
    rw [Option.filter_some, if_neg (by simpa using htype)]
  refine ⟨db', ?_, hget⟩
  unfold createDeploymentOperation
  rw [hfind, h.unused, hselected]
  simp only [orThrow, hretried, hcandidate, advanceCandidate, henqueue, bind, Except.bind, pure, Except.pure]

/-- A usable production deployment has a successor, which is a production deployment made from it. -/
theorem usableProduction_successor {row : DeploymentRow} (hoperation : input.operation = .redeploy)
    (hversion : input.snapshotVersion = 1) (husable : usableProduction input row = true) :
    ∃ candidate, deploymentSuccessor draws (some row) input = .ok candidate ∧
      Text.jsLower row.deploymentType = "production" ∧ Text.jsLower candidate.deploymentType = "production" ∧
      candidate.sourceDeploymentId = some row.id := by
  simp only [usableProduction, Bool.and_eq_true, decide_eq_true_eq] at husable
  obtain ⟨⟨heligible, htype⟩, hsnapshot⟩ := husable
  obtain ⟨candidate, hcandidate⟩ := (@deploymentSuccessor_redeploy input draws row hoperation hversion heligible).2
    hsnapshot
  obtain ⟨-, -, hsource, htype', -⟩ := successor_fields hcandidate
  exact ⟨candidate, hcandidate, htype, htype' ▸ htype, hsource⟩

theorem Redeployable.succeeds (h : Redeployable host draws db input) (hnewest : newestIsProduction db input = true) :
    Redeploys host draws db input := by
  obtain ⟨row, hrow, husable⟩ := (Option.any_eq_true _ _).1 hnewest
  obtain ⟨candidate, hcandidate, htype, htype', hsource⟩ := usableProduction_successor h.operation h.version husable
  obtain ⟨db', hcall, hget⟩ := h.accepts ((operationSource_redeploy h.operation).trans hrow) hcandidate
    (by rw [htype]; decide)
  refine ⟨db', _, hcall, row, candidate, ?_, hget, htype', hsource⟩
  exact createdBefore_chronology.newestBy_select (fun _ => usableProduction_eligible) hrow husable

theorem Redeploys.newest (h : Redeploys host draws db input) (hredeploy : Redeployable host draws db input) :
    newestIsProduction db input = true := by
  obtain ⟨db', reply, hcall, source, successor, hsource, hget, -, hfrom⟩ := h
  obtain ⟨row, candidate, made, hcreated, rfl⟩ := createDeploymentOperation_new hcall hredeploy.unused
  rw [Keyed.get?_insert? hcreated.deployments, if_pos rfl] at hget
  obtain rfl := Option.some.inj hget
  obtain ⟨-, -, -, hsame, -⟩ := hcreated.written.fields
  obtain ⟨-, -, hrow, -⟩ := successor_fields hcreated.derived
  have hid : row.id = source.id := Option.some.inj (hrow.symm.trans (hsame.symm.trans hfrom))
  obtain ⟨hmem, husable⟩ := List.mem_filter.1 (newestBy_mem hsource)
  have heq : row = source := Keyed.eq_of_key (operationSource_mem hcreated.selected) hmem hid
  have hselected := hcreated.selected
  rw [operationSource_redeploy hredeploy.operation, heq] at hselected
  unfold newestIsProduction
  rw [hselected]
  exact husable

end Prisma

/-! ### The memory repository -/

section Memory

/-- The comparison of two ids with `localeCompare`, and the quota. -/
structure MemoryOperationHost where
  localeLe : String → String → Bool
  localeLe_total : ∀ a b, localeLe a b = true ∨ localeLe b a = true
  localeLe_trans : ∀ a b c, localeLe a b = true → localeLe b c = true → localeLe a c = true
  localeLe_antisymm : ∀ a b, localeLe a b = true → localeLe b a = true → a = b
  enforceUserCan : MemoryStore → Option String → String → Except TxError Unit

def memoryBefore (host : MemoryOperationHost) (a b : DeploymentRow) : Bool :=
  a.createdAt < b.createdAt || (a.createdAt = b.createdAt && host.localeLe a.id b.id)

/-- `rows.filter(eligibleDeploymentSource)`. -/
def eligibleRows : List DeploymentRow → Except TxError (List DeploymentRow) :=
  filterThrows fun row => return eligibleStatuses.contains (← normalizeDeploymentStatus row.status)

def memorySource (host : MemoryOperationHost) (store : MemoryStore) (input : DeploymentOperation) :
    Except TxError (Option DeploymentRow) :=
  match input.operation with
  | .retry => .ok (store.deployments.get? (input.sourceDeploymentId.getD ""))
  | .redeploy => do
    let rows ← eligibleRows (store.deployments.select fun row => row.serviceId = input.serviceId)
    return newestBy (memoryBefore host) rows

/-- `createDeployment` of a successor. -/
def memoryDeployment (service : MemoryService) (candidate : DeploymentRow) : DeploymentRow :=
  let sha := Text.jsOr candidate.commitSha candidate.commitHash
  { candidate with
    projectId := Text.jsOr candidate.projectId service.projectId
    commitHash := Text.jsOr candidate.commitHash sha
    commitSha := sha }

def createMemoryOperation (host : MemoryOperationHost) (draws : OperationDraws) (store : MemoryStore)
    (input : DeploymentOperation) : Except TxError (MemoryStore × OperationReply) := do
  let service ← orThrow (store.services.find? fun service => service.id = input.serviceId)
    (operationError "DEPLOYMENT_SOURCE_NOT_FOUND" 404)
  match store.deployments.rows.find? fun row => row.serviceId = input.serviceId &&
      row.requestIdempotencyKey = some input.requestIdempotencyKey with
  | some existing => do
    let job ← orThrow (store.workflowJobs.find? fun job => job.targetId = existing.id && job.targetType = "deployment")
      (operationError "LINEAGE_JOB_MISSING" 409)
    assertOperationReplay input job.payload
    return (store, ⟨existing.id, job.id, existing.status⟩)
  | none => do
    let source ← memorySource host store input
    let candidate ← deploymentSuccessor draws source input
    throwIf ((store.deployments.rows.any fun row => row.serviceId = input.serviceId &&
      !terminalDeploymentStatuses.contains row.status) = true) (operationError "ACTIVE_DEPLOYMENT" 409)
    throwIf (Resources.isDeleting service.status = true) (.thrown ⟨"service is being deleted", 409⟩)
    let project ← orThrow (store.projects.get? service.projectId) (operationError "DEPLOYMENT_SOURCE_NOT_FOUND" 404)
    throwIf (Resources.isDeleting project.status = true) (.thrown ⟨"project is being deleted", 409⟩)
    host.enforceUserCan store (if input.requestedByUserId = "system" then none else some input.requestedByUserId)
      candidate.deploymentType
    let deployment := memoryDeployment service candidate
    return (enqueueWorkflowJob (setDeployment store deployment) (successorJob draws candidate input),
      ⟨deployment.id, draws.jobId, deployment.status⟩)

variable {host : MemoryOperationHost} {store : MemoryStore}

theorem memoryBefore_chronology (host : MemoryOperationHost) : Chronology (memoryBefore host) :=
  chronology_of host.localeLe_total host.localeLe_trans host.localeLe_antisymm

/-- A redeploy that should go through, as for the other repository; statuses are stored normalized. -/
structure MemoryRedeployable (host : MemoryOperationHost) (store : MemoryStore) (input : DeploymentOperation) :
    Prop where
  operation : input.operation = .redeploy
  version : input.snapshotVersion = 1
  unused : (store.deployments.rows.find? fun row => row.serviceId = input.serviceId &&
    row.requestIdempotencyKey = some input.requestIdempotencyKey) = none
  service : ∃ service project, (store.services.find? fun service => service.id = input.serviceId) = some service ∧
    Resources.isDeleting service.status = false ∧ store.projects.get? service.projectId = some project ∧
    Resources.isDeleting project.status = false
  idle : ∀ row ∈ store.deployments.rows, row.serviceId = input.serviceId →
    terminalDeploymentStatuses.contains row.status = true
  normalized : ∀ row ∈ store.deployments.rows, row.serviceId = input.serviceId →
    normalizeDeploymentStatus row.status = .ok row.status
  quota : ∀ deploymentType, Text.jsLower deploymentType = "production" → host.enforceUserCan store
    (if input.requestedByUserId = "system" then none else some input.requestedByUserId) deploymentType = .ok ()
  production : ∃ row ∈ store.deployments.rows, usableProduction input row = true

def MemoryRedeploys (host : MemoryOperationHost) (draws : OperationDraws) (store : MemoryStore)
    (input : DeploymentOperation) : Prop :=
  ∃ store' reply, createMemoryOperation host draws store input = .ok (store', reply) ∧
    FromProduction (newestBy (memoryBefore host) (store.deployments.select (usableProduction input)))
      store'.deployments reply.deploymentId

def memoryNewestIsProduction (host : MemoryOperationHost) (store : MemoryStore) (input : DeploymentOperation) : Bool :=
  (newestBy (memoryBefore host) (store.deployments.select (eligibleRow input))).any (usableProduction input)

theorem MemoryRedeployable.source (h : MemoryRedeployable host store input) :
    memorySource host store input = .ok (newestBy (memoryBefore host) (store.deployments.select (eligibleRow input))) := by
  have hstatus : ∀ row ∈ store.deployments.select fun row => row.serviceId = input.serviceId,
      (return eligibleStatuses.contains (← normalizeDeploymentStatus row.status) : Except TxError Bool) =
        .ok (eligibleStatuses.contains row.status) := by
    intro row hrow
    obtain ⟨hmem, hservice⟩ := List.mem_filter.1 hrow
    rw [h.normalized row hmem (of_decide_eq_true hservice)]
    rfl
  have hrows := filterThrows_eq hstatus
  have hboth : (store.deployments.select fun row => row.serviceId = input.serviceId).filter
      (fun row => eligibleStatuses.contains row.status) = store.deployments.select (eligibleRow input) := by
    unfold Keyed.select
    rw [List.filter_filter]
    exact List.filter_congr fun row _ => Bool.and_comm _ _
  unfold memorySource eligibleRows
  rw [h.operation, hrows, hboth]
  rfl

/-- The call, once its source is known. -/
theorem MemoryRedeployable.call (h : MemoryRedeployable host store input) : ∃ service,
    createMemoryOperation host draws store input =
      (deploymentSuccessor draws (newestBy (memoryBefore host) (store.deployments.select (eligibleRow input))) input).bind
        fun candidate => (host.enforceUserCan store
          (if input.requestedByUserId = "system" then none else some input.requestedByUserId)
          candidate.deploymentType).bind fun _ =>
        .ok (enqueueWorkflowJob (setDeployment store (memoryDeployment service candidate))
          (successorJob draws candidate input), ⟨candidate.id, draws.jobId, candidate.status⟩) := by
  obtain ⟨service, project, hfind, hactive, hproject, hproject'⟩ := h.service
  have hidle := any_active h.idle
  refine ⟨service, ?_⟩
  unfold createMemoryOperation
  rw [hfind, h.unused]
  simp only [orThrow, h.source, hidle, hactive, hproject, hproject', throwIf, bind, Except.bind, pure, Except.pure,
    Bool.false_eq_true, if_false]
  rfl

theorem memory_redeploy_iff (h : MemoryRedeployable host store input) :
    MemoryRedeploys host draws store input ↔ memoryNewestIsProduction host store input = true := by
  obtain ⟨service, hcall⟩ := @MemoryRedeployable.call input draws host store h
  constructor
  · rintro ⟨store', reply, hok, source, successor, hsource, hget, -, hfrom⟩
    rw [hcall] at hok
    obtain ⟨candidate, hcandidate, hok⟩ := bind_ok.1 hok
    obtain ⟨_, -, hok⟩ := bind_ok.1 hok
    obtain ⟨rfl, rfl⟩ := Prod.mk.inj (Except.ok.inj hok)
    obtain ⟨row, -, -, -, -, hrow, -⟩ := deploymentSuccessor_ok.1 hcandidate
    rw [hrow] at hcandidate
    obtain ⟨-, -, hrow', -⟩ := successor_fields hcandidate
    have hput : (store.deployments.put (memoryDeployment service candidate)).get? candidate.id = some successor := hget
    rw [show candidate.id = (memoryDeployment service candidate).id from rfl, Keyed.get?_put_self] at hput
    obtain rfl := Option.some.inj hput
    have hid : row.id = source.id := Option.some.inj (hrow'.symm.trans hfrom)
    obtain ⟨hmem, husable⟩ := List.mem_filter.1 (newestBy_mem hsource)
    have hknown := (List.mem_filter.1 (newestBy_mem hrow)).1
    unfold memoryNewestIsProduction
    rw [hrow, Keyed.eq_of_key hknown hmem hid]
    exact husable
  · intro hnewest
    obtain ⟨row, hrow, husable⟩ := (Option.any_eq_true _ _).1 hnewest
    obtain ⟨candidate, hcandidate, htype, htype', hsource⟩ := usableProduction_successor h.operation h.version husable
    refine ⟨enqueueWorkflowJob (setDeployment store (memoryDeployment service candidate))
      (successorJob draws candidate input), ⟨candidate.id, draws.jobId, candidate.status⟩, ?_, row,
      memoryDeployment service candidate,
      (memoryBefore_chronology host).newestBy_select (fun _ => usableProduction_eligible) hrow husable,
      Keyed.get?_put_self, htype', hsource⟩
    rw [hcall, hrow, hcandidate]
    simp only [Except.bind, h.quota _ htype']

end Memory

/-- **A redeploy starts from the newest usable production deployment just if no other eligible deployment
is newer.** -/
theorem redeploy_iff :
    (∀ host db, Redeployable host draws db input →
      (Redeploys host draws db input ↔ newestIsProduction db input = true)) ∧
    (∀ host store, MemoryRedeployable host store input →
      (MemoryRedeploys host draws store input ↔ memoryNewestIsProduction host store input = true)) :=
  ⟨fun _ _ h => ⟨fun hredeploys => hredeploys.newest h, h.succeeds⟩, fun _ _ h => memory_redeploy_iff h⟩

/-! ### A service with a preview -/

namespace Redeployed

def memory : MemoryOperationHost :=
  { localeLe := fun a b => decide (a ≤ b)
    localeLe_total := by simpa only [decide_eq_true_eq] using String.le_total
    localeLe_trans := by simpa only [decide_eq_true_eq] using fun _ _ _ => String.le_trans
    localeLe_antisymm := by simpa only [decide_eq_true_eq] using fun _ _ => String.le_antisymm
    enforceUserCan := fun _ _ _ => .ok () }

def productionRow : DeploymentRow := { Retried.failedRow with status := "READY", deploymentType := "PRODUCTION" }

/-- A preview that was deployed by hand, later. -/
def previewRow : DeploymentRow := { productionRow with id := "dep_2", deploymentType := "preview", createdAt := 1 }

def tables (deployments : Keyed DeploymentRow.id) : PreviewDb := { Retried.tables with deployments }

def store : MemoryStore :=
  { webhookEvents := Keyed.empty, projects := Keyed.empty.put { id := "project", organizationId := "org" }
    services := [{ id := "service", projectId := "project" }], githubRepositories := []
    previewLineages := Keyed.empty, deployments := Keyed.empty.put productionRow, workflowJobs := [] }

def request : DeploymentOperation :=
  { operation := .redeploy, requestIdempotencyKey := "key", snapshotVersion := 1, serviceId := "service"
    sourceDeploymentId := none, requestedByUserId := "user" }

def drawn : OperationDraws := { now := 2, uuid := "3", jobId := "job" }

theorem usable : usableProduction request productionRow = true := by decide +kernel

end Redeployed

open Redeployed in
/-- The newest deployment is a preview, and the service cannot be redeployed. -/
theorem redeploy_behind_preview : ∃ deployments,
    Redeployable Retried.platform drawn (tables deployments) request ∧
      ¬ Redeploys Retried.platform drawn (tables deployments) request := by
  have hredeploy : Redeployable Retried.platform drawn
      (tables ((Keyed.empty.put productionRow).put previewRow)) request :=
    { operation := rfl, version := rfl, unused := by decide, service := ⟨_, rfl, by decide, by decide⟩
      idle := by decide, quota := fun _ _ => rfl, fresh := by decide, checked := by decide
      production := ⟨productionRow, by decide, usable⟩ }
  refine ⟨_, hredeploy, fun hredeploys => ?_⟩
  exact absurd (hredeploys.newest hredeploy) (by decide +kernel)

open Redeployed in
theorem redeploy_iff_production :
    Redeploys Retried.platform drawn (tables (Keyed.empty.put productionRow))
      request ∧
    MemoryRedeploys memory drawn store request := by
  refine ⟨(redeploy_iff.1 _ _ ?_).2 (by decide +kernel), (redeploy_iff.2 _ _ ?_).2 (by decide +kernel)⟩
  · exact { operation := rfl, version := rfl, unused := by decide, service := ⟨_, rfl, by decide, by decide⟩
            idle := by decide, quota := fun _ _ => rfl, fresh := by decide, checked := by decide
            production := ⟨productionRow, by decide, usable⟩ }
  · exact { operation := rfl, version := rfl, unused := by decide
            service := ⟨_, { id := "project", organizationId := "org" }, rfl, by decide, rfl, by decide⟩
            idle := by decide, normalized := by decide +kernel, quota := fun _ _ => rfl
            production := ⟨productionRow, by decide, usable⟩ }

end RaibitServer.Preview
