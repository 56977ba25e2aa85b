import RaibitServer.Core.Deployments
import RaibitServer.Deployments.Rollback
import RaibitServer.Preview.Closing
import RaibitServer.Preview.Redeploy

/-!
# Deployments.History — the actions of the history page

`deployment-history.ts` decides for every row which action the page offers; the repository decides again when
the action is called.  A cancellation and a rollback that are offered are accepted.  A retry is offered without
a look at the lineage of a preview, and a redeploy is offered from the newest deployment that can be replayed,
whereas the repository takes the newest that failed or is ready.  `history_offers_iff` is the exact condition.
-/

namespace RaibitServer.Deployments.History

open Lib Core Preview

abbrev Row := Preview.DeploymentRow

/-! ### `deployment-history.ts` -/

section Page

variable (localeCompare : String → String → Ordering)

/-- `comparePosition` at most, and below, zero. -/
def positionLe (a b : Row) : Bool :=
  a.createdAt < b.createdAt || (a.createdAt = b.createdAt && (localeCompare a.id b.id).isLE)

def positionLt (a b : Row) : Bool :=
  a.createdAt < b.createdAt || (a.createdAt = b.createdAt && (localeCompare a.id b.id).isLT)

def positiveInteger (value : Option Nat) : Option Nat := value.filter fun n => 0 < n

inductive ActionType
  | retry
  | redeploy
  | cancel
  | rollback
  deriving DecidableEq, Repr

structure HistoryAction where
  type : ActionType
  targetId : String
  href : String
  snapshotVersion : Option Nat
  deriving DecidableEq, Repr

def canCancelDeployment (status : String) : Except TxError Bool := do
  let status ← normalizeDeploymentStatus status
  return (deploymentNext status).contains "CANCELLED"

def isDeploymentTerminal (status : String) : Except TxError Bool := do
  let status ← normalizeDeploymentStatus status
  return (deploymentMachine.states.lookup status).any LifecycleState.terminal

/-- `serviceRows.some(candidate => candidate.id !== row.id && !isDeploymentTerminal(candidate.status))`. -/
def anotherActive (id : String) : List Row → Except TxError Bool
  | [] => .ok false
  | candidate :: rest =>
    if candidate.id = id then anotherActive id rest
    else do
      let terminal ← isDeploymentTerminal candidate.status
      if terminal then anotherActive id rest else return true

def historyOperation (source : Row) (operation : OperationKind) (snapshotVersion : Nat) : DeploymentOperation :=
  { operation, requestIdempotencyKey := "history", snapshotVersion, serviceId := source.serviceId
    sourceDeploymentId := some source.id, requestedByUserId := "history" }

/-- An error that is no `DeploymentOperationError`, which is that of a status, is thrown again. -/
def canReplay (source : Row) (operation : OperationKind) : Except TxError Bool :=
  match positiveInteger source.snapshotVersion with
  | none => .ok false
  | some version => match deploymentSuccessor ⟨0, "", "", 0⟩ (some source) (historyOperation source operation version) with
    | .ok _ => .ok true
    | .error (.thrown e) => if e.statusCode = 500 then .error (.thrown e) else .ok false
    | .error e => .error e

def retryableStatuses : List String := ["BUILD_FAILED", "FAILED"]

/-- `retryReason` for an actor that may execute. -/
def retryReason (row : Row) (rows : List Row) : Except TxError (Option String) := do
  let status ← normalizeDeploymentStatus row.status
  if !retryableStatuses.contains status then return some "STATUS_NOT_RETRYABLE"
  else
    let active ← anotherActive row.id rows
    if active then return some "ACTIVE_DEPLOYMENT"
    else
      let replay ← canReplay row .retry
      return if replay then none else some "SOURCE_NOT_RETRYABLE"

/-- Another row that is ready and has an image. -/
def readyRow (current row : Row) : Except TxError Bool :=
  if row.id = current.id then .ok false
  else do
    let status ← normalizeDeploymentStatus row.status
    return status = "READY" && row.imageUrl ≠ ""

/-- `previousReady`, before the sort. -/
def readyBefore (current : Row) : List Row → Except TxError (List Row) := filterThrows fun row => do
  let ready ← readyRow current row
  return ready && positionLt localeCompare row current

def previousReady (rows : List Row) (current : Row) : Except TxError (Option Row) := do
  let ready ← readyBefore localeCompare current rows
  return newestBy (positionLe localeCompare) ready

def replayable : List Row → Except TxError (List Row) := filterThrows fun row => canReplay row .redeploy

/-- The deployment whose snapshot a redeploy shows. -/
def redeploySource (rows : List Row) : Except TxError (Option Row) := do
  let sources ← replayable rows
  return newestBy (positionLe localeCompare) sources

def eligibleHistoryAction (row : Row) (rows : List Row) (execute : Bool) (snapshotVersion : Option Nat) :
    Except TxError (Option HistoryAction) :=
  if !execute then .ok none
  else do
    let status ← normalizeDeploymentStatus row.status
    let cancel ← canCancelDeployment status
    if cancel then return some ⟨.cancel, row.id, "/deployments/" ++ row.id ++ "/cancel", none⟩
    else
      let reason ← (if retryableStatuses.contains status then retryReason row rows else .ok (some ""))
      if reason = none then
        return some ⟨.retry, row.id, "/deployments/" ++ row.id ++ "/retry", snapshotVersion⟩
      else
        let active ← anotherActive row.id rows
        if active then return none
        else
          let previous ← (if status = "READY" then previousReady localeCompare rows row else .ok none)
          if previous.isSome then
            return some ⟨.rollback, row.id, "/deployments/" ++ row.id ++ "/rollback", none⟩
          else
            let source ← redeploySource localeCompare rows
            return (source.filter fun _ => ["READY", "CANCELLED", "CLEANED_UP"].contains status).map fun source =>
              ⟨.redeploy, row.serviceId, "/services/" ++ row.serviceId ++ "/redeploy",
                positiveInteger source.snapshotVersion⟩

end Page

/-! ### What an action was offered for -/

variable {localeCompare : String → String → Ordering} {row : Row} {rows : List Row}

inductive Offered (localeCompare : String → String → Ordering) (row : Row) (rows : List Row) : HistoryAction → Prop
  | cancel {status href : String} (read : normalizeDeploymentStatus row.status = .ok status)
      (can : canCancelDeployment status = .ok true) : Offered localeCompare row rows ⟨.cancel, row.id, href, none⟩
  | retry {status href : String} (read : normalizeDeploymentStatus row.status = .ok status)
      (failed : retryableStatuses.contains status = true) (idle : anotherActive row.id rows = .ok false)
      (replay : canReplay row .retry = .ok true) :
      Offered localeCompare row rows ⟨.retry, row.id, href, positiveInteger row.snapshotVersion⟩
  | rollback {href : String} {previous : Row} (read : normalizeDeploymentStatus row.status = .ok "READY")
      (idle : anotherActive row.id rows = .ok false)
      (found : previousReady localeCompare rows row = .ok (some previous)) :
      Offered localeCompare row rows ⟨.rollback, row.id, href, none⟩
  | redeploy {status href : String} {source : Row} (read : normalizeDeploymentStatus row.status = .ok status)
      (ended : ["READY", "CANCELLED", "CLEANED_UP"].contains status = true)
      (idle : anotherActive row.id rows = .ok false) (found : redeploySource localeCompare rows = .ok (some source)) :
      Offered localeCompare row rows ⟨.redeploy, row.serviceId, href, positiveInteger source.snapshotVersion⟩

theorem retryReason_none (h : retryReason row rows = .ok none) :
    anotherActive row.id rows = .ok false ∧ canReplay row .retry = .ok true := by
  unfold retryReason at h
  obtain ⟨status, -, h⟩ := bind_ok.1 h
  split_ifs at h with hstatus
  · cases pure_ok.1 h
  · obtain ⟨active, hactive, h⟩ := bind_ok.1 h
    split_ifs at h with hidle
    · cases pure_ok.1 h
    · obtain ⟨replay, hreplay, h⟩ := bind_ok.1 h
      have hnone := pure_ok.1 h
      split_ifs at hnone with hreplays
      rw [hactive, hreplay, hreplays, Bool.eq_false_iff.2 hidle]
      exact ⟨rfl, rfl⟩

theorem eligibleHistoryAction_offered {execute : Bool} {action : HistoryAction}
    (h : eligibleHistoryAction localeCompare row rows execute (positiveInteger row.snapshotVersion) = .ok (some action)) :
    Offered localeCompare row rows action := by
  unfold eligibleHistoryAction at h
  cases execute with
  | false => cases h
  | true =>
    obtain ⟨status, hstatus, h⟩ := bind_ok.1 h
    obtain ⟨cancel, hcancel, h⟩ := bind_ok.1 h
    by_cases hcan : cancel = true
    · rw [if_pos hcan] at h
      rw [← Option.some.inj (pure_ok.1 h)]
      exact .cancel hstatus (hcan ▸ hcancel)
    rw [if_neg hcan] at h
    obtain ⟨reason, hreason, h⟩ := bind_ok.1 h
    by_cases hnone : reason = none
    · rw [if_pos hnone] at h
      rw [← Option.some.inj (pure_ok.1 h)]
      rw [hnone] at hreason
      by_cases hfailed : retryableStatuses.contains status = true
      · rw [if_pos hfailed] at hreason
        obtain ⟨hidle, hreplay⟩ := retryReason_none hreason
        exact .retry hstatus hfailed hidle hreplay
      · rw [if_neg hfailed] at hreason
        cases hreason
    rw [if_neg hnone] at h
    obtain ⟨active, hactive, h⟩ := bind_ok.1 h
    by_cases hidle : active = true
    · rw [if_pos hidle] at h
      cases pure_ok.1 h
    rw [if_neg hidle] at h
    rw [Bool.eq_false_iff.2 hidle] at hactive
    obtain ⟨previous, hprevious, h⟩ := bind_ok.1 h
    by_cases hsome : previous.isSome = true
    · rw [if_pos hsome] at h
      rw [← Option.some.inj (pure_ok.1 h)]
      obtain ⟨found, rfl⟩ := Option.isSome_iff_exists.1 hsome
      by_cases hready : status = "READY"
      · rw [if_pos hready] at hprevious
        exact .rollback (hready ▸ hstatus) hactive hprevious
      · rw [if_neg hready] at hprevious
        cases hprevious
    rw [if_neg hsome] at h
    obtain ⟨source, hsource, h⟩ := bind_ok.1 h
    obtain ⟨found, hfound, hmade⟩ := Option.map_eq_some_iff.1 (pure_ok.1 h)
    obtain ⟨rfl, hended⟩ := Option.filter_eq_some_iff.1 hfound
    rw [← hmade]
    exact .redeploy hstatus hended hactive hsource

/-! ### What the repository does -/

/-- The columns of `cancelDeployment`. -/
def cancelledJob (deploymentId : String) (job : JobRow) : Bool :=
  ["build-and-deploy", "preview-deploy", "build", "builder"].contains job.type &&
    ["queued", "running"].contains job.status &&
    ((job.targetType = "deployment" && job.targetId = deploymentId) || job.payload.deploymentId = some deploymentId)

def cancelDeployment (db : PreviewDb) (deploymentId : String) : Except TxError PreviewDb := do
  let current ← orThrow (db.deployments.get? deploymentId) (.thrown ⟨"deployment not found: " ++ deploymentId, 404⟩)
  let status ← normalizeDeploymentStatus current.status
  if status = "CANCELLED" then return db
  else
    let can ← canCancelDeployment status
    throwIf (can = false) (.thrown ⟨"deployment_cancellation_conflict: deployment cannot be cancelled after runtime reconciliation has started or reached a terminal state", 409⟩)
    (assertDeploymentTransition current.status "CANCELLED").mapError fun message => .thrown ⟨message, 500⟩
    return { db with
      jobs := db.jobs.update (cancelledJob deploymentId)
        (fun job => { job with status := "cancelled", lockedBy := none, lockedAt := none }) cancelled_id
      deployments := db.deployments.update (fun row => row.id = deploymentId)
        (fun row => { row with status := "CANCELLED" }) fun _ => rfl }

/-- A row as a rollback reads it, with the times that are kept beside it. -/
def rollbackView (times : String → Option Int × Option Int) (row : Row) : DeploymentRow :=
  { id := row.id, serviceId := row.serviceId, projectId := row.projectId, status := row.status
    deploymentType := row.deploymentType, triggerType := row.triggerType, branch := row.branch
    commitSha := present (some row.commitSha), imageUrl := present (some row.imageUrl), image := none
    imageDigest := present (some row.imageDigest), deployedAt := (times row.id).1, finishedAt := (times row.id).2
    createdAt := row.createdAt }

/-- The times of the deployments, the ids and the time drawn for a call, its key and its actor. -/
structure Call where
  times : String → Option Int × Option Int
  draws : OperationDraws
  rollbackId : String
  requestIdempotencyKey : String
  requestedByUserId : String

def request (call : Call) (row : Row) (action : HistoryAction) : DeploymentOperation :=
  { operation := if action.type = .retry then .retry else .redeploy
    requestIdempotencyKey := call.requestIdempotencyKey, snapshotVersion := action.snapshotVersion.getD 0
    serviceId := row.serviceId, sourceDeploymentId := if action.type = .retry then some row.id else none
    requestedByUserId := call.requestedByUserId }

/-- The call behind an action is accepted; a redeploy uses the deployment whose snapshot was shown. -/
def Accepted (localeCompare : String → String → Ordering) (host : OperationHost) (call : Call) (db : PreviewDb)
    (row : Row) (action : HistoryAction) : Prop :=
  match action.type with
  | .cancel => ∃ db', cancelDeployment db row.id = .ok db'
  | .rollback => ∃ made, prismaRollbackDeployment (.ok ()) (db.deployments.rows.map (rollbackView call.times))
      call.rollbackId call.draws.now row.id {} = .ok made
  | .retry => ∃ made, createDeploymentOperation host call.draws db (request call row action) = .ok made
  | .redeploy => ∃ db' reply source successor,
      createDeploymentOperation host call.draws db (request call row action) = .ok (db', reply) ∧
      redeploySource localeCompare (db.deployments.select fun r => r.serviceId = row.serviceId) = .ok (some source) ∧
      db'.deployments.get? reply.deploymentId = some successor ∧ successor.sourceDeploymentId = some source.id

/-- A preview can be retried while its lineage is open and at its commit. -/
def retriable (db : PreviewDb) (row : Row) : Bool :=
  Text.jsLower row.deploymentType ≠ "preview" || (assertPreviewRetry
    ((row.previewLineageId.bind db.lineages.get?).map LineageRow.lineage) row).isOk

/-- Where the page and the repository agree. -/
def Agrees (localeCompare : String → String → Ordering) (db : PreviewDb) (row : Row) (action : HistoryAction) : Prop :=
  match action.type with
  | .cancel => True
  | .rollback => True
  | .retry => retriable db row = true
  | .redeploy => ∃ source,
      newest (db.deployments.select fun r => r.serviceId = row.serviceId && eligibleStatuses.contains r.status) =
        some source ∧
      redeploySource localeCompare (db.deployments.select fun r => r.serviceId = row.serviceId) = .ok (some source) ∧
      retriable db source = true

/-- A lineage as the webhook makes and moves it: its tenant exists, its hosts are names, and no deployment is of a
later generation. -/
structure LineageReady (host : OperationHost) (draws : OperationDraws) (db : PreviewDb) (lineage : LineageRow) :
    Prop where
  tenant : tenantExists db lineage.lineage = true
  hosts : ∃ runtime, createPreviewRuntime host.sha256 (advancedLineage lineage.lineage)
    ("dep_" ++ draws.uuid) none = .ok runtime
  generations : ∀ row ∈ db.deployments.rows, row.previewLineageId = some lineage.id →
    ∀ generation, row.previewGeneration = some generation → generation ≤ lineage.lineage.generation

/-- An active service with its deployments, a row of the page, and a call by an actor with quota. -/
structure Setting (host : OperationHost) (call : Call) (db : PreviewDb) (row : Row) : Prop where
  known : row ∈ db.deployments.rows
  normalized : ∀ r ∈ db.deployments.rows, r.serviceId = row.serviceId → normalizeDeploymentStatus r.status = .ok r.status
  project : row.projectId ≠ "" ∧ ∀ r ∈ db.deployments.rows, r.serviceId = row.serviceId → r.projectId = row.projectId
  service : ∃ service, (db.services.find? fun service => service.id = row.serviceId) = some service ∧
    Resources.isDeleting service.status = false ∧ Resources.isDeleting service.projectStatus = false
  unused : ∀ r ∈ db.deployments.rows, r.requestIdempotencyKey ≠ some call.requestIdempotencyKey
  quota : ∀ db deploymentType, host.enforcePrismaQuotaRequirements db
    (if call.requestedByUserId = "system" then none else some call.requestedByUserId) deploymentType = .ok ()
  fresh : "dep_" ++ call.draws.uuid ∉ db.deployments.keys ∧ call.draws.jobId ∉ db.jobs.keys
  checked : ∀ r ∈ db.deployments.rows, previewIdentityCheck r = true
  lineages : ∀ lineage ∈ db.lineages.rows, LineageReady host call.draws db lineage

/-! ### Cancel and rollback -/

variable {host : OperationHost} {call : Call} {db : PreviewDb}

theorem Setting.get (h : Setting host call db row) : db.deployments.get? row.id = some row :=
  Keyed.get?_eq_some.2 ⟨h.known, rfl⟩

variable {status : String} {candidate : Row} {draws : OperationDraws} {lineage : LineageRow}

theorem cancel_accepted (h : Setting host call db row) (hread : normalizeDeploymentStatus row.status = .ok status)
    (hcan : canCancelDeployment status = .ok true) : ∃ db', cancelDeployment db row.id = .ok db' := by
  have hsame := h.normalized row h.known rfl
  obtain rfl := Except.ok.inj (hsame.symm.trans hread)
  have hparse : parseDeploymentStatus row.status = .ok row.status := mapError_ok.1 hread
  have hcancelled : parseDeploymentStatus "CANCELLED" = .ok "CANCELLED" := by decide +kernel
  have hnext : (deploymentNext row.status).contains "CANCELLED" = true := by
    unfold canCancelDeployment at hcan
    rw [hread] at hcan
    exact pure_ok.1 hcan
  have hmove : assertDeploymentTransition row.status "CANCELLED" = .ok () := by
    simp only [assertDeploymentTransition, canTransitionDeployment, hparse, hcancelled, hnext, Bool.or_true, throwIf,
      bind, Except.bind, pure, Except.pure, not_true_eq_false, if_false]
  unfold cancelDeployment
  rw [h.get]
  simp only [orThrow, hread, hcan, hmove, throwIf, Except.mapError, bind, Except.bind, pure, Except.pure,
    Bool.true_eq_false, if_false]
  split_ifs
  · exact ⟨_, rfl⟩
  · exact ⟨_, rfl⟩

theorem readyRow_true {current row : Row} (h : readyRow current row = .ok true) :
    row.id ≠ current.id ∧ normalizeDeploymentStatus row.status = .ok "READY" ∧ row.imageUrl ≠ "" := by
  unfold readyRow at h
  split_ifs at h with hid
  · cases h
  obtain ⟨status, hstatus, h⟩ := bind_ok.1 h
  have hboth := pure_ok.1 h
  simp only [Bool.and_eq_true, decide_eq_true_eq] at hboth
  exact ⟨hid, hboth.1 ▸ hstatus, hboth.2⟩

theorem readyBefore_mem {current found : Row} {ready : List Row}
    (h : readyBefore localeCompare current rows = .ok ready) (hfound : found ∈ ready) :
    found ∈ rows ∧ readyRow current found = .ok true := by
  obtain ⟨hmem, htest⟩ := mem_filterThrows h hfound
  obtain ⟨isReady, hready, htest⟩ := bind_ok.1 htest
  exact ⟨hmem, (Bool.and_eq_true_iff.1 (pure_ok.1 htest)).1 ▸ hready⟩

theorem rollback_accepted (h : Setting host call db row) {previous : Row}
    (hfound : previousReady localeCompare (db.deployments.select fun r => r.serviceId = row.serviceId) row =
      .ok (some previous)) :
    ∃ made, prismaRollbackDeployment (.ok ()) (db.deployments.rows.map (rollbackView call.times)) call.rollbackId
      call.draws.now row.id {} = .ok made := by
  obtain ⟨ready, hready, hnewest⟩ := bind_ok.1 hfound
  obtain ⟨hmem, hrow⟩ := readyBefore_mem hready (newestBy_mem (pure_ok.1 hnewest))
  obtain ⟨hknown, hservice⟩ := List.mem_filter.1 hmem
  obtain ⟨hid, hstatus, himage⟩ := readyRow_true hrow
  have hservice := of_decide_eq_true hservice
  have hready : previous.status = "READY" := Except.ok.inj ((h.normalized previous hknown hservice).symm.trans hstatus)
  have hcandidate : rollbackView call.times previous ∈
      prismaCandidates (db.deployments.rows.map (rollbackView call.times)) (rollbackView call.times row) := by
    refine List.mem_filter.2 ⟨List.mem_map_of_mem hknown, ?_⟩
    simp [rollbackView, hservice, hid, hready, present, himage]
  -- There is a candidate, so the search finds one, perhaps another.
  obtain ⟨source, hsource⟩ : ∃ source, (Keyset.newestFirst prismaKey (prismaCandidates
      (db.deployments.rows.map (rollbackView call.times)) (rollbackView call.times row))).head? = some source := by
    refine Option.ne_none_iff_exists'.1 fun hnone => ?_
    have hmem := (List.perm_insertionSort (fun a b => prismaKey b ≤ prismaKey a) _).mem_iff.2 hcandidate
    rw [show List.insertionSort (fun a b => prismaKey b ≤ prismaKey a) _ = [] from List.head?_eq_none_iff.1 hnone] at hmem
    cases hmem
  obtain ⟨hin, hpass⟩ := List.mem_filter.1 (Keyset.head?_newestFirst.1 hsource).mem
  obtain ⟨chosen, hchosen, rfl⟩ := List.mem_map.1 hin
  simp only [Bool.and_eq_true, decide_eq_true_eq] at hpass
  obtain ⟨⟨⟨hsame, -⟩, hsourceReady⟩, himage'⟩ := hpass
  have hcurrent : (db.deployments.rows.map (rollbackView call.times)).find? (fun r => r.id = row.id) =
      some (rollbackView call.times row) := by
    rw [List.find?_map]
    exact congrArg (Option.map _) h.get
  have hvalid : validateRollbackSource prismaImage (rollbackView call.times row) (some (rollbackView call.times chosen))
      none = .ok (rollbackView call.times chosen) := by
    refine validateRollbackSource_ok.2 ⟨rfl, ⟨?_, hsame⟩, ?_, ?_⟩
    · exact h.project.2 chosen hchosen hsame
    · rw [hsourceReady]
      decide
    · unfold prismaImage present
      obtain ⟨url, hurl⟩ := Option.isSome_iff_exists.1 himage'
      have hview : (some chosen.imageUrl).filter (fun text => text ≠ "") = some url := hurl
      rw [hurl, Option.filter_some, if_pos (Option.filter_eq_some_iff.1 hview).2]
      exact Option.some_ne_none url
  refine ⟨_, bind_ok.2 ⟨_, orThrow_ok.2 hcurrent, rollbackFrom_ok.2 ⟨_, _, ?_, hvalid,
    prismaAdmit_ok.2 ⟨rfl, h.project.1⟩, rfl⟩⟩⟩
  exact congrArg Except.ok hsource

/-! ### Retry and redeploy -/

theorem anotherActive_false {id : String} (h : anotherActive id rows = .ok false) (hmem : candidate ∈ rows)
    (hid : candidate.id ≠ id) : isDeploymentTerminal candidate.status = .ok true := by
  induction rows with
  | nil => cases hmem
  | cons first rows ih =>
    unfold anotherActive at h
    by_cases hfirst : first.id = id
    · rw [if_pos hfirst] at h
      rcases List.mem_cons.1 hmem with rfl | hmem
      · exact absurd hfirst hid
      · exact ih h hmem
    · rw [if_neg hfirst] at h
      obtain ⟨terminal, hterminal, h⟩ := bind_ok.1 h
      cases terminal with
      | false => cases pure_ok.1 h
      | true =>
        rcases List.mem_cons.1 hmem with rfl | hmem
        · exact hterminal
        · exact ih h hmem

/-- A terminal state of the machine is one of the statuses that a query excludes. -/
theorem terminal_contains (hstatus : normalizeDeploymentStatus status = .ok status)
    (h : isDeploymentTerminal status = .ok true) : terminalDeploymentStatuses.contains status = true := by
  have hall : ∀ entry ∈ deploymentMachine.states, entry.2.terminal = true →
      terminalDeploymentStatuses.contains entry.1 = true := by decide +kernel
  unfold isDeploymentTerminal at h
  obtain ⟨read, hread, h⟩ := bind_ok.1 h
  obtain rfl := Except.ok.inj (hstatus.symm.trans hread)
  obtain ⟨state, hstate, hterminal⟩ := (Option.any_eq_true _ _).1 (pure_ok.1 h)
  obtain ⟨before, after, hstates, -⟩ := List.lookup_eq_some_iff.1 hstate
  exact hall (status, state) (by rw [hstates]; exact List.mem_append_right _ List.mem_cons_self) hterminal

theorem Setting.serviceable (h : Setting host call db row) (action : HistoryAction)
    (hidle : anotherActive row.id (db.deployments.select fun r => r.serviceId = row.serviceId) = .ok false)
    (hown : terminalDeploymentStatuses.contains row.status = true) :
    Serviceable host call.draws db (request call row action) where
  unused := by
    refine List.find?_eq_none.2 fun r hr hboth => ?_
    rw [Bool.and_eq_true, decide_eq_true_eq, decide_eq_true_eq] at hboth
    exact h.unused r hr hboth.2
  service := h.service
  idle := by
    intro r hr hservice
    by_cases hid : r.id = row.id
    · rw [Keyed.eq_of_key hr h.known hid]
      exact hown
    · exact terminal_contains (h.normalized r hr hservice)
        (anotherActive_false hidle (List.mem_filter.2 ⟨hr, decide_eq_true hservice⟩) hid)
  quota := h.quota
  fresh := h.fresh
  checked := h.checked

/-- What can be replayed has a successor, whoever asks. -/
theorem canReplay_successor {operation : OperationKind} (h : canReplay row operation = .ok true)
    {draws : OperationDraws} {input : DeploymentOperation} (hoperation : input.operation = operation)
    (hservice : input.serviceId = row.serviceId)
    (hversion : input.snapshotVersion = (positiveInteger row.snapshotVersion).getD 0) :
    ∃ candidate, deploymentSuccessor draws (some row) input = .ok candidate := by
  unfold canReplay at h
  cases hpositive : positiveInteger row.snapshotVersion with
  | none =>
    rw [hpositive] at h
    cases h
  | some version =>
    rw [hpositive] at h hversion
    dsimp only at h
    cases hsuccessor : deploymentSuccessor ⟨0, "", "", 0⟩ (some row) (historyOperation row operation version) with
    | error e =>
      rw [hsuccessor] at h
      cases e with
      | thrown e =>
        dsimp only at h
        split_ifs at h
        cases h
      | _ => cases h
    | ok made =>
      obtain ⟨found, status, snapshot, commit, image, hfound, -, hstatus, heligible, hsnapshot, hcommit, himage, -⟩ :=
        deploymentSuccessor_ok.1 hsuccessor
      obtain rfl := Option.some.inj hfound
      obtain ⟨hone, hdesired, hversion'⟩ := snapshotOf_ok.1 hsnapshot
      exact ⟨_, deploymentSuccessor_ok.2 ⟨row, status, snapshot, commit, image, rfl, hservice.symm, hstatus,
        by rw [hoperation]; exact heligible, snapshotOf_ok.2 ⟨hone, hdesired, hversion.trans hversion'⟩, hcommit,
        himage, rfl⟩⟩

/-- The database once the lineage has reserved its next generation. -/
def advanced (db : PreviewDb) (lineage : LineageRow) : PreviewDb :=
  { db with lineages := db.lineages.put { lineage with lineage := advancedLineage lineage.lineage } }

theorem updateLineage_advanced (h : LineageReady host draws db lineage) :
    updateLineage db lineage (advancedLineage lineage.lineage) = .ok (advanced db lineage) := by
  have htenant : tenantExists db (advancedLineage lineage.lineage) = true := h.tenant
  have hguard : lineageGuard db (some lineage.lineage) (advancedLineage lineage.lineage) = .ok () := by
    unfold lineageGuard
    refine bind_ok.2 ⟨(), throwIf_ok.2 ?_, throwIf_ok.2 (by simp [htenant])⟩
    simp [advancedLineage, identityColumns]
  unfold updateLineage
  rw [hguard]
  rfl

/-- The next attempt of a lineage can be inserted. -/
theorem insertDeployment_attempt (h : LineageReady host draws db lineage) {runtime : PreviewRuntime}
    (hruntime : createPreviewRuntime host.sha256 (advancedLineage lineage.lineage) candidate.id none =
      .ok runtime) (htype : Text.jsLower candidate.deploymentType = "preview")
    (hservice : candidate.serviceId = lineage.lineage.serviceId)
    (hproject : candidate.projectId = lineage.lineage.projectId) {deployments : Keyed Preview.DeploymentRow.id}
    (hinsert : db.deployments.insert? (nextAttempt lineage.lineage runtime candidate) = some deployments) :
    insertDeployment (advanced db lineage) (nextAttempt lineage.lineage runtime candidate) =
      .ok { advanced db lineage with deployments } := by
  obtain ⟨-, hlineage, hdeployment, hgeneration⟩ := createPreviewRuntime_fields hruntime
  have hcheck : previewIdentityCheck (nextAttempt lineage.lineage runtime candidate) = true := by
    have hsame : runtime.generation = lineage.lineage.generation + 1 := hgeneration
    have hid : runtime.lineageId = lineage.lineage.id := hlineage
    simp [previewIdentityCheck, nextAttempt, htype, hid, hdeployment, hsame]
  have hfree : ¬ ((db.deployments.rows.any fun other => other.previewLineageId.isSome ∧
      other.previewLineageId = some lineage.lineage.id ∧ other.previewGeneration.isSome ∧
        other.previewGeneration = some (lineage.lineage.generation + 1)) = true) := by
    intro hany
    obtain ⟨other, hother, hboth⟩ := List.any_eq_true.1 hany
    obtain ⟨-, hsame, -, hlater⟩ := of_decide_eq_true hboth
    have hbound := h.generations other hother hsame _ hlater
    omega
  have hforeign : (advanced db lineage).lineages.rows.any (fun entry => some entry.id = some lineage.lineage.id ∧
      entry.lineage.projectId = candidate.projectId ∧ entry.lineage.serviceId = candidate.serviceId) = true :=
    List.any_eq_true.2 ⟨_, Keyed.mem_put.2 (.inl rfl), decide_eq_true ⟨rfl, hproject.symm, hservice.symm⟩⟩
  unfold insertDeployment
  refine bind_ok.2 ⟨(), throwIf_ok.2 (by simp [hcheck]), ?_⟩
  show createDeployment _ _ = _
  unfold createDeployment
  refine bind_ok.2 ⟨deployments, orThrow_ok.2 hinsert, bind_ok.2 ⟨(), throwIf_ok.2 hfree,
    bind_ok.2 ⟨(), throwIf_ok.2 ?_, rfl⟩⟩⟩
  exact not_not.2 hforeign

theorem accepts_preview {input : DeploymentOperation} {checked : PreviewLineageRecord}
    (h : Serviceable host draws db input) (hselected : operationSource db input = some row)
    (hcandidate : deploymentSuccessor draws (some row) input = .ok candidate)
    (htype : Text.jsLower row.deploymentType = "preview")
    (hfound : row.previewLineageId.bind db.lineages.get? = some lineage)
    (hretry : assertPreviewRetry (some lineage.lineage) row = .ok checked)
    (hready : LineageReady host draws db lineage) :
    ∃ db' reply successor, createDeploymentOperation host draws db input = .ok (db', reply) ∧
      db'.deployments.get? reply.deploymentId = some successor ∧ successor.sourceDeploymentId = some row.id := by
  obtain ⟨hid, -, hsource, htype', -, -, -⟩ := successor_fields hcandidate
  obtain ⟨found, status, snapshot, commit, image, hrow, -, -, -, -, -, -, hmade⟩ := deploymentSuccessor_ok.1 hcandidate
  obtain rfl := Option.some.inj hrow
  obtain ⟨hentry, -, hservice, hproject, -⟩ := assertPreviewRetry_ok hretry
  obtain rfl := Option.some.inj hentry
  obtain ⟨service, hfind, hactive, hactive'⟩ := h.service
  obtain ⟨runtime, hruntime⟩ := hready.hosts
  rw [← hid] at hruntime
  obtain ⟨deployments, hdeployments⟩ := Keyed.insert?_fresh (t := db.deployments)
    (a := nextAttempt lineage.lineage runtime candidate) (hid ▸ h.fresh.1)
  have hcservice : candidate.serviceId = lineage.lineage.serviceId := by rw [← hmade]; exact hservice
  have hcproject : candidate.projectId = lineage.lineage.projectId := by rw [← hmade]; exact hproject
  have hinsert := insertDeployment_attempt hready hruntime (htype'.symm ▸ htype) hcservice hcproject hdeployments
  obtain ⟨db', henqueue, hget⟩ := @enqueueSuccessor_accepts input draws host db h (advanced db lineage) service rfl rfl
    hactive hactive' _ deployments hdeployments hinsert
  refine ⟨db', ⟨candidate.id, draws.jobId, candidate.status⟩, _, ?_, hget, hsource⟩
  have hretried : retriedLineage db (some row) = .ok (some lineage) := by
    unfold retriedLineage
    rw [Option.filter_some, if_pos (decide_eq_true htype)]
    simp only [hfound, Option.map_some, hretry, Except.mapError, bind, Except.bind, pure, Except.pure]
  unfold createDeploymentOperation
  rw [hfind, h.unused, hselected]
  simp only [orThrow, hretried, hcandidate, advanceCandidate, hruntime, updateLineage_advanced hready, henqueue,
    Except.mapError, bind, Except.bind, pure, Except.pure]
  rfl

/-- **A source with a successor is accepted just if it can be retried.** -/
theorem operation_accepted {input : DeploymentOperation} (h : Serviceable host draws db input)
    (hlineages : ∀ lineage ∈ db.lineages.rows, LineageReady host draws db lineage)
    (hselected : operationSource db input = some row)
    (hcandidate : deploymentSuccessor draws (some row) input = .ok candidate) (hretriable : retriable db row = true) :
    ∃ db' reply successor, createDeploymentOperation host draws db input = .ok (db', reply) ∧
      db'.deployments.get? reply.deploymentId = some successor ∧ successor.sourceDeploymentId = some row.id := by
  by_cases htype : Text.jsLower row.deploymentType = "preview"
  · simp only [retriable, htype, ne_eq, not_true_eq_false, decide_false, Bool.false_or, isOk_iff] at hretriable
    obtain ⟨checked, hretry⟩ := hretriable
    obtain ⟨lineage, hfound, -⟩ := Option.map_eq_some_iff.1 (assertPreviewRetry_ok hretry).1
    rw [hfound] at hretry
    obtain ⟨id, -, hget⟩ := Option.bind_eq_some_iff.1 hfound
    exact accepts_preview h hselected hcandidate htype hfound hretry (hlineages lineage (Keyed.get?_eq_some.1 hget).1)
  · obtain ⟨db', hcall, hget⟩ := h.accepts hselected hcandidate htype
    exact ⟨db', _, candidate, hcall, hget, (successor_fields hcandidate).2.2.1⟩

theorem retriable_of_retried {lineage : Option LineageRow} (h : retriedLineage db (some row) = .ok lineage) :
    retriable db row = true := by
  unfold retriable
  by_cases htype : Text.jsLower row.deploymentType = "preview"
  · unfold retriedLineage at h
    rw [Option.filter_some, if_pos (decide_eq_true htype)] at h
    obtain ⟨checked, hchecked, -⟩ := bind_ok.1 h
    rw [mapError_ok.1 hchecked, Bool.or_eq_true]
    exact .inr rfl
  · simp [htype]

theorem terminal_of_ended (h : ["BUILD_FAILED", "FAILED", "READY", "CANCELLED", "CLEANED_UP"].contains status = true) :
    terminalDeploymentStatuses.contains status = true := by
  have hall : ∀ status ∈ ["BUILD_FAILED", "FAILED", "READY", "CANCELLED", "CLEANED_UP"],
      terminalDeploymentStatuses.contains status = true := by decide +kernel
  exact hall status (List.contains_iff_mem.1 h)

/-- **An action that the page offers is accepted just if the page and the repository agree on it.** -/
theorem history_offers_iff {action : HistoryAction} (h : Setting host call db row)
    (hoffer : eligibleHistoryAction localeCompare row (db.deployments.select fun r => r.serviceId = row.serviceId) true
      (positiveInteger row.snapshotVersion) = .ok (some action)) :
    Accepted localeCompare host call db row action ↔ Agrees localeCompare db row action := by
  have hnormal := h.normalized row h.known rfl
  cases eligibleHistoryAction_offered hoffer with
  | cancel hread hcan => exact iff_of_true (cancel_accepted h hread hcan) trivial
  | rollback hread hidle hfound => exact iff_of_true (rollback_accepted h hfound) trivial
  | @retry status href hread hfailed hidle hreplay =>
    obtain rfl := Except.ok.inj (hnormal.symm.trans hread)
    have hown : terminalDeploymentStatuses.contains row.status = true := by
      refine terminal_of_ended (List.contains_iff_mem.2 ?_)
      have := List.contains_iff_mem.1 hfailed
      simp only [retryableStatuses, List.mem_cons, List.not_mem_nil, or_false] at this
      rcases this with hstatus | hstatus <;> rw [hstatus] <;> decide
    have hserviceable := h.serviceable ⟨.retry, row.id, href, positiveInteger row.snapshotVersion⟩ hidle hown
    obtain ⟨candidate, hcandidate⟩ := @canReplay_successor row .retry hreplay call.draws
      (request call row ⟨.retry, row.id, href, positiveInteger row.snapshotVersion⟩) rfl rfl rfl
    constructor
    · rintro ⟨⟨db', reply⟩, hcall⟩
      obtain ⟨source, _, _, hcreated, -⟩ := createDeploymentOperation_new hcall hserviceable.unused
      obtain ⟨lineage, hretried⟩ := hcreated.retried
      obtain rfl := Option.some.inj (h.get.symm.trans hcreated.selected)
      exact retriable_of_retried hretried
    · intro hretriable
      obtain ⟨db', reply, -, hcall, -⟩ := operation_accepted hserviceable h.lineages h.get hcandidate hretriable
      exact ⟨_, hcall⟩
  | @redeploy status href source hread hended hidle hfound =>
    obtain rfl := Except.ok.inj (hnormal.symm.trans hread)
    have hown : terminalDeploymentStatuses.contains row.status = true := by
      refine terminal_of_ended (List.contains_iff_mem.2 ?_)
      exact List.mem_cons_of_mem _ (List.mem_cons_of_mem _ (List.contains_iff_mem.1 hended))
    have hserviceable := h.serviceable ⟨.redeploy, row.serviceId, href, positiveInteger source.snapshotVersion⟩ hidle hown
    have hselect : operationSource db (request call row
        ⟨.redeploy, row.serviceId, href, positiveInteger source.snapshotVersion⟩) = newest (db.deployments.select fun r =>
          r.serviceId = row.serviceId && eligibleStatuses.contains r.status) := rfl
    obtain ⟨sources, hsources, hnewest⟩ := bind_ok.1 hfound
    obtain ⟨hmem, hreplay⟩ := mem_filterThrows hsources (newestBy_mem (pure_ok.1 hnewest))
    obtain ⟨hknown, hservice⟩ := List.mem_filter.1 hmem
    obtain ⟨candidate, hcandidate⟩ := @canReplay_successor source .redeploy hreplay call.draws
      (request call row ⟨.redeploy, row.serviceId, href, positiveInteger source.snapshotVersion⟩) rfl
      (of_decide_eq_true hservice).symm rfl
    constructor
    · rintro ⟨db', reply, shown, successor, hcall, hshown, hget, hfrom⟩
      obtain rfl := Option.some.inj (Except.ok.inj (hfound.symm.trans hshown))
      obtain ⟨used, _, made, hcreated, rfl⟩ := createDeploymentOperation_new hcall hserviceable.unused
      rw [Keyed.get?_insert? hcreated.deployments, if_pos rfl] at hget
      obtain rfl := Option.some.inj hget
      have hused := hcreated.written.fields.2.2.2.1.symm.trans hfrom
      rw [(successor_fields hcreated.derived).2.2.1] at hused
      have hsame : used = source :=
        Keyed.eq_of_key (operationSource_mem hcreated.selected) hknown (Option.some.inj hused)
      obtain ⟨lineage, hretried⟩ := hcreated.retried
      rw [hsame] at hretried
      exact ⟨source, hselect.symm.trans (hsame ▸ hcreated.selected), hfound, retriable_of_retried hretried⟩
    · rintro ⟨used, hused, hshown, hretriable⟩
      obtain rfl := Option.some.inj (Except.ok.inj (hfound.symm.trans hshown))
      obtain ⟨db', reply, successor, hcall, hget, hfrom⟩ :=
        operation_accepted hserviceable h.lineages (hselect.trans hused) hcandidate hretriable
      exact ⟨db', reply, source, successor, hcall, hfound, hget, hfrom⟩

/-! ### A preview on the page -/

namespace Shop

def visit : Call :=
  { times := fun _ => (none, none), draws := { now := 3, uuid := "3", jobId := "job" }, rollbackId := "dep_4"
    requestIdempotencyKey := "key", requestedByUserId := "user" }

def retryAction (id : String) : HistoryAction := ⟨.retry, id, "/deployments/" ++ id ++ "/retry", some 1⟩

/-- `localeCompare` on the ids of this service. -/
def compareIds (a b : String) : Ordering := if a = b then .eq else if a ≤ b then .lt else .gt

end Shop

namespace Mixed

open Retried (platform)
open Retargeted (attempt database lineage)

/-- A production deployment, before or after the preview. -/
def production (id status : String) (createdAt : Int) : Row :=
  { attempt with
    id, status, createdAt, deploymentType := "production", previewLineageId := none, previewGeneration := none
    previewRuntime := none }

/-- A preview from before there were lineages, which failed. -/
def legacy : Row := { production "dep_1" "FAILED" 0 with deploymentType := "preview" }

/-- Two previews that failed, without a lineage and of an open one, and a production deployment that is ready. -/
def shop : PreviewDb :=
  { database with deployments := ((Keyed.empty.put legacy).put attempt).put (production "dep_2" "READY" 2) }

def redeployAction : HistoryAction := ⟨.redeploy, "svc", "/services/svc/redeploy", some 1⟩

theorem lineageReady : LineageReady platform Shop.visit.draws shop Retargeted.row where
  tenant := by decide +kernel
  hosts := isOk_iff.1 (by decide +kernel)
  generations := by decide +kernel

theorem setting {row : Row} (h : row ∈ shop.deployments.rows) : Setting platform Shop.visit shop row where
  known := h
  normalized r hr _ := by
    have hall : ∀ r ∈ shop.deployments.rows, normalizeDeploymentStatus r.status = .ok r.status := by decide +kernel
    exact hall r hr
  project := by
    have hall : ∀ r ∈ shop.deployments.rows, r.projectId = "prj" := by decide +kernel
    exact ⟨by rw [hall row h]; decide, fun r hr _ => (hall r hr).trans (hall row h).symm⟩
  service := by
    have hall : ∀ r ∈ shop.deployments.rows, r.serviceId = "svc" := by decide +kernel
    rw [hall row h]
    exact ⟨Retargeted.service, rfl, by decide, by decide⟩
  unused := by decide +kernel
  quota _ _ := rfl
  fresh := by decide +kernel
  checked := by decide +kernel
  lineages lineage hlineage := List.mem_singleton.1 hlineage ▸ lineageReady

end Mixed

open Retried (platform) in
/-- The page offers to retry a preview without a lineage, and the repository refuses. -/
theorem offered_retry_refused : ∃ (db : PreviewDb) (row : Row), Setting platform Shop.visit db row ∧
    eligibleHistoryAction Shop.compareIds row (db.deployments.select fun r => r.serviceId = row.serviceId) true
      (positiveInteger row.snapshotVersion) = .ok (some (Shop.retryAction "dep_1")) ∧
    ¬ Accepted Shop.compareIds platform Shop.visit db row (Shop.retryAction "dep_1") := by
  refine ⟨Mixed.shop, Mixed.legacy, Mixed.setting (by decide +kernel), by decide +kernel, ?_⟩
  rintro ⟨made, hcall⟩
  have hrefused : (createDeploymentOperation platform Shop.visit.draws Mixed.shop
    (request Shop.visit Mixed.legacy (Shop.retryAction "dep_1"))).isOk = false := by decide +kernel
  rw [hcall] at hrefused
  cases hrefused

open Mixed Retried Retargeted in
theorem history_offers_iff_production :
    Accepted Shop.compareIds platform Shop.visit shop (production "dep_2" "READY" 2) redeployAction ∧
    Accepted Shop.compareIds platform Shop.visit shop attempt (Shop.retryAction "dep_pr") := by
  constructor
  · refine (history_offers_iff (Mixed.setting ?_) (by decide +kernel)).2 ⟨production "dep_2" "READY" 2, ?_, ?_, ?_⟩
    all_goals decide +kernel
  · refine (history_offers_iff (Mixed.setting ?_) (by decide +kernel)).2 (show retriable _ _ = true from ?_)
    all_goals decide +kernel

end RaibitServer.Deployments.History
