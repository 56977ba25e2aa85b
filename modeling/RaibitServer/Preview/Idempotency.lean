import RaibitServer.Lib.Trim
import RaibitServer.Preview.Operations

/-!
# Preview.Idempotency — operations on deployments happen once

Calls of `createDeploymentOperation`, one transaction after the other: the advisory lock of a service orders
its calls, and those of other services write other rows.  Between them the rest of the system writes as well;
a rollout queues a second job for its deployment.  A key is used once; a repeated one gets the deployment and
the job that were made for it, or a conflict.  A new successor is made only while nothing of its service is
active, and is pinned to a commit or to a digest.
-/

namespace RaibitServer.Preview

open Lib Core

variable {host : OperationHost} {draws : OperationDraws} {db db' : PreviewDb} {input : DeploymentOperation}

/-! ### What a successor is made of -/

variable {source candidate successor : DeploymentRow} {commit : String}

theorem snapshotOf_ok {snapshot : SpecSnapshot} :
    snapshotOf source input = .ok snapshot ↔
      source.snapshotVersion = some 1 ∧ source.desiredSpecSnapshot = some snapshot ∧ input.snapshotVersion = 1 := by
  simp only [snapshotOf, bind_ok, orThrow_ok, throwIf_ok, pure_ok, Option.filter_eq_some_iff, decide_eq_true_eq]
  constructor
  · rintro ⟨version, ⟨hversion, -⟩, found, hfound, _, hstale, rfl⟩
    obtain ⟨hone, hinput⟩ := not_or.1 hstale
    obtain rfl := not_not.1 hone
    exact ⟨hversion, hfound, not_not.1 hinput⟩
  · rintro ⟨hversion, hfound, hinput⟩
    exact ⟨1, ⟨hversion, by decide⟩, snapshot, hfound, (), by simp [hinput], rfl⟩

/-- When there is a successor, and which. -/
theorem deploymentSuccessor_ok {source : Option DeploymentRow} :
    deploymentSuccessor draws source input = .ok candidate ↔
      ∃ row status snapshot commit image, source = some row ∧ row.serviceId = input.serviceId ∧
        normalizeDeploymentStatus row.status = .ok status ∧ status ∈ input.operation.eligible ∧
        snapshotOf row input = .ok snapshot ∧ successorCommit row (sourceKind row snapshot) = .ok commit ∧
        successorImage row (sourceKind row snapshot) = .ok image ∧ successorOf draws row input commit image = candidate := by
  simp only [deploymentSuccessor, bind_ok, orThrow_ok, throwIf_ok, pure_ok, Option.filter_eq_some_iff,
    decide_eq_true_eq, not_not]
  constructor
  · rintro ⟨row, ⟨rfl, hservice⟩, status, hstatus, _, heligible, snapshot, hsnapshot, commit, hcommit, image, himage, rfl⟩
    exact ⟨row, status, snapshot, commit, image, rfl, hservice, hstatus, heligible, hsnapshot, hcommit, himage, rfl⟩
  · rintro ⟨row, status, snapshot, commit, image, rfl, hservice, hstatus, heligible, hsnapshot, hcommit, himage, rfl⟩
    exact ⟨row, ⟨rfl, hservice⟩, status, hstatus, (), heligible, snapshot, hsnapshot, commit, hcommit, image, himage, rfl⟩

theorem commitPattern_ne (h : commitPattern commit = true) : commit ≠ "" := by
  rintro rfl
  cases h

theorem immutableGitCommit_ok (h : immutableGitCommit source = .ok commit) : commitPattern commit = true := by
  unfold immutableGitCommit at h
  obtain ⟨_, hcheck, h⟩ := bind_ok.1 h
  rw [← pure_ok.1 h, ← Bool.not_eq_false]
  exact (not_or.1 (throwIf_ok.1 hcheck)).1

theorem immutableImage_ok {image : ImageReference} (h : immutableImage source = .ok image) :
    digestPattern image.imageDigest = true ∧ ∃ repository, image.imageUrl = repository ++ "@" ++ image.imageDigest := by
  unfold immutableImage at h
  obtain ⟨_, hcheck, h⟩ := bind_ok.1 h
  rw [← pure_ok.1 h]
  dsimp only
  refine ⟨?_, _, rfl⟩
  rw [← Bool.not_eq_false]
  exact fun hdigest => throwIf_ok.1 hcheck (.inr (.inr (.inr (.inl hdigest))))

/-! ### The tables -/

/-- `"headSha" ~ '^([0-9a-f]{40}|[0-9a-f]{64})$'`. -/
def headPattern (s : String) : Bool :=
  (s.toList.length = 40 || s.toList.length = 64) && s.toList.all Text.lowerHex

/-- The constraints of the tables, and a job beside every deployment with a key. -/
structure Consistent (db : PreviewDb) : Prop where
  keys : ∀ a ∈ db.deployments.rows, ∀ b ∈ db.deployments.rows, a.serviceId = b.serviceId →
    a.requestIdempotencyKey = b.requestIdempotencyKey → a.requestIdempotencyKey.isSome = true → a = b
  services : ∀ a ∈ db.deployments.rows, ∃ service ∈ db.services, service.id = a.serviceId
  jobs : ∀ a ∈ db.deployments.rows, a.requestIdempotencyKey.isSome = true →
    ∃ job ∈ db.jobs.rows, job.targetId = a.id ∧ job.targetType = "deployment"
  heads : ∀ row ∈ db.lineages.rows, headPattern row.lineage.headSha = true

instance (db : PreviewDb) : Decidable (Consistent db) :=
  decidable_of_iff (_ ∧ _ ∧ _ ∧ _)
    ⟨fun h => ⟨h.1, h.2.1, h.2.2.1, h.2.2.2⟩, fun h => ⟨h.keys, h.services, h.jobs, h.heads⟩⟩

/-! ### One call -/

theorem usedKey_mem {existing : DeploymentRow} (h : usedKey db input = some existing) :
    existing ∈ db.deployments.rows ∧ existing.serviceId = input.serviceId ∧
      existing.requestIdempotencyKey = some input.requestIdempotencyKey := by
  have hfound := List.find?_some h
  simp only [Bool.and_eq_true, decide_eq_true_eq] at hfound
  exact ⟨List.mem_of_find?_eq_some h, hfound⟩

/-- A successor as it is written: that of a preview takes the head of its lineage. -/
inductive Written (db : PreviewDb) (source candidate : DeploymentRow) : DeploymentRow → Prop
  | plain : Written db source candidate candidate
  | attempt {row : LineageRow} {runtime : PreviewRuntime} (known : row ∈ db.lineages.rows)
      (head : source.commitSha = row.lineage.headSha) :
      Written db source candidate (nextAttempt row.lineage runtime candidate)

/-- What a call with a new key has checked and written. -/
structure Created (draws : OperationDraws) (db : PreviewDb) (input : DeploymentOperation) (db' : PreviewDb)
    (source candidate successor : DeploymentRow) : Prop where
  selected : operationSource db input = some source
  retried : ∃ lineage, retriedLineage db (some source) = .ok lineage
  derived : deploymentSuccessor draws (some source) input = .ok candidate
  written : Written db source candidate successor
  settled : ∀ row ∈ db.deployments.rows, row.serviceId = input.serviceId →
    terminalDeploymentStatuses.contains row.status = true
  deployments : db.deployments.insert? successor = some db'.deployments
  jobs : db.jobs.insert? (successorJob draws successor input) = some db'.jobs
  lineages : ∀ row ∈ db'.lineages.rows, ∃ old ∈ db.lineages.rows, row.lineage.headSha = old.lineage.headSha
  services : db'.services = db.services

theorem advanceCandidate_ok {row : Option LineageRow}
    (h : advanceCandidate host.toWebhookHost db row candidate = .ok (db', successor)) :
    (row = none ∧ db' = db ∧ successor = candidate) ∨
      ∃ lineage runtime, row = some lineage ∧ successor = nextAttempt lineage.lineage runtime candidate ∧
        db' = { db with lineages := db.lineages.put { lineage with lineage := advancedLineage lineage.lineage } } := by
  cases row with
  | none =>
    obtain ⟨rfl, rfl⟩ := Prod.mk.inj (Except.ok.inj h)
    exact .inl ⟨rfl, rfl, rfl⟩
  | some lineage =>
    obtain ⟨runtime, -, h⟩ := bind_ok.1 h
    obtain ⟨db₁, hupdate, h⟩ := bind_ok.1 h
    obtain ⟨rfl, rfl⟩ := Prod.mk.inj (pure_ok.1 h)
    exact .inr ⟨lineage, runtime, rfl, rfl, (updateLineage_ok hupdate).2⟩

theorem createDeploymentOperation_new {reply : OperationReply}
    (h : createDeploymentOperation host draws db input = .ok (db', reply)) (hnew : usedKey db input = none) :
    ∃ source candidate successor, Created draws db input db' source candidate successor ∧
      reply = ⟨successor.id, draws.jobId, successor.status⟩ := by
  unfold createDeploymentOperation at h
  obtain ⟨service, -, h⟩ := bind_ok.1 h
  rw [hnew] at h
  obtain ⟨row, hrow, h⟩ := bind_ok.1 h
  obtain ⟨candidate, hcandidate, h⟩ := bind_ok.1 h
  obtain ⟨⟨db₁, successor⟩, hadvance, h⟩ := bind_ok.1 h
  obtain ⟨db₂, henqueue, h⟩ := bind_ok.1 h
  obtain ⟨rfl, rfl⟩ := Prod.mk.inj (pure_ok.1 h)
  obtain ⟨deployments, jobs, hdeployments, hjobs, hsettled, hdb₂⟩ := enqueueSuccessor_ok henqueue
  obtain ⟨source, -, -, -, -, hsource, -⟩ := deploymentSuccessor_ok.1 hcandidate
  rw [hsource] at hrow hcandidate
  refine ⟨source, candidate, successor, ?_, rfl⟩
  -- What the lineages of the new state are, whether or not the candidate is noted in one.
  have hlineages : ∀ row ∈ db₂.lineages.rows, ∃ old ∈ db₁.lineages.rows,
      row.lineage.headSha = old.lineage.headSha := by
    intro row hrow
    rw [hdb₂] at hrow
    cases hlineage : successor.previewLineageId with
    | none =>
      rw [hlineage] at hrow
      exact ⟨row, hrow, rfl⟩
    | some lineageId =>
      -- the edit of the candidate leaves the heads alone
      rw [hlineage] at hrow
      obtain ⟨old, hold, rfl⟩ := (@Keyed.mem_update _ _ _ _ _ _ (setSuccessor_id successor) _).1 hrow
      refine ⟨old, hold, ?_⟩
      split_ifs <;> rfl
  obtain rfl := hdb₂
  rcases advanceCandidate_ok hadvance with ⟨rfl, rfl, rfl⟩ | ⟨lineage, runtime, rfl, rfl, rfl⟩
  · refine ⟨hsource, ⟨_, hrow⟩, hcandidate, .plain, hsettled, ?_, ?_, hlineages, ?_⟩
    · rw [hdeployments]
      cases successor.previewLineageId <;> rfl
    · rw [hjobs]
      cases successor.previewLineageId <;> rfl
    · cases successor.previewLineageId <;> rfl
  · obtain ⟨hknown, hhead⟩ := retriedLineage_ok hrow
    refine ⟨hsource, ⟨_, hrow⟩, hcandidate, .attempt hknown hhead, hsettled, hdeployments, hjobs, fun row hrow => ?_, rfl⟩
    obtain ⟨old, hold, hhead⟩ := hlineages row hrow
    rcases Keyed.mem_put.1 hold with rfl | ⟨hold, -⟩
    · exact ⟨lineage, hknown, hhead⟩
    · exact ⟨old, hold, hhead⟩

/-! ### What a successor is pinned to -/

theorem Written.fields (h : Written db source candidate successor) :
    successor.id = candidate.id ∧ successor.serviceId = candidate.serviceId ∧
      successor.requestIdempotencyKey = candidate.requestIdempotencyKey ∧
      successor.sourceDeploymentId = candidate.sourceDeploymentId ∧
      successor.desiredSpecSnapshot = candidate.desiredSpecSnapshot ∧ successor.imageUrl = candidate.imageUrl ∧
      successor.imageDigest = candidate.imageDigest := by
  cases h <;> exact ⟨rfl, rfl, rfl, rfl, rfl, rfl, rfl⟩

theorem labelChar_of_lowerHex {c : Char} (h : Text.lowerHex c = true) : Label.labelChar c = true := by
  have hascii : ∀ n ≤ 102, 48 ≤ n ∧ n ≤ 57 ∨ 97 ≤ n → Label.labelChar (Char.ofNat n) = true := by decide
  have hrange := Text.lowerHex_toNat h
  have hlabel := hascii c.toNat (by omega) (by omega)
  rwa [Char.ofNat_toNat] at hlabel

theorem jsLower_of_lowerHex {s : String} (h : s.toList.all Text.lowerHex = true) : Text.jsLower (Text.jsTrim s) = s := by
  have hlabel : ∀ c ∈ s.toList, Label.labelChar c = true :=
    fun c hc => labelChar_of_lowerHex (List.all_eq_true.1 h c hc)
  unfold Text.jsTrim
  rw [Text.trimBy_eq_self fun c hc => isJsSpace_of_labelChar (hlabel c hc)]
  exact Text.jsLower_eq_self fun c hc => jsLowerChar_of_labelChar (hlabel c hc)

/-- The head of a lineage that a commit was read from is that commit. -/
theorem commitPattern_head (h : immutableGitCommit source = .ok commit) (hhead : headPattern source.commitSha = true) :
    commitPattern source.commitSha = true := by
  have hpattern := immutableGitCommit_ok h
  simp only [headPattern, Bool.and_eq_true] at hhead
  have hne : source.commitSha ≠ "" := by
    rintro hempty
    rw [hempty] at hhead
    cases hhead.1
  unfold immutableGitCommit at h
  obtain ⟨_, -, h⟩ := bind_ok.1 h
  rw [← pure_ok.1 h, jsLower_of_lowerHex hhead.2, Text.jsOr_of_ne hne] at hpattern
  exact hpattern

/-- The successor has the key of its request and the snapshot of its source; its commit is a full one, or its
image has a digest. -/
structure Pinned (db : PreviewDb) (input : DeploymentOperation) (successor : DeploymentRow) : Prop where
  service : successor.serviceId = input.serviceId
  key : successor.requestIdempotencyKey = some input.requestIdempotencyKey
  derived : ∃ source ∈ db.deployments.rows, ∃ snapshot, successor.sourceDeploymentId = some source.id ∧
    source.desiredSpecSnapshot = some snapshot ∧ successor.desiredSpecSnapshot = some snapshot ∧
    (sourceKind source snapshot = .git →
      commitPattern successor.commitSha = true ∧ commitPattern successor.commitHash = true) ∧
    (sourceKind source snapshot = .image → digestPattern successor.imageDigest = true ∧
      ∃ repository, successor.imageUrl = repository ++ "@" ++ successor.imageDigest)

theorem Created.pinned (hdb : Consistent db) (h : Created draws db input db' source candidate successor)
    (hsource : source ∈ db.deployments.rows) : Pinned db input successor := by
  obtain ⟨row, status, snapshot, commit, image, hrow, hservice, -, -, hsnapshot, hcommit, himage, rfl⟩ :=
    deploymentSuccessor_ok.1 h.derived
  obtain rfl := Option.some.inj hrow
  obtain ⟨-, hfound, -⟩ := snapshotOf_ok.1 hsnapshot
  obtain ⟨-, hservice', hkey, hsource', hsnapshot', hurl, hdigest⟩ := h.written.fields
  refine ⟨hservice'.trans hservice, hkey, source, hsource, snapshot, hsource', hfound, hsnapshot'.trans hfound,
    fun hgit => ?_, fun himageKind => ?_⟩
  · unfold successorCommit at hcommit
    rw [if_pos hgit] at hcommit
    cases h.written with
    | plain =>
      have hpattern := immutableGitCommit_ok hcommit
      have hsha : (successorOf draws source input commit image).commitSha = commit :=
        Text.jsOr_of_ne (commitPattern_ne hpattern)
      have hhash : (successorOf draws source input commit image).commitHash = commit :=
        Text.jsOr_of_ne (commitPattern_ne hpattern)
      rw [hsha, hhash]
      exact ⟨hpattern, hpattern⟩
    | @attempt lineage runtime hknown hhead =>
      have hvalid := hdb.heads lineage hknown
      rw [← hhead] at hvalid
      have hpattern := commitPattern_head hcommit hvalid
      rw [hhead] at hpattern
      exact ⟨hpattern, hpattern⟩
  · unfold successorImage at himage
    rw [if_pos himageKind] at himage
    obtain ⟨hpattern, repository, hpinned⟩ := immutableImage_ok himage
    rw [hdigest, hurl]
    exact ⟨hpattern, repository, hpinned⟩

theorem operationSource_mem (h : operationSource db input = some source) : source ∈ db.deployments.rows := by
  unfold operationSource at h
  split at h
  · exact (Keyed.get?_eq_some.1 h).1
  · exact (List.mem_filter.1 (newestBy_mem h)).1

/-! ### Runs -/

/-- A call and its answer. -/
structure OperationCall where
  input : DeploymentOperation
  draws : OperationDraws
  answer : Except TxError OperationReply

inductive OperationEvent
  | call (call : OperationCall)
  | other

/-- The answer to a call and the tables after it.  A transaction that throws is rolled back. -/
def operate (host : OperationHost) (draws : OperationDraws) (db : PreviewDb) (input : DeploymentOperation) :
    Except TxError OperationReply × PreviewDb :=
  match createDeploymentOperation host draws db input with
  | .ok (db', reply) => (.ok reply, db')
  | .error e => (.error e, db)

/-- `randomUUID`: no deployment has the id, and no job was made for it. -/
def OperationDraws.Fresh (draws : OperationDraws) (db : PreviewDb) : Prop :=
  "dep_" ++ draws.uuid ∉ db.deployments.keys ∧ ∀ job ∈ db.jobs.rows, job.targetId ≠ "dep_" ++ draws.uuid

/-- The jobs that carry the request of an operation, with their targets. -/
def requests (db : PreviewDb) : List (String × String) :=
  (db.jobs.select fun job => job.payload.operationRequest.isSome).map fun job => (job.id, job.targetId)

/-- What else is written between two calls.  Only `successorJob` puts a request into a job, and no job is ever
deleted; deployments may be. -/
structure Outside (db db' : PreviewDb) : Prop where
  consistent : Consistent db'
  requests : ∀ entry, entry ∈ requests db' ↔ entry ∈ requests db

def OperationStep (host : OperationHost) (db : PreviewDb) : OperationEvent → PreviewDb → Prop
  | .call call, db' => call.draws.Fresh db ∧ operate host call.draws db call.input = (call.answer, db')
  | .other, db' => Outside db db'

/-- The call has made the deployment of its reply. -/
def OperationCall.Makes (call : OperationCall) (reply : OperationReply) : Prop :=
  call.answer = .ok reply ∧ reply.deploymentId = "dep_" ++ call.draws.uuid

/-- **What the service can count on**, of a call after a run. -/
structure ExactlyOnce (events : List OperationEvent) (db : PreviewDb) (call : OperationCall) (db' : PreviewDb) :
    Prop where
  /-- The key was used: its deployment and the job of the request, or a conflict. -/
  replayed : ∀ existing ∈ db.deployments.rows, existing.serviceId = call.input.serviceId →
    existing.requestIdempotencyKey = some call.input.requestIdempotencyKey → db' = db ∧
      (call.answer = .error (operationError "IDEMPOTENCY_CONFLICT" 409) ∨
        ∃ job ∈ db.jobs.rows, job.targetId = existing.id ∧ job.targetType = "deployment" ∧
          job.payload.operationRequest = some (operationIdentity call.input) ∧
          call.answer = .ok ⟨existing.id, job.id, existing.status⟩)
  /-- The key was used in this run: the job is the one that was named then. -/
  repeated : ∀ first reply, .call first ∈ events → first.Makes reply → ∀ existing ∈ db.deployments.rows,
    existing.id = reply.deploymentId → existing.serviceId = call.input.serviceId →
    existing.requestIdempotencyKey = some call.input.requestIdempotencyKey →
      call.answer = .error (operationError "IDEMPOTENCY_CONFLICT" 409) ∨
        call.answer = .ok ⟨reply.deploymentId, reply.operationId, existing.status⟩
  /-- The key is new: nothing of the service is active, and the successor is pinned. -/
  created : ∀ reply, call.answer = .ok reply → usedKey db call.input = none →
    (∀ row ∈ db.deployments.rows, row.serviceId = call.input.serviceId →
      terminalDeploymentStatuses.contains row.status = true) ∧
    ∃ successor ∈ db'.deployments.rows, successor.id = reply.deploymentId ∧ Pinned db call.input successor
  failed : ∀ e, call.answer = .error e → db' = db

theorem Created.consistent (hdb : Consistent db) (h : Created draws db input db' source candidate successor)
    (hnew : usedKey db input = none) : Consistent db' := by
  obtain ⟨-, hrows⟩ := Keyed.insert?_rows h.deployments
  obtain ⟨-, hjobs⟩ := Keyed.insert?_rows h.jobs
  have hpinned := h.pinned hdb (operationSource_mem h.selected)
  have hunused : ∀ a ∈ db.deployments.rows, a.serviceId = successor.serviceId →
      a.requestIdempotencyKey ≠ successor.requestIdempotencyKey := by
    intro a ha hservice hkey
    have hnone := List.find?_eq_none.1 hnew a ha
    rw [hpinned.service] at hservice
    rw [hpinned.key] at hkey
    exact hnone (by simp [hservice, hkey])
  refine ⟨?_, ?_, ?_, ?_⟩
  · intro a ha b hb hservice hkey hsome
    rw [hrows, List.mem_append, List.mem_singleton] at ha hb
    rcases ha with ha | rfl <;> rcases hb with hb | rfl
    · exact hdb.keys a ha b hb hservice hkey hsome
    · exact absurd hkey (hunused a ha hservice)
    · exact absurd hkey.symm (hunused b hb hservice.symm)
    · rfl
  · intro a ha
    rw [h.services]
    rw [hrows, List.mem_append, List.mem_singleton] at ha
    rcases ha with ha | rfl
    · exact hdb.services a ha
    · obtain ⟨row, -, -, -, -, hrow, hservice, -⟩ := deploymentSuccessor_ok.1 h.derived
      obtain rfl := Option.some.inj hrow
      rw [hpinned.service, ← hservice]
      exact hdb.services source (operationSource_mem h.selected)
  · intro a ha hsome
    rw [hrows, List.mem_append, List.mem_singleton] at ha
    rw [hjobs]
    rcases ha with ha | rfl
    · obtain ⟨job, hjob, htarget⟩ := hdb.jobs a ha hsome
      exact ⟨job, List.mem_append_left _ hjob, htarget⟩
    · exact ⟨_, List.mem_append_right _ (List.mem_singleton_self _), rfl, rfl⟩
  · intro row hrow
    obtain ⟨old, hold, hhead⟩ := h.lineages row hrow
    rw [hhead]
    exact hdb.heads old hold

theorem Created.id_eq (h : Created draws db input db' source candidate successor) :
    successor.id = "dep_" ++ draws.uuid := by
  obtain ⟨_, _, _, _, _, -, -, -, -, -, -, -, hcandidate⟩ := deploymentSuccessor_ok.1 h.derived
  rw [h.written.fields.1, ← hcandidate]
  rfl

/-- One more job carries a request, that of the successor. -/
theorem Created.mem_requests (h : Created draws db input db' source candidate successor) {entry : String × String} :
    entry ∈ requests db' ↔ entry ∈ requests db ∨ entry = (draws.jobId, "dep_" ++ draws.uuid) := by
  unfold requests Keyed.select
  rw [(Keyed.insert?_rows h.jobs).2, List.filter_append, List.map_append, List.mem_append, ← h.id_eq]
  exact or_congr_right List.mem_singleton

/-- The deployment of a key is the one that the look-up finds. -/
theorem usedKey_eq (hdb : Consistent db) {existing : DeploymentRow} (hmem : existing ∈ db.deployments.rows)
    (hservice : existing.serviceId = input.serviceId)
    (hkey : existing.requestIdempotencyKey = some input.requestIdempotencyKey) : usedKey db input = some existing := by
  cases hused : usedKey db input with
  | none => exact absurd (List.find?_eq_none.1 hused existing hmem) (by simp [hservice, hkey])
  | some found =>
    obtain ⟨hfound, hservice', hkey'⟩ := usedKey_mem hused
    rw [hdb.keys found hfound existing hmem (hservice'.trans hservice.symm) (hkey'.trans hkey.symm) (by rw [hkey']; rfl)]

/-- What a call may come to. -/
inductive Outcome (db : PreviewDb) (call : OperationCall) (db' : PreviewDb) : Prop
  | replayed {existing : DeploymentRow} {job : JobRow} (used : usedKey db call.input = some existing)
      (known : job ∈ db.jobs.rows) (target : job.targetId = existing.id ∧ job.targetType = "deployment")
      (same : job.payload.operationRequest = some (operationIdentity call.input)) (unchanged : db' = db)
      (answer : call.answer = .ok ⟨existing.id, job.id, existing.status⟩)
  | created {source candidate successor : DeploymentRow} (unused : usedKey db call.input = none)
      (made : Created call.draws db call.input db' source candidate successor)
      (answer : call.answer = .ok ⟨successor.id, call.draws.jobId, successor.status⟩)
  | failed {e : TxError} (unchanged : db' = db) (answer : call.answer = .error e)
      (conflict : (usedKey db call.input).isSome = true → e = operationError "IDEMPOTENCY_CONFLICT" 409)

section Calls

variable {call : OperationCall} {events : List OperationEvent}

theorem outcome (hdb : Consistent db) (h : operate host call.draws db call.input = (call.answer, db')) :
    Outcome db call db' := by
  unfold operate at h
  cases hused : usedKey db call.input with
  | some existing =>
    obtain ⟨hmem, hservice, hkey⟩ := usedKey_mem hused
    obtain ⟨service, hfind⟩ : ∃ service, (db.services.find? fun row => row.id = call.input.serviceId) = some service := by
      obtain ⟨service, hknown, hid⟩ := hdb.services existing hmem
      exact Option.isSome_iff_exists.1 (List.find?_isSome.2 ⟨service, hknown, by simp [hid, hservice]⟩)
    obtain ⟨job, hjob⟩ : ∃ job, db.jobs.anyOf (fun job => job.targetId = existing.id && job.targetType = "deployment")
        call.draws.choice = some job := by
      obtain ⟨job, hknown, hid, htype⟩ := hdb.jobs existing hmem (by rw [hkey]; rfl)
      exact Keyed.exists_anyOf hknown (by simp [hid, htype]) call.draws.choice
    obtain ⟨hknown, htarget⟩ := Keyed.mem_anyOf hjob
    simp only [Bool.and_eq_true, decide_eq_true_eq] at htarget
    unfold createDeploymentOperation at h
    rw [hfind, hused] at h
    by_cases hsame : job.payload.operationRequest = some (operationIdentity call.input)
    · simp only [replayOperation, hjob, assertOperationReplay, orThrow, throwIf, hsame, ne_eq, not_true_eq_false,
        if_false, bind, Except.bind, pure, Except.pure] at h
      obtain ⟨hanswer, rfl⟩ := Prod.mk.inj h
      exact .replayed hused hknown htarget hsame rfl hanswer.symm
    · simp only [replayOperation, hjob, assertOperationReplay, orThrow, throwIf, hsame, ne_eq, not_false_eq_true,
        if_true, bind, Except.bind] at h
      obtain ⟨hanswer, rfl⟩ := Prod.mk.inj h
      exact .failed rfl hanswer.symm fun _ => rfl
  | none =>
    cases hcall : createDeploymentOperation host call.draws db call.input with
    | ok result =>
      rw [hcall] at h
      obtain ⟨hanswer, rfl⟩ := Prod.mk.inj h
      obtain ⟨source, candidate, successor, hcreated, hreply⟩ := createDeploymentOperation_new hcall hused
      exact .created hused hcreated (hanswer.symm.trans (congrArg Except.ok hreply))
    | error e =>
      rw [hcall] at h
      obtain ⟨hanswer, rfl⟩ := Prod.mk.inj h
      refine .failed rfl hanswer.symm fun hsome => ?_
      rw [hused] at hsome
      cases hsome

/-- The deployments that the calls of a run have made have one job with a request each. -/
def Answered (events : List OperationEvent) (db : PreviewDb) : Prop :=
  ∀ first reply, .call first ∈ events → first.Makes reply →
    (reply.operationId, reply.deploymentId) ∈ requests db ∧
      ∀ jobId, (jobId, reply.deploymentId) ∈ requests db → jobId = reply.operationId

theorem Outcome.consistent (hdb : Consistent db) (h : Outcome db call db') : Consistent db' := by
  cases h with
  | replayed _ _ _ _ unchanged _ => exact unchanged ▸ hdb
  | created unused made _ => exact made.consistent hdb unused
  | failed unchanged _ _ => exact unchanged ▸ hdb

theorem Outcome.exactly_once (hdb : Consistent db) (hanswered : Answered events db) (h : Outcome db call db') :
    ExactlyOnce events db call db' := by
  refine ⟨fun existing hmem hservice hkey => ?_, fun first reply hfirst hmakes existing hmem hid hservice hkey => ?_,
    fun reply hreply hnew => ?_, fun e he => ?_⟩
  · have hused := usedKey_eq hdb hmem hservice hkey
    cases h with
    | replayed used known target same unchanged answer =>
      obtain rfl := Option.some.inj (hused.symm.trans used)
      exact ⟨unchanged, .inr ⟨_, known, target.1, target.2, same, answer⟩⟩
    | created unused _ _ => cases hused.symm.trans unused
    | failed unchanged answer conflict => exact ⟨unchanged, .inl (conflict (by rw [hused]; rfl) ▸ answer)⟩
  · have hused := usedKey_eq hdb hmem hservice hkey
    cases h with
    | @replayed _ job used known target same _ answer =>
      obtain rfl := Option.some.inj (hused.symm.trans used)
      -- the job of the reply carries a request for the deployment, and there is only one
      have hentry : (job.id, reply.deploymentId) ∈ requests db := by
        refine List.mem_map.2 ⟨job, List.mem_filter.2 ⟨known, ?_⟩, by rw [target.1, hid]⟩
        rw [same]
        rfl
      right
      rw [answer, (hanswered first reply hfirst hmakes).2 job.id hentry, hid]
    | created unused _ _ => cases hused.symm.trans unused
    | failed _ answer conflict => exact .inl (conflict (by rw [hused]; rfl) ▸ answer)
  · cases h with
    | replayed used _ _ _ _ _ => cases used.symm.trans hnew
    | created _ made answer =>
      obtain rfl := Except.ok.inj (hreply.symm.trans answer)
      refine ⟨made.settled, _, ?_, rfl, made.pinned hdb (operationSource_mem made.selected)⟩
      rw [(Keyed.insert?_rows made.deployments).2]
      exact List.mem_append_right _ (List.mem_singleton_self _)
    | failed _ answer _ => cases hreply.symm.trans answer
  · cases h with
    | replayed _ _ _ _ unchanged _ => exact unchanged
    | created _ _ answer => cases he.symm.trans answer
    | failed unchanged _ _ => exact unchanged

/-- A call with a fresh id keeps the jobs of the earlier ones apart, and adds its own. -/
theorem Outcome.answered (hanswered : Answered events db) (hfresh : call.draws.Fresh db) (h : Outcome db call db') :
    Answered (events ++ [.call call]) db' := by
  have hunseen : ∀ jobId, (jobId, "dep_" ++ call.draws.uuid) ∉ requests db := by
    intro jobId hmem
    obtain ⟨job, hjob, heq⟩ := List.mem_map.1 hmem
    exact hfresh.2 job (List.mem_filter.1 hjob).1 (Prod.mk.inj heq).2
  intro first reply hfirst hmakes
  rw [List.mem_append, List.mem_singleton] at hfirst
  cases h with
  | replayed used _ _ _ unchanged answer =>
    rw [unchanged]
    rcases hfirst with hfirst | hfirst
    · exact hanswered first reply hfirst hmakes
    · -- a replay names a deployment that was there
      obtain rfl := OperationEvent.call.inj hfirst
      obtain rfl := Except.ok.inj (hmakes.1.symm.trans answer)
      exact absurd (hmakes.2 ▸ List.mem_map_of_mem (usedKey_mem used).1) hfresh.1
  | created _ made answer =>
    simp only [made.mem_requests]
    rcases hfirst with hfirst | hfirst
    · obtain ⟨hentry, honly⟩ := hanswered first reply hfirst hmakes
      refine ⟨.inl hentry, fun jobId hjob => ?_⟩
      rcases hjob with hjob | hjob
      · exact honly jobId hjob
      · rw [(Prod.mk.inj hjob).2] at hentry
        exact absurd hentry (hunseen _)
    · obtain rfl := OperationEvent.call.inj hfirst
      rw [hmakes.2, ← Except.ok.inj (answer.symm.trans hmakes.1)]
      refine ⟨.inr rfl, fun jobId hjob => ?_⟩
      rcases hjob with hjob | hjob
      · exact absurd hjob (hunseen jobId)
      · exact (Prod.mk.inj hjob).1
  | failed unchanged answer _ =>
    rw [unchanged]
    rcases hfirst with hfirst | hfirst
    · exact hanswered first reply hfirst hmakes
    · obtain rfl := OperationEvent.call.inj hfirst
      cases hmakes.1.symm.trans answer

theorem OperationStep.answered {e : OperationEvent} (h : Consistent db ∧ Answered events db)
    (hstep : OperationStep host db e db') : Consistent db' ∧ Answered (events ++ [e]) db' := by
  cases e with
  | call call =>
    have houtcome := outcome h.1 hstep.2
    exact ⟨houtcome.consistent h.1, houtcome.answered h.2 hstep.1⟩
  | other =>
    have hother : Outside db db' := hstep
    refine ⟨hother.consistent, fun first reply hfirst hmakes => ?_⟩
    simp only [hother.requests]
    refine h.2 first reply ?_ hmakes
    simpa using hfirst

/-- **Every call of every run happens once.** -/
theorem operations_exactly_once {db₀ : PreviewDb} {events : List OperationEvent} (h₀ : Consistent db₀)
    (h : Run (OperationStep host) db₀ events db) :
    Consistent db ∧ ∀ call db', OperationStep host db (.call call) db' → ExactlyOnce events db call db' := by
  obtain ⟨hdb, hanswered⟩ := h.history (I := fun events db => Consistent db ∧ Answered events db)
    (fun _ _ _ _ hs hstep => hstep.answered hs) ⟨h₀, fun _ _ hfirst => absurd hfirst List.not_mem_nil⟩
  exact ⟨hdb, fun call db' hstep => (outcome hdb hstep.2).exactly_once hdb hanswered⟩

end Calls

namespace Retried

def platform : OperationHost :=
  { sha256 := .repeated fun _ => 0
    prismaGitHubWebhookQuotaBlocks := fun _ _ _ => []
    enforcePrismaQuotaRequirements := fun _ _ _ => .ok () }

def failedRow : DeploymentRow :=
  { id := "dep_1", serviceId := "service", projectId := "project", status := "FAILED", deploymentType := "production"
    triggerType := "manual", branch := "main", commitSha := String.ofList (List.replicate 40 'a'), pullRequestNumber := 0
    previewUrl := "", previewLineageId := none, previewGeneration := none, previewRuntime := none
    snapshotVersion := some 1, desiredSpecSnapshot := some { sourceType := "git" } }

def tables : PreviewDb :=
  { webhookEvents := Keyed.empty
    services := [{ id := "service", projectId := "project", organizationId := "org" }]
    catalog := [], integrations := [], lineages := Keyed.empty, deployments := Keyed.empty.put failedRow
    jobs := Keyed.empty }

def request : DeploymentOperation :=
  { operation := .retry, requestIdempotencyKey := "key", snapshotVersion := 1, serviceId := "service"
    sourceDeploymentId := some "dep_1", requestedByUserId := "user" }

def drawn : OperationDraws := { now := 1, uuid := "2", jobId := "job" }

/-- After the first call. -/
def retried : PreviewDb := (operate platform drawn tables request).2

/-- The rollout has made the deployment ready and queued the job that observes it. -/
def rolledOut : PreviewDb :=
  { retried with
    deployments := retried.deployments.update (fun row => row.id = "dep_2") (fun row => { row with status := "READY" })
      fun _ => rfl
    jobs := retried.jobs.put { id := "observe", type := "public-health-observe", targetType := "deployment"
                               targetId := "dep_2", runAfter := 2, createdAt := 2, payload := {} } }

/-- A second call, to which a query without an order may return the other job. -/
def again (choice : Nat) : OperationCall :=
  let draws := { drawn with uuid := "3", choice }
  ⟨request, draws, (operate platform draws rolledOut request).1⟩

def events : List OperationEvent := [.call ⟨request, drawn, (operate platform drawn tables request).1⟩, .other]

theorem facts : Consistent rolledOut ∧ requests rolledOut = requests retried ∧
    (∃ row ∈ rolledOut.deployments.rows, row.serviceId = "service" ∧ row.requestIdempotencyKey = some "key") ∧
    (again 0).answer.toOption = some ⟨"dep_2", "job", "READY"⟩ ∧ (again 1).answer.toOption = none := by
  decide +kernel

theorem run : Run (OperationStep platform) tables events rolledOut := by
  have hother : Outside retried rolledOut := ⟨facts.1, fun _ => by rw [facts.2.1]⟩
  have hfirst : OperationStep platform tables (.call ⟨request, drawn, (operate platform drawn tables request).1⟩)
      retried := ⟨⟨by decide, by decide⟩, rfl⟩
  exact (Run.single hfirst).snoc hother

end Retried

open Retried in
/-- A retry whose deployment was rolled out, called again: the job of the request is found, or the other one. -/
theorem operations_exactly_once_retried : Run (OperationStep platform) tables events rolledOut ∧
    (∀ choice t, OperationStep platform rolledOut (.call (again choice)) t →
      t = rolledOut ∧ ExactlyOnce events rolledOut (again choice) t) ∧
    (again 0).answer.toOption = some ⟨"dep_2", "job", "READY"⟩ ∧ (again 1).answer.toOption = none := by
  obtain ⟨-, -, ⟨row, hrow, hservice, hkey⟩, hanswers⟩ := facts
  refine ⟨run, fun choice t hstep => ?_, hanswers⟩
  have honce := (operations_exactly_once (by decide) run).2 (again choice) t hstep
  exact ⟨(honce.replayed row hrow hservice hkey).1, honce⟩

end RaibitServer.Preview
