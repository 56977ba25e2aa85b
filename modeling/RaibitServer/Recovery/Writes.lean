import RaibitServer.Recovery.Refinement
import RaibitServer.Recovery.Trace

/-!
# Recovery.Writes — what a call writes into the operation tables

`Effect` says how a step moves a cell; `Wrote` says it of a call: which row it adds or rewrites, that
a rewritten row keeps the request it was created for, and what becomes of its cleanup lease.
-/

namespace RaibitServer.Recovery

open Lib

variable {P : Platform} {enforceQuota : RecoveryQuotaPolicy} {s s' : RecoveryState}

/-- The resource of a backup, the backup of a restore. -/
def Operation.source : Operation → String
  | .backup b => b.resourceId
  | .restore r => r.backupId

@[simp] theorem Operation.source_update (f : RecoveryBase → RecoveryBase) (o : Operation) :
    (o.update f).source = o.source := by cases o <;> rfl

/-- An operation stays with the request it was created for. -/
structure SameRequest (o o' : Operation) : Prop where
  id : o'.id = o.id
  kind : o'.kind = o.kind
  organizationId : o'.base.organizationId = o.base.organizationId
  source : o'.source = o.source
  key : o'.base.requestIdempotencyKey = o.base.requestIdempotencyKey
  fingerprint : o'.base.requestFingerprint = o.base.requestFingerprint

theorem SameRequest.refl (o : Operation) : SameRequest o o := ⟨rfl, rfl, rfl, rfl, rfl, rfl⟩

theorem SameRequest.trans {o₁ o₂ o₃ : Operation} (h₁ : SameRequest o₁ o₂) (h₂ : SameRequest o₂ o₃) :
    SameRequest o₁ o₃ :=
  ⟨h₂.id.trans h₁.id, h₂.kind.trans h₁.kind, h₂.organizationId.trans h₁.organizationId,
    h₂.source.trans h₁.source, h₂.key.trans h₁.key, h₂.fingerprint.trans h₁.fingerprint⟩

theorem sameRequest_failOperation (o : Operation) (code : String) (now : Millis) :
    SameRequest o (failOperation o code now) := by
  constructor <;> simp [failOperation]

theorem sameRequest_startOperation (o : Operation) (deadline now : Millis) :
    SameRequest o (startOperation o deadline now) := by
  constructor <;> simp [startOperation]

theorem Mutation.sameRequest {n now m c pins c' pins'} (h : Mutation n now m c pins c' pins') :
    SameRequest c.operation c'.operation := by
  cases h with
  | fail => exact sameRequest_failOperation _ _ _
  | verify _ _ => constructor <;> simp [verifyOperation]
  | _ => exact ⟨rfl, rfl, rfl, rfl, rfl, rfl⟩

theorem Change.sameRequest {l c pins c' pins'} (h : Change l c pins c' pins') :
    SameRequest c.operation c'.operation := by
  cases h with
  | claimFailed _ => exact sameRequest_failOperation _ _ _
  | claimed _ _ _ _ => exact sameRequest_startOperation _ _ _
  | mutated _ apply => exact apply.sameRequest
  | _ => exact ⟨rfl, rfl, rfl, rfl, rfl, rfl⟩

theorem cellRun_sameRequest {c c' : Cell} {ls : List (Option Label)} (h : Run CellStep c ls c') :
    SameRequest c.operation c'.operation ∧ c'.job.id = c.job.id := by
  refine h.relates (I := fun _ => True)
    (R := fun c c' : Cell => SameRequest c.operation c'.operation ∧ c'.job.id = c.job.id)
    (fun _ _ _ _ _ => trivial) (fun c _ => ⟨.refl c.operation, rfl⟩) ?_ ?_ trivial
  · exact fun _ _ _ h₁ h₂ => ⟨h₁.1.trans h₂.1, h₂.2.trans h₁.2⟩
  · rintro _ _ _ - ⟨_, _, change⟩
    exact ⟨change.sameRequest, change.sameKeys.jobId⟩

/-! ### Calls -/

/-- The creation of a backup or of a restore. -/
def RecoveryKind.create : RecoveryKind → RecoveryRequest → FreshIds → Call
  | .backup => .createBackup
  | .restore => .createRestore

/-- The operation and the job that a request creates. -/
structure Born (P : Platform) (s : RecoveryState) (request : RecoveryRequest) (kind : RecoveryKind)
    (body : RecoveryBody) (created : Created) : Prop where
  accepted : recoveryBody request.body (kind = .restore) = .ok body
  new : existingOperation s request body kind = none
  sameKind : created.operation.kind = kind
  organizationId : created.operation.base.organizationId = request.organizationId
  source : created.operation.source = request.sourceId
  key : created.operation.base.requestIdempotencyKey = body.requestIdempotencyKey
  fingerprint : created.operation.base.requestFingerprint = requestFingerprint P request body kind
  lease : created.operation.lease = (none, none, none)
  target : created.job.targetId = created.operation.id

/-- What a call that returns has written. -/
inductive Wrote (P : Platform) (s s' : RecoveryState) (call : Call) (output : Output) : Prop
  | replayed {kind request ids created} (call_eq : call = RecoveryKind.create kind request ids)
      (output_eq : output = .created created) (replay : created.replay = true) (same : s' = s)
  | created {kind request ids created body} (call_eq : call = RecoveryKind.create kind request ids)
      (output_eq : output = .created created) (replay : created.replay = false)
      (born : Born P s request kind body created)
      (operations : s'.operations.Perm (created.operation :: s.operations))
      (jobs : s'.jobs = s.jobs ++ [created.job])
  | again {request} (call_eq : call = .requestBackupDeletion request) (same : s' = s)
  | rewrote {o o'} (mem : o ∈ s.operations) (same : SameRequest o o') (lease : LeaseMove P o o' call)
      (operations : s'.operations = Table.replace Operation.id o' s.operations)

variable {o o' : Operation} {body : RecoveryBody} {ids : FreshIds} {request : RecoveryRequest}

/-! ### Creation -/

theorem readySource_ok {resourceId organizationId : String} {source : RecoveryResource}
    {provenance : CapturedProvenance}
    (h : readySource P s resourceId organizationId = .ok (source, provenance)) : source.id = resourceId := by
  simp only [readySource, activeRecoveryResource, bind_ok, orThrow_ok, throwIf_ok, pure_ok,
    Prod.mk.injEq, exists_const] at h
  obtain ⟨source', ⟨row, hrow, -, -, -, rfl⟩, -, -, -, -, rfl, -⟩ := h
  have hfound := List.find?_some hrow
  simpa using hfound

theorem create_wrote {kind : RecoveryKind} {r : Created} (h : create P enforceQuota s request kind ids = .ok (s', r)) :
    Wrote P s s' (kind.create request ids) (.created r) := by
  obtain ⟨hreplay, hsame⟩ | ⟨body, now, hbody, hnew, ⟨rfl, hrow⟩ | ⟨rfl, hrow⟩⟩ := create_ok h
  · exact .replayed rfl rfl hreplay hsame
  · simp only [createBackupRow, bind_ok, pure_ok, Prod.mk.injEq] at hrow
    obtain ⟨⟨source, provenance⟩, hsource, rfl, rfl⟩ := hrow
    refine .created rfl rfl rfl ⟨hbody, hnew, rfl, rfl, readySource_ok hsource, rfl, rfl, rfl, rfl⟩ ?_ rfl
    simp only [RecoveryState.operations, List.map_append, List.map_cons, List.map_nil, List.append_assoc,
      List.singleton_append]
    exact List.perm_middle
  · simp only [createRestoreRow, bind_ok, throwIf_ok, orThrow_ok, pure_ok, Prod.mk.injEq, exists_const] at hrow
    obtain ⟨b, hb, ⟨source, provenance⟩, -, -, -, -, desiredSpec, -, rfl, rfl⟩ := hrow
    refine .created rfl rfl rfl ⟨hbody, hnew, rfl, rfl, (recoveryBackup_ok hb).2, rfl, rfl, rfl, rfl⟩ ?_ rfl
    simp only [RecoveryState.operations, List.map_append, List.map_cons, List.map_nil]
    rw [← List.append_assoc]
    exact List.perm_append_singleton _ _

theorem Moved.wrote {call : Call} {l : Option (String × Label)} (h : Moved P s s' call l) (output : Output) :
    Wrote P s s' call output := by
  obtain ⟨cell, change, writes, lease, -⟩ := h
  exact .rewrote (cell_eq_some cell).1 change.sameRequest lease writes.operations

/-- **What a call that returns has written into the operation tables.** -/
theorem exec_wrote (hk : Keyed s) {call : Call} {output : Output}
    (h : exec P enforceQuota s call = .ok (s', output)) : Wrote P s s' call output := by
  cases call <;> obtain ⟨a, ha, rfl⟩ := answer_ok h
  case createBackup => exact create_wrote ha
  case createRestore => exact create_wrote ha
  case requestBackupDeletion =>
    rcases requestBackupDeletion_moved hk ha with same | h
    · exact .again rfl same
    · exact h.wrote _
  case claim => exact (claimRecovery_moved hk ha).wrote _
  case mutate => exact (mutateRecovery_moved hk ha).wrote _
  case cancelRestore => exact (cancelRecoveryRestore_moved hk ha).wrote _
  case expireBackup => exact (expireRecoveryBackup_moved hk ha).wrote _
  case claimCleanup => exact (claimRecoveryCleanup_moved hk ha).wrote _
  case finishCleanup => exact (finishRecoveryCleanup_moved hk ha).wrote _

/-! ### One operation for each request -/

/-- What a request with an idempotency key names. -/
def Operation.requestKey (o : Operation) : RecoveryKind × String × String × String :=
  (o.kind, o.base.organizationId, o.source, o.base.requestIdempotencyKey)

theorem SameRequest.requestKey (h : SameRequest o o') : o'.requestKey = o.requestKey := by
  unfold Operation.requestKey
  rw [h.kind, h.organizationId, h.source, h.key]

/-- After the publication the request is repeated under new identifiers, and a restore has its key too. -/
def Sample.repeated : List Call :=
  [.createBackup backupRequest { operation := "11", target := "3", pin := "3" }, createRestore 3]

end RaibitServer.Recovery
