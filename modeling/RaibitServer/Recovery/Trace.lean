import RaibitServer.Recovery.Repository

/-!
# Recovery.Trace — sequences of calls, executed

`perform` executes one call and records what it returned or threw; a list of calls executed so is a
run of the transition system.  The sample tenant is a small one in which a backup can
be taken and restored; concrete runs start from it.
-/

namespace RaibitServer.Recovery

open Lib

section Execution

variable (P : Platform) (enforceQuota : RecoveryQuotaPolicy)

/-- One call and what it returned or threw; `none` if an identifier was not new. -/
def perform (s : RecoveryState) (call : Call) : Option (Event × RecoveryState) :=
  if Fresh P s call then
    match exec P enforceQuota s call with
    | .ok (t, output) => some (.returned call output, t)
    | .error error => some (.threw call error, s)
  else none

theorem step_of_perform (s : RecoveryState) (call : Call) (e : Event) (t : RecoveryState)
    (h : perform P enforceQuota s call = some (e, t)) : Step P enforceQuota s e t := by
  unfold perform at h
  split_ifs at h with hfresh
  split at h <;> rename_i hexec <;> obtain ⟨rfl, rfl⟩ := Prod.mk.inj (Option.some.inj h)
  · exact .returned hfresh hexec
  · exact .threw hexec

/-- A checked list of calls is a run with the checked property. -/
theorem exists_run (s : RecoveryState) (calls : List Call)
    (check : List Event → RecoveryState → Bool)
    (h : (trace (perform P enforceQuota) s calls).any (fun r => check r.1 r.2) = true) :
    ∃ es t, Run (Step P enforceQuota) s es t ∧ check es t = true :=
  Run.exists_of_trace (step_of_perform P enforceQuota) s calls check h

end Execution

/-! ### A sample tenant -/

namespace Sample

/-- A stand-in for the hash: one value for JSON texts, the length of any other text. -/
def platform : Platform where
  sha256 t := match t with
    | '{' :: _ => "0"
    | _ => toString t.length
  dateParse _ := some 0

def quota : RecoveryQuotaPolicy := fun _ _ _ => .ok ()

def digest : String := "a000000000000000000000000000000000000000000000000000000000000000"

def resource : RecoveryResource where
  id := "res_1"
  projectId := "prj_1"
  name := "main"
  slug := "main"
  type := "database"
  engine := "postgresql"
  provider := "kubernetes"
  plan := "small"
  region := "seoul"
  version := some "16"
  status := "READY"
  deletionRequestedAt := none
  desiredSpec := [("storageGb", .num 10)]
  desiredState := [
    ("providerImageProvenance", .obj [("schema", .str imageSchema),
      ("image", .str "pg@sha256:a000000000000000000000000000000000000000000000000000000000000000"),
      ("workloadUid", .str "uid-1"),
      ("workloadGeneration", .num 1), ("observedAt", .str "2026-01-01T00:00:00.000Z")]),
    ("providerIdentity", .obj [("namespace", .str "tenant"), ("name", .str "main")]),
    ("credentialSecretUID", .str "secret-1"),
    ("credentialSecretGeneration", .str "ggggggggggggggggggggggggggggggggggggggggggg")]
  connectionSecretName := some "main-connection"

/-- One owner, one project, one ready database; no recovery yet. -/
def state : RecoveryState where
  organizations := ["org_1"]
  projects := [{ id := "prj_1", organizationId := "org_1", status := "ACTIVE",
                 deletionRequestedAt := none }]
  resources := [resource]
  members := [{ organizationId := "org_1", userId := "usr_1", role := "OWNER" }]
  backups := []
  restores := []
  pins := []
  attempts := []
  jobs := []
  auditEvents := []

theorem state_empty : EmptyTables state := ⟨rfl, rfl, rfl, rfl, rfl⟩

def clock (t : Millis) : Clock := { now := none, host := t }

def backupRequest : RecoveryRequest where
  organizationId := "org_1"
  actorUserId := "usr_1"
  sourceId := "res_1"
  body := .obj [("requestIdempotencyKey", .str "k"), ("formatVersion", .num 1)]
  clock := clock 0

def createBackup : Call := .createBackup backupRequest { operation := "1", target := "1", pin := "1" }

def createRestore (t : Millis) : Call :=
  .createRestore { organizationId := "org_1", actorUserId := "usr_1", sourceId := "backup_1",
                   body := .obj [("requestIdempotencyKey", .str "k"), ("formatVersion", .num 1),
                     ("name", .str "copy")],
                   clock := clock t }
    { operation := "1", target := "2", pin := "2" }

def claimOf (kind : RecoveryKind) (id worker : String) (t : Millis) : RecoveryClaim :=
  { organizationId := "org_1", kind, operationId := id, workerId := worker, clock := clock t }

/-- A claim of the sample backup. -/
def claim (worker : String) (t : Millis) : Call := .claim (claimOf .backup "backup_1" worker t)

/-- A mutation of the sample backup. -/
def mutate (worker : String) (attempt : Nat) (t : Millis) (mutation : RecoveryMutation) : Call :=
  .mutate { claimOf .backup "backup_1" worker t with attempt } mutation

def artifact : RecoveryArtifact := { checksum := digest, size := "7", keyVersion := "v1" }

/-- The journal steps of one attempt up to a complete upload. -/
def journalSteps (worker : String) (attempt : Nat) (t : Millis) : List Call :=
  [mutate worker attempt t (.intent "v1"), mutate worker attempt t (.upload "u1"),
    mutate worker attempt t (.candidate "7" "5" digest), mutate worker attempt t .complete]

/-- A backup that one attempt verifies and publishes. -/
def publication : List Call :=
  [createBackup, claim "w1" 0] ++ journalSteps "w1" 1 1 ++
    [mutate "w1" 1 2 .verify, mutate "w1" 1 2 (.ready (some artifact))]

end Sample

end RaibitServer.Recovery
