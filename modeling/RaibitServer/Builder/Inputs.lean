import RaibitServer.Lib.GoJson
import RaibitServer.Lib.Trim
import RaibitServer.Builder.Store

/-!
# Builder.Inputs — what a build takes from the snapshot of its deployment

`deployment_snapshot.go`, and the worker's reading of the result.  A deployment with a snapshot is
built from the snapshot: `buildInputs` puts its execution fields over those of the live service and
cleans the payload of the job.  How `fmt.Sprint` writes a number, a list or an object is left to the
host.
-/

namespace RaibitServer.Builder

open Lib Text

/-! ### Records -/

/-- `controlplane.Deployment`: a column that is `NULL` is empty. -/
structure DeploymentRecord where
  id : String
  triggerType : String
  branch : String
  commitSHA : String
  commitHash : String
  imageURL : String
  imageDigest : String
  sourceDeploymentID : String
  retryOfDeploymentID : String
  snapshotVersion : Option Int
  desiredSpecSnapshot : Json

/-- The fields of `controlplane.Service` that a build reads. -/
structure ServiceRecord where
  sourceType : String
  buildMode : String
  repoURL : String
  rootDirectory : String
  buildContext : String
  dockerfilePath : String
  installCommand : String
  buildCommand : String
  startCommand : String
  outputDirectory : String
  localPath : String
  port : Int
  branch : String
  image : String
  imageURL : String
  gitHubIntegrationID : String
  gitHubInstallationID : String
  gitHubRepositoryID : String
  gitHubRepository : String
  deriving DecidableEq, Inhabited

structure GitHubBinding where
  integrationID : String := ""
  installationID : String := ""
  repositoryID : String := ""
  repository : String := ""
  deriving DecidableEq

structure DeploymentBuildSpec where
  sourceType : String := ""
  buildMode : String := ""
  repoURL : String := ""
  repositoryURL : String := ""
  rootDirectory : String := ""
  buildContext : String := ""
  dockerfilePath : String := ""
  installCommand : String := ""
  buildCommand : String := ""
  customBuildCommand : String := ""
  startCommand : String := ""
  outputDirectory : String := ""
  localPath : String := ""
  port : Int := 0
  buildArgs : GoJson.StringMap := []
  gitHubIntegrationID : String := ""
  gitHubInstallationID : String := ""
  gitHubRepositoryID : String := ""
  gitHubRepository : String := ""
  gitHub : GitHubBinding := {}
  deriving DecidableEq

inductive SnapshotError
  | ErrDeploymentSnapshot
  | ErrDeploymentSnapshotSource
  /-- A commit pin that is refused; wraps `ErrDeploymentSnapshot`. -/
  | pin (message : String)
  deriving DecidableEq

/-! ### Decoding -/

section Decoding

open GoJson

variable (sprint : Json → String)

/-- `snapshotBuildArgument.UnmarshalJSON`. -/
def snapshotBuildArgument : Json → String
  | .null => ""
  | .str s => s
  | value => sprint value

/-- Setting a key of a map. -/
def setEntry (entries : StringMap) (key value : String) : StringMap :=
  (key, value) :: entries.filter fun e => e.1 ≠ key

def buildArguments : Decoder StringMap
  | _, .null => some []
  | entries, .obj members =>
    some (members.foldl (fun entries m => setEntry entries m.1 (snapshotBuildArgument sprint m.2)) entries)
  | _, _ => none

def bindingFields : List (GoJson.Field GitHubBinding) := [
  field "IntegrationID" (·.integrationID) (fun b v => { b with integrationID := v }) string,
  field "InstallationID" (·.installationID) (fun b v => { b with installationID := v }) string,
  field "RepositoryID" (·.repositoryID) (fun b v => { b with repositoryID := v }) string,
  field "Repository" (·.repository) (fun b v => { b with repository := v }) string]

def specFields : List (GoJson.Field DeploymentBuildSpec) := [
  field "SourceType" (·.sourceType) (fun s v => { s with sourceType := v }) string,
  field "BuildMode" (·.buildMode) (fun s v => { s with buildMode := v }) string,
  field "RepoURL" (·.repoURL) (fun s v => { s with repoURL := v }) string,
  field "RepositoryURL" (·.repositoryURL) (fun s v => { s with repositoryURL := v }) string,
  field "RootDirectory" (·.rootDirectory) (fun s v => { s with rootDirectory := v }) string,
  field "BuildContext" (·.buildContext) (fun s v => { s with buildContext := v }) string,
  field "DockerfilePath" (·.dockerfilePath) (fun s v => { s with dockerfilePath := v }) string,
  field "InstallCommand" (·.installCommand) (fun s v => { s with installCommand := v }) string,
  field "BuildCommand" (·.buildCommand) (fun s v => { s with buildCommand := v }) string,
  field "CustomBuildCommand" (·.customBuildCommand) (fun s v => { s with customBuildCommand := v }) string,
  field "StartCommand" (·.startCommand) (fun s v => { s with startCommand := v }) string,
  field "OutputDirectory" (·.outputDirectory) (fun s v => { s with outputDirectory := v }) string,
  field "LocalPath" (·.localPath) (fun s v => { s with localPath := v }) string,
  field "Port" (·.port) (fun s v => { s with port := v }) int,
  field "BuildArgs" (·.buildArgs) (fun s v => { s with buildArgs := v }) (buildArguments sprint),
  field "GitHubIntegrationID" (·.gitHubIntegrationID) (fun s v => { s with gitHubIntegrationID := v }) string,
  field "GitHubInstallationID" (·.gitHubInstallationID) (fun s v => { s with gitHubInstallationID := v }) string,
  field "GitHubRepositoryID" (·.gitHubRepositoryID) (fun s v => { s with gitHubRepositoryID := v }) string,
  field "GitHubRepository" (·.gitHubRepository) (fun s v => { s with gitHubRepository := v }) string,
  field "GitHub" (·.gitHub) (fun s v => { s with gitHub := v }) (struct bindingFields)]

end Decoding

/-! ### `BuildSpec` -/

def coalesceString (values : List String) : String :=
  (values.find? fun value => trimSpace value ≠ "").getD ""

theorem coalesceString_cons (value : String) (values : List String) :
    coalesceString (value :: values) = if trimSpace value = "" then coalesceString values else value := by
  unfold coalesceString
  by_cases hblank : trimSpace value = ""
  · rw [List.find?_cons_of_neg (by simpa using hblank), if_pos hblank]
  · rw [List.find?_cons_of_pos (by simpa using hblank), if_neg hblank, Option.getD_some]

@[simp] theorem coalesceString_nil : coalesceString [] = "" := rfl

/-- `strings.EqualFold` with `retry` or `redeploy`, neither of which folds with a letter outside
ASCII. -/
def DeploymentRecord.hasSnapshotLineage (d : DeploymentRecord) : Bool :=
  let trigger := trimSpace d.triggerType
  d.sourceDeploymentID ≠ "" || d.retryOfDeploymentID ≠ "" || equalFold trigger "retry" ||
    equalFold trigger "redeploy"

/-- `none` for a deployment that has no snapshot and needs none. -/
def DeploymentRecord.buildSpec (sprint : Json → String) (d : DeploymentRecord) :
    Except SnapshotError (Option DeploymentBuildSpec) :=
  match d.desiredSpecSnapshot with
  | .obj members => do
    throwIf (d.snapshotVersion ≠ some 1) .ErrDeploymentSnapshot
    let spec ← orThrow (GoJson.struct (specFields sprint) {} (.obj members)) .ErrDeploymentSnapshot
    return some spec
  | .null => do
    throwIf (d.snapshotVersion ≠ none ∨ d.hasSnapshotLineage) .ErrDeploymentSnapshot
    return none
  | _ => .error .ErrDeploymentSnapshot

def isImageMode (mode : String) : Bool := ["image", "prebuilt", "prebuilt-image"].contains mode

/-- `strings.ReplaceAll(value, "_", "-")`. -/
def dashed (value : String) : String := String.ofList (value.toList.map fun c => if c = '_' then '-' else c)

def DeploymentBuildSpec.usesGitSource (spec : DeploymentBuildSpec) (imageURL : String) : Bool :=
  let source := lower (trimSpace spec.sourceType)
  let mode := lower (dashed (trimSpace spec.buildMode))
  let repository := coalesceString [spec.repoURL, spec.repositoryURL]
  if trimSpace spec.localPath ≠ "" then false
  else if source = "image" then false
  else if isImageMode mode then false
  else if repository = "" ∧ trimSpace imageURL ≠ "" then false
  else repository ≠ "" ∨ source = "github" ∨ source = "git"

/-- `strings.Trim(commit, "0") == ""`. -/
def allZeros (commit : String) : Bool := commit.toList.all fun c => c = '0'

def DeploymentRecord.normalizeSnapshotGitPin (d : DeploymentRecord) : Except SnapshotError DeploymentRecord := do
  let commit ← (normalizeGitCommitSHA (coalesceString [d.commitSHA, d.commitHash])).mapError fun _ =>
    .pin "lineaged Git build requires a full nonzero commit"
  throwIf (allZeros commit) (.pin "lineaged Git build requires a full nonzero commit")
  throwIf (trimSpace d.commitSHA ≠ "" ∧ trimSpace d.commitHash ≠ "" ∧ lower (trimSpace d.commitHash) ≠ commit)
    (.pin "lineaged Git build has conflicting stored commits")
  return { d with commitSHA := commit, commitHash := commit }

/-! ### `BuildInputs` -/

/-- Whether the snapshot still names the repository that the live service is bound to. -/
def DeploymentBuildSpec.bindings (spec : DeploymentBuildSpec) (live : ServiceRecord) : List (String × String) := [
  (coalesceString [spec.gitHubIntegrationID, spec.gitHub.integrationID], live.gitHubIntegrationID),
  (coalesceString [spec.gitHubInstallationID, spec.gitHub.installationID], live.gitHubInstallationID),
  (coalesceString [spec.gitHubRepositoryID, spec.gitHub.repositoryID], live.gitHubRepositoryID),
  (coalesceString [spec.gitHubRepository, spec.gitHub.repository], live.gitHubRepository)]

def DeploymentBuildSpec.overlay (spec : DeploymentBuildSpec) (d : DeploymentRecord) (live : ServiceRecord) :
    ServiceRecord :=
  { live with
    sourceType := trimSpace spec.sourceType
    buildMode := coalesceString [trimSpace spec.buildMode, "auto"]
    repoURL := coalesceString [spec.repoURL, spec.repositoryURL]
    rootDirectory := spec.rootDirectory
    buildContext := spec.buildContext
    dockerfilePath := spec.dockerfilePath
    installCommand := spec.installCommand
    buildCommand := coalesceString [spec.buildCommand, spec.customBuildCommand]
    startCommand := spec.startCommand
    outputDirectory := spec.outputDirectory
    localPath := spec.localPath
    port := spec.port
    branch := d.branch
    image := d.imageURL
    imageURL := d.imageURL }

def overriddenKeys : List String := [
  "buildMode", "buildContext", "dockerfilePath", "buildArgs", "localPath", "source", "repoUrl", "repository",
  "githubRepositoryId", "repositoryId", "githubInstallationId", "branch", "commitSha", "commitHash",
  "image", "imageUrl", "imageDigest", "registry", "desiredSpecSnapshot", "snapshotVersion"]

def DeploymentBuildSpec.payload (spec : DeploymentBuildSpec) (payload : JsonObject) : JsonObject :=
  let kept := payload.filter fun m => !overriddenKeys.contains m.1
  if spec.buildArgs = [] then kept
  else kept ++ [("buildArgs", .obj (spec.buildArgs.map fun a => (a.1, .str a.2)))]

/-- The pin of a deployment that replays a Git source. -/
def DeploymentRecord.pinned (d : DeploymentRecord) (spec : DeploymentBuildSpec) :
    Except SnapshotError DeploymentRecord :=
  if d.hasSnapshotLineage && spec.usesGitSource d.imageURL then d.normalizeSnapshotGitPin else .ok d

/-- `BuildInputs`: the deployment, whose commits it may rewrite, the service and the payload. -/
def DeploymentRecord.buildInputs (sprint : Json → String) (d : DeploymentRecord) (live : ServiceRecord)
    (payload : JsonObject) : Except SnapshotError (DeploymentRecord × ServiceRecord × JsonObject) := do
  match ← d.buildSpec sprint with
  | none => return (d, live, payload)
  | some spec => do
    let d ← d.pinned spec
    throwIf ((spec.bindings live).any fun b => b.1 ≠ "" && b.1 ≠ b.2) .ErrDeploymentSnapshotSource
    return (d, spec.overlay d live, spec.payload payload)

theorem normalizeGitCommitSHA_ok {value commit : String} :
    normalizeGitCommitSHA value = .ok commit ↔
      (bounded lowerHex 40 40 commit = true ∨ bounded lowerHex 64 64 commit = true) ∧
        lower (trimSpace value) = commit := by
  unfold normalizeGitCommitSHA
  rw [bind_ok]
  constructor
  · rintro ⟨_, hfull, hcommit⟩
    obtain rfl := pure_ok.1 hcommit
    exact ⟨not_not.1 (throwIf_ok.1 hfull), rfl⟩
  · rintro ⟨hfull, rfl⟩
    exact ⟨(), throwIf_ok.2 (not_not.2 hfull), rfl⟩

theorem bounded_chars {cls : Char → Bool} {lo hi : Nat} {s : String} (h : bounded cls lo hi s = true) :
    ∀ c ∈ s.toList, cls c = true := by
  unfold bounded at h
  rw [Bool.and_eq_true, Bool.and_eq_true] at h
  exact List.all_eq_true.1 h.1.1

theorem bounded_ne_empty {cls : Char → Bool} {lo hi : Nat} {s : String} (hlo : 0 < lo)
    (h : bounded cls lo hi s = true) : s ≠ "" := by
  rintro rfl
  unfold bounded at h
  simp at h
  omega

/-- What became of the deployment: its own fields, with the commits as `pinned` leaves them. -/
theorem buildInputs_deployment {sprint : Json → String} {d d' : DeploymentRecord} {live service : ServiceRecord}
    {payload payload' : JsonObject} (h : d.buildInputs sprint live payload = .ok (d', service, payload')) :
    d' = d ∨ ∃ commit, normalizeGitCommitSHA (coalesceString [d.commitSHA, d.commitHash]) = .ok commit ∧
      d' = { d with commitSHA := commit, commitHash := commit } := by
  unfold DeploymentRecord.buildInputs at h
  obtain ⟨spec, -, h⟩ := bind_ok.1 h
  cases spec with
  | none => exact .inl (Prod.mk.inj (pure_ok.1 h)).1.symm
  | some spec =>
    obtain ⟨pinned, hpinned, h⟩ := bind_ok.1 h
    obtain ⟨_, -, h⟩ := bind_ok.1 h
    obtain rfl := (Prod.mk.inj (pure_ok.1 h)).1
    unfold DeploymentRecord.pinned at hpinned
    split at hpinned
    · unfold DeploymentRecord.normalizeSnapshotGitPin at hpinned
      obtain ⟨commit, hcommit, hpinned⟩ := bind_ok.1 hpinned
      obtain ⟨_, -, hpinned⟩ := bind_ok.1 hpinned
      obtain ⟨_, -, hpinned⟩ := bind_ok.1 hpinned
      exact .inr ⟨commit, mapError_ok.1 hcommit, (pure_ok.1 hpinned).symm⟩
    · exact .inl (Except.ok.inj hpinned).symm

/-- A deployment with neither a snapshot nor a lineage is built from the live service. -/
theorem buildInputs_live {sprint : Json → String} {d : DeploymentRecord} {live : ServiceRecord}
    {payload : JsonObject} (hsnapshot : d.desiredSpecSnapshot = .null) (hversion : d.snapshotVersion = none)
    (hlineage : d.hasSnapshotLineage = false) : d.buildInputs sprint live payload = .ok (d, live, payload) := by
  have hspec : d.buildSpec sprint = .ok none := by
    unfold DeploymentRecord.buildSpec
    rw [hsnapshot]
    refine bind_ok.2 ⟨(), throwIf_ok.2 ?_, rfl⟩
    rw [hversion, hlineage]
    simp
  unfold DeploymentRecord.buildInputs
  exact bind_ok.2 ⟨none, hspec, rfl⟩

/-! ### The worker -/

def firstNonEmpty (values : List String) : String := coalesceString values

def normalizeMode (value : String) : String :=
  let normalized := lower (dashed value)
  if normalized = "" ∨ normalized = "auto" then "auto"
  else if normalized = "docker" ∨ normalized = "dockerfile" then "dockerfile"
  else if isImageMode normalized then "prebuilt-image"
  else if ["generated", "framework", "buildpack", "buildpacks", "custom"].contains normalized then normalized
  else "auto"

def isPrebuilt (service : ServiceRecord) (deployment : DeploymentRecord) : Bool :=
  lower service.sourceType = "image" || normalizeMode service.buildMode = "prebuilt-image" ||
    (service.repoURL = "" && service.localPath = "" &&
      firstNonEmpty [deployment.imageURL, service.imageURL, service.image] ≠ "")

end RaibitServer.Builder
