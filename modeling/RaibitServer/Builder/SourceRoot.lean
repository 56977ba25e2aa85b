import RaibitServer.Builder.Plan
import RaibitServer.Lib.LinkTree

/-!
# Builder.SourceRoot — build inputs and the directory they may come from

The file system of `prepareBuildPlan` given by a tree with symbolic links, and the part of `prepareSource`
that chooses the source directory.  What `resolvePathWithinSourceDir` accepts leads to a place below the
place that the source directory leads to (`resolvePathWithinSourceDir_inside`).  A local source directory
is only compared with the workspace by its names, so a link in between takes all of it elsewhere.
-/

namespace RaibitServer.Builder

open Lib Text

/-! ### A tree as a file system -/

def walkError : WalkError → PlanError
  | .notExist => .notExist
  | .notDirectory => .failed "not a directory"
  | .tooManyLinks => .failed "too many links"

/-- `os.Stat`; the system follows forty links. -/
def treeStat (tree : LinkTree) (path : AbsPath) : Entry :=
  match tree.resolve 40 .root path.parts with
  | .error .notExist => .missing
  | .error .notDirectory => .failed "not a directory"
  | .error .tooManyLinks => .failed "too many levels of symbolic links"
  | .ok real => if tree.node real = some .directory then .directory else .file

/-- `os.Lstat`: only the last name is taken as it is. -/
def treeLstat (tree : LinkTree) (path : AbsPath) : LinkEntry :=
  match tree.resolve 40 .root path.dir.parts with
  | .error .notExist => .missing
  | .error .notDirectory => .failed "not a directory"
  | .error .tooManyLinks => .failed "too many levels of symbolic links"
  | .ok real => match tree.node (real.child (path.base.getD "")) with
    | some (.link _) => .link
    | some _ => .plain
    | none => if tree.node real = some .directory then .missing else .failed "not a directory"

/-- `filepath.EvalSymlinks`. -/
def treeEvalSymlinks (tree : LinkTree) (path : AbsPath) : Except PlanError AbsPath :=
  (tree.resolve 255 .root path.parts).mapError walkError

/-- The process at `cwd`, with what comes of its writes. -/
structure Process where
  tree : LinkTree
  cwd : AbsPath
  mkdirAll : AbsPath → Except PlanError Unit
  writeFile : AbsPath → String → Except PlanError Unit

def Process.files (process : Process) : FileSystem :=
  { cwd := process.cwd
    stat := treeStat process.tree
    lstat := treeLstat process.tree
    evalSymlinks := treeEvalSymlinks process.tree
    mkdirAll := process.mkdirAll
    writeFile := process.writeFile }

/-! ### `prepareSource` -/

inductive SourceRoot
  | localPath (dir : AbsPath)
  /-- The workspace of the job, for an image that is not built. -/
  | workspace (dir : AbsPath)
  | clone (dir : AbsPath)
  deriving DecidableEq

def SourceRoot.dir : SourceRoot → AbsPath
  | localPath dir => dir
  | workspace dir => dir
  | clone dir => dir

/-- By names alone; the message does not repeat the path. -/
def resolveLocalSourceDir (cwd : AbsPath) (workspaceDir localPath : String) : Except PlanError AbsPath := do
  let base := AbsPath.abs cwd workspaceDir
  let candidate :=
    if AbsPath.isAbs localPath then AbsPath.root.join localPath
    else if AbsPath.isAbs workspaceDir then base.join localPath
    -- a relative workspace is joined twice
    else (base.join workspaceDir).join localPath
  throwIf (base.relative candidate = none) (.invalid "path escapes allowed base directory")
  return candidate

structure SourceJob where
  workspaceDir : String
  jobDir : AbsPath
  payload : JsonObject
  service : ServiceRecord
  deployment : DeploymentRecord
  /-- The checks of the repository, the clone and the deployment as it is then stored. -/
  git : Except PlanError DeploymentRecord

def prepareSource (cwd : AbsPath) (sprint : Json → String) (job : SourceJob) :
    Except PlanError (SourceRoot × DeploymentRecord) :=
  let path := firstNonEmpty [stringValue sprint (Json.member job.payload "localPath"), job.service.localPath]
  if path ≠ "" then
    (resolveLocalSourceDir cwd job.workspaceDir path).map fun dir => (.localPath dir, job.deployment)
  else if isPrebuilt job.service job.deployment then .ok (.workspace job.jobDir, job.deployment)
  else if trimSpace job.service.repoURL = "" then
    .error (.invalid "source repository URL is required for non-prebuilt build")
  else job.git.map fun deployment => (.clone (job.jobDir.child "source"), deployment)

/-- `prepareSource` and `prepareBuildPlan`. -/
def prepareInputs (host : BuildHost) (config : BuilderConfig) (job : SourceJob) :
    Except PlanError (SourceRoot × PlannedBuild) := do
  let (source, deployment) ← prepareSource host.files.cwd host.sprint job
  let plan ← prepareBuildPlan host config
    ⟨job.payload, job.service, deployment, source.dir.text⟩
  return (source, plan)

/-! ### Missing parts -/

section Missing

variable {process : Process} {sourceRoot path : AbsPath} {names : List String}

theorem evalSymlinks_notExist {path : AbsPath} :
    process.files.evalSymlinks path = .error .notExist ↔
      process.tree.resolve 255 .root path.parts = .error .notExist := by
  show (process.tree.resolve 255 .root path.parts).mapError walkError = _ ↔ _
  cases process.tree.resolve 255 .root path.parts with
  | ok real => exact ⟨nofun, nofun⟩
  | error e => cases e <;> simp [Except.mapError, walkError]

/-- What the system does not find, `EvalSymlinks` does not find either. -/
theorem evalSymlinks_of_missing (h : process.files.stat sourceRoot = .missing) :
    process.files.evalSymlinks sourceRoot = .error .notExist := by
  have hlinks : (.error .notExist : Except WalkError AbsPath) ≠ .error .tooManyLinks := fun e => by cases e
  refine evalSymlinks_notExist.2 (LinkTree.resolve_mono (by decide : 40 ≤ 255) hlinks ?_)
  change treeStat process.tree sourceRoot = .missing at h
  unfold treeStat at h
  split at h
  · assumption
  · cases h
  · cases h
  · split_ifs at h

/-- The parts gathered on the way up come back behind those found later. -/
theorem evalUpwards_append (fs : FileSystem) (fuel : Nat) (current : AbsPath) (missing : List String) :
    evalUpwards fs fuel current (missing ++ names) =
      (evalUpwards fs fuel current missing).map fun real => names.foldl AbsPath.child real := by
  induction fuel generalizing current missing with
  | zero =>
    unfold evalUpwards
    cases fs.evalSymlinks current with
    | ok real => simp [Except.map, List.foldl_append]
    | error e => cases e <;> rfl
  | succ fuel ih =>
    unfold evalUpwards
    cases fs.evalSymlinks current with
    | ok real => simp [Except.map, List.foldl_append]
    | error e =>
      cases e with
      | notExist => exact ih current.dir (current.base.getD "" :: missing)
      | invalid message => rfl
      | failed message => rfl

/-- Below a path that leads nowhere the way up comes to it. -/
theorem evalUpwards_below (hroot : process.files.evalSymlinks sourceRoot = .error .notExist)
    (hpath : path.parts = sourceRoot.parts ++ names) (missing : List String) :
    evalUpwards process.files path.parts.length path missing =
      evalUpwards process.files sourceRoot.parts.length sourceRoot (names ++ missing) := by
  induction names using List.reverseRecOn generalizing path missing with
  | nil =>
    rw [List.append_nil] at hpath
    rw [AbsPath.ext_parts hpath]
    rfl
  | append_singleton names name ih =>
    have hnone : process.files.evalSymlinks path = .error .notExist := by
      rw [evalSymlinks_notExist, hpath]
      exact LinkTree.resolve_append _ _ (evalSymlinks_notExist.1 hroot)
    have hparts : path.parts = (sourceRoot.parts ++ names) ++ [name] := by rw [hpath, List.append_assoc]
    have hdir : path.dir.parts = sourceRoot.parts ++ names := by
      show path.parts.dropLast = _
      rw [hparts, List.dropLast_concat]
    have hbase : path.base = some name := by
      show path.parts.getLast? = _
      rw [hparts, List.getLast?_concat]
    have hlength : path.parts.length = path.dir.parts.length + 1 := by
      rw [hdir, hparts, List.length_append, List.length_singleton]
    rw [hlength]
    conv_lhs => unfold evalUpwards
    rw [hnone]
    dsimp only
    rw [hbase, Option.getD_some, ih hdir, List.append_assoc]
    rfl

end Missing

/-! ### Inside -/

/-- Wherever a path leads, missing parts taken as names, is at or below `root`. -/
def Inside (fs : FileSystem) (root path : AbsPath) : Prop :=
  ∀ real, evalSymlinksAllowMissing fs path = .ok real → AbsPath.Below root real

/-- **An accepted path leads below the source directory**, wherever that one leads. -/
theorem resolvePathWithinSourceDir_inside {process : Process} {sourceDir candidate field : String} {path root : AbsPath}
    (h : resolvePathWithinSourceDir process.files sourceDir candidate field = .ok path)
    (hroot : evalSymlinksAllowMissing process.files (AbsPath.abs process.cwd sourceDir) = .ok root) :
    Inside process.files root path := by
  intro real hreal
  unfold resolvePathWithinSourceDir at h
  obtain ⟨_, -, h⟩ := bind_ok.1 h
  dsimp only at h
  split at h
  · next hsame =>
    obtain rfl := pure_ok.1 h
    have hpath := AbsPath.relative_eq_some.1 hsame
    rw [List.append_nil] at hpath
    rw [AbsPath.ext_parts hpath] at hreal
    rw [Except.ok.inj (hreal.symm.trans hroot)]
    exact AbsPath.below_self root
  · cases h
  · next names _ hnames =>
    split at h
    · next hmissing =>
      obtain rfl := pure_ok.1 h
      have hpath := AbsPath.relative_eq_some.1 hnames
      have hbelow := evalUpwards_below (evalSymlinks_of_missing hmissing) hpath []
      rw [List.append_nil] at hbelow
      have hup : evalSymlinksAllowMissing process.files _ = _ :=
        hbelow.trans (evalUpwards_append process.files _ _ [])
      rw [hreal] at hup
      obtain ⟨top, htop, rfl⟩ := map_ok.1 hup.symm
      obtain rfl := Except.ok.inj (htop.symm.trans hroot)
      have hall : ∀ name ∈ names, isName name = true := fun name hname =>
        AbsPath.names _ name (hpath ▸ List.mem_append_right _ hname)
      rw [AbsPath.below_iff, AbsPath.foldl_child_parts _ hall]
      exact List.prefix_append _ _
    · cases h
    · unfold checkWithin at h
      obtain ⟨_, -, h⟩ := bind_ok.1 h
      obtain ⟨realSourceRoot, hsource, h⟩ := bind_ok.1 h
      obtain ⟨realResolvedPath, hresolved, h⟩ := bind_ok.1 h
      obtain ⟨_, hwithin, h⟩ := bind_ok.1 h
      obtain rfl := pure_ok.1 h
      obtain rfl := Except.ok.inj (hresolved.symm.trans hreal)
      change process.files.evalSymlinks (process.cwd.abs sourceDir) = _ at hsource
      unfold evalSymlinksAllowMissing evalUpwards at hroot
      rw [hsource] at hroot
      obtain rfl := Except.ok.inj hroot
      exact throwIf_ok.1 hwithin

/-! ### The inputs of a build -/

/-- The paths of a plan that a build reads. -/
def PlannedBuild.inputs (plan : PlannedBuild) : List AbsPath := plan.contextDir :: plan.dockerfile.toList

theorem prepareBuildPlan_paths {host : BuildHost} {config : BuilderConfig} {ctx : BuildContext} {plan : PlannedBuild}
    (h : prepareBuildPlan host config ctx = .ok plan) {path : AbsPath} (hpath : path ∈ plan.inputs) :
    ∃ candidate field, resolvePathWithinSourceDir host.files ctx.sourceDir candidate field = .ok path := by
  unfold prepareBuildPlan at h
  obtain ⟨image, -, h⟩ := bind_ok.1 h
  obtain ⟨_, -, h⟩ := bind_ok.1 h
  obtain ⟨_, -, h⟩ := bind_ok.1 h
  obtain ⟨contextDir, hcontext, h⟩ := bind_ok.1 h
  have hselected : plan.contextDir = contextDir ∧ ∀ dockerfile ∈ plan.dockerfile, ∃ candidate field,
      resolvePathWithinSourceDir host.files ctx.sourceDir candidate field = .ok dockerfile := by
    dsimp only at h
    generalize (if isPrebuilt ctx.service ctx.deployment = true then "prebuilt-image" else _) = mode at h
    split at h
    · obtain rfl := pure_ok.1 h
      exact ⟨rfl, nofun⟩
    · unfold selectDockerfile at h
      obtain ⟨dockerfile, hdockerfile, h⟩ := bind_ok.1 h
      obtain ⟨found, -, h⟩ := bind_ok.1 h
      have hchosen : plan.contextDir = contextDir ∧ plan.dockerfile = some dockerfile := by
        split at h
        · obtain rfl := pure_ok.1 h
          exact ⟨rfl, rfl⟩
        · obtain ⟨written, -, h⟩ := bind_ok.1 h
          obtain rfl := pure_ok.1 h
          exact ⟨rfl, rfl⟩
      refine ⟨hchosen.1, fun d hd => ?_⟩
      rw [hchosen.2] at hd
      obtain rfl := Option.some.inj hd
      exact ⟨_, _, hdockerfile⟩
  rcases List.mem_cons.1 hpath with rfl | hd
  · rw [hselected.1]
    exact ⟨_, _, hcontext⟩
  · exact hselected.2 path (Option.mem_toList.1 hd)

/-- The place that the configured workspace leads to. -/
def realWorkspace (fs : FileSystem) (job : SourceJob) : Except PlanError AbsPath :=
  fs.evalSymlinks (AbsPath.abs fs.cwd job.workspaceDir)

/-- The place that the source directory leads to. -/
def realSource (fs : FileSystem) (source : SourceRoot) : Except PlanError AbsPath :=
  evalSymlinksAllowMissing fs (AbsPath.abs fs.cwd source.dir.text)

/-- The inputs lie in the workspace for a local source, and otherwise where the source directory leads. -/
def InputsInside (fs : FileSystem) (job : SourceJob) (source : SourceRoot) (plan : PlannedBuild) : Prop :=
  match source with
  | .localPath _ => ∀ root, realWorkspace fs job = .ok root → ∀ path ∈ plan.inputs, Inside fs root path
  | _ => ∀ root, realSource fs source = .ok root → ∀ path ∈ plan.inputs, Inside fs root path

/-- A local source directory leads into the workspace. -/
def SourceInside (fs : FileSystem) (job : SourceJob) (source : SourceRoot) : Prop :=
  match source with
  | .localPath _ => ∀ root, realWorkspace fs job = .ok root →
    ∃ dir, realSource fs source = .ok dir ∧ AbsPath.Below root dir
  | _ => True

/-- **Build inputs stay inside their root.**  The context and the Dockerfile of an accepted build lie in the
clone, wherever its links lead, and in the workspace if the local source directory does. -/
theorem inputs_inside {process : Process} {host : BuildHost} {config : BuilderConfig} {job : SourceJob}
    {source : SourceRoot} {plan : PlannedBuild} (hfiles : host.files = process.files)
    (h : prepareInputs host config job = .ok (source, plan)) (hsource : SourceInside process.files job source) :
    InputsInside process.files job source plan := by
  unfold prepareInputs at h
  obtain ⟨⟨source', deployment⟩, -, h⟩ := bind_ok.1 h
  obtain ⟨plan', hplan, h⟩ := bind_ok.1 h
  obtain ⟨rfl, rfl⟩ := Prod.mk.inj (pure_ok.1 h)
  have hinside {root path : AbsPath} (hpath : path ∈ plan'.inputs)
      (hroot : realSource process.files source' = .ok root) : Inside process.files root path := by
    obtain ⟨candidate, field, hresolve⟩ := prepareBuildPlan_paths hplan hpath
    rw [hfiles] at hresolve
    exact resolvePathWithinSourceDir_inside hresolve hroot
  cases source' with
  | localPath dir =>
    intro root hroot path hpath
    obtain ⟨real, hreal, hbelow⟩ := hsource root hroot
    exact fun path' hpath' => hbelow.trans (hinside hpath hreal path' hpath')
  | workspace dir => exact fun root hroot path hpath => hinside hpath hroot
  | clone dir => exact fun root hroot path hpath => hinside hpath hroot

namespace RootSample

/-- The link `/w/l` leads out of the workspace `/w`. -/
def process : Process where
  tree := ⟨[(["w"], .directory), (["w", "l"], .link "/o"), (["w", "s"], .directory), (["w", "s", "Dockerfile"], .file),
    (["o"], .directory), (["o", "s"], .directory), (["o", "s", "Dockerfile"], .file)]⟩
  cwd := .root
  mkdirAll := fun _ => .ok ()
  writeFile := fun _ _ => .ok ()

def host : BuildHost where
  files := process.files
  sprint := fun _ => ""
  resolveImage := fun _ _ => .ok "r/i"
  validateImageDestination := fun _ => .ok ()

def config : BuilderConfig := ⟨true, false, "", "", ""⟩

def job (localPath : String) : SourceJob where
  workspaceDir := "/w"
  jobDir := .root
  payload := []
  service := { (default : ServiceRecord) with localPath }
  deployment := ⟨"d", "", "", "", "", "", "", "", "", none, .null⟩
  git := .error .notExist

/-- The plan for a source directory with a Dockerfile. -/
def plan (dir : AbsPath) : PlannedBuild := ⟨"dockerfile", "r/i", true, dir, some (dir.child "Dockerfile"), none⟩

end RootSample

open RootSample in
theorem inputs_inside_sample :
    InputsInside process.files (job "s") (.localPath (AbsPath.root.join "w/s")) (plan (AbsPath.root.join "w/s")) := by
  have haccepted : prepareInputs host config (job "s") =
      .ok (.localPath (AbsPath.root.join "w/s"), plan (AbsPath.root.join "w/s")) := by decide +kernel
  have hroot : realWorkspace process.files (job "s") = .ok (AbsPath.root.join "w") := by decide +kernel
  have hdir : realSource process.files (.localPath (AbsPath.root.join "w/s")) = .ok (AbsPath.root.join "w/s") := by
    decide +kernel
  refine inputs_inside rfl haccepted fun root h => ⟨_, hdir, ?_⟩
  obtain rfl := Except.ok.inj (h.symm.trans hroot)
  unfold AbsPath.Below
  decide +kernel

open RootSample in
/-- The source `/w/l/s` is `/o/s`. -/
theorem linked_source_accepted : ∃ source plan, prepareInputs host config (job "l/s") = .ok (source, plan) ∧
    ¬ InputsInside process.files (job "l/s") source plan := by
  refine ⟨.localPath (AbsPath.root.join "w/l/s"), plan (AbsPath.root.join "w/l/s"), by decide +kernel, fun h => ?_⟩
  have hroot : realWorkspace process.files (job "l/s") = .ok (AbsPath.root.join "w") := by decide +kernel
  have hreal : evalSymlinksAllowMissing process.files (AbsPath.root.join "w/l/s") = .ok (AbsPath.root.join "o/s") := by
    decide +kernel
  have hbelow := h _ hroot _ List.mem_cons_self _ hreal
  exact hbelow (by decide +kernel)

end RaibitServer.Builder
