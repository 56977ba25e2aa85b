import RaibitServer.Lib.Paths
import RaibitServer.Builder.Inputs

/-!
# Builder.Plan — the plan of a source build

`prepareBuildPlan` resolves the build context and the Dockerfile inside the source directory and writes
a Dockerfile where there is none.  The file system is given by its answers.  The name of the image is
left to the host; the command that `executeBuild` makes of the plan is not modelled, and the settings
that only it reads are left out.
-/

namespace RaibitServer.Builder

open Lib Text

inductive PlanError
  | invalid (message : String)
  | notExist
  | failed (message : String)
  deriving DecidableEq

/-! ### Paths in the source directory -/

inductive Entry
  | missing
  | failed (message : String)
  | directory
  | file
  deriving DecidableEq

/-- An entry itself, links not followed. -/
inductive LinkEntry
  | missing
  | failed (message : String)
  /-- A symbolic link, or irregular. -/
  | link
  | plain
  deriving DecidableEq

structure FileSystem where
  cwd : AbsPath
  stat : AbsPath → Entry
  lstat : AbsPath → LinkEntry
  evalSymlinks : AbsPath → Except PlanError AbsPath
  mkdirAll : AbsPath → Except PlanError Unit
  writeFile : AbsPath → String → Except PlanError Unit

/-- `pathEntryIsSymbolicLink`; `none` if there is no entry. -/
def pathEntryIsSymbolicLink (fs : FileSystem) (path : AbsPath) : Except PlanError (Option Bool) :=
  match fs.lstat path with
  | .missing => .ok none
  | .failed message => .error (.failed message)
  | .link => .ok (some true)
  | .plain => do
    let parentReal ← fs.evalSymlinks path.dir
    let pathReal ← fs.evalSymlinks path
    return some (pathReal ≠ parentReal.child (path.base.getD ""))

/-- Whether the walk goes on below an entry. -/
def passesEntry (fs : FileSystem) (field : String) (path : AbsPath) : Except PlanError Bool := do
  match ← pathEntryIsSymbolicLink fs path with
  | none => return false
  | some linked =>
    throwIf linked (.invalid (field ++ " must not contain symbolic links"))
    return true

/-- From `path` down along the names. -/
def rejectSymbolicLinksWithin (fs : FileSystem) (field : String) : AbsPath → List String → Except PlanError Unit
  | path, [] => (passesEntry fs field path).map fun _ => ()
  | path, name :: names => do
    if ← passesEntry fs field path then rejectSymbolicLinksWithin fs field (path.child name) names else return ()

/-- The loop of `evalSymlinksAllowMissing`: `fuel` is the number of names left. -/
def evalUpwards (fs : FileSystem) : Nat → AbsPath → List String → Except PlanError AbsPath
  | fuel, current, missing =>
    match fs.evalSymlinks current, fuel with
    | .ok resolved, _ => .ok (missing.foldl AbsPath.child resolved)
    | .error .notExist, fuel + 1 => evalUpwards fs fuel current.dir (current.base.getD "" :: missing)
    | .error e, _ => .error e

def evalSymlinksAllowMissing (fs : FileSystem) (path : AbsPath) : Except PlanError AbsPath :=
  evalUpwards fs path.parts.length path []

/-- The checks on a source directory that exists. -/
def checkWithin (fs : FileSystem) (field : String) (sourceRoot resolvedPath : AbsPath) (names : List String) :
    Except PlanError AbsPath := do
  rejectSymbolicLinksWithin fs field sourceRoot names
  let realSourceRoot ← fs.evalSymlinks sourceRoot
  let realResolvedPath ← evalSymlinksAllowMissing fs resolvedPath
  throwIf (realSourceRoot.relative realResolvedPath = none) (.invalid (field ++ " escapes source directory"))
  return resolvedPath

def resolvePathWithinSourceDir (fs : FileSystem) (sourceDir candidate field : String) : Except PlanError AbsPath := do
  throwIf (AbsPath.isAbs candidate) (.invalid (field ++ " must be relative to source directory"))
  let sourceRoot := AbsPath.abs fs.cwd sourceDir
  let resolvedPath := sourceRoot.join candidate
  match sourceRoot.relative resolvedPath with
  | some [] => return resolvedPath
  | none => .error (.invalid (field ++ " escapes source directory"))
  | some names =>
    match fs.stat sourceRoot with
    | .missing => return resolvedPath
    | .failed message => .error (.failed message)
    | _ => checkWithin fs field sourceRoot resolvedPath names

/-! ### State -/

structure BuilderConfig where
  push : Bool
  dryRun : Bool
  generatedDockerfileFrontend : String
  generatedNodeImage : String
  /-- `RAIBITSERVER_BUILD_MODE`. -/
  buildModeEnv : String
  deriving DecidableEq

/-- The build before its plan. -/
structure BuildContext where
  payload : JsonObject
  service : ServiceRecord
  deployment : DeploymentRecord
  sourceDir : String

structure BuildHost where
  files : FileSystem
  sprint : Json → String
  resolveImage : BuildContext → Bool → Except PlanError String
  validateImageDestination : String → Except PlanError Unit

/-- The plan.  A prebuilt image has no Dockerfile. -/
structure PlannedBuild where
  mode : String
  image : String
  push : Bool
  contextDir : AbsPath
  dockerfile : Option AbsPath
  /-- The file that was written, with its content. -/
  generated : Option (AbsPath × String)
  deriving DecidableEq

def stringValue (sprint : Json → String) : Option Json → String
  | none => ""
  | some value => snapshotBuildArgument sprint value

def BuildContext.text (ctx : BuildContext) (host : BuildHost) (key : String) : String :=
  stringValue host.sprint (Json.member ctx.payload key)

/-! ### `prepareBuildPlan` -/

/-- `build.Plan.Validate`. -/
def validatePlan (mode source image : String) : Except PlanError Unit := do
  let prebuilt := isImageMode (lower (dashed mode))
  throwIf (prebuilt ∧ image = "") (.invalid "prebuilt-image mode requires image")
  throwIf (¬ prebuilt ∧ source = "") (.invalid "source is required for build modes")
  throwIf (image = "") (.invalid "image is required for build output")

/-- `^sha256:[a-f0-9]{64}$`, of the trimmed text. -/
def validSHA256Digest (value : String) : Bool :=
  let value := trimSpace value
  startsWith value "sha256:" && bounded lowerHex 64 64 (String.ofList (value.toList.drop 7))

def validDigestPinnedImageReference (value : String) : Bool :=
  let value := trimSpace value
  match GoText.split value '@' with
  | [reference, digest] =>
    !GoText.containsAny value [' ', '\t', '\r', '\n'] && !(Regex.lit "://").isMatch value.toList &&
      reference ≠ "" && !startsWith reference "/" && !endsWith reference "/" && validSHA256Digest digest
  | _ => false

def generatedDockerfileImages (config : BuilderConfig) : Except PlanError (String × String) := do
  let frontend := trimSpace config.generatedDockerfileFrontend
  let nodeImage := trimSpace config.generatedNodeImage
  if config.dryRun ∧ frontend = "docker/dockerfile:1.7" ∧ nodeImage = "node:24-alpine" then return (frontend, nodeImage)
  else
    throwIf (¬ validDigestPinnedImageReference frontend)
      (.invalid "generated Dockerfile frontend must be an image reference pinned by sha256 digest")
    throwIf (¬ validDigestPinnedImageReference nodeImage)
      (.invalid "generated Dockerfile node image must be an image reference pinned by sha256 digest")
    return (frontend, nodeImage)

def defaultInstallCommand : String :=
  "if [ -f pnpm-lock.yaml ]; then corepack enable && pnpm install --frozen-lockfile; " ++
  "elif [ -f yarn.lock ]; then corepack enable && yarn install --frozen-lockfile; " ++
  "elif [ -f package-lock.json ]; then npm ci; " ++
  "elif [ -f requirements.txt ]; then pip install --cache-dir=/root/.cache/pip -r requirements.txt; " ++
  "elif [ -f package.json ]; then npm install; fi"

def dockerfileContent (service : ServiceRecord) (frontend nodeImage : String) : String :=
  let start := firstNonEmpty [service.startCommand, "npm start"]
  let build := firstNonEmpty [service.buildCommand, "npm run build --if-present"]
  let install := firstNonEmpty [service.installCommand, defaultInstallCommand]
  "# syntax=" ++ frontend ++ "\nFROM " ++ nodeImage ++ "\nWORKDIR /app\nCOPY . .\n" ++
  "RUN --mount=type=cache,target=/root/.npm --mount=type=cache,target=/root/.pnpm-store " ++
  "--mount=type=cache,target=/root/.cache/yarn --mount=type=cache,target=/root/.cache/pip " ++ install ++
  "\nRUN " ++ build ++ "\nENV NODE_ENV=production\nCMD [\"sh\", \"-lc\", " ++ GoText.quote start ++ "]\n"

/-- The file and its content. -/
def writeGeneratedDockerfile (host : BuildHost) (config : BuilderConfig) (service : ServiceRecord)
    (dockerfile : AbsPath) : Except PlanError (AbsPath × String) := do
  host.files.mkdirAll dockerfile.dir
  let images ← generatedDockerfileImages config
  let content := dockerfileContent service images.1 images.2
  host.files.writeFile dockerfile content
  return (dockerfile, content)

/-- Whether a Dockerfile is there; a directory in its place is an error. -/
def dockerfileExists (fs : FileSystem) (dockerfilePath : String) (dockerfile : AbsPath) : Except PlanError Bool :=
  match fs.stat dockerfile with
  | .directory => .error (.invalid ("dockerfilePath must point to a file, got directory: " ++ dockerfilePath))
  | .failed message => .error (.failed message)
  | .missing => .ok false
  | .file => .ok true

/-- The Dockerfile of a source build: the one selected, or one that is written. -/
def selectDockerfile (host : BuildHost) (config : BuilderConfig) (ctx : BuildContext) (plan : PlannedBuild) :
    Except PlanError PlannedBuild := do
  let dockerfilePath := firstNonEmpty [ctx.text host "dockerfilePath", ctx.service.dockerfilePath, "Dockerfile"]
  let dockerfile ← resolvePathWithinSourceDir host.files ctx.sourceDir dockerfilePath "dockerfilePath"
  let found ← dockerfileExists host.files dockerfilePath dockerfile
  if plan.mode = "dockerfile" ∨ found then
    return { plan with mode := "dockerfile", dockerfile := some dockerfile }
  else
    let written ← writeGeneratedDockerfile host config ctx.service dockerfile
    return { plan with mode := "generated", dockerfile := some dockerfile, generated := some written }

def prepareBuildPlan (host : BuildHost) (config : BuilderConfig) (ctx : BuildContext) :
    Except PlanError PlannedBuild := do
  let prebuilt := isPrebuilt ctx.service ctx.deployment
  let requested := firstNonEmpty [ctx.text host "buildMode", ctx.service.buildMode,
    if config.buildModeEnv = "" then "auto" else config.buildModeEnv]
  let mode := if prebuilt then "prebuilt-image" else normalizeMode requested
  let image ← host.resolveImage ctx prebuilt
  validatePlan mode (firstNonEmpty [ctx.service.repoURL, ctx.service.localPath, ctx.sourceDir]) image
  host.validateImageDestination image
  let contextDir ← resolvePathWithinSourceDir host.files ctx.sourceDir
    (firstNonEmpty [ctx.text host "buildContext", ctx.service.buildContext, ctx.service.rootDirectory, "."])
    "buildContext"
  let plan : PlannedBuild :=
    { mode, image, push := config.push || config.dryRun, contextDir, dockerfile := none, generated := none }
  if mode = "prebuilt-image" then return plan else selectDockerfile host config ctx plan

end RaibitServer.Builder
