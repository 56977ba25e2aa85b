import Mathlib.Order.WithBot
import Mathlib.Data.Prod.Lex
import RaibitServer.Core.Lifecycle
import RaibitServer.Lib.Guard
import RaibitServer.Lib.Keyset

/-!
# Deployments.Rollback — where a rollback goes

`rollbackDeployment` of the Prisma repository (`persistence.ts`) and of the memory store (`store.ts`).  Both
look for a READY deployment of the service with an image, whichever was deployed last, and create a deployment
with its image.  Neither looks at the type of the deployment they find or at when it was created, and the
commit is that of the current deployment where the one they find has none.  `rollback_stays_in_history` says
when the new deployment nevertheless repeats an earlier production deployment.
-/

namespace RaibitServer.Deployments

open Lib Core

/-! ### Rows -/

inductive Environment
  | production
  | preview
  | manual
  deriving DecidableEq, Repr

def Environment.text : Environment → String
  | .production => "production"
  | .preview => "preview"
  | .manual => "manual"

/-- `environment` of `deployment-history.ts`. -/
def environment (deploymentType : String) : Environment :=
  let normalized := Text.jsLower (Text.jsOr deploymentType "production")
  if normalized = "preview" then .preview
  else if normalized = "manual" then .manual
  else .production

/-- The columns that a rollback reads or writes; `image` is a field of the memory store. -/
structure DeploymentRow where
  id : String
  serviceId : String
  projectId : String
  status : String
  deploymentType : String
  triggerType : String
  branch : String
  commitSha : Option String
  imageUrl : Option String
  image : Option String
  imageDigest : Option String
  deployedAt : Option Int
  finishedAt : Option Int
  createdAt : Int
  deriving DecidableEq, Repr

structure Failure where
  message : String
  statusCode : Nat
  deriving DecidableEq, Repr

/-- A text that counts as one: `value || null`. -/
def present (value : Option String) : Option String := value.filter fun text => text ≠ ""

structure RollbackInput where
  previousDeploymentId : Option String := none
  branch : Option String := none

structure Rollback where
  deployment : DeploymentRow
  rollbackOfDeploymentId : String
  previousDeployment : DeploymentRow
  deriving DecidableEq, Repr

/-! ### What both stores do with a source -/

section Source

variable (imageOf : DeploymentRow → Option String)

def noImage : Failure := ⟨"no previous READY deployment image is available for rollback", 409⟩

/-- The source that was found and passed its checks. -/
def validateRollbackSource (current : DeploymentRow) (previous : Option DeploymentRow)
    (explicitPreviousDeploymentId : Option String) : Except Failure DeploymentRow :=
  match previous, explicitPreviousDeploymentId with
  | none, some id => .error ⟨"rollback source deployment not found: " ++ id, 404⟩
  | none, none => .error noImage
  | some previous, _ => do
    throwIf (previous.projectId ≠ current.projectId ∨ previous.serviceId ≠ current.serviceId)
      ⟨"rollback source deployment must belong to the same service and project", 403⟩
    throwIf (Text.upper previous.status ≠ "READY" ∨ imageOf previous = none)
      ⟨"rollback source deployment must be READY and have an image", 409⟩
    return previous

/-- The deployment that a rollback creates. -/
def rollbackRow (id : String) (now : Int) (input : RollbackInput) (current previous : DeploymentRow) :
    DeploymentRow :=
  { id
    serviceId := current.serviceId
    projectId := current.projectId
    status := "IMAGE_READY"
    deploymentType := Text.jsOr current.deploymentType "production"
    triggerType := "rollback"
    branch := ((present input.branch <|> present current.branch) <|> present previous.branch).getD "main"
    commitSha := present previous.commitSha <|> present current.commitSha
    imageUrl := imageOf previous
    image := none
    imageDigest := present previous.imageDigest
    deployedAt := none
    finishedAt := none
    createdAt := now }

/-- A rollback from the source that `select` finds; `allowed` is what may still refuse it. -/
def rollbackFrom (select : Except Failure (Option DeploymentRow)) (allowed : Except Failure Unit) (id : String)
    (now : Int) (input : RollbackInput) (current : DeploymentRow) : Except Failure Rollback := do
  let found ← select
  let previous ← validateRollbackSource imageOf current found (present input.previousDeploymentId)
  allowed
  return ⟨rollbackRow imageOf id now input current previous, current.id, previous⟩

end Source

/-! ### The Prisma repository -/

def prismaImage (row : DeploymentRow) : Option String := present row.imageUrl

/-- The `where` of the search. -/
def prismaCandidates (rows : List DeploymentRow) (current : DeploymentRow) : List DeploymentRow :=
  rows.filter fun row =>
    row.serviceId = current.serviceId && row.id ≠ current.id && row.status = "READY" && row.imageUrl.isSome

/-- The `orderBy` of the search, all descending; PostgreSQL puts a missing time first. -/
def prismaKey (row : DeploymentRow) : WithTop Int ×ₗ (WithTop Int ×ₗ Int) :=
  toLex (row.deployedAt, toLex (row.finishedAt, row.createdAt))

/-- Rows that the order leaves together come as the database reads them. -/
def prismaSource (rows : List DeploymentRow) (input : RollbackInput) (current : DeploymentRow) :
    Option DeploymentRow :=
  match present input.previousDeploymentId with
  | some id => rows.find? fun row => row.id = id
  | none => (Keyset.newestFirst prismaKey (prismaCandidates rows current)).head?

/-- What refuses a rollback once its source is found; `quota` is the answer of
`enforcePrismaQuotaRequirements`. -/
def prismaAdmit (quota : Except Failure Unit) (current : DeploymentRow) : Except Failure Unit := do
  quota
  throwIf (current.projectId = "") ⟨"projectId is required for deployment persistence", 500⟩

def prismaRollbackDeployment (quota : Except Failure Unit) (rows : List DeploymentRow) (id : String) (now : Int)
    (deploymentId : String) (input : RollbackInput) : Except Failure Rollback := do
  let current ← orThrow (rows.find? fun row => row.id = deploymentId)
    ⟨"deployment not found: " ++ deploymentId, 404⟩
  rollbackFrom prismaImage (.ok (prismaSource rows input current)) (prismaAdmit quota current) id now input current

/-! ### The memory store -/

def memoryImage (row : DeploymentRow) : Option String := present row.imageUrl <|> present row.image

/-- Whether a row is a candidate; a status that is none throws. -/
def memoryCandidate (current row : DeploymentRow) : Except Failure Bool :=
  if row.id = current.id ∨ row.serviceId ≠ current.serviceId then .ok false
  else match parseDeploymentStatus row.status with
    | .error message => .error ⟨message, 500⟩
    | .ok status => .ok (status = "READY" && (memoryImage row).isSome)

/-- The time that counts: `deployedAt || finishedAt || createdAt`. -/
def memoryKey (row : DeploymentRow) : Int := (row.deployedAt <|> row.finishedAt).getD row.createdAt

/-- The filter, row by row. -/
def readyDeployments (current : DeploymentRow) : List DeploymentRow → Except Failure (List DeploymentRow) :=
  filterThrows (memoryCandidate current)

def latestReadyDeploymentForService (deployments : List DeploymentRow) (current : DeploymentRow) :
    Except Failure (Option DeploymentRow) := do
  let candidates ← readyDeployments current deployments
  return (Keyset.newestFirst memoryKey candidates).head?

def memorySource (rows : List DeploymentRow) (input : RollbackInput) (current : DeploymentRow) :
    Except Failure (Option DeploymentRow) :=
  match present input.previousDeploymentId with
  | some id => .ok (rows.find? fun row => row.id = id)
  | none => latestReadyDeploymentForService rows current

def memoryRollbackDeployment (rows : List DeploymentRow) (id : String) (now : Int) (deploymentId : String)
    (input : RollbackInput) : Except Failure Rollback := do
  let current ← orThrow (rows.find? fun row => row.id = deploymentId)
    ⟨"deployment not found: " ++ deploymentId, 404⟩
  rollbackFrom memoryImage (memorySource rows input current) (.ok ()) id now input current

/-! ### Production history -/

def DeploymentRow.Ready (row : DeploymentRow) : Prop := parseDeploymentStatus row.status = .ok "READY"

instance (row : DeploymentRow) : Decidable row.Ready :=
  inferInstanceAs (Decidable (parseDeploymentStatus row.status = .ok "READY"))

/-- The production deployments of the service of `current` that are READY and were created before it. -/
structure Precedes (rows : List DeploymentRow) (current row : DeploymentRow) : Prop where
  mem : row ∈ rows
  service : row.serviceId = current.serviceId
  production : environment row.deploymentType = .production
  ready : row.Ready
  older : row.createdAt < current.createdAt

/-- A production deployment of the service with the image, the digest and the commit of an earlier one. -/
def InHistory (imageOf : DeploymentRow → Option String) (rows : List DeploymentRow) (current created : DeploymentRow) :
    Prop :=
  (created.serviceId = current.serviceId ∧ environment created.deploymentType = .production) ∧
    ∃ row, Precedes rows current row ∧ created.imageUrl = imageOf row ∧
      created.imageDigest = present row.imageDigest ∧ created.commitSha = present row.commitSha

/-- A source that `validateRollbackSource` turns down. -/
def Refused (imageOf : DeploymentRow → Option String) (current found : DeploymentRow) : Prop :=
  found.projectId ≠ current.projectId ∨ Text.upper found.status ≠ "READY" ∨ imageOf found = none

/-- What the row that is found has to be: it is refused, or an earlier production deployment has its image
and digest, and its commit (that of `current` where it has none). -/
def GoesBack (imageOf : DeploymentRow → Option String) (rows : List DeploymentRow) (current found : DeploymentRow) :
    Prop :=
  Refused imageOf current found ∨ ∃ row, Precedes rows current row ∧
    imageOf row = imageOf found ∧ present row.imageDigest = present found.imageDigest ∧
    present row.commitSha = (present found.commitSha <|> present current.commitSha)

section RollbackFrom

variable {imageOf : DeploymentRow → Option String} {current previous : DeploymentRow}

theorem validateRollbackSource_ok {found : Option DeploymentRow} {explicit : Option String} :
    validateRollbackSource imageOf current found explicit = .ok previous ↔
      found = some previous ∧ (previous.projectId = current.projectId ∧ previous.serviceId = current.serviceId) ∧
        Text.upper previous.status = "READY" ∧ imageOf previous ≠ none := by
  unfold validateRollbackSource
  split
  · exact ⟨nofun, fun h => nomatch h.1⟩
  · exact ⟨nofun, fun h => nomatch h.1⟩
  · next found _ =>
    rw [Option.some.injEq]
    constructor
    · intro h
      obtain ⟨_, hsame, h⟩ := bind_ok.1 h
      obtain ⟨_, hready, h⟩ := bind_ok.1 h
      obtain rfl := pure_ok.1 h
      have hsame := throwIf_ok.1 hsame
      have hready := throwIf_ok.1 hready
      push Not at hsame hready
      exact ⟨rfl, hsame, hready⟩
    · rintro ⟨rfl, hsame, hready⟩
      refine bind_ok.2 ⟨(), throwIf_ok.2 ?_, bind_ok.2 ⟨(), throwIf_ok.2 ?_, rfl⟩⟩
      · push Not
        exact hsame
      · push Not
        exact hready

theorem rollbackFrom_ok {select : Except Failure (Option DeploymentRow)} {allowed : Except Failure Unit} {id : String}
    {now : Int} {input : RollbackInput} {result : Rollback} :
    rollbackFrom imageOf select allowed id now input current = .ok result ↔ ∃ found previous, select = .ok found ∧
      validateRollbackSource imageOf current found (present input.previousDeploymentId) = .ok previous ∧ allowed = .ok () ∧
      result = ⟨rollbackRow imageOf id now input current previous, current.id, previous⟩ := by
  unfold rollbackFrom
  constructor
  · intro h
    obtain ⟨found, hfound, h⟩ := bind_ok.1 h
    obtain ⟨previous, hprevious, h⟩ := bind_ok.1 h
    obtain ⟨_, hadmit, h⟩ := bind_ok.1 h
    exact ⟨found, previous, hfound, hprevious, hadmit, (pure_ok.1 h).symm⟩
  · rintro ⟨found, previous, hfound, hprevious, hadmit, rfl⟩
    exact bind_ok.2 ⟨found, hfound, bind_ok.2 ⟨previous, hprevious, bind_ok.2 ⟨(), hadmit, rfl⟩⟩⟩

/-- What is created from a source lies in the history exactly if the source goes back. -/
theorem rollbackRow_inHistory {rows : List DeploymentRow} {id : String} {now : Int} {input : RollbackInput}
    (hcurrent : environment current.deploymentType = .production) (hvalid : ¬ Refused imageOf current previous) :
    InHistory imageOf rows current (rollbackRow imageOf id now input current previous) ↔
      GoesBack imageOf rows current previous := by
  have htype : environment (rollbackRow imageOf id now input current previous).deploymentType = .production := by
    show environment (Text.jsOr current.deploymentType "production") = .production
    unfold Text.jsOr
    split_ifs
    · decide
    · exact hcurrent
  constructor
  · rintro ⟨-, row, hrow, himage, hdigest, hcommit⟩
    exact .inr ⟨row, hrow, himage.symm, hdigest.symm, hcommit.symm⟩
  · rintro (hrefused | ⟨row, hrow, himage, hdigest, hcommit⟩)
    · exact absurd hrefused hvalid
    · exact ⟨⟨rfl, htype⟩, row, hrow, himage.symm, hdigest.symm, hcommit.symm⟩

/-- Either store: what a rollback creates lies in the history, where it is not refused, exactly if the row that
the search finds goes back. -/
theorem rollbackFrom_inHistory {rows candidates : List DeploymentRow} {κ : Type} [LinearOrder κ]
    {key : DeploymentRow → κ} {select : Except Failure (Option DeploymentRow)} {allowed : Except Failure Unit}
    {id : String} {now : Int} {input : RollbackInput} (hcurrent : environment current.deploymentType = .production)
    (hselect : select = .ok (Keyset.newestFirst key candidates).head?)
    (hcandidates : ∀ row ∈ candidates, row.serviceId = current.serviceId) :
    (∀ result, rollbackFrom imageOf select allowed id now input current = .ok result →
        InHistory imageOf rows current result.deployment) ↔
      (allowed = .ok () → ∀ found, Keyset.Leads key candidates found → GoesBack imageOf rows current found) := by
  constructor
  · intro h hadmit found hleads
    by_cases hrefused : Refused imageOf current found
    · exact .inl hrefused
    · have hvalid : validateRollbackSource imageOf current (some found) (present input.previousDeploymentId) =
          .ok found := by
        unfold Refused at hrefused
        push Not at hrefused
        obtain ⟨hproject, hready, himage⟩ := hrefused
        exact validateRollbackSource_ok.2 ⟨rfl, ⟨hproject, hcandidates found hleads.mem⟩, hready, himage⟩
      have hresult : rollbackFrom imageOf select allowed id now input current =
          .ok ⟨rollbackRow imageOf id now input current found, current.id, found⟩ := by
        refine rollbackFrom_ok.2 ⟨some found, found, ?_, hvalid, hadmit, rfl⟩
        rw [hselect, Keyset.head?_newestFirst.2 hleads]
      exact (rollbackRow_inHistory hcurrent hrefused).1 (h _ hresult)
  · intro h result hresult
    obtain ⟨found, previous, hfound, hvalid, hadmit, rfl⟩ := rollbackFrom_ok.1 hresult
    obtain ⟨rfl, ⟨hproject, -⟩, hready, himage⟩ := validateRollbackSource_ok.1 hvalid
    rw [hselect, Except.ok.injEq] at hfound
    have hvalid : ¬ Refused imageOf current previous := by
      unfold Refused
      push Not
      exact ⟨hproject, hready, himage⟩
    exact (rollbackRow_inHistory hcurrent hvalid).2 (h hadmit previous (Keyset.head?_newestFirst.1 hfound))

end RollbackFrom

/-! ### The two stores -/

section Stores

variable {rows : List DeploymentRow} {id deploymentId : String} {now : Int} {input : RollbackInput}
  {current : DeploymentRow}

theorem prismaAdmit_ok {quota : Except Failure Unit} :
    prismaAdmit quota current = .ok () ↔ quota = .ok () ∧ current.projectId ≠ "" := by
  simp [prismaAdmit, bind_ok, throwIf_ok, Unique.exists_iff]

/-- The rows that the memory store sorts, where no status throws. -/
def memoryCandidates (rows : List DeploymentRow) (current : DeploymentRow) : List DeploymentRow :=
  rows.filter fun row => decide (memoryCandidate current row = .ok true)

/-- Every deployment of the service but `current` has a status of the machine. -/
def StatusesRead (rows : List DeploymentRow) (current : DeploymentRow) : Prop :=
  ∀ row ∈ rows, row.id ≠ current.id → row.serviceId = current.serviceId →
    ∃ status, parseDeploymentStatus row.status = .ok status

theorem memoryCandidate_ok {row : DeploymentRow} :
    (∃ candidate, memoryCandidate current row = .ok candidate) ↔
      (row.id ≠ current.id → row.serviceId = current.serviceId →
        ∃ status, parseDeploymentStatus row.status = .ok status) := by
  unfold memoryCandidate
  split_ifs with hother
  · refine ⟨fun _ hid hservice => ?_, fun _ => ⟨false, rfl⟩⟩
    rcases hother with h | h
    · exact absurd h hid
    · exact absurd hservice h
  · push Not at hother
    cases hstatus : parseDeploymentStatus row.status with
    | error message =>
      refine ⟨nofun, fun h => ?_⟩
      obtain ⟨status, hread⟩ := h hother.1 hother.2
      cases hread
    | ok status => exact ⟨fun _ _ _ => ⟨status, rfl⟩, fun _ => ⟨_, rfl⟩⟩

theorem memoryCandidate_service {row : DeploymentRow} (h : memoryCandidate current row = .ok true) :
    row.serviceId = current.serviceId := by
  unfold memoryCandidate at h
  split_ifs at h with hother
  · cases h
  · push Not at hother
    exact hother.2

theorem readyDeployments_ok {candidates : List DeploymentRow} :
    readyDeployments current rows = .ok candidates ↔
      StatusesRead rows current ∧ candidates = memoryCandidates rows current := by
  unfold readyDeployments StatusesRead memoryCandidates
  rw [filterThrows_ok, eq_comm (a := candidates)]
  simp only [memoryCandidate_ok, toOption_eq_some]

/-- **When a rollback stays in the production history.**  A rollback of a production deployment without an
explicit source throws or repeats an earlier production deployment of the service exactly if the READY
deployment with an image that comes first in the store's order does (`GoesBack`), unless the rollback is
refused for another reason. -/
theorem rollback_stays_in_history {quota : Except Failure Unit}
    (hfind : rows.find? (fun row => row.id = deploymentId) = some current)
    (hcurrent : environment current.deploymentType = .production)
    (hinput : present input.previousDeploymentId = none) :
    ((∀ result, prismaRollbackDeployment quota rows id now deploymentId input = .ok result →
        InHistory prismaImage rows current result.deployment) ↔
      (quota = .ok () ∧ current.projectId ≠ "" →
        ∀ found, Keyset.Leads prismaKey (prismaCandidates rows current) found →
          GoesBack prismaImage rows current found)) ∧
    ((∀ result, memoryRollbackDeployment rows id now deploymentId input = .ok result →
        InHistory memoryImage rows current result.deployment) ↔
      (StatusesRead rows current → ∀ found, Keyset.Leads memoryKey (memoryCandidates rows current) found →
        GoesBack memoryImage rows current found)) := by
  unfold prismaRollbackDeployment memoryRollbackDeployment
  rw [hfind, ← prismaAdmit_ok]
  constructor
  · have hselect : prismaSource rows input current =
        (Keyset.newestFirst prismaKey (prismaCandidates rows current)).head? := by
      unfold prismaSource
      rw [hinput]
    refine rollbackFrom_inHistory hcurrent (congrArg Except.ok hselect) fun row hrow => ?_
    have hcond := (List.mem_filter.1 hrow).2
    simp only [Bool.and_eq_true, decide_eq_true_eq] at hcond
    exact hcond.1.1.1
  · have hsource : memorySource rows input current = latestReadyDeploymentForService rows current := by
      unfold memorySource
      rw [hinput]
    show (∀ result, rollbackFrom memoryImage (memorySource rows input current) (.ok ()) id now input current =
      .ok result → _) ↔ _
    rw [hsource]
    by_cases hread : StatusesRead rows current
    · have hselect : latestReadyDeploymentForService rows current =
          .ok (Keyset.newestFirst memoryKey (memoryCandidates rows current)).head? := by
        unfold latestReadyDeploymentForService
        rw [readyDeployments_ok.2 ⟨hread, rfl⟩]
        rfl
      rw [rollbackFrom_inHistory hcurrent hselect fun row hrow => ?_]
      · exact ⟨fun h _ => h rfl, fun h _ => h hread⟩
      · exact memoryCandidate_service (of_decide_eq_true (List.mem_filter.1 hrow).2)
    · refine ⟨fun _ h => absurd h hread, fun _ result hresult => ?_⟩
      obtain ⟨found, previous, hfound, -⟩ := rollbackFrom_ok.1 hresult
      obtain ⟨candidates, hcandidates, -⟩ := bind_ok.1 hfound
      exact absurd (readyDeployments_ok.1 hcandidates).1 hread

end Stores

namespace Sample

def deployment (id deploymentType image commit : String) (createdAt deployedAt : Int) : DeploymentRow :=
  { id, serviceId := "svc", projectId := "shop", status := "READY", deploymentType, triggerType := "github_push"
    branch := "main", commitSha := some commit, imageUrl := some image, image := none, imageDigest := none
    deployedAt := some deployedAt, finishedAt := some deployedAt, createdAt }

def first : DeploymentRow := deployment "dep_1" "production" "shop:1" "aaa" 1 10

def second : DeploymentRow := deployment "dep_2" "production" "shop:2" "bbb" 2 20

/-- A preview that was deployed after the first production deployment. -/
def preview : DeploymentRow := deployment "dep_3" "preview" "shop:pr-7" "ccc" 3 30

def history : List DeploymentRow := [first, second, preview]

/-- The first is the only candidate for a rollback of the second, and goes back to itself. -/
theorem goesBack_first {imageOf : DeploymentRow → Option String} {κ : Type} [LinearOrder κ] {key : DeploymentRow → κ}
    {candidates : List DeploymentRow} {found : DeploymentRow} (hone : candidates = [first])
    (h : Keyset.Leads key candidates found) : GoesBack imageOf [first, second] second found := by
  obtain rfl : found = first := List.mem_singleton.1 (hone ▸ h.mem)
  exact .inr ⟨first, ⟨by decide, rfl, by decide, by decide +kernel, by decide⟩, rfl, rfl, rfl⟩

theorem not_inHistory {imageOf : DeploymentRow → Option String} {created : DeploymentRow}
    (himage : created.imageUrl ≠ imageOf first) : ¬ InHistory imageOf history second created := by
  rintro ⟨-, row, hrow, hsame, -⟩
  have hmem := hrow.mem
  have holder := hrow.older
  simp only [history, List.mem_cons, List.not_mem_nil, or_false] at hmem
  rcases hmem with rfl | rfl | rfl
  · exact himage hsame
  · exact absurd holder (by decide)
  · exact absurd holder (by decide)

end Sample

/-- Without the preview, the second deployment rolls back to the first in both stores. -/
theorem rollback_stays_in_history_first :
    (∀ result, prismaRollbackDeployment (.ok ()) [Sample.first, Sample.second] "dep_4" 40 "dep_2" {} = .ok result →
      InHistory prismaImage [Sample.first, Sample.second] Sample.second result.deployment) ∧
    ∀ result, memoryRollbackDeployment [Sample.first, Sample.second] "dep_4" 40 "dep_2" {} = .ok result →
      InHistory memoryImage [Sample.first, Sample.second] Sample.second result.deployment := by
  obtain ⟨hprisma, hmemory⟩ := @rollback_stays_in_history [Sample.first, Sample.second] "dep_4" "dep_2" 40 {}
    Sample.second (.ok ()) rfl (by decide) rfl
  exact ⟨hprisma.2 fun _ _ hleads => Sample.goesBack_first (by decide +kernel) hleads,
    hmemory.2 fun _ _ hleads => Sample.goesBack_first (by decide +kernel) hleads⟩

/-- With it, both stores create a production deployment with the image and the commit of the preview. -/
theorem rollback_takes_preview_image :
    (∃ result, prismaRollbackDeployment (.ok ()) Sample.history "dep_4" 40 "dep_2" {} = .ok result ∧
      result.previousDeployment = Sample.preview ∧
      ¬ InHistory prismaImage Sample.history Sample.second result.deployment) ∧
    ∃ result, memoryRollbackDeployment Sample.history "dep_4" 40 "dep_2" {} = .ok result ∧
      result.previousDeployment = Sample.preview ∧
      ¬ InHistory memoryImage Sample.history Sample.second result.deployment := by
  have hprisma : prismaRollbackDeployment (.ok ()) Sample.history "dep_4" 40 "dep_2" {} =
      .ok ⟨rollbackRow prismaImage "dep_4" 40 {} Sample.second Sample.preview, "dep_2", Sample.preview⟩ := by
    decide +kernel
  have hmemory : memoryRollbackDeployment Sample.history "dep_4" 40 "dep_2" {} =
      .ok ⟨rollbackRow memoryImage "dep_4" 40 {} Sample.second Sample.preview, "dep_2", Sample.preview⟩ := by
    decide +kernel
  exact ⟨⟨_, hprisma, rfl, Sample.not_inHistory (by decide)⟩, ⟨_, hmemory, rfl, Sample.not_inHistory (by decide)⟩⟩

end RaibitServer.Deployments
