import RaibitServer.Deployments.Rollback
import RaibitServer.Lib.Json
import RaibitServer.Membership.Store

/-!
# Tenants.Store — what tenants create in the memory store

The creating operations of `store.ts`: organizations, projects, services, resources, environment
variables and rollbacks.  Every table is a map by an identifier that `stableId` makes of names the
tenants choose.  Whether a service or a resource is acceptable, and what its other fields are, is left to
`Checks`; nothing here depends on it.
-/

namespace RaibitServer.Tenants

open Lib Core RaibitServer.Membership

/-! ### Rows -/

structure ProjectRow where
  id : String
  organizationId : String
  name : String
  slug : String
  description : String
  status : String
  createdAt : Int
  deriving DecidableEq

/-- An object with texts as values. -/
abbrev Vars := Keyed (Prod.fst : String × String → String)

/-- `environment`, `desiredSpec.env` and the other fields of a service. -/
structure ServiceContent where
  environment : Vars
  env : Vars
  fields : Json

structure ServiceRow where
  id : String
  projectId : String
  name : String
  content : ServiceContent

structure ResourceRow where
  id : String
  projectId : String
  name : String
  status : String
  fields : Json

structure VariableRow where
  id : String
  projectId : String
  serviceId : String
  key : String
  value : Option String
  secretId : Option String
  valueMasked : String
  source : String

structure SecretRow where
  id : String
  scopeId : String
  key : String

structure Store where
  members : MemberStore
  projects : Keyed ProjectRow.id
  services : Keyed ServiceRow.id
  resources : Keyed ResourceRow.id
  deployments : Keyed Deployments.DeploymentRow.id
  environmentVariables : Keyed VariableRow.id
  secrets : Keyed SecretRow.id

/-! ### Requests -/

structure ProjectInput where
  organizationId : String
  name : String
  slug : String := ""
  description : String := ""
  status : String := "active"
  now : Int

structure ServiceInput where
  projectId : String
  name : String
  fields : Json

structure ResourceInput where
  projectId : String
  name : String
  fields : Json

/-- An entry that `normalizeEnvEntries` let pass; `drawn` is the identifier of a new secret. -/
structure EnvEntry where
  key : String
  value : String
  isSecret : Bool
  valueMasked : String
  source : String
  drawn : String

structure EnvironmentInput where
  projectId : String
  serviceId : String
  entries : Except Thrown (List EnvEntry)

structure RollbackRequest where
  deploymentId : String
  input : Deployments.RollbackInput
  now : Int
  nowIso : String

structure Checks where
  /-- The checks of a service against the row under its identifier, and the fields it gets. -/
  service : Option ServiceRow → ServiceInput → Except Thrown ServiceContent
  /-- Whether resources of the engine can be run. -/
  requireResourceExecution : ResourceInput → Except Thrown Unit
  /-- The status and the other fields of a resource. -/
  resource : String → Option ResourceRow → ResourceInput → Except Thrown (String × Json)
  /-- The first twenty hexadecimal digits of SHA-256. -/
  nameHash : String → String

/-! ### Identifiers -/

/-- `slugify(name)`. -/
@[irreducible] def nameSlug (name : String) : String := slugify name "item"

@[irreducible] def projectId (organizationId slug : String) : String := stableId "prj" [organizationId, slug]

@[irreducible] def serviceId (projectId name : String) : String := stableId "svc" [projectId, name]

/-- For a name without a letter or digit of ASCII. -/
def resourceNameFallback (checks : Checks) (name : String) : Option String :=
  if Text.jsTrim name = "" ∨ name.toList.any Char.isAlphanum = true then none
  else some ("resource-" ++ checks.nameHash name)

@[irreducible] def newResourceId (checks : Checks) (projectId name : String) : String :=
  stableId "res" [projectId, (resourceNameFallback checks name).getD name]

@[irreducible] def variableId (serviceId key : String) : String := stableId "env" [serviceId, key]

@[irreducible] def rollbackId (current : Deployments.DeploymentRow) (nowIso : String) : String :=
  stableId "dep" [current.serviceId, "rollback", current.id, nowIso]

/-! ### Operations -/

def createProject (s : Store) (input : ProjectInput) : Except Thrown Store := do
  let slug := Text.jsOr input.slug input.name
  let project : ProjectRow :=
    { id := projectId input.organizationId slug
      organizationId := input.organizationId
      name := input.name
      slug := nameSlug slug
      description := input.description
      status := input.status
      createdAt := input.now }
  throwIf ((s.projects.get? project.id).any (fun existing =>
      existing.organizationId ≠ input.organizationId || existing.slug ≠ project.slug) = true)
    ⟨"project_identity_collision", 409⟩
  return { s with projects := s.projects.put project }

def createService (checks : Checks) (s : Store) (input : ServiceInput) : Except Thrown Store := do
  let id := serviceId input.projectId input.name
  let content ← checks.service (s.services.get? id) input
  throwIf ((s.services.get? id).isSome = true ∧
      s.deployments.rows.any (fun deployment => deployment.serviceId = id) = true)
    ⟨"IMMUTABLE_SETTINGS", 409⟩
  return { s with services := s.services.put ⟨id, input.projectId, input.name, content⟩ }

/-- The resource of a project with a name. -/
def existingResource (s : Store) (input : ResourceInput) : Option ResourceRow :=
  s.resources.rows.find? fun row => row.projectId = input.projectId && row.name = input.name

/-- The identifier under which a resource is written. -/
def resourceId (checks : Checks) (s : Store) (input : ResourceInput) : String :=
  ((existingResource s input).map ResourceRow.id).getD (newResourceId checks input.projectId input.name)

def createResource (checks : Checks) (s : Store) (input : ResourceInput) : Except Thrown Store := do
  checks.requireResourceExecution input
  if (existingResource s input).any (fun row => Text.upper row.status = "READY") = true then return s
  else
    let id := resourceId checks s input
    let (status, fields) ← checks.resource id (existingResource s input) input
    return { s with resources := s.resources.put ⟨id, input.projectId, input.name, status, fields⟩ }

/-- The identifier of the secret for a variable, and the secrets with it. -/
def createSecret (secrets : Keyed SecretRow.id) (scopeId key drawn : String) : String × Keyed SecretRow.id :=
  let existing := secrets.rows.find? fun row => row.scopeId = scopeId && row.key = key
  let id := (existing.map SecretRow.id).getD drawn
  (id, secrets.put ⟨id, scopeId, key⟩)

/-- What the loop over the entries changes. -/
structure EnvWork where
  secrets : Keyed SecretRow.id
  environment : Vars
  env : Vars
  rows : Keyed VariableRow.id

def upsertEntry (projectId serviceId : String) (work : EnvWork) (entry : EnvEntry) : EnvWork :=
  let row (value secretId : Option String) : VariableRow :=
    { id := variableId serviceId entry.key
      projectId
      serviceId
      key := entry.key
      value
      secretId
      valueMasked := entry.valueMasked
      source := entry.source }
  if entry.isSecret then
    let (secretId, secrets) := createSecret work.secrets serviceId entry.key entry.drawn
    { secrets
      environment := work.environment.put (entry.key, "secret:" ++ secretId)
      env := work.env.filter fun member => member.1 ≠ entry.key
      rows := work.rows.put (row none (some secretId)) }
  else
    { work with
      environment := work.environment.put (entry.key, entry.value)
      env := work.env.put (entry.key, entry.value)
      rows := work.rows.put (row (some entry.value) none) }

def upsertEntries (s : Store) (input : EnvironmentInput) (service : ServiceRow) (entries : List EnvEntry) : EnvWork :=
  entries.foldl (upsertEntry input.projectId input.serviceId)
    ⟨s.secrets, service.content.environment, service.content.env, s.environmentVariables⟩

def upsertServiceEnvironment (s : Store) (input : EnvironmentInput) : Except Thrown Store := do
  let service ← orThrow (s.services.get? input.serviceId) ⟨"service not found: " ++ input.serviceId, 404⟩
  throwIf (service.projectId ≠ input.projectId) ⟨"service does not belong to project", 403⟩
  let entries ← input.entries
  let work := upsertEntries s input service entries
  let content := { service.content with environment := work.environment, env := work.env }
  return { s with
    services := s.services.put { service with content }
    environmentVariables := work.rows
    secrets := work.secrets }

def rollbackDeployment (s : Store) (request : RollbackRequest) : Except Thrown Store := do
  let current ← orThrow (s.deployments.get? request.deploymentId)
    ⟨"deployment not found: " ++ request.deploymentId, 404⟩
  let rollback ← (Deployments.memoryRollbackDeployment s.deployments.rows (rollbackId current request.nowIso)
    request.now request.deploymentId request.input).mapError fun failure => ⟨failure.message, failure.statusCode⟩
  return { s with deployments := s.deployments.put rollback.deployment }

inductive Request
  | organization (now : Int) (input : CreateOrganization)
  | project (input : ProjectInput)
  | service (input : ServiceInput)
  | resource (input : ResourceInput)
  | environment (input : EnvironmentInput)
  | rollback (request : RollbackRequest)

/-- The store after a request that is carried out, or the error of one that is refused. -/
def perform (checks : Checks) (s : Store) : Request → Except Thrown Store
  | .organization now input =>
    let (result, members) := createOrganizationForUser s.members now input
    result.map fun _ => { s with members }
  | .project input => createProject s input
  | .service input => createService checks s input
  | .resource input => createResource checks s input
  | .environment input => upsertServiceEnvironment s input
  | .rollback request => rollbackDeployment s request

/-- A refused request leaves the store as it is. -/
def step (checks : Checks) (s : Store) (request : Request) : Store :=
  match perform checks s request with
  | .ok s' => s'
  | .error _ => s

end RaibitServer.Tenants
