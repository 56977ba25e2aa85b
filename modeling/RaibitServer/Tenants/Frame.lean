import RaibitServer.Lib.Run
import RaibitServer.Tenants.Store

/-!
# Tenants.Frame — when tenants stay apart

A row belongs to the organization of its project (`holdings`).  Identifiers are made of names, so that two
different names can meet in one; where none does (`Request.Fresh`), a request touches no row of another
organization, and one under a new name only adds to the tables (`Isolated`).
-/

namespace RaibitServer.Tenants

open Lib Core RaibitServer.Membership

variable {checks : Checks} {s s' : Store}

/-! ### Whose rows these are -/

def Store.organizationOf (s : Store) (projectId : String) : Option String :=
  (s.projects.get? projectId).map ProjectRow.organizationId

structure Holdings where
  projects : List ProjectRow
  services : List ServiceRow
  resources : List ResourceRow
  deployments : List Deployments.DeploymentRow
  environmentVariables : List VariableRow

/-- The rows of an organization. -/
def holdings (s : Store) (organizationId : String) : Holdings :=
  { projects := s.projects.select fun row => row.organizationId = organizationId
    services := s.services.select fun row => s.organizationOf row.projectId = some organizationId
    resources := s.resources.select fun row => s.organizationOf row.projectId = some organizationId
    deployments := s.deployments.select fun row => s.organizationOf row.projectId = some organizationId
    environmentVariables :=
      s.environmentVariables.select fun row => s.organizationOf row.projectId = some organizationId }

def membersOf (s : Store) (organizationId : String) : List MemberRow :=
  s.members.members.filter fun row => row.organizationId = organizationId

/-- The organization a request is for; one that creates an organization is for none that exists. -/
def Request.organizationOf (s : Store) : Request → Option String
  | .organization _ _ => none
  | .project input => some input.organizationId
  | .service input => s.organizationOf input.projectId
  | .resource input => s.organizationOf input.projectId
  | .environment input => s.organizationOf input.projectId
  | .rollback request =>
    (s.deployments.get? request.deploymentId).bind fun current => s.organizationOf current.projectId

/-! ### Names and identifiers -/

def resourceSlug (checks : Checks) (name : String) : String :=
  (resourceNameFallback checks name).getD (nameSlug name)

/-- No other name has the identifier of what is written. -/
def Request.Fresh (checks : Checks) (s : Store) : Request → Prop
  | .organization _ input =>
    ∀ row ∈ s.members.organizations.rows, row.id = stableId "org" [input.slug] → row.slug = input.slug
  | .project _ => True
  | .service input => ∀ row ∈ s.services.rows, row.id = serviceId input.projectId input.name →
    row.projectId = input.projectId ∧ nameSlug row.name = nameSlug input.name
  | .resource input => ∀ row ∈ s.resources.rows, row.id = resourceId checks s input →
    row.projectId = input.projectId ∧ resourceSlug checks row.name = resourceSlug checks input.name
  | .environment input => ∀ entries, input.entries = .ok entries → ∀ entry ∈ entries,
    (∀ row ∈ s.environmentVariables.rows, row.id = variableId input.serviceId entry.key →
      row.projectId = input.projectId ∧ row.serviceId = input.serviceId ∧ row.key = entry.key) ∧
    ∀ other ∈ entries, variableId input.serviceId other.key = variableId input.serviceId entry.key →
      other.key = entry.key
  | .rollback request => ∀ current, s.deployments.get? request.deploymentId = some current →
    rollbackId current request.nowIso ∉ s.deployments.keys

/-- Nothing of the same parent has the name. -/
def Request.NewName (checks : Checks) (s : Store) : Request → Prop
  | .project input => ∀ row ∈ s.projects.rows, row.organizationId = input.organizationId →
    row.slug ≠ nameSlug (Text.jsOr input.slug input.name)
  | .service input => ∀ row ∈ s.services.rows, row.projectId = input.projectId →
    nameSlug row.name ≠ nameSlug input.name
  | .resource input => ∀ row ∈ s.resources.rows, row.projectId = input.projectId →
    resourceSlug checks row.name ≠ resourceSlug checks input.name
  | _ => True

/-- A table with one more row. -/
def Gains {α : Type} {key : α → String} (t u : Keyed key) (p : α → Prop) : Prop :=
  ∃ row, p row ∧ u.rows = t.rows ++ [row]

/-- The variables of a service but for those with a key of `entries`. -/
def untouched (entries : List EnvEntry) (vars : Vars) : List (String × String) :=
  vars.select fun member => member.1 ∉ entries.map EnvEntry.key

/-- The variables but for those of the service of `input` with a key of `entries`. -/
def otherVariables (input : EnvironmentInput) (entries : List EnvEntry) (rows : Keyed VariableRow.id) :
    List VariableRow :=
  rows.select fun row => ¬ (row.projectId = input.projectId ∧ row.serviceId = input.serviceId ∧
    row.key ∈ entries.map EnvEntry.key)

/-- The variables of a request are there, and all others as they were: in the service and as rows. -/
structure Upserted (s : Store) (input : EnvironmentInput) (entries : List EnvEntry) (s' : Store) : Prop where
  service : ∃ old new : ServiceRow, s.services.get? input.serviceId = some old ∧ s'.services = s.services.put new ∧
    new = { old with content := { old.content with environment := new.content.environment, env := new.content.env } } ∧
    untouched entries new.content.environment = untouched entries old.content.environment ∧
    untouched entries new.content.env = untouched entries old.content.env
  kept : otherVariables input entries s'.environmentVariables = otherVariables input entries s.environmentVariables
  there : ∀ entry ∈ entries, ∃ row ∈ s'.environmentVariables.rows,
    row.serviceId = input.serviceId ∧ row.key = entry.key
  rest : s' = { s with
    services := s'.services, environmentVariables := s'.environmentVariables, secrets := s'.secrets }

/-- What is asked for is there, and everything that was there before. -/
def Adds (s s' : Store) : Request → Prop
  | .organization _ input => Gains s.members.organizations s'.members.organizations (·.slug = input.slug) ∧
    s' = { s with members := s'.members }
  | .project input => Gains s.projects s'.projects
      (fun row => row.organizationId = input.organizationId ∧ row.name = input.name) ∧
    s' = { s with projects := s'.projects }
  | .service input => Gains s.services s'.services
      (fun row => row.projectId = input.projectId ∧ row.name = input.name) ∧
    s' = { s with services := s'.services }
  | .resource input => Gains s.resources s'.resources
      (fun row => row.projectId = input.projectId ∧ row.name = input.name) ∧
    s' = { s with resources := s'.resources }
  | .environment input => ∃ entries, input.entries = .ok entries ∧ Upserted s input entries s'
  | .rollback _ => Gains s.deployments s'.deployments (·.triggerType = "rollback") ∧
    s' = { s with deployments := s'.deployments }

/-- A request of one tenant does no harm to what is there. -/
structure Isolated (checks : Checks) (s : Store) (request : Request) : Prop where
  organizations : ∀ row ∈ s.members.organizations.rows,
    row ∈ (step checks s request).members.organizations.rows ∧
      membersOf (step checks s request) row.id = membersOf s row.id
  bystanders : ∀ organizationId, request.organizationOf s ≠ some organizationId →
    holdings (step checks s request) organizationId = holdings s organizationId
  adds : request.NewName checks s →
    (∃ e, perform checks s request = .error e) ∨ Adds s (step checks s request) request

/-! ### One write -/

theorem gains_put {α : Type} {key : α → String} {t : Keyed key} {row : α} {p : α → Prop} (hp : p row)
    (h : ∀ r ∈ t.rows, key r ≠ key row) : Gains t (t.put row) p := by
  refine ⟨row, hp, ?_⟩
  unfold Keyed.put
  rw [dif_neg]
  rintro hmem
  obtain ⟨r, hr, hkey⟩ := List.mem_map.1 hmem
  exact h r hr hkey

variable {organizationId : String} {request : Request}

/-- A row over one of the same project is nothing to the organizations of other projects. -/
theorem owned_put {α : Type} {key : α → String} {t : Keyed key} (projectOf : α → String) (row : α)
    (howner : s.organizationOf (projectOf row) ≠ some organizationId)
    (hover : ∀ r ∈ t.rows, key r = key row → projectOf r = projectOf row) :
    (t.put row).select (fun r => s.organizationOf (projectOf r) = some organizationId) =
      t.select fun r => s.organizationOf (projectOf r) = some organizationId := by
  refine Keyed.select_put (decide_eq_false howner) fun r hr hq hkey => ?_
  rw [hover r hr hkey] at hq
  exact howner (of_decide_eq_true hq)

theorem step_ok (h : perform checks s request = .ok s') : step checks s request = s' := by
  unfold step
  rw [h]

theorem step_error {e : Thrown} (h : perform checks s request = .error e) : step checks s request = s := by
  unfold step
  rw [h]

/-- The step of a request that leaves organizations alone. -/
theorem isolated_of_ok (h : perform checks s request = .ok s') (hmembers : s'.members = s.members)
    (hother : ∀ organizationId, request.organizationOf s ≠ some organizationId →
      holdings s' organizationId = holdings s organizationId) (hadds : request.NewName checks s → Adds s s' request) :
    Isolated checks s request := by
  obtain rfl := step_ok h
  refine ⟨fun row hrow => ?_, hother, fun hnew => .inr (hadds hnew)⟩
  unfold membersOf
  rw [hmembers]
  exact ⟨hrow, rfl⟩

theorem isolated_of_error {e : Thrown} (h : perform checks s request = .error e) : Isolated checks s request := by
  refine ⟨fun row hrow => ?_, fun _ _ => by rw [step_error h], fun _ => .inl ⟨e, h⟩⟩
  rw [step_error h]
  exact ⟨hrow, rfl⟩

/-! ### Organizations and projects -/

theorem checkedOrganization_ok {store : MemberStore} {now : Int} {input : CreateOrganization} {actor : String}
    {row : Organization} (h : checkedOrganization store now input = .ok (actor, row)) :
    row.id = stableId "org" [input.slug] ∧ row.slug = input.slug ∧
      ∀ other ∈ store.organizations.rows, other.slug ≠ input.slug := by
  unfold checkedOrganization at h
  obtain ⟨⟨actor', slug⟩, hparse, h⟩ := bind_ok.1 h
  have hslug : input.slug = slug := by
    unfold parseAuthenticatedOrganizationCreateInput parseOrganizationRouteSlug at hparse
    simp only [bind_ok, throwIf_ok, pure_ok, Prod.mk.injEq] at hparse
    obtain ⟨-, -, -, -, slug', ⟨-, -, -, -, -, -, rfl⟩, -, rfl⟩ := hparse
    rfl
  obtain ⟨-, -, h⟩ := bind_ok.1 h
  obtain ⟨_, htaken, h⟩ := bind_ok.1 h
  obtain ⟨-, rfl⟩ := Prod.mk.inj (pure_ok.1 h)
  refine ⟨by rw [hslug], hslug.symm, fun other hother hsame => throwIf_ok.1 htaken ?_⟩
  exact List.any_eq_true.2 ⟨other, hother, decide_eq_true (hsame.trans hslug)⟩

/-- The members after a user created an organization. -/
def joined (store : MemberStore) (actor : String) (row : Organization) : MemberStore :=
  { store with
    organizations := store.organizations.put row
    members := store.members ++ [{ organizationId := row.id, userId := actor, role := "OWNER" }] }

theorem perform_organization {now : Int} {input : CreateOrganization} :
    perform checks s (.organization now input) =
      (checkedOrganization s.members now input).map fun made => { s with members := joined s.members made.1 made.2 } := by
  unfold perform createOrganizationForUser
  dsimp only
  cases checkedOrganization s.members now input <;> rfl

theorem organization_isolated {now : Int} {input : CreateOrganization}
    (hfresh : (Request.organization now input).Fresh checks s) :
    Isolated checks s (.organization now input) := by
  have hperform := @perform_organization checks s now input
  cases h : checkedOrganization s.members now input with
  | error e =>
    rw [h] at hperform
    exact isolated_of_error hperform
  | ok made =>
    obtain ⟨actor, row⟩ := made
    obtain ⟨hid, hslug, htaken⟩ := checkedOrganization_ok h
    have hnew (other) (hother : other ∈ s.members.organizations.rows) : other.id ≠ row.id :=
      fun hkey => htaken other hother (hfresh other hother (hkey.trans hid))
    rw [h] at hperform
    have hstep : step checks s (.organization now input) = { s with members := joined s.members actor row } :=
      step_ok hperform
    constructor
    · intro other hother
      have hne := hnew other hother
      rw [hstep]
      refine ⟨Keyed.mem_put.2 (.inr ⟨hother, hne⟩), ?_⟩
      show (s.members.members ++ [_]).filter _ = s.members.members.filter _
      rw [List.filter_append, List.filter_cons_of_neg (by simpa using Ne.symm hne), List.filter_nil, List.append_nil]
    · intro organizationId _
      rw [hstep]
      rfl
    · intro _
      rw [hstep]
      exact .inr ⟨gains_put hslug hnew, rfl⟩

/-- A project that is written anew keeps its organization. -/
theorem organizationOf_put {row : ProjectRow} (hother : row.organizationId ≠ organizationId)
    (hover : ∀ old ∈ s.projects.rows, old.id = row.id → old.organizationId = row.organizationId) (projectId : String) :
    Store.organizationOf { s with projects := s.projects.put row } projectId = some organizationId ↔
      s.organizationOf projectId = some organizationId := by
  unfold Store.organizationOf
  by_cases hid : row.id = projectId
  · subst hid
    show (Option.map _ ((s.projects.put row).get? row.id)) = _ ↔ _
    rw [Keyed.get?_put_self]
    constructor
    · intro h
      exact absurd (Option.some.inj h) hother
    · intro h
      obtain ⟨old, hold, howner⟩ := Option.map_eq_some_iff.1 h
      obtain ⟨hmem, hkey⟩ := Keyed.get?_eq_some.1 hold
      exact absurd ((hover old hmem hkey).symm.trans howner) hother
  · show (Option.map _ ((s.projects.put row).get? projectId)) = _ ↔ _
    rw [Keyed.get?_put_ne hid]

theorem createProject_ok {input : ProjectInput} (h : createProject s input = .ok s') :
    ∃ row : ProjectRow, row.organizationId = input.organizationId ∧ row.name = input.name ∧
      row.slug = nameSlug (Text.jsOr input.slug input.name) ∧ s' = { s with projects := s.projects.put row } ∧
      ∀ old ∈ s.projects.rows, old.id = row.id → old.organizationId = row.organizationId ∧ old.slug = row.slug := by
  unfold createProject at h
  obtain ⟨_, hfree, h⟩ := bind_ok.1 h
  refine ⟨_, rfl, rfl, rfl, (pure_ok.1 h).symm, fun old hmem hid => ?_⟩
  rw [throwIf_ok, Keyed.get?_eq_some.2 ⟨hmem, hid⟩] at hfree
  simpa using hfree

theorem project_isolated (input : ProjectInput) : Isolated checks s (.project input) := by
  cases h : createProject s input with
  | error e => exact isolated_of_error h
  | ok s' =>
    obtain ⟨row, howner, hname, hslug, rfl, hover⟩ := createProject_ok h
    refine isolated_of_ok h rfl (fun organizationId hother => ?_) fun hnew => ⟨gains_put ⟨howner, hname⟩ ?_, rfl⟩
    · have hne : row.organizationId ≠ organizationId := fun e => hother (by rw [← e, howner]; rfl)
      have howned := organizationOf_put hne fun old hmem hid => (hover old hmem hid).1
      have hprojects : (s.projects.put row).select (fun r => r.organizationId = organizationId) =
          s.projects.select fun r => r.organizationId = organizationId := by
        refine Keyed.select_put (decide_eq_false hne) fun old hmem hq hid => hne ?_
        rw [← (hover old hmem hid).1]
        exact of_decide_eq_true hq
      unfold holdings
      simp only [howned]
      rw [hprojects]
    · intro old hold hid
      obtain ⟨horganization, hsame⟩ := hover old hold hid
      exact hnew old hold (horganization.trans howner) (hsame.trans hslug)

/-! ### Services, resources and rollbacks -/

theorem service_isolated {input : ServiceInput} (hfresh : (Request.service input).Fresh checks s) :
    Isolated checks s (.service input) := by
  cases h : createService checks s input with
  | error e => exact isolated_of_error h
  | ok s' =>
    have hok := h
    unfold createService at h
    obtain ⟨content, -, h⟩ := bind_ok.1 h
    obtain ⟨-, -, h⟩ := bind_ok.1 h
    obtain rfl := pure_ok.1 h
    refine isolated_of_ok hok rfl (fun organizationId hother => ?_) fun hnew => ⟨gains_put ⟨rfl, rfl⟩ fun row hrow hid =>
      hnew row hrow (hfresh row hrow hid).1 (hfresh row hrow hid).2, rfl⟩
    have hput := owned_put ServiceRow.projectId ⟨_, input.projectId, input.name, content⟩ hother
      fun row hrow hid => (hfresh row hrow hid).1
    unfold holdings
    rw [← hput]
    rfl

theorem existingResource_some {input : ResourceInput} {row : ResourceRow} (h : existingResource s input = some row) :
    row ∈ s.resources.rows ∧ row.projectId = input.projectId ∧ row.name = input.name := by
  have hrow := List.find?_some h
  simp only [Bool.and_eq_true, decide_eq_true_eq] at hrow
  exact ⟨List.mem_of_find?_eq_some h, hrow⟩

theorem resource_isolated {input : ResourceInput} (hfresh : (Request.resource input).Fresh checks s) :
    Isolated checks s (.resource input) := by
  cases h : createResource checks s input with
  | error e => exact isolated_of_error h
  | ok s' =>
    have hok := h
    unfold createResource at h
    obtain ⟨-, -, h⟩ := bind_ok.1 h
    split at h
    · next hready =>
      obtain rfl := pure_ok.1 h
      refine isolated_of_ok hok rfl (fun _ _ => rfl) fun hnew => ?_
      obtain ⟨row, hrow, -⟩ := (Option.any_eq_true _ _).1 hready
      obtain ⟨hmem, hproject, hname⟩ := existingResource_some hrow
      exact absurd (by rw [hname]) (hnew row hmem hproject)
    · obtain ⟨⟨status, fields⟩, -, h⟩ := bind_ok.1 h
      obtain rfl := pure_ok.1 h
      refine isolated_of_ok hok rfl (fun organizationId hother => ?_) fun hnew => ⟨gains_put ⟨rfl, rfl⟩ fun row hrow hid =>
        hnew row hrow (hfresh row hrow hid).1 (hfresh row hrow hid).2, rfl⟩
      have hput := owned_put ResourceRow.projectId
        ⟨resourceId checks s input, input.projectId, input.name, status, fields⟩ hother
        fun row hrow hid => (hfresh row hrow hid).1
      unfold holdings
      rw [← hput]
      rfl

theorem rollback_isolated {request : RollbackRequest} (hfresh : (Request.rollback request).Fresh checks s) :
    Isolated checks s (.rollback request) := by
  cases h : rollbackDeployment s request with
  | error e => exact isolated_of_error h
  | ok s' =>
    have hok := h
    unfold rollbackDeployment at h
    obtain ⟨current, hcurrent, h⟩ := bind_ok.1 h
    obtain ⟨rollback, hrollback, h⟩ := bind_ok.1 h
    obtain rfl := pure_ok.1 h
    have hcurrent := orThrow_ok.1 hcurrent
    have hrollback := mapError_ok.1 hrollback
    unfold Deployments.memoryRollbackDeployment at hrollback
    obtain ⟨current', hfound, hrollback⟩ := bind_ok.1 hrollback
    obtain ⟨found, previous, -, -, -, rfl⟩ := Deployments.rollbackFrom_ok.1 hrollback
    obtain rfl : current' = current := Option.some.inj ((orThrow_ok.1 hfound).symm.trans hcurrent)
    have hnew (row) (hrow : row ∈ s.deployments.rows) : row.id ≠ rollbackId current' request.nowIso :=
      fun hid => hfresh current' hcurrent (List.mem_map.2 ⟨row, hrow, hid⟩)
    refine isolated_of_ok hok rfl (fun organizationId hother => ?_) fun _ => ⟨gains_put rfl hnew, rfl⟩
    have howner : s.organizationOf current'.projectId ≠ some organizationId := by
      intro h
      refine hother ?_
      unfold Request.organizationOf
      dsimp only
      rw [hcurrent]
      exact h
    have hput := owned_put Deployments.DeploymentRow.projectId (Deployments.rollbackRow Deployments.memoryImage
      (rollbackId current' request.nowIso) request.now request.input current' previous) howner
      fun row hrow hid => absurd hid (hnew row hrow)
    unfold holdings
    rw [← hput]
    rfl

/-! ### Variables -/

section Variables

variable {project service : String} {work : EnvWork} {entries : List EnvEntry}

theorem upsertEntry_rows (entry : EnvEntry) :
    ∃ row : VariableRow, (upsertEntry project service work entry).rows = work.rows.put row ∧
      row.id = variableId service entry.key ∧ row.projectId = project ∧ row.serviceId = service ∧
      row.key = entry.key := by
  unfold upsertEntry
  split
  · exact ⟨_, rfl, rfl, rfl, rfl, rfl⟩
  · exact ⟨_, rfl, rfl, rfl, rfl, rfl⟩

theorem upsertEntry_vars {q : String × String → Bool} {entry : EnvEntry} (hq : ∀ value, q (entry.key, value) = false) :
    (upsertEntry project service work entry).environment.select q = work.environment.select q ∧
      (upsertEntry project service work entry).env.select q = work.env.select q := by
  have hput (vars : Vars) (value : String) : (vars.put (entry.key, value)).select q = vars.select q := by
    refine Keyed.select_put (hq value) ?_
    rintro ⟨name, text⟩ - hmember rfl
    exact Bool.false_ne_true ((hq text).symm.trans hmember)
  unfold upsertEntry
  split
  · refine ⟨hput _ _, Keyed.select_filter ?_⟩
    rintro ⟨name, text⟩ - hmember
    refine decide_eq_true ?_
    rintro rfl
    exact Bool.false_ne_true ((hq text).symm.trans hmember)
  · exact ⟨hput _ _, hput _ _⟩

theorem upsertEntries_vars {q : String × String → Bool} (hq : ∀ entry ∈ entries, ∀ value, q (entry.key, value) = false) :
    (entries.foldl (upsertEntry project service) work).environment.select q = work.environment.select q ∧
      (entries.foldl (upsertEntry project service) work).env.select q = work.env.select q := by
  refine List.foldlRecOn entries _ (motive := fun now : EnvWork => now.environment.select q = work.environment.select q ∧
    now.env.select q = work.env.select q) ⟨rfl, rfl⟩ fun now hnow entry hentry => ?_
  obtain ⟨hfirst, hsecond⟩ := @upsertEntry_vars project service now q entry (hq entry hentry)
  exact ⟨hfirst.trans hnow.1, hsecond.trans hnow.2⟩

/-- Rows that are none of the variables written, and under none of their identifiers, stay. -/
theorem upsertEntries_rows {q : VariableRow → Bool}
    (hq : ∀ entry ∈ entries, ∀ row : VariableRow, row.projectId = project → row.serviceId = service →
      row.key = entry.key → q row = false)
    (hover : ∀ entry ∈ entries, ∀ row ∈ work.rows.rows, q row = true → row.id ≠ variableId service entry.key) :
    (entries.foldl (upsertEntry project service) work).rows.select q = work.rows.select q := by
  refine List.foldlRecOn (motive := fun now : EnvWork => now.rows.select q = work.rows.select q) entries _ rfl
    fun now hnow entry hentry => ?_
  obtain ⟨row, hrows, hid, hproject, hservice, hkey⟩ := @upsertEntry_rows project service now entry
  rw [hrows]
  refine (Keyed.select_put (hq entry hentry row hproject hservice hkey) fun r hr hr' => ?_).trans hnow
  have hold : r ∈ work.rows.select q := hnow ▸ List.mem_filter.2 ⟨hr, hr'⟩
  rw [hid]
  exact hover entry hentry r (List.mem_filter.1 hold).1 hr'

/-- The service has a variable with the key. -/
def HasKey (service key : String) (rows : Keyed VariableRow.id) : Prop :=
  ∃ row ∈ rows.rows, row.id = variableId service key ∧ row.serviceId = service ∧ row.key = key

theorem upsertEntries_hasKey {key : String}
    (hids : ∀ entry ∈ entries, variableId service entry.key = variableId service key → entry.key = key)
    (h : HasKey service key work.rows ∨ key ∈ entries.map EnvEntry.key) :
    HasKey service key (entries.foldl (upsertEntry project service) work).rows := by
  induction entries generalizing work with
  | nil => exact h.resolve_right List.not_mem_nil
  | cons entry entries ih =>
    refine ih (fun other hother => hids other (List.mem_cons_of_mem _ hother)) ?_
    obtain ⟨row, hrows, hid, -, hservice, hkey⟩ := @upsertEntry_rows project service work entry
    rw [hrows]
    by_cases hsame : entry.key = key
    · rw [hsame] at hid hkey
      exact .inl ⟨row, Keyed.mem_put.2 (.inl rfl), hid, hservice, hkey⟩
    · rcases h with ⟨old, hold, holdId, hrest⟩ | hmem
      · refine .inl ⟨old, Keyed.mem_put.2 (.inr ⟨hold, ?_⟩), holdId, hrest⟩
        rw [holdId, hid]
        exact fun e => hsame (hids entry List.mem_cons_self e.symm)
      · exact .inr ((List.mem_cons.1 hmem).resolve_left (Ne.symm hsame))

end Variables

theorem environment_isolated {input : EnvironmentInput} (hfresh : (Request.environment input).Fresh checks s) :
    Isolated checks s (.environment input) := by
  cases h : upsertServiceEnvironment s input with
  | error e => exact isolated_of_error h
  | ok s' =>
    have hok := h
    unfold upsertServiceEnvironment at h
    obtain ⟨service, hservice, h⟩ := bind_ok.1 h
    obtain ⟨_, hproject, h⟩ := bind_ok.1 h
    obtain ⟨entries, hentries, h⟩ := bind_ok.1 h
    obtain rfl := pure_ok.1 h
    have hservice := orThrow_ok.1 hservice
    have hproject : service.projectId = input.projectId := not_not.1 (throwIf_ok.1 hproject)
    have hfresh := hfresh entries hentries
    refine isolated_of_ok hok rfl (fun organizationId hother => ?_) fun _ => ⟨entries, hentries, ?_⟩
    · have howner : s.organizationOf input.projectId ≠ some organizationId := hother
      have hservices := owned_put (t := s.services) ServiceRow.projectId
        { service with content := { service.content with
            environment := (upsertEntries s input service entries).environment
            env := (upsertEntries s input service entries).env } } (hproject ▸ howner)
        fun row hrow hid => by rw [Keyed.eq_of_key hrow (Keyed.get?_eq_some.1 hservice).1 hid]
      have hrows : (upsertEntries s input service entries).rows.select _ = s.environmentVariables.select _ :=
        upsertEntries_rows (q := fun row => s.organizationOf row.projectId = some organizationId)
          (fun _ _ row hrow _ _ => decide_eq_false (by rw [hrow]; exact howner))
          fun entry hentry row hrow hq hid => by
            rw [decide_eq_true_eq, ((hfresh entry hentry).1 row hrow hid).1] at hq
            exact howner hq
      unfold holdings
      rw [← hservices, ← hrows]
      rfl
    · obtain ⟨henvironment, henv⟩ := @upsertEntries_vars input.projectId input.serviceId
        ⟨s.secrets, service.content.environment, service.content.env, s.environmentVariables⟩ entries
        (fun member => member.1 ∉ entries.map EnvEntry.key)
        fun entry hentry _ => decide_eq_false (not_not.2 (List.mem_map_of_mem hentry))
      refine ⟨⟨service, _, hservice, rfl, rfl, henvironment, henv⟩, ?_, fun entry hentry => ?_, rfl⟩
      · refine upsertEntries_rows (fun entry hentry row hrow hrow' hkey => decide_eq_false (not_not.2 ?_))
          fun entry hentry row hrow hq hid => ?_
        · exact ⟨hrow, hrow', hkey ▸ List.mem_map_of_mem hentry⟩
        · obtain ⟨hproject', hservice', hkey⟩ := (hfresh entry hentry).1 row hrow hid
          exact of_decide_eq_true hq ⟨hproject', hservice', hkey ▸ List.mem_map_of_mem hentry⟩
      · obtain ⟨row, hrow, -, hrow'⟩ : HasKey _ _ (upsertEntries s input service entries).rows :=
          upsertEntries_hasKey (hfresh entry hentry).2 (.inr (List.mem_map_of_mem hentry))
        exact ⟨row, hrow, hrow'⟩

theorem isolated_of_fresh (hfresh : request.Fresh checks s) : Isolated checks s request := by
  cases request with
  | organization now input => exact organization_isolated hfresh
  | project input => exact project_isolated input
  | service input => exact service_isolated hfresh
  | resource input => exact resource_isolated hfresh
  | environment input => exact environment_isolated hfresh
  | rollback request => exact rollback_isolated hfresh

/-! ### Runs -/

/-- A request, carried out or refused, whose identifiers belong to no other name. -/
def FreshStep (checks : Checks) (s : Store) (request : Request) (s' : Store) : Prop :=
  request.Fresh checks s ∧ s' = step checks s request

/-- **Tenants stay apart where identifiers do.**  In a run in which no request comes under an identifier of
another name, every request is isolated, and all organizations from before are left with their members. -/
theorem tenants_isolated {requests : List Request} (run : Run (FreshStep checks) s requests s') :
    (∀ before request after, requests = before ++ request :: after →
      ∃ t, Run (FreshStep checks) s before t ∧ Isolated checks t request ∧
        Run (FreshStep checks) (step checks t request) after s') ∧
    ∀ row ∈ s.members.organizations.rows,
      row ∈ s'.members.organizations.rows ∧ membersOf s' row.id = membersOf s row.id := by
  constructor
  · rintro before request after rfl
    obtain ⟨t, _, hbefore, ⟨hfresh, rfl⟩, hafter⟩ := Run.at_label run
    exact ⟨t, hbefore, isolated_of_fresh hfresh, hafter⟩
  · intro row hrow
    induction run with
    | nil => exact ⟨hrow, rfl⟩
    | snoc _ last ih =>
      obtain ⟨hfresh, rfl⟩ := last
      obtain ⟨hthere, hmembers⟩ := (isolated_of_fresh hfresh).organizations row ih.1
      exact ⟨hthere, hmembers.trans ih.2⟩

namespace FrameSample

/-- Everything is acceptable. -/
def lenient : Checks :=
  { service := fun _ _ => .ok ⟨Keyed.empty, Keyed.empty, .null⟩
    requireResourceExecution := fun _ => .ok ()
    resource := fun _ _ _ => .ok ("provisioning", .null)
    nameHash := id }

/-- One user, who may create organizations. -/
def start : Store :=
  { members :=
      { organizations := Keyed.empty
        users := Keyed.empty.put ⟨"u", "u@x.io", true, "APPROVED", false, none⟩
        members := []
        organizationInvites := [] }
    projects := Keyed.empty
    services := Keyed.empty
    resources := Keyed.empty
    deployments := Keyed.empty
    environmentVariables := Keyed.empty
    secrets := Keyed.empty }

def organization (slug : String) : Request := .organization 0 ⟨"u", slug, slug⟩

def project (organizationId name : String) : Request := .project { organizationId, name, now := 0 }

def service (projectId name : String) : Request := .service ⟨projectId, name, .null⟩

def secret (projectId serviceId drawn : String) : Request :=
  .environment ⟨projectId, serviceId, .ok [⟨"TOKEN", "t", true, "****", "api", drawn⟩]⟩

/-- Organizations `a` and `b`, each with a project, a service and a secret. -/
def tenants : List Request :=
  [organization "a", organization "b", project "org-a" "w", project "org-b" "w", service "prj-org-a-w" "s",
    service "prj-org-b-w" "s", secret "prj-org-a-w" "svc-prj-org-a-w-s" "sec_1"]

def shared : Store := tenants.foldl (step lenient) start

/-- Organizations `a` and `a-w` with projects `w` and `x`, and a service `x-s` of the first. -/
def requests : List Request :=
  [organization "a", organization "a-w", project "org-a" "w", project "org-a-w" "x", service "prj-org-a-w" "x-s"]

def reached : Store := requests.foldl (step lenient) start

theorem secret_fresh {s : Store} {projectId serviceId : String} (drawn : String)
    (h : ∀ row ∈ s.environmentVariables.rows, row.id = variableId serviceId "TOKEN" →
      row.projectId = projectId ∧ row.serviceId = serviceId ∧ row.key = "TOKEN") :
    (secret projectId serviceId drawn).Fresh lenient s := by
  intro entries hentries entry hentry
  obtain rfl := Except.ok.inj hentries
  obtain rfl := List.mem_singleton.1 hentry
  exact ⟨h, fun other hother _ => by rw [List.mem_singleton.1 hother]⟩

theorem fresh_run {s : Store} {request : Request} (h : request.Fresh lenient s) :
    Run (FreshStep lenient) s [request] (step lenient s request) := .single ⟨h, rfl⟩

theorem tenants_run : Run (FreshStep lenient) start tenants shared :=
  (fresh_run (by simp only [Request.Fresh, organization]; decide +kernel)).append <|
  (fresh_run (by simp only [Request.Fresh, organization]; decide +kernel)).append <|
  (fresh_run (by exact trivial)).append <| (fresh_run (by exact trivial)).append <|
  (fresh_run (by simp only [Request.Fresh, service]; decide +kernel)).append <|
  (fresh_run (by simp only [Request.Fresh, service]; decide +kernel)).append <|
  fresh_run (secret_fresh _ (by decide +kernel))

theorem other_secret_fresh : (secret "prj-org-b-w" "svc-prj-org-b-w-s" "sec_2").Fresh lenient shared :=
  secret_fresh _ (by decide +kernel)

end FrameSample

open FrameSample in
theorem tenants_isolated_sample : ∃ t, Run (FreshStep lenient) start tenants t ∧
    Isolated lenient t (secret "prj-org-b-w" "svc-prj-org-b-w-s" "sec_2") := by
  have run := tenants_run.append (fresh_run other_secret_fresh)
  obtain ⟨t, hbefore, hisolated, -⟩ := (tenants_isolated run).1 tenants _ [] rfl
  exact ⟨t, hbefore, hisolated⟩

open FrameSample in
/-- The service `s` of `a-w` takes the place of `x-s` of `a`: both are `svc-prj-org-a-w-x-s`. -/
theorem service_overwritten : ¬ Isolated lenient reached (service "prj-org-a-w-x" "s") := by
  intro h
  have hkept := congrArg (fun rows => rows.services.map ServiceRow.name) (h.bystanders "org-a" (by decide +kernel))
  exact absurd hkept (by decide +kernel)

end RaibitServer.Tenants
