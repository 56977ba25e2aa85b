import RaibitServer.Domains.Record
import RaibitServer.Lib.Keyed

/-!
# Domains.Registry — registering a hostname

`createCustomDomain` of the memory store (`store.ts`) and of the Prisma repository (`persistence.ts`).
Both compute the id of a domain from its hostname with `stableId`, which maps different hostnames to one
id: a dot and a dash become the same dash, and everything behind 63 characters is cut.  The memory store
then replaces the other domain; the table refuses the row with its primary key, which is reported as a
conflict of hostnames.
-/

namespace RaibitServer.Domains

open Lib Core

structure ProjectRow where
  id : String
  organizationId : String
  deriving DecidableEq

structure ServiceRow where
  id : String
  projectId : String
  type : String
  deriving DecidableEq

structure CreateInput where
  organizationId : String
  projectId : String
  serviceId : String
  hostname : String
  platformZones : Option (List String) := none
  actorUserId : String
  now : Int
  /-- Drawn by `crypto.randomBytes`. -/
  challengeToken : String

def hostnameConflict : DomainLifecycleError := ⟨"DOMAIN_HOSTNAME_CONFLICT", 409⟩

/-- The project and the service that a call names, and the checks on them: the same in both stores. -/
def scope (projects : List ProjectRow) (services : List ServiceRow) (input : CreateInput) :
    Except DomainLifecycleError (ProjectRow × ServiceRow) := do
  let project ← orThrow (projects.find? fun p => p.id = input.projectId) ⟨"DOMAIN_SCOPE_NOT_FOUND", 404⟩
  let service ← orThrow (services.find? fun s => s.id = input.serviceId) ⟨"DOMAIN_SCOPE_NOT_FOUND", 404⟩
  throwIf (project.organizationId ≠ input.organizationId ∨ service.projectId ≠ project.id)
    ⟨"DOMAIN_SCOPE_NOT_FOUND", 404⟩
  throwIf (Text.jsLower service.type ≠ "web") ⟨"DOMAIN_SERVICE_NOT_PUBLIC_WEB", 400⟩
  return (project, service)

@[irreducible] def domainId (hostname : String) : String := stableId "dom" [hostname]

theorem domainId_eq (hostname : String) : domainId hostname = stableId "dom" [hostname] := by
  delta domainId
  exact Eq.refl _

def issued (sha256 : Label.Hash) (input : CreateInput) (project : ProjectRow) (service : ServiceRow)
    (hostname : String) : CustomDomainRecord :=
  issueCustomDomain sha256
    { id := domainId hostname, organizationId := project.organizationId, projectId := project.id
      serviceId := service.id, hostname, actorUserId := input.actorUserId } input.challengeToken input.now

/-! ### The memory store -/

/-- A row of `domains`: a custom domain, or one of `attachDomain`. -/
inductive StoredDomain
  | custom (record : CustomDomainRecord)
  | attached (id projectId serviceId domain : String) (verified : Bool) (tlsStatus : String)
  deriving DecidableEq

def StoredDomain.id : StoredDomain → String
  | .custom record => record.id
  | .attached id .. => id

/-- `String(domain.hostname || domain.domain).toLowerCase()`. -/
def StoredDomain.name : StoredDomain → String
  | .custom record => Text.jsLower record.hostname
  | .attached _ _ _ domain _ _ => Text.jsLower domain

structure MemoryStore where
  projects : List ProjectRow
  services : List ServiceRow
  domains : Keyed StoredDomain.id

def MemoryStore.registered (s : MemoryStore) (hostname : String) : Bool :=
  s.domains.rows.any fun row => row.name = hostname

def MemoryStore.createCustomDomain (runtime : Runtime) (sha256 : Label.Hash) (s : MemoryStore) (input : CreateInput) :
    Except DomainLifecycleError (MemoryStore × CustomDomainRecord) := do
  let (project, service) ← scope s.projects s.services input
  let hostname ← normalizeCustomHostname runtime input.hostname input.platformZones
  throwIf (s.registered hostname = true) hostnameConflict
  let domain := issued sha256 input project service hostname
  return ({ s with domains := s.domains.put (.custom domain) }, domain)

/-! ### The table -/

structure Database where
  projects : List ProjectRow
  services : List ServiceRow
  domains : Keyed CustomDomainRecord.id
  /-- Hostnames of rented domains; a trigger keeps them apart from those of the table. -/
  rentals : List String

def Database.registered (db : Database) (hostname : String) : Bool :=
  db.domains.rows.any (fun row => row.hostname = hostname) || db.rentals.contains (Text.lower hostname)

/-- `tx.domain.create`: `none` is a unique constraint, of the primary key or of the hostname. -/
def Database.insertDomain (db : Database) (domain : CustomDomainRecord) : Option Database :=
  if db.registered domain.hostname then none
  else (db.domains.insert? domain).map fun domains => { db with domains }

def Database.createCustomDomain (runtime : Runtime) (sha256 : Label.Hash) (db : Database) (input : CreateInput) :
    Except DomainLifecycleError (Database × CustomDomainRecord) := do
  let (project, service) ← scope db.projects db.services input
  let hostname ← normalizeCustomHostname runtime input.hostname input.platformZones
  let domain := issued sha256 input project service hostname
  let db' ← orThrow (db.insertDomain domain) hostnameConflict
  return (db', domain)

/-! ### What a registration touches -/

/-- A domain with the hostname is new, and every domain that was there is still found under its id. -/
structure Added {α : Type} (custom : CustomDomainRecord → α) (get get' : String → Option α) (hostname : String)
    (domain : CustomDomainRecord) : Prop where
  hostname : domain.hostname = hostname
  fresh : get domain.id = none
  stored : get' domain.id = some (custom domain)
  kept : ∀ id row, get id = some row → get' id = some row

/-- A free hostname is registered and nothing else is touched, and only a taken one is a conflict. -/
structure OnlyThatHostname {S α : Type} (custom : CustomDomainRecord → α) (get : S → String → Option α)
    (registered : S → String → Bool) (s : S) (hostname : String)
    (result : Except DomainLifecycleError (S × CustomDomainRecord)) : Prop where
  free : registered s hostname = false → ∃ s' domain, result = .ok (s', domain) ∧
    Added custom (get s) (get s') hostname domain
  conflict : result = .error hostnameConflict ↔ registered s hostname = true

section Outcome

variable {S α : Type} {custom : CustomDomainRecord → α} {get : S → String → Option α} {registered : S → String → Bool}
  {s s' : S} {hostname : String} {domain : CustomDomainRecord}
  {result : Except DomainLifecycleError (S × CustomDomainRecord)}

theorem OnlyThatHostname.taken (hregistered : registered s hostname = true) (hresult : result = .error hostnameConflict) :
    OnlyThatHostname custom get registered s hostname result where
  free hfree := by
    rw [hregistered] at hfree
    cases hfree
  conflict := iff_of_true hresult hregistered

/-- A call that writes its domain under an id touches nothing else exactly if the id was free. -/
theorem onlyThatHostname_iff (hregistered : ¬ registered s hostname = true) (hresult : result = .ok (s', domain))
    (hname : domain.hostname = hostname)
    (hget : ∀ id, get s' id = if domain.id = id then some (custom domain) else get s id) :
    OnlyThatHostname custom get registered s hostname result ↔ get s domain.id = none := by
  constructor
  · intro h
    obtain ⟨s', domain', hok, hadded⟩ := h.free (eq_false_of_ne_true hregistered)
    rw [hresult] at hok
    obtain ⟨-, rfl⟩ := Prod.mk.inj (Except.ok.inj hok)
    exact hadded.fresh
  · intro hfresh
    refine ⟨fun _ => ⟨s', domain, hresult, hname, hfresh, (hget _).trans (if_pos rfl), fun id row hrow => ?_⟩, ?_⟩
    · rw [hget, if_neg, hrow]
      rintro rfl
      exact absurd (hfresh.symm.trans hrow) (by simp)
    · rw [hresult]
      exact iff_of_false (fun hconflict => by cases hconflict) hregistered

end Outcome

section Registration

variable {runtime : Runtime} {sha256 : Label.Hash} {input : CreateInput} {project : ProjectRow}
  {service : ServiceRow} {hostname : String}

theorem memory_registration {s : MemoryStore} (hscope : scope s.projects s.services input = .ok (project, service))
    (hhostname : normalizeCustomHostname runtime input.hostname input.platformZones = .ok hostname) :
    OnlyThatHostname .custom (fun s : MemoryStore => s.domains.get?) MemoryStore.registered s hostname
        (s.createCustomDomain runtime sha256 input) ↔
      s.registered hostname = true ∨ s.domains.get? (domainId hostname) = none := by
  set domain := issued sha256 input project service hostname with hdomain
  have hresult : s.createCustomDomain runtime sha256 input = if s.registered hostname then .error hostnameConflict
      else .ok ({ s with domains := s.domains.put (.custom domain) }, domain) := by
    simp only [MemoryStore.createCustomDomain, hscope, hhostname, throwIf, bind, Except.bind, pure, Except.pure]
    split_ifs <;> rfl
  by_cases hregistered : s.registered hostname = true
  · rw [if_pos hregistered] at hresult
    exact iff_of_true (.taken hregistered hresult) (.inl hregistered)
  · rw [if_neg hregistered] at hresult
    rw [or_iff_right hregistered]
    exact onlyThatHostname_iff hregistered hresult rfl fun id => Keyed.get?_put

theorem prisma_registration {db : Database} (hscope : scope db.projects db.services input = .ok (project, service))
    (hhostname : normalizeCustomHostname runtime input.hostname input.platformZones = .ok hostname) :
    OnlyThatHostname id (fun db : Database => db.domains.get?) Database.registered db hostname
        (db.createCustomDomain runtime sha256 input) ↔
      db.registered hostname = true ∨ db.domains.get? (domainId hostname) = none := by
  set domain := issued sha256 input project service hostname with hdomain
  have hresult : db.createCustomDomain runtime sha256 input =
      (orThrow (if db.registered hostname then none else (db.domains.insert? domain).map fun domains =>
        { db with domains }) hostnameConflict).map (·, domain) := by
    simp only [Database.createCustomDomain, hscope, hhostname, bind, Except.bind]
    rfl
  by_cases hregistered : db.registered hostname = true
  · rw [if_pos hregistered] at hresult
    exact iff_of_true (.taken hregistered hresult) (.inl hregistered)
  rw [if_neg hregistered] at hresult
  rw [or_iff_right hregistered]
  cases hinsert : db.domains.insert? domain with
  | none =>
    -- The primary key is taken by another hostname: the call fails although this one is free.
    rw [hinsert] at hresult
    refine iff_of_false ?_ ?_
    · intro h
      obtain ⟨s', domain', hok, -⟩ := h.free (eq_false_of_ne_true hregistered)
      rw [hresult] at hok
      cases hok
    · intro hfresh
      obtain ⟨domains, hsome⟩ := Keyed.insert?_fresh (a := domain) (Keyed.get?_eq_none.1 hfresh)
      rw [hinsert] at hsome
      cases hsome
  | some domains =>
    rw [hinsert] at hresult
    exact onlyThatHostname_iff hregistered hresult rfl (Keyed.get?_insert? hinsert)

/-- **Registering a hostname affects only that hostname exactly if its id is free**, in either store. -/
theorem registration_iff {s : MemoryStore} {db : Database}
    (hmemory : scope s.projects s.services input = .ok (project, service))
    (hprisma : scope db.projects db.services input = .ok (project, service))
    (hhostname : normalizeCustomHostname runtime input.hostname input.platformZones = .ok hostname) :
    (OnlyThatHostname .custom (fun s : MemoryStore => s.domains.get?) MemoryStore.registered s hostname
        (s.createCustomDomain runtime sha256 input) ↔
      s.registered hostname = true ∨ s.domains.get? (stableId "dom" [hostname]) = none) ∧
    (OnlyThatHostname id (fun db : Database => db.domains.get?) Database.registered db hostname
        (db.createCustomDomain runtime sha256 input) ↔
      db.registered hostname = true ∨ db.domains.get? (stableId "dom" [hostname]) = none) := by
  rw [← domainId_eq]
  exact ⟨memory_registration hmemory hhostname, prisma_registration hprisma hhostname⟩

end Registration

namespace Registered

def sha256 : Label.Hash := .repeated fun _ => 0

def runtime : Runtime := ⟨fun _ => false, fun s => s⟩

def projects : List ProjectRow := [⟨"prj_1", "org_1"⟩, ⟨"prj_2", "org_2"⟩]

def services : List ServiceRow := [⟨"svc_1", "prj_1", "web"⟩, ⟨"svc_2", "prj_2", "web"⟩]

/-- The domain of the first organization. -/
def dotted : CustomDomainRecord :=
  issued sha256 ⟨"org_1", "prj_1", "svc_1", "a.b.example.com", none, "usr_1", 0, "token"⟩ ⟨"prj_1", "org_1"⟩
    ⟨"svc_1", "prj_1", "web"⟩ "a.b.example.com"

def memory : MemoryStore := ⟨projects, services, ⟨[.custom dotted], List.nodup_singleton _⟩⟩

def table : Database := ⟨projects, services, ⟨[dotted], List.nodup_singleton _⟩, []⟩

/-- A call of the second organization. -/
def call (hostname : String) : CreateInput := ⟨"org_2", "prj_2", "svc_2", hostname, none, "usr_2", 0, "token"⟩

end Registered

open Registered in
/-- A hostname with an id of its own. -/
theorem registration_iff_applied :
    OnlyThatHostname .custom (fun s : MemoryStore => s.domains.get?) MemoryStore.registered memory
        "c.example.com" (memory.createCustomDomain runtime sha256 (call "c.example.com")) ∧
    OnlyThatHostname id (fun db : Database => db.domains.get?) Database.registered table
        "c.example.com" (table.createCustomDomain runtime sha256 (call "c.example.com")) := by
  have h := @registration_iff runtime sha256 (call "c.example.com") ⟨"prj_2", "org_2"⟩
    ⟨"svc_2", "prj_2", "web"⟩ "c.example.com" memory table (by decide +kernel) (by decide +kernel) (by decide +kernel)
  exact ⟨h.1.2 (.inr (by decide +kernel)), h.2.2 (.inr (by decide +kernel))⟩

open Registered in
/-- **A hostname that another tenant's id stands in the way of**: `a-b.example.com` is not registered, but
has the id of `a.b.example.com`.  The memory store replaces that domain; the table reports a conflict. -/
theorem hostname_collides :
    memory.registered "a-b.example.com" = false ∧
    (memory.createCustomDomain runtime sha256 (call "a-b.example.com")).toOption.map
        (fun r => (r.1.domains.get? dotted.id).map StoredDomain.name) = some (some "a-b.example.com") ∧
    table.registered "a-b.example.com" = false ∧
    (table.createCustomDomain runtime sha256 (call "a-b.example.com")).toOption.isNone = true := by
  refine ⟨?_, ?_, ?_, ?_⟩ <;> decide +kernel

end RaibitServer.Domains
