import RaibitServer.Core.Ids
import RaibitServer.Preview.Lineage

/-!
# Preview.Address — the preview address a project is told

`domainPlanForProject` of `domain-router.ts` publishes for every service the pattern of its preview
hosts, made from the slugs of the organization and the project and the name of the service.  The host
of a lineage is made once by `transitionPreviewLineage`, from the three ids.  Both put a bounded route
label behind `preview--pr-<number>--`, so they agree exactly if the two route labels do
(`preview_pattern_iff`).
-/

namespace RaibitServer.Preview

open Lib Core

/-! ### The plan of a project -/

/-- An organization or a project, as far as routes read it. -/
structure RouteOwner where
  slug : Option String := none
  name : Option String := none

structure PlannedService where
  name : Option String := none
  type : Option String := none
  domain : Option String := none

structure PlannedResource where
  name : Option String := none
  engine : String

structure ProjectSpec where
  organization : Option RouteOwner := none
  organizationSlug : Option String := none
  project : Option RouteOwner := none
  name : Option String := none
  slug : Option String := none
  baseDomain : Option String := none
  services : List PlannedService := []
  resources : List PlannedResource := []

def serviceConsoleHostname (sha256 : Label.Hash) (organizationSlug projectSlug serviceName baseDomain : String) :
    String :=
  zonedRouteLabel sha256 "console" (tenantRouteIdentity organizationSlug projectSlug ++ "-" ++
    normalizeRoutePart serviceName) ++ "." ++ baseDomain

def resourceConsoleHostname (sha256 : Label.Hash)
    (organizationSlug projectSlug resourceName baseDomain : String) : String :=
  zonedRouteLabel sha256 "resources" (tenantRouteIdentity organizationSlug projectSlug ++ "-" ++
    normalizeRoutePart resourceName) ++ "." ++ baseDomain

def projectConsoleHostname (sha256 : Label.Hash) (organizationSlug projectSlug baseDomain : String) : String :=
  zonedRouteLabel sha256 "console" (tenantRouteIdentity organizationSlug projectSlug) ++ "." ++ baseDomain

def workspaceConsoleHostname (sha256 : Label.Hash) (organizationSlug baseDomain : String) : String :=
  zonedRouteLabel sha256 "console" (normalizeRoutePart organizationSlug) ++ "." ++ baseDomain

def internalServiceHostname (projectSlug serviceName : String) : String :=
  slugify serviceName "item" ++ "." ++ slugify projectSlug "item" ++ ".svc.cluster.local"

/-- `!service.type || String(service.type).toLowerCase() === 'web'`. -/
def isPublicWebService (service : PlannedService) : Bool :=
  !Text.truthy service.type || Text.jsLower (service.type.getD "") = "web"

def previewHostnamePattern (sha256 : Label.Hash) (organizationSlug projectSlug serviceName : String)
    (publicService : Bool) (baseDomain : String) : String :=
  let identity := if publicService then serviceRouteIdentity organizationSlug projectSlug serviceName
    else tenantRouteIdentity organizationSlug projectSlug
  "preview--pr-\x7bnumber\x7d--" ++
    boundedDnsLabel sha256 identity maxPreviewRouteIdentityLength none ++ "." ++ baseDomain

structure ServicePlan where
  name : String
  type : String
  publicHostname : Option String
  previewPattern : String
  consoleHostname : String
  internalHostname : String
  deriving DecidableEq

structure ResourcePlan where
  name : String
  engine : String
  consoleHostname : String
  internalHostname : String
  deriving DecidableEq

structure DomainPlan where
  baseDomain : String
  zones : List (String × String)
  platform : List (String × String)
  workspace : String
  project : String
  services : List ServicePlan
  resources : List ResourcePlan
  wildcardTls : List String

def subdomainZones : List (String × String) :=
  [("DASHBOARD", "app"), ("API", "api"), ("ADMIN", "admin"), ("APPS", "apps"), ("PREVIEW", "preview"),
    ("CONSOLE", "console"), ("RESOURCES", "resources"), ("LOGS", "logs"), ("METRICS", "metrics")]

/-- `organization.slug || organization.name || 'org'`; without an organization, its slug in the spec. -/
def ProjectSpec.organizationRouteSlug (spec : ProjectSpec) : String :=
  let organization := spec.organization.getD { slug := some (firstTruthy [spec.organizationSlug] "default") }
  firstTruthy [organization.slug, organization.name] "org"

def ProjectSpec.projectRouteSlug (spec : ProjectSpec) : String :=
  let project := spec.project.getD
    { name := some (firstTruthy [spec.name] "project"), slug := some (firstTruthy [spec.slug, spec.name] "project") }
  firstTruthy [project.slug, project.name] "project"

def ProjectSpec.planDomain (spec : ProjectSpec) : String := firstTruthy [spec.baseDomain] defaultDomain

def ProjectSpec.servicePlan (sha256 : Label.Hash) (spec : ProjectSpec) (service : PlannedService) : ServicePlan :=
  let organizationSlug := spec.organizationRouteSlug
  let projectSlug := spec.projectRouteSlug
  let baseDomain := spec.planDomain
  { name := slugify (service.name.getD "") "item"
    type := firstTruthy [service.type] "web"
    publicHostname :=
      if service.type = some "web" ∨ Text.truthy service.type = false then
        some (firstTruthy [service.domain]
          (serviceHostname sha256 organizationSlug projectSlug (service.name.getD "web") baseDomain none))
      else none
    previewPattern := previewHostnamePattern sha256 organizationSlug projectSlug (service.name.getD "")
      (isPublicWebService service) baseDomain
    consoleHostname := serviceConsoleHostname sha256 organizationSlug projectSlug
      (service.name.getD "service") baseDomain
    internalHostname := internalServiceHostname (slugify projectSlug "item") (service.name.getD "service") }

def ProjectSpec.resourcePlan (sha256 : Label.Hash) (spec : ProjectSpec) (resource : PlannedResource) :
    ResourcePlan :=
  { name := slugify (resource.name.getD "") "item"
    engine := resource.engine
    consoleHostname := resourceConsoleHostname sha256 spec.organizationRouteSlug spec.projectRouteSlug
      (resource.name.getD "resource") spec.planDomain
    internalHostname := slugify (resource.name.getD "") "item" ++ "." ++ slugify spec.projectRouteSlug "item" ++
      ".svc.cluster.local" }

def domainPlanForProject (sha256 : Label.Hash) (spec : ProjectSpec) : DomainPlan :=
  let baseDomain := spec.planDomain
  { baseDomain
    zones := subdomainZones
    platform := [("dashboard", "app." ++ baseDomain), ("api", "api." ++ baseDomain),
      ("admin", "admin." ++ baseDomain), ("logs", "logs." ++ baseDomain), ("metrics", "metrics." ++ baseDomain)]
    workspace := workspaceConsoleHostname sha256 spec.organizationRouteSlug baseDomain
    project := projectConsoleHostname sha256 spec.organizationRouteSlug spec.projectRouteSlug baseDomain
    services := spec.services.map (spec.servicePlan sha256)
    resources := spec.resources.map (spec.resourcePlan sha256)
    wildcardTls := ["*." ++ baseDomain] }

/-! ### The two addresses -/

/-- The placeholder of a pattern, the first one only, replaced by a number. -/
def fillNumber (number : Nat) : List Char → List Char
  | [] => []
  | c :: s =>
    if "\x7bnumber\x7d".toList.isPrefixOf (c :: s) then (toString number).toList ++ (c :: s).drop 8
    else c :: fillNumber number s

theorem fillNumber_pattern (number : Nat) (s : List Char) :
    fillNumber number ("preview--pr-\x7bnumber\x7d--".toList ++ s) =
      "preview--pr-".toList ++ (toString number).toList ++ ("--".toList ++ s) := by
  rfl

/-- A preview key is a label, so the route keeps it. -/
theorem normalizeRoutePart_previewKey (number : Nat) :
    normalizeRoutePart (previewKey number) = previewKey number := by
  have hdigits : ∀ c ∈ Nat.toDigits 10 number, c.isDigit = true := fun c hc =>
    Nat.isDigit_of_mem_toDigits (by decide) (by decide) hc
  have hchars : ∀ c ∈ Nat.toDigits 10 number, Label.labelChar c = true ∧ Label.isDash c = false := by
    intro c hc
    have hdigit := hdigits c hc
    have hlabel : Label.labelChar c = true := by simp [Label.labelChar, Text.lowerAlnum, hdigit]
    refine ⟨hlabel, ?_⟩
    unfold Label.isDash
    refine decide_eq_false fun hdash => ?_
    rw [hdash] at hdigit
    exact absurd hdigit (by decide)
  have htext : (previewKey number).toList = ['p', 'r', '-'] ++ Nat.toDigits 10 number := by
    have hnumber : (toString number).toList = Nat.toDigits 10 number := String.toList_ofList
    unfold previewKey
    rw [String.toList_append, hnumber]
    rfl
  have hne : Nat.toDigits 10 number ≠ [] := Nat.toDigits_ne_nil
  refine normalizeRoutePart_of_isLabel ?_
  rw [htext]
  refine ⟨?_, ⟨'p', 'r' :: '-' :: Nat.toDigits 10 number, rfl, by decide⟩, ?_⟩
  · intro c hc
    rcases List.mem_append.1 hc with hc | hc
    · exact List.all_eq_true.1 (by decide : ['p', 'r', '-'].all Label.labelChar = true) c hc
    · exact (hchars c hc).1
  · refine ⟨['p', 'r', '-'] ++ (Nat.toDigits 10 number).dropLast, (Nat.toDigits 10 number).getLast hne, ?_,
      (hchars _ (List.getLast_mem hne)).2⟩
    rw [List.append_assoc, List.dropLast_append_getLast hne]

/-- Two route identities that the bound of 39 characters makes one label: both are short and equal;
both are cut, with the same kept part and the same digits; or one is cut and the other happens to be
spelled like the cut one. -/
def SameRouteLabel (sha256 : Label.Hash) (a b : String) : Prop :=
  (a.toList.length ≤ 39 ∧ b.toList.length ≤ 39 ∧ a = b) ∨
  (39 < a.toList.length ∧ 39 < b.toList.length ∧ Label.keep 39 12 a.toList = Label.keep 39 12 b.toList ∧
    sha256.short a = sha256.short b) ∨
  (a.toList.length ≤ 39 ∧ 39 < b.toList.length ∧
    a.toList = Label.keep 39 12 b.toList ++ '-' :: sha256.short b) ∨
  (39 < a.toList.length ∧ b.toList.length ≤ 39 ∧
    b.toList = Label.keep 39 12 a.toList ++ '-' :: sha256.short a)

theorem serviceRouteIdentity_isLabel (organizationSlug projectSlug serviceName : String) :
    Label.IsLabel (serviceRouteIdentity organizationSlug projectSlug serviceName).toList := by
  have htenant := tenantRouteIdentity_isLabel organizationSlug projectSlug
  unfold serviceRouteIdentity
  dsimp only
  split_ifs with hweb
  · exact htenant
  · rw [String.toList_append, String.toList_append]
    exact htenant.join (normalizeRoutePart_isLabel _) (List.all_eq_true.1 (by decide))

theorem routeLabel_eq_iff (sha256 : Label.Hash) {a b : String} (ha : Label.IsLabel a.toList)
    (hb : Label.IsLabel b.toList) :
    boundedDnsLabel sha256 a maxPreviewRouteIdentityLength none =
      boundedDnsLabel sha256 b maxPreviewRouteIdentityLength none ↔ SameRouteLabel sha256 a b := by
  have hdigits : ∀ text, (sha256.short text).length = 12 := sha256.short_length
  rw [← String.toList_inj, boundedDnsLabel_eq (by decide), boundedDnsLabel_eq (by decide),
    normalizeRoutePart_of_isLabel ha, normalizeRoutePart_of_isLabel hb, labelIdentity_none, labelIdentity_none,
    Label.bound_eq_iff (by rw [hdigits, hdigits]), hdigits, hdigits, String.toList_inj]
  rfl

/-- The route identity of a lineage: ids only. -/
def lineageRouteIdentity (identity : PreviewIdentity) : String :=
  serviceRouteIdentity (Text.jsOr identity.organizationId "org") (Text.jsOr identity.projectId "project")
    (Text.jsOr identity.serviceId "service")

/-- The host of a new lineage. -/
theorem new_stableHost (sha256 : Label.Hash) (event : PreviewWebhook) (identity : PreviewIdentity) (id : String) :
    (transitionPreviewLineage sha256 none event identity id).lineage.stableHost =
      "preview--" ++ previewKey event.pullRequestNumber ++ "--" ++
        boundedDnsLabel sha256 (lineageRouteIdentity identity) maxPreviewRouteIdentityLength none ++ "." ++
        firstTruthy [identity.baseDomain] defaultDomain := by
  simp only [transitionPreviewLineage, advance, nextLineage, previewPlanOf, Option.map_none, Option.getD_none]
  unfold previewIdentity lineageInput serviceHostname previewRouteLabel lineageRouteIdentity
  dsimp only
  simp only [firstTruthy_none, firstTruthy_some, firstTruthy_append_none, normalizeRoutePart_previewKey]

/-- **The advertised and the actual address of a preview agree exactly for the same route label**: the
one is made from the slugs and the name, the other from the ids. -/
theorem preview_pattern_iff {sha256 : Label.Hash} {spec : ProjectSpec} {service : PlannedService}
    (hservice : service ∈ spec.services) (hpublic : isPublicWebService service = true)
    {event : PreviewWebhook} {identity : PreviewIdentity} (hdomain : identity.baseDomain = spec.baseDomain)
    {id : String} :
    spec.servicePlan sha256 service ∈ (domainPlanForProject sha256 spec).services ∧
    (String.ofList (fillNumber event.pullRequestNumber (spec.servicePlan sha256 service).previewPattern.toList) =
      (transitionPreviewLineage sha256 none event identity id).lineage.stableHost ↔
    SameRouteLabel sha256
      (serviceRouteIdentity spec.organizationRouteSlug spec.projectRouteSlug (service.name.getD ""))
      (lineageRouteIdentity identity)) := by
  refine ⟨List.mem_map_of_mem hservice, ?_⟩
  have hpattern : (spec.servicePlan sha256 service).previewPattern =
      "preview--pr-\x7bnumber\x7d--" ++ boundedDnsLabel sha256
        (serviceRouteIdentity spec.organizationRouteSlug spec.projectRouteSlug (service.name.getD ""))
        maxPreviewRouteIdentityLength none ++ "." ++ spec.planDomain := by
    unfold ProjectSpec.servicePlan previewHostnamePattern
    dsimp only
    rw [hpublic, if_pos rfl]
  have hlabels := routeLabel_eq_iff sha256
    (serviceRouteIdentity_isLabel spec.organizationRouteSlug spec.projectRouteSlug (service.name.getD ""))
    (b := lineageRouteIdentity identity) (serviceRouteIdentity_isLabel _ _ _)
  rw [hpattern, new_stableHost, hdomain, ← hlabels, ← String.toList_inj]
  simp only [String.toList_append, String.toList_ofList, List.append_assoc, fillNumber_pattern]
  unfold previewKey ProjectSpec.planDomain
  simp [← String.toList_inj, String.toList_append]

namespace Advertised

def spec (organization project service : String) : ProjectSpec :=
  { organization := some { slug := some organization }, project := some { slug := some project }
    services := [{ name := some service, type := some "web" }] }

def identity : PreviewIdentity :=
  { organizationId := "org_1", projectId := "prj_1", serviceId := "svc_1", integrationId := "int_1" }

end Advertised

open Advertised in
open Sample (sha256 opened) in
/-- Where slugs and name are spelled like the ids, the address is the advertised one. -/
theorem preview_pattern_iff_plain :
    String.ofList (fillNumber opened.pullRequestNumber
      ((spec "org-1" "prj-1" "svc-1").servicePlan sha256
        { name := some "svc-1", type := some "web" }).previewPattern.toList) =
      (transitionPreviewLineage sha256 none opened identity "lin_1").lineage.stableHost :=
  (@preview_pattern_iff _ (spec "org-1" "prj-1" "svc-1") _ List.mem_cons_self (by decide) _ _ rfl _).2.2
    (.inl ⟨by decide +kernel, by decide +kernel, by decide +kernel⟩)

open Advertised in
open Sample (sha256 opened) in
/-- **A preview elsewhere than advertised**: the project with the slugs `acme` and `shop` is told
`preview--pr-7--acme--shop`, the lineage is served at `preview--pr-7--org-1--prj-1--svc-1`. -/
theorem preview_pattern_differs :
    (domainPlanForProject sha256 (spec "acme" "shop" "web")).services.map (fun plan =>
        String.ofList (fillNumber opened.pullRequestNumber plan.previewPattern.toList)) =
      ["preview--pr-7--acme--shop.raibitserver.app"] ∧
    (transitionPreviewLineage sha256 none opened identity "lin_1").lineage.stableHost =
      "preview--pr-7--org-1--prj-1--svc-1.raibitserver.app" := by
  constructor
  · decide +kernel
  · decide +kernel

end RaibitServer.Preview
