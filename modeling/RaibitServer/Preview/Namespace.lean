import RaibitServer.Orchestrator.Spec
import RaibitServer.Preview.Lineage

/-!
# Preview.Namespace — where a preview is placed

The control plane chooses the namespace of a lineage once, from the ids of the organization and the
project; the orchestrator chooses the namespace of production from the organization id and the slug
of the project (its name or its id where it has none), and only a production plan creates the
namespace.  Both go through a bounded label, so they are one exactly if the two tenant labels are, up
to what is cut from labels that are too long (`lineage_namespace_iff`).
-/

namespace RaibitServer.Preview

open Lib Core Orchestrator

/-! ### The two labels -/

/-- The tenant label of a lineage: ids only. -/
def previewTenant (project : Project) : String :=
  Core.tenantRouteIdentity (Text.jsOr project.organizationID "org") (Text.jsOr project.id "project")

/-- The tenant label of production. -/
def productionTenant (project : Project) : String :=
  organizationNamespaceID project ++ "--" ++ projectNamespaceSlug project

/-- `organizationNamespaceIdentity` and the project id, where it has one. -/
def previewStableIdentity (project : Project) : Option String :=
  if project.id = "" then none
  else some (Text.jsOr project.organizationID "org" ++ "\x00" ++ project.id)

/-- What the lineage's label hashes when it is cut. -/
def previewHashed (project : Project) : String :=
  labelIdentity (previewStableIdentity project) (previewTenant project)

def productionHashed (project : Project) : String := project.organizationID ++ "\x00" ++ project.id

/-- The two labels name one namespace: both are short and equal; both are cut, with the same kept part
and the same digits; or one is cut and the other happens to be spelled like the cut one. -/
def SameTenant (sha256 : Label.Hash) (project : Project) : Prop :=
  let preview := (previewTenant project).toList
  let production := (productionTenant project).toList
  let previewDigits := sha256.short (previewHashed project)
  let productionDigits := sha256.short (productionHashed project)
  (preview.length ≤ 63 ∧ production.length ≤ 63 ∧ preview = production) ∨
  (63 < preview.length ∧ 63 < production.length ∧
    Label.keep 63 12 preview = Label.keep 63 12 production ∧ previewDigits = productionDigits) ∨
  (preview.length ≤ 63 ∧ 63 < production.length ∧
    preview = Label.keep 63 12 production ++ '-' :: productionDigits) ∨
  (63 < preview.length ∧ production.length ≤ 63 ∧
    production = Label.keep 63 12 preview ++ '-' :: previewDigits)

/-! ### What the code computes -/

/-- A text with a character that is no blank is not blank. -/
theorem trimSpace_ne_empty {s : String} {c : Char} (hc : c ∈ s.toList) (hblank : Text.isGoSpace c = false) :
    Text.trimSpace s ≠ "" := by
  intro h
  have hnil : ((s.toList.dropWhile Text.isGoSpace).reverse.dropWhile Text.isGoSpace).reverse = [] := by
    have htoList := congrArg String.toList h
    simpa [Text.trimSpace, Text.trimBy] using htoList
  have hdrop : s.toList.dropWhile Text.isGoSpace = [] := by
    by_contra hne
    have hlast := List.rdropWhile_eq_nil_iff.1 hnil _ (List.head_mem hne)
    simp [List.head_dropWhile_not Text.isGoSpace hne] at hlast
  have hall := List.dropWhile_eq_nil_iff.1 hdrop c hc
  simp [hblank] at hall

theorem firstNonEmpty_hashed (project : Project) (label : String) :
    firstNonEmpty [productionHashed project, label] = productionHashed project := by
  have hmem : Char.ofNat 0 ∈ (productionHashed project).toList := by
    unfold productionHashed
    rw [String.toList_append, String.toList_append]
    simp
  unfold firstNonEmpty
  rw [List.find?_cons_of_pos (by simpa using trimSpace_ne_empty hmem (by decide))]
  rfl

theorem tenantLabel_eq (sha256 : Label.Hash) (project : Project) :
    (tenantLabel sha256 project).toList =
      Label.bound 63 (sha256.short (productionHashed project)) (productionTenant project).toList := by
  have hlabel : Label.IsLabel (productionTenant project).toList := by
    unfold productionTenant
    rw [String.toList_append, String.toList_append]
    exact (normalizeDNSName_isLabel _).join (normalizeDNSName_isLabel _) (List.all_eq_true.1 (by decide))
  unfold tenantLabel
  rw [boundedDNSName_eq (by decide)]
  show Label.bound 63 (sha256.short (firstNonEmpty [productionHashed project,
    normalizeDNSName (productionTenant project)])) (normalizeDNSName (productionTenant project)).toList = _
  rw [firstNonEmpty_hashed, normalizeDNSName_of_isLabel hlabel]

/-- The namespace of a new lineage, by the ids of its project. -/
theorem new_namespace {sha256 : Label.Hash} {project : Project} {event : PreviewWebhook}
    {identity : PreviewIdentity} {id : String}
    (horganization : identity.organizationId = project.organizationID)
    (hproject : identity.projectId = project.id) :
    (transitionPreviewLineage sha256 none event identity id).lineage.namespace =
      tenantProjectLabel sha256 (Text.jsOr project.organizationID "org")
        (Text.jsOr project.id "project") (previewStableIdentity project) := by
  have hidentity : firstTruthy [some project.organizationID, some project.organizationID]
      (Text.jsOr project.organizationID "org") = Text.jsOr project.organizationID "org" := by
    unfold firstTruthy Text.jsOr
    by_cases h : project.organizationID = "" <;> simp [Text.truthy, h]
  have hstable : ((some project.id).filter fun id => id ≠ "").map
      (fun id => Text.jsOr project.organizationID "org" ++ "\x00" ++ id) =
        previewStableIdentity project := by
    unfold previewStableIdentity
    by_cases h : project.id = "" <;> simp [h]
  simp only [transitionPreviewLineage, advance, nextLineage, previewPlanOf, Option.map_none,
    Option.getD_none, horganization, hproject]
  unfold previewIdentity lineageInput
  dsimp only
  simp only [firstTruthy_none, firstTruthy_some]
  rw [hidentity, hstable]

theorem previewNamespace_eq (sha256 : Label.Hash) (project : Project) :
    (tenantProjectLabel sha256 (Text.jsOr project.organizationID "org")
      (Text.jsOr project.id "project") (previewStableIdentity project)).toList =
      Label.bound 63 (sha256.short (previewHashed project)) (previewTenant project).toList := by
  unfold tenantProjectLabel
  rw [boundedDnsLabel_eq (by decide), normalizeRoutePart_of_isLabel (tenantRouteIdentity_isLabel _ _)]
  rfl

/-! ### Every lineage and every runtime -/

/-- **A preview is placed in the namespace of production exactly for the same tenant label.**  A
lineage keeps the namespace it was made with, and hands it to every runtime. -/
theorem lineage_namespace_iff {sha256 : Label.Hash} {project : Project} {service runtime : Service}
    {deployment : Deployment} {baseDomain : String}
    (hruntime : runtimeService deployment service = .ok runtime)
    (hlineage : deployment.previewLineageID = "") {event : PreviewWebhook} {identity : PreviewIdentity}
    {id : String} (horganization : identity.organizationId = project.organizationID)
    (hproject : identity.projectId = project.id) {events : List LineageEvent}
    {lineage : PreviewLineageRecord}
    (run : Run (LineageStep sha256)
      (transitionPreviewLineage sha256 none event identity id).lineage events lineage) :
    (lineage.namespace = (specFromState sha256 project service deployment baseDomain).namespace ↔
      SameTenant sha256 project) ∧
    ∀ deploymentId previewDomain record,
      createPreviewRuntime sha256 lineage deploymentId previewDomain = .ok record →
        (record.namespace = (specFromState sha256 project service deployment baseDomain).namespace ↔
          SameTenant sha256 project) := by
  have hkept := (run_sameRoute run).namespace
  have hiff : lineage.namespace =
      (specFromState sha256 project service deployment baseDomain).namespace ↔
        SameTenant sha256 project := by
    have hdigits : ∀ text, (sha256.short text).length = 12 := sha256.short_length
    rw [hkept, specFromState_namespace hruntime hlineage, new_namespace horganization hproject, ← String.toList_inj,
      previewNamespace_eq, tenantLabel_eq, Label.bound_eq_iff (by rw [hdigits, hdigits]), hdigits, hdigits]
    rfl
  refine ⟨hiff, ?_⟩
  intro deploymentId previewDomain record hrecord
  rw [(createPreviewRuntime_fields hrecord).1]
  exact hiff

namespace Sample

def project : Project :=
  { id := "prj_1", organizationID := "org_1", organizationSlug := "acme", name := "Shop", slug := "shop" }

/-- A project whose slug is spelled like its id. -/
def plain : Project := { project with id := "shop" }

def service : Service := { id := "svc_1", name := "web", slug := "web", type := "web", port := 3000, replicas := 1 }

def production : Deployment :=
  { id := "dep_1", serviceID := "svc_1", projectID := "prj_1", deploymentType := "production" }

def identity (project : Project) : PreviewIdentity :=
  { organizationId := project.organizationID, projectId := project.id, serviceId := "svc_1"
    integrationId := "int_1" }

end Sample

open Sample in
/-- For a project whose slug and id normalise alike, the preview shares the namespace. -/
theorem lineage_namespace_iff_plain :
    SameTenant sha256 plain ∧
    (transitionPreviewLineage sha256 none opened (identity plain) "lin_1").lineage.namespace =
      (specFromState sha256 plain service production "example.test").namespace := by
  have hsame : SameTenant sha256 plain := .inl ⟨by decide, by decide, by decide⟩
  exact ⟨hsame, (lineage_namespace_iff (runtimeService_live rfl rfl (by decide)) rfl rfl rfl .nil).1.2 hsame⟩

open Sample in
/-- **A preview outside its project's namespace**: production of the project with the slug `shop` runs
in `org-1--shop`, its previews are sent to `org-1--prj-1`. -/
theorem preview_namespace_differs :
    (transitionPreviewLineage sha256 none opened (identity project) "lin_1").lineage.namespace =
      "org-1--prj-1" ∧
    (specFromState sha256 project service production "example.test").namespace = "org-1--shop" := by
  constructor
  · decide +kernel
  · decide +kernel

end RaibitServer.Preview
