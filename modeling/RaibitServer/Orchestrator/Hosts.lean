import RaibitServer.Lib.Fields
import RaibitServer.Lib.Trim
import RaibitServer.Preview.Namespace

/-!
# Orchestrator.Hosts — hosts and namespaces of production

What `SpecFromState` computes for a production deployment: the host is a bounded label of the slugs of
the organization, the project and the service under the root of the base domain, the namespace a bounded
label of the organization id and the project slug.  No two organizations share a host label or a
namespace (`organizations_separated`).
-/

namespace RaibitServer.Orchestrator

open Lib Label
open Preview (productionTenant productionHashed trimSpace_ne_empty)

/-- A deployment that is placed by names and is no preview. -/
def Production (deployment : Deployment) : Prop :=
  deployment.previewLineageID = "" ∧ ¬ (deployment.deploymentType = "preview" ∧ deployment.pullRequestNumber > 0)

/-- The text of the production route, before it is bounded. -/
def productionRoute (project : Project) (service : Service) : String :=
  "apps--" ++ serviceRouteIdentity project service

theorem firstNonEmpty_of_nonblank {value : String} (h : Text.trimSpace value ≠ "") (values : List String) :
    firstNonEmpty (value :: values) = value := by
  unfold firstNonEmpty
  rw [List.find?_cons_of_pos (by simpa using h)]
  rfl

theorem trimSpace_of_isLabel {value : String} (h : IsLabel value.toList) : Text.trimSpace value = value :=
  Text.trimBy_eq_self fun c hc =>
    labelChar_ascii (P := fun c => Text.isGoSpace c = false) (by decide) (h.chars c hc)

theorem nonblank_of_isLabel {value : String} (h : IsLabel value.toList) : Text.trimSpace value ≠ "" := by
  rw [trimSpace_of_isLabel h]
  intro hempty
  exact h.ne_nil (by rw [hempty]; rfl)

theorem double_chars : ∀ c ∈ "--".toList, labelChar c = true := List.all_eq_true.1 (by decide)

theorem serviceRouteIdentity_isLabel (project : Project) (service : Service) :
    IsLabel (serviceRouteIdentity project service).toList := by
  unfold serviceRouteIdentity
  dsimp only
  split_ifs with hweb
  · rw [String.toList_append, String.toList_append, String.toList_append, String.toList_append]
    exact ((normalizeDNSName_isLabel _).join (normalizeDNSName_isLabel _) double_chars).join
      (normalizeDNSName_isLabel _) double_chars
  · rw [String.toList_append, String.toList_append]
    exact (normalizeDNSName_isLabel _).join (normalizeDNSName_isLabel _) double_chars

theorem productionRoute_isLabel (project : Project) (service : Service) :
    IsLabel (productionRoute project service).toList := by
  have hzone : IsLabel "apps".toList :=
    ⟨List.all_eq_true.1 (by decide), ⟨'a', ['p', 'p', 's'], by decide⟩, ⟨['a', 'p', 'p'], 's', by decide⟩⟩
  have hjoin := hzone.join (serviceRouteIdentity_isLabel project service) double_chars
  unfold productionRoute
  rw [String.toList_append]
  exact hjoin

/-- A label with itself as identity is bounded with its own digits. -/
theorem boundedDNSName_self (sha256 : Hash) {value : String} (h : IsLabel value.toList) :
    (boundedDNSName sha256 value value 63).toList = bound 63 (sha256.short value) value.toList := by
  rw [boundedDNSName_eq (by decide), normalizeDNSName_of_isLabel h,
    firstNonEmpty_of_nonblank (nonblank_of_isLabel h)]

section Production

variable {sha256 : Hash} {project : Project} {service runtime : Service} {deployment : Deployment}
  {baseDomain : String}

theorem specFromState_host (hruntime : runtimeService deployment service = .ok runtime)
    (hproduction : Production deployment) :
    (specFromState sha256 project service deployment baseDomain).host =
      boundedDNSName sha256 (productionRoute project service) (productionRoute project service) 63 ++ "." ++
        rootBaseDomain (firstNonEmpty [baseDomain, service.baseDomain, "raibitserver.local"]) := by
  have hplace : placement sha256 project service deployment baseDomain =
      .ok (namedPlacement sha256 project service deployment baseDomain) := if_pos hproduction.1
  unfold specFromState
  rw [hruntime, hplace]
  unfold namedPlacement
  dsimp only
  rw [if_neg hproduction.2]
  rfl

end Production

/-! ### Organizations are separated -/

/-- What `slugInput` produces: `[a-z0-9-]` without a dash at the ends or two in a row. -/
structure IsSlug (slug : String) : Prop where
  label : IsLabel slug.toList
  single : ¬ ['-', '-'] <:+: slug.toList

/-- The first label of a host. -/
def hostLabel (host : String) : List Char := host.toList.takeWhile fun c => c ≠ '.'

/-- Different texts have different digits. -/
def Apart (sha256 : Hash) (a b : String) : Prop := a ≠ b → sha256.short a ≠ sha256.short b

theorem isSlug_of_word {id : String} (h : Slug.IsWord id.toList) : IsSlug id := by
  have hdash : ∀ c ∈ id.toList, isDash c = false := fun c hc => Slug.not_isDash_of_lowerAlnum (h.chars c hc)
  refine ⟨⟨(Slug.Dashed.word h).chars, (Slug.Dashed.word h).first, (Slug.Dashed.word h).last⟩, ?_⟩
  intro hdouble
  have hmem : '-' ∈ id.toList := hdouble.subset List.mem_cons_self
  exact absurd (hdash '-' hmem) (by decide)

theorem short_not_dash (sha256 : Hash) (text : String) : ∀ c ∈ sha256.short text, isDash c = false :=
  fun _ hc => Slug.not_isDash_of_lowerAlnum (Hex.encode_lowerAlnum hc)

/-- Bounded labels of different organizations differ, whatever is joined behind their names. -/
theorem bound_ne_of_slug {sha256 : Hash} {pre : List Char} {a b : String} {t u : List Char} {i j : String}
    (ha : IsSlug a) (hb : IsSlug b) (hab : a ≠ b) (hpre : pre.length < 50)
    (hdigits : sha256.short i ≠ sha256.short j) :
    bound 63 (sha256.short i) (pre ++ (a.toList ++ '-' :: '-' :: t)) ≠
      bound 63 (sha256.short j) (pre ++ (b.toList ++ '-' :: '-' :: u)) := by
  have hfirst : ∀ {s : String} (_ : IsSlug s) (v : List Char),
      ∃ c w, s.toList ++ v = c :: w ∧ isDash c = false := by
    intro s hs v
    obtain ⟨c, w, hw, hc⟩ := hs.label.first
    exact ⟨c, w ++ v, by rw [hw]; rfl, hc⟩
  have hlength : ∀ text, (sha256.short text).length = 12 := sha256.short_length
  refine bound_ne_of_firstField (by rw [hlength, hlength]) (by rw [hlength]; omega) (hfirst ha _) (hfirst hb _)
    (firstField_join ha.label ha.single t) (firstField_join hb.label hb.single u) ?_
    (short_not_dash sha256 i) (short_not_dash sha256 j) hdigits
  intro h
  exact hab (String.toList_inj.1 h)

theorem serviceRouteIdentity_front {project : Project} (h : IsSlug project.organizationSlug) (service : Service) :
    ∃ t, (serviceRouteIdentity project service).toList =
      project.organizationSlug.toList ++ '-' :: '-' :: t := by
  have hname : normalizeDNSName (firstNonEmpty [project.organizationSlug, project.organizationID, "org"]) =
      project.organizationSlug := by
    rw [firstNonEmpty_of_nonblank (nonblank_of_isLabel h.label), normalizeDNSName_of_isLabel h.label]
  unfold serviceRouteIdentity
  rw [hname]
  dsimp only
  split_ifs with hweb
  · simp only [String.toList_append, List.append_assoc]
    exact ⟨_, rfl⟩
  · simp only [String.toList_append, List.append_assoc]
    exact ⟨_, rfl⟩

theorem productionTenant_front {project : Project} (h : IsSlug project.organizationID) :
    (productionTenant project).toList =
      project.organizationID.toList ++ '-' :: '-' :: (projectNamespaceSlug project).toList := by
  have hname : organizationNamespaceID project = project.organizationID := by
    unfold organizationNamespaceID
    rw [firstNonEmpty_of_nonblank (nonblank_of_isLabel h.label), normalizeDNSName_of_isLabel h.label]
  unfold productionTenant
  rw [hname]
  simp only [String.toList_append, List.append_assoc]
  rfl

/-- The label of a production host: no dot is in it. -/
theorem hostLabel_host {sha256 : Hash} {project : Project} {service runtime : Service} {deployment : Deployment}
    {baseDomain : String} (hruntime : runtimeService deployment service = .ok runtime)
    (hproduction : Production deployment) :
    hostLabel (specFromState sha256 project service deployment baseDomain).host =
      bound 63 (sha256.short (productionRoute project service)) (productionRoute project service).toList := by
  have hself := boundedDNSName_self sha256 (productionRoute_isLabel project service)
  have hdot : ∀ c ∈ bound 63 (sha256.short (productionRoute project service))
      (productionRoute project service).toList, decide (c ≠ '.') = true := by
    intro c hc
    refine decide_eq_true fun hdot => ?_
    rw [← hself] at hc
    have hlabel := (boundedDNSName_isLabel (by decide) (by decide)).1.chars c hc
    rw [hdot] at hlabel
    exact absurd hlabel (by decide)
  unfold hostLabel
  rw [specFromState_host hruntime hproduction, String.toList_append, String.toList_append, hself,
    List.append_assoc, List.takeWhile_append_of_pos hdot]
  exact List.append_nil _

/-- **Production hosts and namespaces separate organizations**, whatever projects and services are
called: a label is read back up to the first two dashes, and one that is cut before them has none, so no
chosen name looks like it. -/
theorem organizations_separated {sha256 : Hash} {p q : Project} {s t rs rt : Service} {d e : Deployment}
    {base base' : String} (hpslug : IsSlug p.organizationSlug) (hqslug : IsSlug q.organizationSlug)
    (hslugs : p.organizationSlug ≠ q.organizationSlug) (hpid : Slug.IsWord p.organizationID.toList)
    (hqid : Slug.IsWord q.organizationID.toList) (hids : p.organizationID ≠ q.organizationID)
    (hd : Production d) (he : Production e) (hrs : runtimeService d s = .ok rs) (hrt : runtimeService e t = .ok rt)
    (hroutes : Apart sha256 (productionRoute p s) (productionRoute q t))
    (htenants : Apart sha256 (productionHashed p) (productionHashed q)) :
    hostLabel (specFromState sha256 p s d base).host ≠ hostLabel (specFromState sha256 q t e base').host ∧
    (specFromState sha256 p s d base).namespace ≠ (specFromState sha256 q t e base').namespace := by
  constructor
  · obtain ⟨v, hv⟩ := serviceRouteIdentity_front hpslug s
    obtain ⟨w, hw⟩ := serviceRouteIdentity_front hqslug t
    have hroute : productionRoute p s ≠ productionRoute q t := by
      intro h
      have hlist := congrArg String.toList h
      unfold productionRoute at hlist
      rw [String.toList_append, String.toList_append, hv, hw] at hlist
      have hfield := congrArg firstField (List.append_cancel_left hlist)
      rw [firstField_join hpslug.label hpslug.single, firstField_join hqslug.label hqslug.single] at hfield
      exact hslugs (String.toList_inj.1 (Option.some.inj hfield))
    have hne := @bound_ne_of_slug sha256 "apps--".toList _ _ v w _ _ hpslug hqslug hslugs (by decide)
      (hroutes hroute)
    rw [hostLabel_host hrs hd, hostLabel_host hrt he]
    show bound 63 _ (productionRoute p s).toList ≠ bound 63 _ (productionRoute q t).toList
    unfold productionRoute at hne ⊢
    rw [String.toList_append, String.toList_append, hv, hw]
    exact hne
  · have hhashed : productionHashed p ≠ productionHashed q := by
      intro h
      have hlist := congrArg (fun s : String => s.toList.takeWhile fun c => Text.lowerAlnum c) h
      have hfront : ∀ r : Project, Slug.IsWord r.organizationID.toList →
          (productionHashed r).toList.takeWhile (fun c => Text.lowerAlnum c) = r.organizationID.toList := by
        intro r hr
        unfold productionHashed
        rw [String.toList_append, String.toList_append, List.append_assoc,
          List.takeWhile_append_of_pos hr.chars]
        exact List.append_nil _
      rw [hfront p hpid, hfront q hqid] at hlist
      exact hids (String.toList_inj.1 hlist)
    rw [specFromState_namespace hrs hd.1, specFromState_namespace hrt he.1, ne_eq, ← String.toList_inj,
      Preview.tenantLabel_eq, Preview.tenantLabel_eq, productionTenant_front (isSlug_of_word hpid),
      productionTenant_front (isSlug_of_word hqid)]
    exact @bound_ne_of_slug _ [] _ _ _ _ _ _ (isSlug_of_word hpid) (isSlug_of_word hqid) hids (by decide)
      (htenants hhashed)

namespace Tenants

/-- The digest of a text is its length, over and over. -/
def sha256 : Hash := .repeated fun text => UInt8.ofNat text.length

def acme : Project :=
  { id := "cprj1", organizationID := "corg1", organizationSlug := "acme", name := "Shop", slug := "shop" }

/-- An organization whose slug continues the other one's. -/
def acmeShop : Project :=
  { id := "cprj22", organizationID := "corg22", organizationSlug := "acme-shop", name := "Web", slug := "web" }

def service : Service := { id := "csvc1", name := "web", slug := "web", type := "web", port := 3000, replicas := 1 }

def production : Deployment :=
  { id := "cdep1", serviceID := "csvc1", projectID := "cprj1", deploymentType := "production" }

end Tenants

open Tenants in
theorem organizations_separated_acme :
    hostLabel (specFromState sha256 acme service production "example.test").host ≠
      hostLabel (specFromState sha256 acmeShop service production "example.test").host ∧
    (specFromState sha256 acme service production "example.test").namespace ≠
      (specFromState sha256 acmeShop service production "example.test").namespace := by
  have hslug : ∀ l : List Char, Slug.isDashed l = true → IsLabel l := fun l h =>
    have hl := Slug.dashed_of_isDashed h
    ⟨hl.chars, hl.first, hl.last⟩
  have hproduction : Production production := ⟨rfl, by decide⟩
  exact organizations_separated ⟨hslug _ (by decide), by decide⟩ ⟨hslug _ (by decide), by decide⟩ (by decide)
    ⟨by decide, List.all_eq_true.1 (by decide)⟩ ⟨by decide, List.all_eq_true.1 (by decide)⟩ (by decide)
    hproduction hproduction (runtimeService_live rfl rfl (by decide)) (runtimeService_live rfl rfl (by decide))
    (fun _ => by decide +kernel) (fun _ => by decide +kernel)

end RaibitServer.Orchestrator
