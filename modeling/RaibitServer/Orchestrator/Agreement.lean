import RaibitServer.Orchestrator.Hosts

/-!
# Orchestrator.Agreement — the two implementations of the names

The control plane computes names in `domain-router.ts`, the orchestrator in `kube/deployment.go`.  On
ASCII texts they normalise alike, and the namespace of a project is the same.  They differ in three
places (`naming_agrees_iff`): only the orchestrator strips the base domain down to its root, only the
control plane trims the identity it hashes, and at the limit thirteen the orchestrator slices its twelve
digits out of range.
-/

namespace RaibitServer.Orchestrator

open Lib Label Text
open Preview (productionHashed)

theorem normalizeRoutePart_eq {value : String} (h : isAscii value) :
    Core.normalizeRoutePart value = normalizeDNSName value := by
  unfold Core.normalizeRoutePart normalizeDNSName jsOr
  have hlower : jsLower (trimSpace value) = lower (trimSpace value) := jsLower_eq_lower (isAscii_trimBy h)
  rw [jsTrim_eq_trimSpace h, hlower]
  by_cases hnil : squash (lower (trimSpace value)).toList = []
  · rw [hnil]
    rfl
  · have hne : String.ofList (squash (lower (trimSpace value)).toList) ≠ "" := by
      intro he
      exact hnil (by rw [← String.toList_ofList (l := squash _), he]; rfl)
    rw [if_neg hne, if_neg hnil]

/-! ### Bounded names -/

/-- The hashed identity is blank, or its digits up to the limit do not depend on the blanks around it. -/
def SameDigits (sha256 : Hash) (identity : String) (limit : Nat) : Prop :=
  trimSpace identity = "" ∨
    (sha256.short (trimSpace identity)).take limit = (sha256.short identity).take limit

section Labels

variable {sha256 : Hash} {value identity : String} {limit : Nat}

/-- The control plane trims what it hashes. -/
theorem labelIdentity_eq (h : isAscii identity) (normalized : String) :
    Core.labelIdentity (some identity) normalized =
      if trimSpace identity = "" then normalized else trimSpace identity := by
  unfold Core.labelIdentity jsOr
  rw [Option.getD_some, jsTrim_eq_trimSpace h]

/-- The orchestrator hashes the identity as it is. -/
theorem firstNonEmpty_eq (identity : String) {normalized : String} (h : trimSpace normalized ≠ "") :
    firstNonEmpty [identity, normalized] = if trimSpace identity = "" then normalized else identity := by
  split_ifs with hblank
  · unfold firstNonEmpty
    rw [List.find?_cons_of_neg (by simpa using hblank), List.find?_cons_of_pos (by simpa using h)]
    rfl
  · exact firstNonEmpty_of_nonblank hblank _

theorem sameDigits_iff (h : isAscii identity) {normalized : String} (hnormalized : trimSpace normalized ≠ "") :
    (sha256.short (Core.labelIdentity (some identity) normalized)).take limit =
      (sha256.short (firstNonEmpty [identity, normalized])).take limit ↔ SameDigits sha256 identity limit := by
  rw [labelIdentity_eq h, firstNonEmpty_eq identity hnormalized]
  unfold SameDigits
  by_cases hblank : trimSpace identity = ""
  · simp [hblank]
  · simp [hblank]

/-- What is kept of a label is empty exactly if there is no room in front of the suffix. -/
theorem keep_eq_nil_iff {l : List Char} (h : IsLabel l) : keep limit 12 l = [] ↔ limit ≤ 13 := by
  constructor
  · intro hnil
    by_contra hlimit
    obtain ⟨c, s, hkeep, -⟩ := keep_first (n := 12) h (Nat.lt_of_not_le hlimit)
    rw [hkeep] at hnil
    cases hnil
  · intro hlimit
    have hzero : limit - 12 - 1 = 0 := by omega
    unfold keep
    rw [hzero]
    rfl

/-- A cut name of the control plane and one of the orchestrator: the same exactly if there are digits to
show and they are the same. -/
theorem cut_eq_iff {l a b : List Char} (h : IsLabel l) (ha : a.length = 12) (hb : b.length = 12) :
    some (String.ofList (if keep limit 12 l = [] then a.take limit else keep limit 12 l ++ '-' :: a)) =
      (if limit ≤ 12 then sliceTo b limit
        else if keep limit 12 l = [] then sliceTo b limit else some (String.ofList (keep limit 12 l ++ '-' :: b))) ↔
      limit ≠ 13 ∧ a.take limit = b.take limit := by
  rcases Nat.lt_trichotomy limit 13 with hshort | rfl | hlong
  · have hslice : limit ≤ 12 := by omega
    have hne : limit ≠ 13 := by omega
    rw [if_pos ((keep_eq_nil_iff h).2 (by omega)), if_pos hslice]
    simp [sliceTo, hb, hslice, hne, String.ofList_inj]
  · have hkeep : keep 13 12 l = [] := (keep_eq_nil_iff h).2 (Nat.le_refl 13)
    rw [if_pos hkeep, if_neg (by decide : ¬ 13 ≤ 12), if_pos hkeep]
    simp [sliceTo, hb]
  · have hkeep : keep limit 12 l ≠ [] := by
      rw [ne_eq, keep_eq_nil_iff h]
      omega
    have hall : ∀ {s : List Char}, s.length = 12 → s.take limit = s := fun hs =>
      List.take_of_length_le (by omega)
    rw [if_neg hkeep, if_neg (by omega : ¬ limit ≤ 12), if_neg hkeep, hall ha, hall hb]
    simp [String.ofList_inj, show limit ≠ 13 by omega]

/-- The bounded names agree exactly if the name fits, or there is a suffix and it is the same. -/
theorem boundedDnsLabel_iff (hvalue : isAscii value) (hidentity : isAscii identity) (hlimit : 1 ≤ limit) :
    some (Core.boundedDnsLabel sha256 value limit (some identity)) = boundedDNSName? sha256 value identity limit ↔
      (normalizeDNSName value).toList.length ≤ limit ∨ limit ≠ 13 ∧ SameDigits sha256 identity limit := by
  have hlabel := normalizeDNSName_isLabel value
  have hlength : ∀ text, (sha256.short text).length = 12 := sha256.short_length
  rw [← sameDigits_iff hidentity (nonblank_of_isLabel hlabel)]
  unfold Core.boundedDnsLabel boundedDNSName?
  simp only [normalizeRoutePart_eq hvalue, Core.digestSuffix_eq, hlength]
  rw [if_neg (by omega : ¬ limit = 0)]
  by_cases hfits : (normalizeDNSName value).toList.length ≤ limit
  · simp [hfits]
  · rw [if_neg hfits, if_neg hfits, or_iff_right hfits]
    exact cut_eq_iff hlabel (hlength _) (hlength _)

/-- A name that fits in front of the suffix is kept whole: it does not end in a dash. -/
theorem keep_of_fits {l : List Char} (h : IsLabel l) (hfits : l.length ≤ limit - 12 - 1) : keep limit 12 l = l := by
  unfold keep
  rw [List.take_of_length_le hfits]
  obtain ⟨s, c, rfl, hc⟩ := h.last
  exact List.rdropWhile_concat_neg _ _ _ (by simp [hc])

/-- The names by identity always carry digits. -/
theorem identityDnsLabel_iff (hvalue : isAscii value) (hidentity : isAscii identity) (hlimit : 1 ≤ limit) :
    some (Core.identityDnsLabel sha256 value identity limit) = identityDNSName? sha256 value identity limit ↔
      limit ≠ 13 ∧ SameDigits sha256 identity limit := by
  have hlabel := normalizeDNSName_isLabel value
  have hlength : ∀ text, (sha256.short text).length = 12 := sha256.short_length
  have hzero : ¬ limit = 0 := by omega
  have hbase : (if (normalizeDNSName value).toList.length > limit - 12 - 1 then
      keep limit 12 (normalizeDNSName value).toList else (normalizeDNSName value).toList) =
        keep limit 12 (normalizeDNSName value).toList := by
    split_ifs with hlong
    · rfl
    · rw [keep_of_fits hlabel (Nat.le_of_not_lt hlong)]
  have hcut : ∀ a : List Char, (if limit ≤ 12 then String.ofList (a.take limit) else
      String.ofList (if keep limit 12 (normalizeDNSName value).toList = [] then a.take limit
        else keep limit 12 (normalizeDNSName value).toList ++ '-' :: a)) =
      String.ofList (if keep limit 12 (normalizeDNSName value).toList = [] then a.take limit
        else keep limit 12 (normalizeDNSName value).toList ++ '-' :: a) := by
    intro a
    by_cases hslice : limit ≤ 12
    · rw [if_pos hslice, if_pos ((keep_eq_nil_iff hlabel).2 (by omega))]
    · rw [if_neg hslice]
  rw [← sameDigits_iff hidentity (nonblank_of_isLabel hlabel)]
  unfold Core.identityDnsLabel identityDNSName?
  simp only [normalizeRoutePart_eq hvalue, Core.digestSuffix_eq, hlength, hbase, if_neg hzero, hcut]
  exact cut_eq_iff hlabel (hlength _) (hlength _)

end Labels

/-! ### Hosts and namespaces -/

/-- An ASCII text that is not blank. -/
structure Named (text : String) : Prop where
  ascii : isAscii text
  nonblank : trimSpace text ≠ ""

/-- The names of a project and a service, and the ids, as both sides read them. -/
structure AsciiNames (project : Project) (service : Service) (baseDomain : String) : Prop where
  organizationSlug : Named project.organizationSlug
  organizationID : Named project.organizationID
  slug : Named project.slug
  id : Named project.id
  service : Named service.slug
  baseDomain : Named baseDomain
  trimmed : trimSpace project.organizationID = project.organizationID ∧ trimSpace project.id = project.id

/-- A base domain without blanks around it and without a zone in front. -/
def RootDomain (baseDomain : String) : Prop :=
  trimSpace baseDomain = baseDomain ∧ startsWith baseDomain "apps." = false ∧
    startsWith baseDomain "preview." = false

theorem length_trimPrefix_le (s pre : String) :
    (GoText.trimPrefix s pre).toList.length ≤ s.toList.length := by
  unfold GoText.trimPrefix
  split_ifs
  · rw [String.toList_ofList, List.length_drop]
    omega
  · exact Nat.le_refl _

theorem trimPrefix_eq_self {s pre : String} (hpre : pre ≠ "") :
    GoText.trimPrefix s pre = s ↔ startsWith s pre = false := by
  unfold GoText.trimPrefix
  constructor
  · intro h
    by_contra hstarts
    have hstarts : startsWith s pre = true := eq_true_of_ne_false hstarts
    rw [if_pos hstarts] at h
    have hprefix : pre.toList.length ≤ s.toList.length := (List.isPrefixOf_iff_prefix.1 hstarts).length_le
    have hlength := congrArg (fun t : String => t.toList.length) h
    simp only [String.toList_ofList, List.length_drop] at hlength
    have hpos : pre.toList.length ≠ 0 := by
      intro hzero
      exact hpre (String.toList_inj.1 (by rw [List.length_eq_zero_iff.1 hzero]; rfl))
    omega
  · intro hstarts
    rw [hstarts, if_neg Bool.false_ne_true]

theorem length_trimSpace_le (s : String) : (trimSpace s).toList.length ≤ s.toList.length := by
  unfold trimSpace
  rw [trimBy_eq, String.toList_ofList]
  exact Nat.le_trans (List.rdropWhile_prefix _ _).length_le (List.dropWhile_suffix _).length_le

/-- A text that trimming does not shorten has no blank to drop on either side. -/
theorem trimmed_sides {s : String} (h : s.toList.length ≤ (trimSpace s).toList.length) :
    s.toList.dropWhile isGoSpace = s.toList ∧ s.toList.rdropWhile isGoSpace = s.toList := by
  unfold trimSpace at h
  rw [trimBy_eq, String.toList_ofList] at h
  have hprefix := List.rdropWhile_prefix isGoSpace (s.toList.dropWhile isGoSpace)
  have hsuffix := List.dropWhile_suffix (l := s.toList) isGoSpace
  have hdrop : s.toList.dropWhile isGoSpace = s.toList :=
    hsuffix.eq_of_length (Nat.le_antisymm hsuffix.length_le (Nat.le_trans h hprefix.length_le))
  refine ⟨hdrop, ?_⟩
  rw [hdrop] at hprefix h
  exact hprefix.eq_of_length (Nat.le_antisymm hprefix.length_le h)

theorem trimSpace_of_sides {s : String} (hdrop : s.toList.dropWhile isGoSpace = s.toList)
    (hrdrop : s.toList.rdropWhile isGoSpace = s.toList) : trimSpace s = s := by
  unfold trimSpace
  rw [trimBy_eq, hdrop, hrdrop, String.ofList_toList]

/-- Texts without blanks around them joined by any text. -/
theorem trimSpace_join {a b : String} (ha : trimSpace a = a) (hane : a ≠ "") (hb : trimSpace b = b) (hbne : b ≠ "")
    (mid : String) : trimSpace (a ++ mid ++ b) = a ++ mid ++ b := by
  have hne : ∀ {s : String}, s ≠ "" → s.toList ≠ [] := fun hs hnil =>
    hs (String.toList_inj.1 (by rw [hnil]; rfl))
  have hfirst := (trimmed_sides (s := a) (by rw [ha])).1
  have hlast := (trimmed_sides (s := b) (by rw [hb])).2
  refine trimSpace_of_sides ?_ ?_
  · rw [String.toList_append, String.toList_append, List.append_assoc, List.dropWhile_append, hfirst,
      if_neg (by simpa using hne hane)]
  · have hdash : ∃ s c, b.toList = s ++ [c] ∧ isGoSpace c = false := by
      have hstay : b.toList.rdropWhile isGoSpace ≠ [] := by
        rw [hlast]
        exact hne hbne
      have hgetLast := List.rdropWhile_last_not isGoSpace _ hstay
      refine ⟨(b.toList.rdropWhile isGoSpace).dropLast, _, ?_, eq_false_of_ne_true hgetLast⟩
      rw [List.dropLast_append_getLast, hlast]
    obtain ⟨s, c, hs, hc⟩ := hdash
    rw [String.toList_append, hs, ← List.append_assoc]
    exact List.rdropWhile_concat_neg _ _ _ (by simp [hc])

theorem rootBaseDomain_eq_self (baseDomain : String) :
    rootBaseDomain baseDomain = baseDomain ↔ RootDomain baseDomain := by
  constructor
  · intro h
    unfold rootBaseDomain at h
    have hpreview := length_trimPrefix_le (GoText.trimPrefix (trimSpace baseDomain) "apps.") "preview."
    have happs := length_trimPrefix_le (trimSpace baseDomain) "apps."
    have htrim := length_trimSpace_le baseDomain
    rw [h] at hpreview
    have hself : trimSpace baseDomain = baseDomain := by
      obtain ⟨hdrop, hrdrop⟩ := trimmed_sides (s := baseDomain) (by omega)
      exact trimSpace_of_sides hdrop hrdrop
    rw [hself] at h happs hpreview
    have happs' : startsWith baseDomain "apps." = false := by
      rw [← trimPrefix_eq_self (by decide)]
      by_contra hne
      have hstarts : startsWith baseDomain "apps." = true := by
        by_contra hfalse
        exact hne ((trimPrefix_eq_self (by decide)).2 (eq_false_of_ne_true hfalse))
      have hprefix : 5 ≤ baseDomain.toList.length := (List.isPrefixOf_iff_prefix.1 hstarts).length_le
      have hlength : (GoText.trimPrefix baseDomain "apps.").toList.length = baseDomain.toList.length - 5 := by
        unfold GoText.trimPrefix
        rw [if_pos hstarts, String.toList_ofList, List.length_drop]
        rfl
      omega
    rw [(trimPrefix_eq_self (by decide)).2 happs'] at h
    exact ⟨hself, happs', (trimPrefix_eq_self (by decide)).1 h⟩
  · rintro ⟨htrim, happs, hpreview⟩
    unfold rootBaseDomain
    rw [htrim, (trimPrefix_eq_self (by decide)).2 happs, (trimPrefix_eq_self (by decide)).2 hpreview]

theorem host_eq_iff (label a b : String) : label ++ "." ++ a = label ++ "." ++ b ↔ b = a := by
  constructor
  · intro heq
    have hlist := congrArg String.toList heq
    rw [String.toList_append, String.toList_append (s := label ++ "."), List.append_cancel_left_eq,
      String.toList_inj] at hlist
    exact hlist.symm
  · rintro rfl
    rfl

section Production

variable {sha256 : Hash} {project : Project} {service runtime : Service} {deployment : Deployment}
  {baseDomain : String}

theorem serviceRouteIdentity_agrees (h : AsciiNames project service baseDomain) :
    Core.serviceRouteIdentity project.organizationSlug project.slug service.slug =
      serviceRouteIdentity project service := by
  unfold Core.serviceRouteIdentity Core.tenantRouteIdentity Core.organizationRouteTenantSegment serviceRouteIdentity
  rw [firstNonEmpty_of_nonblank h.organizationSlug.nonblank, firstNonEmpty_of_nonblank h.slug.nonblank,
    firstNonEmpty_of_nonblank h.service.nonblank, normalizeRoutePart_eq h.organizationSlug.ascii,
    normalizeRoutePart_eq h.slug.ascii, normalizeRoutePart_eq h.service.ascii]
  dsimp only
  by_cases hweb : normalizeDNSName service.slug = "web"
  · simp [hweb]
  · simp [hweb]

/-- The production host of the control plane: the same label, under the base domain as it is. -/
theorem serviceHostname_agrees (h : AsciiNames project service baseDomain) :
    Core.serviceHostname sha256 project.organizationSlug project.slug service.slug baseDomain none =
      boundedDNSName sha256 (productionRoute project service) (productionRoute project service) 63 ++ "." ++
        baseDomain := by
  have hlabel : Core.zonedRouteLabel sha256 "apps" (serviceRouteIdentity project service) =
      boundedDNSName sha256 (productionRoute project service) (productionRoute project service) 63 := by
    have hroute : "apps" ++ "--" ++ serviceRouteIdentity project service = productionRoute project service := rfl
    unfold Core.zonedRouteLabel
    rw [hroute, ← String.toList_inj, boundedDNSName_self sha256 (productionRoute_isLabel project service),
      Core.boundedDnsLabel_eq (by decide), Core.normalizeRoutePart_of_isLabel (productionRoute_isLabel project service),
      Core.labelIdentity_none]
    rfl
  unfold Core.serviceHostname
  rw [serviceRouteIdentity_agrees h]
  dsimp only
  rw [hlabel]

/-- The namespace of the control plane. -/
theorem tenantProjectLabel_agrees (h : AsciiNames project service baseDomain) :
    Core.tenantProjectLabel sha256 project.organizationID project.slug (some (productionHashed project)) =
      tenantLabel sha256 project := by
  have htenant : Core.tenantRouteIdentity project.organizationID project.slug = Preview.productionTenant project := by
    unfold Core.tenantRouteIdentity Core.organizationRouteTenantSegment Preview.productionTenant
      organizationNamespaceID projectNamespaceSlug
    rw [firstNonEmpty_of_nonblank h.organizationID.nonblank, firstNonEmpty_of_nonblank h.slug.nonblank,
      normalizeRoutePart_eq h.organizationID.ascii, normalizeRoutePart_eq h.slug.ascii]
  have hne : ∀ {s : String}, Named s → s ≠ "" := by
    intro s hs hempty
    exact hs.nonblank (by rw [hempty]; rfl)
  have htrim : trimSpace (productionHashed project) = productionHashed project :=
    trimSpace_join h.trimmed.1 (hne h.organizationID) h.trimmed.2 (hne h.id) _
  have hascii : isAscii (productionHashed project) := by
    intro c hc
    unfold productionHashed at hc
    rw [String.toList_append, String.toList_append, List.append_assoc] at hc
    rcases List.mem_append.1 hc with hc | hc
    · exact h.organizationID.ascii c hc
    · rcases List.mem_append.1 hc with hc | hc
      · obtain rfl := List.mem_singleton.1 hc
        decide
      · exact h.id.ascii c hc
  have hblank : productionHashed project ≠ "" := by
    intro hempty
    have hlist := congrArg String.toList hempty
    unfold productionHashed at hlist
    rw [String.toList_append, String.toList_append] at hlist
    simp at hlist
  have hidentity : Core.labelIdentity (some (productionHashed project)) (Preview.productionTenant project) =
      productionHashed project := by
    rw [labelIdentity_eq hascii, htrim, if_neg hblank]
  unfold Core.tenantProjectLabel
  rw [← String.toList_inj, Preview.tenantLabel_eq, Core.boundedDnsLabel_eq (by decide),
    Core.normalizeRoutePart_of_isLabel (Core.tenantRouteIdentity_isLabel _ _), htenant, hidentity]
  rfl

/-- **The names of the control plane are those of the orchestrator**: the production host exactly for a
base domain that is a root domain, the namespace always, and the bounded names exactly if no digits out of
range are asked for and the identity is hashed alike. -/
theorem naming_agrees_iff (h : AsciiNames project service baseDomain)
    (hruntime : runtimeService deployment service = .ok runtime) (hproduction : Production deployment) :
    (Core.serviceHostname sha256 project.organizationSlug project.slug service.slug baseDomain none =
      (specFromState sha256 project service deployment baseDomain).host ↔ RootDomain baseDomain) ∧
    Core.tenantProjectLabel sha256 project.organizationID project.slug
        (some (project.organizationID ++ "\x00" ++ project.id)) =
      (specFromState sha256 project service deployment baseDomain).namespace ∧
    ∀ value identity limit, isAscii value → isAscii identity → 1 ≤ limit → limit ≤ 63 →
      (some (Core.boundedDnsLabel sha256 value limit (some identity)) = boundedDNSName? sha256 value identity limit ↔
        (normalizeDNSName value).toList.length ≤ limit ∨ limit ≠ 13 ∧ SameDigits sha256 identity limit) ∧
      (some (Core.identityDnsLabel sha256 value identity limit) = identityDNSName? sha256 value identity limit ↔
        limit ≠ 13 ∧ SameDigits sha256 identity limit) := by
  refine ⟨?_, ?_, ?_⟩
  · rw [serviceHostname_agrees h, specFromState_host hruntime hproduction,
      firstNonEmpty_of_nonblank h.baseDomain.nonblank, ← rootBaseDomain_eq_self]
    exact host_eq_iff _ _ _
  · rw [specFromState_namespace hruntime hproduction.1]
    exact tenantProjectLabel_agrees h
  · intro value identity limit hvalue hidentity hlimit _
    exact ⟨boundedDnsLabel_iff hvalue hidentity hlimit, identityDnsLabel_iff hvalue hidentity hlimit⟩

end Production

namespace Agreed

/-- The digest of a text is its length, over and over. -/
def sha256 : Hash := .repeated fun text => UInt8.ofNat text.length

def project : Project :=
  { id := "cprj1", organizationID := "corg1", organizationSlug := "acme", name := "Shop", slug := "shop" }

def service : Service := { id := "csvc1", name := "api", slug := "api", type := "web", port := 3000, replicas := 1 }

def production : Deployment :=
  { id := "cdep1", serviceID := "csvc1", projectID := "cprj1", deploymentType := "production" }

end Agreed

open Agreed in
/-- A root domain, and names within their limit. -/
theorem naming_agrees_shop :
    Core.serviceHostname sha256 "acme" "shop" "api" "example.test" none =
      (specFromState sha256 project service production "example.test").host ∧
    some (Core.boundedDnsLabel sha256 "preview-route" 63 (some "lin_1")) =
      boundedDNSName? sha256 "preview-route" "lin_1" 63 := by
  have hnames : AsciiNames project service "example.test" := by
    refine ⟨⟨?_, by decide⟩, ⟨?_, by decide⟩, ⟨?_, by decide⟩, ⟨?_, by decide⟩, ⟨?_, by decide⟩, ⟨?_, by decide⟩,
      by decide, by decide⟩ <;> simp [isAscii, project, service]
  have hruntime : runtimeService production service = .ok _ := runtimeService_live rfl rfl (by decide)
  have hproduction : Production production := ⟨rfl, by decide⟩
  have hagrees := @naming_agrees_iff sha256 _ _ _ _ _ hnames hruntime hproduction
  refine ⟨hagrees.1.2 ⟨by decide, by decide, by decide⟩, ?_⟩
  refine (hagrees.2.2 "preview-route" "lin_1" 63 ?_ ?_ (by decide) (by decide)).1.2 (.inl (by decide))
  · simp [isAscii]
  · simp [isAscii]

open Agreed in
/-- **Three names that differ**: under `apps.example.test` the orchestrator drops the zone; at the limit
thirteen it panics on a longer name; and it hashes an identity with the blank in front of it. -/
theorem naming_differs :
    Core.serviceHostname sha256 "acme" "shop" "api" "apps.example.test" none =
      "apps--acme--shop--api.apps.example.test" ∧
    (specFromState sha256 project service production "apps.example.test").host =
      "apps--acme--shop--api.example.test" ∧
    Core.boundedDnsLabel sha256 "service-number-1" 13 (some "svc_1") = "050505050505" ∧
    boundedDNSName? sha256 "service-number-1" "svc_1" 13 = none ∧
    Core.identityDnsLabel sha256 "web" " svc_1" 63 = "web-050505050505" ∧
    identityDNSName? sha256 "web" " svc_1" 63 = some "web-060606060606" := by
  refine ⟨?_, ?_, ?_, ?_, ?_, ?_⟩ <;> decide +kernel

end RaibitServer.Orchestrator
