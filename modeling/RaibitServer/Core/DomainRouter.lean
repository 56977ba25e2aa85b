import RaibitServer.Lib.Label

/-!
# Core.DomainRouter — generated names and hosts of the control plane

The naming functions of `domain-router.ts`.  Names are labels: a part is squashed to `[a-z0-9-]`, parts
are joined by two dashes, and what is longer than the limit is cut and ends in twelve hexadecimal
digits of a SHA-256 of its stable identity.
-/

namespace RaibitServer.Core

open Lib Label

def maxPreviewRouteIdentityLength : Nat := 39

def maxGeneratedRouteLabelLength : Nat := 63

def defaultDomain : String := "raibitserver.app"

def normalizeRoutePart (value : String) : String :=
  Text.jsOr (String.ofList (squash (Text.jsLower (Text.jsTrim value)).toList)) "item"

/-- The first twelve digits of the hexadecimal digest. -/
def digestSuffix (sha256 : Hash) (identity : String) : List Char :=
  (Hex.encode (sha256.sum identity)).take 12

/-- `String(stableIdentity ?? '').trim() || normalized`. -/
def labelIdentity (stableIdentity : Option String) (normalized : String) : String :=
  Text.jsOr (Text.jsTrim (stableIdentity.getD "")) normalized

def boundedDnsLabel (sha256 : Hash) (value : String) (limit : Nat) (stableIdentity : Option String) :
    String :=
  let normalized := normalizeRoutePart value
  if normalized.toList.length ≤ limit then normalized
  else
    let suffix := digestSuffix sha256 (labelIdentity stableIdentity normalized)
    let base := keep limit suffix.length normalized.toList
    String.ofList (if base = [] then suffix.take limit else base ++ '-' :: suffix)

def identityDnsLabel (sha256 : Hash) (value stableIdentity : String) (limit : Nat) : String :=
  if limit = 0 then "item"
  else
    let normalized := normalizeRoutePart value
    let suffix := digestSuffix sha256 (labelIdentity (some stableIdentity) normalized)
    if limit ≤ suffix.length then String.ofList (suffix.take limit)
    else
      let base := keep limit suffix.length normalized.toList
      String.ofList (if base = [] then suffix.take limit else base ++ '-' :: suffix)

def organizationRouteTenantSegment (organizationSlug : String) : String :=
  normalizeRoutePart organizationSlug

def tenantRouteIdentity (organizationSlug projectSlug : String) : String :=
  organizationRouteTenantSegment organizationSlug ++ "--" ++ normalizeRoutePart projectSlug

def serviceRouteIdentity (organizationSlug projectSlug serviceName : String) : String :=
  let tenant := tenantRouteIdentity organizationSlug projectSlug
  let service := normalizeRoutePart serviceName
  if service = "web" then tenant else tenant ++ "--" ++ service

def tenantProjectLabel (sha256 : Hash) (organizationSlug projectSlug : String)
    (stableIdentity : Option String) : String :=
  boundedDnsLabel sha256 (tenantRouteIdentity organizationSlug projectSlug)
    maxGeneratedRouteLabelLength stableIdentity

def previewRouteLabel (sha256 : Hash) (preview routeIdentity : String) : String :=
  "preview--" ++ preview ++ "--" ++
    boundedDnsLabel sha256 routeIdentity maxPreviewRouteIdentityLength none

def zonedRouteLabel (sha256 : Hash) (zone routeIdentity : String) : String :=
  boundedDnsLabel sha256 (zone ++ "--" ++ routeIdentity) maxGeneratedRouteLabelLength none

/-- `serviceHostname` without a custom domain. -/
def serviceHostname (sha256 : Hash) (organizationSlug projectSlug serviceName baseDomain : String)
    (preview : Option String) : String :=
  let routeIdentity := serviceRouteIdentity organizationSlug projectSlug serviceName
  let label := match preview with
    | some preview => previewRouteLabel sha256 (normalizeRoutePart preview) routeIdentity
    | none => zonedRouteLabel sha256 "apps" routeIdentity
  label ++ "." ++ baseDomain

/-! ### What the names are -/

theorem digestSuffix_eq (sha256 : Hash) (identity : String) :
    digestSuffix sha256 identity = sha256.short identity :=
  Hex.encode_take _ 6

theorem normalizeRoutePart_isLabel (value : String) : IsLabel (normalizeRoutePart value).toList := by
  unfold normalizeRoutePart Text.jsOr
  split_ifs with h
  · exact isLabel_item
  · rw [String.toList_ofList]
    refine squash_isLabel fun hnil => h ?_
    rw [hnil]

/-- A label is left as it is. -/
theorem normalizeRoutePart_of_isLabel {value : String} (h : IsLabel value.toList) :
    normalizeRoutePart value = value := by
  have htrim : Text.jsTrim value = value := Text.trimBy_eq_self fun c hc =>
    labelChar_ascii (P := fun c => Text.isJsSpace c = false) (by decide) (h.chars c hc)
  have hlower : Text.jsLower value = value := Text.jsLower_eq_self fun c hc =>
    labelChar_ascii (P := fun c => Text.jsLowerChar c = [c]) (by decide) (h.chars c hc)
  unfold normalizeRoutePart Text.jsOr
  rw [htrim, hlower, squash_of_isLabel h, String.ofList_toList, if_neg]
  intro hnil
  exact h.ne_nil (by rw [hnil]; rfl)

/-- A name longer than its limit is cut in front of the digest; for a limit above thirteen something
of it is kept. -/
theorem boundedDnsLabel_eq {sha256 : Hash} {value : String} {limit : Nat}
    {stableIdentity : Option String} (hlimit : 13 < limit) :
    (boundedDnsLabel sha256 value limit stableIdentity).toList =
      bound limit (sha256.short (labelIdentity stableIdentity (normalizeRoutePart value)))
        (normalizeRoutePart value).toList := by
  have hlength := sha256.short_length (labelIdentity stableIdentity (normalizeRoutePart value))
  unfold boundedDnsLabel bound
  simp only [digestSuffix_eq]
  split_ifs with h hnil
  · rfl
  · obtain ⟨c, s, hkeep, -⟩ := keep_first (n := 12) (normalizeRoutePart_isLabel value) hlimit
    rw [hlength, hkeep] at hnil
    simp at hnil
  · exact String.toList_ofList

/-- Without a stable identity the name itself is hashed. -/
theorem labelIdentity_none (label : String) : labelIdentity none label = label := by
  unfold labelIdentity Text.jsOr
  rw [if_pos]
  decide

theorem tenantRouteIdentity_isLabel (organizationSlug projectSlug : String) :
    IsLabel (tenantRouteIdentity organizationSlug projectSlug).toList := by
  unfold tenantRouteIdentity
  rw [String.toList_append, String.toList_append]
  exact (normalizeRoutePart_isLabel _).join (normalizeRoutePart_isLabel _) (List.all_eq_true.1 (by decide))

end RaibitServer.Core
