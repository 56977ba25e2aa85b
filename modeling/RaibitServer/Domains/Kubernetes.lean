import RaibitServer.Orchestrator.Hosts

/-!
# Domains.Kubernetes — the objects of a custom domain

`kube/domain.go` compiles a Certificate and an Ingress; `kube/domain_runtime.go` reads them back and
decides whether they are ready.  Both name the secret of the certificate, the compiler with
`boundedDNSName` and the observer by appending `-tls` to the name: they agree exactly if that still fits
into 63 characters (`domain_ready_iff`).
-/

namespace RaibitServer.Domains

open Lib Label Orchestrator

/-! ### Compiling -/

structure DomainSpec where
  domainID : String
  organizationID : String
  projectID : String
  serviceID : String
  hostname : String
  «namespace» : String
  serviceName : String
  servicePort : Int
  generation : Int
  clusterIssuer : String
  ingressClassName : String

structure DomainPlan where
  name : String
  «namespace» : String
  domainID : String
  manifests : List JsonObject := []

/-- `^[a-z0-9](?:[-a-z0-9]{0,61}[a-z0-9])?(?:\.[a-z0-9](?:[-a-z0-9]{0,61}[a-z0-9])?)*$`. -/
def dnsSubdomain (s : String) : Bool := (GoText.split s '.').all dnsLabelPattern

@[irreducible] def domainObjectName (sha256 : Hash) (domainID : String) : String :=
  boundedDNSName sha256 ("custom-domain-" ++ domainID) domainID 63 limit_63

def compileDomainCleanup (sha256 : Hash) (domainID «namespace» : String) : Except String DomainPlan :=
  if domainID = "" ∨ «namespace» = "" ∨ dnsSubdomain «namespace» = false then
    .error "custom domain cleanup binding is invalid"
  else .ok { name := domainObjectName sha256 domainID, «namespace», domainID }

def domainLabels (spec : DomainSpec) : JsonObject := [
  ("app.kubernetes.io/managed-by", .str "raibitserver"),
  ("raibitserver.io/custom-domain", .str "true"),
  ("raibitserver.io/domain-id", .str spec.domainID),
  ("raibitserver.io/organization-id", .str spec.organizationID),
  ("raibitserver.io/project-id", .str spec.projectID),
  ("raibitserver.io/service-id", .str spec.serviceID),
  ("raibitserver.io/domain-generation", .str (toString spec.generation))]

def certificate (spec : DomainSpec) (name secretName : String) : JsonObject := [
  ("apiVersion", .str "cert-manager.io/v1"), ("kind", .str "Certificate"),
  ("metadata", .obj [("name", .str name), ("namespace", .str spec.namespace), ("labels", .obj (domainLabels spec))]),
  ("spec", .obj [("secretName", .str secretName), ("dnsNames", .arr [.str spec.hostname]),
    ("issuerRef", .obj [("name", .str spec.clusterIssuer), ("kind", .str "ClusterIssuer"),
      ("group", .str "cert-manager.io")])])]

/-- The path of the ingress, with its backend. -/
def ingressPath (spec : DomainSpec) : Json := .obj [("path", .str "/"), ("pathType", .str "Prefix"),
  ("backend", .obj [("service", .obj [("name", .str spec.serviceName),
    ("port", .obj [("number", .num spec.servicePort)])])])]

def ingressRule (spec : DomainSpec) : Json :=
  .obj [("host", .str spec.hostname), ("http", .obj [("paths", .arr [ingressPath spec])])]

def ingress (spec : DomainSpec) (name secretName : String) : JsonObject := [
  ("apiVersion", .str "networking.k8s.io/v1"), ("kind", .str "Ingress"),
  ("metadata", .obj [("name", .str name), ("namespace", .str spec.namespace), ("labels", .obj (domainLabels spec)),
    ("annotations", .obj [("raibitserver.io/hostname", .str spec.hostname)])]),
  ("spec", .obj [("ingressClassName", .str spec.ingressClassName),
    ("tls", .arr [.obj [("hosts", .arr [.str spec.hostname]), ("secretName", .str secretName)]]),
    ("rules", .arr [ingressRule spec])])]

def incomplete (spec : DomainSpec) : Prop :=
  spec.domainID = "" ∨ spec.organizationID = "" ∨ spec.projectID = "" ∨ spec.serviceID = "" ∨
    spec.namespace = "" ∨ spec.serviceName = "" ∨ spec.servicePort < 1 ∨ spec.servicePort > 65535 ∨
    spec.generation < 1 ∨ spec.clusterIssuer = "" ∨ spec.ingressClassName = ""

instance (spec : DomainSpec) : Decidable (incomplete spec) := by
  unfold incomplete
  infer_instance

def invalidName (spec : DomainSpec) : Prop :=
  '*' ∈ spec.hostname.toList ∨ spec.hostname.utf8ByteSize > 253 ∨ '.' ∉ spec.hostname.toList ∨
    dnsSubdomain spec.hostname = false ∨ dnsSubdomain spec.namespace = false ∨
    dnsSubdomain spec.clusterIssuer = false ∨ dnsSubdomain spec.ingressClassName = false

instance (spec : DomainSpec) : Decidable (invalidName spec) := by
  unfold invalidName
  infer_instance

@[irreducible] def domainSecretName (sha256 : Hash) (domainID : String) : String :=
  boundedDNSName sha256 (domainObjectName sha256 domainID ++ "-tls") (domainID ++ "-tls") 63 limit_63

def compileDomain (sha256 : Hash) (spec : DomainSpec) : Except String DomainPlan :=
  if incomplete spec then .error "custom domain binding is incomplete"
  else if invalidName spec then .error "custom domain binding contains an invalid DNS name"
  else
    let name := domainObjectName sha256 spec.domainID
    let secretName := domainSecretName sha256 spec.domainID
    .ok { name, «namespace» := spec.namespace, domainID := spec.domainID
          manifests := [certificate spec name secretName, ingress spec name secretName] }

/-! ### Observing -/

structure ObservedBackend where
  name : String := ""
  port : Int := 0

structure ObservedRule where
  host : String := ""
  paths : List ObservedBackend := []

structure ObservedTLS where
  hosts : List String := []
  secretName : String := ""

structure ObservedCondition where
  type : String := ""
  status : String := ""

/-- The nested structs of the source, with their fields side by side. -/
structure ObservedDomainObject where
  labels : GoJson.StringMap := []
  dnsNames : List String := []
  secretName : String := ""
  issuerName : String := ""
  issuerKind : String := ""
  issuerGroup : String := ""
  tls : List ObservedTLS := []
  rules : List ObservedRule := []
  conditions : List ObservedCondition := []

section Decoding

open GoJson

/-- A nested struct whose fields stand beside those around it. -/
def nested {α : Type} (name : String) (fields : List (GoJson.Field α)) : GoJson.Field α := ⟨name, struct fields⟩

def backendDecoder : Decoder ObservedBackend := struct [
  nested "backend" [nested "service" [
    field "name" (·.name) (fun b v => { b with name := v }) string,
    nested "port" [field "number" (·.port) (fun b v => { b with port := v }) int]]]]

def ruleDecoder : Decoder ObservedRule := struct [
  field "host" (·.host) (fun r v => { r with host := v }) string,
  nested "http" [field "paths" (·.paths) (fun r v => { r with paths := v }) (slice {} backendDecoder)]]

def tlsDecoder : Decoder ObservedTLS := struct [
  field "hosts" (·.hosts) (fun t v => { t with hosts := v }) (slice "" string),
  field "secretName" (·.secretName) (fun t v => { t with secretName := v }) string]

def conditionDecoder : Decoder ObservedCondition := struct [
  field "type" (·.type) (fun c v => { c with type := v }) string,
  field "status" (·.status) (fun c v => { c with status := v }) string]

def objectDecoder : Decoder ObservedDomainObject := struct [
  nested "metadata" [field "labels" (·.labels) (fun o v => { o with labels := v }) stringMap],
  nested "spec" [
    field "dnsNames" (·.dnsNames) (fun o v => { o with dnsNames := v }) (slice "" string),
    field "secretName" (·.secretName) (fun o v => { o with secretName := v }) string,
    nested "issuerRef" [
      field "name" (·.issuerName) (fun o v => { o with issuerName := v }) string,
      field "kind" (·.issuerKind) (fun o v => { o with issuerKind := v }) string,
      field "group" (·.issuerGroup) (fun o v => { o with issuerGroup := v }) string],
    field "tls" (·.tls) (fun o v => { o with tls := v }) (slice {} tlsDecoder),
    field "rules" (·.rules) (fun o v => { o with rules := v }) (slice {} ruleDecoder)],
  nested "status" [field "conditions" (·.conditions) (fun o v => { o with conditions := v })
    (slice {} conditionDecoder)]]

end Decoding

/-- `value.(map[string]any)[key]`; a value of another type has no members. -/
def at? (value : Json) (key : String) : Json :=
  match value with
  | .obj members => (Json.member members key).getD .null
  | _ => .null

def items : Json → List Json
  | .arr items => items
  | _ => []

/-- `fmt.Sprint` of a string. -/
def sprint : Json → String
  | .str s => s
  | _ => ""

def domainManifest (plan : DomainPlan) (kind : String) : Json :=
  ((plan.manifests.find? fun manifest => sprint (at? (.obj manifest) "kind") = kind).map Json.obj).getD .null

def domainMetadata (plan : DomainPlan) : Json := at? (domainManifest plan "Certificate") "metadata"

def domainHostname (plan : DomainPlan) : String :=
  match items (at? (at? (domainManifest plan "Certificate") "spec") "dnsNames") with
  | [name] => sprint name
  | _ => ""

def domainIssuer (plan : DomainPlan) : String :=
  sprint (at? (at? (at? (domainManifest plan "Certificate") "spec") "issuerRef") "name")

def domainBackend (plan : DomainPlan) : Json :=
  let rule := (items (at? (at? (domainManifest plan "Ingress") "spec") "rules")).head?.getD .null
  at? ((items (at? (at? rule "http") "paths")).head?.getD .null) "backend"

def domainServiceName (plan : DomainPlan) : String := sprint (at? (at? (domainBackend plan) "service") "name")

def domainServicePort (plan : DomainPlan) : Int :=
  match at? (at? (at? (domainBackend plan) "service") "port") "number" with
  | .num n => n
  | _ => 0

/-- The labels of the object are those of the plan, and no others. -/
def observedLabelsMatch (labels : GoJson.StringMap) (plan : DomainPlan) : Bool :=
  match at? (domainMetadata plan) "labels" with
  | .obj expected => (labels.map Prod.fst).dedup.length = expected.length &&
      expected.all fun label => labels.get label.1 = sprint label.2
  | _ => labels.isEmpty

/-- `none` is the empty answer for an object that is not there. -/
def certificateReady (raw : Option Json) (plan : DomainPlan) : Bool :=
  match raw.bind (objectDecoder {}) with
  | none => false
  | some object => observedLabelsMatch object.labels plan && object.dnsNames = [domainHostname plan] &&
      object.secretName = plan.name ++ "-tls" && object.issuerName = domainIssuer plan &&
      object.issuerKind = "ClusterIssuer" && object.issuerGroup = "cert-manager.io" &&
      object.conditions.any fun c => c.type = "Ready" && c.status = "True"

def ingressReady (raw : Option Json) (plan : DomainPlan) : Bool :=
  match raw.bind (objectDecoder {}) with
  | none => false
  | some object => observedLabelsMatch object.labels plan &&
      match object.rules, object.tls with
      | [⟨host, [backend]⟩], [tls] => tls.hosts = [domainHostname plan] && tls.secretName = plan.name ++ "-tls" &&
          host = domainHostname plan && backend.name = domainServiceName plan && backend.port = domainServicePort plan
      | _, _ => false

/-! ### Readiness -/

/-- What the certificate controller adds when it has issued the certificate. -/
def readyStatus : String × Json :=
  ("status", .obj [("conditions", .arr [.obj [("type", .str "Ready"), ("status", .str "True")]])])

/-- The name of the objects leaves room for `-tls`: it is not cut and has at most 59 characters, or it is
cut and at most 46 of it are kept in front of the digits. -/
def RoomForSuffix (domainID : String) : Prop :=
  let name := (normalizeDNSName ("custom-domain-" ++ domainID)).toList
  name.length ≤ 59 ∨ 63 < name.length ∧ (keep 63 12 name).length ≤ 46

section Names

variable {sha256 : Hash} {domainID : String}

theorem objectName_length :
    (domainObjectName sha256 domainID).toList.length ≤ 59 ↔ RoomForSuffix domainID := by
  have hlength := sha256.short_length (firstNonEmpty [domainID, normalizeDNSName ("custom-domain-" ++ domainID)])
  unfold domainObjectName RoomForSuffix
  rw [boundedDNSName_eq (by decide)]
  unfold bound
  dsimp only
  split_ifs with hfits
  · constructor
    · exact .inl
    · rintro (h | ⟨h, -⟩)
      · exact h
      · omega
  · rw [List.length_append, List.length_cons, hlength]
    constructor
    · exact fun h => .inr ⟨by omega, by omega⟩
    · rintro (h | ⟨-, h⟩) <;> omega

/-- The compiler and the observer name the same secret exactly if the suffix fits. -/
theorem secretName_eq_iff :
    domainSecretName sha256 domainID = domainObjectName sha256 domainID ++ "-tls" ↔ RoomForSuffix domainID := by
  have hname : IsLabel (domainObjectName sha256 domainID).toList := by
    unfold domainObjectName
    exact (boundedDNSName_isLabel (by decide) (by decide)).1
  have hsuffix : IsLabel (domainObjectName sha256 domainID ++ "-tls").toList := by
    have htls : IsLabel "tls".toList :=
      ⟨List.all_eq_true.1 (by decide), ⟨'t', ['l', 's'], by decide⟩, ⟨['t', 'l'], 's', by decide⟩⟩
    have hdash : ∀ c ∈ ['-'], labelChar c = true := List.all_eq_true.1 (by decide)
    have hjoin := hname.join htls hdash
    rw [String.toList_append]
    simpa using hjoin
  have hlength : (domainObjectName sha256 domainID ++ "-tls").toList.length =
      (domainObjectName sha256 domainID).toList.length + 4 := by
    rw [String.toList_append, List.length_append]
    rfl
  rw [← @objectName_length sha256, ← String.toList_inj]
  unfold domainSecretName
  rw [boundedDNSName_eq (by decide), normalizeDNSName_of_isLabel hsuffix]
  unfold bound
  split_ifs with hfits
  · exact iff_of_true rfl (by omega)
  · refine iff_of_false ?_ (by omega)
    -- A cut name has at most 63 characters.
    intro hcut
    have hcutLength := congrArg List.length hcut
    have hkeep : (keep 63 12 (domainObjectName sha256 domainID ++ "-tls").toList).length ≤ 63 - 12 - 1 := keep_length
    rw [List.length_append, List.length_cons, sha256.short_length] at hcutLength
    omega

end Names

/-! ### What is read back -/

/-- The labels of an object as they are read back. -/
def labelEntries (spec : DomainSpec) : GoJson.StringMap :=
  ((domainLabels spec).map fun label => (label.1, sprint label.2)).reverse

theorem decode_certificate (spec : DomainSpec) (name secretName : String) :
    objectDecoder {} (.obj (certificate spec name secretName ++ [readyStatus])) = some
      { labels := labelEntries spec, dnsNames := [spec.hostname], secretName, issuerName := spec.clusterIssuer
        issuerKind := "ClusterIssuer", issuerGroup := "cert-manager.io"
        conditions := [⟨"Ready", "True"⟩] } := by
  rfl

theorem slice_singleton {α : Type} {zero a : α} {decode : GoJson.Decoder α} {value : Json} {before : List α}
    (h : decode zero value = some a) : GoJson.slice zero decode before (.arr [value]) = some [a] := by
  simp [GoJson.slice, h]

theorem decode_ingress {spec : DomainSpec} (hport : GoJson.int 0 (.num spec.servicePort) = some spec.servicePort)
    (name secretName : String) :
    objectDecoder {} (.obj (ingress spec name secretName)) = some
      { labels := labelEntries spec, tls := [⟨[spec.hostname], secretName⟩]
        rules := [⟨spec.hostname, [⟨spec.serviceName, spec.servicePort⟩]⟩] } := by
  have hbackend : backendDecoder {} (ingressPath spec) = some ⟨spec.serviceName, spec.servicePort⟩ := by
    show (((((GoJson.int 0 (.num spec.servicePort)).map fun n => (⟨spec.serviceName, n⟩ : ObservedBackend)).bind
      some).bind some).bind some).bind some = _
    rw [hport]
    rfl
  have hrule : ruleDecoder {} (ingressRule spec) =
      some ⟨spec.hostname, [⟨spec.serviceName, spec.servicePort⟩]⟩ := by
    show (((GoJson.slice {} backendDecoder [] (.arr [_])).map fun paths =>
      (⟨spec.hostname, paths⟩ : ObservedRule)).bind some).bind some = _
    rw [slice_singleton hbackend]
    rfl
  show (((GoJson.slice {} ruleDecoder [] (.arr [_])).map fun rules =>
    ({ labels := labelEntries spec, tls := [⟨[spec.hostname], secretName⟩], rules } : ObservedDomainObject)).bind
      some).bind some = _
  rw [slice_singleton hrule]
  rfl

theorem labels_match {spec : DomainSpec} {name secretName : String} {plan : DomainPlan}
    (hmanifests : plan.manifests = [certificate spec name secretName, ingress spec name secretName]) :
    observedLabelsMatch (labelEntries spec) plan = true := by
  have hlabels : at? (domainMetadata plan) "labels" = .obj (domainLabels spec) := by
    unfold domainMetadata domainManifest
    rw [hmanifests]
    rfl
  unfold observedLabelsMatch
  rw [hlabels]
  simp only [Bool.and_eq_true, decide_eq_true_eq, List.all_eq_true]
  refine ⟨rfl, ?_⟩
  unfold domainLabels
  simp only [List.forall_mem_cons]
  exact ⟨rfl, rfl, rfl, rfl, rfl, rfl, rfl, by simp⟩

section Ready

variable {spec : DomainSpec} {name secretName : String} {plan : DomainPlan}
  (hmanifests : plan.manifests = [certificate spec name secretName, ingress spec name secretName])
include hmanifests

theorem domainHostname_eq : domainHostname plan = spec.hostname := by
  unfold domainHostname domainManifest
  rw [hmanifests]
  rfl

/-- Everything of a certificate that is read back is as the plan has it, but for its secret. -/
theorem certificateReady_iff :
    certificateReady (some (.obj (certificate spec name secretName ++ [readyStatus]))) plan = true ↔
      secretName = plan.name ++ "-tls" := by
  have hissuer : domainIssuer plan = spec.clusterIssuer := by
    unfold domainIssuer domainManifest
    rw [hmanifests]
    rfl
  unfold certificateReady
  rw [Option.bind_some, decode_certificate]
  simp [labels_match hmanifests, domainHostname_eq hmanifests, hissuer]

theorem ingressReady_iff (hport : GoJson.int 0 (.num spec.servicePort) = some spec.servicePort) :
    ingressReady (some (.obj (ingress spec name secretName))) plan = true ↔ secretName = plan.name ++ "-tls" := by
  have hbackend : domainServiceName plan = spec.serviceName ∧ domainServicePort plan = spec.servicePort := by
    unfold domainServiceName domainServicePort domainBackend domainManifest
    rw [hmanifests]
    exact ⟨rfl, rfl⟩
  unfold ingressReady
  rw [Option.bind_some, decode_ingress hport]
  simp [labels_match hmanifests, domainHostname_eq hmanifests, hbackend]

end Ready

theorem compileDomain_ok {sha256 : Hash} {spec : DomainSpec} {plan : DomainPlan}
    (h : compileDomain sha256 spec = .ok plan) :
    ¬ incomplete spec ∧ ¬ invalidName spec ∧ plan.name = domainObjectName sha256 spec.domainID ∧
    plan.manifests = [certificate spec plan.name (domainSecretName sha256 spec.domainID),
      ingress spec plan.name (domainSecretName sha256 spec.domainID)] := by
  unfold compileDomain at h
  split_ifs at h with hincomplete hinvalid
  obtain rfl := Except.ok.inj h
  exact ⟨hincomplete, hinvalid, rfl, rfl⟩

/-- **An applied custom domain can become ready exactly if its object name leaves room for the suffix of
the secret**; the cleanup always finds the objects under the same name. -/
theorem domain_ready_iff {sha256 : Hash} {spec : DomainSpec} {plan : DomainPlan}
    (h : compileDomain sha256 spec = .ok plan) :
    (∃ certificate ingress cleanup, plan.manifests = [certificate, ingress] ∧
      certificateReady (some (.obj (certificate ++ [readyStatus]))) plan = true ∧
      ingressReady (some (.obj ingress)) plan = true ∧
      compileDomainCleanup sha256 spec.domainID spec.namespace = .ok cleanup ∧ cleanup.name = plan.name) ↔
    RoomForSuffix spec.domainID := by
  obtain ⟨hincomplete, hinvalid, hname, hmanifests⟩ := compileDomain_ok h
  simp only [incomplete, not_or] at hincomplete
  simp only [invalidName, not_or] at hinvalid
  obtain ⟨hid, -, -, -, hnamespace, -, hlow, hhigh, -⟩ := hincomplete
  have hport : GoJson.int 0 (.num spec.servicePort) = some spec.servicePort := if_pos ⟨by omega, by omega⟩
  have hcleanup : compileDomainCleanup sha256 spec.domainID spec.namespace =
      .ok { name := domainObjectName sha256 spec.domainID, «namespace» := spec.namespace
            domainID := spec.domainID } := by
    unfold compileDomainCleanup
    rw [if_neg]
    simp [hid, hnamespace, hinvalid]
  rw [← @secretName_eq_iff sha256, ← hname]
  constructor
  · rintro ⟨certificate, ingress, -, hlist, hready, -⟩
    rw [hmanifests] at hlist
    obtain ⟨rfl, -⟩ := List.cons.inj hlist
    exact (certificateReady_iff hmanifests).1 hready
  · intro hsecret
    exact ⟨_, _, _, hmanifests, (certificateReady_iff hmanifests).2 hsecret,
      (ingressReady_iff hmanifests hport).2 hsecret, hcleanup, hname.symm⟩

namespace Compiled

def sha256 : Hash := .repeated fun _ => 0

def spec (domainID hostname : String) : DomainSpec :=
  { domainID, organizationID := "org_1", projectID := "prj_1", serviceID := "svc_1", hostname
    «namespace» := "org-1--shop", serviceName := "web", servicePort := 3000, generation := 1
    clusterIssuer := "letsencrypt", ingressClassName := "nginx" }

end Compiled

open Compiled in
theorem domain_ready_iff_short :
    ∃ plan, compileDomain sha256 (spec "dom-shop-example-com" "shop.example.com") = .ok plan ∧
      ∃ certificate ingress cleanup, plan.manifests = [certificate, ingress] ∧
        certificateReady (some (.obj (certificate ++ [readyStatus]))) plan = true ∧
        ingressReady (some (.obj ingress)) plan = true ∧
        compileDomainCleanup sha256 "dom-shop-example-com" "org-1--shop" = .ok cleanup ∧ cleanup.name = plan.name := by
  obtain ⟨plan, hplan⟩ : ∃ plan, compileDomain sha256 (spec "dom-shop-example-com" "shop.example.com") = .ok plan :=
    isOk_iff.1 (by decide +kernel)
  exact ⟨plan, hplan, (domain_ready_iff hplan).2 (.inl (by decide +kernel))⟩

open Compiled in
/-- **A domain that is never ready**: the object name has 61 characters, the secret is compiled under a cut
name, and the observer waits for another one. -/
theorem long_domain_never_ready :
    ∃ plan, compileDomain sha256 (spec "dom-checkout-of-the-customer-portal-example-com"
        "checkout.of-the.customer-portal.example.com") = .ok plan ∧
      ∃ certificate ingress, plan.manifests = [certificate, ingress] ∧
        certificateReady (some (.obj (certificate ++ [readyStatus]))) plan = false := by
  have hroom : ¬ RoomForSuffix "dom-checkout-of-the-customer-portal-example-com" := by
    unfold RoomForSuffix
    decide +kernel
  obtain ⟨plan, hplan⟩ : ∃ plan, compileDomain sha256 (spec "dom-checkout-of-the-customer-portal-example-com"
    "checkout.of-the.customer-portal.example.com") = .ok plan := isOk_iff.1 (by decide +kernel)
  obtain ⟨-, -, hname, hmanifests⟩ := compileDomain_ok hplan
  refine ⟨plan, hplan, _, _, hmanifests, eq_false_of_ne_true fun hready => hroom ?_⟩
  have hsecret := (certificateReady_iff hmanifests).1 hready
  rw [hname] at hsecret
  exact secretName_eq_iff.1 hsecret

end RaibitServer.Domains
