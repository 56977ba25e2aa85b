import RaibitServer.Core.Ids
import RaibitServer.Lib.Guard

/-!
# Domains.Record — custom domains of the control plane

`domain.ts`: the record of a custom domain, the check of its hostname, and the four changes that users
ask for.  Times are in milliseconds, and an owner column that is NULL in the table is the empty text.
-/

namespace RaibitServer.Domains

open Lib

inductive DomainStatus
  | pendingVerification
  | verified
  | routing
  | ready
  | failed
  | deleting
  deriving DecidableEq, Repr

inductive DomainTlsStatus
  | pending
  | issuing
  | ready
  | failed
  deriving DecidableEq, Repr

structure CustomDomainRecord where
  id : String
  organizationId : String
  projectId : String
  serviceId : String
  hostname : String
  status : DomainStatus
  verificationTokenHash : Option String
  verificationVersion : Nat
  issuedAt : Option Int
  expiresAt : Option Int
  verifiedAt : Option Int
  verificationRequestedAt : Option Int
  lastCheckedAt : Option Int
  nextCheckAt : Option Int
  consecutiveFailures : Nat
  tlsStatus : DomainTlsStatus
  desiredGeneration : Nat
  controllerLeaseGeneration : Nat
  certificateObservedGeneration : Nat
  routeObservedGeneration : Nat
  cleanupRequiredForVersion : Option Nat
  certificateAbsentObservedVersion : Option Nat
  routeAbsentObservedVersion : Option Nat
  deletionRequestedAt : Option Int
  actorUserId : String
  lastErrorCode : Option String
  lastErrorMessage : Option String
  createdAt : Int
  updatedAt : Int
  deriving DecidableEq, Repr

structure DomainLifecycleError where
  code : String
  statusCode : Nat
  deriving DecidableEq, Repr

/-! ### Hostnames -/

/-- What the runtime answers: `isIP` of `node:net`, as a condition, and `domainToASCII` of `node:url`. -/
structure Runtime where
  isIP : String → Bool
  domainToASCII : String → String

/-- `replace(/\.$/, '')`. -/
def stripDot (s : String) : String :=
  if s.toList.getLast? = some '.' then String.ofList s.toList.dropLast else s

def invalidHostname : DomainLifecycleError := ⟨"DOMAIN_HOSTNAME_INVALID", 400⟩

/-- A label of at most 63 characters, `^[a-z0-9](?:[a-z0-9-]*[a-z0-9])?$`. -/
def hostLabelPattern (label : String) : Bool := Text.edged Text.lowerAlnum Label.labelChar 61 label

def normalizeCustomHostname (runtime : Runtime) (value : String) (platformZones : Option (List String)) :
    Except DomainLifecycleError String := do
  let candidate := stripDot (Text.jsLower (Text.jsTrim value))
  throwIf (candidate = "" ∨ '*' ∈ candidate.toList ∨ runtime.isIP candidate = true) invalidHostname
  let hostname := Text.jsLower (runtime.domainToASCII candidate)
  let labels := (hostname.toList.splitOn '.').map String.ofList
  throwIf (hostname = "" ∨ Text.jsLength hostname > 253 ∨ labels.length < 2 ∨
    labels.any (fun label => !hostLabelPattern label) = true) invalidHostname
  let zones := (platformZones.getD ["raibitserver.app"]).map fun zone =>
    runtime.domainToASCII (stripDot (Text.jsLower (Text.jsTrim zone)))
  let owned := zones.filter fun zone => zone ≠ ""
  throwIf (owned.any (fun zone => hostname = zone || Text.endsWith hostname ("." ++ zone)) = true)
    ⟨"DOMAIN_PLATFORM_ZONE_FORBIDDEN", 400⟩
  return hostname

/-! ### Challenges -/

def challengeTtlMs : Int := 24 * 60 * 60 * 1000

def hashDomainChallenge (sha256 : Label.Hash) (token : String) : String :=
  String.ofList (Hex.encode (sha256.sum token))

structure IssueInput where
  id : String
  organizationId : String
  projectId : String
  serviceId : String
  hostname : String
  actorUserId : String

/-- The record of a new domain; the challenge token is drawn at random. -/
def issueCustomDomain (sha256 : Label.Hash) (input : IssueInput) (challengeToken : String) (now : Int) :
    CustomDomainRecord :=
  { id := input.id
    organizationId := input.organizationId
    projectId := input.projectId
    serviceId := input.serviceId
    hostname := input.hostname
    status := .pendingVerification
    verificationTokenHash := some (hashDomainChallenge sha256 challengeToken)
    verificationVersion := 1
    issuedAt := some now
    expiresAt := some (now + challengeTtlMs)
    verifiedAt := none
    verificationRequestedAt := none
    lastCheckedAt := none
    nextCheckAt := none
    consecutiveFailures := 0
    tlsStatus := .pending
    desiredGeneration := 1
    controllerLeaseGeneration := 0
    certificateObservedGeneration := 0
    routeObservedGeneration := 0
    cleanupRequiredForVersion := none
    certificateAbsentObservedVersion := none
    routeAbsentObservedVersion := none
    deletionRequestedAt := none
    actorUserId := input.actorUserId
    lastErrorCode := none
    lastErrorMessage := none
    createdAt := now
    updatedAt := now }

end RaibitServer.Domains
