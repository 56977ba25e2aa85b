import RaibitServer.Lib.Guard
import RaibitServer.Recovery.Types

/-!
# Recovery.Provenance — request bodies, object keys and source generations
(`resource-recovery-provenance.ts`)
-/

namespace RaibitServer.Recovery

open Lib

def recoveryRecord : Json → Except Thrown JsonObject
  | .obj members => .ok members
  | _ => .error (.recovery "RECOVERY_INPUT_INVALID" 400)

/-! ### Patterns -/

/-- `[A-Za-z0-9._:-]`. -/
def uidChar : Char → Bool := Text.orOneOf Char.isAlphanum ['.', '_', ':', '-']

/-- `[A-Za-z0-9_-]`. -/
def segmentChar : Char → Bool := Text.orOneOf Char.isAlphanum ['_', '-']

/-- `[a-z0-9-]`. -/
def labelChar : Char → Bool := Text.orOneOf Text.lowerAlnum ['-']

/-- `^[A-Za-z0-9][A-Za-z0-9._:-]{0,127}$`. -/
def isUid : String → Bool := Text.headTail Char.isAlphanum uidChar 127

/-- `^[a-z0-9][a-z0-9./_:-]*@sha256:[0-9a-f]{64}$`; the first class has no `@`, so the name ends at
the first one. -/
def isDigestPinned (s : String) : Bool :=
  let name := s.toList.takeWhile (· ≠ '@')
  let rest := s.toList.dropWhile (· ≠ '@')
  name.head?.any Text.lowerAlnum &&
    name.all (Text.orOneOf Text.lowerAlnum ['.', '/', '_', ':', '-']) &&
    decide (rest.take 8 = "@sha256:".toList) && (rest.drop 8).all Text.lowerHex &&
    decide ((rest.drop 8).length = 64)

/-- `@sha256:0{64}$`. -/
def isZeroDigest (s : String) : Bool :=
  ("@sha256:".toList ++ List.replicate 64 '0').isSuffixOf s.toList

/-! ### The request body -/

structure RecoveryBody where
  requestIdempotencyKey : String
  formatVersion : Nat
  name : Option String

def bodyKeys (restore : Bool) : List String :=
  ["requestIdempotencyKey", "formatVersion"] ++ if restore then ["name"] else []

def isFormatOne : Option Json → Bool
  | some (.num n) => decide (n = 1)
  | _ => false

def recoveryBody (input : Json) (restore : Bool) : Except Thrown RecoveryBody := do
  let invalid := Thrown.recovery "RECOVERY_INPUT_INVALID" 400
  let body ← recoveryRecord input
  throwIf (body.any fun m => !(bodyKeys restore).contains m.1) invalid
  let key ← orThrow (Json.asString (Json.member body "requestIdempotencyKey")) invalid
  throwIf (Text.bounded uidChar 1 128 key = false) invalid
  throwIf (isFormatOne (Json.member body "formatVersion") = false) invalid
  let name := Json.asString (Json.member body "name")
  throwIf (restore ∧ !name.any (Text.headTail Char.isLower labelChar 47)) invalid
  pure { requestIdempotencyKey := key, formatVersion := 1, name }

/-! ### Keys and hashes -/

def canonicalRecoveryJson : Json → List Char := Json.canonical

def recoveryHash (P : Platform) (value : List Char) : String := P.sha256 value

def recoverySegment (value : String) : Except Thrown String :=
  if Text.headTail Char.isAlphanum segmentChar 127 value then .ok value
  else .error (.recovery "RECOVERY_ID_INVALID" 400)

def recoveryObjectKey (organizationId resourceId id : String) (attempt : Nat) :
    Except Thrown String := do
  throwIf (attempt < 1 ∨ 3 < attempt) (recoveryError "RECOVERY_ATTEMPT_INVALID")
  let organization ← recoverySegment organizationId
  let resource ← recoverySegment resourceId
  let backup ← recoverySegment id
  pure ("organizations/" ++ organization ++ "/resources/" ++ resource ++ "/backups/" ++ backup ++
    "/attempts/" ++ toString attempt ++ "/artifact.v1")

/-! ### Provenance of a source -/

def imageSchema : String := "raibitserver.provider-image/v1"

/-- `Number.isSafeInteger(n) && n >= 1`. -/
def safeGeneration : Option Json → Option Int
  | some (.num n) => if 1 ≤ n ∧ n ≤ 9007199254740991 then some n else none
  | _ => none

def captureImage (P : Platform) (image : JsonObject) : Option RecoveryImage := do
  let schema ← Json.asString (Json.member image "schema")
  let text ← Json.asString (Json.member image "image")
  let workloadUid ← Json.asString (Json.member image "workloadUid")
  let workloadGeneration ← safeGeneration (Json.member image "workloadGeneration")
  let observedAt ← Json.asString (Json.member image "observedAt")
  if schema = imageSchema ∧ isDigestPinned text ∧ isZeroDigest text = false ∧ isUid workloadUid ∧
      (P.dateParse observedAt).isSome then
    some { image := text, workloadUid, workloadGeneration, observedAt }
  else none

def captureIdentity (resource : RecoveryResource) (identity : JsonObject) :
    Option (ProviderIdentity × String × String) := do
  let ns ← Json.asString (Json.member identity "namespace")
  let name ← Json.asString (Json.member identity "name")
  let uid ← Json.asString (Json.member resource.desiredState "credentialSecretUID")
  let generation ← Json.asString (Json.member resource.desiredState "credentialSecretGeneration")
  if Text.edged Text.lowerAlnum labelChar 61 ns ∧ Text.edged Text.lowerAlnum labelChar 50 name ∧
      isUid uid ∧ Text.bounded segmentChar 43 43 generation ∧
      resource.connectionSecretName = some (name ++ "-connection") then
    some ({ ns, name }, uid, generation)
  else none

structure CapturedProvenance where
  sourceSpec : JsonObject
  sourceProvenance : RecoveryProvenance
  sourceGeneration : String

/-- The keys of `desiredSpec` that a recovery keeps. -/
def recoveredSpecKeys : List String :=
  ["storageMb", "storageGb", "databaseName", "database", "username", "bucket", "collection", "topic"]

def sourceSpecOf (resource : RecoveryResource) : JsonObject :=
  [("type", .str resource.type), ("plan", .str resource.plan), ("region", .str resource.region),
    ("version", resource.version.elim .null .str),
    ("desiredSpec", .obj (resource.desiredSpec.filter fun m => recoveredSpecKeys.contains m.1))]

/-- What `sourceGeneration` hashes: everything but the time the image was observed. -/
def incarnationJson (resource : RecoveryResource) (p : RecoveryProvenance) : Json :=
  .obj [("resourceId", .str resource.id), ("projectId", .str resource.projectId),
    ("engine", .str resource.engine), ("provider", .str resource.provider),
    ("sourceSpec", .obj (sourceSpecOf resource)),
    ("sourceProvenance", .obj [
      ("providerImageProvenance", .obj [("schema", .str imageSchema),
        ("image", .str p.providerImageProvenance.image),
        ("workloadUid", .str p.providerImageProvenance.workloadUid),
        ("workloadGeneration", .num p.providerImageProvenance.workloadGeneration)]),
      ("providerIdentity", .obj [("namespace", .str p.providerIdentity.ns),
        ("name", .str p.providerIdentity.name)]),
      ("credentialSecretUID", .str p.credentialSecretUID),
      ("credentialSecretGeneration", .str p.credentialSecretGeneration)])]

def captureRecoveryProvenance (P : Platform) (resource : RecoveryResource) :
    Except Thrown CapturedProvenance := do
  let noImage := recoveryError "SOURCE_IMAGE_PROVENANCE_UNAVAILABLE"
  let image ← orThrow (Json.asObject (Json.member resource.desiredState "providerImageProvenance"))
    noImage
  let identity ← orThrow (Json.asObject (Json.member resource.desiredState "providerIdentity"))
    noImage
  let image ← orThrow (captureImage P image) noImage
  let (providerIdentity, uid, generation) ←
    orThrow (captureIdentity resource identity) (recoveryError "SOURCE_PROVENANCE_UNAVAILABLE")
  let sourceProvenance : RecoveryProvenance :=
    { providerImageProvenance := image, providerIdentity, credentialSecretUID := uid,
      credentialSecretGeneration := generation }
  let hash := recoveryHash P (canonicalRecoveryJson (incarnationJson resource sourceProvenance))
  pure { sourceSpec := sourceSpecOf resource, sourceProvenance,
         sourceGeneration := "resource-incarnation/v1:sha256:" ++ hash }

end RaibitServer.Recovery
