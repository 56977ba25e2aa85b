import RaibitServer.Lib.Json
import RaibitServer.Lib.Regex

/-!
# Core.Secrets — which names are secret, and how values are masked

`packages/core/src/secrets.ts`.  `maskSecrets` walks a JSON value: under a secret name a scalar is cut
to its ends, and in every other string the connection URLs are.
-/

namespace RaibitServer.Core

open Lib Lib.Json

/-- A literal under the flag `i`. -/
def anyCase (s : String) : Regex := Regex.seqs (s.toList.map fun c => .cls fun d => d.toLower = c.toLower)

/-- `[_-]?`. -/
def optionalDash : Regex := Regex.upTo 1 (Regex.oneOf ['_', '-'])

/-- `first[_-]?second`. -/
def dashed (first second : String) : Regex := Regex.seqs [anyCase first, optionalDash, anyCase second]

def secretKeyRe : Regex :=
  Regex.alts [anyCase "secret", anyCase "password", anyCase "token", anyCase "private", anyCase "credential",
    dashed "api" "key", dashed "access" "key", dashed "database" "url", dashed "connection" "url",
    dashed "mongodb" "uri", dashed "redis" "url", dashed "mysql" "url", dashed "mariadb" "url",
    dashed "postgres" "url", dashed "postgresql" "url", anyCase "dsn"]

/-- `(^|[_-])(secret|password|token|credential)s?[_-]?count$`. -/
def secretCountRe : Regex :=
  Regex.seqs [.alt .start (Regex.oneOf ['_', '-']),
    Regex.alts [anyCase "secret", anyCase "password", anyCase "token", anyCase "credential"],
    Regex.upTo 1 (anyCase "s"), optionalDash, anyCase "count", .stop]

def countNameRe : Regex := Regex.alts [anyCase "secretCount", anyCase "plainCount"]

@[irreducible] def isSecretKey (key : String) : Bool :=
  if secretCountRe.isMatch key.toList || countNameRe.isMatch key.toList then false
  else secretKeyRe.isMatch key.toList

def schemes : Regex :=
  Regex.alts [.seq (anyCase "postgres") (Regex.upTo 1 (anyCase "ql")), anyCase "mysql", anyCase "mariadb",
    .seq (anyCase "mongodb") (Regex.upTo 1 (anyCase "+srv")), anyCase "redis", anyCase "rediss", anyCase "nats",
    .seq (anyCase "amqp") (Regex.upTo 1 (anyCase "s")), anyCase "s3"]

/-- Code 39 is the apostrophe. -/
def secretValueRe : Regex :=
  Regex.seqs [.boundary, schemes, Regex.lit "://",
    Regex.plus (Regex.noneOf Text.isJsSpace [Char.ofNat 39, '"', ',', ')'])]

def maskSecretValue (text : String) : String :=
  if text.length ≤ 4 then "****"
  else String.ofList (text.toList.take 2 ++ "****".toList ++ text.toList.drop (text.length - 2))

@[irreducible] def maskSecretLikeString (value : String) : String :=
  String.ofList (secretValueRe.replaceAll (fun m => (maskSecretValue (String.ofList m.text)).toList)
    value.toList)

def isSafeSecretMetadataKey (key : String) : Bool :=
  ["secretname", "connectionsecretname", "credentialsecretuid"].contains (Text.jsLower (Text.jsTrim key))

/-- `String(value)` of a value that is neither null nor of type `object`. -/
def scalarText : Json → Option String
  | .bool b => some (if b then "true" else "false")
  | .num n => some (toString n)
  | .frac text => some text
  | .str s => some s
  | .null | .arr _ | .obj _ => none

/-- The text to cut, for a member whose name is secret. -/
def secretText (key : String) (value : Json) : Option String :=
  if !isSafeSecretMetadataKey key && isSecretKey key then scalarText value else none

mutual

def maskSecrets : Json → Json
  | .arr items => .arr (maskItems items)
  | .str s => .str (maskSecretLikeString s)
  | .obj members => .obj (maskMembers members)
  | .null => .null
  | .bool b => .bool b
  | .num n => .num n
  | .frac text => .frac text

def maskItems : List Json → List Json
  | [] => []
  | item :: items => maskSecrets item :: maskItems items

def maskMembers : List (String × Json) → List (String × Json)
  | [] => []
  | (key, value) :: members =>
    (key, (secretText key value).elim (maskSecrets value) fun text => .str (maskSecretValue text)) ::
      maskMembers members

end

/-- One member of an object. -/
@[irreducible] def maskMember (key : String) (value : Json) : Json :=
  (secretText key value).elim (maskSecrets value) fun text => .str (maskSecretValue text)

theorem maskItems_eq_map (items : List Json) : maskItems items = items.map maskSecrets := by
  induction items with
  | nil => rfl
  | cons item items ih => rw [maskItems, List.map_cons, ih]

theorem member_maskMembers (members : JsonObject) (key : String) :
    Json.member (maskMembers members) key = (Json.member members key).map (maskMember key) := by
  induction members with
  | nil => rfl
  | cons m members ih =>
    obtain ⟨name, value⟩ := m
    rw [maskMembers, Json.member_cons, Json.member_cons, ih]
    by_cases hkey : key = name
    · rw [if_pos hkey, if_pos hkey, hkey, Option.map_some]
      unfold maskMember
      dsimp only
    · rw [if_neg hkey, if_neg hkey]

theorem maskMember_arr (key : String) (items : List Json) :
    maskMember key (.arr items) = .arr (items.map maskSecrets) := by
  have hnone : secretText key (.arr items) = none := by
    unfold secretText
    split_ifs <;> rfl
  unfold maskMember
  rw [hnone, Option.elim_none, maskSecrets, maskItems_eq_map]

/-! ### Connection URLs -/

example : maskSecretLikeString "db at redis://cache:6379, ok" = "db at re****79, ok" := by decide +kernel

end RaibitServer.Core
