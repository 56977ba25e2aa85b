import RaibitServer.Lib.Text

/-!
# Core.Rbac — organization roles and what they permit (`rbac.ts`)
-/

namespace RaibitServer.Core

open Lib

inductive OrganizationMembershipRole
  | OWNER | ADMIN | MAINTAINER | DEVELOPER | DB_ADMIN | VIEWER
  deriving DecidableEq

open OrganizationMembershipRole

/-- `ROLE_PERMISSIONS`. -/
def rolePermissions : OrganizationMembershipRole → List String
  | OWNER => ["*"]
  | ADMIN => ["project:read", "project:create", "project:update", "project:delete",
      "service:create", "service:update", "deploy:run", "env:write", "env:read", "db:create",
      "db:delete", "db:schema:read", "backup:manage", "team:invite", "github:disconnect",
      "github:refresh", "audit:read", "billing:read", "logs:read", "metrics:read", "domain:read",
      "domain:verify", "domain:manage"]
  | MAINTAINER => ["project:read", "project:update", "service:create", "service:update",
      "deploy:run", "env:write", "env:read", "db:connect", "db:schema:read", "db:data:read",
      "logs:read", "metrics:read", "domain:read", "domain:verify"]
  | DEVELOPER => ["project:read", "deploy:run", "logs:read", "metrics:read", "env:write-limited",
      "db:schema:read", "domain:read"]
  | DB_ADMIN => ["project:read", "db:create", "db:delete", "db:connect", "db:schema:read",
      "db:data:read", "db:query", "db:query:write", "backup:manage", "backup:restore",
      "domain:read"]
  | VIEWER => ["project:read", "logs:read", "metrics:read", "domain:read"]

def normalizeOrganizationRoleForRead (value : String) : Option OrganizationMembershipRole :=
  if value ∈ ["OWNER", "owner"] then some OWNER
  else if value ∈ ["ADMIN", "admin"] then some ADMIN
  else if value ∈ ["MAINTAINER", "maintainer"] then some MAINTAINER
  else if value ∈ ["DEVELOPER", "developer"] then some DEVELOPER
  else if value ∈ ["DB_ADMIN", "db_admin", "db-admin"] then some DB_ADMIN
  else if value ∈ ["VIEWER", "viewer", "billing-manager", "project-owner"] then some VIEWER
  else none

/-- A permission that ends in `:*` covers the actions that start with what precedes the star. -/
def wildcardCovers (permission action : String) : Bool :=
  Text.endsWith permission ":*" &&
    Text.startsWith action (String.ofList permission.toList.dropLast)

def can (role action : String) : Bool :=
  match normalizeOrganizationRoleForRead role with
  | none => false
  | some normalizedRole =>
    let permissions := rolePermissions normalizedRole
    if action = "env:write-limited" ∧ permissions.contains "env:write" then true
    else if action = "db:connect-limited" ∧ permissions.contains "db:connect" then true
    else if action = "db:schema:read" ∧
        (permissions.contains "db:connect" ∨ permissions.contains "db:data:read") then true
    else if action = "db:data:read" ∧ permissions.contains "db:connect" then true
    else if action = "db:query:write" ∧ permissions.contains "db:query" then true
    else permissions.contains "*" || permissions.contains action ||
      permissions.any fun permission => wildcardCovers permission action

example : can "db-admin" "backup:restore" = true ∧ can "ADMIN" "backup:restore" = false := by decide

end RaibitServer.Core
