import RaibitServer.Core.Ids
import RaibitServer.Core.Rbac
import RaibitServer.Lib.Guard
import RaibitServer.Lib.Keyed
import RaibitServer.Lib.Regex

/-!
# Membership.Store — members and invites of the memory store

`createOrganizationForUser`, `addMember` and `removeMember` of `store.ts`, the transitions of
`membership-transition-memory.ts` and the invites of `organization-invite-memory.ts`.  They work on one list
of members: a role is found by the first row of a user, and a row is rewritten or cut out in place.  What
was written before an error stays, so every operation returns its result together with the store.

Left out are audit logs, session versions and timestamps that no function reads.  A time is a number of
milliseconds; the ISO texts of the source compare in the same order.
-/

namespace RaibitServer.Membership

open Lib Core OrganizationMembershipRole

/-! ### Rows -/

structure Organization where
  id : String
  slug : String

/-- `banExpiresAt` is `none` where there is no date that can be read. -/
structure MemberUser where
  id : String
  email : String
  emailVerified : Bool := false
  approvalStatus : String := "PENDING"
  bannedAt : Bool := false
  banExpiresAt : Option Int := none

/-- A role is stored as it was given, in one of the spellings of `rbac.ts`. -/
structure MemberRow where
  organizationId : String
  userId : String
  role : String
  version : Option Nat := none
  deriving DecidableEq, Repr

def MemberRow.canonical (row : MemberRow) : Option OrganizationMembershipRole :=
  normalizeOrganizationRoleForRead row.role

/-- `version ?? 1`. -/
def MemberRow.currentVersion (row : MemberRow) : Nat := row.version.getD 1

structure Invite where
  id : String
  organizationId : String
  email : String
  role : OrganizationMembershipRole
  tokenHash : String
  tokenVersion : Nat
  invitedByUserId : String
  expiresAt : Int
  acceptedAt : Option Int := none
  revokedAt : Option Int := none
  deriving DecidableEq

/-- Neither accepted nor revoked. -/
def Invite.pending (invite : Invite) : Bool := invite.acceptedAt.isNone && invite.revokedAt.isNone

structure MemberStore where
  organizations : Keyed Organization.id
  users : Keyed MemberUser.id
  members : List MemberRow
  organizationInvites : List Invite

/-- What a call throws: its code or message, and the status. -/
structure Thrown where
  code : String
  statusCode : Nat
  deriving DecidableEq, Repr

/-! ### Roles (`rbac.ts`) -/

def roleText : OrganizationMembershipRole → String
  | OWNER => "OWNER"
  | ADMIN => "ADMIN"
  | MAINTAINER => "MAINTAINER"
  | DEVELOPER => "DEVELOPER"
  | DB_ADMIN => "DB_ADMIN"
  | VIEWER => "VIEWER"

@[simp] theorem normalize_roleText (role : OrganizationMembershipRole) :
    normalizeOrganizationRoleForRead (roleText role) = some role := by
  cases role <;> decide

def parseOrganizationMembershipRoleForMutation (value : String) : Except Thrown OrganizationMembershipRole :=
  if value = "billing-manager" ∨ value = "project-owner" then .error ⟨"membership_role_invalid", 400⟩
  else orThrow (normalizeOrganizationRoleForRead value) ⟨"membership_role_invalid", 400⟩

theorem parseRole_ok {value : String} {role : OrganizationMembershipRole}
    (h : parseOrganizationMembershipRoleForMutation value = .ok role) :
    normalizeOrganizationRoleForRead value = some role := by
  unfold parseOrganizationMembershipRoleForMutation at h
  split at h
  · cases h
  · exact orThrow_ok.1 h

/-- The check of a change of role to `target`, which was parsed before. -/
def membershipRoleTransition (actorRole : String) (target : OrganizationMembershipRole) (currentRole : String)
    (ownerCount : Nat) : Except Thrown Unit :=
  let actor := normalizeOrganizationRoleForRead actorRole
  let current := normalizeOrganizationRoleForRead currentRole
  if current = some OWNER ∧ target ≠ OWNER ∧ ownerCount ≤ 1 then .error ⟨"membership_last_owner", 409⟩
  else if actor = some OWNER then .ok ()
  else if actor = some ADMIN ∧ target ≠ OWNER ∧ current ≠ some OWNER then .ok ()
  else .error ⟨"membership_role_transition_forbidden", 403⟩

def requireMembershipTransitionAuthority (actor current target : OrganizationMembershipRole) : Except Thrown Unit :=
  if actor = OWNER then .ok ()
  else if actor = ADMIN ∧ current ≠ OWNER ∧ target ≠ OWNER then .ok ()
  else .error ⟨"MEMBERSHIP_FORBIDDEN", 403⟩

def requireMembershipRemovalAuthority (actor target : OrganizationMembershipRole) : Except Thrown Unit :=
  if actor = OWNER then .ok ()
  else if actor = ADMIN ∧ target ≠ OWNER then .ok ()
  else .error ⟨"MEMBERSHIP_FORBIDDEN", 403⟩

/-! ### Reading members -/

def notFound : Thrown := ⟨"MEMBERSHIP_NOT_FOUND", 404⟩

/-- The rows of a user in an organization. -/
def ofUser (organizationId userId : String) (row : MemberRow) : Bool :=
  row.organizationId = organizationId && row.userId = userId

def isOwner (organizationId : String) (row : MemberRow) : Bool :=
  row.organizationId = organizationId && row.canonical = some OWNER

def ownerCount (store : MemberStore) (organizationId : String) : Nat :=
  (store.members.filter (isOwner organizationId)).length

def memoryMembershipId (sha256 : Label.Hash) (row : MemberRow) : String :=
  "mem_" ++ String.ofList (Hex.encode ((sha256.sum (row.organizationId ++ ":" ++ row.userId)).take 12))

/-- The row of an id in an organization. -/
def ofId (sha256 : Label.Hash) (organizationId membershipId : String) (row : MemberRow) : Bool :=
  row.organizationId = organizationId && memoryMembershipId sha256 row = membershipId

def requireOrganizationMember (store : MemberStore) (organizationId userId : String) : Except Thrown MemberRow := do
  throwIf (store.organizations.get? organizationId = none) notFound
  orThrow (store.members.find? (ofUser organizationId userId)) notFound

def findMemoryMembership (sha256 : Label.Hash) (store : MemberStore) (organizationId membershipId : String) :
    Except Thrown MemberRow :=
  orThrow (store.members.find? (ofId sha256 organizationId membershipId)) notFound

def canonicalRole (row : MemberRow) : Except Thrown OrganizationMembershipRole := orThrow row.canonical notFound

structure OrganizationMemberRecord where
  id : String
  organizationId : String
  userId : String
  role : OrganizationMembershipRole
  version : Nat
  email : String
  deriving DecidableEq

def memoryMemberView (sha256 : Label.Hash) (store : MemberStore) (row : MemberRow) :
    Except Thrown OrganizationMemberRecord := do
  let user ← orThrow (store.users.get? row.userId) notFound
  let role ← canonicalRole row
  return { id := memoryMembershipId sha256 row, organizationId := row.organizationId, userId := row.userId, role
           version := row.currentVersion, email := user.email }

/-- `incrementSessionVersion`, as far as it can throw. -/
def incrementSessionVersion (store : MemberStore) (userId : String) : Except Thrown Unit :=
  throwIf (store.users.get? userId = none) ⟨"user not found: " ++ userId, 404⟩

/-! ### Organizations -/

def reservedOrganizationRouteSlugs : List String :=
  ["app", "api", "admin", "apps", "preview", "console", "resources", "logs", "metrics"]

def parseOrganizationRouteSlug (value : String) : Except Thrown String := do
  let edge := Text.lowerAlnum
  let inner := Text.orOneOf Text.lowerAlnum ['-']
  throwIf (¬ (Text.edged edge inner value.toList.length value = true ∧ (Regex.lit "--").isMatch value.toList = false))
    ⟨"organization_route_slug_invalid", 400⟩
  throwIf (63 < value.utf8ByteSize) ⟨"organization_route_slug_too_long", 400⟩
  throwIf (value ∈ reservedOrganizationRouteSlugs) ⟨"organization_route_slug_reserved", 400⟩
  return value

structure CreateOrganization where
  actorUserId : String
  name : String
  slug : String

/-- The actor and the slug; nothing here reads the name again. -/
def parseAuthenticatedOrganizationCreateInput (input : CreateOrganization) : Except Thrown (String × String) := do
  let actorUserId := Text.jsTrim input.actorUserId
  throwIf (actorUserId = "") ⟨"organization_creation_auth_required", 401⟩
  let name := Text.jsTrim input.name
  throwIf (name = "" ∨ 128 < Text.jsLength name ∨ 256 < name.utf8ByteSize) ⟨"organization_name_invalid", 400⟩
  let slug ← parseOrganizationRouteSlug input.slug
  return (actorUserId, slug)

def assertOrganizationCreatorEligible (user : Option MemberUser) (now : Int) : Except Thrown Unit :=
  match user with
  | none => .error ⟨"organization_creation_auth_required", 401⟩
  | some user => do
    throwIf (user.emailVerified = false) ⟨"email_not_verified", 403⟩
    throwIf (Text.upper (Text.jsOr user.approvalStatus "PENDING") ≠ "APPROVED") ⟨"account_not_approved", 403⟩
    throwIf (user.bannedAt = true ∧ user.banExpiresAt.all (fun expires => now < expires) = true) ⟨"account_banned", 403⟩

/-- The actor and the organization that a request makes. -/
def checkedOrganization (store : MemberStore) (now : Int) (input : CreateOrganization) :
    Except Thrown (String × Organization) := do
  let (actorUserId, slug) ← parseAuthenticatedOrganizationCreateInput input
  assertOrganizationCreatorEligible (store.users.get? actorUserId) now
  throwIf (store.organizations.rows.any (fun organization => organization.slug = slug) = true)
    ⟨"organization_slug_already_exists", 409⟩
  return (actorUserId, ⟨stableId "org" [slug], slug⟩)

def createOrganizationForUser (store : MemberStore) (now : Int) (input : CreateOrganization) :
    Except Thrown Organization × MemberStore :=
  match checkedOrganization store now input with
  | .error e => (.error e, store)
  | .ok (actorUserId, organization) =>
    (.ok organization, { store with
      organizations := store.organizations.put organization
      members := store.members ++ [{ organizationId := organization.id, userId := actorUserId, role := "OWNER" }] })

/-! ### `addMember` and `removeMember` (`store.ts`) -/

structure AddMember where
  organizationId : String
  userId : String
  role : String
  actorRole : Option String

/-- The text that is stored: a role in lower case as it is, any other in capitals. -/
def storedRole (role : String) (parsed : OrganizationMembershipRole) : String :=
  if role = Text.jsLower role then role else roleText parsed

/-- The check of the acting member, where one is named. -/
def actorTransition (actorRole : Option String) (target : OrganizationMembershipRole) (currentRole : String)
    (owners : Nat) : Except Thrown Unit :=
  match actorRole with
  | some actorRole => membershipRoleTransition actorRole target currentRole owners
  | none => .ok ()

/-- The checks of `addMember`: the role to store, and the row that is there. -/
def checkedMember (store : MemberStore) (input : AddMember) : Except Thrown (String × Option MemberRow) := do
  let role ← parseOrganizationMembershipRoleForMutation input.role
  let existing := store.members.find? (ofUser input.organizationId input.userId)
  let owners := ownerCount store input.organizationId
  actorTransition input.actorRole role (Text.jsOr (existing.elim "" MemberRow.role) "VIEWER") owners
  throwIf (existing.bind MemberRow.canonical = some OWNER ∧ role ≠ OWNER ∧ owners ≤ 1) ⟨"membership_last_owner", 409⟩
  return (storedRole input.role role, existing)

def addMember (store : MemberStore) (input : AddMember) : Except Thrown MemberRow × MemberStore :=
  match checkedMember store input with
  | .error e => (.error e, store)
  | .ok (role, some existing) =>
    if existing.role = role then (.ok existing, store)
    else (.ok { existing with role }, { store with
      members := Table.updateFirst (ofUser input.organizationId input.userId) (fun row => { row with role })
        store.members })
  | .ok (role, none) =>
    let member : MemberRow := { organizationId := input.organizationId, userId := input.userId, role }
    (.ok member, { store with members := store.members ++ [member] })

def removeMember (store : MemberStore) (organizationId userId : String) :
    Except Thrown (Option MemberRow) × MemberStore :=
  match store.members.find? (ofUser organizationId userId) with
  | none => (.ok none, store)
  | some member =>
    if member.canonical = some OWNER ∧ ownerCount store organizationId ≤ 1 then
      (.error ⟨"membership_last_owner", 409⟩, store)
    else (.ok (some member), { store with members := store.members.eraseP (ofUser organizationId userId) })

/-! ### Transitions (`membership-transition-memory.ts`) -/

structure RoleChange where
  organizationId : String
  membershipId : String
  actorUserId : String
  role : OrganizationMembershipRole
  expectedVersion : Nat

def staleMembership : Thrown := ⟨"STALE_MEMBERSHIP", 409⟩

def lastOwner : Thrown := ⟨"LAST_OWNER", 409⟩

/-- The target of a change of role and its role. -/
def checkedRoleChange (sha256 : Label.Hash) (store : MemberStore) (input : RoleChange) :
    Except Thrown (MemberRow × OrganizationMembershipRole) := do
  let actor ← requireOrganizationMember store input.organizationId input.actorUserId
  let target ← findMemoryMembership sha256 store input.organizationId input.membershipId
  let actorRole ← canonicalRole actor
  let currentRole ← canonicalRole target
  requireMembershipTransitionAuthority actorRole currentRole input.role
  throwIf (target.currentVersion ≠ input.expectedVersion) staleMembership
  throwIf (currentRole = OWNER ∧ input.role ≠ OWNER ∧ ownerCount store input.organizationId ≤ 1) lastOwner
  return (target, currentRole)

def withRole (role : OrganizationMembershipRole) (row : MemberRow) : MemberRow :=
  { row with role := roleText role, version := some (row.currentVersion + 1) }

def changeMemoryOrganizationMembershipRole (sha256 : Label.Hash) (store : MemberStore) (input : RoleChange) :
    Except Thrown OrganizationMemberRecord × MemberStore :=
  match checkedRoleChange sha256 store input with
  | .error e => (.error e, store)
  | .ok (target, currentRole) =>
    if currentRole = input.role then (memoryMemberView sha256 store target, store)
    else
      let changed := { store with
        members := Table.updateFirst (ofId sha256 input.organizationId input.membershipId) (withRole input.role)
          store.members }
      ((do incrementSessionVersion changed target.userId
           memoryMemberView sha256 changed (withRole input.role target)), changed)

structure MemberRemoval where
  organizationId : String
  membershipId : String
  actorUserId : String
  expectedVersion : Nat

def checkedRemoval (sha256 : Label.Hash) (store : MemberStore) (input : MemberRemoval) : Except Thrown MemberRow := do
  let actor ← requireOrganizationMember store input.organizationId input.actorUserId
  let target ← findMemoryMembership sha256 store input.organizationId input.membershipId
  let actorRole ← canonicalRole actor
  let targetRole ← canonicalRole target
  requireMembershipRemovalAuthority actorRole targetRole
  throwIf (target.currentVersion ≠ input.expectedVersion) staleMembership
  throwIf (targetRole = OWNER ∧ ownerCount store input.organizationId ≤ 1) lastOwner
  return target

def removeMemoryOrganizationMember (sha256 : Label.Hash) (store : MemberStore) (input : MemberRemoval) :
    Except Thrown Unit × MemberStore :=
  match checkedRemoval sha256 store input with
  | .error e => (.error e, store)
  | .ok target =>
    (incrementSessionVersion store target.userId, { store with
      members := store.members.eraseP (ofId sha256 input.organizationId input.membershipId) })

def checkedLeave (store : MemberStore) (organizationId actorUserId : String) (expectedVersion : Nat) :
    Except Thrown MemberRow := do
  let target ← requireOrganizationMember store organizationId actorUserId
  throwIf (target.currentVersion ≠ expectedVersion) staleMembership
  let role ← canonicalRole target
  throwIf (role = OWNER ∧ ownerCount store organizationId ≤ 1) lastOwner
  return target

def leaveMemoryOrganization (store : MemberStore) (organizationId actorUserId : String) (expectedVersion : Nat) :
    Except Thrown Unit × MemberStore :=
  match checkedLeave store organizationId actorUserId expectedVersion with
  | .error e => (.error e, store)
  | .ok _ =>
    (incrementSessionVersion store actorUserId, { store with
      members := store.members.eraseP (ofUser organizationId actorUserId) })

/-! ### Invites (`organization-invite-memory.ts`) -/

structure InviteInput where
  id : String
  organizationId : String
  email : String
  role : OrganizationMembershipRole
  tokenHash : String
  invitedByUserId : String
  expiresAt : Int
  createdAt : Int

/-- The canonical role of the first row of a user. -/
def roleOf (store : MemberStore) (organizationId userId : String) : Option OrganizationMembershipRole :=
  (store.members.find? (ofUser organizationId userId)).bind MemberRow.canonical

def requireInviter (store : MemberStore) (organizationId actorUserId : String) (target : OrganizationMembershipRole) :
    Except Thrown Unit := do
  throwIf (store.organizations.get? organizationId = none) ⟨"organization_invite_forbidden", 403⟩
  let actorRole := roleOf store organizationId actorUserId
  throwIf ((actorRole ≠ some OWNER ∧ actorRole ≠ some ADMIN) ∨ (actorRole = some ADMIN ∧ target = OWNER))
    ⟨"organization_invite_forbidden", 403⟩

/-- The invites of an address to an organization. -/
def addressedTo (organizationId email : String) (invite : Invite) : Bool :=
  invite.organizationId = organizationId && invite.email = email

/-- `Math.max` of the versions so far, and zero where there is none. -/
def lastTokenVersion (store : MemberStore) (organizationId email : String) : Nat :=
  ((store.organizationInvites.filter (addressedTo organizationId email)).map Invite.tokenVersion).foldl max 0

/-- The pending invites of an address are revoked. -/
def superseded (organizationId email : String) (now : Int) (invite : Invite) : Invite :=
  if addressedTo organizationId email invite && invite.pending then { invite with revokedAt := some now } else invite

def newInvite (store : MemberStore) (input : InviteInput) : Invite :=
  { id := input.id, organizationId := input.organizationId, email := input.email, role := input.role
    tokenHash := input.tokenHash, tokenVersion := lastTokenVersion store input.organizationId input.email + 1
    invitedByUserId := input.invitedByUserId, expiresAt := input.expiresAt }

def replaceMemoryOrganizationInvite (store : MemberStore) (input : InviteInput) :
    Except Thrown Invite × MemberStore :=
  match requireInviter store input.organizationId input.invitedByUserId input.role with
  | .error e => (.error e, store)
  | .ok _ =>
    (.ok (newInvite store input), { store with
      organizationInvites :=
        store.organizationInvites.map (superseded input.organizationId input.email input.createdAt) ++
          [newInvite store input] })

def revokeMemoryOrganizationInviteAfterDeliveryFailure (store : MemberStore) (id : String) (now : Int) :
    MemberStore :=
  { store with
    organizationInvites := Table.updateFirst (fun invite => invite.id = id && invite.pending)
      (fun invite => { invite with revokedAt := some now }) store.organizationInvites }

/-- The pending invite of an organization with an id. -/
def revocable (organizationId inviteId : String) (invite : Invite) : Bool :=
  invite.id = inviteId && invite.organizationId = organizationId && invite.pending

def checkedRevocation (store : MemberStore) (organizationId inviteId actorUserId : String) : Except Thrown Unit := do
  let actor ← requireOrganizationMember store organizationId actorUserId
  let invite ← orThrow (store.organizationInvites.find? (revocable organizationId inviteId))
    ⟨"INVITE_NOT_FOUND", 404⟩
  let actorRole ← canonicalRole actor
  requireMembershipRemovalAuthority actorRole invite.role

def revokeMemoryOrganizationInvite (store : MemberStore) (organizationId inviteId actorUserId : String) (now : Int) :
    Except Thrown Unit × MemberStore :=
  match checkedRevocation store organizationId inviteId actorUserId with
  | .error e => (.error e, store)
  | .ok _ =>
    (.ok (), { store with
      organizationInvites := Table.updateFirst (revocable organizationId inviteId)
        (fun invite => { invite with revokedAt := some now }) store.organizationInvites })

inductive InviteAcceptance
  | accepted (organizationId : String) (role : OrganizationMembershipRole)
  | alreadyMember
  deriving DecidableEq

/-- The invite that a token opens at a time. -/
def redeemable (tokenHash : String) (now : Int) (invite : Invite) : Bool :=
  invite.tokenHash = tokenHash && invite.pending && decide (now < invite.expiresAt)

/-- The invite that a user accepts with a token, where they may. -/
def acceptableInvite (store : MemberStore) (tokenHash userId : String) (now : Int) : Option Invite := do
  let invite ← store.organizationInvites.find? (redeemable tokenHash now)
  let user ← store.users.get? userId
  if user.emailVerified = true ∧ user.email = invite.email then some invite else none

def acceptMemoryOrganizationInvite (store : MemberStore) (tokenHash userId : String) (now : Int) :
    Option InviteAcceptance × MemberStore :=
  match acceptableInvite store tokenHash userId now with
  | none => (none, store)
  | some invite =>
    let accepted := { store with
      organizationInvites := Table.updateFirst (redeemable tokenHash now)
        (fun invite => { invite with acceptedAt := some now }) store.organizationInvites }
    if (store.members.find? (ofUser invite.organizationId userId)).isSome then (some .alreadyMember, accepted)
    else (some (.accepted invite.organizationId invite.role), { accepted with
      members := store.members ++
        [{ organizationId := invite.organizationId, userId, role := roleText invite.role }] })

end RaibitServer.Membership
