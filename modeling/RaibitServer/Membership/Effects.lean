import RaibitServer.Lib.Run
import RaibitServer.Membership.Store

/-!
# Membership.Effects — what a call can do to the members and the invites

Every call has one of the effects of `Effect`, each with the checks that were passed (`exec_effect`).  What
holds along a run is proved by cases over the effects and never looks at the code again.
-/

namespace RaibitServer.Membership

open Lib Core OrganizationMembershipRole

/-! ### Calls -/

/-- A call with its arguments, or a change of the organizations and the users by any other operation. -/
inductive MembershipCall
  | createOrganization (now : Int) (input : CreateOrganization)
  | addMember (input : AddMember)
  | removeMember (organizationId userId : String)
  | changeRole (input : RoleChange)
  | removeOrganizationMember (input : MemberRemoval)
  | leave (organizationId actorUserId : String) (expectedVersion : Nat)
  | replaceInvite (input : InviteInput)
  | deliveryFailure (id : String) (now : Int)
  | revokeInvite (organizationId inviteId actorUserId : String) (now : Int)
  | acceptInvite (tokenHash userId : String) (now : Int)
  | elsewhere (organizations : Keyed Organization.id) (users : Keyed MemberUser.id)

/-- The store after a call, whether it throws or not. -/
def MembershipCall.exec (sha256 : Label.Hash) (s : MemberStore) : MembershipCall → MemberStore
  | .createOrganization now input => (createOrganizationForUser s now input).2
  | .addMember input => (Membership.addMember s input).2
  | .removeMember organizationId userId => (Membership.removeMember s organizationId userId).2
  | .changeRole input => (changeMemoryOrganizationMembershipRole sha256 s input).2
  | .removeOrganizationMember input => (removeMemoryOrganizationMember sha256 s input).2
  | .leave organizationId actorUserId expectedVersion =>
    (leaveMemoryOrganization s organizationId actorUserId expectedVersion).2
  | .replaceInvite input => (replaceMemoryOrganizationInvite s input).2
  | .deliveryFailure id now => revokeMemoryOrganizationInviteAfterDeliveryFailure s id now
  | .revokeInvite organizationId inviteId actorUserId now =>
    (revokeMemoryOrganizationInvite s organizationId inviteId actorUserId now).2
  | .acceptInvite tokenHash userId now => (acceptMemoryOrganizationInvite s tokenHash userId now).2
  | .elsewhere organizations users => { s with organizations, users }

/-- A step of a run is labelled with the call and the store it was made in. -/
def MembershipStep (sha256 : Label.Hash) (s : MemberStore) (e : MemberStore × MembershipCall) (t : MemberStore) :
    Prop := e.1 = s ∧ t = e.2.exec sha256 s

/-! ### Effects -/

/-- What a call makes of the store, by what it was and which checks it passed. -/
inductive Effect (sha256 : Label.Hash) (s : MemberStore) : MembershipCall → MemberStore → Prop
  | nothing (call : MembershipCall) : Effect sha256 s call s
  | founded {now : Int} {input : CreateOrganization} {actor : String} {organization : Organization}
      (checked : checkedOrganization s now input = .ok (actor, organization)) :
      Effect sha256 s (.createOrganization now input) { s with
        organizations := s.organizations.put organization
        members := s.members ++ [{ organizationId := organization.id, userId := actor, role := "OWNER" }] }
  | added {input : AddMember} {role : String} (checked : checkedMember s input = .ok (role, none)) :
      Effect sha256 s (.addMember input) { s with
        members := s.members ++ [{ organizationId := input.organizationId, userId := input.userId, role }] }
  | reroled {input : AddMember} {role : String} {existing : MemberRow}
      (checked : checkedMember s input = .ok (role, some existing)) :
      Effect sha256 s (.addMember input) { s with
        members := Table.updateFirst (ofUser input.organizationId input.userId) (fun row => { row with role })
          s.members }
  | removed {organizationId userId : String} {member : MemberRow}
      (found : s.members.find? (ofUser organizationId userId) = some member)
      (kept : ¬ (member.canonical = some OWNER ∧ ownerCount s organizationId ≤ 1)) :
      Effect sha256 s (.removeMember organizationId userId) { s with
        members := s.members.eraseP (ofUser organizationId userId) }
  | changed {input : RoleChange} {target : MemberRow} {current : OrganizationMembershipRole}
      (checked : checkedRoleChange sha256 s input = .ok (target, current)) :
      Effect sha256 s (.changeRole input) { s with
        members := Table.updateFirst (ofId sha256 input.organizationId input.membershipId) (withRole input.role)
          s.members }
  | expelled {input : MemberRemoval} {target : MemberRow} (checked : checkedRemoval sha256 s input = .ok target) :
      Effect sha256 s (.removeOrganizationMember input) { s with
        members := s.members.eraseP (ofId sha256 input.organizationId input.membershipId) }
  | left {organizationId userId : String} {version : Nat} {target : MemberRow}
      (checked : checkedLeave s organizationId userId version = .ok target) :
      Effect sha256 s (.leave organizationId userId version) { s with
        members := s.members.eraseP (ofUser organizationId userId) }
  | replaced {input : InviteInput}
      (checked : requireInviter s input.organizationId input.invitedByUserId input.role = .ok ()) :
      Effect sha256 s (.replaceInvite input) { s with
        organizationInvites :=
          s.organizationInvites.map (superseded input.organizationId input.email input.createdAt) ++
            [newInvite s input] }
  | failed (id : String) (now : Int) :
      Effect sha256 s (.deliveryFailure id now) (revokeMemoryOrganizationInviteAfterDeliveryFailure s id now)
  | revoked (organizationId inviteId actorUserId : String) (now : Int) :
      Effect sha256 s (.revokeInvite organizationId inviteId actorUserId now) { s with
        organizationInvites := Table.updateFirst (revocable organizationId inviteId)
          (fun invite => { invite with revokedAt := some now }) s.organizationInvites }
  | accepted {tokenHash userId : String} {now : Int} {invite : Invite}
      (acceptable : acceptableInvite s tokenHash userId now = some invite) :
      Effect sha256 s (.acceptInvite tokenHash userId now) { s with
        organizationInvites := Table.updateFirst (redeemable tokenHash now)
          (fun invite => { invite with acceptedAt := some now }) s.organizationInvites }
  | joined {tokenHash userId : String} {now : Int} {invite : Invite}
      (acceptable : acceptableInvite s tokenHash userId now = some invite)
      (absent : s.members.find? (ofUser invite.organizationId userId) = none) :
      Effect sha256 s (.acceptInvite tokenHash userId now) { s with
        organizationInvites := Table.updateFirst (redeemable tokenHash now)
          (fun invite => { invite with acceptedAt := some now }) s.organizationInvites
        members := s.members ++ [{ organizationId := invite.organizationId, userId, role := roleText invite.role }] }
  | elsewhere (organizations : Keyed Organization.id) (users : Keyed MemberUser.id) :
      Effect sha256 s (.elsewhere organizations users) { s with organizations, users }

/-- Every call is one of the effects. -/
theorem exec_effect (sha256 : Label.Hash) (s : MemberStore) (call : MembershipCall) :
    Effect sha256 s call (call.exec sha256 s) := by
  cases call with
  | createOrganization now input =>
    rw [MembershipCall.exec, createOrganizationForUser]
    split
    · exact .nothing _
    · next actor organization h => exact .founded h
  | addMember input =>
    rw [MembershipCall.exec, Membership.addMember]
    split
    · exact .nothing _
    · next role existing h =>
      split
      · exact .nothing _
      · exact .reroled h
    · next role h => exact .added h
  | removeMember organizationId userId =>
    rw [MembershipCall.exec, Membership.removeMember]
    split
    · exact .nothing _
    · next member h =>
      split
      · exact .nothing _
      · next hkept => exact .removed h hkept
  | changeRole input =>
    rw [MembershipCall.exec, changeMemoryOrganizationMembershipRole]
    split
    · exact .nothing _
    · next target current h =>
      split
      · exact .nothing _
      · exact .changed h
  | removeOrganizationMember input =>
    rw [MembershipCall.exec, removeMemoryOrganizationMember]
    split
    · exact .nothing _
    · next target h => exact .expelled h
  | leave organizationId userId version =>
    rw [MembershipCall.exec, leaveMemoryOrganization]
    split
    · exact .nothing _
    · next target h => exact .left h
  | replaceInvite input =>
    rw [MembershipCall.exec, replaceMemoryOrganizationInvite]
    split
    · exact .nothing _
    · next h => exact .replaced h
  | deliveryFailure id now => exact .failed id now
  | revokeInvite organizationId inviteId actorUserId now =>
    rw [MembershipCall.exec, revokeMemoryOrganizationInvite]
    split
    · exact .nothing _
    · exact .revoked _ _ _ _
  | acceptInvite tokenHash userId now =>
    rw [MembershipCall.exec, acceptMemoryOrganizationInvite]
    split
    · exact .nothing _
    · next invite h =>
      dsimp only
      split
      · exact .accepted h
      · next habsent => exact .joined h (Option.not_isSome_iff_eq_none.1 habsent)
  | elsewhere organizations users => exact .elsewhere organizations users

/-! ### What the checks say -/

section Checks

variable {sha256 : Label.Hash} {s : MemberStore}

variable {role organizationId userId : String} {target : MemberRow}

theorem normalize_storedRole {parsed : OrganizationMembershipRole}
    (h : parseOrganizationMembershipRoleForMutation role = .ok parsed) :
    normalizeOrganizationRoleForRead (storedRole role parsed) = some parsed := by
  unfold storedRole
  split
  · exact parseRole_ok h
  · exact normalize_roleText parsed

theorem requireOrganizationMember_ok {row : MemberRow}
    (h : requireOrganizationMember s organizationId userId = .ok row) :
    s.members.find? (ofUser organizationId userId) = some row := by
  unfold requireOrganizationMember at h
  obtain ⟨_, -, h⟩ := bind_ok.1 h
  exact orThrow_ok.1 h

/-- A role that `addMember` stores: what it is, whose authority it has, and that an owner is left. -/
theorem checkedMember_ok {input : AddMember} {existing : Option MemberRow}
    (h : checkedMember s input = .ok (role, existing)) :
    s.members.find? (ofUser input.organizationId input.userId) = existing ∧
      ∃ parsed, normalizeOrganizationRoleForRead role = some parsed ∧
        normalizeOrganizationRoleForRead input.role = some parsed ∧
        (parsed = OWNER → ∀ actorRole, input.actorRole = some actorRole →
          normalizeOrganizationRoleForRead actorRole = some OWNER) ∧
        ¬ (existing.bind MemberRow.canonical = some OWNER ∧ parsed ≠ OWNER ∧
          ownerCount s input.organizationId ≤ 1) := by
  unfold checkedMember at h
  obtain ⟨parsed, hparsed, h⟩ := bind_ok.1 h
  obtain ⟨_, htransition, h⟩ := bind_ok.1 h
  obtain ⟨_, hlast, h⟩ := bind_ok.1 h
  obtain ⟨rfl, rfl⟩ := Prod.mk.inj (pure_ok.1 h)
  refine ⟨rfl, parsed, normalize_storedRole hparsed, parseRole_ok hparsed, ?_, throwIf_ok.1 hlast⟩
  rintro rfl actorRole hactor
  rw [hactor] at htransition
  unfold actorTransition membershipRoleTransition at htransition
  dsimp only at htransition
  split_ifs at htransition with _ howner hadmin
  · exact howner
  · exact absurd rfl hadmin.2.1

/-- A change of role: its target, the authority of the actor, and that an owner is left. -/
theorem checkedRoleChange_ok {input : RoleChange} {current : OrganizationMembershipRole}
    (h : checkedRoleChange sha256 s input = .ok (target, current)) :
    s.members.find? (ofId sha256 input.organizationId input.membershipId) = some target ∧
      target.canonical = some current ∧
      (input.role = OWNER → roleOf s input.organizationId input.actorUserId = some OWNER) ∧
      target.currentVersion = input.expectedVersion ∧
      ¬ (current = OWNER ∧ input.role ≠ OWNER ∧ ownerCount s input.organizationId ≤ 1) := by
  unfold checkedRoleChange at h
  obtain ⟨actor, hactor, h⟩ := bind_ok.1 h
  obtain ⟨target', htarget, h⟩ := bind_ok.1 h
  obtain ⟨actorRole, hactorRole, h⟩ := bind_ok.1 h
  obtain ⟨current', hcurrent, h⟩ := bind_ok.1 h
  obtain ⟨_, hauthority, h⟩ := bind_ok.1 h
  obtain ⟨_, hversion, h⟩ := bind_ok.1 h
  obtain ⟨_, hlast, h⟩ := bind_ok.1 h
  obtain ⟨rfl, rfl⟩ := Prod.mk.inj (pure_ok.1 h)
  refine ⟨orThrow_ok.1 htarget, orThrow_ok.1 hcurrent, ?_, not_not.1 (throwIf_ok.1 hversion), throwIf_ok.1 hlast⟩
  intro howner
  unfold requireMembershipTransitionAuthority at hauthority
  split_ifs at hauthority with hactorOwner hadmin
  · unfold roleOf
    rw [requireOrganizationMember_ok hactor, Option.bind_some]
    rw [← hactorOwner]
    exact orThrow_ok.1 hactorRole
  · exact absurd howner hadmin.2.2

theorem checkedRemoval_ok {input : MemberRemoval} (h : checkedRemoval sha256 s input = .ok target) :
    s.members.find? (ofId sha256 input.organizationId input.membershipId) = some target ∧
      target.currentVersion = input.expectedVersion ∧
      ¬ (target.canonical = some OWNER ∧ ownerCount s input.organizationId ≤ 1) := by
  unfold checkedRemoval at h
  obtain ⟨actor, hactor, h⟩ := bind_ok.1 h
  obtain ⟨target', htarget, h⟩ := bind_ok.1 h
  obtain ⟨actorRole, hactorRole, h⟩ := bind_ok.1 h
  obtain ⟨targetRole, hrole, h⟩ := bind_ok.1 h
  obtain ⟨_, -, h⟩ := bind_ok.1 h
  obtain ⟨_, hversion, h⟩ := bind_ok.1 h
  obtain ⟨_, hlast, h⟩ := bind_ok.1 h
  obtain rfl := pure_ok.1 h
  refine ⟨orThrow_ok.1 htarget, not_not.1 (throwIf_ok.1 hversion), ?_⟩
  rintro ⟨howner, hcount⟩
  rw [orThrow_ok.1 hrole] at howner
  exact throwIf_ok.1 hlast ⟨Option.some.inj howner, hcount⟩

theorem checkedLeave_ok {version : Nat} (h : checkedLeave s organizationId userId version = .ok target) :
    s.members.find? (ofUser organizationId userId) = some target ∧ target.currentVersion = version ∧
      ¬ (target.canonical = some OWNER ∧ ownerCount s organizationId ≤ 1) := by
  unfold checkedLeave at h
  obtain ⟨target', htarget, h⟩ := bind_ok.1 h
  obtain ⟨_, hversion, h⟩ := bind_ok.1 h
  obtain ⟨role, hrole, h⟩ := bind_ok.1 h
  obtain ⟨_, hlast, h⟩ := bind_ok.1 h
  obtain rfl := pure_ok.1 h
  refine ⟨requireOrganizationMember_ok htarget, not_not.1 (throwIf_ok.1 hversion), ?_⟩
  rintro ⟨howner, hcount⟩
  rw [orThrow_ok.1 hrole] at howner
  exact throwIf_ok.1 hlast ⟨Option.some.inj howner, hcount⟩

/-- Only an owner invites an owner. -/
theorem requireInviter_owner (h : requireInviter s organizationId userId OWNER = .ok ()) :
    roleOf s organizationId userId = some OWNER := by
  unfold requireInviter at h
  obtain ⟨_, -, h⟩ := bind_ok.1 h
  have hrole := throwIf_ok.1 h
  by_contra hne
  by_cases hadmin : roleOf s organizationId userId = some ADMIN
  · exact hrole (.inr ⟨hadmin, rfl⟩)
  · exact hrole (.inl ⟨hne, hadmin⟩)

theorem acceptableInvite_eq_some {tokenHash : String} {now : Int} {invite : Invite}
    (h : acceptableInvite s tokenHash userId now = some invite) :
    s.organizationInvites.find? (redeemable tokenHash now) = some invite ∧
      ∃ user, s.users.get? userId = some user ∧ user.emailVerified = true ∧ user.email = invite.email := by
  unfold acceptableInvite at h
  obtain ⟨found, hfound, h⟩ := Option.bind_eq_some_iff.1 h
  obtain ⟨user, huser, h⟩ := Option.bind_eq_some_iff.1 h
  split_ifs at h with hcheck
  obtain rfl := Option.some.inj h
  exact ⟨hfound, user, huser, hcheck⟩

end Checks

end RaibitServer.Membership
