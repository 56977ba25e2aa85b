import RaibitServer.Membership.Owners

/-!
# Membership.Versions — the version of a membership as an optimistic lock

A membership is shown by its id and its version.  `changeMemoryOrganizationMembershipRole` raises the version
with every change of the role; `addMember` rewrites the role and leaves the version, and a user who comes
back has the id of the row that was removed and starts at version 1 again.  In a run without these two the
rows of a later state continue those of an earlier one (`Continues`), so id and version determine the role
(`version_locks_role`).
-/

namespace RaibitServer.Membership

open Lib Core OrganizationMembershipRole

/-! ### The condition on a run -/

/-- The organization and the user of the row that a call adds. -/
inductive Joins (s : MemberStore) : MembershipCall → String → String → Prop
  | founded {now : Int} {input : CreateOrganization} {actor : String} {organization : Organization}
      (checked : checkedOrganization s now input = .ok (actor, organization)) :
      Joins s (.createOrganization now input) organization.id actor
  | added {input : AddMember} (absent : s.members.find? (ofUser input.organizationId input.userId) = none) :
      Joins s (.addMember input) input.organizationId input.userId
  | joined {tokenHash userId : String} {now : Int} {invite : Invite}
      (acceptable : acceptableInvite s tokenHash userId now = some invite)
      (absent : s.members.find? (ofUser invite.organizationId userId) = none) :
      Joins s (.acceptInvite tokenHash userId now) invite.organizationId userId

/-- `addMember` is asked for the role that the row of the user has already. -/
def KeepsRole (s : MemberStore) (call : MembershipCall) : Prop :=
  ∀ input existing, call = .addMember input →
    s.members.find? (ofUser input.organizationId input.userId) = some existing →
    normalizeOrganizationRoleForRead input.role = existing.canonical

/-- Some state of the history, or the state it led to, has a row with the id. -/
def Shown (sha256 : Label.Hash) (es : List (MemberStore × MembershipCall)) (s : MemberStore) (id : String) : Prop :=
  (∃ e ∈ es, id ∈ e.1.members.map (memoryMembershipId sha256)) ∨ id ∈ s.members.map (memoryMembershipId sha256)

/-- A call behind a history: no role is rewritten by `addMember`, and a row that joins has an id of its own. -/
structure Fresh (sha256 : Label.Hash) (es : List (MemberStore × MembershipCall)) (s : MemberStore)
    (call : MembershipCall) : Prop where
  keeps : KeepsRole s call
  joins : ∀ row : MemberRow, Joins s call row.organizationId row.userId →
    ¬ Shown sha256 es s (memoryMembershipId sha256 row)

def Orderly (sha256 : Label.Hash) (es : List (MemberStore × MembershipCall)) : Prop :=
  ∀ pre e post, es = pre ++ e :: post → Fresh sha256 pre e.1 e.2

section Steps

variable {sha256 : Label.Hash} {s t u : MemberStore} {call : MembershipCall}
  {es es₁ es₂ es₃ : List (MemberStore × MembershipCall)}

theorem Orderly.left (h : Orderly sha256 (es₁ ++ es₂)) : Orderly sha256 es₁ := by
  rintro pre e post rfl
  refine h pre e (post ++ es₂) ?_
  rw [List.append_assoc, List.cons_append]

theorem Orderly.last {e : MemberStore × MembershipCall} (h : Orderly sha256 (es ++ [e])) :
    Fresh sha256 es e.1 e.2 := h es e [] rfl

/-! ### One step -/

/-- `row'` is `row` later on: the same membership, its version not smaller, its role the same at one version. -/
structure Succeeds (sha256 : Label.Hash) (row row' : MemberRow) : Prop where
  id : memoryMembershipId sha256 row' = memoryMembershipId sha256 row
  version : row.currentVersion ≤ row'.currentVersion
  role : row'.currentVersion = row.currentVersion → row'.canonical = row.canonical

theorem Succeeds.refl (row : MemberRow) : Succeeds sha256 row row := ⟨rfl, le_rfl, fun _ => rfl⟩

theorem Succeeds.trans {row row' row'' : MemberRow} (h : Succeeds sha256 row row')
    (h' : Succeeds sha256 row' row'') : Succeeds sha256 row row'' := by
  refine ⟨h'.id.trans h.id, h.version.trans h'.version, fun heq => ?_⟩
  have hle := h.version
  have hle' := h'.version
  exact (h'.role (by omega)).trans (h.role (by omega))

/-- Rows of the later state whose ids were shown before are rows of the earlier state. -/
def Continues (sha256 : Label.Hash) (es : List (MemberStore × MembershipCall)) (s t : MemberStore) : Prop :=
  ∀ row' ∈ t.members, Shown sha256 es s (memoryMembershipId sha256 row') →
    ∃ row ∈ s.members, Succeeds sha256 row row'

/-- No two rows have one id. -/
def DistinctIds (sha256 : Label.Hash) (s : MemberStore) : Prop :=
  (s.members.map (memoryMembershipId sha256)).Nodup

theorem DistinctIds.eq {row row' : MemberRow} (h : DistinctIds sha256 s) (hrow : row ∈ s.members)
    (hrow' : row' ∈ s.members) (hid : memoryMembershipId sha256 row = memoryMembershipId sha256 row') : row = row' :=
  List.inj_on_of_nodup_map h hrow hrow' hid

/-- What one step keeps. -/
structure Advance (sha256 : Label.Hash) (es : List (MemberStore × MembershipCall)) (s t : MemberStore) : Prop where
  continues : Continues sha256 es s t
  distinct : DistinctIds sha256 s → DistinctIds sha256 t

theorem Advance.of_subset (hsub : t.members.Sublist s.members) : Advance sha256 es s t := by
  refine ⟨fun row' hrow' _ => ⟨row', hsub.subset hrow', .refl row'⟩, fun hdistinct => ?_⟩
  exact List.Nodup.sublist (hsub.map _) hdistinct

theorem Advance.of_join {row : MemberRow} (hmembers : t.members = s.members ++ [row])
    (hfresh : ¬ Shown sha256 es s (memoryMembershipId sha256 row)) : Advance sha256 es s t := by
  constructor
  · intro row' hrow' hshown
    rw [hmembers, List.mem_append, List.mem_singleton] at hrow'
    rcases hrow' with hold | rfl
    · exact ⟨row', hold, .refl row'⟩
    · exact absurd hshown hfresh
  · intro hdistinct
    unfold DistinctIds
    rw [hmembers, List.map_append, List.nodup_append]
    refine ⟨hdistinct, List.nodup_singleton _, ?_⟩
    rintro id hid id' hid' rfl
    rw [List.map_singleton, List.mem_singleton] at hid'
    exact hfresh (.inr (hid' ▸ hid))

theorem Advance.of_update {p : MemberRow → Bool} {f : MemberRow → MemberRow} {a : MemberRow}
    (hmembers : t.members = Table.updateFirst p f s.members) (found : s.members.find? p = some a)
    (hid : ∀ row, memoryMembershipId sha256 (f row) = memoryMembershipId sha256 row)
    (hsucceeds : Succeeds sha256 a (f a)) : Advance sha256 es s t := by
  constructor
  · intro row' hrow' _
    rw [hmembers] at hrow'
    rcases Table.mem_updateFirst found hrow' with rfl | hold
    · exact ⟨a, List.mem_of_find?_eq_some found, hsucceeds⟩
    · exact ⟨row', hold, .refl row'⟩
  · intro hdistinct
    unfold DistinctIds
    rw [hmembers, Table.map_updateFirst fun row _ => hid row]
    exact hdistinct

theorem Effect.advance (effect : Effect sha256 s call t) (fresh : Fresh sha256 es s call) :
    Advance sha256 es s t := by
  cases effect with
  | nothing | replaced | failed | revoked | accepted | elsewhere => exact .of_subset (List.Sublist.refl _)
  | founded checked => exact .of_join rfl (fresh.joins _ (.founded checked))
  | added checked => exact .of_join rfl (fresh.joins _ (.added (checkedMember_ok checked).1))
  | joined acceptable absent => exact .of_join rfl (fresh.joins _ (.joined acceptable absent))
  | @reroled input role existing checked =>
    obtain ⟨hfind, parsed, hrole, hasked, -⟩ := checkedMember_ok checked
    refine .of_update rfl hfind (fun _ => rfl) ⟨rfl, le_rfl, fun _ => ?_⟩
    rw [← fresh.keeps input existing rfl hfind]
    exact hrole.trans hasked.symm
  | removed | expelled | left => exact .of_subset (List.eraseP_sublist)
  | @changed input target current checked =>
    obtain ⟨hfind, -⟩ := checkedRoleChange_ok checked
    refine .of_update rfl hfind (fun _ => rfl) ⟨rfl, Nat.le_succ _, fun heq => ?_⟩
    exact absurd heq (Nat.succ_ne_self _)

/-! ### Runs -/

theorem Shown.step {e : MemberStore × MembershipCall} {id : String} (hstep : MembershipStep sha256 s e t)
    (h : Shown sha256 es s id) : Shown sha256 (es ++ [e]) t id := by
  obtain ⟨rfl, -⟩ := hstep
  rcases h with ⟨e', he', hid⟩ | hid
  · exact .inl ⟨e', List.mem_append_left _ he', hid⟩
  · exact .inl ⟨e, List.mem_append_right _ (List.mem_singleton.2 rfl), hid⟩

theorem Shown.run {id : String} (hrun : Run (MembershipStep sha256) s es₂ t) (h : Shown sha256 es₁ s id) :
    Shown sha256 (es₁ ++ es₂) t id := by
  induction hrun with
  | nil => rwa [List.append_nil]
  | snoc _ last ih =>
    rw [← List.append_assoc]
    exact Shown.step last ih

theorem Continues.trans (hrun : Run (MembershipStep sha256) s es₂ t) (h : Continues sha256 es₁ s t)
    (h' : Continues sha256 (es₁ ++ es₂) t u) : Continues sha256 es₁ s u := by
  intro row'' hrow'' hshown
  obtain ⟨row', hrow', hnext⟩ := h' row'' hrow'' (hshown.run hrun)
  obtain ⟨row, hrow, hfirst⟩ := h row' hrow' (hnext.id ▸ hshown)
  exact ⟨row, hrow, hfirst.trans hnext⟩

/-- What one step keeps, a run keeps. -/
theorem Advance.run (hrun : Run (MembershipStep sha256) s es₂ t) (horderly : Orderly sha256 (es₁ ++ es₂)) :
    Advance sha256 es₁ s t := by
  induction hrun with
  | nil => exact .of_subset (List.Sublist.refl _)
  | @snoc es₂ t u e run last ih =>
    rw [← List.append_assoc] at horderly
    have hbefore := ih horderly.left
    have hfresh : Fresh sha256 (es₁ ++ es₂) t e.2 := last.1 ▸ horderly.last
    have hlast : Advance sha256 (es₁ ++ es₂) t u := last.effect.advance hfresh
    exact ⟨hbefore.continues.trans run hlast.continues, fun h => hlast.distinct (hbefore.distinct h)⟩

end Steps

/-! ### The lock -/

def MembershipCall.expectedVersion : MembershipCall → Option Nat
  | .changeRole input => some input.expectedVersion
  | .removeOrganizationMember input => some input.expectedVersion
  | .leave _ _ expectedVersion => some expectedVersion
  | _ => none

/-- The call passes its checks, and `target` is the row it acts on. -/
inductive ActsOn (sha256 : Label.Hash) (s : MemberStore) : MembershipCall → MemberRow → Prop
  | changed {input : RoleChange} {target : MemberRow} {current : OrganizationMembershipRole}
      (checked : checkedRoleChange sha256 s input = .ok (target, current)) :
      ActsOn sha256 s (.changeRole input) target
  | expelled {input : MemberRemoval} {target : MemberRow} (checked : checkedRemoval sha256 s input = .ok target) :
      ActsOn sha256 s (.removeOrganizationMember input) target
  | left {organizationId userId : String} {version : Nat} {target : MemberRow}
      (checked : checkedLeave s organizationId userId version = .ok target) :
      ActsOn sha256 s (.leave organizationId userId version) target

section Lock

variable {sha256 : Label.Hash} {s a b c : MemberStore} {es₁ es₂ es₃ : List (MemberStore × MembershipCall)}

theorem ActsOn.target {call : MembershipCall} {target : MemberRow} (h : ActsOn sha256 s call target) :
    target ∈ s.members ∧ call.expectedVersion = some target.currentVersion := by
  cases h with
  | changed checked =>
    obtain ⟨hfind, -, -, hversion, -⟩ := checkedRoleChange_ok checked
    exact ⟨List.mem_of_find?_eq_some hfind, congrArg some hversion.symm⟩
  | expelled checked =>
    obtain ⟨hfind, hversion, -⟩ := checkedRemoval_ok checked
    exact ⟨List.mem_of_find?_eq_some hfind, congrArg some hversion.symm⟩
  | left checked =>
    obtain ⟨hfind, hversion, -⟩ := checkedLeave_ok checked
    exact ⟨List.mem_of_find?_eq_some hfind, congrArg some hversion.symm⟩

theorem shown_of_mem {row : MemberRow} {id : String} (h : row ∈ s.members)
    (hid : id = memoryMembershipId sha256 row) : Shown sha256 es₁ s id := .inr (hid ▸ List.mem_map_of_mem h)

/-- One membership at two states: the later row succeeds the earlier one. -/
theorem Continues.succeeds {row row' : MemberRow} (h : Continues sha256 es₁ a c) (hdistinct : DistinctIds sha256 a)
    (hrow : row ∈ a.members) (hrow' : row' ∈ c.members)
    (hid : memoryMembershipId sha256 row' = memoryMembershipId sha256 row) : Succeeds sha256 row row' := by
  obtain ⟨old, hold, hsucceeds⟩ := h row' hrow' (shown_of_mem hrow hid)
  rwa [hdistinct.eq hrow hold (hid.symm.trans hsucceeds.id)]

/-- **Id and version determine the role.**  In a run in which `addMember` rewrites no role and every row that
joins has an id of its own, a membership that two states show at one version has one role in both and in every
state between them, where it is there at this version; a call that succeeds with the version acts on that role. -/
theorem version_locks_role (hdistinct : DistinctIds sha256 s) (h₁ : Run (MembershipStep sha256) s es₁ a)
    (h₂ : Run (MembershipStep sha256) a es₂ b) (h₃ : Run (MembershipStep sha256) b es₃ c)
    (horderly : Orderly sha256 (es₁ ++ es₂ ++ es₃)) :
    (∀ row ∈ a.members, ∀ row' ∈ c.members, memoryMembershipId sha256 row' = memoryMembershipId sha256 row →
      row'.currentVersion = row.currentVersion →
        row'.canonical = row.canonical ∧
        (∃ between ∈ b.members, memoryMembershipId sha256 between = memoryMembershipId sha256 row) ∧
        ∀ between ∈ b.members, memoryMembershipId sha256 between = memoryMembershipId sha256 row →
          between.currentVersion = row.currentVersion ∧ between.canonical = row.canonical) ∧
      ∀ call target row, ActsOn sha256 c call target → row ∈ a.members →
        memoryMembershipId sha256 row = memoryMembershipId sha256 target →
        call.expectedVersion = some row.currentVersion → target.canonical = row.canonical := by
  have hsa : Advance sha256 [] s a := .run h₁ horderly.left.left
  have ha : DistinctIds sha256 a := hsa.distinct hdistinct
  have hab : Advance sha256 es₁ a b := .run h₂ horderly.left
  have hbc : Advance sha256 (es₁ ++ es₂) b c := .run h₃ horderly
  have hac : Continues sha256 es₁ a c := hab.continues.trans h₂ hbc.continues
  constructor
  · intro row hrow row' hrow' hid hversion
    refine ⟨(hac.succeeds ha hrow hrow' hid).role hversion, ?_, ?_⟩
    · have hshown : Shown sha256 (es₁ ++ es₂) b (memoryMembershipId sha256 row') := (shown_of_mem hrow hid).run h₂
      obtain ⟨between, hbetween, hnext⟩ := hbc.continues row' hrow' hshown
      exact ⟨between, hbetween, hnext.id.symm.trans hid⟩
    · intro between hbetween hid'
      have hfirst := hab.continues.succeeds ha hrow hbetween hid'
      have hnext := hbc.continues.succeeds (hab.distinct ha) hbetween hrow' (hid.trans hid'.symm)
      have hle := hfirst.version
      have hle' := hnext.version
      have heq : between.currentVersion = row.currentVersion := by omega
      exact ⟨heq, hfirst.role heq⟩
  · intro call target row hacts hrow hid hexpected
    obtain ⟨htarget, hversion⟩ := hacts.target
    have heq : target.currentVersion = row.currentVersion := Option.some.inj (hversion.symm.trans hexpected)
    exact (hac.succeeds ha hrow htarget hid.symm).role heq

end Lock

namespace Sample

def grace : MemberRow := { organizationId := "org_a", userId := "grace", role := "OWNER" }

/-- An organization with two owners. -/
def team : MemberStore := { store with members := store.members ++ [grace] }

def mallory : InviteInput := { invitation with email := "mallory@club.dev" }

def demotion : RoleChange := ⟨"org_a", memoryMembershipId digest grace, "ada", VIEWER, 1⟩

/-- The team after Grace's role was changed, and after an invite to somebody else. -/
def demoted : MemberStore := (MembershipCall.changeRole demotion).exec digest team

def invited : MemberStore := (MembershipCall.replaceInvite mallory).exec digest demoted

def viewer : MemberRow := { grace with role := "VIEWER", version := some 2 }

theorem orderly_invited : Orderly digest [(team, .changeRole demotion), (demoted, .replaceInvite mallory)] := by
  intro pre e post h
  have he : e ∈ pre ++ e :: post := List.mem_append_right _ List.mem_cons_self
  rw [← h] at he
  rcases List.mem_pair.1 he with rfl | rfl <;> exact ⟨nofun, fun _ => nofun⟩

end Sample

/-- Grace is made a viewer, which they see at version 2; somebody else is invited, and Grace leaves at this
version. -/
theorem version_locks_role_leaving :
    (Sample.grace ∈ Sample.team.members ∧ Sample.grace.canonical = some OWNER) ∧
    (ActsOn Sample.digest Sample.invited (.leave "org_a" "grace" 2) Sample.viewer ∧
      Sample.viewer ∈ Sample.demoted.members) ∧ Sample.viewer.canonical = some VIEWER := by
  have hchecked : checkedLeave Sample.invited "org_a" "grace" 2 = .ok Sample.viewer := by decide +kernel
  have hmem : Sample.viewer ∈ Sample.demoted.members := by decide +kernel
  refine ⟨⟨by decide, by decide⟩, ⟨.left hchecked, hmem⟩, ?_⟩
  have hchange : Run (MembershipStep Sample.digest) Sample.team [(Sample.team, .changeRole Sample.demotion)]
      Sample.demoted := Run.single ⟨rfl, rfl⟩
  have hinvite : Run (MembershipStep Sample.digest) Sample.demoted [(Sample.demoted, .replaceInvite Sample.mallory)]
      Sample.invited := Run.single ⟨rfl, rfl⟩
  have hdistinct : DistinctIds Sample.digest Sample.team :=
    (by decide +kernel : (Sample.team.members.map (memoryMembershipId Sample.digest)).Nodup)
  obtain ⟨-, hacts⟩ := version_locks_role hdistinct hchange hinvite .nil Sample.orderly_invited
  rw [hacts _ _ _ (.left hchecked) hmem rfl rfl]
  decide

/-- `addMember` rewrites a role at the version that is there. -/
theorem addMember_rewrites_role_at_version :
    ∃ row ∈ Sample.team.members, ∃ row' ∈
      ((MembershipCall.addMember ⟨"org_a", "grace", "VIEWER", some "OWNER"⟩).exec Sample.digest Sample.team).members,
        memoryMembershipId Sample.digest row' = memoryMembershipId Sample.digest row ∧
          row'.currentVersion = row.currentVersion ∧ row.canonical = some OWNER ∧ row'.canonical = some VIEWER := by
  decide +kernel

end RaibitServer.Membership
