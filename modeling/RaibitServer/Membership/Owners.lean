import RaibitServer.Membership.Effects

/-!
# Membership.Owners — the last owner stays, and who makes an owner

Every row that a call cuts out or rewrites is the last owner of its organization only if the call fails
(`ownerCount_pos_step`), so an organization that has an owner keeps one.  A user becomes an owner by founding
the organization, on the authority of an owner, by a trusted call of `addMember` that names no acting
member, or with an invite that an owner issued (`owners_stay_and_are_granted`).
-/

namespace RaibitServer.Membership

open Lib Core OrganizationMembershipRole

/-! ### Counting owners -/

section Count

variable {s : MemberStore} {org : String} {p : MemberRow → Bool} {f : MemberRow → MemberRow} {a : MemberRow}

def owners (org : String) (members : List MemberRow) : Nat := (members.filter (isOwner org)).length

theorem owners_append (org : String) (l l' : List MemberRow) :
    owners org (l ++ l') = owners org l + owners org l' := by
  unfold owners
  rw [List.filter_append, List.length_append]

theorem owners_cons (org : String) (a : MemberRow) (l : List MemberRow) :
    owners org (a :: l) = (if isOwner org a then 1 else 0) + owners org l := by
  unfold owners
  by_cases h : isOwner org a = true
  · rw [List.filter_cons_of_pos h, if_pos h, List.length_cons, Nat.add_comm]
  · rw [List.filter_cons_of_neg h, if_neg h, Nat.zero_add]

/-- A row that is not the last owner of its organization leaves one behind. -/
theorem owners_around {l₁ l₂ : List MemberRow}
    (kept : ¬ (a.canonical = some OWNER ∧ owners a.organizationId (l₁ ++ a :: l₂) ≤ 1))
    (h : 0 < owners org (l₁ ++ a :: l₂)) : 0 < owners org (l₁ ++ l₂) := by
  rw [owners_append, owners_cons] at h
  rw [owners_append]
  by_cases ha : isOwner org a = true
  · obtain ⟨horg, hrole⟩ := Bool.and_eq_true_iff.1 ha
    obtain rfl : a.organizationId = org := of_decide_eq_true horg
    have hcount := not_and.1 kept (of_decide_eq_true hrole)
    rw [owners_append, owners_cons, if_pos ha] at hcount
    omega
  · rw [if_neg ha] at h
    omega

theorem owners_eraseP (found : s.members.find? p = some a)
    (kept : ¬ (a.canonical = some OWNER ∧ ownerCount s a.organizationId ≤ 1)) (h : 0 < ownerCount s org) :
    0 < owners org (s.members.eraseP p) := by
  obtain ⟨l₁, l₂, hl, herase⟩ := Table.eraseP_split found
  change ¬ (a.canonical = some OWNER ∧ owners a.organizationId s.members ≤ 1) at kept
  change 0 < owners org s.members at h
  rw [hl] at kept h
  rw [herase]
  exact owners_around kept h

/-- A row keeps its organization, and is an owner afterwards or was not the last one. -/
theorem owners_updateFirst (found : s.members.find? p = some a) (horg : (f a).organizationId = a.organizationId)
    (kept : (f a).canonical = some OWNER ∨ ¬ (a.canonical = some OWNER ∧ ownerCount s a.organizationId ≤ 1))
    (h : 0 < ownerCount s org) : 0 < owners org (Table.updateFirst p f s.members) := by
  obtain ⟨l₁, l₂, hl, hupdate, -⟩ := Table.updateFirst_split (f := f) found
  change _ ∨ ¬ (a.canonical = some OWNER ∧ owners a.organizationId s.members ≤ 1) at kept
  change 0 < owners org s.members at h
  rw [hl] at kept h
  rw [hupdate]
  rcases kept with howner | kept
  · rw [owners_append, owners_cons] at h ⊢
    by_cases ha : isOwner org a = true
    · have hfa : isOwner org (f a) = true := by
        refine Bool.and_eq_true_iff.2 ⟨?_, decide_eq_true howner⟩
        rw [horg]
        exact (Bool.and_eq_true_iff.1 ha).1
      rw [if_pos hfa]
      omega
    · rw [if_neg ha] at h
      omega
  · have hrest := owners_around kept h
    rw [owners_append] at hrest
    rw [owners_append, owners_cons]
    omega

end Count

/-! ### Rows that were found -/

theorem ofUser_eq {organizationId userId : String} {row : MemberRow} {members : List MemberRow}
    (h : members.find? (ofUser organizationId userId) = some row) :
    row.organizationId = organizationId ∧ row.userId = userId := by
  have hrow := List.find?_some h
  unfold ofUser at hrow
  simpa using hrow

theorem ofId_eq {sha256 : Label.Hash} {organizationId membershipId : String} {row : MemberRow}
    {members : List MemberRow} (h : members.find? (ofId sha256 organizationId membershipId) = some row) :
    row.organizationId = organizationId ∧ memoryMembershipId sha256 row = membershipId := by
  have hrow := List.find?_some h
  unfold ofId at hrow
  simpa using hrow

/-! ### The last owner -/

section Steps

variable {sha256 : Label.Hash} {s t : MemberStore} {call : MembershipCall} {org user : String}

theorem ownerCount_pos_step (h : 0 < ownerCount s org) (effect : Effect sha256 s call t) : 0 < ownerCount t org := by
  have hjoin : ∀ row, 0 < owners org (s.members ++ [row]) := by
    intro row
    rw [owners_append]
    exact Nat.add_pos_left h _
  cases effect with
  | nothing | replaced | failed | revoked | accepted | elsewhere => exact h
  | founded | added | joined => exact hjoin _
  | @reroled input role existing checked =>
    obtain ⟨hfind, parsed, hrole, -, -, hlast⟩ := checkedMember_ok checked
    obtain ⟨horg, -⟩ := ofUser_eq hfind
    refine owners_updateFirst hfind rfl ?_ h
    by_cases howner : parsed = OWNER
    · exact .inl (howner ▸ hrole)
    · refine .inr fun hexisting => hlast ⟨hexisting.1, howner, ?_⟩
      rw [← horg]
      exact hexisting.2
  | @removed organizationId userId member found kept =>
    obtain ⟨rfl, -⟩ := ofUser_eq found
    exact owners_eraseP found kept h
  | @changed input target current checked =>
    obtain ⟨hfind, hcurrent, -, -, hlast⟩ := checkedRoleChange_ok checked
    obtain ⟨horg, -⟩ := ofId_eq hfind
    refine owners_updateFirst hfind rfl ?_ h
    by_cases howner : input.role = OWNER
    · refine .inl ?_
      rw [← howner]
      exact normalize_roleText input.role
    · refine .inr fun htarget => hlast ⟨?_, howner, ?_⟩
      · exact Option.some.inj (hcurrent.symm.trans htarget.1)
      · rw [← horg]
        exact htarget.2
  | @expelled input target checked =>
    obtain ⟨hfind, -, kept⟩ := checkedRemoval_ok checked
    obtain ⟨horg, -⟩ := ofId_eq hfind
    rw [← horg] at kept
    exact owners_eraseP hfind kept h
  | @left organizationId userId version target checked =>
    obtain ⟨hfind, -, kept⟩ := checkedLeave_ok checked
    obtain ⟨rfl, -⟩ := ofUser_eq hfind
    exact owners_eraseP hfind kept h

/-! ### Invites and who issued them -/

/-- An invite as it was issued. -/
def Invite.terms (invite : Invite) : Invite := { invite with acceptedAt := none, revokedAt := none }

/-- Every invite was issued by a call of the history that passed the check of the inviter. -/
def Issued (es : List (MemberStore × MembershipCall)) (s : MemberStore) : Prop :=
  ∀ invite ∈ s.organizationInvites, ∃ s' input, (s', .replaceInvite input) ∈ es ∧
    requireInviter s' input.organizationId input.invitedByUserId input.role = .ok () ∧
    invite.terms = newInvite s' input

theorem superseded_terms (organizationId email : String) (now : Int) (invite : Invite) :
    (superseded organizationId email now invite).terms = invite.terms := by
  unfold superseded
  split
  · rfl
  · rfl

/-- The terms of the invites after a call: those before it, and those of an invite it issued. -/
theorem terms_step (effect : Effect sha256 s call t) :
    t.organizationInvites.map Invite.terms = s.organizationInvites.map Invite.terms ∨
      ∃ input, call = .replaceInvite input ∧
        requireInviter s input.organizationId input.invitedByUserId input.role = .ok () ∧
        t.organizationInvites.map Invite.terms = s.organizationInvites.map Invite.terms ++ [newInvite s input] := by
  cases effect with
  | nothing | founded | added | reroled | removed | changed | expelled | left | elsewhere => exact .inl rfl
  | failed | revoked | accepted | joined =>
    refine .inl (Table.map_updateFirst ?_ _)
    intros
    rfl
  | @replaced input checked =>
    refine .inr ⟨input, rfl, checked, ?_⟩
    rw [List.map_append, List.map_map]
    congr 1
    exact List.map_congr_left fun invite _ => superseded_terms _ _ _ invite

theorem Issued.step {es : List (MemberStore × MembershipCall)} (h : Issued es s) (effect : Effect sha256 s call t) :
    Issued (es ++ [(s, call)]) t := by
  intro invite hinvite
  have hterms : invite.terms ∈ t.organizationInvites.map Invite.terms := List.mem_map_of_mem hinvite
  have hold : invite.terms ∈ s.organizationInvites.map Invite.terms → ∃ s' input,
      (s', .replaceInvite input) ∈ es ++ [(s, call)] ∧
      requireInviter s' input.organizationId input.invitedByUserId input.role = .ok () ∧
      invite.terms = newInvite s' input := by
    intro hmem
    obtain ⟨old, hold, heq⟩ := List.mem_map.1 hmem
    obtain ⟨s', input, hcall, hchecked, hnew⟩ := h old hold
    exact ⟨s', input, List.mem_append_left _ hcall, hchecked, heq.symm.trans hnew⟩
  rcases terms_step effect with hsame | ⟨input, rfl, hchecked, happend⟩
  · exact hold (hsame ▸ hterms)
  · rw [happend, List.mem_append, List.mem_singleton] at hterms
    rcases hterms with hmem | hnew
    · exact hold hmem
    · exact ⟨s, input, List.mem_append_right _ (List.mem_singleton.2 rfl), hchecked, hnew⟩

/-! ### Becoming an owner -/

/-- The user has a row with the role of an owner. -/
def IsOwner (s : MemberStore) (org user : String) : Prop :=
  ∃ row ∈ s.members, row.organizationId = org ∧ row.userId = user ∧ row.canonical = some OWNER

instance (s : MemberStore) (org user : String) : Decidable (IsOwner s org user) :=
  inferInstanceAs (Decidable (∃ row ∈ s.members, row.organizationId = org ∧ row.userId = user ∧
    row.canonical = some OWNER))

/-- The ways to become an owner: by a call in a store, behind a history of calls. -/
inductive Granted (es : List (MemberStore × MembershipCall)) (s : MemberStore) :
    MembershipCall → String → String → Prop
  | created {now : Int} {input : CreateOrganization} {user : String} {organization : Organization}
      (checked : checkedOrganization s now input = .ok (user, organization)) :
      Granted es s (.createOrganization now input) organization.id user
  | added {input : AddMember} {actorRole : String} (actor : input.actorRole = some actorRole)
      (owner : normalizeOrganizationRoleForRead actorRole = some OWNER) :
      Granted es s (.addMember input) input.organizationId input.userId
  | trusted {input : AddMember} (unnamed : input.actorRole = none) :
      Granted es s (.addMember input) input.organizationId input.userId
  | changed {input : RoleChange} {user : String}
      (owner : roleOf s input.organizationId input.actorUserId = some OWNER) :
      Granted es s (.changeRole input) input.organizationId user
  | accepted {tokenHash user : String} {now : Int} {invite : Invite} {s' : MemberStore} {input : InviteInput}
      (acceptable : acceptableInvite s tokenHash user now = some invite)
      (issued : (s', .replaceInvite input) ∈ es) (terms : invite.terms = newInvite s' input)
      (owner : roleOf s' input.organizationId input.invitedByUserId = some OWNER) :
      Granted es s (.acceptInvite tokenHash user now) invite.organizationId user

theorem addMember_granted {es : List (MemberStore × MembershipCall)} {input : AddMember} {role : String}
    {existing : Option MemberRow} (checked : checkedMember s input = .ok (role, existing))
    (howner : normalizeOrganizationRoleForRead role = some OWNER) :
    Granted es s (.addMember input) input.organizationId input.userId := by
  obtain ⟨-, parsed, hrole, -, hactor, -⟩ := checkedMember_ok checked
  obtain rfl : parsed = OWNER := Option.some.inj (hrole.symm.trans howner)
  cases hinput : input.actorRole with
  | none => exact .trusted hinput
  | some actorRole => exact .added hinput (hactor rfl actorRole hinput)

/-- A new owner among rows that were appended or rewritten is the new row. -/
theorem isOwner_append {row : MemberRow} (hnot : ¬ IsOwner s org user)
    (h : ∃ r ∈ s.members ++ [row], r.organizationId = org ∧ r.userId = user ∧ r.canonical = some OWNER) :
    row.organizationId = org ∧ row.userId = user ∧ row.canonical = some OWNER := by
  obtain ⟨r, hr, hrow⟩ := h
  rcases List.mem_append.1 hr with hr | hr
  · exact absurd ⟨r, hr, hrow⟩ hnot
  · rw [List.mem_singleton.1 hr] at hrow
    exact hrow

theorem isOwner_updateFirst {p : MemberRow → Bool} {f : MemberRow → MemberRow} {a : MemberRow}
    (found : s.members.find? p = some a) (hnot : ¬ IsOwner s org user)
    (h : ∃ r ∈ Table.updateFirst p f s.members,
      r.organizationId = org ∧ r.userId = user ∧ r.canonical = some OWNER) :
    (f a).organizationId = org ∧ (f a).userId = user ∧ (f a).canonical = some OWNER := by
  obtain ⟨r, hr, hrow⟩ := h
  rcases Table.mem_updateFirst found hr with rfl | hr
  · exact hrow
  · exact absurd ⟨r, hr, hrow⟩ hnot

theorem isOwner_eraseP {p : MemberRow → Bool}
    (h : ∃ r ∈ s.members.eraseP p, r.organizationId = org ∧ r.userId = user ∧ r.canonical = some OWNER) :
    IsOwner s org user := by
  obtain ⟨r, hr, hrow⟩ := h
  exact ⟨r, List.mem_of_mem_eraseP hr, hrow⟩

theorem granted_step {es : List (MemberStore × MembershipCall)} (hissued : Issued es s)
    (effect : Effect sha256 s call t) (hnot : ¬ IsOwner s org user) (h : IsOwner t org user) :
    Granted es s call org user := by
  cases effect with
  | nothing | replaced | failed | revoked | accepted | elsewhere => exact absurd h hnot
  | founded checked =>
    obtain ⟨rfl, rfl, -⟩ := isOwner_append hnot h
    exact .created checked
  | added checked =>
    obtain ⟨rfl, rfl, howner⟩ := isOwner_append hnot h
    exact addMember_granted checked howner
  | @reroled input role existing checked =>
    have hfind := (checkedMember_ok checked).1
    obtain ⟨horg, huser⟩ := ofUser_eq hfind
    obtain ⟨rfl, rfl, howner⟩ := isOwner_updateFirst hfind hnot h
    have hgranted : Granted es s (.addMember input) input.organizationId input.userId :=
      addMember_granted checked howner
    rw [← horg, ← huser] at hgranted
    exact hgranted
  | removed | expelled | left => exact absurd (isOwner_eraseP h) hnot
  | @changed input target current checked =>
    obtain ⟨hfind, -, hactor, -, -⟩ := checkedRoleChange_ok checked
    obtain ⟨horg, -⟩ := ofId_eq hfind
    obtain ⟨rfl, rfl, howner⟩ := isOwner_updateFirst hfind hnot h
    have hrole : input.role = OWNER := Option.some.inj ((normalize_roleText input.role).symm.trans howner)
    show Granted es s _ target.organizationId target.userId
    rw [horg]
    exact .changed (hactor hrole)
  | @joined tokenHash userId now invite acceptable absent =>
    obtain ⟨rfl, rfl, howner⟩ := isOwner_append hnot h
    have hrole : invite.role = OWNER := Option.some.inj ((normalize_roleText invite.role).symm.trans howner)
    have hmem : invite ∈ s.organizationInvites := List.mem_of_find?_eq_some (acceptableInvite_eq_some acceptable).1
    obtain ⟨s', input, hcall, hchecked, hterms⟩ := hissued invite hmem
    have hinput : input.role = OWNER := by
      rw [← hrole]
      exact (congrArg Invite.role hterms).symm
    rw [hinput] at hchecked
    exact .accepted acceptable hcall hterms (requireInviter_owner hchecked)

end Steps

/-! ### Runs -/

section Runs

variable {sha256 : Label.Hash} {s t : MemberStore} {es : List (MemberStore × MembershipCall)}

theorem MembershipStep.effect {e : MemberStore × MembershipCall} (h : MembershipStep sha256 s e t) :
    Effect sha256 s e.2 t := by
  obtain ⟨-, rfl⟩ := h
  exact exec_effect sha256 s e.2

theorem Issued.run (hrun : Run (MembershipStep sha256) s es t) (hinvites : s.organizationInvites = []) :
    Issued es t := by
  refine hrun.history (I := Issued) ?_ ?_
  · rintro es s ⟨s₀, call⟩ t hissued ⟨rfl, rfl⟩
    exact hissued.step (exec_effect sha256 s₀ call)
  · intro invite hinvite
    rw [hinvites] at hinvite
    cases hinvite

/-- **An organization keeps an owner, and owners are granted.**  Along every run an organization that has an
owner keeps one, and a user becomes an owner only in one of the ways of `Granted`. -/
theorem owners_stay_and_are_granted (hinvites : s.organizationInvites = [])
    (hrun : Run (MembershipStep sha256) s es t) :
    (∀ org, 0 < ownerCount s org → 0 < ownerCount t org) ∧
      ∀ call org user, ¬ IsOwner t org user → IsOwner (call.exec sha256 t) org user → Granted es t call org user := by
  constructor
  · intro org howner
    refine hrun.invariant (I := fun u => 0 < ownerCount u org) ?_ howner
    intro s e t h hstep
    exact ownerCount_pos_step h hstep.effect
  · intro call org user hnot howner
    exact granted_step (Issued.run hrun hinvites) (exec_effect sha256 t call) hnot howner

end Runs

namespace Sample

def digest : Label.Hash := ⟨fun text => UInt8.ofNat text.length :: List.replicate 31 0, fun _ => rfl⟩

/-- An organization with one owner, and a user who is not a member. -/
def store : MemberStore where
  organizations := ⟨[⟨"org_a", "a"⟩], by simp⟩
  users := ⟨[{ id := "ada", email := "ada@club.dev", emailVerified := true },
    { id := "grace", email := "grace@club.dev", emailVerified := true }], by simp⟩
  members := [{ organizationId := "org_a", userId := "ada", role := "OWNER" }]
  organizationInvites := []

def invitation : InviteInput :=
  { id := "inv_1", organizationId := "org_a", email := "grace@club.dev", role := OWNER, tokenHash := "hash_1"
    invitedByUserId := "ada", expiresAt := 1000, createdAt := 0 }

def acceptance : MembershipCall := .acceptInvite "hash_1" "grace" 500

end Sample

/-- Grace becomes an owner with the invite of an owner. -/
theorem owners_stay_and_are_granted_invited :
    0 < ownerCount ((MembershipCall.replaceInvite Sample.invitation).exec Sample.digest Sample.store) "org_a" ∧
      Granted [(Sample.store, .replaceInvite Sample.invitation)]
        ((MembershipCall.replaceInvite Sample.invitation).exec Sample.digest Sample.store)
        Sample.acceptance "org_a" "grace" := by
  obtain ⟨hstay, hgranted⟩ := owners_stay_and_are_granted (s := Sample.store) rfl
    (Run.single (e := (Sample.store, .replaceInvite Sample.invitation)) ⟨rfl, rfl⟩)
  exact ⟨hstay "org_a" (by decide), hgranted Sample.acceptance "org_a" "grace" (by decide) (by decide)⟩

/-- A call of `addMember` that names no acting member makes an owner of anyone. -/
theorem addMember_without_actor_grants_owner :
    ¬ IsOwner Sample.store "org_a" "grace" ∧
      IsOwner ((MembershipCall.addMember ⟨"org_a", "grace", "OWNER", none⟩).exec Sample.digest Sample.store)
        "org_a" "grace" := by
  decide

end RaibitServer.Membership
