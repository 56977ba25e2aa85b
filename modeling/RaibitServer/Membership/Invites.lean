import RaibitServer.Membership.Owners

/-!
# Membership.Invites — invites are used once and the latest wins

Invites are appended and never removed, so a place in the list names an invite.  A call leaves its terms
alone, and an invite that is accepted or revoked stays as it is (`Evolves`).  The invites of one address stand
in the order of their versions with all but the last one closed (`Before`).
-/

namespace RaibitServer.Membership

open Lib Core

/-! ### What a call does to the invites -/

/-- The places of the invites: terms stay, and a closed invite is left alone. -/
structure Evolves (invite later : Invite) : Prop where
  terms : later.terms = invite.terms
  closed : invite.pending = false → later = invite

theorem Evolves.refl (invite : Invite) : Evolves invite invite := ⟨rfl, fun _ => rfl⟩

variable {a b : Invite}

theorem Evolves.trans {c : Invite} (h : Evolves a b) (h' : Evolves b c) : Evolves a c := by
  refine ⟨h'.terms.trans h.terms, fun hclosed => ?_⟩
  obtain rfl := h.closed hclosed
  exact h'.closed hclosed

/-- An invite that a call closes was pending. -/
theorem Evolves.of_pending {invite later : Invite} (hpending : invite.pending = true)
    (hterms : later.terms = invite.terms) : Evolves invite later := by
  refine ⟨hterms, fun hclosed => ?_⟩
  rw [hpending] at hclosed
  cases hclosed

/-- Of two invites to one address the earlier one has the smaller version and is closed. -/
def Before (earlier later : Invite) : Prop :=
  later.organizationId = earlier.organizationId → later.email = earlier.email →
    earlier.tokenVersion < later.tokenVersion ∧ earlier.pending = false

theorem address_of_terms (h : a.terms = b.terms) :
    a.organizationId = b.organizationId ∧ a.email = b.email ∧ a.tokenVersion = b.tokenVersion := by
  have horg : a.terms.organizationId = b.terms.organizationId := by rw [h]
  have hemail : a.terms.email = b.terms.email := by rw [h]
  have hversion : a.terms.tokenVersion = b.terms.tokenVersion := by rw [h]
  exact ⟨horg, hemail, hversion⟩

theorem Before.of_evolves {a' b' : Invite} (h : Before a b) (ha : Evolves a a') (hb : b'.terms = b.terms) :
    Before a' b' := by
  obtain ⟨haorg, haemail, haversion⟩ := address_of_terms ha.terms
  obtain ⟨hborg, hbemail, hbversion⟩ := address_of_terms hb
  intro horg hemail
  rw [haorg, hborg] at horg
  rw [haemail, hbemail] at hemail
  obtain ⟨hversion, hclosed⟩ := h horg hemail
  refine ⟨by omega, ?_⟩
  rw [ha.closed hclosed]
  exact hclosed

section Steps

variable {sha256 : Label.Hash} {s t : MemberStore} {call : MembershipCall}

variable {invite : Invite} {now : Int} {tokenHash : String}

/-- The invite that a token opens. -/
theorem redeemable_iff :
    redeemable tokenHash now invite = true ↔
      invite.tokenHash = tokenHash ∧ invite.pending = true ∧ now < invite.expiresAt := by
  unfold redeemable
  rw [Bool.and_eq_true_iff, Bool.and_eq_true_iff, decide_eq_true_iff, decide_eq_true_iff, and_assoc]

theorem superseded_evolves (organizationId email : String) (now : Int) (invite : Invite) :
    Evolves invite (superseded organizationId email now invite) := by
  refine ⟨superseded_terms organizationId email now invite, fun hclosed => ?_⟩
  unfold superseded
  rw [hclosed, Bool.and_false, if_neg Bool.false_ne_true]

theorem superseded_closed {organizationId email : String} (horg : invite.organizationId = organizationId)
    (hemail : invite.email = email) : (superseded organizationId email now invite).pending = false := by
  have haddressed : addressedTo organizationId email invite = true := by
    unfold addressedTo
    rw [decide_eq_true horg, decide_eq_true hemail, Bool.and_true]
  unfold superseded
  rw [haddressed, Bool.true_and]
  cases hpending : invite.pending with
  | true => exact Bool.and_false _
  | false => exact hpending

theorem le_lastTokenVersion (h : invite ∈ s.organizationInvites) :
    invite.tokenVersion ≤ lastTokenVersion s invite.organizationId invite.email := by
  unfold lastTokenVersion
  refine Table.le_foldl_max (.inr ?_)
  exact List.mem_map_of_mem (List.mem_filter.2 ⟨h, by simp [addressedTo]⟩)

/-- What a call does to the list of invites: nothing, a change of one invite, or a new invite after the others of
its address are closed. -/
theorem Effect.invites (effect : Effect sha256 s call t) :
    t.organizationInvites = s.organizationInvites ∨
      (∃ p f, (∀ a, p a = true → Evolves a (f a)) ∧
        t.organizationInvites = Table.updateFirst p f s.organizationInvites) ∨
      ∃ input, t.organizationInvites =
        s.organizationInvites.map (superseded input.organizationId input.email input.createdAt) ++
          [newInvite s input] := by
  cases effect with
  | nothing | founded | added | reroled | removed | changed | expelled | left | elsewhere => exact .inl rfl
  | failed =>
    refine .inr (.inl ⟨_, _, ?_, rfl⟩)
    exact fun _ ha => .of_pending (Bool.and_eq_true_iff.1 ha).2 rfl
  | revoked =>
    refine .inr (.inl ⟨_, _, ?_, rfl⟩)
    exact fun _ ha => .of_pending (Bool.and_eq_true_iff.1 ha).2 rfl
  | accepted | joined =>
    refine .inr (.inl ⟨_, _, ?_, rfl⟩)
    exact fun _ ha => .of_pending (redeemable_iff.1 ha).2.1 rfl
  | @replaced input checked => exact .inr (.inr ⟨input, rfl⟩)

/-- Every place after a call. -/
theorem Effect.evolves (effect : Effect sha256 s call t) {i : Nat} (h : s.organizationInvites[i]? = some invite) :
    ∃ later, t.organizationInvites[i]? = some later ∧ Evolves invite later := by
  rcases effect.invites with hsame | ⟨p, f, hf, hupdate⟩ | ⟨input, hreplaced⟩
  · exact ⟨invite, hsame ▸ h, .refl invite⟩
  · rw [hupdate]
    obtain ⟨later, hlater, rfl | ⟨hfind, rfl⟩⟩ := Table.getElem?_updateFirst (p := p) (f := f) h
    · exact ⟨_, hlater, .refl _⟩
    · exact ⟨_, hlater, hf _ (List.find?_some hfind)⟩
  · refine ⟨superseded input.organizationId input.email input.createdAt invite, ?_, superseded_evolves _ _ _ invite⟩
    rw [hreplaced, List.getElem?_append_left, List.getElem?_map, h, Option.map_some]
    rw [List.length_map]
    exact (List.getElem?_eq_some_iff.1 h).1

/-- The order of the invites to one address. -/
theorem Effect.pairwise (effect : Effect sha256 s call t) (h : s.organizationInvites.Pairwise Before) :
    t.organizationInvites.Pairwise Before := by
  rcases effect.invites with hsame | ⟨p, f, hf, hupdate⟩ | ⟨input, hreplaced⟩
  · rwa [hsame]
  · rw [hupdate]
    refine Table.pairwise_updateFirst (fun a b ha hab => ?_) (fun a b hb hab => ?_) h
    · exact hab.of_evolves (hf a ha) rfl
    · exact hab.of_evolves (.refl a) (hf b hb).terms
  · rw [hreplaced]
    refine List.pairwise_append.2 ⟨?_, List.pairwise_singleton _ _, ?_⟩
    · refine List.pairwise_map.2 (h.imp fun hab => ?_)
      exact hab.of_evolves (superseded_evolves _ _ _ _) (superseded_terms _ _ _ _)
    · intro earlier hearlier later hlater horg hemail
      obtain ⟨invite, hinvite, rfl⟩ := List.mem_map.1 hearlier
      obtain rfl := List.mem_singleton.1 hlater
      obtain ⟨hsameOrg, hsameEmail, hsameVersion⟩ :=
        address_of_terms (superseded_terms input.organizationId input.email input.createdAt invite)
      have hinviteOrg : invite.organizationId = input.organizationId := hsameOrg.symm.trans horg.symm
      have hinviteEmail : invite.email = input.email := hsameEmail.symm.trans hemail.symm
      refine ⟨?_, superseded_closed hinviteOrg hinviteEmail⟩
      have hversion := le_lastTokenVersion hinvite
      rw [hinviteOrg, hinviteEmail] at hversion
      rw [hsameVersion]
      exact Nat.lt_succ_of_le hversion

/-! ### Acceptance -/

/-- What an accepted invite was: pending, not expired, and addressed to the verified user who accepts it. -/
structure Redeems (s : MemberStore) (tokenHash userId : String) (now : Int) (invite : Invite) : Prop where
  tokenHash : invite.tokenHash = tokenHash
  pending : invite.pending = true
  unexpired : now < invite.expiresAt
  addressee : ∃ user, s.users.get? userId = some user ∧ user.emailVerified = true ∧ user.email = invite.email

theorem acceptableInvite_redeems {userId : String} (h : acceptableInvite s tokenHash userId now = some invite) :
    s.organizationInvites.find? (redeemable tokenHash now) = some invite ∧ Redeems s tokenHash userId now invite := by
  obtain ⟨hfind, huser⟩ := acceptableInvite_eq_some h
  obtain ⟨hhash, hpending, hexpires⟩ := redeemable_iff.1 (List.find?_some hfind)
  exact ⟨hfind, hhash, hpending, hexpires, huser⟩

/-- Only an acceptance accepts. -/
theorem Effect.accepts (effect : Effect sha256 s call t) {i : Nat} {later : Invite}
    (h : s.organizationInvites[i]? = some invite) (hlater : t.organizationInvites[i]? = some later)
    (hne : later.acceptedAt ≠ invite.acceptedAt) :
    ∃ tokenHash userId now, call = .acceptInvite tokenHash userId now ∧ Redeems s tokenHash userId now invite ∧
      later.acceptedAt = some now := by
  have hupdate : ∀ (p : Invite → Bool) (f : Invite → Invite),
      (Table.updateFirst p f s.organizationInvites)[i]? = some later →
      s.organizationInvites.find? p = some invite ∧ later = f invite := by
    intro p f hupdated
    obtain ⟨b, hb, hcases⟩ := Table.getElem?_updateFirst (p := p) (f := f) h
    obtain rfl : b = later := Option.some.inj (hb.symm.trans hupdated)
    rcases hcases with rfl | hcases
    · exact absurd rfl hne
    · exact hcases
  have hsame : s.organizationInvites[i]? = some later → False := fun hagain => by
    obtain rfl : invite = later := Option.some.inj (h.symm.trans hagain)
    exact hne rfl
  cases effect with
  | nothing | founded | added | reroled | removed | changed | expelled | left | elsewhere => exact (hsame hlater).elim
  | failed | revoked =>
    obtain ⟨-, rfl⟩ := hupdate _ _ hlater
    exact absurd rfl hne
  | @accepted tokenHash userId now found acceptable | @joined tokenHash userId now found acceptable =>
    obtain ⟨hfind, hredeems⟩ := acceptableInvite_redeems acceptable
    obtain ⟨hfound, rfl⟩ := hupdate _ _ hlater
    obtain rfl : found = invite := Option.some.inj (hfind.symm.trans hfound)
    exact ⟨tokenHash, userId, now, rfl, hredeems, rfl⟩
  | @replaced input checked =>
    rw [List.getElem?_append_left, List.getElem?_map, h, Option.map_some] at hlater
    · obtain rfl := Option.some.inj hlater
      refine absurd ?_ hne
      unfold superseded
      split <;> rfl
    · rw [List.length_map]
      exact (List.getElem?_eq_some_iff.1 h).1

theorem acceptInvite_isSome (s : MemberStore) (tokenHash userId : String) (now : Int) :
    (acceptMemoryOrganizationInvite s tokenHash userId now).1.isSome =
      (acceptableInvite s tokenHash userId now).isSome := by
  unfold acceptMemoryOrganizationInvite
  split
  · next h => rw [h]; rfl
  · next invite h =>
    rw [h]
    dsimp only
    split <;> rfl

/-! ### Uses of a token -/

/-- The call of a label accepts an invite with this token. -/
def uses (tokenHash : String) : MemberStore × MembershipCall → Bool
  | (s, .acceptInvite hash userId now) =>
    hash = tokenHash && (acceptMemoryOrganizationInvite s hash userId now).1.isSome
  | _ => false

theorem uses_redeems {e : MemberStore × MembershipCall} (h : uses tokenHash e = true) :
    ∃ userId now invite, e.2 = .acceptInvite tokenHash userId now ∧
      acceptableInvite e.1 tokenHash userId now = some invite := by
  obtain ⟨s, call⟩ := e
  cases call with
  | acceptInvite hash userId now =>
    obtain ⟨hhash, hsome⟩ := Bool.and_eq_true_iff.1 h
    obtain rfl := of_decide_eq_true hhash
    rw [acceptInvite_isSome] at hsome
    obtain ⟨invite, hinvite⟩ := Option.isSome_iff_exists.1 hsome
    exact ⟨userId, now, invite, rfl, hinvite⟩
  | _ => cases h

def DistinctTokens (s : MemberStore) : Prop := (s.organizationInvites.map Invite.tokenHash).Nodup

/-- An invite with this token is closed. -/
def Spent (s : MemberStore) (tokenHash : String) : Prop :=
  ∃ invite ∈ s.organizationInvites, invite.tokenHash = tokenHash ∧ invite.pending = false

theorem Effect.distinct (effect : Effect sha256 s call t) (h : DistinctTokens t) : DistinctTokens s := by
  have hterms : ∀ l : List Invite, l.map Invite.tokenHash = (l.map Invite.terms).map Invite.tokenHash := fun l => by
    rw [List.map_map]
    rfl
  unfold DistinctTokens at h ⊢
  rw [hterms] at h ⊢
  rcases terms_step effect with hsame | ⟨input, -, -, happend⟩
  · rwa [hsame] at h
  · rw [happend, List.map_append] at h
    exact (List.nodup_append.1 h).1

theorem Effect.spent (effect : Effect sha256 s call t) (h : Spent s tokenHash) : Spent t tokenHash := by
  obtain ⟨invite, hinvite, hhash, hclosed⟩ := h
  obtain ⟨i, hi⟩ := List.mem_iff_getElem?.1 hinvite
  obtain ⟨later, hlater, hevolves⟩ := effect.evolves hi
  obtain rfl := hevolves.closed hclosed
  exact ⟨later, List.mem_of_getElem? hlater, hhash, hclosed⟩

/-- A token that is used was not spent, and is spent afterwards. -/
theorem uses_spends {tokenHash : String} (hdistinct : DistinctTokens s) (huses : uses tokenHash (s, call) = true) :
    ¬ Spent s tokenHash ∧ Spent (call.exec sha256 s) tokenHash := by
  obtain ⟨userId, now, invite, hcall, hacceptable⟩ := uses_redeems huses
  obtain rfl : call = .acceptInvite tokenHash userId now := hcall
  obtain ⟨hfind, hredeems⟩ := acceptableInvite_redeems hacceptable
  have hmem := List.mem_of_find?_eq_some hfind
  constructor
  · rintro ⟨other, hother, hhash, hclosed⟩
    obtain rfl : other = invite :=
      List.inj_on_of_nodup_map hdistinct hother hmem (hhash.trans hredeems.tokenHash.symm)
    rw [hredeems.pending] at hclosed
    cases hclosed
  · obtain ⟨l₁, l₂, -, hupdate, -⟩ :=
      Table.updateFirst_split (f := fun invite => { invite with acceptedAt := some now }) hfind
    refine ⟨{ invite with acceptedAt := some now }, ?_, hredeems.tokenHash, rfl⟩
    have hinvites : ((MembershipCall.acceptInvite tokenHash userId now).exec sha256 s).organizationInvites =
        l₁ ++ { invite with acceptedAt := some now } :: l₂ := by
      show (acceptMemoryOrganizationInvite s tokenHash userId now).2.organizationInvites = _
      unfold acceptMemoryOrganizationInvite
      rw [hacceptable, ← hupdate]
      dsimp only
      split <;> rfl
    rw [hinvites]
    simp

end Steps

/-! ### Runs -/

section Runs

variable {sha256 : Label.Hash} {s t u : MemberStore} {es es' : List (MemberStore × MembershipCall)}

theorem pairwise_run (hrun : Run (MembershipStep sha256) s es t) (hinvites : s.organizationInvites = []) :
    t.organizationInvites.Pairwise Before := by
  refine hrun.invariant (I := fun u => u.organizationInvites.Pairwise Before) ?_ ?_
  · intro s e t h hstep
    exact hstep.effect.pairwise h
  · rw [hinvites]
    exact .nil

/-- A token is used once at most, and is spent afterwards. -/
theorem uses_run (tokenHash : String) (hrun : Run (MembershipStep sha256) s es t) (hdistinct : DistinctTokens t) :
    es.countP (uses tokenHash) ≤ 1 ∧ (0 < es.countP (uses tokenHash) → Spent t tokenHash) := by
  induction hrun with
  | nil => exact ⟨Nat.zero_le _, fun h => absurd h (Nat.lt_irrefl 0)⟩
  | @snoc es t u e run last ih =>
    obtain ⟨hcount, hspent⟩ := ih (last.effect.distinct hdistinct)
    rw [List.countP_append, List.countP_singleton]
    by_cases huses : uses tokenHash e = true
    · obtain ⟨rfl, rfl⟩ := last
      have hbefore : DistinctTokens e.1 := (exec_effect sha256 e.1 e.2).distinct hdistinct
      obtain ⟨hunspent, hnow⟩ := @uses_spends sha256 e.1 e.2 tokenHash hbefore huses
      have hzero : es.countP (uses tokenHash) = 0 := by
        by_contra hne
        exact hunspent (hspent (Nat.pos_of_ne_zero hne))
      rw [hzero, if_pos huses]
      exact ⟨le_rfl, fun _ => hnow⟩
    · rw [if_neg huses, Nat.add_zero]
      exact ⟨hcount, fun h => last.effect.spent (hspent h)⟩

/-- The invites of an address that can still be accepted. -/
def pendingFor (s : MemberStore) (organizationId email : String) : List Invite :=
  s.organizationInvites.filter fun invite => addressedTo organizationId email invite && invite.pending

theorem pendingFor_length (organizationId email : String) (h : s.organizationInvites.Pairwise Before) :
    (pendingFor s organizationId email).length ≤ 1 := by
  have hpairwise : (pendingFor s organizationId email).Pairwise Before := h.sublist List.filter_sublist
  have hmem : ∀ invite ∈ pendingFor s organizationId email,
      invite.organizationId = organizationId ∧ invite.email = email ∧ invite.pending = true := by
    intro invite hinvite
    have hcond := (List.mem_filter.1 hinvite).2
    unfold addressedTo at hcond
    simpa [and_assoc] using hcond
  match hlist : pendingFor s organizationId email with
  | [] => exact Nat.zero_le 1
  | [_] => exact le_rfl
  | a :: b :: rest =>
    rw [hlist] at hpairwise hmem
    obtain ⟨haorg, haemail, hapending⟩ := hmem a (by simp)
    obtain ⟨hborg, hbemail, -⟩ := hmem b (by simp)
    have hbefore := (List.pairwise_cons.1 hpairwise).1 b (by simp)
    obtain ⟨-, hclosed⟩ := hbefore (hborg.trans haorg.symm) (hbemail.trans haemail.symm)
    rw [hapending] at hclosed
    cases hclosed

/-- What holds of the invites behind a history. -/
structure SingleUse (sha256 : Label.Hash) (es : List (MemberStore × MembershipCall)) (t : MemberStore) : Prop where
  /-- A replacement that succeeds adds the invite it returns behind all others. -/
  created : ∀ input invite, (replaceMemoryOrganizationInvite t input).1 = .ok invite →
    invite.organizationId = input.organizationId ∧ invite.email = input.email ∧ invite.pending = true ∧
    ∃ older, ((MembershipCall.replaceInvite input).exec sha256 t).organizationInvites = older ++ [invite] ∧
      older.length = t.organizationInvites.length
  /-- At most one invite of an address is pending. -/
  pending : ∀ organizationId email, (pendingFor t organizationId email).length ≤ 1
  /-- Versions increase along creations, and a newer invite has closed the older ones. -/
  latest : t.organizationInvites.Pairwise Before
  /-- An invite that is accepted, revoked or superseded stays as it is, and no invite changes its terms. -/
  closed : ∀ es' u, Run (MembershipStep sha256) t es' u →
    ∀ (i : Nat) (invite : Invite), t.organizationInvites[i]? = some invite →
    ∃ later, u.organizationInvites[i]? = some later ∧ Evolves invite later
  /-- A token is used once. -/
  once : DistinctTokens t → ∀ tokenHash, es.countP (uses tokenHash) ≤ 1
  /-- An invite is accepted while it is pending and not expired, by the verified user it is addressed to. -/
  accepted : ∀ (call : MembershipCall) (i : Nat) (invite later : Invite), t.organizationInvites[i]? = some invite →
    (call.exec sha256 t).organizationInvites[i]? = some later → later.acceptedAt ≠ invite.acceptedAt →
    ∃ tokenHash userId now, call = .acceptInvite tokenHash userId now ∧ Redeems t tokenHash userId now invite ∧
      later.acceptedAt = some now
  /-- An acceptance changes no member that is there. -/
  members : ∀ tokenHash userId now, ∃ joined,
    ((MembershipCall.acceptInvite tokenHash userId now).exec sha256 t).members = t.members ++ joined ∧
      ∀ row ∈ joined, t.members.find? (ofUser row.organizationId row.userId) = none

/-- **Invites are used once and the latest wins**, in every run that starts without invites. -/
theorem invites_single_use (hinvites : s.organizationInvites = []) (hrun : Run (MembershipStep sha256) s es t) :
    SingleUse sha256 es t where
  created input invite h := by
    rw [MembershipCall.exec]
    unfold replaceMemoryOrganizationInvite at h ⊢
    split at h
    · cases h
    · obtain rfl := Except.ok.inj h
      exact ⟨rfl, rfl, rfl, _, rfl, List.length_map _⟩
  pending organizationId email := pendingFor_length organizationId email (pairwise_run hrun hinvites)
  latest := pairwise_run hrun hinvites
  closed _ _ hrun' i invite h := by
    induction hrun' with
    | nil => exact ⟨invite, h, .refl invite⟩
    | snoc run last ih =>
      obtain ⟨middle, hmiddle, hfirst⟩ := ih
      obtain ⟨later, hlater, hnext⟩ := last.effect.evolves hmiddle
      exact ⟨later, hlater, hfirst.trans hnext⟩
  once hdistinct tokenHash := (uses_run tokenHash hrun hdistinct).1
  accepted call _ _ _ h hlater hne := (exec_effect sha256 t call).accepts h hlater hne
  members tokenHash userId now := by
    rw [MembershipCall.exec]
    unfold acceptMemoryOrganizationInvite
    split
    · exact ⟨[], (List.append_nil _).symm, by simp⟩
    · dsimp only
      split
      · exact ⟨[], (List.append_nil _).symm, by simp⟩
      · next habsent =>
        refine ⟨_, rfl, fun row hrow => ?_⟩
        obtain rfl := List.mem_singleton.1 hrow
        exact Option.not_isSome_iff_eq_none.1 habsent

end Runs

/-- An owner invites Grace, who accepts. -/
theorem invites_single_use_accepted :
    SingleUse Sample.digest
      [(Sample.store, .replaceInvite Sample.invitation),
        ((MembershipCall.replaceInvite Sample.invitation).exec Sample.digest Sample.store, Sample.acceptance)]
      (Sample.acceptance.exec Sample.digest
        ((MembershipCall.replaceInvite Sample.invitation).exec Sample.digest Sample.store)) := by
  have hinvite : Run (MembershipStep Sample.digest) Sample.store [(Sample.store, .replaceInvite Sample.invitation)]
      ((MembershipCall.replaceInvite Sample.invitation).exec Sample.digest Sample.store) := Run.single ⟨rfl, rfl⟩
  exact invites_single_use rfl (hinvite.append (Run.single ⟨rfl, rfl⟩))

end RaibitServer.Membership
