import Mathlib.Data.List.Pairwise
import RaibitServer.Auth.RateLimit
import RaibitServer.Core.Ids
import RaibitServer.Lib.Json
import RaibitServer.Lib.Run

/-!
# Auth.VerificationCodes — codes that are mailed for a signup or a password reset

The memory store keeps a list of codes.  A new code consumes those of the same address and purpose whose id
is another one.  An id is a slug of at most 63 characters: for a long address it may be that of the code
before, which then stays open.  `only_latest_code_works` is about the runs in which every new id is new.

`Code.serial` numbers the codes in the order of their creation; only statements read it.  `sentAt` and
`updatedAt`, which nothing reads, are left out, and what a completion does besides the code (users,
organizations, memberships) is a parameter.
-/

namespace RaibitServer.Auth

open Lib

/-! ### Codes and calls -/

structure Code where
  serial : Nat
  id : String
  userId : Option String
  email : String
  purpose : String
  payload : Option JsonObject
  codeHash : String
  codeSalt : String
  /-- The time that the text denotes, if it denotes one. -/
  expiresAt : Option Int
  consumedAt : Option String
  attempts : Int
  createdAt : String

/-- The texts of the clock are `nowIso()`. -/
structure CodeInput where
  userId : Option String
  email : Option String
  purpose : Option String
  payload : Option JsonObject
  codeHash : String
  codeSalt : String
  expiresAt : Option Int
  attempts : Option Int
  now : Int
  idNow : Int
  createdAt : String
  consumedAt : String

structure CompleteInput where
  email : Option String
  purpose : Option String
  now : Int
  /-- What `verifyCode` says of a code, where it is a function. -/
  verifyCode : Option (Code → Bool)
  resolvePolicy : Option (JsonObject → Bool → JsonObject)
  passwordHash : String

structure DeliveryInput where
  challengeId : Option String
  failedAt : Option String
  now : Int
  nowIso : String

inductive CodeCall
  | replaceEmailVerificationCode (input : CodeInput)
  | completeSignupEmailVerification (input : CompleteInput)
  | completePasswordRecovery (input : CompleteInput)
  | failPasswordRecoveryDelivery (input : DeliveryInput)

/-- What a call did to codes: a guess that was compared and wrong, a completion, and the serials of the codes
that it replaced or consumed, or that were not delivered. -/
structure CodeEvent where
  now : Int
  guessed : Option Nat
  completed : Option Code
  ended : List Nat

/-- What the completions do on the rest `A` of the store. -/
structure AccountHost (A : Type) where
  /-- The checks and creations of a signup: whether they were all done, and what they leave. -/
  signup : A → CompleteInput → String → JsonObject → Bool × A
  /-- The user with the new password; `none` if the payload names no eligible one. -/
  reset : A → CompleteInput → String → JsonObject → Option A
  toISOString : Int → String
  /-- `localeCompare` is not positive. -/
  localeLe : String → String → Bool

structure CodeStore (A : Type) where
  rest : A
  codes : List Code
  /-- The serial of the next code. -/
  next : Nat

/-! ### The store -/

/-- `String(value || fallback)`. -/
def textOr (value : Option String) (fallback : String) : String := Text.jsOr (value.getD "") fallback

/-- `!consumedAt`. -/
abbrev Code.Unconsumed (code : Code) : Prop := code.consumedAt = none

/-- The codes of an address and a purpose that are not consumed. -/
def Code.isOpen (email purpose : String) (code : Code) : Bool :=
  code.email = email && code.purpose = purpose && decide code.Unconsumed

/-- `Date.parse(expiresAt || '') <= now`. -/
def Code.expired (now : Int) (code : Code) : Bool := code.expiresAt.any (· ≤ now)

def Code.consume (time : String) (code : Code) : Code := { code with consumedAt := some time }

/-- `payload.kind`. -/
def payloadKind (payload : JsonObject) : Option String := Json.asString (Json.member payload "kind")

section Store

variable {A : Type} (host : AccountHost A) (maxAttempts : Option Int)

/-- The codes that a replacement leaves in the list before it adds its own. -/
def CodeStore.kept (s : CodeStore A) (input : CodeInput) : List Code :=
  pruneRows (fun row => row.expiresAt.any (· > input.now)) authRetentionPruneBatchSize s.codes

/-- `createEmailVerificationCode`. -/
def CodeStore.newCode (s : CodeStore A) (input : CodeInput) : Code where
  serial := s.next
  id := Core.stableId "evc" [input.userId.getD "", input.email.getD "", toString input.idNow,
    toString (s.kept input).length]
  userId := input.userId.filter (· ≠ "")
  email := Text.jsLower (input.email.getD "")
  purpose := textOr input.purpose "signup"
  payload := input.payload
  codeHash := input.codeHash
  codeSalt := input.codeSalt
  expiresAt := input.expiresAt
  consumedAt := none
  attempts := input.attempts.getD 0
  createdAt := input.createdAt

/-- The loop of a replacement. -/
def Code.supersede (replacement : Code) (time : String) (row : Code) : Code :=
  if row.id ≠ replacement.id ∧ row.isOpen replacement.email replacement.purpose then row.consume time else row

def replaceEmailVerificationCode (s : CodeStore A) (input : CodeInput) : CodeEvent × CodeStore A :=
  let replacement := s.newCode input
  let replaced := s.codes.filter fun row => row.email = replacement.email && row.purpose = replacement.purpose
  (⟨input.now, none, none, replaced.map (·.serial)⟩,
    { s with
      codes := (s.kept input ++ [replacement]).map (replacement.supersede input.consumedAt)
      next := s.next + 1 })

/-- `Math.max(1, Number(maxAttempts || 5))`. -/
def attemptLimit : Int := max 1 ((maxAttempts.filter (· ≠ 0)).getD 5)

/-- The first of the open codes, the latest `createdAt` first. -/
def CodeStore.latest (s : CodeStore A) (email purpose : String) : Option Code :=
  ((s.codes.filter (Code.isOpen email purpose)).insertionSort fun left right =>
    host.localeLe right.createdAt left.createdAt).head?

/-- A change of one code. -/
def CodeStore.update (s : CodeStore A) (code : Code) (change : Code → Code) : CodeStore A :=
  { s with codes := s.codes.map fun row => if row.serial = code.serial then change row else row }

/-- What both completions begin with: the code is looked up and compared, and `finish` gets one that is right. -/
def completeCode (s : CodeStore A) (email purpose : String) (input : CompleteInput)
    (finish : Code → CodeEvent × CodeStore A) : CodeEvent × CodeStore A :=
  match s.latest host email purpose with
  | none => (⟨input.now, none, none, []⟩, s)
  | some row =>
    if row.expired input.now ∨ row.attempts ≥ attemptLimit maxAttempts then (⟨input.now, none, none, []⟩, s)
    else if input.verifyCode.any (· row) then finish row
    else (⟨input.now, some row.serial, none, []⟩,
      s.update row fun row => { row with attempts := min (attemptLimit maxAttempts) (row.attempts + 1) })

def completeSignupEmailVerification (s : CodeStore A) (input : CompleteInput) : CodeEvent × CodeStore A :=
  let email := Text.jsLower (Text.jsTrim (input.email.getD ""))
  completeCode host maxAttempts s email (textOr input.purpose "signup") input fun row =>
    let payload := row.payload.getD []
    if payloadKind payload ≠ some "signup" then (⟨input.now, none, none, []⟩, s)
    else match host.signup s.rest input email payload with
      -- a check has thrown: the code stays open
      | (false, rest) => (⟨input.now, none, none, []⟩, { s with rest })
      | (true, rest) => (⟨input.now, none, some row, [row.serial]⟩,
        { s.update row (Code.consume (host.toISOString input.now)) with rest })

def completePasswordRecovery (s : CodeStore A) (input : CompleteInput) : CodeEvent × CodeStore A :=
  let email := Text.jsLower (Text.jsTrim (input.email.getD ""))
  let purpose := textOr input.purpose "password-reset"
  let time := host.toISOString input.now
  completeCode host maxAttempts s email purpose input fun record =>
    let payload := record.payload.getD []
    let eligible := if payloadKind payload ≠ some purpose then none else host.reset s.rest input email payload
    match eligible with
    | none => (⟨input.now, none, none, [record.serial]⟩, s.update record (Code.consume time))
    | some rest =>
      (⟨input.now, none, some record, (s.codes.filter (Code.isOpen email purpose)).map (·.serial)⟩,
        { s with
          rest
          codes := s.codes.map fun candidate =>
            if candidate.isOpen email purpose then candidate.consume time else candidate })

def failPasswordRecoveryDelivery (s : CodeStore A) (input : DeliveryInput) : CodeEvent × CodeStore A :=
  let challengeId := input.challengeId.getD ""
  (⟨input.now, none, none, (s.codes.filter (·.id = challengeId)).map (·.serial)⟩,
    match s.codes.find? (·.id = challengeId) with
    | none => s
    | some record => s.update record fun row =>
      if row.Unconsumed then row.consume (textOr input.failedAt input.nowIso) else row)

def CodeStore.exec (s : CodeStore A) : CodeCall → CodeEvent × CodeStore A
  | .replaceEmailVerificationCode input => replaceEmailVerificationCode s input
  | .completeSignupEmailVerification input => completeSignupEmailVerification host maxAttempts s input
  | .completePasswordRecovery input => completePasswordRecovery host maxAttempts s input
  | .failPasswordRecoveryDelivery input => failPasswordRecoveryDelivery s input

/-- No code in the list has the id of the new one, and that one starts with no negative number of attempts. -/
def CodeStore.Meets (s : CodeStore A) : CodeCall → Prop
  | .replaceEmailVerificationCode input =>
    (∀ row ∈ s.kept input, row.id ≠ (s.newCode input).id) ∧ 0 ≤ input.attempts.getD 0
  | _ => True

/-- One call, in a state in which it meets the condition. -/
def CodeStep (s : CodeStore A) (e : CodeEvent) (t : CodeStore A) : Prop :=
  ∃ call, s.Meets call ∧ s.exec host maxAttempts call = (e, t)

/-! ### What one call does -/

/-- What happens to a code that stays: it is consumed, or wrongly guessed. -/
structure Code.Later (a b : Code) : Prop where
  serial : b.serial = a.serial
  id : b.id = a.id
  email : b.email = a.email
  purpose : b.purpose = a.purpose
  consumed : b.Unconsumed → a.Unconsumed
  attempts : a.attempts ≤ b.attempts

theorem Code.later_refl (a : Code) : a.Later a := ⟨rfl, rfl, rfl, rfl, fun h => h, le_rfl⟩

theorem Code.later_consume (time : String) (a : Code) : a.Later (a.consume time) :=
  ⟨rfl, rfl, rfl, rfl, nofun, le_rfl⟩

variable {a b code row : Code} {email purpose : String}

theorem Code.later_ite {p : Prop} [Decidable p] (h : p → a.Later b) : a.Later (if p then b else a) := by
  split
  · exact h ‹p›
  · exact a.later_refl

/-- Two codes have serials and ids of their own, and are not both open for one address and purpose. -/
structure Code.Apart (a b : Code) : Prop where
  serial : a.serial ≠ b.serial
  id : a.id ≠ b.id
  closed : a.email = b.email → a.purpose = b.purpose → a.Unconsumed → ¬ b.Unconsumed

instance : Std.Symm Code.Apart where
  symm _ _ h := ⟨h.serial.symm, h.id.symm, fun hemail hpurpose hb ha => h.closed hemail.symm hpurpose.symm ha hb⟩

theorem Code.Apart.later {a' b' : Code} (h : a.Apart b) (ha : a.Later a') (hb : b.Later b') : a'.Apart b' where
  serial := by
    rw [ha.serial, hb.serial]
    exact h.serial
  id := by
    rw [ha.id, hb.id]
    exact h.id
  closed := by
    intro hemail hpurpose hopen hopen'
    rw [ha.email, hb.email] at hemail
    rw [ha.purpose, hb.purpose] at hpurpose
    exact h.closed hemail hpurpose (ha.consumed hopen) (hb.consumed hopen')

structure CodeStore.Sound (s : CodeStore A) : Prop where
  apart : s.codes.Pairwise Code.Apart
  below : ∀ row ∈ s.codes, row.serial < s.next

/-- **What a call does to the codes**: some are dropped, the others change, and new ones are added. -/
structure Effect (limit : Int) (s : CodeStore A) (e : CodeEvent) (t : CodeStore A) (rows : List Code)
    (change : Code → Code) (new : List Code) : Prop where
  kept : rows.Sublist s.codes
  codes : t.codes = rows.map change ++ new
  next : t.next = s.next + new.length
  later : ∀ row ∈ rows, row.Later (change row)
  added : new = [] ∨ ∃ code, new = [code] ∧ code.serial = s.next ∧ 0 ≤ code.attempts ∧
    ∀ row ∈ rows, (change row).Apart code
  ended : ∀ row ∈ rows, row.serial ∈ e.ended → ¬ (change row).Unconsumed
  listed : ∀ n ∈ e.ended, ∃ row ∈ s.codes, row.serial = n
  guessed : ∀ n ∈ e.guessed, ∃ row ∈ s.codes, row.serial = n ∧ row.attempts < limit
  counted : ∀ row ∈ rows, e.guessed = some row.serial → row.attempts + 1 ≤ (change row).attempts
  completed : ∀ code ∈ e.completed,
    code ∈ s.codes ∧ code.Unconsumed ∧ code.expired e.now = false ∧ code.serial ∈ e.ended

variable {limit : Int} {s t : CodeStore A} {e : CodeEvent} {rows new : List Code} {change : Code → Code}

/-- A call that changes no code. -/
theorem Effect.idle (now : Int) (rest : A) :
    Effect limit s ⟨now, none, none, []⟩ { s with rest } s.codes id [] where
  kept := .refl _
  codes := by simp
  next := rfl
  later := fun row _ => row.later_refl
  added := .inl rfl
  ended := by simp
  listed := by simp
  guessed := by simp
  counted := by simp
  completed := by simp

theorem Code.isOpen_iff :
    code.isOpen email purpose = true ↔ code.email = email ∧ code.purpose = purpose ∧ code.Unconsumed := by
  simp [Code.isOpen, and_assoc]

theorem latest_isOpen (h : s.latest host email purpose = some row) :
    row ∈ s.codes ∧ row.isOpen email purpose = true := by
  have hmem := List.mem_of_mem_head? h
  rw [List.mem_insertionSort] at hmem
  exact List.mem_filter.1 hmem

theorem CodeStore.Sound.eq_of_serial (hs : s.Sound) (ha : a ∈ s.codes) (hb : b ∈ s.codes) (h : a.serial = b.serial) :
    a = b := by
  by_contra hne
  exact (hs.apart.forall ha hb hne).serial h

/-- A change of one code, `row`. -/
theorem Effect.update (hs : s.Sound) (hrow : row ∈ s.codes) (rest : A) (hlater : row.Later (change row))
    (hended : ∀ n ∈ e.ended, n = row.serial ∧ ¬ (change row).Unconsumed)
    (hguessed : ∀ n ∈ e.guessed, n = row.serial ∧ row.attempts < limit ∧ row.attempts + 1 ≤ (change row).attempts)
    (hcompleted : ∀ code ∈ e.completed,
      code = row ∧ row.Unconsumed ∧ row.expired e.now = false ∧ row.serial ∈ e.ended) :
    Effect limit s e { s.update row change with rest } s.codes
      (fun r => if r.serial = row.serial then change r else r) [] where
  kept := .refl _
  codes := (List.append_nil _).symm
  next := rfl
  later := by
    intro r hr
    refine Code.later_ite fun heq => ?_
    rw [hs.eq_of_serial hr hrow heq]
    exact hlater
  added := .inl rfl
  ended := by
    intro r hr hn
    obtain ⟨heq, hclosed⟩ := hended _ hn
    rw [if_pos heq, hs.eq_of_serial hr hrow heq]
    exact hclosed
  listed := fun n hn => ⟨row, hrow, (hended n hn).1.symm⟩
  guessed := fun n hn => ⟨row, hrow, (hguessed n hn).1.symm, (hguessed n hn).2.1⟩
  counted := by
    intro r hr hn
    obtain ⟨heq, -, hcount⟩ := hguessed _ hn
    rw [if_pos heq, hs.eq_of_serial hr hrow heq]
    exact hcount
  completed := by
    intro code hcode
    obtain ⟨rfl, hopen, hexpired, hended⟩ := hcompleted code hcode
    exact ⟨hrow, hopen, hexpired, hended⟩

/-- What a call answers and leaves is its effect on the codes. -/
def Acts (limit : Int) (s : CodeStore A) (r : CodeEvent × CodeStore A) : Prop :=
  ∃ rows change new, Effect limit s r.1 r.2 rows change new

theorem mem_serials {n : Nat} {p : Code → Bool} (h : n ∈ (s.codes.filter p).map (·.serial)) :
    ∃ row ∈ s.codes, row.serial = n ∧ p row = true := by
  obtain ⟨row, hrow, rfl⟩ := List.mem_map.1 h
  exact ⟨row, (List.mem_filter.1 hrow).1, rfl, (List.mem_filter.1 hrow).2⟩

theorem supersede_closed {replacement : Code} (time : String) (hid : row.id ≠ replacement.id)
    (hemail : row.email = replacement.email) (hpurpose : row.purpose = replacement.purpose) :
    ¬ (replacement.supersede time row).Unconsumed := by
  unfold Code.supersede
  split
  · exact nofun
  · rename_i hkept
    intro hopen
    exact hkept ⟨hid, Code.isOpen_iff.2 ⟨hemail, hpurpose, hopen⟩⟩

theorem replace_codes (s : CodeStore A) (input : CodeInput) : (replaceEmailVerificationCode s input).2.codes =
    (s.kept input ++ [s.newCode input]).map ((s.newCode input).supersede input.consumedAt) := rfl

theorem replace_acts (hs : s.Sound) (input : CodeInput)
    (hmeets : s.Meets (.replaceEmailVerificationCode input)) :
    Acts limit s (replaceEmailVerificationCode s input) := by
  obtain ⟨hid, hattempts⟩ := hmeets
  have hsub : (s.kept input).Sublist s.codes := pruneRows_sublist _ _ _
  have hserial : (s.newCode input).serial = s.next := rfl
  have hstart : (s.newCode input).attempts = input.attempts.getD 0 := rfl
  unfold replaceEmailVerificationCode
  -- nothing else about the new code is needed
  generalize s.newCode input = replacement at hid hserial hstart ⊢
  have hlater (row : Code) : row.Later (replacement.supersede input.consumedAt row) :=
    Code.later_ite fun _ => row.later_consume _
  have hself : replacement.supersede input.consumedAt replacement = replacement := if_neg fun h => h.1 rfl
  refine ⟨s.kept input, replacement.supersede input.consumedAt, [replacement], ?_⟩
  exact {
    kept := hsub
    codes := by simp [hself]
    next := rfl
    later := fun row _ => hlater row
    added := by
      refine .inr ⟨_, rfl, hserial, hstart ▸ hattempts, fun row hrow => ⟨?_, ?_, ?_⟩⟩
      · rw [(hlater row).serial, hserial]
        exact (hs.below row (hsub.subset hrow)).ne
      · rw [(hlater row).id]
        exact hid row hrow
      · intro hemail hpurpose hopen
        rw [(hlater row).email] at hemail
        rw [(hlater row).purpose] at hpurpose
        exact absurd hopen (supersede_closed _ (hid row hrow) hemail hpurpose)
    ended := by
      intro row hrow hn
      obtain ⟨row', hrow', heq, hfor⟩ := mem_serials hn
      obtain rfl := hs.eq_of_serial hrow' (hsub.subset hrow) heq
      obtain ⟨hemail, hpurpose⟩ : row'.email = replacement.email ∧ row'.purpose = replacement.purpose := by
        simpa using hfor
      exact supersede_closed _ (hid row' hrow) hemail hpurpose
    listed := by
      intro n hn
      obtain ⟨row, hrow, heq, -⟩ := mem_serials hn
      exact ⟨row, hrow, heq⟩
    guessed := by simp
    counted := by simp
    completed := by simp }

theorem completeCode_acts (hs : s.Sound) {input : CompleteInput} {finish : Code → CodeEvent × CodeStore A}
    (hfinish : ∀ row ∈ s.codes, row.isOpen email purpose = true → row.expired input.now = false →
      Acts (attemptLimit maxAttempts) s (finish row)) :
    Acts (attemptLimit maxAttempts) s (completeCode host maxAttempts s email purpose input finish) := by
  unfold completeCode
  cases hlatest : s.latest host email purpose with
  | none => exact ⟨_, _, _, Effect.idle input.now s.rest⟩
  | some row =>
    obtain ⟨hrow, hopen⟩ := latest_isOpen host hlatest
    dsimp only
    split
    · exact ⟨_, _, _, Effect.idle input.now s.rest⟩
    · rename_i hlive
      obtain ⟨hexpired, hattempts⟩ := not_or.1 hlive
      split
      · exact hfinish row hrow hopen (Bool.eq_false_of_not_eq_true hexpired)
      · refine ⟨_, _, _, Effect.update hs hrow s.rest ⟨rfl, rfl, rfl, rfl, fun h => h, ?_⟩ nofun ?_ nofun⟩
        · exact le_min (by omega) (by omega)
        · rintro n hn
          obtain rfl : row.serial = n := by simpa using hn
          exact ⟨rfl, by omega, le_min (by omega) le_rfl⟩

theorem signup_acts (hs : s.Sound) (input : CompleteInput) :
    Acts (attemptLimit maxAttempts) s (completeSignupEmailVerification host maxAttempts s input) := by
  refine completeCode_acts host maxAttempts hs fun row hrow hopen hexpired => ?_
  dsimp only
  split
  · exact ⟨_, _, _, Effect.idle input.now s.rest⟩
  · split
    · exact ⟨_, _, _, Effect.idle input.now _⟩
    · refine ⟨_, _, _, Effect.update hs hrow _ (row.later_consume _) ?_ nofun ?_⟩
      · intro n hn
        exact ⟨List.mem_singleton.1 hn, nofun⟩
      · rintro code hcode
        obtain rfl : row = code := by simpa using hcode
        exact ⟨rfl, (Code.isOpen_iff.1 hopen).2.2, hexpired, List.mem_singleton_self _⟩

theorem recovery_acts (hs : s.Sound) (input : CompleteInput) :
    Acts (attemptLimit maxAttempts) s (completePasswordRecovery host maxAttempts s input) := by
  refine completeCode_acts host maxAttempts hs fun row hrow hopen hexpired => ?_
  dsimp only
  split
  · refine ⟨_, _, _, Effect.update hs hrow s.rest (row.later_consume _) ?_ nofun nofun⟩
    intro n hn
    exact ⟨List.mem_singleton.1 hn, nofun⟩
  · -- every open code of the address and the purpose is consumed
    let consumed (code : Code) : Code :=
      if code.isOpen (Text.jsLower (Text.jsTrim (input.email.getD ""))) (textOr input.purpose "password-reset") then
        code.consume (host.toISOString input.now)
      else code
    refine ⟨s.codes, consumed, [], ?_⟩
    exact {
      kept := .refl _
      codes := (List.append_nil _).symm
      next := rfl
      later := fun code _ => Code.later_ite fun _ => code.later_consume _
      added := .inl rfl
      ended := by
        intro code hcode hn
        obtain ⟨code', hcode', heq, hopen⟩ := mem_serials hn
        obtain rfl := hs.eq_of_serial hcode' hcode heq
        have hconsumed : consumed code' = code'.consume _ := if_pos hopen
        rw [hconsumed]
        exact nofun
      listed := by
        intro n hn
        obtain ⟨code, hcode, heq, -⟩ := mem_serials hn
        exact ⟨code, hcode, heq⟩
      guessed := by simp
      counted := by simp
      completed := by
        intro code hcode
        obtain rfl : row = code := by simpa using hcode
        refine ⟨hrow, (Code.isOpen_iff.1 hopen).2.2, hexpired, ?_⟩
        exact List.mem_map_of_mem (List.mem_filter.2 ⟨hrow, hopen⟩) }

theorem delivery_acts (hs : s.Sound) (input : DeliveryInput) :
    Acts limit s (failPasswordRecoveryDelivery s input) := by
  unfold failPasswordRecoveryDelivery
  dsimp only
  split
  · rename_i hnone
    have hempty : s.codes.filter (fun row => row.id = input.challengeId.getD "") = [] :=
      List.filter_eq_nil_iff.2 (List.find?_eq_none.1 hnone)
    rw [hempty]
    exact ⟨_, _, _, Effect.idle input.now s.rest⟩
  · rename_i record hrecord
    have hmem := List.mem_of_find?_eq_some hrecord
    have hid : record.id = input.challengeId.getD "" := by simpa using List.find?_some hrecord
    refine ⟨_, _, _, Effect.update hs hmem s.rest (Code.later_ite fun _ => record.later_consume _) ?_ nofun nofun⟩
    intro n hn
    obtain ⟨row, hrow, rfl, hrowId⟩ := mem_serials hn
    refine ⟨?_, ?_⟩
    · by_contra hne
      refine (hs.apart.forall hrow hmem fun heq => hne (congrArg Code.serial heq)).id ?_
      rw [hid]
      simpa using hrowId
    · split
      · exact nofun
      · assumption

/-- **Every call that meets the condition has an effect of this kind.** -/
theorem exec_acts (hs : s.Sound) {call : CodeCall} (hmeets : s.Meets call) :
    Acts (attemptLimit maxAttempts) s (s.exec host maxAttempts call) := by
  cases call with
  | replaceEmailVerificationCode input => exact replace_acts hs input hmeets
  | completeSignupEmailVerification input => exact signup_acts host maxAttempts hs input
  | completePasswordRecovery input => exact recovery_acts host maxAttempts hs input
  | failPasswordRecoveryDelivery input => exact delivery_acts hs input

/-! ### Runs -/

/-- The wrong guesses of a code. -/
def guesses (es : List CodeEvent) (n : Nat) : Nat := es.countP fun e => e.guessed = some n

/-- The completions of a code. -/
def completions (es : List CodeEvent) (n : Nat) : Nat := es.countP fun e => e.completed.any (·.serial = n)

/-- What holds of the calls so far and of the codes they left. -/
structure Settled (limit : Int) (es : List CodeEvent) (s : CodeStore A) : Prop extends s.Sound where
  past : ∀ e ∈ es, (∀ n ∈ e.guessed, n < s.next) ∧ ∀ n ∈ e.ended, n < s.next
  counted : ∀ row ∈ s.codes, (guesses es row.serial : Int) ≤ row.attempts
  limited : ∀ n, (guesses es n : Int) ≤ limit
  ended : ∀ e ∈ es, ∀ row ∈ s.codes, row.serial ∈ e.ended → ¬ row.Unconsumed
  endsOwn : ∀ e ∈ es, ∀ code ∈ e.completed, code.serial ∈ e.ended
  once : ∀ n, completions es n ≤ 1
  alive : ∀ es₁ e es₂ code, es = es₁ ++ e :: es₂ → code ∈ e.completed →
    code.expired e.now = false ∧ ∀ e' ∈ es₁, code.serial ∉ e'.ended

theorem Effect.sound (h : Effect limit s e t rows change new) (hs : s.Sound) : t.Sound := by
  have hrows : (rows.map change).Pairwise Code.Apart := by
    rw [List.pairwise_map]
    refine (hs.apart.sublist h.kept).imp_of_mem fun ha hb hab => ?_
    exact hab.later (h.later _ ha) (h.later _ hb)
  have hbelow : ∀ row ∈ rows.map change, row.serial < s.next := by
    intro _ hmem
    obtain ⟨row, hrow, rfl⟩ := List.mem_map.1 hmem
    rw [(h.later row hrow).serial]
    exact hs.below row (h.kept.subset hrow)
  constructor
  · rw [h.codes]
    rcases h.added with rfl | ⟨code, rfl, -, -, hapart⟩
    · rwa [List.append_nil]
    · refine List.pairwise_append.2 ⟨hrows, List.pairwise_singleton _ _, fun _ hmem code' hcode' => ?_⟩
      obtain ⟨row, hrow, rfl⟩ := List.mem_map.1 hmem
      rw [List.mem_singleton.1 hcode']
      exact hapart row hrow
  · rw [h.codes, h.next]
    intro row hrow
    rcases List.mem_append.1 hrow with hrow | hrow
    · exact (hbelow row hrow).trans_le (Nat.le_add_right _ _)
    · rcases h.added with rfl | ⟨code, rfl, hserial, -⟩
      · cases hrow
      · rw [List.mem_singleton.1 hrow, hserial]
        exact Nat.lt_succ_self _

/-- A code after the call was there before, or it is new. -/
theorem Effect.origin (h : Effect limit s e t rows change new) (hrow : row ∈ t.codes) :
    (∃ before ∈ rows, change before = row) ∨ (row.serial = s.next ∧ 0 ≤ row.attempts) := by
  rw [h.codes] at hrow
  rcases List.mem_append.1 hrow with hrow | hrow
  · exact .inl (List.mem_map.1 hrow)
  · rcases h.added with rfl | ⟨code, rfl, hserial, hattempts, -⟩
    · cases hrow
    · rw [List.mem_singleton.1 hrow]
      exact .inr ⟨hserial, hattempts⟩

theorem guesses_snoc (es : List CodeEvent) (e : CodeEvent) (n : Nat) :
    guesses (es ++ [e]) n = guesses es n + if e.guessed = some n then 1 else 0 := by
  simp [guesses, List.countP_append, List.countP_singleton]

theorem completions_snoc (es : List CodeEvent) (e : CodeEvent) (n : Nat) :
    completions (es ++ [e]) n = completions es n + if e.completed.any (·.serial = n) then 1 else 0 := by
  simp [completions, List.countP_append, List.countP_singleton]

/-- A code that no call has named yet. -/
theorem Settled.guesses_next {es : List CodeEvent} (hs : Settled limit es s) : guesses es s.next = 0 := by
  unfold guesses
  rw [List.countP_eq_zero]
  intro e he hguessed
  exact lt_irrefl _ ((hs.past e he).1 _ (of_decide_eq_true hguessed))

theorem Settled.completions_eq_zero {es : List CodeEvent} (hs : Settled limit es s) (hcode : code ∈ s.codes)
    (hopen : code.Unconsumed) : completions es code.serial = 0 := by
  unfold completions
  rw [List.countP_eq_zero]
  intro e he hany
  obtain ⟨done, hdone, hserial⟩ := (Option.any_eq_true _ _).1 hany
  have hended := hs.endsOwn e he done hdone
  rw [of_decide_eq_true hserial] at hended
  exact hs.ended e he code hcode hended hopen

theorem Effect.listed_lt (h : Effect limit s e t rows change new) (hs : s.Sound) : ∀ n ∈ e.ended, n < s.next := by
  intro n hn
  obtain ⟨row, hrow, rfl⟩ := h.listed n hn
  exact hs.below row hrow

theorem Effect.guessed_lt (h : Effect limit s e t rows change new) (hs : s.Sound) : ∀ n ∈ e.guessed, n < s.next := by
  intro n hn
  obtain ⟨row, hrow, rfl, -⟩ := h.guessed n hn
  exact hs.below row hrow

variable {es : List CodeEvent}

theorem Effect.counted_snoc (h : Effect limit s e t rows change new) (hs : Settled limit es s) :
    ∀ row ∈ t.codes, (guesses (es ++ [e]) row.serial : Int) ≤ row.attempts := by
  intro row hrow
  rw [guesses_snoc]
  rcases h.origin hrow with ⟨before, hbefore, rfl⟩ | ⟨hserial, hattempts⟩
  · have hcount := hs.counted before (h.kept.subset hbefore)
    have hlater := h.later before hbefore
    rw [hlater.serial]
    split
    · have := h.counted before hbefore ‹_›
      push_cast
      omega
    · have := hlater.attempts
      push_cast
      omega
  · have hnone : e.guessed ≠ some s.next := fun hn => lt_irrefl _ (h.guessed_lt hs.toSound _ hn)
    rw [hserial, hs.guesses_next, if_neg hnone]
    exact hattempts

theorem Effect.ended_snoc (h : Effect limit s e t rows change new) (hs : Settled limit es s) :
    ∀ e' ∈ es ++ [e], ∀ row ∈ t.codes, row.serial ∈ e'.ended → ¬ row.Unconsumed := by
  intro e' he' row hrow hn
  rcases h.origin hrow with ⟨before, hbefore, rfl⟩ | ⟨hserial, -⟩
  · rw [(h.later before hbefore).serial] at hn
    rcases List.mem_append.1 he' with he' | he'
    · intro hopen
      exact hs.ended e' he' before (h.kept.subset hbefore) hn ((h.later before hbefore).consumed hopen)
    · rw [List.mem_singleton.1 he'] at hn
      exact h.ended before hbefore hn
  · -- the serial of a new code is in no event
    rw [hserial] at hn
    rcases List.mem_append.1 he' with he' | he'
    · exact absurd ((hs.past e' he').2 _ hn) (lt_irrefl _)
    · rw [List.mem_singleton.1 he'] at hn
      exact absurd (h.listed_lt hs.toSound _ hn) (lt_irrefl _)

/-- **A call carries the history on.** -/
theorem Effect.settled (h : Effect limit s e t rows change new) (hs : Settled limit es s) :
    Settled limit (es ++ [e]) t where
  toSound := h.sound hs.toSound
  past := by
    have hnext : s.next ≤ t.next := h.next ▸ Nat.le_add_right _ _
    intro e' he'
    rcases List.mem_append.1 he' with he' | he'
    · obtain ⟨hguessed, hended⟩ := hs.past e' he'
      exact ⟨fun n hn => (hguessed n hn).trans_le hnext, fun n hn => (hended n hn).trans_le hnext⟩
    · rw [List.mem_singleton.1 he']
      exact ⟨fun n hn => (h.guessed_lt hs.toSound n hn).trans_le hnext,
        fun n hn => (h.listed_lt hs.toSound n hn).trans_le hnext⟩
  counted := h.counted_snoc hs
  limited := by
    intro n
    rw [guesses_snoc]
    split
    · rename_i hn
      obtain ⟨row, hrow, rfl, hlimit⟩ := h.guessed n hn
      have := hs.counted row hrow
      push_cast
      omega
    · exact hs.limited n
  ended := h.ended_snoc hs
  endsOwn := by
    intro e' he' code hcode
    rcases List.mem_append.1 he' with he' | he'
    · exact hs.endsOwn e' he' code hcode
    · obtain rfl := List.mem_singleton.1 he'
      exact (h.completed code hcode).2.2.2
  once := by
    intro n
    rw [completions_snoc]
    split
    · rename_i hany
      obtain ⟨code, hcode, hserial⟩ := (Option.any_eq_true _ _).1 hany
      obtain ⟨hmem, hopen, -⟩ := h.completed code hcode
      rw [← of_decide_eq_true hserial, hs.completions_eq_zero hmem hopen]
    · exact hs.once n
  alive := by
    intro es₁ e₀ es₂ code heq hcode
    rcases snoc_eq_append_cons heq with ⟨rfl, rfl, rfl⟩ | ⟨es₃, rfl, rfl⟩
    · obtain ⟨hmem, hopen, hexpired, -⟩ := h.completed code hcode
      exact ⟨hexpired, fun e' he' hn => hs.ended e' he' code hmem hn hopen⟩
    · exact hs.alive es₁ e₀ es₃ code rfl hcode

variable {host maxAttempts}

theorem run_settled (h : Run (CodeStep host maxAttempts) s es t) (hs : s.codes = []) :
    Settled (attemptLimit maxAttempts) es t := by
  refine h.history (fun es s e t hs hstep => ?_) ?_
  · obtain ⟨call, hmeets, hexec⟩ := hstep
    obtain ⟨rows, change, new, heffect⟩ := exec_acts host maxAttempts hs.toSound hmeets
    rw [hexec] at heffect
    exact heffect.settled hs
  · have hlimit : 0 ≤ attemptLimit maxAttempts := le_trans zero_le_one (le_max_left _ _)
    exact {
      apart := by simp [hs]
      below := by simp [hs]
      past := by simp
      counted := by simp [hs]
      limited := by simpa [guesses] using hlimit
      ended := by simp
      endsOwn := by simp
      once := fun _ => Nat.zero_le _
      alive := by simp }

theorem Settled.open_le_one (hs : Settled limit es s) (email purpose : String) :
    (s.codes.filter (Code.isOpen email purpose)).length ≤ 1 := by
  have hpair := hs.apart.sublist (List.filter_sublist (p := Code.isOpen email purpose))
  match hlist : s.codes.filter (Code.isOpen email purpose) with
  | [] => exact Nat.zero_le _
  | [_] => exact le_rfl
  | a :: b :: rest =>
    have hmem : ∀ code ∈ a :: b :: rest, code.isOpen email purpose = true := by
      intro code hcode
      rw [← hlist] at hcode
      exact (List.mem_filter.1 hcode).2
    rw [hlist] at hpair
    obtain ⟨ha, ha', haopen⟩ := Code.isOpen_iff.1 (hmem a (by simp))
    obtain ⟨hb, hb', hbopen⟩ := Code.isOpen_iff.1 (hmem b (by simp))
    have hapart : a.Apart b := (List.pairwise_cons.1 hpair).1 b (by simp)
    exact absurd hbopen (hapart.closed (ha.trans hb.symm) (ha'.trans hb'.symm) haopen)

theorem expired_mono {now now' : Int} (h : now ≤ now') (hlive : code.expired now' = false) :
    code.expired now = false := by
  unfold Code.expired at hlive ⊢
  cases hexpires : code.expiresAt with
  | none => rfl
  | some time =>
    rw [hexpires] at hlive
    simp only [Option.any_some, decide_eq_false_iff_not] at hlive ⊢
    omega

/-- **Only the latest code works**, where every id is new: one open code for an address and a purpose, one
completion and at most `maxAttempts` wrong guesses for a code, and no completion of a code that an earlier call
has ended or that was expired at an earlier call. -/
theorem only_latest_code_works (hs : s.codes = [])
    (h : Run (CodeStep host maxAttempts) s es t) (clock : es.Pairwise (·.now ≤ ·.now)) :
    (∀ email purpose, (t.codes.filter (Code.isOpen email purpose)).length ≤ 1) ∧
      (∀ n, completions es n ≤ 1 ∧ (guesses es n : Int) ≤ attemptLimit maxAttempts) ∧
      ∀ es₁ e es₂, es = es₁ ++ e :: es₂ → ∀ code ∈ e.completed,
        code.expired e.now = false ∧ ∀ e' ∈ es₁, code.serial ∉ e'.ended ∧ code.expired e'.now = false := by
  have hsettled := run_settled h hs
  refine ⟨hsettled.open_le_one, fun n => ⟨hsettled.once n, hsettled.limited n⟩, ?_⟩
  rintro es₁ e es₂ rfl code hcode
  obtain ⟨hexpired, hended⟩ := hsettled.alive es₁ e es₂ code rfl hcode
  refine ⟨hexpired, fun e' he' => ⟨hended e' he', expired_mono ?_ hexpired⟩⟩
  exact (List.pairwise_append.1 clock).2.2 e' he' e List.mem_cons_self

end Store

namespace CodeSample

def host : AccountHost Unit where
  signup _ _ _ _ := (true, ())
  reset _ _ _ _ := some ()
  toISOString _ := "1970-01-01T00:00:00.001Z"
  localeLe _ _ := true

def empty : CodeStore Unit := ⟨(), [], 0⟩

def requested (email : String) (now : Int) : CodeInput where
  userId := some "u"
  email := some email
  purpose := none
  payload := some [("kind", .str "signup")]
  codeHash := "hash"
  codeSalt := "salt"
  expiresAt := some 600000
  attempts := none
  now := now
  idNow := now
  createdAt := "1970-01-01T00:00:00.000Z"
  consumedAt := "1970-01-01T00:00:00.000Z"

def first : CodeEvent × CodeStore Unit :=
  empty.exec host none (.replaceEmailVerificationCode (requested "a@b" 0))

def second : CodeEvent × CodeStore Unit :=
  first.2.exec host none (.replaceEmailVerificationCode (requested "a@b" 5000))

def entered : CompleteInput where
  email := some " A@b "
  purpose := none
  now := 5001
  verifyCode := some fun code => code.codeHash = "hash"
  resolvePolicy := none
  passwordHash := "new"

def third : CodeEvent × CodeStore Unit := second.2.exec host none (.completeSignupEmailVerification entered)

def longAddress : String := String.ofList (List.replicate 57 'a')

def requestedOnce : CodeStore Unit := (replaceEmailVerificationCode empty (requested longAddress 0)).2

/-- The second request comes five seconds later. -/
def requestedTwice : CodeStore Unit := (replaceEmailVerificationCode requestedOnce (requested longAddress 5000)).2

theorem newCode_id (s : CodeStore Unit) (now : Int) :
    (s.newCode (requested longAddress now)).id.toList =
      (Core.front "evc" ["u", longAddress]).take Core.slugLimit := by
  have hparts : ∀ part ∈ ["u", longAddress], Slug.Dashed part.toList ∧ part.toList.length ≤ Core.slugLimit := by
    intro part hpart
    rcases List.mem_pair.1 hpart with rfl | rfl
    · exact ⟨Slug.dashed_of_isDashed (by decide), by decide⟩
    · exact ⟨Slug.dashed_of_isDashed (by decide +kernel), by decide +kernel⟩
  have hid : (s.newCode (requested longAddress now)).id = Core.stableId "evc" (["u", longAddress] ++
      [toString now, toString (s.kept (requested longAddress now)).length]) := by
    simp only [CodeStore.newCode, requested, Option.getD_some, List.cons_append, List.nil_append]
  rw [hid]
  exact Core.stableId_cut (Slug.dashed_of_isDashed (by decide)) (by simp) hparts (by decide +kernel) _

end CodeSample

open CodeSample in
/-- The code that was replaced is ended, and the one in its place is completed. -/
theorem only_latest_code_works_sample :
    second.1.ended = [0] ∧ third.1.completed.map (·.serial) = some 1 ∧
      (∀ n, completions [first.1, second.1, third.1] n ≤ 1) ∧
      ∀ email purpose, (third.2.codes.filter (Code.isOpen email purpose)).length ≤ 1 := by
  have hfirst : CodeStep host none empty first.1 first.2 :=
    ⟨.replaceEmailVerificationCode (requested "a@b" 0), ⟨nofun, le_rfl⟩, rfl⟩
  have hsecond : CodeStep host none first.2 second.1 second.2 :=
    ⟨.replaceEmailVerificationCode (requested "a@b" 5000), ⟨by decide +kernel, le_rfl⟩, rfl⟩
  have hthird : CodeStep host none second.2 third.1 third.2 :=
    ⟨.completeSignupEmailVerification entered, trivial, rfl⟩
  have hends : second.1.ended = [0] ∧ third.1.completed.map (·.serial) = some 1 := by decide +kernel
  have hclock : [first.1, second.1, third.1].Pairwise (·.now ≤ ·.now) := by decide +kernel
  have hrun : Run (CodeStep host none) empty [first.1, second.1, third.1] third.2 :=
    ((Run.single hfirst).snoc hsecond).snoc hthird
  obtain ⟨hopen, honce, -⟩ := only_latest_code_works rfl hrun hclock
  exact ⟨hends.1, hends.2, fun n => (honce n).1, hopen⟩

open CodeSample in
/-- For a long address the id of the second code is that of the first one, which stays open. -/
theorem replaced_code_stays_open :
    (requestedTwice.codes.filter (Code.isOpen (Text.jsLower longAddress) "signup")).length = 2 := by
  have hkeeps {code other : Code} (h : other.id = code.id) (time : String) : code.supersede time other = other :=
    if_neg fun hne => hne.1 h
  have hsignup : textOr none "signup" = "signup" := by decide
  have hopen (s : CodeStore Unit) (now : Int) :
      (s.newCode (requested longAddress now)).isOpen (Text.jsLower longAddress) "signup" = true :=
    Code.isOpen_iff.2 ⟨by simp only [CodeStore.newCode, requested, Option.getD_some], hsignup, rfl⟩
  have honce : requestedOnce.codes = [empty.newCode (requested longAddress 0)] := by
    unfold requestedOnce
    rw [replace_codes, List.map_append, List.map_singleton, hkeeps rfl]
    rfl
  have hkept : requestedOnce.kept (requested longAddress 5000) = [empty.newCode (requested longAddress 0)] := by
    unfold CodeStore.kept
    rw [honce]
    rfl
  have hid : (empty.newCode (requested longAddress 0)).id =
      (requestedOnce.newCode (requested longAddress 5000)).id := by
    rw [← String.toList_inj, newCode_id, newCode_id]
  unfold requestedTwice
  rw [replace_codes, hkept, List.singleton_append, List.map_cons, List.map_singleton, hkeeps hid, hkeeps rfl,
    List.filter_cons_of_pos (hopen _ _), List.filter_cons_of_pos (hopen _ _)]
  rfl

end RaibitServer.Auth
