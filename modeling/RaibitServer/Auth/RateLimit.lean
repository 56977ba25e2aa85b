import Mathlib.Data.List.Sort
import RaibitServer.Lib.FixedWindow
import RaibitServer.Lib.Keyed

/-!
# Auth.RateLimit — the rate limits of the memory store and of the database

`consumeAuthRateLimit` of the memory store deletes some expired rows, then reads and writes the row of the
key.  The repository does the same with one statement.  Both answer as the limiter of `Lib.FixedWindow`
that deletes nothing, so they agree, and deletions do not show.
-/

namespace RaibitServer.Auth

open Lib Lib.FixedWindow

/-! ### Rows and calls -/

def authRetentionPruneBatchSize : Nat := 256

structure RateLimitRow where
  key : String
  count : Nat
  windowStartedAt : Int
  expiresAt : Int
  deriving DecidableEq

/-- The map of the memory store and the table `AuthRateLimit`. -/
abbrev RateLimits := Keyed RateLimitRow.key

structure ConsumeInput where
  key : Option String
  limit : Option Int
  windowMs : Option Int
  now : Int

structure PeekInput where
  key : Option String
  limit : Option Int
  now : Int

/-- `String(key || 'global')`. -/
def normalizedKey : Option String → String
  | none | some "" => "global"
  | some key => key

inductive RateCall
  | consumeAuthRateLimit (input : ConsumeInput)
  | peekAuthRateLimit (input : PeekInput)
  | resetAuthRateLimit (key : Option String)

/-- The answer of a peek, by the row of the key. -/
def peekRow (limit now : Int) : Option RateLimitRow → Answer
  | none => ⟨true, 0, limit, now⟩
  | some row =>
    if row.expiresAt ≤ now then ⟨true, 0, limit, now⟩
    else ⟨row.count < limit, row.count, max 0 (limit - row.count), row.expiresAt⟩

def dropKey (limits : RateLimits) (key : Option String) : RateLimits :=
  limits.filter fun row => row.key ≠ normalizedKey key

/-! ### The memory store -/

/-- The loop over a map or a list: at most `budget` rows that are not live are deleted. -/
def pruneRows {α : Type} (live : α → Bool) : Nat → List α → List α
  | _, [] => []
  | 0, rows => rows
  | budget + 1, row :: rows =>
    if live row then row :: pruneRows live (budget + 1) rows else pruneRows live budget rows

theorem pruneRows_sublist {α : Type} (live : α → Bool) (budget : Nat) (rows : List α) :
    (pruneRows live budget rows).Sublist rows := by
  induction rows generalizing budget with
  | nil => rw [pruneRows]
  | cons row rows ih =>
    cases budget with
    | zero => exact List.Sublist.refl _
    | succ budget =>
      unfold pruneRows
      split
      · exact (ih _).cons_cons row
      · exact (ih _).cons row

def prune (budget : Nat) (timestamp : Int) (limits : RateLimits) : RateLimits :=
  ⟨pruneRows (fun row => row.expiresAt > timestamp) budget limits.rows,
    limits.nodup.sublist ((pruneRows_sublist _ budget limits.rows).map _)⟩

namespace Memory

/-- Whether the call is allowed, and the row after it. -/
def consumeRow (limit windowMs timestamp : Int) (key : String) : Option RateLimitRow → Bool × RateLimitRow
  | none => (true, ⟨key, 1, timestamp, timestamp + windowMs⟩)
  | some current =>
    if current.expiresAt ≤ timestamp then (true, ⟨key, 1, timestamp, timestamp + windowMs⟩)
    else if current.count < limit then (true, { current with count := current.count + 1 })
    else (false, current)

/-- `budget` is `authRetentionPruneBatchSize`. -/
def consumeAuthRateLimit (budget : Nat) (limits : RateLimits) (input : ConsumeInput) : Answer × RateLimits :=
  let limit := input.limit.getD 10
  let key := normalizedKey input.key
  let limits := prune budget input.now limits
  let (allowed, row) := consumeRow limit (input.windowMs.getD 60000) input.now key (limits.get? key)
  (⟨allowed, row.count, max 0 (limit - row.count), row.expiresAt⟩, limits.put row)

def peekAuthRateLimit (limits : RateLimits) (input : PeekInput) : Answer :=
  peekRow (input.limit.getD 10) input.now (limits.get? (normalizedKey input.key))

def resetAuthRateLimit : RateLimits → Option String → RateLimits := dropKey

def step (budget : Nat) (limits : RateLimits) : RateCall → Option Answer × RateLimits
  | .consumeAuthRateLimit input =>
    let (answer, limits) := consumeAuthRateLimit budget limits input
    (some answer, limits)
  | .peekAuthRateLimit input => (some (peekAuthRateLimit limits input), limits)
  | .resetAuthRateLimit key => (none, resetAuthRateLimit limits key)

end Memory

/-! ### The repository -/

namespace Prisma

/-- `Math.max(least, Number(value || default))`. -/
def bounded (least default : Int) (value : Option Int) : Int :=
  max least ((value.filter (· ≠ 0)).getD default)

/-- The keys of `expired`, in the order of time and then of a collation of the database. -/
def expired (collation : String → String → Bool) (budget : Nat) (now : Int) (key : String) (limits : RateLimits) :
    List String :=
  (((limits.select fun row => row.expiresAt ≤ now && row.key ≠ key).insertionSort fun a b =>
    a.expiresAt < b.expiresAt || (a.expiresAt = b.expiresAt && collation a.key b.key)).take budget).map (·.key)

/-- The row that `upserted` returns. -/
def upserted (limit now expiresAt : Int) (key : String) : Option RateLimitRow → Option RateLimitRow
  | none => some ⟨key, 1, now, expiresAt⟩
  | some row =>
    if row.expiresAt ≤ now ∨ row.count < limit then
      some ⟨row.key, if row.expiresAt ≤ now then 1 else row.count + 1,
        if row.expiresAt ≤ now then now else row.windowStartedAt,
        if row.expiresAt ≤ now then expiresAt else row.expiresAt⟩
    else none

/-- The row of the result, with its `allowed`. -/
def selected (current : Option RateLimitRow) : Option RateLimitRow → Option (Bool × RateLimitRow)
  | some row => some (true, row)
  | none => current.map fun row => (false, row)

/-- All parts of the statement see the table as it was before. -/
def consumeAuthRateLimit (collation : String → String → Bool) (budget : Nat) (limits : RateLimits)
    (input : ConsumeInput) : Answer × RateLimits :=
  let key := normalizedKey input.key
  let limit := bounded 1 10 input.limit
  let expiresAt := input.now + bounded 1000 60000 input.windowMs
  let gone := expired collation budget input.now key limits
  let pruned := limits.filter fun row => row.key ∉ gone
  let written := upserted limit input.now expiresAt key (limits.get? key)
  let row := selected (limits.get? key) written
  let count := (row.map (·.2.count)).getD limit.toNat
  (⟨row.any (·.1), count, max 0 (limit - count), (row.map (·.2.expiresAt)).getD expiresAt⟩,
    written.elim pruned pruned.put)

def peekAuthRateLimit (limits : RateLimits) (input : PeekInput) : Answer :=
  peekRow (bounded 1 10 input.limit) input.now (limits.get? (normalizedKey input.key))

def resetAuthRateLimit : RateLimits → Option String → RateLimits := dropKey

def step (collation : String → String → Bool) (budget : Nat) (limits : RateLimits) :
    RateCall → Option Answer × RateLimits
  | .consumeAuthRateLimit input =>
    let (answer, limits) := consumeAuthRateLimit collation budget limits input
    (some answer, limits)
  | .peekAuthRateLimit input => (some (peekAuthRateLimit limits input), limits)
  | .resetAuthRateLimit key => (none, resetAuthRateLimit limits key)

end Prisma

/-! ### Both are limiters -/

def RateLimitRow.window (row : RateLimitRow) : Window := ⟨row.count, row.expiresAt⟩

/-- What a table says of each key. -/
def windows (limits : RateLimits) (key : String) : Option Window := (limits.get? key).map (·.window)

/-- The call of the limiter, with the defaults of the stores. -/
def RateCall.view : RateCall → Call String
  | .consumeAuthRateLimit input =>
    .consume (normalizedKey input.key) (input.limit.getD 10) (input.windowMs.getD 60000) input.now
  | .peekAuthRateLimit input => .peek (normalizedKey input.key) (input.limit.getD 10) input.now
  | .resetAuthRateLimit key => .reset (normalizedKey key)

/-- A limit and a window that are given are at least one and a second. -/
def RateCall.Valid : RateCall → Prop
  | .consumeAuthRateLimit input => (∀ limit ∈ input.limit, 1 ≤ limit) ∧ ∀ windowMs ∈ input.windowMs, 1000 ≤ windowMs
  | .peekAuthRateLimit input => ∀ limit ∈ input.limit, 1 ≤ limit
  | .resetAuthRateLimit _ => True

section Limiters

variable {limits kept : RateLimits} {now limit windowMs : Int} {key : String} {current : Option RateLimitRow}

theorem windows_put (limits : RateLimits) (row : RateLimitRow) :
    windows (limits.put row) = Function.update (windows limits) row.key (some row.window) := by
  funext k
  unfold windows
  by_cases hk : k = row.key
  · subst hk
    rw [Function.update_self, Keyed.get?_put_self]
    rfl
  · rw [Function.update_of_ne hk, Keyed.get?_put_ne (Ne.symm hk)]

theorem windows_dropKey (limits : RateLimits) (key : Option String) :
    windows (dropKey limits key) = Function.update (windows limits) (normalizedKey key) none := by
  funext k
  unfold windows
  unfold dropKey
  rw [Keyed.get?_filter]
  cases hrow : limits.get? k with
  | none => by_cases hk : k = normalizedKey key <;> simp [Function.update, hk, hrow]
  | some row =>
    obtain ⟨-, rfl⟩ := Keyed.get?_eq_some.1 hrow
    by_cases hk : row.key = normalizedKey key <;> simp [Function.update, hk, hrow]

/-- Deleting expired rows. -/
theorem windows_agree (hsub : ∀ row ∈ kept.rows, row ∈ limits.rows)
    (hlive : ∀ row ∈ limits.rows, now < row.expiresAt → row ∈ kept.rows) : Agree now (windows kept) (windows limits) := by
  intro k
  unfold windows
  cases hlimits : limits.get? k with
  | none =>
    have hkept : kept.get? k = none := by
      rw [Keyed.get?_eq_none] at hlimits ⊢
      intro hk
      obtain ⟨row, hrow, rfl⟩ := List.mem_map.1 hk
      exact hlimits (List.mem_map_of_mem (hsub row hrow))
    rw [hkept]
  | some row =>
    obtain ⟨hrow, rfl⟩ := Keyed.get?_eq_some.1 hlimits
    by_cases hnow : now < row.expiresAt
    · rw [Keyed.get?_eq_some.2 ⟨hlive row hrow hnow, rfl⟩]
    · have hnone : live now (some row.window) = none := live_neg hnow
      cases hkept : kept.get? row.key with
      | none => exact hnone.symm
      | some row' =>
        obtain ⟨hrow', hkey⟩ := Keyed.get?_eq_some.1 hkept
        rw [Keyed.eq_of_key (hsub row' hrow') hrow hkey]

theorem mem_pruneRows {α : Type} {live : α → Bool} {budget : Nat} {rows : List α} {row : α} (hrow : row ∈ rows)
    (hlive : live row = true) : row ∈ pruneRows live budget rows := by
  induction rows generalizing budget with
  | nil => cases hrow
  | cons first rows ih =>
    cases budget with
    | zero => exact hrow
    | succ budget =>
      unfold pruneRows
      rcases List.mem_cons.1 hrow with rfl | hrow
      · rw [if_pos hlive]
        exact List.mem_cons_self
      · split
        · exact List.mem_cons_of_mem _ (ih hrow)
        · exact ih hrow

theorem prune_agree (budget : Nat) : Agree now (windows (prune budget now limits)) (windows limits) :=
  windows_agree (fun _ hrow => (pruneRows_sublist _ budget limits.rows).subset hrow)
    fun _ hrow hlive => mem_pruneRows hrow (decide_eq_true hlive)

theorem peekRow_eq (limit now : Int) (current : Option RateLimitRow) :
    peekRow limit now current = peek limit now (current.map (·.window)) := by
  cases current with
  | none => rfl
  | some row =>
    unfold peekRow peek
    rw [Option.map_some]
    by_cases h : now < row.expiresAt
    · rw [live_pos h]
      exact if_neg (Int.not_le.2 h)
    · rw [live_neg h]
      exact if_pos (Int.not_lt.1 h)

theorem consumeRow_eq (hkey : ∀ row ∈ current, row.key = key) {allowed : Bool} {row : RateLimitRow}
    (hr : Memory.consumeRow limit windowMs now key current = (allowed, row)) :
    row.key = key ∧ consume limit windowMs now (current.map (·.window)) =
      (⟨allowed, row.count, max 0 (limit - row.count), row.expiresAt⟩, row.window) := by
  cases current with
  | none =>
    obtain ⟨rfl, rfl⟩ := Prod.mk.inj hr
    exact ⟨rfl, rfl⟩
  | some stored =>
    have hstored : stored.key = key := hkey stored rfl
    unfold Memory.consumeRow at hr
    dsimp only at hr
    unfold consume
    rw [Option.map_some]
    by_cases h : now < stored.expiresAt
    · rw [if_neg (Int.not_le.2 h)] at hr
      rw [live_pos h]
      by_cases hroom : (stored.count : Int) < limit
      · rw [if_pos hroom] at hr
        obtain ⟨rfl, rfl⟩ := Prod.mk.inj hr
        exact ⟨hstored, if_pos hroom⟩
      · rw [if_neg hroom] at hr
        obtain ⟨rfl, rfl⟩ := Prod.mk.inj hr
        exact ⟨hstored, if_neg hroom⟩
    · rw [if_pos (Int.not_lt.1 h)] at hr
      obtain ⟨rfl, rfl⟩ := Prod.mk.inj hr
      rw [live_neg h]
      exact ⟨rfl, rfl⟩

theorem get?_key {k : String} : ∀ row ∈ limits.get? k, row.key = k := fun _ h => (Keyed.get?_eq_some.1 h).2

/-- A call of a store is that of the limiter. -/
def Implements (store : RateLimits → RateCall → Option Answer × RateLimits) (call : RateCall) : Prop :=
  ∀ now limits, (store limits call).1 = (FixedWindow.step (windows limits) call.view).1 ∧
    Agree (call.view.time now) (windows (store limits call).2) (FixedWindow.step (windows limits) call.view).2

theorem Memory.step_implements (budget : Nat) (call : RateCall) : Implements (Memory.step budget) call := by
  intro now limits
  cases call with
  | peekAuthRateLimit input => exact ⟨congrArg some (peekRow_eq _ _ _), fun _ => rfl⟩
  | resetAuthRateLimit key =>
    refine ⟨rfl, fun k => ?_⟩
    exact congrArg (fun w : String → Option Window => live now (w k)) (windows_dropKey limits key)
  | consumeAuthRateLimit input =>
    have hagree : Agree input.now (windows (prune budget input.now limits)) (windows limits) := prune_agree budget
    simp only [Memory.step, Memory.consumeAuthRateLimit, RateCall.view, FixedWindow.step, Call.time]
    rw [← consume_congr (hagree (normalizedKey input.key))]
    generalize hr : Memory.consumeRow (input.limit.getD 10) (input.windowMs.getD 60000) input.now
      (normalizedKey input.key) ((prune budget input.now limits).get? (normalizedKey input.key)) = r
    obtain ⟨hkey, hconsume⟩ := consumeRow_eq get?_key hr
    change consume _ _ _ (windows _ _) = _ at hconsume
    rw [hconsume, windows_put, hkey]
    exact ⟨rfl, hagree.update _ _⟩

theorem Prisma.bounded_eq {least default : Int} (hdefault : least ≤ default) (hleast : 1 ≤ least) {value : Option Int}
    (h : ∀ v ∈ value, least ≤ v) : Prisma.bounded least default value = value.getD default := by
  unfold Prisma.bounded
  cases value with
  | none => exact max_eq_right hdefault
  | some v =>
    have hv : least ≤ v := h v rfl
    have hfilter : (some v).filter (fun x : Int => x ≠ 0) = some v := Option.filter_some_pos (by simp; omega)
    rw [hfilter]
    exact max_eq_right hv

/-- What the statement does to the row of the key. -/
theorem Prisma.upserted_eq (hkey : ∀ row ∈ current, row.key = key) :
    (∃ row, Prisma.upserted limit now (now + windowMs) key current = some row ∧ row.key = key ∧
      consume limit windowMs now (current.map (·.window)) =
        (⟨true, row.count, max 0 (limit - row.count), row.expiresAt⟩, row.window)) ∨
    ∃ row, current = some row ∧ Prisma.upserted limit now (now + windowMs) key current = none ∧
      consume limit windowMs now (current.map (·.window)) =
        (⟨false, row.count, max 0 (limit - row.count), row.expiresAt⟩, row.window) := by
  cases current with
  | none => exact .inl ⟨_, rfl, rfl, rfl⟩
  | some row =>
    have hrow : row.key = key := hkey row rfl
    unfold Prisma.upserted consume
    dsimp only
    rw [Option.map_some]
    by_cases h : now < row.expiresAt
    · have hnot : ¬ row.expiresAt ≤ now := Int.not_le.2 h
      rw [live_pos h]
      by_cases hroom : (row.count : Int) < limit
      · rw [if_pos (.inr hroom), if_neg hnot, if_neg hnot, if_neg hnot]
        exact .inl ⟨_, rfl, hrow, if_pos hroom⟩
      · rw [if_neg (not_or.2 ⟨hnot, hroom⟩)]
        exact .inr ⟨row, rfl, rfl, if_neg hroom⟩
    · have hle : row.expiresAt ≤ now := Int.not_lt.1 h
      rw [live_neg h, if_pos (.inl hle), if_pos hle, if_pos hle, if_pos hle]
      exact .inl ⟨_, rfl, hrow, rfl⟩

theorem Prisma.pruned_agree (collation : String → String → Bool) (budget : Nat) :
    Agree now (windows (limits.filter fun row => row.key ∉ Prisma.expired collation budget now key limits))
      (windows limits) := by
  refine windows_agree (fun _ hrow => List.mem_of_mem_filter hrow) fun row hrow hlive => ?_
  refine List.mem_filter.2 ⟨hrow, decide_eq_true fun hgone => ?_⟩
  obtain ⟨other, hother, hkey⟩ := List.mem_map.1 hgone
  have hselected := (List.mem_insertionSort _).1 (List.mem_of_mem_take hother)
  obtain ⟨hmem, hexpired⟩ := List.mem_filter.1 hselected
  rw [Keyed.eq_of_key hmem hrow hkey, Bool.and_eq_true, decide_eq_true_eq] at hexpired
  exact absurd hexpired.1 (Int.not_le.2 hlive)

theorem Prisma.step_implements (collation : String → String → Bool) (budget : Nat) {call : RateCall}
    (hvalid : call.Valid) : Implements (Prisma.step collation budget) call := by
  intro now limits
  cases call with
  | peekAuthRateLimit input =>
    refine ⟨congrArg some ?_, fun _ => rfl⟩
    unfold Prisma.peekAuthRateLimit
    rw [Prisma.bounded_eq (by decide) le_rfl hvalid]
    exact peekRow_eq _ _ _
  | resetAuthRateLimit key =>
    refine ⟨rfl, fun k => ?_⟩
    exact congrArg (fun w : String → Option Window => live now (w k)) (windows_dropKey limits key)
  | consumeAuthRateLimit input =>
    have hpruned := @Prisma.pruned_agree limits input.now (normalizedKey input.key) collation budget
    simp only [Prisma.step, Prisma.consumeAuthRateLimit, RateCall.view, FixedWindow.step, Call.time]
    rw [Prisma.bounded_eq (by decide) le_rfl hvalid.1, Prisma.bounded_eq (by decide) (by decide) hvalid.2]
    rcases @Prisma.upserted_eq input.now (input.limit.getD 10) (input.windowMs.getD 60000) _ _
      (@get?_key limits (normalizedKey input.key)) with ⟨row, hrow, hkey, hconsume⟩ | ⟨row, hcurrent, hrow, hconsume⟩
    · change consume _ _ _ (windows _ _) = _ at hconsume
      rw [hconsume, hrow]
      refine ⟨rfl, ?_⟩
      show Agree input.now (windows (Keyed.put _ row)) _
      rw [windows_put, hkey]
      exact hpruned.update _ _
    · change consume _ _ _ (windows _ _) = _ at hconsume
      rw [hconsume, hrow, hcurrent]
      refine ⟨rfl, ?_⟩
      have hsame : Function.update (windows limits) (normalizedKey input.key) (some row.window) = windows limits := by
        rw [Function.update_eq_self_iff]
        unfold windows
        rw [hcurrent]
        rfl
      rw [hsame]
      exact hpruned

end Limiters

/-- A key that is not reset and whose calls all have one limit and one window. -/
def RateCall.Steady (key : String) (limit windowMs : Int) (call : RateCall) : Prop :=
  FixedWindow.Steady key limit windowMs call.view

/-- **Rate limits**: the memory store and the repository give the same answers, which are those without any
deletion, and allow no more than the limit in a window and twice the limit in a shorter interval. -/
theorem rate_limiters_agree (collation : String → String → Bool) {start : Int} {calls : List RateCall}
    (hclock : Clocked start (calls.map RateCall.view)) (hvalid : ∀ call ∈ calls, call.Valid) :
    answers (Memory.step authRetentionPruneBatchSize) .empty calls =
      answers (Prisma.step collation authRetentionPruneBatchSize) .empty calls ∧
    answers (Memory.step authRetentionPruneBatchSize) .empty calls = answers (Memory.step 0) .empty calls ∧
    ∀ key limit windowMs, 1 ≤ limit → 1000 ≤ windowMs → (∀ call ∈ calls, call.Steady key limit windowMs) →
      let answered := answers (Memory.step authRetentionPruneBatchSize) .empty calls
      (∀ s ∈ startTimes key (calls.map RateCall.view) answered,
        (between (allowedTimes key (calls.map RateCall.view) answered) s (s + windowMs) : Int) ≤ limit) ∧
      ∀ low high, high - low < windowMs →
        (between (allowedTimes key (calls.map RateCall.view) answered) low (high + 1) : Int) ≤ 2 * limit := by
  have hempty : Agree start (windows .empty) fun _ => none := fun _ => rfl
  have hmemory (budget : Nat) : answers (Memory.step budget) .empty calls =
      answers FixedWindow.step (fun _ => none) (calls.map RateCall.view) :=
    answers_eq (fun now limits call _ => Memory.step_implements budget call now limits) hempty hclock hvalid
  have hprisma := answers_eq (fun now limits call hcall =>
    Prisma.step_implements collation authRetentionPruneBatchSize hcall now limits) hempty hclock hvalid
  refine ⟨(hmemory _).trans hprisma.symm, (hmemory _).trans (hmemory 0).symm, ?_⟩
  intro key limit windowMs hlimit hwindow hsteady
  rw [hmemory]
  have hwithin : Within limit windowMs _ _ := @answers_within String limit windowMs _ key hlimit (by omega) start [] []
    (fun _ => none) (calls.map RateCall.view) ⟨rfl, rfl⟩ hclock (fun c hc => by
      obtain ⟨call, hcall, rfl⟩ := List.mem_map.1 hc
      exact hsteady call hcall)
  refine ⟨hwithin.perWindow, fun low high hshort => ?_⟩
  exact (Int.ofNat_le.2 (between_mono (by omega))).trans (hwithin.perInterval low)

namespace RateSample

/-- Calls of two keys; the one is refused a second time in its window, the other is reset. -/
def calls : List RateCall :=
  [.consumeAuthRateLimit ⟨some "a", some 1, some 1000, 0⟩, .consumeAuthRateLimit ⟨none, none, none, 1⟩,
    .consumeAuthRateLimit ⟨some "a", some 1, some 1000, 2⟩, .peekAuthRateLimit ⟨some "a", some 1, 3⟩,
    .resetAuthRateLimit none, .consumeAuthRateLimit ⟨none, none, none, 4⟩,
    .consumeAuthRateLimit ⟨some "a", some 1, some 1000, 1000⟩]

end RateSample

open RateSample in
theorem rate_limiters_agree_sample :
    let answered := answers (Memory.step authRetentionPruneBatchSize) .empty calls
    answered.map (·.map fun answer => (answer.allowed, answer.count)) =
        [some (true, 1), some (true, 1), some (false, 1), some (false, 1), none, some (true, 1), some (true, 1)] ∧
      answered = answers (Prisma.step (fun _ _ => true) authRetentionPruneBatchSize) .empty calls ∧
      ∀ s ∈ startTimes "a" (calls.map RateCall.view) answered,
        (between (allowedTimes "a" (calls.map RateCall.view) answered) s (s + 1000) : Int) ≤ 1 := by
  have hclock : Clocked 0 (calls.map RateCall.view) := by simp [calls, RateCall.view, Clocked, Call.time]
  have hvalid : ∀ call ∈ calls, call.Valid := by simp [calls, RateCall.Valid]
  have hsteady : ∀ call ∈ calls, call.Steady "a" 1 1000 := by
    simp [calls, RateCall.Steady, RateCall.view, FixedWindow.Steady, normalizedKey]
  obtain ⟨hagree, -, hbounds⟩ := rate_limiters_agree (fun _ _ => true) hclock hvalid
  exact ⟨by decide, hagree, (hbounds "a" 1 1000 (by decide) (by decide) hsteady).1⟩

end RaibitServer.Auth
