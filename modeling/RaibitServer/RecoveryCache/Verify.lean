import Mathlib.Data.List.Dedup
import RaibitServer.RecoveryCache.TtlSidecar

/-!
# RecoveryCache.Verify — comparing a restored cache with the sidecar

`verifyTTLRecords` and `scanAll`.  The keys of the target are collected over the pages of a SCAN, sorted,
and walked beside the records.  A target is a finite map from keys to values with their expiry; it
answers every call from that map, and its pages name each key at least once, in any order.

`walk_ok` says what the walk accepts, for two strictly sorted lists; `verify_iff` is the statement about
the whole comparison.
-/

namespace RaibitServer.RecoveryCache

open Lib Lib.Bytes

def maxScanPages : Nat := 65536

/-- `keySnapshot`, as far as the digest reads it. -/
structure KeySnapshot where
  kind : List UInt8
  dump : List UInt8

/-- A key's value and, if it expires, its deadline. -/
structure Entry where
  snapshot : KeySnapshot
  deadline : Option { d : Int64 // 0 ≤ d }

/-- One answer of SCAN. -/
structure Page where
  next : String
  keys : List (List UInt8)

structure Target where
  lookup : List UInt8 → Option Entry
  pages : List Page
  serverTime : Int64

/-- `-1` for a key without a deadline. -/
def Entry.expireTime (entry : Entry) : Int64 :=
  match entry.deadline with
  | none => -1
  | some d => d.1

/-! ### `scanAll` -/

/-- The loop over the keys of one page. -/
def collect : List (List UInt8) → List (List UInt8) → Except CacheError (List (List UInt8))
  | seen, [] => .ok seen
  | seen, key :: keys => do
    throwIf (key.length = 0) CacheError.ErrLimit
    throwIf (key ∉ seen ∧ seen.length ≥ maxScannedKeys) CacheError.ErrLimit
    collect (seen.insert key) keys

/-- The loop over the pages, of which at most `n` are read. -/
def scanPages : Nat → String → List (List UInt8) → List Page → Except CacheError (List (List UInt8))
  | 0, _, _, _ => .error .ErrLimit
  | _ + 1, _, _, [] => .error (.step "scan dataset")
  | n + 1, cursor, seen, page :: pages => do
    let seen ← collect seen page.keys
    if page.next = "0" then pure (seen.mergeSort fun a b => ¬ b < a)
    else
      throwIf (page.next = cursor) (CacheError.step "scan dataset")
      scanPages n page.next seen pages

def scanAll (target : Target) : Except CacheError (List (List UInt8)) :=
  scanPages maxScanPages "0" [] target.pages

/-! ### `verifyTTLRecords` -/

section Verify

variable (sha256 : List UInt8 → Digest)

def ttlValueDigest (snapshot : KeySnapshot) : Digest := sha256 (snapshot.kind ++ 0 :: snapshot.dump)

/-- The checks of a record whose key is there. -/
def verifyRecord (target : Target) (record : TtlRecord) : Except CacheError Unit := do
  let entry ← orThrow (target.lookup record.key) (CacheError.step "verify restored value")
  throwIf (ttlValueDigest sha256 entry.snapshot ≠ record.valueSHA) (CacheError.step "verify restored value")
  throwIf ((record.kind = ttlPersistent ∧ entry.expireTime ≠ -1) ∨
    (record.kind = ttlExpiring ∧
      (entry.expireTime ≠ record.deadline ∨ entry.expireTime ≤ target.serverTime)))
    (CacheError.step "verify restored expiry")

/-- The loop over the records; the keys are those from `keyIndex` on. -/
def walk (target : Target) : List (List UInt8) → List TtlRecord → Except CacheError Unit
  | keys, [] => throwIf (keys ≠ []) (CacheError.step "reject extra restored key")
  | keys, record :: records => do
    throwIf (∃ key ∈ keys.head?, key < record.key) (CacheError.step "reject extra restored key")
    if keys.head? ≠ some record.key then
      throwIf (¬ (record.kind = ttlExpiring ∧ record.deadline ≤ target.serverTime))
        (CacheError.step "reject missing restored key")
      walk target keys records
    else
      verifyRecord sha256 target record
      walk target keys.tail records

def verifyTTLRecords (target : Target) (records : List TtlRecord) (expectedCount : Int64) :
    Except CacheError Unit := do
  throwIf (expectedCount < 0 ∨ (records.length : Int) ≠ expectedCount.toInt)
    (CacheError.step "verify TTL record count")
  let keys ← scanAll target
  throwIf (target.serverTime < 0) (CacheError.step "read final server time")
  walk sha256 target keys records

/-! ### The walk -/

/-- A record agrees with an entry of the target. -/
structure Restored (target : Target) (record : TtlRecord) (entry : Entry) : Prop where
  value : ttlValueDigest sha256 entry.snapshot = record.valueSHA
  persistent : record.kind = ttlPersistent → entry.deadline = none
  expiring : record.kind = ttlExpiring →
    entry.deadline.map (·.1) = some record.deadline ∧ target.serverTime < record.deadline

def Expired (target : Target) (record : TtlRecord) : Prop :=
  record.kind = ttlExpiring ∧ record.deadline ≤ target.serverTime

variable {target : Target} {keys seen : List (List UInt8)}

theorem verifyRecord_ok {record : TtlRecord} (hnow : 0 ≤ target.serverTime) :
    verifyRecord sha256 target record = .ok () ↔
      ∃ entry, target.lookup record.key = some entry ∧ Restored sha256 target record entry := by
  unfold verifyRecord
  simp only [bind_ok, orThrow_ok, throwIf_ok, exists_const, not_not, not_or, not_and, Std.not_le]
  refine exists_congr fun entry => and_congr_right fun _ => ?_
  have hnone : entry.expireTime = -1 ↔ entry.deadline = none := by
    unfold Entry.expireTime
    cases hdeadline : entry.deadline with
    | none => simp
    | some d =>
      have hd := d.2
      refine iff_of_false (fun h => ?_) (Option.some_ne_none d)
      have hvalue : d.1 = -1 := h
      rw [hvalue] at hd
      exact absurd hd (by decide)
  have hsome : ∀ deadline, target.serverTime < entry.expireTime →
      (entry.expireTime = deadline ↔ entry.deadline.map (·.1) = some deadline) := by
    intro deadline hlater
    unfold Entry.expireTime at hlater ⊢
    cases hdeadline : entry.deadline with
    | none =>
      rw [hdeadline] at hlater
      exact absurd (Std.lt_of_le_of_lt hnow hlater) (by decide)
    | some d => simp
  constructor
  · rintro ⟨hvalue, hpersistent, hexpiring⟩
    refine ⟨hvalue, fun hkind => hnone.1 (hpersistent hkind), fun hkind => ?_⟩
    obtain ⟨hdeadline, hlater⟩ := hexpiring hkind
    exact ⟨(hsome _ hlater).1 hdeadline, hdeadline ▸ hlater⟩
  · rintro ⟨hvalue, hpersistent, hexpiring⟩
    refine ⟨hvalue, fun hkind => hnone.2 (hpersistent hkind), fun hkind => ?_⟩
    obtain ⟨hdeadline, hlater⟩ := hexpiring hkind
    obtain ⟨d, hd, hvalue⟩ := Option.map_eq_some_iff.1 hdeadline
    have htime : entry.expireTime = record.deadline := by
      unfold Entry.expireTime
      rw [hd]
      exact hvalue
    exact ⟨htime, htime ▸ hlater⟩

/-- **What the walk accepts**: every key has its record, and a record without a key has expired.  By
induction on the records; a record is passed beside the first key that is not smaller. -/
theorem walk_ok (hnow : 0 ≤ target.serverTime) {records : List TtlRecord} (hkeys : keys.Pairwise (· < ·))
    (hrecords : records.Pairwise fun a b => a.key < b.key) :
    walk sha256 target keys records = .ok () ↔
      (∀ key ∈ keys, ∃ r ∈ records, r.key = key ∧
        ∃ entry, target.lookup r.key = some entry ∧ Restored sha256 target r entry) ∧
      ∀ r ∈ records, r.key ∉ keys → Expired target r := by
  induction records generalizing keys with
  | nil =>
    simp only [walk, throwIf_ok, not_not, List.not_mem_nil, false_and, exists_false]
    constructor
    · rintro rfl
      exact ⟨fun key hkey => absurd hkey List.not_mem_nil, fun r hr => hr.elim⟩
    · rintro ⟨h, -⟩
      exact List.eq_nil_iff_forall_not_mem.2 h
  | cons record records ih =>
    obtain ⟨hafter, hrest⟩ := List.pairwise_cons.1 hrecords
    simp only [walk, bind_ok, throwIf_ok, exists_const, not_exists, not_and]
    by_cases hhead : keys.head? = some record.key
    · -- The record of the first key.
      obtain ⟨rest, rfl⟩ : ∃ rest, keys = record.key :: rest := by
        cases keys with
        | nil => cases hhead
        | cons key rest => exact ⟨rest, by rw [Option.some.inj hhead]⟩
      obtain ⟨hlarger, hsorted⟩ := List.pairwise_cons.1 hkeys
      have hlower : ∀ key, key ∈ some record.key → ¬ key < record.key := by
        intro key hkey
        rw [← Option.some.inj hkey]
        exact Std.lt_irrefl
      have hnotmem : record.key ∉ rest := fun hmem => Std.lt_irrefl (hlarger _ hmem)
      rw [if_neg (not_not.2 hhead)]
      simp only [List.head?_cons, bind_ok, exists_const, verifyRecord_ok sha256 hnow, List.tail_cons,
        ih hsorted hrest]
      constructor
      · rintro ⟨-, hrecord, hfound, hexpired⟩
        refine ⟨List.forall_mem_cons.2 ⟨⟨record, List.mem_cons_self, rfl, hrecord⟩, ?_⟩, ?_⟩
        · intro key hkey
          obtain ⟨r, hr, hmatch⟩ := hfound key hkey
          exact ⟨r, List.mem_cons_of_mem _ hr, hmatch⟩
        · refine List.forall_mem_cons.2 ⟨fun hno => absurd List.mem_cons_self hno, fun r hr hno => ?_⟩
          exact hexpired r hr fun hmem => hno (List.mem_cons_of_mem _ hmem)
      · rintro ⟨hfound, hexpired⟩
        refine ⟨hlower, ?_, ?_, ?_⟩
        · obtain ⟨r, hr, hkey, hmatch⟩ := hfound record.key List.mem_cons_self
          rcases List.mem_cons.1 hr with rfl | hr
          · exact hmatch
          · exact absurd (hkey ▸ hafter r hr) Std.lt_irrefl
        · intro key hkey
          obtain ⟨r, hr, hrkey, hmatch⟩ := hfound key (List.mem_cons_of_mem _ hkey)
          rcases List.mem_cons.1 hr with rfl | hr
          · exact absurd (hrkey ▸ hkey) hnotmem
          · exact ⟨r, hr, hrkey, hmatch⟩
        · intro r hr hno
          refine hexpired r (List.mem_cons_of_mem _ hr) fun hmem => ?_
          rcases List.mem_cons.1 hmem with heq | hmem
          · exact Std.lt_irrefl (heq ▸ hafter r hr)
          · exact hno hmem
    · -- The first key, if any, is another one.
      have hother : (∀ key, key ∈ keys.head? → ¬ key < record.key) ↔ ∀ key ∈ keys, record.key < key := by
        cases keys with
        | nil => simp
        | cons first rest =>
          have hne : first ≠ record.key := fun h => hhead (by rw [h]; rfl)
          constructor
          · intro h
            have hfirst : record.key < first := Std.lt_of_le_of_ne (Std.not_lt.1 (h first rfl)) hne.symm
            refine List.forall_mem_cons.2 ⟨hfirst, fun key hkey => ?_⟩
            exact Std.lt_trans hfirst ((List.pairwise_cons.1 hkeys).1 key hkey)
          · intro h key hkey hlt
            rw [← Option.some.inj hkey] at hlt
            exact Std.lt_irrefl (Std.lt_trans hlt (h first List.mem_cons_self))
      rw [if_pos hhead, hother]
      simp only [bind_ok, throwIf_ok, exists_const, Classical.not_imp, not_not, ih hkeys hrest]
      constructor
      · rintro ⟨hlarger, hgone, hfound, hexpired⟩
        refine ⟨fun key hkey => ?_, List.forall_mem_cons.2 ⟨fun _ => hgone, hexpired⟩⟩
        obtain ⟨r, hr, hmatch⟩ := hfound key hkey
        exact ⟨r, List.mem_cons_of_mem _ hr, hmatch⟩
      · rintro ⟨hfound, hexpired⟩
        -- Each key has a record, which is this one or a later one.
        have hlater : ∀ key ∈ keys, record.key = key ∨ record.key < key := by
          intro key hkey
          obtain ⟨r, hr, hrkey, -⟩ := hfound key hkey
          rcases List.mem_cons.1 hr with rfl | hr
          · exact .inl hrkey
          · exact .inr (hrkey ▸ hafter r hr)
        have hnot : record.key ∉ keys := by
          intro hmem
          cases keys with
          | nil => exact absurd hmem List.not_mem_nil
          | cons first rest =>
            rcases hlater first List.mem_cons_self with heq | hlt
            · exact hhead (by rw [heq]; rfl)
            · rcases List.mem_cons.1 hmem with heq | hmem
              · exact Std.lt_irrefl (heq ▸ hlt)
              · exact Std.lt_irrefl (Std.lt_trans hlt ((List.pairwise_cons.1 hkeys).1 _ hmem))
        refine ⟨fun key hkey => ?_, (List.forall_mem_cons.1 hexpired).1 hnot, fun key hkey => ?_,
          (List.forall_mem_cons.1 hexpired).2⟩
        · exact (hlater key hkey).resolve_left fun heq => hnot (heq ▸ hkey)
        · obtain ⟨r, hr, hrkey, hmatch⟩ := hfound key hkey
          rcases List.mem_cons.1 hr with rfl | hr
          · exact absurd (hrkey ▸ hkey) hnot
          · exact ⟨r, hr, hrkey, hmatch⟩

/-! ### The pages -/

/-- The keys of some pages, each once. -/
def gather (seen keys : List (List UInt8)) : List (List UInt8) := keys.foldl (fun s key => s.insert key) seen

theorem gather_append (seen a b : List (List UInt8)) : gather seen (a ++ b) = gather (gather seen a) b :=
  List.foldl_append

theorem mem_gather {key : List UInt8} : key ∈ gather seen keys ↔ key ∈ seen ∨ key ∈ keys := by
  unfold gather
  induction keys generalizing seen with
  | nil => simp
  | cons first keys ih =>
    rw [List.foldl_cons, ih, List.mem_insert_iff, List.mem_cons]
    tauto

theorem nodup_gather (keys : List (List UInt8)) (h : seen.Nodup) : (gather seen keys).Nodup := by
  unfold gather
  induction keys generalizing seen with
  | nil => exact h
  | cons first keys ih => exact ih (h.insert)

theorem length_le_gather (seen keys : List (List UInt8)) : seen.length ≤ (gather seen keys).length := by
  unfold gather
  induction keys generalizing seen with
  | nil => exact Nat.le_refl _
  | cons first keys ih => exact Nat.le_trans List.length_le_length_insert (ih _)

theorem length_gather (keys : List (List UInt8)) : (gather [] keys).length = keys.dedup.length := by
  refine ((List.perm_ext_iff_of_nodup (nodup_gather keys .nil) keys.nodup_dedup).2 fun key => ?_).length_eq
  rw [mem_gather, List.mem_dedup]
  simp

theorem collect_ok {result : List (List UInt8)} (h : seen.length ≤ maxScannedKeys) :
    collect seen keys = .ok result ↔
      (∀ key ∈ keys, key ≠ []) ∧ result = gather seen keys ∧ result.length ≤ maxScannedKeys := by
  induction keys generalizing seen with
  | nil =>
    simp only [collect, Except.ok.injEq]
    constructor
    · rintro rfl
      exact ⟨nofun, rfl, h⟩
    · rintro ⟨-, rfl, -⟩
      rfl
  | cons key keys ih =>
    have hinsert : (seen.insert key).length ≤ maxScannedKeys ↔ ¬ (key ∉ seen ∧ seen.length ≥ maxScannedKeys) := by
      by_cases hmem : key ∈ seen
      · rw [List.insert_of_mem hmem]
        exact iff_of_true h fun hno => hno.1 hmem
      · rw [List.insert_of_not_mem hmem, List.length_cons]
        simp only [hmem, not_false_eq_true, true_and]
        omega
    simp only [collect, bind_ok, throwIf_ok, exists_const, ← hinsert, List.length_eq_zero_iff,
      List.forall_mem_cons]
    constructor
    · rintro ⟨hne, hroom, hrest⟩
      obtain ⟨hkeys, rfl, hbound⟩ := (ih hroom).1 hrest
      exact ⟨⟨hne, hkeys⟩, rfl, hbound⟩
    · rintro ⟨⟨hne, hkeys⟩, rfl, hbound⟩
      have hroom := Nat.le_trans (length_le_gather (seen.insert key) keys) hbound
      exact ⟨hne, hroom, (ih hroom).2 ⟨hkeys, rfl, hbound⟩⟩

/-- A SCAN that ends: the last page sends back the cursor `0`, and each one before a new cursor. -/
def Ends : String → List Page → Prop
  | _, [] => False
  | _, [page] => page.next = "0"
  | cursor, page :: second :: pages =>
    page.next ≠ "0" ∧ page.next ≠ cursor ∧ Ends page.next (second :: pages)

theorem scanPages_ok {n : Nat} {cursor : String} {pages : List Page} (hends : Ends cursor pages)
    (hseen : seen.length ≤ maxScannedKeys) :
    scanPages n cursor seen pages = .ok keys ↔ pages.length ≤ n ∧
      (∀ key ∈ pages.flatMap Page.keys, key ≠ []) ∧
      (gather seen (pages.flatMap Page.keys)).length ≤ maxScannedKeys ∧
      keys = (gather seen (pages.flatMap Page.keys)).mergeSort fun a b => ¬ b < a := by
  induction pages generalizing n cursor seen with
  | nil => exact hends.elim
  | cons page pages ih =>
    cases n with
    | zero => exact iff_of_false nofun fun h => absurd h.1 (Nat.not_succ_le_zero _)
    | succ n =>
      simp only [scanPages, bind_ok, collect_ok hseen, List.flatMap_cons, gather_append,
        List.forall_mem_append, List.length_cons, Nat.add_le_add_iff_right]
      cases pages with
      | nil =>
        have hlast : page.next = "0" := hends
        simp only [if_pos hlast, pure_ok]
        constructor
        · rintro ⟨_, ⟨hkeys, rfl, hbound⟩, rfl⟩
          exact ⟨Nat.zero_le n, ⟨hkeys, nofun⟩, hbound, rfl⟩
        · rintro ⟨-, ⟨hkeys, -⟩, hbound, rfl⟩
          exact ⟨_, ⟨hkeys, rfl, hbound⟩, rfl⟩
      | cons second pages =>
        obtain ⟨hmore, hnew, hrest⟩ := hends
        simp only [if_neg hmore, bind_ok, throwIf_ok, exists_const, hnew, not_false_eq_true, true_and]
        constructor
        · rintro ⟨_, ⟨hkeys, rfl, hbound⟩, hscan⟩
          obtain ⟨hpages, hrestKeys, htotal, rfl⟩ := (ih hrest hbound).1 hscan
          exact ⟨hpages, ⟨hkeys, hrestKeys⟩, htotal, rfl⟩
        · rintro ⟨hpages, ⟨hkeys, hrestKeys⟩, htotal, rfl⟩
          have hbound := Nat.le_trans (length_le_gather (gather seen page.keys) _) htotal
          exact ⟨_, ⟨hkeys, rfl, hbound⟩, (ih hrest hbound).2 ⟨hpages, hrestKeys, htotal, rfl⟩⟩

theorem pairwise_sorted (h : keys.Nodup) : (keys.mergeSort fun a b => ¬ b < a).Pairwise (· < ·) := by
  have hle : (keys.mergeSort fun a b => ¬ b < a).Pairwise fun a b => decide (¬ b < a) = true := by
    refine List.pairwise_mergeSort (fun a b c hab hbc => ?_) (fun a b => ?_) keys
    · simp only [decide_eq_true_eq, Std.not_lt] at hab hbc ⊢
      exact Std.le_trans hab hbc
    · simp only [Bool.or_eq_true, decide_eq_true_eq, Std.not_lt]
      exact Std.le_total
  have hnodup : (keys.mergeSort fun a b => ¬ b < a).Nodup := (List.mergeSort_perm _ _).nodup_iff.2 h
  refine (hle.and hnodup).imp fun hab => ?_
  simp only [decide_eq_true_eq, Std.not_lt] at hab
  exact Std.lt_of_le_of_ne hab.1 hab.2

/-! ### The whole comparison -/

/-- The keys of the target as its pages give them. -/
structure Target.Covers (target : Target) : Prop where
  keys : ∀ key, (target.lookup key).isSome ↔ key ∈ target.pages.flatMap Page.keys
  nonempty : ∀ key ∈ target.pages.flatMap Page.keys, key ≠ []
  ends : Ends "0" target.pages

/-- What the sidecar promises about the target. -/
structure Matches (target : Target) (records : List TtlRecord) (expectedCount : Int64) : Prop where
  count : (records.length : Int) = expectedCount.toInt
  restored : ∀ key entry, target.lookup key = some entry →
    ∃ r ∈ records, r.key = key ∧ Restored sha256 target r entry
  missing : ∀ r ∈ records, target.lookup r.key = none → Expired target r

/-- The target is within the limits of a scan. -/
def Target.Scannable (target : Target) : Prop :=
  target.pages.length ≤ maxScanPages ∧ (target.pages.flatMap Page.keys).dedup.length ≤ maxScannedKeys

theorem scanAll_ok (hcovers : target.Covers) :
    scanAll target = .ok keys ↔ target.Scannable ∧
      keys = (gather [] (target.pages.flatMap Page.keys)).mergeSort fun a b => ¬ b < a := by
  have hempty : ([] : List (List UInt8)).length ≤ maxScannedKeys := Nat.zero_le _
  unfold scanAll Target.Scannable
  rw [scanPages_ok hcovers.ends hempty, length_gather]
  constructor
  · rintro ⟨hpages, -, hkeys, rfl⟩
    exact ⟨⟨hpages, hkeys⟩, rfl⟩
  · rintro ⟨⟨hpages, hkeys⟩, rfl⟩
    exact ⟨hpages, hcovers.nonempty, hkeys, rfl⟩

/-- **The comparison is exact** for every target that can be scanned at a server time that is not
negative, and fails for any other. -/
theorem verify_iff {target : Target} {records : List TtlRecord} (expectedCount : Int64)
    (hcovers : target.Covers) (hrecords : records.Pairwise fun a b => a.key < b.key) :
    verifyTTLRecords sha256 target records expectedCount = .ok () ↔
      target.Scannable ∧ 0 ≤ target.serverTime ∧ Matches sha256 target records expectedCount := by
  have hcount : (¬ (expectedCount < 0 ∨ (records.length : Int) ≠ expectedCount.toInt)) ↔
      (records.length : Int) = expectedCount.toInt := by
    rw [not_or, not_not, and_iff_right_iff_imp, Int64.lt_iff_toInt_lt]
    intro h
    rw [← h]
    exact Int.not_lt.2 (Int.natCast_nonneg _)
  unfold verifyTTLRecords
  simp only [bind_ok, throwIf_ok, exists_const, hcount, scanAll_ok hcovers, Std.not_lt]
  constructor
  · rintro ⟨hlength, keys, ⟨hscannable, rfl⟩, hnow, hwalk⟩
    have hwalk := (walk_ok sha256 hnow (pairwise_sorted (nodup_gather _ .nil)) hrecords).1 hwalk
    simp only [List.mem_mergeSort, mem_gather, List.not_mem_nil, false_or, ← hcovers.keys] at hwalk
    refine ⟨hscannable, hnow, hlength, fun key entry hentry => ?_, fun r hr hnone => ?_⟩
    · obtain ⟨r, hr, rfl, entry', hentry', hrestored⟩ := hwalk.1 key (by rw [hentry]; rfl)
      rw [hentry] at hentry'
      exact ⟨r, hr, rfl, Option.some.inj hentry' ▸ hrestored⟩
    · exact hwalk.2 r hr (by rw [hnone]; exact Bool.false_ne_true)
  · rintro ⟨hscannable, hnow, hlength, hrestored, hmissing⟩
    refine ⟨hlength, _, ⟨hscannable, rfl⟩, hnow, ?_⟩
    refine (walk_ok sha256 hnow (pairwise_sorted (nodup_gather _ .nil)) hrecords).2 ?_
    simp only [List.mem_mergeSort, mem_gather, List.not_mem_nil, false_or, ← hcovers.keys]
    constructor
    · intro key hkey
      obtain ⟨entry, hentry⟩ := Option.isSome_iff_exists.1 hkey
      obtain ⟨r, hr, rfl, hmatch⟩ := hrestored key entry hentry
      exact ⟨r, hr, rfl, entry, hentry, hmatch⟩
    · exact fun r hr hno => hmissing r hr (Option.not_isSome_iff_eq_none.1 hno)

end Verify

namespace Compared

open Sidecar (digest)

def entry : Entry := ⟨⟨[115], [1, 2]⟩, none⟩

/-- A target with the numbers below `n` as keys, in one page. -/
def numbered (n : Nat) (serverTime : Int64) : Target where
  lookup key := if key ∈ (List.range n).map (bigEndian 4) then some entry else none
  pages := [⟨"0", (List.range n).map (bigEndian 4)⟩]
  serverTime := serverTime

def numberedRecords (n : Nat) : List TtlRecord :=
  (((List.range n).map (bigEndian 4)).mergeSort fun a b => ¬ b < a).map
    fun key => ⟨key, digest, ttlPersistent, 0⟩

variable {n : Nat}

theorem nodup_numbers (h : n ≤ 256 ^ 4) : ((List.range n).map (bigEndian 4)).Nodup := by
  refine (List.nodup_map_iff_inj_on List.nodup_range).2 fun i hi j hj heq => ?_
  have hi' := Nat.lt_of_lt_of_le (List.mem_range.1 hi) h
  have hj' := Nat.lt_of_lt_of_le (List.mem_range.1 hj) h
  rw [← ofBigEndian_bigEndian hi', heq, ofBigEndian_bigEndian hj']

theorem covers (n : Nat) (serverTime : Int64) : (numbered n serverTime).Covers where
  keys key := by
    show (if key ∈ (List.range n).map (bigEndian 4) then some entry else none).isSome ↔ _
    rw [numbered, List.flatMap_singleton]
    split_ifs with h
    · exact iff_of_true rfl h
    · exact iff_of_false nofun h
  nonempty key hkey := by
    rw [numbered, List.flatMap_singleton] at hkey
    obtain ⟨i, -, rfl⟩ := List.mem_map.1 hkey
    intro hnil
    have hlength := congrArg List.length hnil
    rw [length_bigEndian] at hlength
    cases hlength
  ends := rfl

theorem le_of_scannable (h : n ≤ 256 ^ 4) {serverTime : Int64} (hscannable : (numbered n serverTime).Scannable) :
    n ≤ maxScannedKeys := by
  have hkeys := hscannable.2
  rwa [numbered, List.flatMap_singleton, (nodup_numbers h).dedup, List.length_map, List.length_range] at hkeys

theorem sorted (h : n ≤ 256 ^ 4) : (numberedRecords n).Pairwise fun a b => a.key < b.key :=
  List.pairwise_map.2 (pairwise_sorted (nodup_numbers h))

/-- One record for each key. -/
theorem numbered_matches {expectedCount : Int64} (hcount : (n : Int) = expectedCount.toInt) (serverTime : Int64) :
    Matches (fun _ => digest) (numbered n serverTime) (numberedRecords n) expectedCount where
  count := by
    rw [← hcount, numberedRecords, List.length_map, (List.mergeSort_perm _ _).length_eq, List.length_map,
      List.length_range]
  restored key e he := by
    have hmem : key ∈ (List.range n).map (bigEndian 4) ∧ entry = e := by
      unfold numbered at he
      dsimp only at he
      split_ifs at he with h
      exact ⟨h, Option.some.inj he⟩
    refine ⟨⟨key, digest, ttlPersistent, 0⟩, List.mem_map.2 ⟨key, List.mem_mergeSort.2 hmem.1, rfl⟩, rfl, ?_⟩
    rw [← hmem.2]
    exact ⟨rfl, fun _ => rfl, fun hkind => absurd (show ttlPersistent = ttlExpiring from hkind) (by decide)⟩
  missing r hr hnone := by
    obtain ⟨key, hkey, rfl⟩ := List.mem_map.1 hr
    unfold numbered at hnone
    dsimp only at hnone
    rw [if_pos (List.mem_mergeSort.1 hkey)] at hnone
    cases hnone

end Compared

/-- Two keys with their records. -/
theorem verify_iff_two_keys : verifyTTLRecords (fun _ => Sidecar.digest) (Compared.numbered 2 1700)
    (Compared.numberedRecords 2) 2 = .ok () := by
  refine (verify_iff _ 2 (Compared.covers 2 1700) (Compared.sorted (by decide))).2 ?_
  exact ⟨⟨by decide, by decide⟩, by decide, Compared.numbered_matches (by decide) 1700⟩

/-- **One key more than a scan accepts**: all keys are there with their values, and the comparison
fails. -/
theorem million_keys_refused :
    (Compared.numbered 1000001 1700).Covers ∧
    (Compared.numberedRecords 1000001).Pairwise (fun a b => a.key < b.key) ∧
    Matches (fun _ => Sidecar.digest) (Compared.numbered 1000001 1700) (Compared.numberedRecords 1000001)
      1000001 ∧
    verifyTTLRecords (fun _ => Sidecar.digest) (Compared.numbered 1000001 1700)
      (Compared.numberedRecords 1000001) 1000001 ≠ .ok () := by
  refine ⟨Compared.covers _ _, Compared.sorted (by decide), Compared.numbered_matches (by decide) 1700,
    fun hok => ?_⟩
  obtain ⟨-, -, hok⟩ := bind_ok.1 hok
  obtain ⟨keys, hscan, -⟩ := bind_ok.1 hok
  have hscannable := ((scanAll_ok (Compared.covers 1000001 1700)).1 hscan).1
  exact absurd (Compared.le_of_scannable (by decide) hscannable) (by decide)

end RaibitServer.RecoveryCache
