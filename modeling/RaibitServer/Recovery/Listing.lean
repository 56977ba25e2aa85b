import RaibitServer.Lib.Paging
import RaibitServer.Recovery.Repository

/-!
# Recovery.Listing — the backups of a resource, page by page (`resource-recovery.ts`)

`listBackups` filters by the cursor with `<` and sorts with `localeCompare`.  Where the two agree on the
stored texts, the pages that a client follows are the backups of the resource, newest first.  A cursor with
an empty id is refused, so this takes rows whose id is not empty.
-/

namespace RaibitServer.Recovery

open Lib Lib.Paging

/-- The texts of times: what `toISOString` writes, `Date.parse` reads. -/
structure Texts (P : Platform) where
  iso : Millis → String
  localeCompare : String → String → Ordering
  parses : ∀ t, (P.dateParse (iso t)).isSome

def requireResourceOwner (s : RecoveryState) (resourceId organizationId : String) : Except Thrown Unit := do
  let resource ← orThrow (s.resources.find? fun row => row.id = resourceId) (.recovery "RECOVERY_NOT_FOUND" 404)
  throwIf (¬ ∃ project ∈ s.projects, project.id = resource.projectId ∧ project.organizationId = organizationId)
    (.recovery "RECOVERY_NOT_FOUND" 404)

section Page

variable {P : Platform} (rt : Texts P)

/-! ### Cursors -/

structure BackupCursor where
  at' : String
  id : String
  deriving DecidableEq

def position (row : RecoveryBackup) : BackupCursor := ⟨rt.iso row.createdAt, row.id⟩

def encodeBackupCursor (row : BackupCursor) : CursorText :=
  .json (.obj [("v", .num 1), ("at", .str row.at'), ("id", .str row.id)])

def decodeBackupCursor (P : Platform) : CursorText → Except Thrown BackupCursor
  | .other _ => .error (.recovery "RECOVERY_CURSOR_INVALID" 400)
  | .json value => do
    let record ← orThrow (Json.asObject (some value)) (.recovery "RECOVERY_INPUT_INVALID" 400)
    match Json.member record "v", Json.asString (Json.member record "at"), Json.asString (Json.member record "id") with
    | some (.num 1), some at', some id =>
      throwIf (record.length ≠ 3 ∨ (P.dateParse at').isNone ∨ id = "") (.recovery "RECOVERY_CURSOR_INVALID" 400)
      return ⟨at', id⟩
    | _, _, _ => .error (.recovery "RECOVERY_CURSOR_INVALID" 400)

/-! ### Pages -/

structure BackupListOptions where
  limit : Option Int
  cursor : Option CursorText
  clock : Clock

/-- The cursor of the options; an empty text is none. -/
def optionsCursor (P : Platform) : Option CursorText → Except Thrown (Option BackupCursor)
  | none | some (.other "") => .ok none
  | some text => (decodeBackupCursor P text).map some

/-- The backups of a resource that a listing is about. -/
def listed (s : RecoveryState) (scope : RecoveryScope) (resourceId : String) : List RecoveryBackup :=
  s.backups.filter fun row =>
    row.formatVersion = 1 && row.resourceId = resourceId && row.organizationId = scope.organizationId

/-- `<` on `createdAt` and then `id`. -/
def precedes (row cursor : BackupCursor) : Bool :=
  (Text.jsCompare row.at' cursor.at').isLT || (row.at' = cursor.at' && (Text.jsCompare row.id cursor.id).isLT)

/-- The comparison that `sort` is given, with `left` and `right` in its order. -/
def newerFirst (compare : String → String → Ordering) (left right : BackupCursor) : Ordering :=
  (compare right.at' left.at').then (compare right.id left.id)

def listBackups (s : RecoveryState) (scope : RecoveryScope) (resourceId : String) (options : BackupListOptions) :
    Except Thrown (List ResourceBackupView × Option CursorText) := do
  requireResourceOwner s resourceId scope.organizationId
  recoveryAuthorized s scope "backup:manage"
  let limit := options.limit.getD 200
  throwIf (limit < 1 ∨ limit > 1000) (.recovery "RECOVERY_LIMIT_INVALID" 400)
  let cursor ← optionsCursor P options.cursor
  let behind := (listed s scope resourceId).filter fun row => cursor.all (precedes (position rt row))
  let rows := (Keyset.inOrder (position rt) (newerFirst rt.localeCompare) behind).take (limit.toNat + 1)
  let page := rows.take limit.toNat
  let backups ← page.mapM fun row => (recoveryNow P options.clock).map (publicBackup row)
  return (backups, if limit.toNat < rows.length then page.getLast?.map fun row => encodeBackupCursor (position rt row)
    else none)

end Page

/-! ### The order of the listing -/

/-- `newerFirst` where `localeCompare` is the order of `<`. -/
def jsNewerFirst : BackupCursor → BackupCursor → Ordering := newerFirst Text.jsCompare

instance : Std.TransCmp jsNewerFirst :=
  inferInstanceAs (Std.TransCmp fun a b : BackupCursor => (compareLex
    (fun a b : BackupCursor => Text.jsCompare a.at' b.at') fun a b => Text.jsCompare a.id b.id) b a)

instance : Std.LawfulEqCmp jsNewerFirst where
  compare_self := Std.ReflCmp.compare_self
  eq_of_compare {a b} h := by
    obtain ⟨hat, hid⟩ := Ordering.then_eq_eq.1 h
    cases a
    cases b
    simp only at hat hid
    rw [Std.LawfulEqCmp.eq_of_compare hat, Std.LawfulEqCmp.eq_of_compare hid]

/-- The filter keeps what the order puts behind the cursor. -/
theorem precedes_eq (row cursor : BackupCursor) : precedes row cursor = (jsNewerFirst row cursor).isGT := by
  have hat : Text.jsCompare cursor.at' row.at' = (Text.jsCompare row.at' cursor.at').swap := Std.OrientedCmp.eq_swap
  have hid : Text.jsCompare cursor.id row.id = (Text.jsCompare row.id cursor.id).swap := Std.OrientedCmp.eq_swap
  have hsame : decide (row.at' = cursor.at') = (Text.jsCompare row.at' cursor.at' == .eq) := by
    rw [Bool.eq_iff_iff, decide_eq_true_eq, beq_iff_eq]
    exact Std.LawfulEqCmp.compare_eq_iff_eq.symm
  show _ = ((Text.jsCompare cursor.at' row.at').then (Text.jsCompare cursor.id row.id)).isGT
  unfold precedes
  rw [hat, hid, hsame]
  cases Text.jsCompare row.at' cursor.at' <;> cases Text.jsCompare row.id cursor.id <;> rfl

section Listing

variable {P : Platform} {rt : Texts P} {s : RecoveryState} {scope : RecoveryScope} {resourceId : String}

/-- The backups of the resource, newest first. -/
def orderedBackups (rt : Texts P) (s : RecoveryState) (scope : RecoveryScope) (resourceId : String) :
    List RecoveryBackup :=
  Keyset.inOrder (position rt) jsNewerFirst (listed s scope resourceId)

/-- `localeCompare` orders the stored texts as `<` does. -/
def Agrees (rt : Texts P) (rows : List RecoveryBackup) : Prop :=
  ∀ a ∈ rows, ∀ b ∈ rows,
    rt.localeCompare (rt.iso a.createdAt) (rt.iso b.createdAt) =
      Text.jsCompare (rt.iso a.createdAt) (rt.iso b.createdAt) ∧
    rt.localeCompare a.id b.id = Text.jsCompare a.id b.id

theorem newerFirst_eq {rows : List RecoveryBackup} (h : Agrees rt rows) (a : RecoveryBackup) (ha : a ∈ rows)
    (b : RecoveryBackup) (hb : b ∈ rows) :
    newerFirst rt.localeCompare (position rt a) (position rt b) = jsNewerFirst (position rt a) (position rt b) := by
  obtain ⟨hat, hid⟩ := h b hb a ha
  show (rt.localeCompare (rt.iso b.createdAt) (rt.iso a.createdAt)).then (rt.localeCompare b.id a.id) = _
  rw [hat, hid]
  rfl

theorem positions_nodup (hids : (s.backups.map (·.id)).Nodup) :
    ((listed s scope resourceId).map (position rt)).Nodup := by
  have hlisted : ((listed s scope resourceId).map (·.id)).Nodup := hids.sublist (List.filter_sublist.map _)
  refine List.Nodup.of_map BackupCursor.id ?_
  rwa [List.map_map]

theorem decodeBackupCursor_encode {row : RecoveryBackup} (hid : row.id ≠ "") :
    decodeBackupCursor P (encodeBackupCursor (position rt row)) = .ok (position rt row) := by
  refine bind_ok.2 ⟨_, rfl, bind_ok.2 ⟨(), throwIf_ok.2 ?_, rfl⟩⟩
  rintro (hlength | hdate | hempty)
  · exact hlength rfl
  · have hparses := rt.parses row.createdAt
    rw [Option.isNone_iff_eq_none] at hdate
    change P.dateParse (rt.iso row.createdAt) = none at hdate
    rw [hdate] at hparses
    cases hparses
  · exact hid hempty

theorem mapM_publicBackup {clock : Clock} {current : Millis} (h : recoveryNow P clock = .ok current)
    (rows : List RecoveryBackup) :
    (rows.mapM fun row => (recoveryNow P clock).map (publicBackup row)) = .ok (rows.map (publicBackup · current)) := by
  rw [h]
  induction rows with
  | nil => rfl
  | cons row rows ih =>
    rw [List.mapM_cons, ih]
    rfl

/-- What is left behind a cursor that the listing gave out. -/
theorem behind_eq (hagree : Agrees rt (listed s scope resourceId)) (hids : (s.backups.map (·.id)).Nodup)
    (hnamed : ∀ row ∈ listed s scope resourceId, row.id ≠ "") {rest : List RecoveryBackup} {cursor : Option CursorText}
    (h : Stands (fun row => encodeBackupCursor (position rt row)) (orderedBackups rt s scope resourceId) rest cursor) :
    ∃ read, optionsCursor P cursor = .ok read ∧ Keyset.inOrder (position rt) (newerFirst rt.localeCompare)
      ((listed s scope resourceId).filter fun row => read.all (precedes (position rt row))) = rest := by
  cases h with
  | start =>
    refine ⟨none, rfl, ?_⟩
    simp only [Option.all_none, List.filter_true]
    exact Keyset.inOrder_congr (newerFirst_eq hagree)
  | @behind front rest row hsplit =>
    have hrow : row ∈ listed s scope resourceId := by
      refine (Keyset.mem_inOrder (position rt) jsNewerFirst).1 ?_
      change row ∈ orderedBackups rt s scope resourceId
      rw [hsplit]
      simp
    refine ⟨some (position rt row), map_ok.2 ⟨_, decodeBackupCursor_encode (hnamed row hrow), rfl⟩, ?_⟩
    exact Keyset.inOrder_behind (positions_nodup hids) (newerFirst_eq hagree) hsplit fun r _ =>
      precedes_eq (position rt r) (position rt row)

/-- A view of a row at some instant. -/
def Shows (view : ResourceBackupView) (row : RecoveryBackup) : Prop := ∃ current, view = publicBackup row current

/-- **Every backup once**: the pages that a client follows are the backups of the resource, newest first. -/
theorem backups_listed_once (hagree : Agrees rt (listed s scope resourceId)) (hids : (s.backups.map (·.id)).Nodup)
    (hnamed : ∀ row ∈ listed s scope resourceId, row.id ≠ "")
    (howner : requireResourceOwner s resourceId scope.organizationId = .ok ())
    (hallowed : recoveryAuthorized s scope "backup:manage" = .ok ())
    {limit : Int} (hlow : 1 ≤ limit) (hhigh : limit ≤ 1000) {clock : Nat → Clock}
    (hclock : ∀ call, ∃ current, recoveryNow P (clock call) = .ok current) :
    ∃ ordered, ordered.Perm (listed s scope resourceId) ∧
      ordered.Pairwise (fun a b => precedes (position rt b) (position rt a) = true) ∧
      ∀ calls, ordered.length < calls → ∃ shown, follow (fun call cursor =>
        listBackups rt s scope resourceId ⟨some limit, cursor, clock call⟩) calls 0 none = .ok (some shown) ∧
          List.Forall₂ Shows shown ordered := by
  refine ⟨orderedBackups rt s scope resourceId, List.perm_insertionSort _ _, ?_, fun calls hcalls => ?_⟩
  · refine (Keyset.pairwise_inOrder (positions_nodup hids)).imp fun {a b} h => ?_
    rw [precedes_eq, Std.OrientedCmp.gt_iff_lt.2 h]
    rfl
  · have hstart : Stands (fun row => encodeBackupCursor (position rt row)) (orderedBackups rt s scope resourceId) _
        none := .start
    refine follow_complete (by omega : 0 < limit.toNat) (fun call rest cursor hstands => ?_) hstart hcalls
    obtain ⟨read, hread, hrest⟩ := behind_eq hagree hids hnamed hstands
    obtain ⟨current, hcurrent⟩ := hclock call
    obtain ⟨htake, hmore⟩ := take_one_more limit.toNat rest
    refine ⟨((rest.take limit.toNat).map (publicBackup · current), _), ?_,
      List.forall₂_map_left_iff.2 (List.forall₂_same.2 fun row _ => ⟨current, rfl⟩), rfl⟩
    unfold listBackups
    refine bind_ok.2 ⟨(), howner, bind_ok.2 ⟨(), hallowed, bind_ok.2 ⟨(), throwIf_ok.2 ?_, bind_ok.2 ⟨read, hread, ?_⟩⟩⟩⟩
    · dsimp only [Option.getD_some]
      omega
    · dsimp only [Option.getD_some]
      rw [hrest, htake]
      refine bind_ok.2 ⟨_, mapM_publicBackup hcurrent _, ?_⟩
      rw [pure_ok, if_congr hmore rfl rfl]
      rfl

end Listing

namespace ListingSample

def platform : Platform := ⟨fun _ => "", fun _ => some 0⟩

def texts : Texts platform := ⟨fun t => toString t, Text.jsCompare, fun _ => rfl⟩

def scope : RecoveryScope := ⟨"o", "u"⟩

def clock : Clock := ⟨none, 0⟩

def resource : RecoveryResource :=
  ⟨"r", "p", "r", "r", "cache", "redis", "", "", "", none, "READY", none, [], [], none⟩

def backup (id : String) (createdAt : Millis) : RecoveryBackup :=
  let base := newBase ⟨⟨"o", "u"⟩, "r", .null, clock⟩ .backup ⟨"", "", ""⟩ resource "" ⟨id, 1, none⟩ "" createdAt
  newBackup { base with id } resource ⟨[], ⟨⟨"", "", 1, ""⟩, ⟨"", ""⟩, "", ""⟩, ""⟩

/-- Two backups, the first one younger. -/
def state (id : String) : RecoveryState where
  organizations := ["o"]
  projects := [⟨"p", "o", "ACTIVE", none⟩]
  resources := [resource]
  members := [⟨"o", "u", "OWNER"⟩]
  backups := [backup id 1, backup "a" 0]
  restores := []
  pins := []
  attempts := []
  jobs := []
  auditEvents := []

theorem agrees (id : String) : Agrees texts (listed (state id) scope "r") := fun _ _ _ _ => ⟨rfl, rfl⟩

end ListingSample

open ListingSample in
theorem backups_listed_once_sample :
    ∃ shown, follow (fun _ cursor => listBackups texts (state "b") scope "r" ⟨some 1, cursor, clock⟩) 3 0 none =
      .ok (some shown) ∧ shown.length = 2 := by
  have hnamed : ∀ row ∈ listed (state "b") scope "r", row.id ≠ "" := by
    decide
  obtain ⟨ordered, hperm, -, hfollow⟩ := backups_listed_once (agrees "b") (by decide) hnamed rfl rfl
    (by decide : (1 : Int) ≤ 1) (by decide) (fun _ => ⟨0, rfl⟩ : ∀ _ : Nat, ∃ t, recoveryNow platform clock = .ok t)
  have hlength : ordered.length = 2 := hperm.length_eq.trans (by decide)
  obtain ⟨shown, hshown, hall⟩ := hfollow 3 (by omega)
  exact ⟨shown, hshown, hall.length_eq.trans hlength⟩

open ListingSample in
/-- A page that ends on an empty id has a cursor that is refused. -/
theorem unnamed_backup_refused :
    Agrees texts (listed (state "") scope "r") ∧ ((state "").backups.map (·.id)).Nodup ∧
      requireResourceOwner (state "") "r" "o" = .ok () ∧
      recoveryAuthorized (state "") scope "backup:manage" = .ok () ∧
      ∀ calls, follow (fun _ cursor => listBackups texts (state "") scope "r" ⟨some 1, cursor, clock⟩)
        (calls + 2) 0 none = .error (.recovery "RECOVERY_CURSOR_INVALID" 400) :=
  ⟨agrees _, by decide, rfl, rfl, fun _ => rfl⟩

end RaibitServer.Recovery
