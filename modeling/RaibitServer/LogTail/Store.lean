import Mathlib.Algebra.GroupWithZero.Nat
import RaibitServer.Lib.Guard
import RaibitServer.Lib.Keyset
import RaibitServer.Lib.Text

/-!
# LogTail.Store — runtime logs of the memory store, page by page

`appendRuntimeLog` and `listRuntimeLogs` of `store.ts` with the keyset cursors of `store-helpers.ts`.  The text
of a cursor is the base64url form of a JSON object and is read back as this object, so a cursor text is
modelled by what was written in it, together with the length that the reader checks.  A time is a number
of milliseconds.  The collation of ids (`localeCompare`) is a parameter.
-/

namespace RaibitServer.LogTail

open Lib

/-! ### Rows -/

structure RuntimeLog where
  id : String
  serviceId : String
  deploymentId : Option String
  podName : String
  podUid : String
  containerName : String
  line : String
  level : String
  timestamp : Int
  deriving DecidableEq, Repr

structure RuntimeLogInput where
  serviceId : String
  deploymentId : Option String := none
  podName : Option String := none
  podUid : Option String := none
  sourceInstanceId : Option String := none
  containerName : Option String := none
  level : Option String := none
  deriving DecidableEq, Repr

/-- `/^[A-Za-z0-9._:-]+$/` on a trimmed text of at most 256 characters. -/
def boundedIdentity (value : Option String) : Option String := do
  let identity := Text.jsTrim (← value)
  if identity ≠ "" ∧ Text.jsLength identity ≤ 256 ∧
      identity.toList.all (fun c => c.isAlphanum || ['.', '_', ':', '-'].contains c) = true then some identity
  else none

def persistedRuntimePodUid (podUid sourceInstanceId : Option String) : Except String String :=
  match boundedIdentity podUid, boundedIdentity sourceInstanceId with
  | some podUid, some sourceInstanceId =>
    if podUid ≠ sourceInstanceId then .error "runtime log immutable source instance is ambiguous"
    else .ok sourceInstanceId
  | some identity, none => .ok identity
  | none, some identity => .ok identity
  | none, none => .error "runtime log writer requires an immutable source instance ID"

/-- The row that a call stores, under an id, with its masked line and the time of the call. -/
def runtimeLogRow (id line : String) (now : Int) (input : RuntimeLogInput) : Except String RuntimeLog := do
  let podUid ← persistedRuntimePodUid input.podUid input.sourceInstanceId
  return { id, serviceId := input.serviceId, deploymentId := input.deploymentId
           podName := input.podName.getD "local-pod", podUid, containerName := input.containerName.getD "app"
           line, level := input.level.getD "info", timestamp := now }

def appendRuntimeLog (runtimeLogs : List RuntimeLog) (id line : String) (now : Int) (input : RuntimeLogInput) :
    Except String (List RuntimeLog) := do
  let row ← runtimeLogRow id line now input
  return runtimeLogs ++ [row]

/-! ### Cursors -/

/-- `date` is the time of `at`. -/
structure KeysetCursor where
  date : Int
  id : String
  deriving DecidableEq, Repr

/-- A text that a client sends as a cursor: what was written in it, or a text that is no cursor. -/
inductive CursorText
  | written (cursor : KeysetCursor)
  | malformed
  deriving DecidableEq, Repr

/-- The bytes of a character in a JSON string. -/
def jsonSize (c : Char) : Nat :=
  if ['"', '\\', '\x08', '\x0c', '\n', '\r', '\t'].contains c then 2
  else if c.toNat < 0x20 then 6
  else c.utf8Size

/-- The length of `toISOString`: years outside 0 to 9999 have a sign and six digits. -/
def isoLength (ms : Int) : Nat := if -62167219200000 ≤ ms ∧ ms < 253402300800000 then 24 else 27

/-- The length of the base64url text of the object with the members `v`, `at` and `id`. -/
def textLength (cursor : KeysetCursor) : Nat :=
  let bytes := 12 + (isoLength cursor.date + 2) + 6 + ((cursor.id.toList.map jsonSize).sum + 2) + 1
  (4 * bytes + 2) / 3

def encodeKeysetCursor (row : Option RuntimeLog) : Option CursorText := do
  let row ← row
  let id := Text.jsTrim row.id
  if id = "" then none else some (.written ⟨row.timestamp, id⟩)

def keysetCursorForRows (rows : List RuntimeLog) : Option CursorText := encodeKeysetCursor rows.getLast?

def invalidCursor : String := "invalid versioned keyset cursor"

def decodeKeysetCursor : CursorText → Except String KeysetCursor
  | .malformed => .error invalidCursor
  | .written cursor => do
    throwIf (1024 < textLength cursor) invalidCursor
    let id := Text.jsTrim cursor.id
    throwIf (id = "" ∨ 512 < Text.jsLength id) invalidCursor
    return ⟨cursor.date, id⟩

/-- What a page is asked for.  `after` is the time that the option denotes, if it denotes one. -/
structure PageOptions where
  cursor : Option CursorText := none
  after : Option (Option Int) := none
  limit : Option Int := none

/-- A position in the rows: behind a cursor, or behind every row of a time. -/
inductive KeysetPosition
  | row (cursor : KeysetCursor)
  | legacy (date : Int)
  deriving DecidableEq, Repr

def resolveKeysetCursor (options : PageOptions) : Except String (Option KeysetPosition) :=
  match options.cursor, options.after with
  | some text, _ => (decodeKeysetCursor text).map fun cursor => some (.row cursor)
  | none, none => .ok none
  | none, some none => .error invalidCursor
  | none, some (some date) => .ok (some (.legacy date))

/-! ### Pages -/

section Pages

variable (localeCompare : String → String → Ordering)

/-- The position of a row. -/
def RuntimeLog.position (row : RuntimeLog) : KeysetCursor := ⟨row.timestamp, row.id⟩

/-- The order of positions: the time, then the id. -/
def compareKeyset : KeysetCursor → KeysetCursor → Ordering :=
  compareLex (fun left right => compare left.date right.date) (fun left right => localeCompare left.id right.id)

instance [Std.TransCmp localeCompare] : Std.TransCmp (compareKeyset localeCompare) :=
  inferInstanceAs (Std.TransCmp (compareLex (fun left right : KeysetCursor => compare left.date right.date)
    (fun left right : KeysetCursor => localeCompare left.id right.id)))

instance [Std.LawfulEqCmp localeCompare] : Std.LawfulEqCmp (compareKeyset localeCompare) where
  compare_self := by
    intro a
    have hat : compare a.date a.date = .eq := Std.ReflCmp.compare_self
    have hid : localeCompare a.id a.id = .eq := Std.ReflCmp.compare_self
    show (compare a.date a.date).then (localeCompare a.id a.id) = .eq
    rw [hat, hid]
    rfl
  eq_of_compare := by
    intro a b h
    unfold compareKeyset compareLex at h
    obtain ⟨hat, hid⟩ := Ordering.then_eq_eq.1 h
    cases a
    cases b
    congr
    · exact Std.LawfulEqCmp.eq_of_compare hat
    · exact Std.LawfulEqCmp.eq_of_compare hid

def activityLimit : Option Int → Nat
  | none => 200
  | some parsed => (max 1 (min 1000 parsed)).toNat

theorem activityLimit_pos (value : Option Int) : 0 < activityLimit value := by
  cases value with
  | none => decide
  | some parsed =>
    show 0 < (max 1 (min 1000 parsed)).toNat
    omega

/-- The rows behind a position. -/
def behind (rows : List RuntimeLog) : KeysetPosition → List RuntimeLog
  | .row cursor => Keyset.after RuntimeLog.position (compareKeyset localeCompare) cursor rows
  | .legacy date => rows.filter fun row => date < row.timestamp

/-- A page behind a position is the first rows there, a page without one the last rows of all. -/
def boundedActivityRows (rows : List RuntimeLog) (options : PageOptions) : Except String (List RuntimeLog) := do
  let limit := activityLimit options.limit
  let sorted := Keyset.inOrder RuntimeLog.position (compareKeyset localeCompare)
  match ← resolveKeysetCursor options with
  | some position => return (sorted (behind localeCompare rows position)).take limit
  | none => return (sorted rows).drop (rows.length - limit)

def listRuntimeLogs (runtimeLogs : List RuntimeLog) (serviceId : String) (options : PageOptions) :
    Except String (List RuntimeLog) :=
  boundedActivityRows localeCompare (runtimeLogs.filter fun row => row.serviceId = serviceId) options

end Pages

end RaibitServer.LogTail
