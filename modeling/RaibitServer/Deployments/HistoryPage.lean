import RaibitServer.Deployments.History
import RaibitServer.Lib.JsonText
import RaibitServer.Lib.Paging

/-!
# Deployments.HistoryPage — the history of deployments, page by page (`deployment-history.ts`)

A page is what `matchesFilters` keeps, behind the cursor and newest first, and its cursor carries the scope, a
fingerprint of the filters and a signature.  `history_pages_complete`: the pages that a client follows are the
matching deployments, and a cursor is good for its own organization, project, filters and secret only.  Without a
secret there is no cursor, so the first page fails where a second one is needed.
-/

namespace RaibitServer.Deployments.HistoryPage

open Lib Lib.Paging
open Preview (TxError normalizeDeploymentStatus)
open History (HistoryAction eligibleHistoryAction retryReason positiveInteger)

/-- Dates, texts and digests; a digest is its bytes. -/
structure Runtime where
  toISOString : Int → String
  dateParse : String → Option Int
  localeCompare : String → String → Ordering
  sha256 : List Char → List Nat
  hmac : String → List Char → List Nat
  base64url : List Nat → String
  unbase64url : String → List Nat
  dateParse_toISOString : ∀ t, dateParse (toISOString t) = some t
  unbase64url_hmac : ∀ key message, unbase64url (base64url (hmac key message)) = hmac key message

structure DeploymentHistoryQuery where
  serviceId : Option String
  environment : Option String
  status : Option String
  trigger : Option String
  from' : Option String
  to' : Option String
  limit : Nat
  cursor : Option CursorText

structure DeploymentHistoryScope where
  organizationId : String
  projectId : String
  cursorSecret : String

structure HistoryDeployment extends Preview.DeploymentRow where
  updatedAt : Int
  rollbackOfDeploymentId : Option String
  previousDeploymentId : Option String
  publicHealthStatus : String
  healthCheckedAt : Option Int
  healthFailureCode : Option String
  observedGeneration : Option Nat

structure ServiceRecord where
  id : String
  name : String
  slug : String

def historyError : TxError := .thrown ⟨"INVALID_DEPLOYMENT_HISTORY_QUERY", 400⟩

section Page

variable (rt : Runtime)

/-! ### Filters -/

/-- A member that is missing or empty asks for nothing. -/
def asked (value : Option String) : Option String := value.filter (· ≠ "")

/-- The status is read only where the filters before it let the row pass. -/
def matchesFilters (row : HistoryDeployment) (query : DeploymentHistoryQuery) : Except TxError Bool :=
  let createdAt := rt.toISOString row.createdAt
  if !((asked query.serviceId).all (row.serviceId = ·) &&
      (asked query.environment).all ((environment row.deploymentType).text = ·)) then .ok false
  else do
    let status ← match asked query.status with
      | none => .ok true
      | some status => (normalizeDeploymentStatus row.status).map (· = status)
    return status && (asked query.trigger).all (Text.jsLower row.triggerType = Text.jsLower ·) &&
      (asked query.from').all (fun from' => (Text.jsCompare createdAt from').isGE) &&
      (asked query.to').all (fun to' => (Text.jsCompare createdAt to').isLE)

def publicFilters (query : DeploymentHistoryQuery) : List (String × Option String) :=
  [("serviceId", query.serviceId), ("environment", query.environment), ("status", query.status),
    ("trigger", query.trigger), ("from", query.from'), ("to", query.to')]

/-- `JSON.stringify(publicFilters(query))`. -/
def filtersText (query : DeploymentHistoryQuery) : List Char :=
  Json.stringify (.obj (Json.nullableMembers (publicFilters query)))

def filterFingerprint (query : DeploymentHistoryQuery) : String := rt.base64url (rt.sha256 (filtersText query))

/-! ### Positions and cursors -/

structure HistoryPosition where
  at' : String
  id : String

def position (row : HistoryDeployment) : HistoryPosition := ⟨rt.toISOString row.createdAt, row.id⟩

def comparePosition (row : HistoryDeployment) (cursor : HistoryPosition) : Ordering :=
  (rt.localeCompare (rt.toISOString row.createdAt) cursor.at').then (rt.localeCompare row.id cursor.id)

/-- The key of the cursors that are signed with a secret. -/
def signingKey (value : String) : String := "deployment-history-v1\x00" ++ value

def cursorKey (value : String) : Except TxError String :=
  if value = "" then .error historyError else .ok (signingKey value)

def cursorPayload (position : HistoryPosition) (scope : DeploymentHistoryScope) (query : DeploymentHistoryQuery) :
    JsonObject :=
  [("v", .num 1), ("o", .str scope.organizationId), ("p", .str scope.projectId),
    ("f", .str (filterFingerprint rt query)), ("at", .str position.at'), ("id", .str position.id)]

def encodeDeploymentHistoryCursor (position : HistoryPosition) (scope : DeploymentHistoryScope)
    (query : DeploymentHistoryQuery) : Except TxError CursorText := do
  let key ← cursorKey scope.cursorSecret
  let payload := cursorPayload rt position scope query
  return .json (.obj (payload ++ [("h", .str (rt.base64url (rt.hmac key (Json.stringify (.obj payload)))))]))

/-- The members that `isCursor` asks for. -/
structure Cursor where
  o : String
  p : String
  f : String
  at' : String
  id : String
  h : String

def isCursor (parsed : JsonObject) : Option Cursor :=
  let text (key : String) := Json.asString (Json.member parsed key)
  if (parsed.map (·.1)).isPerm ["at", "f", "h", "id", "o", "p", "v"] then
    match Json.member parsed "v" with
    | some (.num 1) => return ⟨← text "o", ← text "p", ← text "f", ← text "at", ← text "id", ← text "h"⟩
    | _ => none
  else none

/-- Whatever is thrown is a `DeploymentHistoryError`. -/
def decodeDeploymentHistoryCursor (value : CursorText) (scope : DeploymentHistoryScope)
    (query : DeploymentHistoryQuery) : Except TxError HistoryPosition :=
  match value with
  | .json (.obj parsed) => do
    let cursor ← orThrow (isCursor parsed) historyError
    throwIf (cursor.o ≠ scope.organizationId ∨ cursor.p ≠ scope.projectId ∨ cursor.f ≠ filterFingerprint rt query)
      historyError
    let key ← cursorKey scope.cursorSecret
    throwIf (rt.unbase64url cursor.h ≠ rt.hmac key (Json.stringify (.obj (parsed.filter (·.1 ≠ "h"))))) historyError
    let time ← orThrow (rt.dateParse cursor.at') historyError
    return ⟨rt.toISOString time, cursor.id⟩
  | _ => .error historyError

/-! ### Rows and pages -/

structure HistoryRow where
  id : String
  projectId : String
  service : ServiceRecord
  environment : Environment
  status : String
  trigger : String
  createdAt : String
  updatedAt : String
  commitSha : Option String
  imageDigest : Option String
  snapshotVersion : Option Nat
  sourceDeploymentId : Option String
  retryOfDeploymentId : Option String
  rollbackOfDeploymentId : Option String
  previousDeploymentId : Option String
  previewLineageId : Option String
  previewGeneration : Option Nat
  requestedByUserId : Option String
  requestIdempotencyKey : Option String
  publicHealthStatus : String
  healthCheckedAt : Option String
  healthFailureCode : Option String
  observedGeneration : Option Nat
  retryable : Bool
  reason : Option String
  execute : Bool
  eligibleAction : Option HistoryAction

def deploymentHistoryRow (row : HistoryDeployment) (service : ServiceRecord)
    (serviceDeployments : List HistoryDeployment) (execute : Bool) : Except TxError HistoryRow := do
  let rows := serviceDeployments.map (·.toDeploymentRow)
  let status ← normalizeDeploymentStatus row.status
  let snapshotVersion := positiveInteger row.snapshotVersion
  let action ← eligibleHistoryAction rt.localeCompare row.toDeploymentRow rows execute snapshotVersion
  let reason ← (if execute then retryReason row.toDeploymentRow rows else .ok (some "PERMISSION_DENIED"))
  return {
    id := row.id
    projectId := row.projectId
    service
    environment := environment row.deploymentType
    status
    trigger := Text.jsOr row.triggerType "manual"
    createdAt := rt.toISOString row.createdAt
    updatedAt := rt.toISOString row.updatedAt
    commitSha := asked (some (Text.jsOr row.commitSha row.commitHash))
    imageDigest := asked (some row.imageDigest)
    snapshotVersion
    sourceDeploymentId := asked row.sourceDeploymentId
    retryOfDeploymentId := asked row.retryOfDeploymentId
    rollbackOfDeploymentId := asked row.rollbackOfDeploymentId
    previousDeploymentId := asked row.previousDeploymentId
    previewLineageId := asked row.previewLineageId
    previewGeneration := row.previewGeneration
    requestedByUserId := asked row.requestedByUserId
    requestIdempotencyKey := asked row.requestIdempotencyKey
    publicHealthStatus := Text.jsOr row.publicHealthStatus "UNKNOWN"
    healthCheckedAt := row.healthCheckedAt.map rt.toISOString
    healthFailureCode := asked row.healthFailureCode
    observedGeneration := row.observedGeneration
    retryable := action.any (·.type = .retry)
    reason
    execute
    eligibleAction := action }

structure PageInput where
  deployments : List HistoryDeployment
  actionDeployments : Option (List HistoryDeployment)
  services : List ServiceRecord
  query : DeploymentHistoryQuery
  scope : DeploymentHistoryScope
  execute : Bool

structure Page where
  deployments : List HistoryRow
  limit : Nat
  nextCursor : Option CursorText
  filters : List (String × Option String)

/-- The row that a page shows; the texts of a service that is not there are those of `undefined`. -/
def showRow (input : PageInput) (row : HistoryDeployment) : Except TxError HistoryRow :=
  let service := (input.services.filter (·.id = row.serviceId)).getLast?.getD ⟨"undefined", "undefined", "undefined"⟩
  let others := (input.actionDeployments.getD input.deployments).filter (·.serviceId = row.serviceId)
  deploymentHistoryRow rt row service others input.execute

/-- The cursor of the query; an empty text is none. -/
def queryCursor (scope : DeploymentHistoryScope) (query : DeploymentHistoryQuery) :
    Except TxError (Option HistoryPosition) :=
  match query.cursor with
  | none | some (.other "") => .ok none
  | some text => (decodeDeploymentHistoryCursor rt text scope query).map some

/-- The page of the rows behind the cursor. -/
def pageOf (input : PageInput) (filtered : List HistoryDeployment) : Except TxError Page := do
  let selected := filtered.take (input.query.limit + 1)
  let pageRows := selected.take input.query.limit
  let deployments ← pageRows.mapM (showRow rt input)
  let nextCursor ← (match pageRows.getLast? with
    | some row =>
      if input.query.limit < selected.length then
        (encodeDeploymentHistoryCursor rt (position rt row) input.scope input.query).map some
      else .ok none
    | none => .ok none)
  return ⟨deployments, input.query.limit, nextCursor, publicFilters input.query⟩

def deploymentHistoryPage (input : PageInput) : Except TxError Page := do
  let cursor ← queryCursor rt input.scope input.query
  let matching ← filterThrows (matchesFilters rt · input.query) input.deployments
  pageOf rt input (Keyset.inOrder id (fun left right => comparePosition rt right (position rt left))
    (matching.filter fun row => cursor.all fun cursor => (comparePosition rt row cursor).isLT))

end Page

/-! ### Cursors -/

variable {rt : Runtime} {scope scope' : DeploymentHistoryScope} {query query' : DeploymentHistoryQuery}

theorem cursorKey_ok {secret key : String} (h : cursorKey secret = .ok key) :
    secret ≠ "" ∧ key = signingKey secret := by
  unfold cursorKey at h
  split at h
  · cases h
  · exact ⟨‹_›, (Except.ok.inj h).symm⟩

theorem signingKey_inj {secret secret' : String} (h : signingKey secret = signingKey secret') : secret = secret' := by
  unfold signingKey at h
  rw [← String.toList_inj, String.toList_append, String.toList_append] at h
  exact String.toList_inj.1 (List.append_cancel_left h)

theorem isCursor_payload (at' : HistoryPosition) (signature : String) :
    isCursor (cursorPayload rt at' scope query ++ [("h", .str signature)]) =
      some ⟨scope.organizationId, scope.projectId, filterFingerprint rt query, at'.at', at'.id, signature⟩ := rfl

theorem filter_payload (at' : HistoryPosition) (signature : String) :
    (cursorPayload rt at' scope query ++ [("h", Json.str signature)]).filter (·.1 ≠ "h") =
      cursorPayload rt at' scope query := rfl

/-- The cursor of a row is read back. -/
theorem decode_own {row : HistoryDeployment} {text : CursorText}
    (h : encodeDeploymentHistoryCursor rt (position rt row) scope query = .ok text) :
    decodeDeploymentHistoryCursor rt text scope query = .ok (position rt row) := by
  obtain ⟨key, hkey, hpure⟩ := bind_ok.1 h
  obtain rfl := pure_ok.1 hpure
  refine bind_ok.2 ⟨_, orThrow_ok.2 (isCursor_payload _ _), bind_ok.2 ⟨(), throwIf_ok.2 ?_, ?_⟩⟩
  · simp
  · refine bind_ok.2 ⟨key, hkey, bind_ok.2 ⟨(), throwIf_ok.2 ?_, ?_⟩⟩
    · rw [filter_payload, rt.unbase64url_hmac]
      exact fun hne => hne rfl
    · exact bind_ok.2 ⟨row.createdAt, orThrow_ok.2 (rt.dateParse_toISOString _), rfl⟩

/-- **A cursor is good for its own scope and filters only**, as far as the digests at hand tell them apart. -/
theorem decode_foreign {at' found : HistoryPosition} {text : CursorText}
    (hsha : rt.base64url (rt.sha256 (filtersText query)) = rt.base64url (rt.sha256 (filtersText query')) →
      filtersText query = filtersText query')
    (hhmac : rt.hmac (signingKey scope.cursorSecret) (Json.stringify (.obj (cursorPayload rt at' scope query))) =
        rt.hmac (signingKey scope'.cursorSecret) (Json.stringify (.obj (cursorPayload rt at' scope query))) →
      signingKey scope.cursorSecret = signingKey scope'.cursorSecret)
    (h : encodeDeploymentHistoryCursor rt at' scope query = .ok text)
    (hdecode : decodeDeploymentHistoryCursor rt text scope' query' = .ok found) :
    scope = scope' ∧ publicFilters query = publicFilters query' := by
  obtain ⟨key, hkey, hpure⟩ := bind_ok.1 h
  obtain rfl := pure_ok.1 hpure
  obtain ⟨cursor, hcursor, hdecode⟩ := bind_ok.1 hdecode
  obtain rfl := Option.some.inj ((isCursor_payload at' _).symm.trans (orThrow_ok.1 hcursor))
  obtain ⟨_, hscope, hdecode⟩ := bind_ok.1 hdecode
  obtain ⟨horganization, hproject, hfilters⟩ : scope.organizationId = scope'.organizationId ∧
      scope.projectId = scope'.projectId ∧ filterFingerprint rt query = filterFingerprint rt query' := by
    simpa using throwIf_ok.1 hscope
  obtain ⟨key', hkey', hdecode⟩ := bind_ok.1 hdecode
  obtain ⟨_, hsigned, -⟩ := bind_ok.1 hdecode
  rw [filter_payload, rt.unbase64url_hmac] at hsigned
  rw [(cursorKey_ok hkey).2, (cursorKey_ok hkey').2] at hsigned
  have hsecret : scope.cursorSecret = scope'.cursorSecret :=
    signingKey_inj (hhmac (not_not.1 (throwIf_ok.1 hsigned)))
  refine ⟨?_, Json.stringify_inj rfl (hsha hfilters)⟩
  cases scope
  cases scope'
  simp_all

/-! ### The order of the history -/

/-- When it was created, and its id. -/
def key (row : HistoryDeployment) : Int × String := (row.createdAt, row.id)

section Order

variable (order : String → String → Ordering)

/-- Newest first, where `order` is that of ids. -/
def newestFirst (left right : Int × String) : Ordering := (compare right.1 left.1).then (order right.2 left.2)

instance [Std.TransCmp order] : Std.TransCmp (newestFirst order) :=
  inferInstanceAs (Std.TransCmp fun a b : Int × String => (compareLex
    (fun a b : Int × String => compare a.1 b.1) fun a b => order a.2 b.2) b a)

instance [Std.TransCmp order] [Std.LawfulEqCmp order] : Std.LawfulEqCmp (newestFirst order) where
  compare_self := Std.ReflCmp.compare_self
  eq_of_compare {a b} h := by
    obtain ⟨htime, hid⟩ := Ordering.then_eq_eq.1 h
    rw [Prod.ext (Std.LawfulEqCmp.eq_of_compare htime).symm (Std.LawfulEqCmp.eq_of_compare hid).symm]

/-- `localeCompare` orders the timestamps as times, and the ids by `order`. -/
structure Orders (rt : Runtime) (rows : List HistoryDeployment) : Prop where
  times : ∀ a ∈ rows, ∀ b ∈ rows,
    rt.localeCompare (rt.toISOString a.createdAt) (rt.toISOString b.createdAt) = compare a.createdAt b.createdAt
  ids : ∀ a ∈ rows, ∀ b ∈ rows, rt.localeCompare a.id b.id = order a.id b.id

/-- The comparison of the page, on keys. -/
def pageOrder (rt : Runtime) (left right : Int × String) : Ordering :=
  (rt.localeCompare (rt.toISOString right.1) (rt.toISOString left.1)).then (rt.localeCompare right.2 left.2)

variable {order} {rows : List HistoryDeployment} (horders : Orders order rt rows)

include horders in
theorem pageOrder_eq {a b : HistoryDeployment} (ha : a ∈ rows) (hb : b ∈ rows) :
    pageOrder rt (key a) (key b) = newestFirst order (key a) (key b) := by
  show (rt.localeCompare (rt.toISOString b.createdAt) (rt.toISOString a.createdAt)).then
    (rt.localeCompare b.id a.id) = _
  rw [horders.times b hb a ha, horders.ids b hb a ha]
  rfl

variable [Std.TransCmp order] [Std.LawfulEqCmp order]

include horders in
/-- What is behind the cursor of a row, in the order of the page. -/
theorem behind_eq (hkeys : (rows.map key).Nodup) {front rest : List HistoryDeployment} {row : HistoryDeployment}
    (hsplit : Keyset.inOrder key (newestFirst order) rows = front ++ row :: rest) :
    Keyset.inOrder id (fun left right => comparePosition rt right (position rt left))
      (rows.filter fun other => (comparePosition rt other (position rt row)).isLT) = rest := by
  have hrow : row ∈ rows := by
    refine (Keyset.mem_inOrder key (newestFirst order)).1 ?_
    rw [hsplit]
    simp
  change Keyset.inOrder key (pageOrder rt) _ = rest
  refine Keyset.inOrder_behind hkeys (fun a ha b hb => pageOrder_eq horders ha hb) hsplit fun other hother => ?_
  have hswap : newestFirst order (key other) (key row) = (newestFirst order (key row) (key other)).swap :=
    Std.OrientedCmp.eq_swap
  rw [hswap, ← pageOrder_eq horders hrow hother]
  show (pageOrder rt (key row) (key other)).isLT = _
  cases pageOrder rt (key row) (key other) <;> rfl

end Order

/-! ### Pages -/

/-- The deployments that match the filters. -/
def matching (rt : Runtime) (query : DeploymentHistoryQuery) (rows : List HistoryDeployment) :
    List HistoryDeployment :=
  rows.filter fun row => (matchesFilters rt row query).toOption = some true

/-- A deployment whose status is one of the lifecycle. -/
def Known (row : History.Row) : Prop := ∃ status, normalizeDeploymentStatus row.status = .ok status

theorem matchesFilters_known {row : HistoryDeployment} (h : Known row.toDeploymentRow) (query : DeploymentHistoryQuery) :
    ∃ keep, matchesFilters rt row query = .ok keep := by
  obtain ⟨status, hstatus⟩ := h
  unfold matchesFilters
  dsimp only
  split
  · exact ⟨false, rfl⟩
  · rw [hstatus]
    cases asked query.status <;> exact ⟨_, rfl⟩

/-! ### Rows with known statuses can be shown -/

section Total

variable {row : History.Row} {rows : List History.Row}

theorem Known.reads {p : TxError → Prop} (h : Known row) : ThrowsOnly p (normalizeDeploymentStatus row.status) := by
  obtain ⟨status, hstatus⟩ := h
  rw [hstatus]
  exact throwsOnly_ok status

/-- What the lifecycle calls a status is one. -/
theorem normalized_reads {p : TxError → Prop} {raw status : String}
    (h : normalizeDeploymentStatus raw = .ok status) : ThrowsOnly p (normalizeDeploymentStatus status) := by
  have hall : ∀ entry ∈ Core.deploymentMachine.states, (normalizeDeploymentStatus entry.1).isOk = true := by
    decide +kernel
  have hparse := mapError_ok.1 h
  unfold Core.parseDeploymentStatus at hparse
  extract_lets key value at hparse
  by_cases hsome : (Core.deploymentMachine.states.lookup value).isSome = true
  · rw [if_pos hsome] at hparse
    obtain ⟨state, hstate⟩ := Option.isSome_iff_exists.1 hsome
    obtain ⟨before, after, hstates, -⟩ := List.lookup_eq_some_iff.1 hstate
    have hmem : (value, state) ∈ Core.deploymentMachine.states := by
      rw [hstates]
      exact List.mem_append_right _ List.mem_cons_self
    obtain ⟨read, hread⟩ := isOk_iff.1 (hall _ hmem)
    rw [← Except.ok.inj hparse, hread]
    exact throwsOnly_ok read
  · rw [if_neg hsome] at hparse
    cases hparse

/-- The errors of a source that cannot be used; that of a status has the code 500. -/
def Ineligible (e : TxError) : Prop := ∃ thrown, e = .thrown thrown ∧ thrown.statusCode ≠ 500

theorem ineligible_operationError {code : String} {statusCode : Nat} (h : statusCode ≠ 500) :
    Ineligible (Preview.operationError code statusCode) := ⟨_, rfl, h⟩

theorem deploymentSuccessor_throws (h : Known row) (draws : Preview.OperationDraws)
    (input : Preview.DeploymentOperation) : ThrowsOnly Ineligible (Preview.deploymentSuccessor draws (some row) input) := by
  refine (throwsOnly_orThrow (ineligible_operationError (by decide))).bind fun source hsource => ?_
  obtain rfl := Option.some.inj (Option.filter_eq_some_iff.1 (orThrow_ok.1 hsource)).1
  refine h.reads.bind fun status _ => (throwsOnly_throwIf (ineligible_operationError (by decide))).bind fun _ _ => ?_
  refine ThrowsOnly.bind ?_ fun snapshot _ => ThrowsOnly.bind ?_ fun commit _ =>
    ThrowsOnly.bind ?_ fun image _ => throwsOnly_ok _
  · exact (throwsOnly_orThrow (ineligible_operationError (by decide))).bind fun _ _ =>
      (throwsOnly_orThrow (ineligible_operationError (by decide))).bind fun _ _ =>
        (throwsOnly_throwIf (ineligible_operationError (by decide))).map
  · exact throwsOnly_ite (throwsOnly_throwIf (ineligible_operationError (by decide))).map (throwsOnly_ok _)
  · exact throwsOnly_ite (throwsOnly_throwIf (ineligible_operationError (by decide))).map (throwsOnly_ok _)

variable {p : TxError → Prop}

theorem canReplay_returns (h : Known row) (operation : Preview.OperationKind) :
    ThrowsOnly p (History.canReplay row operation) := by
  unfold History.canReplay
  split
  · exact throwsOnly_ok _
  · split
    · exact throwsOnly_ok _
    · next hthrown =>
      obtain ⟨thrown, heq, hcode⟩ := deploymentSuccessor_throws h _ _ _ hthrown
      rw [TxError.thrown.inj heq, if_neg hcode]
      exact throwsOnly_ok _
    · next hne hthrown =>
      obtain ⟨thrown, heq, -⟩ := deploymentSuccessor_throws h _ _ _ hthrown
      exact absurd heq (hne thrown)

variable (h : ∀ row ∈ rows, Known row)

include h in
theorem anotherActive_returns (id : String) : ThrowsOnly p (History.anotherActive id rows) := by
  induction rows with
  | nil => exact throwsOnly_ok _
  | cons candidate rest ih =>
    have hrest := ih fun row hrow => h row (List.mem_cons_of_mem _ hrow)
    refine throwsOnly_ite hrest (ThrowsOnly.bind ?_ fun _ _ => throwsOnly_ite hrest (throwsOnly_ok _))
    exact (h candidate List.mem_cons_self).reads.map

include h in
theorem retryReason_returns (hrow : Known row) : ThrowsOnly p (retryReason row rows) :=
  hrow.reads.bind fun _ _ => throwsOnly_ite (throwsOnly_ok _) <| (anotherActive_returns h _).bind fun _ _ =>
    throwsOnly_ite (throwsOnly_ok _) (canReplay_returns hrow _).map

theorem filterThrows_returns {f : History.Row → Except TxError Bool}
    (hf : ∀ row ∈ rows, ThrowsOnly (fun _ => False) (f row)) : ThrowsOnly p (filterThrows f rows) := by
  rw [filterThrows_ok.2 ⟨fun row hrow => throwsOnly_false.1 (hf row hrow), rfl⟩]
  exact throwsOnly_ok _

include h in
theorem previousReady_returns (localeCompare : String → String → Ordering) (current : History.Row) :
    ThrowsOnly p (History.previousReady localeCompare rows current) :=
  ThrowsOnly.map <| filterThrows_returns fun row hrow =>
    ThrowsOnly.map (throwsOnly_ite (throwsOnly_ok _) (h row hrow).reads.map)

include h in
theorem redeploySource_returns (localeCompare : String → String → Ordering) :
    ThrowsOnly p (History.redeploySource localeCompare rows) :=
  ThrowsOnly.map <| filterThrows_returns fun row hrow => canReplay_returns (h row hrow) _

include h in
theorem eligibleHistoryAction_returns (hrow : Known row) (localeCompare : String → String → Ordering)
    (execute : Bool) (version : Option Nat) :
    ThrowsOnly p (eligibleHistoryAction localeCompare row rows execute version) := by
  refine throwsOnly_ite (throwsOnly_ok _) (hrow.reads.bind fun status hstatus => ?_)
  refine (normalized_reads hstatus).map.bind fun cancel _ => throwsOnly_ite (throwsOnly_ok _) ?_
  refine (throwsOnly_ite (retryReason_returns h hrow) (throwsOnly_ok _)).bind fun reason _ => ?_
  refine throwsOnly_ite (throwsOnly_ok _) ((anotherActive_returns h _).bind fun active _ => ?_)
  refine throwsOnly_ite (throwsOnly_ok _) (ThrowsOnly.bind ?_ fun previous _ => ?_)
  · exact throwsOnly_ite (previousReady_returns h _ _) (throwsOnly_ok _)
  · exact throwsOnly_ite (throwsOnly_ok _) (redeploySource_returns h _).map

end Total

theorem showRow_returns {input : PageInput} {row : HistoryDeployment} (hrow : Known row.toDeploymentRow)
    (h : ∀ other ∈ input.actionDeployments.getD input.deployments, Known other.toDeploymentRow) :
    ∃ shown, showRow rt input row = .ok shown := by
  have hothers : ∀ other ∈ ((input.actionDeployments.getD input.deployments).filter
      (·.serviceId = row.serviceId)).map (·.toDeploymentRow), Known other := by
    intro other hother
    obtain ⟨found, hfound, rfl⟩ := List.mem_map.1 hother
    exact h found (List.mem_of_mem_filter hfound)
  exact throwsOnly_false.1 (hrow.reads.bind fun _ _ => (eligibleHistoryAction_returns hothers hrow _ _ _).bind
    fun _ _ => (throwsOnly_ite (retryReason_returns hothers hrow) (throwsOnly_ok _)).map)

theorem mapM_shows {view : HistoryDeployment → Except TxError HistoryRow} {rows : List HistoryDeployment}
    (h : ∀ row ∈ rows, ∃ shown, view row = .ok shown) :
    ∃ shown, rows.mapM view = .ok shown ∧ List.Forall₂ (fun shown row => view row = .ok shown) shown rows := by
  induction rows with
  | nil => exact ⟨[], rfl, .nil⟩
  | cons row rows ih =>
    obtain ⟨first, hfirst⟩ := h row List.mem_cons_self
    obtain ⟨others, hothers, hall⟩ := ih fun other hother => h other (List.mem_cons_of_mem _ hother)
    refine ⟨first :: others, ?_, .cons hfirst hall⟩
    rw [List.mapM_cons, hfirst, hothers]
    rfl

/-- The cursor of a row. -/
def cursorOf (rt : Runtime) (scope : DeploymentHistoryScope) (query : DeploymentHistoryQuery)
    (row : HistoryDeployment) : CursorText :=
  let payload := cursorPayload rt (position rt row) scope query
  .json (.obj (payload ++
    [("h", .str (rt.base64url (rt.hmac (signingKey scope.cursorSecret) (Json.stringify (.obj payload)))))]))

theorem encode_cursorOf (h : scope.cursorSecret ≠ "") (row : HistoryDeployment) :
    encodeDeploymentHistoryCursor rt (position rt row) scope query = .ok (cursorOf rt scope query row) :=
  bind_ok.2 ⟨_, if_neg h, rfl⟩

/-- The input of the page behind a cursor. -/
def PageInput.behind (input : PageInput) (cursor : Option CursorText) : PageInput :=
  { input with query := { input.query with cursor } }

section Complete

variable {order : String → String → Ordering} [Std.TransCmp order] [Std.LawfulEqCmp order] {input : PageInput}

/-- The deployments that match, newest first. -/
def history (rt : Runtime) (order : String → String → Ordering) (input : PageInput) : List HistoryDeployment :=
  Keyset.inOrder key (newestFirst order) (matching rt input.query input.deployments)

theorem keys_nodup (hids : (input.deployments.map (·.id)).Nodup) :
    ((matching rt input.query input.deployments).map key).Nodup := by
  have hmatching : ((matching rt input.query input.deployments).map (·.id)).Nodup :=
    hids.sublist (List.filter_sublist.map _)
  refine List.Nodup.of_map Prod.snd ?_
  rwa [List.map_map]

/-- What a page finds behind the cursor of a row, or from the start. -/
theorem filtered_eq (hids : (input.deployments.map (·.id)).Nodup)
    (horders : Orders order rt (matching rt input.query input.deployments)) (hsecret : input.scope.cursorSecret ≠ "")
    {rest : List HistoryDeployment} {cursor : Option CursorText}
    (h : Stands (cursorOf rt input.scope input.query) (history rt order input) rest cursor) :
    ∃ read, queryCursor rt input.scope (input.behind cursor).query = .ok read ∧
      Keyset.inOrder id (fun left right => comparePosition rt right (position rt left))
        ((matching rt input.query input.deployments).filter fun row =>
          read.all fun read => (comparePosition rt row read).isLT) = rest := by
  cases h with
  | start =>
    refine ⟨none, rfl, ?_⟩
    simp only [Option.all_none, List.filter_true]
    exact Keyset.inOrder_congr fun a ha b hb => pageOrder_eq horders ha hb
  | @behind front rest row hsplit =>
    have hread : decodeDeploymentHistoryCursor rt (cursorOf rt input.scope input.query row) input.scope
        (input.behind (some (cursorOf rt input.scope input.query row))).query = .ok (position rt row) :=
      decode_own (encode_cursorOf hsecret row)
    exact ⟨some (position rt row), map_ok.2 ⟨_, hread, rfl⟩, behind_eq horders (keys_nodup hids) hsplit⟩

theorem pageOf_ok (hsecret : input.scope.cursorSecret ≠ "") {rest : List HistoryDeployment} {shown : List HistoryRow}
    (hshown : (rest.take input.query.limit).mapM (showRow rt input) = .ok shown) :
    pageOf rt input rest = .ok ⟨shown, input.query.limit, if input.query.limit < rest.length then
      (rest.take input.query.limit).getLast?.map (cursorOf rt input.scope input.query) else none,
      publicFilters input.query⟩ := by
  obtain ⟨htake, hmore⟩ := take_one_more input.query.limit rest
  unfold pageOf
  dsimp only
  rw [htake]
  refine bind_ok.2 ⟨shown, hshown, bind_ok.2 ⟨_, ?_, rfl⟩⟩
  cases (rest.take input.query.limit).getLast? with
  | none => rw [Option.map_none, ite_self]
  | some row =>
    dsimp only
    rw [if_congr hmore rfl rfl, encode_cursorOf hsecret]
    split <;> rfl

/-- **The history is complete and scoped.**  The pages that a client follows are the deployments that match the
filters, each once and newest first; and a cursor of one scope and filters is refused for any others, where the
digests at hand tell them apart. -/
theorem history_pages_complete (hids : (input.deployments.map (·.id)).Nodup)
    (hknown : ∀ row ∈ input.deployments, Known row.toDeploymentRow)
    (hactions : ∀ row ∈ input.actionDeployments.getD input.deployments, Known row.toDeploymentRow)
    (horders : Orders order rt (matching rt input.query input.deployments)) (hsecret : input.scope.cursorSecret ≠ "")
    (hlimit : 1 ≤ input.query.limit) :
    (∃ ordered, ordered.Perm (matching rt input.query input.deployments) ∧
      ordered.Pairwise (fun a b => b.createdAt < a.createdAt ∨
        (b.createdAt = a.createdAt ∧ order b.id a.id = .lt)) ∧
      ∀ calls, ordered.length < calls → ∃ shown, follow (fun _ cursor =>
        (deploymentHistoryPage rt (input.behind cursor)).map fun page => (page.deployments, page.nextCursor))
          calls 0 none = .ok (some shown) ∧
        List.Forall₂ (fun shown row => showRow rt input row = .ok shown) shown ordered) ∧
    ∀ at' text scope query, encodeDeploymentHistoryCursor rt at' input.scope input.query = .ok text →
      (rt.base64url (rt.sha256 (filtersText input.query)) = rt.base64url (rt.sha256 (filtersText query)) →
        filtersText input.query = filtersText query) →
      (rt.hmac (signingKey input.scope.cursorSecret) (Json.stringify (.obj (cursorPayload rt at' input.scope input.query))) =
          rt.hmac (signingKey scope.cursorSecret) (Json.stringify (.obj (cursorPayload rt at' input.scope input.query))) →
        signingKey input.scope.cursorSecret = signingKey scope.cursorSecret) →
      (input.scope ≠ scope ∨ publicFilters input.query ≠ publicFilters query) →
      ∃ error, decodeDeploymentHistoryCursor rt text scope query = .error error := by
  refine ⟨⟨history rt order input, List.perm_insertionSort _ _, ?_, fun calls hcalls => ?_⟩, ?_⟩
  · refine (Keyset.pairwise_inOrder (keys_nodup hids)).imp fun {a b} h => ?_
    rcases Ordering.then_eq_lt.1 h with htime | ⟨htime, hid⟩
    · exact .inl (compare_lt_iff_lt.1 htime)
    · exact .inr ⟨compare_eq_iff_eq.1 htime, hid⟩
  · have hstart : Stands (cursorOf rt input.scope input.query) (history rt order input)
        (history rt order input) none := .start
    refine follow_complete hlimit (fun _ rest cursor hstands => ?_) hstart hcalls
    obtain ⟨read, hread, hrest⟩ := filtered_eq hids horders hsecret hstands
    have hmem : ∀ row ∈ rest.take input.query.limit, row ∈ matching rt input.query input.deployments := by
      intro row hrow
      have hhistory : row ∈ history rt order input := hstands.suffix.subset (List.mem_of_mem_take hrow)
      exact (Keyset.mem_inOrder key (newestFirst order)).1 hhistory
    obtain ⟨shown, hshown, hall⟩ := mapM_shows fun row hrow =>
      @showRow_returns rt input row (hknown row (List.mem_of_mem_filter (hmem row hrow))) hactions
    have hpage : deploymentHistoryPage rt (input.behind cursor) = _ :=
      bind_ok.2 ⟨read, hread, bind_ok.2 ⟨_,
        filterThrows_ok.2 ⟨fun row hrow => matchesFilters_known (hknown row hrow) _, rfl⟩,
        (congrArg (pageOf rt (input.behind cursor)) hrest).trans (pageOf_ok hsecret hshown)⟩⟩
    exact ⟨_, map_ok.2 ⟨_, hpage, rfl⟩, hall, rfl⟩
  · intro at' text scope query hencode hsha hhmac hother
    cases hdecode : decodeDeploymentHistoryCursor rt text scope query with
    | error error => exact ⟨error, rfl⟩
    | ok found =>
      obtain ⟨hscope, hfilters⟩ := decode_foreign hsha hhmac hencode hdecode
      exact absurd hother (by simp [hscope, hfilters])

end Complete

namespace HistorySample

/-- Times as runs of a letter. -/
def runtime : Runtime where
  toISOString t := String.ofList (List.replicate t.toNat 'p' ++ List.replicate (-t).toNat 'n')
  dateParse s := some (s.toList.count 'p' - s.toList.count 'n')
  localeCompare := Text.jsCompare
  sha256 text := text.map Char.toNat
  hmac key message := (key.toList ++ message).map Char.toNat
  base64url bytes := String.ofList (bytes.map Char.ofNat)
  unbase64url text := text.toList.map Char.toNat
  dateParse_toISOString t := by
    have hp : (List.replicate t.toNat 'p' ++ List.replicate (-t).toNat 'n').count 'p' = t.toNat := by
      simp [List.count_replicate]
    have hn : (List.replicate t.toNat 'p' ++ List.replicate (-t).toNat 'n').count 'n' = (-t).toNat := by
      simp [List.count_replicate]
    rw [String.toList_ofList, hp, hn, Option.some.injEq]
    omega
  unbase64url_hmac key message := by simp [Function.comp_def]

def deployment (id : String) (createdAt : Int) : HistoryDeployment :=
  { Preview.Retried.failedRow with
    id, status := "READY", createdAt, updatedAt := createdAt, rollbackOfDeploymentId := none, previousDeploymentId := none
    publicHealthStatus := "", healthCheckedAt := none, healthFailureCode := none, observedGeneration := none }

def input (secret : String) : PageInput where
  deployments := [deployment "a" 0, deployment "b" 1]
  actionDeployments := none
  services := []
  query := ⟨none, none, none, none, none, none, 1, none⟩
  scope := ⟨"o", "p", secret⟩
  execute := false

end HistorySample

open HistorySample in
theorem history_pages_complete_sample :
    (∃ shown, follow (fun _ cursor => (deploymentHistoryPage runtime ((input "k").behind cursor)).map fun page =>
      (page.deployments, page.nextCursor)) 3 0 none = .ok (some shown) ∧ shown.length = 2) ∧
    ∃ text, encodeDeploymentHistoryCursor runtime ⟨"p", "b"⟩ (input "k").scope (input "k").query = .ok text ∧
      ∃ error, decodeDeploymentHistoryCursor runtime text (input "l").scope
        { (input "k").query with serviceId := some "s" } = .error error := by
  have hall : matching runtime (input "k").query (input "k").deployments = (input "k").deployments := rfl
  have hknown : ∀ row ∈ (input "k").deployments, Known row.toDeploymentRow := by
    intro row hrow
    rcases List.mem_pair.1 hrow with rfl | rfl <;> exact ⟨"READY", by decide⟩
  have horders : Orders Text.jsCompare runtime (input "k").deployments := by
    refine ⟨?_, fun _ _ _ _ => rfl⟩
    intro a ha b hb
    rcases List.mem_pair.1 ha with rfl | rfl <;> rcases List.mem_pair.1 hb with rfl | rfl <;> decide
  obtain ⟨⟨ordered, hperm, -, hfollow⟩, hforeign⟩ := @history_pages_complete runtime Text.jsCompare _ _ (input "k")
    (by decide) hknown hknown (hall ▸ horders) (by decide) (by decide)
  have hlength : ordered.length = 2 := hperm.length_eq.trans (by rw [hall]; rfl)
  obtain ⟨shown, hshown, hforall⟩ := hfollow 3 (by omega)
  refine ⟨⟨shown, hshown, hforall.length_eq.trans hlength⟩, _, rfl, ?_⟩
  refine hforeign _ _ _ _ rfl (fun h => absurd h ?_) (fun h => absurd h ?_) (.inr ?_) <;> decide +kernel

open HistorySample in
/-- Without a secret there is no cursor, and no first page of two. -/
theorem unsigned_history_refused :
    (matching runtime (input "").query (input "").deployments).length = 2 ∧
      (deploymentHistoryPage runtime (input "")).toOption.isNone = true := by
  decide +kernel

end RaibitServer.Deployments.HistoryPage
