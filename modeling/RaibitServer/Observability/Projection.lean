import RaibitServer.Lib.Batches
import RaibitServer.Lib.JsonText
import RaibitServer.Lib.Keyed
import RaibitServer.Observability.Redaction

/-!
# Observability.Projection — pages of sanitized log rows

`maskedObservationRows` of `observability-projection.ts` and `sanitizeObservationRecord` of
`observability-redaction.ts`.  A call sanitizes rows until the next would make the response too large; the caller
asks again for the rows that are left, with a continuation that holds the parser state of every log source.

Whatever the cuts, the pages are those of one pass over the whole list, with a state for each source
(`maskedCalls_eq`).  A flat row of at most sixteen members fits on a page of its own (`flat_row_fits`).  In general the
budgets of a record do not bound its text, though: the names of secret members are free, and a row that does not fit is
never returned and stops all that follow.
-/

namespace RaibitServer.Observability

open Lib

/-! ### Records -/

/-- A value of a row.  Arrays and objects have an identity; one that is met again may be given without what is in
it.  A number is its JSON text, a date the text of `toISOString`, if it is valid. -/
inductive Observed
  | null
  | undefined
  | bool (value : Bool)
  | num (text : String)
  | nonFinite
  | str (value : Text)
  | date (text : Option String)
  | other
  | arr (id : Nat) (items : List Observed)
  | obj (id : Nat) (entries : List (Text × Observed))

/-- `remainingNodes`, `remainingBytes` and `seen`. -/
structure Budget where
  nodes : Int := 512
  bytes : Int := 65536
  seen : List Nat := []

def Budget.spend (budget : Budget) : Budget := { budget with nodes := budget.nodes - 1 }

def Budget.spent (budget : Budget) (depth : Nat) : Prop := budget.nodes < 0 ∨ budget.bytes ≤ 0 ∨ 8 < depth

instance (budget : Budget) (depth : Nat) : Decidable (budget.spent depth) := by
  unfold Budget.spent
  infer_instance

def Budget.see (budget : Budget) (id : Nat) : Budget := { budget with seen := id :: budget.seen }

def Budget.write (budget : Budget) (result : Text) : Budget :=
  { budget with bytes := budget.bytes - byteLength result }

def markerJson : Json := .str (String.ofList marker)

def secretNames : List String :=
  ["password", "passwd", "secret", "token", "credential", "apikey", "api_key", "api-key", "accesskey", "access_key",
    "access-key", "privatekey", "private_key", "private-key", "cookie", "authorization"]

/-- The pattern of `secret`; its flag `i` is that of ASCII. -/
def isSecretName (key : Text) : Bool := secretNames.any fun name => name.toList <:+: key.map Char.toLower

def Observed.present : Observed → Bool
  | null => false
  | undefined => false
  | _ => true

def cleanKey (key : Text) : Text := truncateObservationText (sanitizeObservationLine key {}).1 256

/-- `Object.fromEntries`. -/
def fromEntries (entries : List (String × Json)) : JsonObject :=
  entries.foldl (fun members entry => Json.setMember members entry.1 entry.2) []

/-- The branches of `visit` before that of arrays, behind the first decrement. -/
def visitLeaf (budget : Budget) : Observed → Json × Budget
  | .str value =>
    let result := truncateObservationText (sanitizeObservationLine value {}).1 (min lineBytes budget.bytes.toNat)
    (.str (String.ofList result), budget.write result)
  | .null => (.null, budget)
  | .undefined => (.null, budget)
  | .num text => (.frac text, budget)
  | .nonFinite => (.null, budget)
  | .bool value => (.bool value, budget)
  | .date none => (.null, budget)
  | .date (some text) => (.str text, budget)
  | _ => (markerJson, budget)

mutual

/-- `visit` of `sanitizeObservationRecord`. -/
def visit (depth : Nat) (budget : Budget) : Observed → Json × Budget
  | .arr id items =>
    if budget.spend.spent depth ∨ id ∈ budget.seen then (markerJson, budget.spend)
    else
      let visited := visitItems 1000 (depth + 1) (budget.spend.see id) items
      (.arr visited.1, visited.2)
  | .obj id entries =>
    if budget.spend.spent depth ∨ id ∈ budget.seen then (markerJson, budget.spend)
    else
      let visited := visitEntries 64 (depth + 1) (budget.spend.see id) entries
      (.obj (fromEntries visited.1), visited.2)
  | input => if budget.spend.spent depth then (markerJson, budget.spend) else visitLeaf budget.spend input

/-- The first `most` items. -/
def visitItems (most depth : Nat) (budget : Budget) : List Observed → List Json × Budget
  | [] => ([], budget)
  | item :: items =>
    match most with
    | 0 => ([], budget)
    | most + 1 =>
      let first := visit depth budget item
      let rest := visitItems most depth first.2 items
      (first.1 :: rest.1, rest.2)

/-- The first `most` entries; the value of one with a secret name is not visited. -/
def visitEntries (most depth : Nat) (budget : Budget) : List (Text × Observed) → List (String × Json) × Budget
  | [] => ([], budget)
  | (key, item) :: entries =>
    match most with
    | 0 => ([], budget)
    | most + 1 =>
      let first := if isSecretName key && item.present then (markerJson, budget) else visit depth budget item
      let rest := visitEntries most depth first.2 entries
      ((String.ofList (cleanKey key), first.1) :: rest.1, rest.2)

end

def sanitizeObservationRecord (value : Observed) : Json := (visit 0 {} value).1

/-! ### Rows -/

/-- A log row: an object. -/
structure Row where
  id : Nat
  entries : List (Text × Observed)

def Row.field (row : Row) (key : String) : Option Observed := row.entries.lookup key.toList

def Row.line (row : Row) : Option Text :=
  match row.field "line" with
  | some (.str value) => some value
  | _ => none

/-- The row is an object, so its record is one and the source never returns `null`. -/
def publicRecord (row : Row) : JsonObject :=
  match sanitizeObservationRecord (.obj row.id row.entries) with
  | .obj members => members
  | _ => []

theorem publicRecord_eq (row : Row) :
    publicRecord row = fromEntries (visitEntries 64 1 ⟨511, 65536, [row.id]⟩ row.entries).1 := by
  unfold publicRecord sanitizeObservationRecord visit
  rw [if_neg (by simp [Budget.spent, Budget.spend])]
  rfl

def isIdentityCharacter (c : Char) : Bool := c.isAlphanum || ['.', '_', ':', '-'].contains c

def boundedIdentity : Option Observed → Option Text
  | some (.str value) =>
    let identity := (Text.jsTrim (String.ofList value)).toList
    if identity ≠ [] ∧ identity.length ≤ 256 ∧ identity.all isIdentityCharacter then some identity else none
  | _ => none

def observationLogSource (row : Row) : Option Text :=
  match boundedIdentity (row.field "serviceId") with
  | some serviceId =>
    match boundedIdentity (row.field "deploymentId"), boundedIdentity (row.field "podUid"),
      boundedIdentity (row.field "containerName") with
    | some deploymentId, some podUid, some containerName =>
      some ("runtime:".toList ++ serviceId ++ ':' :: deploymentId ++ ':' :: podUid ++ ':' :: containerName)
    | _, _, _ => none
  | none =>
    match boundedIdentity (row.field "deploymentId"), boundedIdentity (row.field "step") with
    | some deploymentId, some step => some ("build:".toList ++ deploymentId ++ ':' :: step)
    | _, _ => none

/-- `state.sources`. -/
abbrev Sources := Keyed (Prod.fst : Text × RedactionState → Text)

/-- `MAX_LOG_SOURCES`. -/
def maxLogSources : Nat := 128

def withLine (clean : JsonObject) (line : Text) : JsonObject := Json.setMember clean "line" (.str (String.ofList line))

/-- The state of a source of which nothing is known. -/
def firstState (unknownLogState : Bool) : RedactionState := { uncertain := unknownLogState }

def sanitizeLogRow (unknownLogState : Bool) (sources : Sources) (row : Row) : JsonObject × Sources :=
  match row.line with
  | none => (publicRecord row, sources)
  | some value =>
    match observationLogSource row with
    | none => (withLine (publicRecord row) marker, sources)
    | some source =>
      let current := sources.get? source
      if current = none ∧ maxLogSources ≤ sources.rows.length then (withLine (publicRecord row) marker, sources)
      else
        let line := sanitizeObservationLine value ((current.map Prod.snd).getD (firstState unknownLogState))
        (withLine (publicRecord row) line.1, sources.put (source, line.2))

/-! ### Pages -/

/-- `OBSERVABILITY_RESPONSE_BYTES`. -/
def responseBytes : Nat := 524288

def recordSize (clean : JsonObject) : Nat := byteLength (Json.stringify (.obj clean)) + 1

/-- The loop of `maskedObservationRows`, with `bytes` taken by the rows before. -/
def maskRows (unknownLogState : Bool) : Nat → Sources → List Row → List JsonObject × Sources
  | _, sources, [] => ([], sources)
  | bytes, sources, row :: rows =>
    let next := sanitizeLogRow unknownLogState sources row
    if bytes + recordSize next.1 > responseBytes - 4096 then ([], sources)
    else
      let rest := maskRows unknownLogState (bytes + recordSize next.1) next.2 rows
      (next.1 :: rest.1, rest.2)

def maskedObservationRows (unknownLogState : Bool) (sources : Sources) (rows : List Row) : List JsonObject × Sources :=
  maskRows unknownLogState 2 sources (rows.take 1000)

/-- Calls with one continuation, each for the rows not yet returned: what they returned, the continuation, and the
rows that are left. -/
def maskedCalls (unknownLogState : Bool) : Nat → Sources → List Row → List JsonObject × Sources × List Row
  | 0, sources, rows => ([], sources, rows)
  | calls + 1, sources, rows =>
    let page := maskedObservationRows unknownLogState sources rows
    let rest := maskedCalls unknownLogState calls page.2 (rows.drop page.1.length)
    (page.1 ++ rest.1, rest.2)

/-- The bytes of a page that rows can take. -/
def pageRoom : Nat := 520190

theorem maskRows_eq (unknownLogState : Bool) (bytes : Nat) (sources : Sources) (rows : List Row)
    (h : bytes ≤ responseBytes - 4096) :
    maskRows unknownLogState bytes sources rows =
      Batches.page (sanitizeLogRow unknownLogState) recordSize (responseBytes - 4096 - bytes) sources rows := by
  induction rows generalizing bytes sources with
  | nil => rfl
  | cons row rows ih =>
    unfold maskRows Batches.page
    dsimp only
    by_cases hsize : bytes + recordSize (sanitizeLogRow unknownLogState sources row).1 > responseBytes - 4096
    · rw [if_pos hsize, if_neg (by omega)]
    · rw [if_neg hsize, if_pos (by omega), ih _ _ (Nat.le_of_not_lt hsize), Nat.sub_add_eq]

theorem maskedObservationRows_eq (unknownLogState : Bool) (sources : Sources) (rows : List Row) :
    maskedObservationRows unknownLogState sources rows =
      Batches.page (sanitizeLogRow unknownLogState) recordSize pageRoom sources (rows.take 1000) :=
  maskRows_eq unknownLogState 2 sources _ (by decide)

theorem maskedCalls_eq_drain (unknownLogState : Bool) (calls : Nat) (sources : Sources) (rows : List Row) :
    maskedCalls unknownLogState calls sources rows =
      Batches.drain (sanitizeLogRow unknownLogState) recordSize 1000 pageRoom calls sources rows := by
  induction calls generalizing sources rows with
  | zero => rfl
  | succ calls ih =>
    unfold maskedCalls Batches.drain
    rw [maskedObservationRows_eq]
    dsimp only
    rw [ih]

/-! ### One pass over the whole list -/

/-- The source of a row with a line, and the line. -/
def logLine (row : Row) : Option (Text × Text) := row.line.bind fun value => (observationLogSource row).map (·, value)

/-- The sources of the rows. -/
def logSources (rows : List Row) : List Text := (rows.filterMap fun row => (logLine row).map Prod.fst).dedup

/-- The state of a source behind a row. -/
def stateBehind (source : Text) (state : RedactionState) (row : Row) : RedactionState :=
  match logLine row with
  | none => state
  | some (from', value) => if from' = source then (sanitizeObservationLine value state).2 else state

/-- `sanitizeObservationLine` folded over the lines of a source. -/
def lineState (unknownLogState : Bool) (source : Text) (rows : List Row) : RedactionState :=
  rows.foldl (stateBehind source) (firstState unknownLogState)

/-- What is made of a row that has the rows `before` before it. -/
def expectedRow (unknownLogState : Bool) (before : List Row) (row : Row) : JsonObject :=
  match row.line with
  | none => publicRecord row
  | some value =>
    match observationLogSource row with
    | none => withLine (publicRecord row) marker
    | some source =>
      withLine (publicRecord row) (sanitizeObservationLine value (lineState unknownLogState source before)).1

def expectedRows (unknownLogState : Bool) (before : List Row) : List Row → List JsonObject
  | [] => []
  | row :: rows => expectedRow unknownLogState before row :: expectedRows unknownLogState (before ++ [row]) rows

variable {rows : List Row} {budget : Budget}

theorem mem_logSources {source : Text} :
    source ∈ logSources rows ↔ ∃ row ∈ rows, ∃ value, logLine row = some (source, value) := by
  simp [logSources]

theorem logSources_append_none {before : List Row} {row : Row} (h : logLine row = none) :
    logSources (before ++ [row]) = logSources before := by
  simp [logSources, h]

theorem lineState_append (unknownLogState : Bool) (source : Text) (before : List Row) (row : Row) :
    lineState unknownLogState source (before ++ [row]) =
      stateBehind source (lineState unknownLogState source before) row := List.foldl_append

theorem lineState_of_notMem (unknownLogState : Bool) {source : Text} (h : source ∉ logSources rows) :
    lineState unknownLogState source rows = firstState unknownLogState := by
  induction rows using List.reverseRecOn with
  | nil => rfl
  | append_singleton rows row ih =>
    rw [mem_logSources] at h ih
    rw [lineState_append, ih fun ⟨r, hr, hline⟩ => h ⟨r, List.mem_append_left _ hr, hline⟩]
    unfold stateBehind
    cases hrow : logLine row with
    | none => rfl
    | some line =>
      refine if_neg fun hsource => h ⟨row, by simp, line.2, ?_⟩
      rw [hrow, ← hsource]

/-- The continuation behind the rows `before`. -/
def Follows (unknownLogState : Bool) (before : List Row) (sources : Sources) : Prop :=
  ∀ source, sources.get? source =
    if source ∈ logSources before then some (source, lineState unknownLogState source before) else none

theorem Follows.empty (unknownLogState : Bool) : Follows unknownLogState [] Keyed.empty := fun _ => rfl

section Step

variable {unknownLogState : Bool} {before : List Row} {sources : Sources} {row : Row}

/-- A source that is new leaves room for its state. -/
theorem Follows.length_lt (h : Follows unknownLogState before sources) {source : Text} (hnew : source ∉ logSources before)
    (hmem : source ∈ logSources (before ++ [row])) (hroom : (logSources (before ++ [row])).length ≤ maxLogSources) :
    sources.rows.length < maxLogSources := by
  have hkeys : ∀ key ∈ sources.keys, key ∈ logSources before := by
    intro key hkey
    by_contra hnone
    exact Keyed.get?_eq_none.1 ((h key).trans (if_neg hnone)) hkey
  have hnodup : (source :: sources.keys).Nodup :=
    List.nodup_cons.2 ⟨fun hkey => hnew (hkeys source hkey), sources.nodup⟩
  have hsub : source :: sources.keys ⊆ logSources (before ++ [row]) := by
    intro key hkey
    rcases List.mem_cons.1 hkey with rfl | hkey
    · exact hmem
    · obtain ⟨r, hr, hline⟩ := mem_logSources.1 (hkeys key hkey)
      exact mem_logSources.2 ⟨r, List.mem_append_left _ hr, hline⟩
  have hlength := (List.subperm_of_subset hnodup hsub).length_le
  rw [List.length_cons, Keyed.keys, List.length_map] at hlength
  omega

/-- A row without a line or without a source leaves all states alone. -/
theorem Follows.append_none (h : Follows unknownLogState before sources) (hnone : logLine row = none) :
    Follows unknownLogState (before ++ [row]) sources := by
  intro source
  rw [logSources_append_none hnone, lineState_append, stateBehind, hnone]
  exact h source

theorem Follows.append_line (h : Follows unknownLogState before sources) {source value : Text}
    (hline : logLine row = some (source, value)) :
    Follows unknownLogState (before ++ [row]) (sources.put
      (source, (sanitizeObservationLine value (lineState unknownLogState source before)).2)) := by
  intro other
  have hmem : other ∈ logSources (before ++ [row]) ↔ other ∈ logSources before ∨ other = source := by
    simp only [mem_logSources, List.mem_append, List.mem_singleton, or_and_right, exists_or, exists_eq_left, hline]
    simp [eq_comm]
  rw [lineState_append, stateBehind, hline]
  by_cases hother : source = other
  · subst hother
    rw [if_pos (hmem.2 (.inr rfl))]
    dsimp only
    rw [if_pos rfl]
    exact Keyed.get?_put_self
  · rw [Keyed.get?_put_ne hother, h other]
    dsimp only
    rw [if_neg hother]
    simp only [hmem, Ne.symm hother, or_false]

/-- **A row is sanitized with the state of its source**, and the continuation follows. -/
theorem sanitizeLogRow_follows (h : Follows unknownLogState before sources)
    (hroom : (logSources (before ++ [row])).length ≤ maxLogSources) :
    (sanitizeLogRow unknownLogState sources row).1 = expectedRow unknownLogState before row ∧
      Follows unknownLogState (before ++ [row]) (sanitizeLogRow unknownLogState sources row).2 := by
  unfold sanitizeLogRow expectedRow
  cases hvalue : row.line with
  | none => exact ⟨rfl, h.append_none (by simp [logLine, hvalue])⟩
  | some value =>
    cases hsource : observationLogSource row with
    | none => exact ⟨rfl, h.append_none (by simp [logLine, hvalue, hsource])⟩
    | some source =>
      have hline : logLine row = some (source, value) := by simp [logLine, hvalue, hsource]
      have hstate : ((sources.get? source).map Prod.snd).getD (firstState unknownLogState) =
          lineState unknownLogState source before := by
        rw [h source]
        by_cases hmem : source ∈ logSources before
        · rw [if_pos hmem]
          rfl
        · rw [if_neg hmem, lineState_of_notMem unknownLogState hmem]
          rfl
      have hfree : ¬ (sources.get? source = none ∧ maxLogSources ≤ sources.rows.length) := by
        rintro ⟨hnone, hfull⟩
        have hnew : source ∉ logSources before := fun hmem => by simp [h source, hmem] at hnone
        have hmem : source ∈ logSources (before ++ [row]) := mem_logSources.2 ⟨row, by simp, value, hline⟩
        exact absurd hfull (Nat.not_le.2 (h.length_lt hnew hmem hroom))
      dsimp only
      rw [if_neg hfree, hstate]
      exact ⟨rfl, h.append_line hline⟩

end Step

theorem length_logSources_le (front rest : List Row) :
    (logSources front).length ≤ (logSources (front ++ rest)).length := by
  refine (List.subperm_of_subset (List.nodup_dedup _) fun source hsource => ?_).length_le
  obtain ⟨row, hrow, hline⟩ := mem_logSources.1 hsource
  exact mem_logSources.2 ⟨row, List.mem_append_left _ hrow, hline⟩

/-- The outputs of the fold are the rows of one pass. -/
theorem outputs_eq {unknownLogState : Bool} {before : List Row} {sources : Sources} (rows : List Row)
    (h : Follows unknownLogState before sources) (hroom : (logSources (before ++ rows)).length ≤ maxLogSources) :
    Batches.outputs (sanitizeLogRow unknownLogState) sources rows = expectedRows unknownLogState before rows := by
  induction rows generalizing before sources with
  | nil => rfl
  | cons row rows ih =>
    have hsplit : before ++ row :: rows = (before ++ [row]) ++ rows := by simp
    rw [hsplit] at hroom
    obtain ⟨hrow, hfollows⟩ := sanitizeLogRow_follows h (Nat.le_trans (length_logSources_le _ rows) hroom)
    rw [Batches.outputs, expectedRows, hrow, ih hfollows hroom]

theorem expectedRows_take (unknownLogState : Bool) (before rows : List Row) (k : Nat) :
    expectedRows unknownLogState before (rows.take k) = (expectedRows unknownLogState before rows).take k := by
  induction rows generalizing before k with
  | nil => simp [expectedRows]
  | cons row rows ih =>
    cases k with
    | zero => rfl
    | succ k => rw [List.take_succ_cons, expectedRows, expectedRows, ih, List.take_succ_cons]

/-- **Whatever the cuts, calls return the rows of one pass**, in order, and keep the others. -/
theorem maskedCalls_eq (unknownLogState : Bool) (hroom : (logSources rows).length ≤ maxLogSources) (calls : Nat) :
    ∃ k, (maskedCalls unknownLogState calls Keyed.empty rows).1 = (expectedRows unknownLogState [] rows).take k ∧
      (maskedCalls unknownLogState calls Keyed.empty rows).2.2 = rows.drop k ∧
      ∀ clean ∈ (expectedRows unknownLogState [] rows).take k, recordSize clean ≤ pageRoom := by
  rw [maskedCalls_eq_drain]
  obtain ⟨k, -, hdrain, hfit⟩ :=
    @Batches.drain_eq _ _ _ (sanitizeLogRow unknownLogState) recordSize 1000 pageRoom calls Keyed.empty rows
  have hfront : (logSources ([] ++ rows.take k)).length ≤ maxLogSources := by
    have hle := length_logSources_le (rows.take k) (rows.drop k)
    rw [List.take_append_drop] at hle
    exact Nat.le_trans hle hroom
  rw [outputs_eq _ (Follows.empty unknownLogState) hfront, expectedRows_take] at hdrain hfit
  rw [hdrain]
  exact ⟨k, rfl, rfl, hfit⟩

/-! ### Rows that fit -/

/-- Without the U+FFFD of a character cut in two, the prefix keeps the limit. -/
theorem byteLength_dropReplacement (limit : Nat) (value : Text) :
    byteLength (dropReplacement (decodePrefix limit value)) ≤ limit := by
  have hkept : ∃ kept, byteLength kept ≤ limit ∧
      (decodePrefix limit value = kept ∨ decodePrefix limit value = kept ++ [replacementCharacter]) := by
    induction value generalizing limit with
    | nil => exact ⟨[], Nat.zero_le _, .inl (by rw [decodePrefix])⟩
    | cons c value ih =>
      rw [decodePrefix]
      split_ifs with hfits hzero
      · obtain ⟨kept, hle, hcases⟩ := ih (limit - c.utf8Size)
        refine ⟨c :: kept, ?_, hcases.imp (congrArg (c :: ·)) (congrArg (c :: ·))⟩
        rw [byteLength_cons]
        omega
      · exact ⟨[], Nat.zero_le _, .inl rfl⟩
      · exact ⟨[], Nat.zero_le _, .inr rfl⟩
  obtain ⟨kept, hle, heq | heq⟩ := hkept
  · rw [heq, dropReplacement]
    split_ifs
    · obtain ⟨last, hlast⟩ := List.dropLast_prefix kept
      rw [← hlast, byteLength_append] at hle
      omega
    · exact hle
  · rw [heq, dropReplacement, List.getLast?_concat, if_pos rfl, List.dropLast_concat]
    exact hle

theorem byteLength_truncateObservationText (value : Text) (limit : Nat) :
    byteLength (truncateObservationText value limit) ≤ max limit 12 := by
  have hsuffix : byteLength truncationSuffix = 12 := by decide
  have hprefix := byteLength_dropReplacement (limit - 12) value
  rw [truncateObservationText, hsuffix]
  split_ifs
  · omega
  · rw [byteLength_append, hsuffix]
    omega

theorem byteLength_sanitizeObservationLine (value : Text) (state : RedactionState) :
    byteLength (sanitizeObservationLine value state).1 ≤ lineBytes := by
  unfold sanitizeObservationLine
  split_ifs
  · exact (by decide : byteLength marker ≤ lineBytes)
  · exact byteLength_truncateObservationText _ lineBytes

/-- The longest escape stands for a control character, of one byte. -/
theorem byteLength_quote (value : Text) : byteLength (Json.quote (String.ofList value)) ≤ 6 * byteLength value + 2 := by
  have hcodes : ∀ n ∈ Json.escapedCodes,
      byteLength (Json.escapeChar (Char.ofNat n)) ≤ 6 * (Char.ofNat n).utf8Size := by decide +kernel
  have hchar : ∀ c : Char, byteLength (Json.escapeChar c) ≤ 6 * c.utf8Size := by
    intro c
    by_cases hplain : Json.Plain c
    · rw [Json.escapeChar_plain hplain]
      exact Nat.le_mul_of_pos_left c.utf8Size (by decide)
    · obtain ⟨n, hn, rfl⟩ := Json.escaped_of_not_plain hplain
      exact hcodes n hn
  have htext : byteLength (value.flatMap Json.escapeChar) ≤ 6 * byteLength value := by
    induction value with
    | nil => exact Nat.le_refl 0
    | cons c value ih =>
      have hc := hchar c
      rw [List.flatMap_cons, byteLength_append, byteLength_cons]
      omega
  have hquote : byteLength ['"'] = 1 := by decide
  rw [Json.quote, String.toList_ofList, ← List.singleton_append, byteLength_append, byteLength_append, hquote]
  omega

/-- The bytes of a member, with its colon and a comma. -/
def memberSize (member : String × Json) : Nat :=
  byteLength (Json.quote member.1) + byteLength (Json.stringify member.2) + 2

def membersSize (members : JsonObject) : Nat := (members.map memberSize).sum

theorem byteLength_cons_joinComma (text : Text) (texts : List Text) :
    byteLength (Json.joinComma (text :: texts)) ≤ byteLength text + 1 + byteLength (Json.joinComma texts) := by
  cases texts <;> simp [Json.joinComma, byteLength_append, byteLength_cons, Char.utf8Size] <;> omega

theorem recordSize_le (members : JsonObject) : recordSize members ≤ membersSize members + 3 := by
  have hmembers : byteLength (Json.joinComma (Json.stringifyMembers members)) ≤ membersSize members := by
    induction members with
    | nil => exact Nat.zero_le _
    | cons member members ih =>
      have hjoin := byteLength_cons_joinComma (Json.quote member.1 ++ ':' :: Json.stringify member.2)
        (Json.stringifyMembers members)
      have hcolon : ':'.utf8Size = 1 := by decide
      rw [byteLength_append, byteLength_cons, hcolon] at hjoin
      simp only [Json.stringifyMembers, membersSize, memberSize, List.map_cons, List.sum_cons] at ih ⊢
      omega
  have hopen : '\x7b'.utf8Size = 1 := by decide
  have hclose : byteLength ['\x7d'] = 1 := by decide
  rw [recordSize, Json.stringify, byteLength_cons, byteLength_append, hopen, hclose]
  omega

theorem setMember_le {members : JsonObject} (key : String) (value : Json) (h : (members.map Prod.fst).Nodup) :
    membersSize (Json.setMember members key value) ≤ membersSize members + memberSize (key, value) ∧
      ((Json.setMember members key value).map Prod.fst).Nodup := by
  have hkeys : (members.map fun m => if m.1 == key then (key, value) else m).map Prod.fst = members.map Prod.fst := by
    rw [List.map_map]
    refine List.map_congr_left fun m _ => ?_
    by_cases hm : m.1 = key <;> simp [hm]
  unfold Json.setMember
  split_ifs with hany
  · refine ⟨?_, hkeys ▸ h⟩
    clear hany hkeys
    induction members with
    | nil => exact Nat.zero_le _
    | cons m members ih =>
      obtain ⟨hnew, hrest⟩ := List.nodup_cons.1 h
      have hle := ih hrest
      simp only [membersSize, List.map_cons, List.sum_cons] at hle ⊢
      by_cases hkey : m.1 = key
      · have hkept : members.map (fun e => if e.1 == key then (key, value) else e) = members := by
          refine (List.map_congr_left fun e he => if_neg fun heq => hnew ?_).trans (List.map_id members)
          rw [hkey, ← beq_iff_eq.1 heq]
          exact List.mem_map_of_mem he
        rw [if_pos (beq_iff_eq.2 hkey), hkept]
        omega
      · rw [if_neg (mt beq_iff_eq.1 hkey)]
        omega
  · constructor
    · simp [membersSize]
    · grind

theorem fromEntries_le (entries : List (String × Json)) :
    membersSize (fromEntries entries) ≤ membersSize entries ∧ ((fromEntries entries).map Prod.fst).Nodup := by
  induction entries using List.reverseRecOn with
  | nil => exact ⟨Nat.le_refl _, List.nodup_nil⟩
  | append_singleton entries entry ih =>
    obtain ⟨hle, hnodup⟩ := setMember_le entry.1 entry.2 ih.2
    have hfold : fromEntries (entries ++ [entry]) = Json.setMember (fromEntries entries) entry.1 entry.2 :=
      List.foldl_append
    rw [hfold]
    refine ⟨hle.trans ?_, hnodup⟩
    simpa [membersSize] using ih.1

/-- No array or object; the texts of numbers and dates are at most 32 bytes long. -/
def Observed.Flat : Observed → Prop
  | .arr _ _ => False
  | .obj _ _ => False
  | .num text => byteLength text.toList ≤ 32
  | .date (some text) => byteLength text.toList ≤ 32
  | _ => True

instance (input : Observed) : Decidable input.Flat := by
  unfold Observed.Flat
  split <;> infer_instance

/-- Each byte that the budget pays makes at most six of a text, which has at most `free` others. -/
def Budget.Pays (budget : Budget) (size free : Nat) (left : Budget) : Prop :=
  size + 6 * left.bytes ≤ 6 * budget.bytes + free ∧ -12 ≤ left.bytes

theorem Budget.pays_free {left : Budget} {size free : Nat} (hsize : size ≤ free) (hleft : left.bytes = budget.bytes)
    (hbytes : -12 ≤ budget.bytes) : budget.Pays size free left := by
  unfold Budget.Pays
  omega

theorem visit_flat {input : Observed} (h : input.Flat) (depth : Nat) (hbytes : -12 ≤ budget.bytes) :
    budget.Pays (byteLength (Json.stringify (visit depth budget input).1)) 194 (visit depth budget input).2 := by
  have hfree : ∀ json, byteLength (Json.stringify json) ≤ 194 →
      budget.Pays (byteLength (Json.stringify json)) 194 budget.spend :=
    fun json hjson => Budget.pays_free hjson rfl hbytes
  have hvisit : visit depth budget input =
      if budget.spend.spent depth then (markerJson, budget.spend) else visitLeaf budget.spend input := by
    cases input <;> first | exact h.elim | simp only [visit]
  rw [hvisit]
  split_ifs with hspent
  · exact hfree markerJson (by decide)
  · cases input with
    | str value =>
      have hcut := byteLength_truncateObservationText (sanitizeObservationLine value {}).1
        (min lineBytes budget.spend.bytes.toNat)
      simp only [visitLeaf, Json.stringify]
      generalize truncateObservationText _ _ = result at hcut ⊢
      have hquote := byteLength_quote result
      simp only [Budget.spent, Budget.spend, Budget.Pays, Budget.write] at hspent hcut ⊢
      omega
    | num text => exact hfree (.frac text) (Nat.le_trans h (by decide))
    | bool value => exact hfree (.bool value) (by cases value <;> decide)
    | date text =>
      cases text with
      | none => exact hfree .null (by decide)
      | some text =>
        have hquote := byteLength_quote text.toList
        rw [String.ofList_toList] at hquote
        exact hfree (.str text) (Nat.le_trans hquote (Nat.add_le_add_right (Nat.mul_le_mul_left 6 h) 2))
    | null | undefined | nonFinite => exact hfree .null (by decide)
    | other => exact hfree markerJson (by decide)
    | arr | obj => exact h.elim

/-- A member has at most 1734 bytes that are not paid; most are those of its name. -/
theorem visitEntries_flat {entries : List (Text × Observed)} (h : ∀ entry ∈ entries, entry.2.Flat) (most depth : Nat)
    {budget : Budget} (hbytes : -12 ≤ budget.bytes) :
    budget.Pays (membersSize (visitEntries most depth budget entries).1) (1734 * entries.length)
      (visitEntries most depth budget entries).2 := by
  induction entries generalizing most budget with
  | nil =>
    rw [visitEntries]
    exact Budget.pays_free (Nat.zero_le _) rfl hbytes
  | cons entry entries ih =>
    obtain ⟨hflat, hrest⟩ := List.forall_mem_cons.1 h
    cases most with
    | zero =>
      rw [visitEntries]
      exact Budget.pays_free (Nat.zero_le _) rfl hbytes
    | succ most =>
      rw [visitEntries]
      generalize hvalue : (if isSecretName entry.1 && entry.2.present then (markerJson, budget)
        else visit depth budget entry.2) = first
      have hfirst : budget.Pays (byteLength (Json.stringify first.1)) 194 first.2 := by
        rw [← hvalue]
        split_ifs
        · exact Budget.pays_free (by decide : byteLength (Json.stringify markerJson) ≤ 194) rfl hbytes
        · exact visit_flat hflat depth hbytes
      have hkey : byteLength (Json.quote (String.ofList (cleanKey entry.1))) ≤ 1538 :=
        Nat.le_trans (byteLength_quote _)
          (Nat.add_le_add_right (Nat.mul_le_mul_left 6 (byteLength_truncateObservationText _ 256)) 2)
      have hothers := ih hrest most hfirst.2
      dsimp only
      simp only [Budget.Pays, membersSize, memberSize, List.map_cons, List.sum_cons, List.length_cons] at hfirst hothers ⊢
      omega

/-- **A row of at most sixteen members, all flat, fits on a page.** -/
theorem flat_row_fits (unknownLogState : Bool) (before : List Row) {row : Row} (hlength : row.entries.length ≤ 16)
    (h : ∀ entry ∈ row.entries, entry.2.Flat) : recordSize (expectedRow unknownLogState before row) ≤ pageRoom := by
  obtain ⟨hpaid, hleft⟩ := @visitEntries_flat row.entries h 64 1 ⟨511, 65536, [row.id]⟩ (by simp)
  obtain ⟨hle, hnodup⟩ := fromEntries_le (visitEntries 64 1 ⟨511, 65536, [row.id]⟩ row.entries).1
  rw [← publicRecord_eq] at hle hnodup
  dsimp only at hpaid
  have hline : ∀ line, byteLength line ≤ lineBytes → recordSize (withLine (publicRecord row) line) ≤ pageRoom := by
    intro line hline
    have hset : membersSize (withLine (publicRecord row) line) ≤ _ :=
      (setMember_le "line" (.str (String.ofList line)) hnodup).1
    have hsize := recordSize_le (withLine (publicRecord row) line)
    have hname : byteLength (Json.quote "line") = 6 := by decide
    have hquote := byteLength_quote line
    simp only [memberSize, Json.stringify, hname] at hset
    unfold lineBytes at hline
    unfold pageRoom
    omega
  unfold expectedRow
  cases row.line with
  | none =>
    refine Nat.le_trans (recordSize_le (publicRecord row)) ?_
    unfold pageRoom
    omega
  | some value =>
    cases observationLogSource row with
    | none => exact hline _ (by decide)
    | some source => exact hline _ (byteLength_sanitizeObservationLine _ _)

/-- Flat rows of at most sixteen members. -/
def FlatRows (rows : List Row) : Prop := ∀ row ∈ rows, row.entries.length ≤ 16 ∧ ∀ entry ∈ row.entries, entry.2.Flat

theorem flat_rows_fit (unknownLogState : Bool) (before : List Row) (h : FlatRows rows) :
    ∀ clean ∈ expectedRows unknownLogState before rows, recordSize clean ≤ pageRoom := by
  induction rows generalizing before with
  | nil => exact List.forall_mem_nil _
  | cons row rows ih =>
    obtain ⟨hrow, hrows⟩ := List.forall_mem_cons.1 h
    exact List.forall_mem_cons.2 ⟨flat_row_fits unknownLogState before hrow.1 hrow.2, ih (before ++ [row]) hrows⟩

/-! ### Paging -/

/-- **Paging loses nothing and is not seen**: calls return what one pass over the whole list makes, in order; as
long as rows are left, the next call returns some; and in the end none are. -/
structure LosesNothing (unknownLogState : Bool) (rows : List Row) : Prop where
  exact : ∀ calls, ∃ k,
    (maskedCalls unknownLogState calls Keyed.empty rows).1 = (expectedRows unknownLogState [] rows).take k ∧
      (maskedCalls unknownLogState calls Keyed.empty rows).2.2 = rows.drop k
  progress : ∀ calls, (maskedCalls unknownLogState calls Keyed.empty rows).2.2 ≠ [] →
    (maskedObservationRows unknownLogState (maskedCalls unknownLogState calls Keyed.empty rows).2.1
      (maskedCalls unknownLogState calls Keyed.empty rows).2.2).1 ≠ []
  ends : ∃ calls, (maskedCalls unknownLogState calls Keyed.empty rows).1 = expectedRows unknownLogState [] rows ∧
    (maskedCalls unknownLogState calls Keyed.empty rows).2.2 = []

theorem length_expectedRows (unknownLogState : Bool) (before rows : List Row) :
    (expectedRows unknownLogState before rows).length = rows.length := by
  induction rows generalizing before with
  | nil => rfl
  | cons row rows ih => rw [expectedRows, List.length_cons, List.length_cons, ih]

/-- **Paging loses nothing exactly if every row fits on a page of its own.** -/
theorem log_paging_iff (unknownLogState : Bool) (rows : List Row) (hsources : (logSources rows).length ≤ maxLogSources) :
    LosesNothing unknownLogState rows ↔
      ∀ clean ∈ expectedRows unknownLogState [] rows, recordSize clean ≤ pageRoom := by
  constructor
  · intro h
    obtain ⟨calls, hall, -⟩ := h.ends
    obtain ⟨k, hreturned, -, hfit⟩ := maskedCalls_eq unknownLogState hsources calls
    rwa [← hreturned, hall] at hfit
  · intro h
    have hfits : ∀ clean ∈ Batches.outputs (sanitizeLogRow unknownLogState) Keyed.empty rows,
        recordSize clean ≤ pageRoom := by
      rwa [outputs_eq rows (Follows.empty unknownLogState) hsources]
    refine ⟨fun calls => ?_, fun calls hleft => ?_, rows.length, ?_⟩
    · obtain ⟨k, hreturned, hleft, -⟩ := maskedCalls_eq unknownLogState hsources calls
      exact ⟨k, hreturned, hleft⟩
    · rw [maskedCalls_eq_drain] at hleft ⊢
      obtain ⟨k, -, hdrain, -⟩ :=
        @Batches.drain_eq _ _ _ (sanitizeLogRow unknownLogState) recordSize 1000 pageRoom calls Keyed.empty rows
      rw [hdrain] at hleft ⊢
      rw [maskedObservationRows_eq]
      exact Batches.call_progress (by decide) (Batches.fits_drop hfits k) hleft
    · have hend : (maskedCalls unknownLogState rows.length Keyed.empty rows).2.2 = [] := by
        rw [maskedCalls_eq_drain]
        exact Batches.drain_end (by decide) (Nat.le_refl _) hfits
      obtain ⟨k, hreturned, hleft, -⟩ := maskedCalls_eq unknownLogState hsources rows.length
      have hk : rows.length ≤ k := List.drop_eq_nil_iff.1 (hleft.symm.trans hend)
      refine ⟨?_, hend⟩
      rw [hreturned, List.take_of_length_le]
      rw [length_expectedRows]
      exact hk

/-- Two lines of one container. -/
def containerRows : List Row :=
  ["password='a", "b' c"].map fun value => ⟨1, [("serviceId".toList, .str "s".toList),
    ("deploymentId".toList, .str "d".toList), ("podUid".toList, .str "p".toList),
    ("containerName".toList, .str "c".toList), ("line".toList, .str value.toList)]⟩

theorem log_paging_iff_container : (logSources containerRows).length ≤ maxLogSources ∧
    (∀ clean ∈ expectedRows false [] containerRows, recordSize clean ≤ pageRoom) ∧
      LosesNothing false containerRows := by
  have hsources : (logSources containerRows).length ≤ maxLogSources :=
    Nat.le_trans (List.dedup_sublist _).length_le (Nat.le_trans (List.length_filterMap_le _ _) (by decide))
  have hflat : FlatRows containerRows := by
    unfold FlatRows
    decide
  have hfits := flat_rows_fit false [] hflat
  exact ⟨hsources, hfits, (log_paging_iff false containerRows hsources).2 hfits⟩

/-! ### A row that does not fit -/

/-- Entries with secret names are written and spend nothing. -/
theorem visitEntries_secret (most depth : Nat) (budget : Budget) (entries : List (Text × Observed))
    (h : ∀ entry ∈ entries, (isSecretName entry.1 && entry.2.present) = true) :
    visitEntries most depth budget entries =
      ((entries.take most).map fun entry => (String.ofList (cleanKey entry.1), markerJson), budget) := by
  induction entries generalizing most with
  | nil => simp [visitEntries]
  | cons entry entries ih =>
    cases most with
    | zero => simp [visitEntries]
    | succ most =>
      rw [visitEntries, if_pos (h entry List.mem_cons_self), ih most fun e he => h e (List.mem_cons_of_mem _ he)]
      rfl

theorem fromEntries_nodup (entries : List (String × Json)) (h : (entries.map Prod.fst).Nodup) :
    fromEntries entries = entries := by
  induction entries using List.reverseRecOn with
  | nil => rfl
  | append_singleton entries entry ih =>
    rw [List.map_append, List.nodup_append] at h
    have hnew : ∀ e ∈ entries, e.1 ≠ entry.1 := fun e he =>
      h.2.2 _ (List.mem_map_of_mem he) _ (List.mem_singleton_self _)
    have hfold : fromEntries (entries ++ [entry]) = Json.setMember (fromEntries entries) entry.1 entry.2 :=
      List.foldl_append
    have hfree : ¬ entries.any (fun e => e.1 == entry.1) = true := by
      rw [List.any_eq_true]
      rintro ⟨e, he, heq⟩
      exact hnew e he (beq_iff_eq.1 heq)
    rw [hfold, ih h.1, Json.setMember, if_neg hfree]

/-- A text that no pass touches is kept as a name. -/
theorem cleanKey_eq {key : Text} (hshort : byteLength key ≤ 256) (hkeys : pemBegin.find none key = none)
    (hkept : redactJwt (maskPatterns (redactAssignments (redactUrlCredentials key false) none).1) false = key) :
    cleanKey key = key := by
  have hmask : maskPrivateKeys false key = (key, false) := by
    rw [maskPrivateKeys]
    by_cases hnil : key = []
    · rw [if_pos hnil, hnil]
    · rw [if_neg hnil, if_neg (by decide)]
      split
      · rfl
      · next heq => rw [hkeys] at heq; cases heq
  have hbounded : boundedObservationInput key = ⟨key, false⟩ := if_pos (Nat.le_trans hshort (by decide))
  unfold cleanKey sanitizeObservationLine
  rw [if_neg (by decide), hbounded]
  dsimp only
  rw [hmask, hkept, if_neg (by decide), List.append_nil]
  unfold truncateObservationText
  rw [if_pos (Nat.le_trans hshort (by decide)), if_pos hshort]

/-- Sixty-four names with the word `token` in them. -/
def tokenKeys : List Text :=
  "abcdefgh".toList.flatMap fun c => "abcdefgh".toList.map fun d => "token".toList ++ [c, d]

theorem tokenKeys_kept : ∀ key ∈ tokenKeys, isSecretName key = true ∧ byteLength key ≤ 256 ∧
    (pemBegin.find none key).isNone = true ∧
      redactJwt (maskPatterns (redactAssignments (redactUrlCredentials key false) none).1) false = key := by
  decide +kernel

def tokenEntries : List (Text × Observed) := tokenKeys.map (·, .bool true)

/-- What is made of an object with these entries. -/
def tokenRecord : Json := .obj (tokenKeys.map fun key => (String.ofList key, markerJson))

theorem visit_tokens {depth id : Nat} (hbudget : ¬ budget.spend.spent depth) (hid : id ∉ budget.seen) :
    visit depth budget (.obj id tokenEntries) = (tokenRecord, budget.spend.see id) := by
  have hsecret : ∀ entry ∈ tokenEntries, (isSecretName entry.1 && entry.2.present) = true := by
    intro entry hentry
    obtain ⟨key, hkey, rfl⟩ := List.mem_map.1 hentry
    exact Bool.and_eq_true_iff.2 ⟨(tokenKeys_kept key hkey).1, rfl⟩
  have hclean : (tokenEntries.take 64).map (fun entry => (String.ofList (cleanKey entry.1), markerJson)) =
      tokenKeys.map fun key => (String.ofList key, markerJson) := by
    rw [List.take_of_length_le (by decide), tokenEntries, List.map_map]
    refine List.map_congr_left fun key hkey => ?_
    obtain ⟨-, hshort, hkeys, hkept⟩ := tokenKeys_kept key hkey
    show (String.ofList (cleanKey key), markerJson) = _
    rw [cleanKey_eq hshort (Option.isNone_iff_eq_none.1 hkeys) hkept]
  have hnodup : ((tokenKeys.map fun key => (String.ofList key, markerJson)).map Prod.fst).Nodup := by
    rw [List.map_map]
    exact List.Nodup.map (fun _ _ h => String.ofList_injective h) (by decide +kernel : tokenKeys.Nodup)
  rw [visit, if_neg (by simp [hbudget, hid]), visitEntries_secret _ _ _ _ hsecret, hclean]
  dsimp only
  rw [fromEntries_nodup _ hnodup, tokenRecord]

/-- As many such objects as there are nodes. -/
theorem visitItems_tokens (n : Nat) {most start depth : Nat} {budget : Budget} (hmost : n ≤ most) (hdepth : depth ≤ 8)
    (hnodes : n ≤ budget.nodes) (hbytes : 0 < budget.bytes) (hseen : ∀ id ∈ budget.seen, id < start) :
    (visitItems most depth budget ((List.range' start n).map fun id => .obj id tokenEntries)).1 =
      List.replicate n tokenRecord := by
  induction n generalizing most start budget with
  | zero => simp [visitItems]
  | succ n ih =>
    obtain ⟨most, rfl⟩ : ∃ m, most = m + 1 := ⟨most - 1, by omega⟩
    have hbudget : ¬ budget.spend.spent depth := by
      simp only [Budget.spent, Budget.spend]
      omega
    have hid : start ∉ budget.seen := fun hmem => Nat.lt_irrefl _ (hseen start hmem)
    rw [List.range'_succ, List.map_cons, visitItems, visit_tokens hbudget hid, List.replicate_succ]
    refine congrArg (tokenRecord :: ·) (ih (by omega) ?_ hbytes ?_)
    · simp only [Budget.spend, Budget.see]
      omega
    · intro id hmem
      rcases List.mem_cons.1 hmem with rfl | hmem
      · exact Nat.lt_succ_self _
      · exact Nat.lt_succ_of_lt (hseen id hmem)

/-- A row with 510 of them in an array. -/
def wideRow : Row := ⟨0, [("a".toList, .arr 1 ((List.range' 2 510).map fun id => .obj id tokenEntries))]⟩

theorem publicRecord_wideRow : publicRecord wideRow = [("a", .arr (List.replicate 510 tokenRecord))] := by
  have hkey : cleanKey "a".toList = "a".toList := by
    refine cleanKey_eq (by decide) (Option.isNone_iff_eq_none.1 ?_) ?_ <;> decide +kernel
  have hname : isSecretName "a".toList = false := by decide +kernel
  have hitems := @visitItems_tokens 510 1000 2 2 ⟨510, 65536, [1, 0]⟩ (by decide) (by decide) (by decide) (by decide)
    (by decide)
  have hvisit : (visit 1 ⟨511, 65536, [0]⟩ (.arr 1 ((List.range' 2 510).map fun id => .obj id tokenEntries))).1 =
      .arr (List.replicate 510 tokenRecord) := by
    rw [visit, if_neg (by simp [Budget.spent, Budget.spend]), ← hitems]
    rfl
  rw [publicRecord_eq, wideRow]
  dsimp only
  rw [visitEntries, hname, hkey, Bool.false_and, if_neg (by decide), visitEntries, hvisit]
  exact fromEntries_nodup [_] (List.nodup_singleton _)

theorem stringifyItems_replicate (n : Nat) (item : Json) :
    Json.stringifyItems (List.replicate n item) = List.replicate n (Json.stringify item) := by
  induction n with
  | zero => rfl
  | succ n ih => rw [List.replicate_succ, Json.stringifyItems, ih, List.replicate_succ]

theorem byteLength_joinComma (n : Nat) (text : Text) :
    byteLength (Json.joinComma (List.replicate (n + 1) text)) = (n + 1) * byteLength text + n := by
  induction n with
  | zero => simp [Json.joinComma]
  | succ n ih =>
    have hcons : Json.joinComma (List.replicate (n + 1 + 1) text) =
        text ++ [','] ++ Json.joinComma (List.replicate (n + 1) text) := by
      simp [List.replicate_succ, Json.joinComma]
    have hcomma : byteLength [','] = 1 := by decide
    rw [hcons, byteLength_append, byteLength_append, ih, hcomma, Nat.succ_mul (n + 1)]
    omega

theorem stringifyMembers_masked (keys : List Text) :
    Json.stringifyMembers (keys.map fun key => (String.ofList key, markerJson)) =
      keys.map fun key => '"' :: (key.flatMap Json.escapeChar ++ "\":\"****\"".toList) := by
  have hmarker : Json.stringify markerJson = "\"****\"".toList := by decide
  induction keys with
  | nil => rfl
  | cons key keys ih =>
    rw [List.map_cons, Json.stringifyMembers, ih, hmarker]
    simp [Json.quote]

theorem byteLength_tokenRecord : byteLength (Json.stringify tokenRecord) = 1089 := by
  rw [tokenRecord, Json.stringify, stringifyMembers_masked]
  decide +kernel

theorem recordSize_array (n : Nat) (item : Json) :
    recordSize [("a", .arr (List.replicate (n + 1) item))] = (n + 1) * (byteLength (Json.stringify item) + 1) + 8 := by
  have htext : Json.stringify (.obj [("a", .arr (List.replicate (n + 1) item))]) =
      ['\x7b', '"', 'a', '"', ':', '['] ++ Json.joinComma (List.replicate (n + 1) (Json.stringify item)) ++
        [']', '\x7d'] := by
    rw [Json.stringify, Json.stringifyMembers, Json.stringifyMembers, Json.stringify, stringifyItems_replicate]
    simp [Json.joinComma, Json.quote, Json.escapeChar]
  have hfront : byteLength ['\x7b', '"', 'a', '"', ':', '['] = 6 := by decide
  have hback : byteLength [']', '\x7d'] = 2 := by decide
  rw [recordSize, htext, byteLength_append, byteLength_append, byteLength_joinComma, hfront, hback, Nat.mul_add]
  omega

theorem recordSize_wideRow : pageRoom < recordSize (publicRecord wideRow) := by
  rw [publicRecord_wideRow, recordSize_array 509, byteLength_tokenRecord]
  decide

/-- **The row is never returned**: its 555,907 bytes do not fit on a page. -/
theorem wide_row_stops_paging : (logSources [wideRow]).length ≤ maxLogSources ∧
    ∀ calls, maskedCalls false calls Keyed.empty [wideRow] = ([], Keyed.empty, [wideRow]) := by
  have hline : wideRow.line = none := by rfl
  have hpage : maskedObservationRows false Keyed.empty [wideRow] = ([], Keyed.empty) := by
    have hrow : sanitizeLogRow false Keyed.empty wideRow = (publicRecord wideRow, Keyed.empty) := by
      rw [sanitizeLogRow, hline]
    rw [maskedObservationRows_eq, List.take_of_length_le (by decide), Batches.page, hrow,
      if_neg (Nat.not_le.2 recordSize_wideRow)]
  refine ⟨by simp [logSources, logLine, hline], fun calls => ?_⟩
  induction calls with
  | zero => rfl
  | succ calls ih =>
    rw [maskedCalls, hpage]
    exact congrArg (fun rest => ([] ++ rest.1, rest.2)) ih

end RaibitServer.Observability
