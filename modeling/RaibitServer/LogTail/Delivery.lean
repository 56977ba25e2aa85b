import RaibitServer.Lib.Run
import RaibitServer.LogTail.Store

/-!
# LogTail.Delivery — what a client sees that polls the logs of a service

A client polls with the cursor of its last page that was not empty; rows are appended in between.  A row that
is appended behind the cursor is delivered exactly once (`live_tail_delivers`).  A row in the millisecond of
the cursor whose id sorts before it is never delivered (`same_millisecond_row_lost`), and neither are the
rows that a page without a cursor leaves out.
-/

namespace RaibitServer.LogTail

open Lib

/-! ### Polls and appends -/

/-- The rows of the store, the cursor of the client and the rows it was given. -/
structure Tail where
  runtimeLogs : List RuntimeLog
  cursor : Option CursorText
  delivered : List RuntimeLog
  deriving DecidableEq, Repr

inductive TailEvent
  | append (id line : String) (now : Int) (input : RuntimeLogInput)
  | poll (limit : Option Int)

def TailEvent.isPoll : TailEvent → Bool
  | .append _ _ _ _ => false
  | .poll _ => true

/-- Before the first row, behind a poll that found nothing. -/
def emptyTail : Tail := ⟨[], none, []⟩

section

variable (localeCompare : String → String → Ordering) (serviceId : String)

def pollTail (s : Tail) (limit : Option Int) : Tail :=
  match listRuntimeLogs localeCompare s.runtimeLogs serviceId { cursor := s.cursor, limit } with
  | .error _ => s
  | .ok [] => s
  | .ok (row :: rows) =>
    { s with cursor := keysetCursorForRows (row :: rows), delivered := s.delivered ++ row :: rows }

def appendTail (s : Tail) (id line : String) (now : Int) (input : RuntimeLogInput) : Tail :=
  match appendRuntimeLog s.runtimeLogs id line now input with
  | .error _ => s
  | .ok runtimeLogs => { s with runtimeLogs }

def Tail.next (s : Tail) : TailEvent → Tail
  | .append id line now input => appendTail s id line now input
  | .poll limit => pollTail localeCompare serviceId s limit

def TailStep (s : Tail) (e : TailEvent) (t : Tail) : Prop := t = s.next localeCompare serviceId e

/-- The rows of the service. -/
def Tail.rows (s : Tail) : List RuntimeLog := s.runtimeLogs.filter fun row => row.serviceId = serviceId

/-! ### The condition on a step -/

/-- A cursor on the row is written and read back. -/
structure Readable (row : RuntimeLog) : Prop where
  trimmed : Text.jsTrim row.id = row.id
  nonempty : row.id ≠ ""
  short : Text.jsLength row.id ≤ 512
  text : textLength row.position ≤ 1024

/-- The row sorts behind the cursor of the client. -/
def Behind (s : Tail) (row : RuntimeLog) : Prop :=
  ∀ cursor, s.cursor = some (.written cursor) → compareKeyset localeCompare row.position cursor = .gt

/-- A row that is appended has an id of its own, which a cursor can hold, and sorts behind the cursor; a
poll without a cursor has room for all rows there are. -/
def Orderly (s : Tail) : TailEvent → Prop
  | .append id line now input => ∀ row, runtimeLogRow id line now input = .ok row → row.serviceId = serviceId →
      row.id ∉ (s.rows serviceId).map RuntimeLog.id ∧ Readable row ∧ Behind localeCompare s row
  | .poll limit => s.cursor = none → (s.rows serviceId).length ≤ activityLimit limit

def OrderlyStep (s : Tail) (e : TailEvent) (t : Tail) : Prop :=
  Orderly localeCompare serviceId s e ∧ TailStep localeCompare serviceId s e t

/-! ### What the client has -/

/-- What was delivered: nothing before the first cursor, then the rows up to the cursor. -/
structure Delivered (s : Tail) : Prop where
  ids : ((s.rows serviceId).map RuntimeLog.id).Nodup
  readable : ∀ row ∈ s.rows serviceId, Readable row
  nodup : s.delivered.Nodup
  started : s.cursor = none → s.delivered = []
  upTo : ∀ text, s.cursor = some text → ∃ last ∈ s.rows serviceId, text = .written last.position ∧
    ∀ row, row ∈ s.delivered ↔
      row ∈ s.rows serviceId ∧ (compareKeyset localeCompare row.position last.position).isLE = true

end

section Steps

variable {localeCompare : String → String → Ordering} {serviceId : String} {s t : Tail}

theorem Readable.decode {row : RuntimeLog} (h : Readable row) :
    decodeKeysetCursor (.written row.position) = .ok row.position := by
  have hid : row.position.id = row.id := rfl
  unfold decodeKeysetCursor
  refine bind_ok.2 ⟨(), throwIf_ok.2 (Nat.not_lt.2 h.text), bind_ok.2 ⟨(), ?_, ?_⟩⟩
  · rw [hid, h.trimmed]
    refine throwIf_ok.2 ?_
    rintro (hempty | hlong)
    · exact h.nonempty hempty
    · exact absurd h.short (Nat.not_le.2 hlong)
  · rw [hid, h.trimmed]
    rfl

theorem Readable.cursor {rows : List RuntimeLog} {row : RuntimeLog} (h : Readable row)
    (hlast : rows.getLast? = some row) : keysetCursorForRows rows = some (.written row.position) := by
  unfold keysetCursorForRows encodeKeysetCursor
  rw [hlast, Option.bind_eq_bind, Option.bind_some]
  dsimp only
  rw [h.trimmed, if_neg h.nonempty]
  rfl

theorem positions_nodup (h : ((s.rows serviceId).map RuntimeLog.id).Nodup) :
    ((s.rows serviceId).map RuntimeLog.position).Nodup := by
  refine List.Nodup.of_map KeysetCursor.id ?_
  rw [List.map_map]
  exact h

/-- The page behind a cursor. -/
theorem list_behind {cursor : KeysetCursor} {limit : Option Int} {text : CursorText}
    (hdecode : decodeKeysetCursor text = .ok cursor) :
    listRuntimeLogs localeCompare s.runtimeLogs serviceId { cursor := some text, limit } =
      .ok ((Keyset.inOrder RuntimeLog.position (compareKeyset localeCompare)
        (Keyset.after RuntimeLog.position (compareKeyset localeCompare) cursor (s.rows serviceId))).take
          (activityLimit limit)) := by
  unfold listRuntimeLogs boundedActivityRows resolveKeysetCursor
  dsimp only
  rw [hdecode]
  rfl

/-- The page without a cursor, where it has room for every row. -/
theorem list_all {limit : Option Int} (hroom : (s.rows serviceId).length ≤ activityLimit limit) :
    listRuntimeLogs localeCompare s.runtimeLogs serviceId { limit } =
      .ok (Keyset.inOrder RuntimeLog.position (compareKeyset localeCompare) (s.rows serviceId)) := by
  have hdrop : (s.rows serviceId).length - activityLimit limit = 0 := Nat.sub_eq_zero_of_le hroom
  show Except.ok (List.drop ((s.rows serviceId).length - activityLimit limit) _) = _
  rw [hdrop, List.drop_zero]
  rfl

variable [Std.TransCmp localeCompare] [Std.LawfulEqCmp localeCompare]

/-- Any page: the rows behind what was delivered, up to its last row. -/
structure Page (localeCompare : String → String → Ordering) (serviceId : String) (s : Tail)
    (page : List RuntimeLog) : Prop where
  nodup : page.Nodup
  upTo : ∀ last, page.getLast? = some last → ∀ row, row ∈ page ↔ (row ∈ s.rows serviceId ∧ row ∉ s.delivered) ∧
    (compareKeyset localeCompare row.position last.position).isLE = true
  progress : (∃ row ∈ s.rows serviceId, row ∉ s.delivered) → page ≠ []

theorem page_of_take {rows : List RuntimeLog} {n : Nat} (hn : rows ≠ [] → 0 < n)
    (hids : ((s.rows serviceId).map RuntimeLog.id).Nodup) (hsub : rows.Sublist (s.rows serviceId))
    (hmem : ∀ row, row ∈ rows ↔ row ∈ s.rows serviceId ∧ row ∉ s.delivered) :
    Page localeCompare serviceId s
      ((Keyset.inOrder RuntimeLog.position (compareKeyset localeCompare) rows).take n) := by
  have hpositions : (rows.map RuntimeLog.position).Nodup := (hsub.map _).nodup (positions_nodup hids)
  have hpairwise : (Keyset.inOrder RuntimeLog.position (compareKeyset localeCompare) rows).Pairwise fun a b =>
      compareKeyset localeCompare a.position b.position = .lt := Keyset.pairwise_inOrder hpositions
  refine ⟨?_, fun last hlast row => ?_, ?_⟩
  · refine ((List.perm_insertionSort _ rows).nodup_iff.2 ?_).sublist (List.take_sublist _ _)
    exact hpositions.of_map _
  · rw [Keyset.mem_take_iff hpairwise hlast, Keyset.mem_inOrder, hmem]
  · rintro ⟨row, hrow, hnew⟩ hnil
    have hin : row ∈ rows := (hmem row).2 ⟨hrow, hnew⟩
    have hpos : 0 < (Keyset.inOrder RuntimeLog.position (compareKeyset localeCompare) rows).length := by
      rw [Keyset.length_inOrder]
      exact List.length_pos_of_mem hin
    have hzero := congrArg List.length hnil
    rw [List.length_take, List.length_nil] at hzero
    have := hn (List.ne_nil_of_mem hin)
    omega

/-- A poll answers with the next page. -/
theorem list_page (h : Delivered localeCompare serviceId s) (limit : Option Int)
    (horderly : Orderly localeCompare serviceId s (.poll limit)) :
    ∃ page, listRuntimeLogs localeCompare s.runtimeLogs serviceId { cursor := s.cursor, limit } = .ok page ∧
      Page localeCompare serviceId s page := by
  cases hcursor : s.cursor with
  | none =>
    refine ⟨_, list_all (horderly hcursor), ?_⟩
    have hroom := List.take_of_length_le (l := Keyset.inOrder RuntimeLog.position (compareKeyset localeCompare)
      (s.rows serviceId)) (i := (s.rows serviceId).length) (Nat.le_of_eq (Keyset.length_inOrder _ _ _))
    rw [← hroom]
    refine page_of_take (fun hne => List.length_pos_of_ne_nil hne) h.ids (List.Sublist.refl _) fun row => ?_
    rw [h.started hcursor]
    simp
  | some text =>
    obtain ⟨last, hlast, rfl, hupTo⟩ := h.upTo text hcursor
    refine ⟨_, list_behind (h.readable last hlast).decode, ?_⟩
    refine page_of_take (fun _ => activityLimit_pos limit) h.ids List.filter_sublist fun row => ?_
    rw [Keyset.mem_after, hupTo]
    constructor
    · rintro ⟨hrow, hgt⟩
      exact ⟨hrow, fun hle => Ordering.isLE_iff_ne_gt.1 hle.2 hgt⟩
    · rintro ⟨hrow, hnot⟩
      refine ⟨hrow, ?_⟩
      by_contra hgt
      exact hnot ⟨hrow, Keyset.isLE_of_not_gt hgt⟩

/-- A poll in an orderly run: nothing is new and nothing happens, or a page is delivered. -/
theorem poll_cases (h : Delivered localeCompare serviceId s) (limit : Option Int)
    (horderly : Orderly localeCompare serviceId s (.poll limit)) :
    (pollTail localeCompare serviceId s limit = s ∧ ∀ row ∈ s.rows serviceId, row ∈ s.delivered) ∨
      ∃ page last, Page localeCompare serviceId s page ∧ page.getLast? = some last ∧
        pollTail localeCompare serviceId s limit =
          { s with cursor := some (.written last.position), delivered := s.delivered ++ page } := by
  obtain ⟨page, hlist, hpage⟩ := list_page h limit horderly
  unfold pollTail
  rw [hlist]
  cases page with
  | nil =>
    refine .inl ⟨rfl, fun row hrow => ?_⟩
    by_contra hnew
    exact hpage.progress ⟨row, hrow, hnew⟩ rfl
  | cons row rows =>
    obtain ⟨last, hlast⟩ : ∃ last, (row :: rows).getLast? = some last := ⟨_, List.getLast?_cons⟩
    have hmem : last ∈ s.rows serviceId := ((hpage.upTo last hlast last).1 (List.mem_of_getLast? hlast)).1.1
    refine .inr ⟨row :: rows, last, hpage, hlast, ?_⟩
    dsimp only
    rw [(h.readable last hmem).cursor hlast]

omit [Std.LawfulEqCmp localeCompare] in
theorem Delivered.page {page : List RuntimeLog} {last : RuntimeLog} (h : Delivered localeCompare serviceId s)
    (hpage : Page localeCompare serviceId s page) (hlast : page.getLast? = some last) :
    Delivered localeCompare serviceId
      { s with cursor := some (.written last.position), delivered := s.delivered ++ page } := by
  have hmem := (hpage.upTo last hlast last).1 (List.mem_of_getLast? hlast)
  have hnew : ∀ row ∈ page, row ∉ s.delivered := fun row hrow => ((hpage.upTo last hlast row).1 hrow).1.2
  refine ⟨h.ids, h.readable, ?_, nofun, ?_⟩
  · refine List.nodup_append.2 ⟨h.nodup, hpage.nodup, ?_⟩
    rintro row hold _ hrow rfl
    exact hnew row hrow hold
  · rintro text ⟨⟩
    refine ⟨last, hmem.1.1, rfl, fun row => ?_⟩
    show row ∈ s.delivered ++ page ↔ row ∈ s.rows serviceId ∧ _
    rw [List.mem_append, hpage.upTo last hlast row]
    -- what was delivered before lies up to the old cursor, and so up to the new one
    have hbefore : row ∈ s.delivered → row ∈ s.rows serviceId ∧
        (compareKeyset localeCompare row.position last.position).isLE = true := by
      intro hrow
      cases hcursor : s.cursor with
      | none =>
        rw [h.started hcursor] at hrow
        cases hrow
      | some text =>
        obtain ⟨old, hold, -, hupTo⟩ := h.upTo text hcursor
        obtain ⟨hin, hle⟩ := (hupTo row).1 hrow
        refine ⟨hin, (Keyset.isLE_split (c := old.position) ?_).2 (.inl hle)⟩
        by_contra hgt
        exact hmem.1.2 ((hupTo last).2 ⟨hmem.1.1, Keyset.isLE_of_not_gt hgt⟩)
    by_cases hrow : row ∈ s.delivered
    · exact ⟨fun _ => hbefore hrow, fun _ => .inl hrow⟩
    · constructor
      · rintro (hold | ⟨⟨hin, -⟩, hle⟩)
        · exact absurd hold hrow
        · exact ⟨hin, hle⟩
      · rintro ⟨hin, hle⟩
        exact .inr ⟨⟨hin, hrow⟩, hle⟩

omit [Std.TransCmp localeCompare] [Std.LawfulEqCmp localeCompare] in
theorem rows_append (serviceId : String) (s : Tail) (row : RuntimeLog) :
    Tail.rows serviceId { s with runtimeLogs := s.runtimeLogs ++ [row] } =
      if row.serviceId = serviceId then s.rows serviceId ++ [row] else s.rows serviceId := by
  unfold Tail.rows
  rw [List.filter_append]
  by_cases hservice : row.serviceId = serviceId
  · simp [hservice]
  · simp [hservice]

omit [Std.TransCmp localeCompare] [Std.LawfulEqCmp localeCompare] in
theorem Delivered.append {row : RuntimeLog} (h : Delivered localeCompare serviceId s)
    (horderly : row.serviceId = serviceId →
      row.id ∉ (s.rows serviceId).map RuntimeLog.id ∧ Readable row ∧ Behind localeCompare s row) :
    Delivered localeCompare serviceId { s with runtimeLogs := s.runtimeLogs ++ [row] } := by
  have hrows := rows_append serviceId s row
  by_cases hservice : row.serviceId = serviceId
  · rw [if_pos hservice] at hrows
    obtain ⟨hid, hreadable, hbehind⟩ := horderly hservice
    refine ⟨?_, ?_, h.nodup, h.started, ?_⟩
    · rw [hrows, List.map_append, List.nodup_append]
      refine ⟨h.ids, List.nodup_singleton _, ?_⟩
      rintro id hold _ hnew rfl
      rw [List.map_singleton, List.mem_singleton] at hnew
      exact hid (hnew ▸ hold)
    · intro row' hrow'
      rw [hrows, List.mem_append, List.mem_singleton] at hrow'
      rcases hrow' with hold | rfl
      · exact h.readable row' hold
      · exact hreadable
    · intro text htext
      obtain ⟨last, hlast, rfl, hupTo⟩ := h.upTo text htext
      refine ⟨last, ?_, rfl, fun row' => ?_⟩
      · rw [hrows]
        exact List.mem_append_left _ hlast
      · rw [hrows, List.mem_append, List.mem_singleton]
        refine (hupTo row').trans ⟨fun hin => ⟨.inl hin.1, hin.2⟩, ?_⟩
        rintro ⟨hold | rfl, hle⟩
        · exact ⟨hold, hle⟩
        · exact absurd (hbehind last.position htext) (Ordering.isLE_iff_ne_gt.1 hle)
  · rw [if_neg hservice] at hrows
    refine ⟨?_, ?_, h.nodup, h.started, ?_⟩
    · rw [hrows]
      exact h.ids
    · rw [hrows]
      exact h.readable
    · rw [hrows]
      exact h.upTo

omit [Std.TransCmp localeCompare] [Std.LawfulEqCmp localeCompare] in
/-- An append: nothing where it throws, and otherwise one row. -/
theorem append_cases (s : Tail) (id line : String) (now : Int) (input : RuntimeLogInput) :
    appendTail s id line now input = s ∨ ∃ row, runtimeLogRow id line now input = .ok row ∧
      appendTail s id line now input = { s with runtimeLogs := s.runtimeLogs ++ [row] } := by
  unfold appendTail appendRuntimeLog
  cases hrow : runtimeLogRow id line now input with
  | error e => exact .inl rfl
  | ok row => exact .inr ⟨row, rfl, rfl⟩

/-! ### Runs -/

/-- The invariant is kept. -/
theorem Delivered.step {e : TailEvent} (h : Delivered localeCompare serviceId s)
    (hstep : OrderlyStep localeCompare serviceId s e t) : Delivered localeCompare serviceId t := by
  obtain ⟨horderly, rfl⟩ := hstep
  cases e with
  | append id line now input =>
    show Delivered localeCompare serviceId (appendTail s id line now input)
    rcases append_cases s id line now input with hsame | ⟨row, hrow, hnext⟩
    · rw [hsame]
      exact h
    · rw [hnext]
      exact h.append (horderly row hrow)
  | poll limit =>
    show Delivered localeCompare serviceId (pollTail localeCompare serviceId s limit)
    rcases poll_cases h limit horderly with ⟨hsame, -⟩ | ⟨page, last, hpage, hlast, hnext⟩
    · rw [hsame]
      exact h
    · rw [hnext]
      exact h.page hpage hlast

/-- The rows and what was delivered only grow; while a row waits, every poll delivers another one. -/
structure Grows (serviceId : String) (polls : Nat) (s t : Tail) : Prop where
  rows : s.rows serviceId ⊆ t.rows serviceId
  delivered : s.delivered ⊆ t.delivered
  count : (∃ row ∈ s.rows serviceId, row ∉ t.delivered) → s.delivered.length + polls ≤ t.delivered.length

omit [Std.TransCmp localeCompare] [Std.LawfulEqCmp localeCompare] in
theorem Grows.refl (s : Tail) : Grows serviceId 0 s s := ⟨fun _ hr => hr, fun _ hr => hr, fun _ => le_rfl⟩

omit [Std.TransCmp localeCompare] [Std.LawfulEqCmp localeCompare] in
theorem Grows.trans {u : Tail} {m n : Nat} (h : Grows serviceId m s t) (h' : Grows serviceId n t u) :
    Grows serviceId (m + n) s u := by
  refine ⟨fun _ hr => h'.rows (h.rows hr), fun _ hr => h'.delivered (h.delivered hr), ?_⟩
  rintro ⟨row, hrow, hnew⟩
  have hfirst := h.count ⟨row, hrow, fun hold => hnew (h'.delivered hold)⟩
  have hnext := h'.count ⟨row, h.rows hrow, hnew⟩
  omega

theorem Grows.step {e : TailEvent} (h : Delivered localeCompare serviceId s)
    (hstep : OrderlyStep localeCompare serviceId s e t) : Grows serviceId (if e.isPoll then 1 else 0) s t := by
  obtain ⟨horderly, rfl⟩ := hstep
  cases e with
  | append id line now input =>
    show Grows serviceId 0 s (appendTail s id line now input)
    rcases append_cases s id line now input with hsame | ⟨row, -, hnext⟩
    · rw [hsame]
      exact .refl s
    · rw [hnext]
      refine ⟨?_, fun _ hr => hr, fun _ => le_rfl⟩
      rw [rows_append]
      split
      · exact List.subset_append_left _ _
      · exact fun _ hr => hr
  | poll limit =>
    show Grows serviceId 1 s (pollTail localeCompare serviceId s limit)
    rcases poll_cases h limit horderly with ⟨hsame, hall⟩ | ⟨page, last, -, hlast, hnext⟩
    · rw [hsame]
      refine ⟨fun _ hr => hr, fun _ hr => hr, ?_⟩
      rintro ⟨row, hrow, hnew⟩
      exact absurd (hall row hrow) hnew
    · rw [hnext]
      refine ⟨fun _ hr => hr, List.subset_append_left _ _, fun _ => ?_⟩
      show s.delivered.length + 1 ≤ (s.delivered ++ page).length
      rw [List.length_append]
      have hpos := List.length_pos_of_mem (List.mem_of_getLast? hlast)
      omega

end Steps

section Runs

variable {localeCompare : String → String → Ordering} {serviceId : String} {s t : Tail} {es es' : List TailEvent}

theorem delivered_empty : Delivered localeCompare serviceId emptyTail where
  ids := List.nodup_nil
  readable := nofun
  nodup := List.nodup_nil
  started := fun _ => rfl
  upTo := nofun

variable [Std.TransCmp localeCompare] [Std.LawfulEqCmp localeCompare]

theorem delivered_run (h : Delivered localeCompare serviceId s)
    (hrun : Run (OrderlyStep localeCompare serviceId) s es t) : Delivered localeCompare serviceId t :=
  hrun.invariant (I := Delivered localeCompare serviceId) (fun _ _ _ h hstep => h.step hstep) h

theorem Grows.run (h : Delivered localeCompare serviceId s)
    (hrun : Run (OrderlyStep localeCompare serviceId) s es t) : Grows serviceId (es.countP TailEvent.isPoll) s t := by
  induction hrun with
  | nil => exact .refl s
  | snoc run last ih =>
    rw [List.countP_append, List.countP_singleton]
    exact ih.trans (.step (delivered_run h run) last)

omit [Std.TransCmp localeCompare] [Std.LawfulEqCmp localeCompare] in
theorem Delivered.subset (h : Delivered localeCompare serviceId s) : s.delivered ⊆ s.rows serviceId := by
  intro row hrow
  cases hcursor : s.cursor with
  | none =>
    rw [h.started hcursor] at hrow
    cases hrow
  | some text =>
    obtain ⟨last, -, -, hupTo⟩ := h.upTo text hcursor
    exact ((hupTo row).1 hrow).1

/-- **The live tail delivers every row exactly once.**  Of every run whose steps are orderly, no row is
delivered twice, only rows of the service are delivered, and every row that is there at some point has been
delivered as soon as the polls from there on are as many as the rows. -/
theorem live_tail_delivers (hrun : Run (OrderlyStep localeCompare serviceId) emptyTail es s)
    (hrest : Run (OrderlyStep localeCompare serviceId) s es' t) :
    (∀ row, t.delivered.count row ≤ 1) ∧ t.delivered ⊆ t.rows serviceId ∧
      ((t.rows serviceId).length ≤ es'.countP TailEvent.isPoll →
        ∀ row ∈ s.rows serviceId, t.delivered.count row = 1) := by
  have hs : Delivered localeCompare serviceId s := delivered_run delivered_empty hrun
  have ht : Delivered localeCompare serviceId t := delivered_run hs hrest
  have hgrows := Grows.run hs hrest
  refine ⟨fun row => List.nodup_iff_count_le_one.1 ht.nodup row, ht.subset, fun henough row hrow => ?_⟩
  refine List.count_eq_one_of_mem ht.nodup ?_
  by_contra hnew
  -- every poll since then delivered a row, and one row is left over
  have hcount := hgrows.count ⟨row, hrow, hnew⟩
  have hnodup : (row :: t.delivered).Nodup := List.nodup_cons.2 ⟨hnew, ht.nodup⟩
  have hsubset : row :: t.delivered ⊆ t.rows serviceId := List.cons_subset.2 ⟨hgrows.rows hrow, ht.subset⟩
  have hlength := (List.subperm_of_subset hnodup hsubset).length_le
  rw [List.length_cons] at hlength
  omega

end Runs

namespace Sample

def input : RuntimeLogInput := { serviceId := "svc", podUid := some "pod-1" }

def row (id line : String) : RuntimeLog := ⟨id, "svc", none, "local-pod", "pod-1", "app", line, "info", 5⟩

theorem row_of_input (id line : String) : runtimeLogRow id line 5 input = .ok (row id line) := by rfl

/-- One row, before and after the poll that delivers it. -/
def waiting : Tail := ⟨[row "rlog_b" "one"], none, []⟩

def seen : Tail := ⟨[row "rlog_b" "one"], some (.written ⟨5, "rlog_b"⟩), [row "rlog_b" "one"]⟩

theorem waiting_append : TailStep compare "svc" emptyTail (.append "rlog_b" "one" 5 input) waiting := by rfl

theorem seen_poll : TailStep compare "svc" waiting (.poll none) seen := by
  show seen = pollTail compare "svc" waiting none
  decide +kernel

/-- A second row behind the cursor, before and after the poll that delivers it. -/
def followed : Tail := { seen with runtimeLogs := [row "rlog_b" "one", row "rlog_c" "two"] }

def done : Tail :=
  { followed with cursor := some (.written ⟨5, "rlog_c"⟩), delivered := [row "rlog_b" "one", row "rlog_c" "two"] }

theorem append_orderly {s : Tail} {id line : String} (hid : id ∉ (s.rows "svc").map RuntimeLog.id)
    (hreadable : Readable (row id line)) (hbehind : Behind compare s (row id line)) :
    Orderly compare "svc" s (.append id line 5 input) := by
  intro other hother _
  obtain rfl : row id line = other := Except.ok.inj ((row_of_input _ _).symm.trans hother)
  exact ⟨hid, hreadable, hbehind⟩

/-- A poll of the empty log, the first row with its poll, and the second row. -/
theorem followed_run : Run (OrderlyStep compare "svc") emptyTail
    [.poll none, .append "rlog_b" "one" 5 input, .poll none, .append "rlog_c" "two" 5 input] followed := by
  have hempty : OrderlyStep compare "svc" emptyTail (.poll none) emptyTail := ⟨fun _ => by decide, rfl⟩
  have hfirst : OrderlyStep compare "svc" emptyTail (.append "rlog_b" "one" 5 input) waiting :=
    ⟨append_orderly (by decide) (by constructor <;> decide +kernel) nofun, waiting_append⟩
  have hpoll : OrderlyStep compare "svc" waiting (.poll none) seen := ⟨fun _ => by decide, seen_poll⟩
  have hbehind : Behind compare seen (row "rlog_c" "two") := by
    rintro cursor ⟨⟩
    decide +kernel
  have hsecond : OrderlyStep compare "svc" seen (.append "rlog_c" "two" 5 input) followed :=
    ⟨append_orderly (by decide) (by constructor <;> decide +kernel) hbehind, rfl⟩
  exact (((Run.single hempty).append (.single hfirst)).append (.single hpoll)).append (.single hsecond)

theorem done_run : Run (OrderlyStep compare "svc") followed [.poll none, .poll none] done := by
  have hpoll : TailStep compare "svc" followed (.poll none) done := by
    show done = pollTail compare "svc" followed none
    decide +kernel
  have hagain : TailStep compare "svc" done (.poll none) done := by
    show done = pollTail compare "svc" done none
    decide +kernel
  exact (Run.single ⟨nofun, hpoll⟩).append (.single ⟨nofun, hagain⟩)

/-- A second row of the millisecond, with the smaller id. -/
def overtaken : Tail := { seen with runtimeLogs := [row "rlog_b" "one", row "rlog_a" "two"] }

theorem overtaken_poll (limit : Option Int) : pollTail compare "svc" overtaken limit = overtaken := by
  have hdecode : decodeKeysetCursor (.written ⟨5, "rlog_b"⟩) = .ok ⟨5, "rlog_b"⟩ := by rfl
  have hnone : Keyset.after RuntimeLog.position (compareKeyset compare) ⟨5, "rlog_b"⟩ (overtaken.rows "svc") = [] := by
    rfl
  unfold pollTail
  rw [show overtaken.cursor = some (.written ⟨5, "rlog_b"⟩) from rfl, list_behind hdecode, hnone]
  rw [show Keyset.inOrder RuntimeLog.position (compareKeyset compare) [] = [] from rfl, List.take_nil]

end Sample

/-- Both rows are delivered, the second from behind a cursor. -/
theorem live_tail_delivers_row : Sample.done.delivered.count (Sample.row "rlog_b" "one") = 1 ∧
    Sample.done.delivered.count (Sample.row "rlog_c" "two") = 1 := by
  have hdelivered := (live_tail_delivers Sample.followed_run Sample.done_run).2.2 (by decide)
  exact ⟨hdelivered _ (by decide), hdelivered _ (by decide)⟩

/-- A row of the cursor's millisecond whose id sorts before the cursor is not delivered by any number of polls. -/
theorem same_millisecond_row_lost :
    ∃ s, Run (TailStep compare "svc") emptyTail
        [.poll none, .append "rlog_b" "one" 5 Sample.input, .poll none, .append "rlog_a" "two" 5 Sample.input] s ∧
      Sample.row "rlog_a" "two" ∈ s.rows "svc" ∧
      ∀ es t, (∀ e ∈ es, e.isPoll = true) → Run (TailStep compare "svc") s es t →
        Sample.row "rlog_a" "two" ∉ t.delivered := by
  have hseen := ((Run.single rfl : Run (TailStep compare "svc") emptyTail [.poll none] emptyTail).append
    (.single Sample.waiting_append)).append (.single Sample.seen_poll)
  have hovertaken : Run (TailStep compare "svc") Sample.seen [.append "rlog_a" "two" 5 Sample.input]
      Sample.overtaken := .single (by rfl)
  refine ⟨Sample.overtaken, hseen.append hovertaken, by decide, fun es t hpolls hrun => ?_⟩
  have hsame : t = Sample.overtaken := by
    induction hrun with
    | nil => rfl
    | @snoc es t u e run last ih =>
      obtain rfl := ih fun e' he' => hpolls e' (List.mem_append_left _ he')
      have hpoll := hpolls e (List.mem_append_right _ (List.mem_singleton.2 rfl))
      cases e with
      | append => cases hpoll
      | poll limit => exact last.trans (Sample.overtaken_poll limit)
  rw [hsame]
  decide

end RaibitServer.LogTail
