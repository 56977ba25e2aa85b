import RaibitServer.Lib.Register
import RaibitServer.Preview.Contract

/-!
# Preview.Convergence — a lineage does not depend on the order of its events

Webhooks arrive late, twice and out of order.  Seen as a register, a lineage keeps the content of the
latest event and is contested while it is ambiguous (`transition_register`), so the register's reading of a
set of events carries over.

* `preview_events_converge`: the same valid events, in any order and with any repetitions, lead to the same
  time and state, which are those of the latest events; versions count the decisions that change something.
-/

namespace RaibitServer.Preview

open Lib

/-- The lineage after a list of events, from none. -/
def foldEvents (sha256 : Label.Hash) (identity : PreviewIdentity) (id : String)
    (events : List PreviewWebhook) : Option PreviewLineageRecord :=
  events.foldl (fun current event => some (transitionPreviewLineage sha256 current event identity id).lineage)
    none

/-- An event at the largest time of a list. -/
def LatestEvent (events : List PreviewWebhook) (event : PreviewWebhook) : Prop :=
  event ∈ events ∧ ∀ other ∈ events, other.updatedAt.millis ≤ event.updatedAt.millis

/-- The state an event asks for. -/
def PreviewAction.state : PreviewAction → LineageState
  | .closed => .closed
  | .opened | .synchronize | .reopened => .isOpen

/-- A step moves the version exactly if it decides something, and the generation never back. -/
def Counts (current : Option PreviewLineageRecord) (transition : PreviewTransition) : Prop :=
  transition.lineage.version = (current.map (·.version)).getD 0 +
      (if transition.decision ∈ [Decision.opens, .closes, .ambiguous] then 1 else 0) ∧
    (current.map (·.generation)).getD 0 ≤ transition.lineage.generation

section

variable {sha256 : Label.Hash} {identity : PreviewIdentity} {id : String}

theorem transition_counts (current : Option PreviewLineageRecord) (event : PreviewWebhook) :
    Counts current (transitionPreviewLineage sha256 current event identity id) := by
  have hadvance : Counts current (advance sha256 current event identity id) := by
    unfold Counts advance nextLineage
    by_cases hclosed : event.action = .closed
    · simp [hclosed]
    · simp [hclosed]
  cases current with
  | none => exact hadvance
  | some lineage =>
    unfold transitionPreviewLineage
    dsimp only
    split_ifs
    · exact ⟨rfl, le_refl _⟩
    · unfold sameTime
      dsimp only
      split_ifs
      · exact ⟨rfl, le_refl _⟩
      · exact ⟨rfl, le_refl _⟩
      · exact ⟨rfl, le_refl _⟩
    · exact hadvance

/-! ### The register of a lineage -/

def PreviewLineageRecord.register (lineage : PreviewLineageRecord) : Register Int Content :=
  ⟨lineage.eventUpdatedAt.millis, lineage.content, lineage.state = .ambiguous⟩

def PreviewWebhook.stamped (event : PreviewWebhook) : Int × Content := (event.updatedAt.millis, event.content)

/-- What a lineage took over from an event. -/
structure Follows (lineage : PreviewLineageRecord) (event : PreviewWebhook) : Prop where
  content : lineage.content = event.content
  state : lineage.state = .ambiguous ∨ lineage.state = event.action.state

theorem nextLineage_register (current : Option PreviewLineageRecord) (event : PreviewWebhook) :
    (nextLineage sha256 current event identity id).register =
      ⟨event.updatedAt.millis, event.content, false⟩ := by
  unfold PreviewLineageRecord.register nextLineage
  dsimp only
  split_ifs <;> rfl

theorem nextLineage_follows (current : Option PreviewLineageRecord) (event : PreviewWebhook) :
    Follows (nextLineage sha256 current event identity id) event := by
  refine ⟨rfl, .inr ?_⟩
  unfold nextLineage
  cases event.action <;> rfl

variable {event : PreviewWebhook} {lineage : PreviewLineageRecord}

/-- **A lineage is a register of the contents of its events.** -/
theorem transition_register {source : PreviewWebhook} (hsource : Separable source) (hevent : Separable event)
    (h : Follows lineage source) :
    (transitionPreviewLineage sha256 (some lineage) event identity id).lineage.register =
      Register.feed (some lineage.register) event.stamped := by
  unfold transitionPreviewLineage
  dsimp only
  rcases lt_trichotomy event.updatedAt.millis lineage.eventUpdatedAt.millis with hlt | heq | hgt
  · rw [if_pos hlt, Register.feed_lt (r := lineage.register) (x := event.stamped) hlt]
  · rw [if_neg (not_lt_of_ge (le_of_eq heq.symm)), if_pos heq]
    by_cases hsame : lineage.content = event.content
    · rw [show sameTime lineage event = _ from if_pos (congrArg Content.key hsame),
        Register.feed_same (r := lineage.register) (x := event.stamped) heq hsame]
    · have hkey : lineage.content.key ≠ event.content.key := by
        rw [h.content] at hsame ⊢
        exact fun hkey => hsame ((key_eq_iff hsource hevent).1 hkey)
      rw [show sameTime lineage event = _ from if_neg hkey,
        Register.feed_clash (r := lineage.register) (x := event.stamped) heq hsame]
      split_ifs with hambiguous
      · unfold PreviewLineageRecord.register
        rw [hambiguous]
        rfl
      · rfl
  · rw [if_neg (not_lt_of_ge (le_of_lt hgt)), if_neg (ne_of_gt hgt),
      Register.feed_gt (r := lineage.register) (x := event.stamped) hgt]
    exact nextLineage_register (some lineage) event

/-- The source of a lineage after a step is the old one or the new event. -/
theorem transition_follows {source : PreviewWebhook} (event : PreviewWebhook) (h : Follows lineage source) :
    ∃ e, (e = source ∨ e = event) ∧
      Follows (transitionPreviewLineage sha256 (some lineage) event identity id).lineage e := by
  unfold transitionPreviewLineage
  dsimp only
  split_ifs
  · exact ⟨source, .inl rfl, h⟩
  · refine ⟨source, .inl rfl, ?_⟩
    unfold sameTime
    dsimp only
    split_ifs
    · exact h
    · exact h
    · exact ⟨h.content, .inl rfl⟩
  · exact ⟨event, .inr rfl, nextLineage_follows (some lineage) event⟩

theorem foldEvents_concat (events : List PreviewWebhook) (event : PreviewWebhook) :
    foldEvents sha256 identity id (events ++ [event]) =
      some (transitionPreviewLineage sha256 (foldEvents sha256 identity id events) event identity id).lineage := by
  unfold foldEvents
  rw [List.foldl_append]
  rfl

variable (sha256 identity id) in
/-- The lineage of a list of events reads what its register reads. -/
theorem foldEvents_register {events : List PreviewWebhook} (hvalid : ∀ e ∈ events, Separable e) :
    (foldEvents sha256 identity id events).map PreviewLineageRecord.register =
        Register.feedAll (events.map PreviewWebhook.stamped) ∧
      ∀ lineage, foldEvents sha256 identity id events = some lineage → ∃ e ∈ events, Follows lineage e := by
  induction events using List.reverseRecOn with
  | nil => exact ⟨rfl, fun lineage h => by cases h⟩
  | append_singleton events event ih =>
    obtain ⟨hregister, hfollows⟩ := ih fun e he => hvalid e (List.mem_append_left _ he)
    have hevent := hvalid event (List.mem_append_right _ (List.mem_singleton_self event))
    rw [foldEvents_concat, List.map_append, Register.feedAll, List.foldl_append]
    change _ = some (Register.feed (Register.feedAll (events.map PreviewWebhook.stamped)) event.stamped) ∧ _
    rw [← hregister]
    cases hfold : foldEvents sha256 identity id events with
    | none =>
      refine ⟨congrArg some (nextLineage_register none event), fun lineage h => ?_⟩
      obtain rfl := Option.some.inj h
      exact ⟨event, by simp, nextLineage_follows none event⟩
    | some lineage =>
      obtain ⟨source, hsource, h⟩ := hfollows lineage hfold
      refine ⟨congrArg some (transition_register (hvalid source (List.mem_append_left _ hsource)) hevent h),
        fun lineage' h' => ?_⟩
      obtain rfl := Option.some.inj h'
      obtain ⟨e, he, hfollow⟩ := transition_follows event h
      refine ⟨e, ?_, hfollow⟩
      rcases he with rfl | rfl
      · exact List.mem_append_left _ hsource
      · simp

end

/-! ### Convergence -/

theorem latest_stamped {events : List PreviewWebhook} {x : Int × Content} :
    Register.Latest (events.map PreviewWebhook.stamped) x ↔
      ∃ e, LatestEvent events e ∧ e.stamped = x := by
  constructor
  · rintro ⟨hx, hle⟩
    obtain ⟨e, he, rfl⟩ := List.mem_map.1 hx
    exact ⟨e, ⟨he, fun f hf => hle f.stamped (List.mem_map_of_mem hf)⟩, rfl⟩
  · rintro ⟨e, ⟨he, hle⟩, rfl⟩
    refine ⟨List.mem_map_of_mem he, fun y hy => ?_⟩
    obtain ⟨f, hf, rfl⟩ := List.mem_map.1 hy
    exact hle f hf

/-- What a lineage says of the events it was folded from. -/
structure ReadsEvents (events : List PreviewWebhook) (lineage : PreviewLineageRecord) : Prop where
  ambiguous : lineage.state = .ambiguous ↔
    ∃ e f, LatestEvent events e ∧ LatestEvent events f ∧ e.content ≠ f.content
  time : ∀ e, LatestEvent events e → lineage.eventUpdatedAt.millis = e.updatedAt.millis
  latest : lineage.state ≠ .ambiguous → ∀ e, LatestEvent events e →
    lineage.state = e.action.state ∧ lineage.eventAction = e.action.text ∧ lineage.headSha = e.headSha ∧
      lineage.headRef = e.headRef ∧ lineage.baseRef = e.baseRef ∧ lineage.beforeSha = e.beforeSha

theorem action_of_text {a b : PreviewAction} (h : a.text = b.text) : a = b := by
  cases a <;> cases b <;> first | rfl | exact absurd h (by decide)

theorem foldEvents_reads (sha256 : Label.Hash) (identity : PreviewIdentity) (id : String)
    {events : List PreviewWebhook} (hvalid : ∀ e ∈ events, ValidEvent e) (hne : events ≠ []) :
    ∃ lineage, foldEvents sha256 identity id events = some lineage ∧
      Register.Reads (events.map PreviewWebhook.stamped) lineage.register ∧ ReadsEvents events lineage := by
  obtain ⟨hregister, hfollows⟩ := foldEvents_register sha256 identity id
    fun e he => (hvalid e he).separable
  obtain ⟨r, hr, hreads⟩ := Register.feedAll_reads (l := events.map PreviewWebhook.stamped) (by simpa using hne)
  rw [hr] at hregister
  obtain ⟨lineage, hfold, rfl⟩ := Option.map_eq_some_iff.1 hregister
  obtain ⟨source, -, hsource⟩ := hfollows lineage hfold
  have hambiguous : lineage.state = .ambiguous ↔
      ∃ e f, LatestEvent events e ∧ LatestEvent events f ∧ e.content ≠ f.content := by
    have hiff : lineage.register.contested = true ↔ lineage.state = .ambiguous := decide_eq_true_iff
    rw [← hiff, hreads.contested_iff]
    simp only [latest_stamped]
    constructor
    · rintro ⟨-, -, ⟨e, he, rfl⟩, ⟨f, hf, rfl⟩, hcontent⟩
      exact ⟨e, f, he, hf, hcontent⟩
    · rintro ⟨e, f, he, hf, hcontent⟩
      exact ⟨_, _, ⟨e, he, rfl⟩, ⟨f, hf, rfl⟩, hcontent⟩
  obtain ⟨g, hg, hstamp⟩ := latest_stamped.1 hreads.latest
  obtain ⟨hmillis, hcontent⟩ := Prod.mk.inj hstamp
  refine ⟨lineage, hfold, hreads, hambiguous, fun e he => ?_, fun hstate e he => ?_⟩
  · exact hmillis.symm.trans (le_antisymm (he.2 g hg.1) (hg.2 e he.1))
  · have hsame : e.content = lineage.content := by
      by_contra hne
      exact hstate (hambiguous.2 ⟨e, g, he, hg, fun h => hne (h.trans hcontent)⟩)
    have haction : source.action = e.action :=
      action_of_text (congrArg Content.action (hsource.content.symm.trans hsame.symm))
    refine ⟨haction ▸ hsource.state.resolve_left hstate, ?_⟩
    exact ⟨congrArg Content.action hsame.symm, congrArg Content.headSha hsame.symm,
      congrArg Content.headRef hsame.symm, congrArg Content.baseRef hsame.symm,
      congrArg Content.beforeSha hsame.symm⟩

/-- **The order of preview events does not matter**: lists with the same valid events lead to the same time
and state, those of the latest events, and every step counts versions and generations. -/
theorem preview_events_converge (sha256 : Label.Hash) (identity : PreviewIdentity) (id : String)
    (events events' : List PreviewWebhook) (hvalid : ∀ e ∈ events, ValidEvent e)
    (hsame : ∀ e, e ∈ events ↔ e ∈ events') :
    ((foldEvents sha256 identity id events').map fun l => (l.eventUpdatedAt.millis, l.state)) =
        ((foldEvents sha256 identity id events).map fun l => (l.eventUpdatedAt.millis, l.state)) ∧
      (events ≠ [] → ∃ lineage, foldEvents sha256 identity id events = some lineage ∧
        ReadsEvents events lineage) ∧
      ∀ before event later, events = before ++ event :: later →
        Counts (foldEvents sha256 identity id before)
          (transitionPreviewLineage sha256 (foldEvents sha256 identity id before) event identity id) := by
  refine ⟨?_, fun hne => ?_, fun before event later _ => transition_counts _ event⟩
  · by_cases hnil : events = []
    · have hnil' : events' = [] := List.eq_nil_iff_forall_not_mem.2 fun e he => by
        have hmem := (hsame e).2 he
        rw [hnil] at hmem
        cases hmem
      rw [hnil, hnil']
    · have hnil' : events' ≠ [] := fun h => by
        obtain ⟨e, he⟩ := List.exists_mem_of_ne_nil events hnil
        have hmem := (hsame e).1 he
        rw [h] at hmem
        cases hmem
      obtain ⟨lineage, hfold, hreads, hevents⟩ := foldEvents_reads sha256 identity id hvalid hnil
      obtain ⟨lineage', hfold', hreads', hevents'⟩ := foldEvents_reads sha256 identity id
        (fun e he => hvalid e ((hsame e).2 he)) hnil'
      have hmem : ∀ x, x ∈ events'.map PreviewWebhook.stamped ↔ x ∈ events.map PreviewWebhook.stamped := by
        intro x
        simp only [List.mem_map, hsame]
      obtain ⟨hstamp, hcontested⟩ := hreads'.agree hreads hmem
      have hambiguous : lineage'.state = .ambiguous ↔ lineage.state = .ambiguous := decide_eq_decide.1 hcontested
      have hstate : lineage'.state = lineage.state := by
        by_cases hstate : lineage.state = .ambiguous
        · rw [hstate, hambiguous.2 hstate]
        · obtain ⟨e, he, -⟩ := latest_stamped.1 hreads.latest
          have he' : LatestEvent events' e := ⟨(hsame e).1 he.1, fun f hf => he.2 f ((hsame f).2 hf)⟩
          rw [(hevents.latest hstate e he).1, (hevents'.latest (fun h => hstate (hambiguous.1 h)) e he').1]
      rw [hfold, hfold', Option.map_some, Option.map_some, hstate]
      exact congrArg (fun t => some (t, lineage.state)) hstamp
  · obtain ⟨lineage, hfold, -, hevents⟩ := foldEvents_reads sha256 identity id hvalid hne
    exact ⟨lineage, hfold, hevents⟩

namespace Reordered

/-- A payload of pull request 7, as the checks read it. -/
def payload (action sha time : String) (before : Json) : Json :=
  .obj [("deliveryId", .str "0b1c2d3e-4f50-4a61-8b72-9c83ad94be05"), ("installationId", .str "31"),
    ("repositoryId", .str "77"), ("repository", .str "octo/shop"), ("pullRequestNumber", .num 7),
    ("action", .str action), ("headSha", .str sha), ("headRef", .str "feature"), ("baseRef", .str "main"),
    ("beforeSha", before), ("updatedAt", .str time)]

def sha : String := "0123456789abcdef0123456789abcdef01234567"

def opened : PreviewWebhook :=
  ⟨"31", "77", "octo/shop", 7, .opened, sha, "feature", "main", none, ⟨"2024-05-01T10:00:00Z", 1714557600000⟩⟩

def closed : PreviewWebhook :=
  ⟨"31", "77", "octo/shop", 7, .closed, sha, "feature", "main", none, ⟨"2024-05-01T11:00:00Z", 1714561200000⟩⟩

theorem opened_valid : ValidEvent opened :=
  ⟨payload "opened" sha "2024-05-01T10:00:00Z" .null, "0b1c2d3e-4f50-4a61-8b72-9c83ad94be05", by decide +kernel⟩

theorem closed_valid : ValidEvent closed :=
  ⟨payload "closed" sha "2024-05-01T11:00:00Z" .null, "0b1c2d3e-4f50-4a61-8b72-9c83ad94be05", by decide +kernel⟩

def digest : Label.Hash := .repeated fun _ => 0

def identity : PreviewIdentity := ⟨"org", "shop", "web", "github", none⟩

end Reordered

open Reordered in
/-- The closing of a pull request overtakes its opening, which is then delivered twice. -/
theorem preview_events_converge_reordered :
    ((foldEvents digest identity "l" [closed, opened, opened]).map
        fun l => (l.eventUpdatedAt.millis, l.state)) =
      ((foldEvents digest identity "l" [opened, closed]).map
        fun l => (l.eventUpdatedAt.millis, l.state)) := by
  have hvalid : ∀ e ∈ [opened, closed], ValidEvent e := by
    intro e he
    simp only [List.mem_cons, List.not_mem_nil, or_false] at he
    rcases he with rfl | rfl
    · exact opened_valid
    · exact closed_valid
  have hsame : ∀ e, e ∈ [opened, closed] ↔
      e ∈ [closed, opened, opened] := by
    intro e
    simp only [List.mem_cons, List.not_mem_nil, or_false, or_self]
    exact or_comm
  exact (preview_events_converge digest identity "l" _ _ hvalid hsame).1

end RaibitServer.Preview
