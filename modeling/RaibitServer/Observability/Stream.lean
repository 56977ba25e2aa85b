import RaibitServer.Lib.Run
import RaibitServer.Lib.Text

/-!
# Observability.Stream — event streams under backpressure

`startBoundedSseStream` of `sse.ts`.  A stream writes a retry frame and the initial payload and then polls for what
comes after the cursor of the last payload it has written.  Timers, loads, drains and disconnects may come in any
order; a response may be full behind any write, or throw.

Payloads are those the stream writes: what `initialPayload` and `load` give, after the projection where there is one.
One list of rows is followed in them, by the name of its member and that of its cursor, with `position` for the
place a cursor text stands for.

A stream that starts at the beginning of its list writes each row once and in order, whatever happens.  One that
starts behind a resume cursor loses that cursor if the response is already full behind the retry frame
(`resumed_stream_repeats_rows`), and only then (`stream_delivers_in_order`).
-/

namespace RaibitServer.Observability.Sse

open Lib

variable {ρ : Type}

/-! ### Payloads -/

inductive Value (ρ : Type)
  | rows (items : List ρ)
  | text (value : String)
  | null
  | undefined
  | other

abbrev Payload (ρ : Type) := List (String × Value ρ)

def isCursorKey (key : String) : Bool := Text.endsWith key "Cursor"

def cursorValues (payload : Payload ρ) : List (String × String) :=
  payload.filterMap fun member =>
    match member.2 with
    | .text value => if isCursorKey member.1 && value ≠ "" then some (member.1, value) else none
    | _ => none

def hasDelta (payload : Payload ρ) : Bool :=
  payload.any fun member =>
    if member.1 = "stream" || isCursorKey member.1 then false
    else
      match member.2 with
      | .rows items => !items.isEmpty
      | .null => false
      | .undefined => false
      | _ => true

/-! ### The stream -/

inductive EventName
  | snapshot
  | delta
  | error
  | ended
  deriving DecidableEq, Repr

inductive Frame (ρ : Type)
  | retry
  | keepalive
  | event (name : EventName) (payload : Payload ρ)

/-- What `res.write` does: it takes the frame, takes it and is full then, or throws. -/
inductive Outcome
  | accepted
  | full
  | throws
  deriving DecidableEq, Repr

/-- The variables of the stream, and what is seen of it: the cursors of the loads in flight, the frames that
`res.write` has taken, whether the response was ended, and the calls of `onClose`.  Of `cursors`, the first entry
for a name counts.  `timers` stands for the two intervals, the lifetime and the listeners for a disconnect, which
are set and cleared together. -/
structure Stream (ρ : Type) where
  cursors : List (String × String) := []
  polling : Bool := false
  closed : Bool := false
  backpressured : Bool := false
  drainListener : Bool := false
  slowClientTimer : Bool := false
  timers : Bool := false
  inFlight : List (List (String × String)) := []
  frames : List (Frame ρ) := []
  responseEnded : Bool := false
  onCloses : Nat := 0

def stop (endResponse : Bool) (s : Stream ρ) : Stream ρ :=
  if s.closed then s
  else { s with
    closed := true, timers := false, slowClientTimer := false, drainListener := false,
    responseEnded := s.responseEnded || endResponse, onCloses := s.onCloses + 1 }

/-- `once` tells whether `res.once` is a function. -/
def waitForDrain (once : Bool) (s : Stream ρ) : Stream ρ :=
  if s.closed || s.backpressured then s
  else if once then { s with backpressured := true, drainListener := true, slowClientTimer := true }
  else stop true { s with backpressured := true }

def writeFrame (once : Bool) (frame : Frame ρ) (outcome : Outcome) (s : Stream ρ) : Bool × Stream ρ :=
  if s.closed || s.backpressured then (false, s)
  else
    match outcome with
    | .throws => (false, stop true s)
    | .accepted => (true, { s with frames := s.frames ++ [frame] })
    | .full => (true, waitForDrain once { s with frames := s.frames ++ [frame] })

/-- `writeEvent` where `eventId` does not throw, and `Object.assign(cursors, cursorValues(payload))` if it wrote. -/
def writePayload (once : Bool) (name : EventName) (payload : Payload ρ) (outcome : Outcome) (s : Stream ρ) : Stream ρ :=
  let written := writeFrame once (.event name payload) outcome s
  if written.1 then { written.2 with cursors := cursorValues payload ++ written.2.cursors } else written.2

/-- What the stream is opened with: whether `prepareResponse` and the id of the first event throw, and what becomes
of the first two writes. -/
structure Opening (ρ : Type) where
  initial : Payload ρ
  prepareThrows : Bool := false
  retry : Outcome := .accepted
  eventThrows : Bool := false
  first : Outcome := .accepted

def setup (once : Bool) (opening : Opening ρ) : Stream ρ :=
  if opening.prepareThrows then stop true {}
  else
    let s := (writeFrame once .retry opening.retry {}).2
    if opening.eventThrows then stop true s
    else
      let s := writePayload once .snapshot opening.initial opening.first s
      if s.closed then s else { s with timers := true }

def poll (s : Stream ρ) : Stream ρ :=
  if s.closed || s.polling || s.backpressured then s
  else { s with polling := true, inFlight := s.inFlight ++ [s.cursors] }

def errorPayload : Payload ρ := [("error", .text "stream update unavailable")]

/-- The `catch` of `poll`, for an error that is terminal or not. -/
def pollFailed (once terminal : Bool) (outcome : Outcome) (s : Stream ρ) : Stream ρ :=
  let s := (writeFrame once (.event .error errorPayload) outcome s).2
  if terminal then stop true s else s

/-- The rest of `poll`, when the load has settled: `none` if it failed; `eventThrows` has an error of `eventId`,
terminal or not. -/
def pollSettled (once : Bool) (loaded : Option (Payload ρ)) (eventThrows : Option Bool) (terminal : Bool)
    (outcome : Outcome) (s : Stream ρ) : Stream ρ :=
  match loaded with
  | none => pollFailed once terminal outcome s
  | some payload =>
    if hasDelta payload then
      match eventThrows with
      | some terminal => pollFailed once terminal outcome s
      | none => writePayload once .delta payload outcome s
    else s

def lifetimeEnd (once : Bool) (outcome : Outcome) (s : Stream ρ) : Stream ρ :=
  stop true (writeFrame once (.event .ended [("reason", .text "max_lifetime")]) outcome s).2

def onDrain (s : Stream ρ) : Stream ρ :=
  if s.closed then s else { s with backpressured := false, drainListener := false, slowClientTimer := false }

def slowClient (s : Stream ρ) : Stream ρ := stop true { s with drainListener := false }

/-! ### Streams over a growing list -/

inductive Event (ρ : Type)
  | append (rows : List ρ)
  | poll
  | settled (index : Nat) (loaded : Option (Payload ρ)) (eventThrows : Option Bool) (terminal : Bool) (outcome : Outcome)
  | heartbeat (outcome : Outcome)
  | lifetime (outcome : Outcome)
  | drain
  | slowClient
  | disconnect
  | stop (endResponse : Bool)

structure System (ρ : Type) where
  stream : Stream ρ
  list : List ρ

/-- The member of a payload that holds the rows, that of their cursor, and the number of rows before the place that
a cursor stands for. -/
structure Feed where
  rows : String
  cursor : String
  position : String → Nat

def Feed.place (feed : Feed) (cursors : List (String × String)) : Nat :=
  match cursors.lookup feed.cursor with
  | none => 0
  | some text => feed.position text

def Feed.rowsOf (feed : Feed) (payload : Payload ρ) : List ρ :=
  match payload.lookup feed.rows with
  | some (.rows items) => items
  | _ => []

def Feed.cursorOf (feed : Feed) (payload : Payload ρ) : Option String := (cursorValues payload).lookup feed.cursor

/-- A payload with some of the rows behind a place and the cursor of the last of them. -/
def Feed.Follows (feed : Feed) (list : List ρ) (place : Nat) (payload : Payload ρ) : Prop :=
  feed.rowsOf payload <+: list.drop place ∧
    ∀ text, feed.cursorOf payload = some text → feed.position text = place + (feed.rowsOf payload).length

/-- `load`: without a row, it may give no cursor. -/
def Feed.Loads (feed : Feed) (list : List ρ) (cursors : List (String × String)) (payload : Payload ρ) : Prop :=
  feed.Follows list (feed.place cursors) payload ∧ (feed.cursorOf payload = none → feed.rowsOf payload = [])

/-- The initial payload: rows behind the first `start`, and a cursor unless there is nothing before it. -/
def Feed.Opens (feed : Feed) (list : List ρ) (start : Nat) (payload : Payload ρ) : Prop :=
  feed.Follows list start payload ∧ (feed.cursorOf payload = none → start = 0 ∧ feed.rowsOf payload = [])

/-- What may come: timers while they are set, a drain while it is listened for, loads that are in flight. -/
def Enabled (feed : Feed) (sys : System ρ) : Event ρ → Prop
  | .append _ => True
  | .poll => sys.stream.timers = true
  | .settled index loaded _ _ _ => ∃ cursors, sys.stream.inFlight[index]? = some cursors ∧
      ∀ payload ∈ loaded, feed.Loads sys.list cursors payload
  | .heartbeat _ => sys.stream.timers = true
  | .lifetime _ => sys.stream.timers = true
  | .drain => sys.stream.drainListener = true
  | .slowClient => sys.stream.slowClientTimer = true
  | .disconnect => sys.stream.timers = true
  | .stop _ => True

def next (once : Bool) (sys : System ρ) : Event ρ → System ρ
  | .append rows => { sys with list := sys.list ++ rows }
  | .poll => { sys with stream := poll sys.stream }
  | .settled index loaded eventThrows terminal outcome =>
    { sys with stream := { pollSettled once loaded eventThrows terminal outcome sys.stream with
        polling := false, inFlight := sys.stream.inFlight.eraseIdx index } }
  | .heartbeat outcome => { sys with stream := (writeFrame once .keepalive outcome sys.stream).2 }
  | .lifetime outcome => { sys with stream := lifetimeEnd once outcome sys.stream }
  | .drain => { sys with stream := onDrain sys.stream }
  | .slowClient => { sys with stream := slowClient sys.stream }
  | .disconnect => { sys with stream := stop false sys.stream }
  | .stop endResponse => { sys with stream := stop endResponse sys.stream }

def Step (once : Bool) (feed : Feed) (sys : System ρ) (e : Event ρ) (sys' : System ρ) : Prop :=
  Enabled feed sys e ∧ sys' = next once sys e

/-- The rows in the data frames that the response has taken. -/
def Frame.rows (feed : Feed) : Frame ρ → List ρ
  | .event _ payload => feed.rowsOf payload
  | _ => []

def delivered (feed : Feed) (s : Stream ρ) : List ρ := s.frames.flatMap (Frame.rows feed)

/-! ### What writes and stops leave alone -/

def Closes (s : Stream ρ) : Prop := s.onCloses = if s.closed then 1 else 0

/-- What holds of every write and every stop. -/
structure Kept (s s' : Stream ρ) : Prop where
  cursors : s'.cursors = s.cursors
  polling : s'.polling = s.polling
  inFlight : s'.inFlight = s.inFlight
  stopped : s.closed = true → s'.closed = true ∧ s'.frames = s.frames
  closes : Closes s → Closes s'

theorem Kept.trans {s t u : Stream ρ} (h : Kept s t) (h' : Kept t u) : Kept s u where
  cursors := h'.cursors.trans h.cursors
  polling := h'.polling.trans h.polling
  inFlight := h'.inFlight.trans h.inFlight
  stopped hs := ⟨(h'.stopped (h.stopped hs).1).1, (h'.stopped (h.stopped hs).1).2.trans (h.stopped hs).2⟩
  closes hs := h'.closes (h.closes hs)

theorem Kept.refl (s : Stream ρ) : Kept s s := ⟨rfl, rfl, rfl, fun h => ⟨h, rfl⟩, id⟩

theorem stop_kept (endResponse : Bool) (s : Stream ρ) : Kept s (stop endResponse s) := by
  unfold stop
  by_cases h : s.closed = true
  · rw [if_pos h]
    exact Kept.refl s
  · rw [if_neg h]
    refine ⟨rfl, rfl, rfl, fun hs => absurd hs h, fun hs => ?_⟩
    unfold Closes at hs ⊢
    rw [if_neg h] at hs
    simp [hs]

theorem stop_frames (endResponse : Bool) (s : Stream ρ) : (stop endResponse s).frames = s.frames := by
  unfold stop
  split <;> rfl

theorem waitForDrain_kept (once : Bool) (s : Stream ρ) : Kept s (waitForDrain once s) := by
  unfold waitForDrain
  by_cases h : (s.closed || s.backpressured) = true
  · rw [if_pos h]
    exact Kept.refl s
  · rw [if_neg h]
    cases once with
    | true => exact ⟨rfl, rfl, rfl, fun hs => ⟨hs, rfl⟩, id⟩
    | false =>
      have hset : Kept s { s with backpressured := true } := ⟨rfl, rfl, rfl, fun hs => ⟨hs, rfl⟩, id⟩
      exact hset.trans (stop_kept true _)

theorem waitForDrain_frames (once : Bool) (s : Stream ρ) : (waitForDrain once s).frames = s.frames := by
  unfold waitForDrain
  split
  · rfl
  · split
    · rfl
    · exact stop_frames true _

theorem writeFrame_kept (once : Bool) (frame : Frame ρ) (outcome : Outcome) (s : Stream ρ) :
    Kept s (writeFrame once frame outcome s).2 := by
  unfold writeFrame
  by_cases h : (s.closed || s.backpressured) = true
  · rw [if_pos h]
    exact Kept.refl s
  · rw [if_neg h]
    have hopen : s.closed = false := by simp_all
    have htaken : Kept s { s with frames := s.frames ++ [frame] } :=
      ⟨rfl, rfl, rfl, fun hs => absurd hs (by simp [hopen]), id⟩
    cases outcome with
    | throws => exact stop_kept true s
    | accepted => exact htaken
    | full => exact htaken.trans (waitForDrain_kept once _)

/-- A write takes the frame if it says so, and only on an open stream. -/
theorem writeFrame_frames (once : Bool) (frame : Frame ρ) (outcome : Outcome) (s : Stream ρ) :
    (writeFrame once frame outcome s).1 = false ∧ (writeFrame once frame outcome s).2.frames = s.frames ∨
      (writeFrame once frame outcome s).1 = true ∧ s.closed = false ∧
        (writeFrame once frame outcome s).2.frames = s.frames ++ [frame] := by
  unfold writeFrame
  by_cases h : (s.closed || s.backpressured) = true
  · rw [if_pos h]
    exact .inl ⟨rfl, rfl⟩
  · rw [if_neg h]
    have hopen : s.closed = false := by simp_all
    cases outcome with
    | throws => exact .inl ⟨rfl, stop_frames true s⟩
    | accepted => exact .inr ⟨rfl, hopen, rfl⟩
    | full => exact .inr ⟨rfl, hopen, waitForDrain_frames once _⟩

theorem delivered_append (feed : Feed) {s s' : Stream ρ} {frame : Frame ρ} (h : s'.frames = s.frames ++ [frame]) :
    delivered feed s' = delivered feed s ++ frame.rows feed := by
  simp [delivered, h]

/-- A frame without rows changes nothing of what was delivered. -/
theorem writeFrame_delivered (feed : Feed) (once : Bool) {frame : Frame ρ} (hframe : frame.rows feed = [])
    (outcome : Outcome) (s : Stream ρ) :
    delivered feed (writeFrame once frame outcome s).2 = delivered feed s := by
  rcases writeFrame_frames once frame outcome s with ⟨-, h⟩ | ⟨-, -, h⟩
  · rw [delivered, h, delivered]
  · rw [delivered_append feed h, hframe, List.append_nil]

theorem stop_delivered (feed : Feed) (endResponse : Bool) (s : Stream ρ) :
    delivered feed (stop endResponse s) = delivered feed s := by
  rw [delivered, stop_frames, delivered]

theorem control_rows (feed : Feed) (name : EventName) (key value : String) :
    (Frame.event name [(key, .text value)] : Frame ρ).rows feed = [] := by
  unfold Frame.rows Feed.rowsOf
  by_cases h : feed.rows = key
  · simp [h]
  · simp [List.lookup_cons, beq_false_of_ne h]

/-! ### The invariant -/

/-- The stream follows the list from `start` on. -/
structure Inv (feed : Feed) (start : Nat) (s : Stream ρ) (list : List ρ) : Prop where
  front : delivered feed s <+: list.drop start
  place : s.closed = false → feed.place s.cursors = start + (delivered feed s).length
  flight : s.inFlight = if s.polling then [s.cursors] else []
  closes : Closes s

/-- What writes no rows keeps the invariant. -/
theorem Inv.kept {feed : Feed} {start : Nat} {s s' : Stream ρ} {list : List ρ} (h : Inv feed start s list)
    (hkept : Kept s s') (hsame : delivered feed s' = delivered feed s) : Inv feed start s' list where
  front := hsame ▸ h.front
  place hopen := by
    rw [hkept.cursors, hsame]
    refine h.place (Bool.eq_false_iff.2 fun hclosed => ?_)
    rw [(hkept.stopped hclosed).1] at hopen
    cases hopen
  flight := by rw [hkept.inFlight, hkept.polling, hkept.cursors, h.flight]
  closes := hkept.closes h.closes

theorem place_append (feed : Feed) (payload : Payload ρ) (cursors : List (String × String)) :
    feed.place (cursorValues payload ++ cursors) =
      match feed.cursorOf payload with
      | none => feed.place cursors
      | some text => feed.position text := by
  unfold Feed.place Feed.cursorOf
  rw [List.lookup_append]
  cases (cursorValues payload).lookup feed.cursor <;> rfl

section Written

variable {feed : Feed} {start : Nat} {s : Stream ρ} {list : List ρ} {payload : Payload ρ}

theorem front_written (hfront : delivered feed s <+: list.drop start)
    (h : feed.Follows list (start + (delivered feed s).length) payload) :
    delivered feed s ++ feed.rowsOf payload <+: list.drop start := by
  have hrows := h.1
  rw [← List.drop_drop] at hrows
  obtain ⟨rest, hrest⟩ := hfront
  rw [← hrest, List.drop_left] at hrows
  rw [← hrest]
  exact (List.prefix_append_right_inj _).2 hrows

theorem place_written (h : feed.Follows list (start + (delivered feed s).length) payload)
    (hnone : feed.cursorOf payload = none →
      feed.place s.cursors = start + (delivered feed s).length ∧ feed.rowsOf payload = []) :
    feed.place (cursorValues payload ++ s.cursors) = start + (delivered feed s ++ feed.rowsOf payload).length := by
  rw [place_append, List.length_append, ← Nat.add_assoc]
  cases hcursor : feed.cursorOf payload with
  | none =>
    rw [(hnone hcursor).2]
    exact (hnone hcursor).1
  | some text => exact h.2 text hcursor

end Written

/-- What a write of a payload leaves: all as it was but a stop, or the frame and the cursors of the payload. -/
theorem writePayload_cases (once : Bool) (name : EventName) (payload : Payload ρ) (outcome : Outcome) (s : Stream ρ) :
    (Kept s (writePayload once name payload outcome s) ∧
      (writePayload once name payload outcome s).frames = s.frames ∧
      ((writePayload once name payload outcome s).closed = false → s.backpressured = true)) ∨
    (s.closed = false ∧
      (writePayload once name payload outcome s).cursors = cursorValues payload ++ s.cursors ∧
      (writePayload once name payload outcome s).frames = s.frames ++ [.event name payload] ∧
      (writePayload once name payload outcome s).polling = s.polling ∧
      (writePayload once name payload outcome s).inFlight = s.inFlight ∧
      (Closes s → Closes (writePayload once name payload outcome s))) := by
  have hkept := writeFrame_kept once (.event name payload) outcome s
  unfold writePayload
  dsimp only
  rcases writeFrame_frames once (.event name payload) outcome s with ⟨hwritten, hframes⟩ | ⟨hwritten, hopen, hframes⟩
  · rw [if_neg (by simp [hwritten])]
    refine .inl ⟨hkept, hframes, fun hstill => ?_⟩
    by_contra hfree
    have hopen : s.closed = false := Bool.eq_false_iff.2 fun hs => by
      rw [(hkept.stopped hs).1] at hstill
      cases hstill
    unfold writeFrame at hwritten hstill
    rw [if_neg (by simp [hopen, hfree])] at hwritten hstill
    cases outcome with
    | throws => simp [stop, hopen] at hstill
    | accepted => cases hwritten
    | full => cases hwritten
  · rw [if_pos hwritten]
    exact .inr ⟨hopen, congrArg _ hkept.cursors, hframes, hkept.polling, hkept.inFlight, hkept.closes⟩

theorem setup_inv (once : Bool) {feed : Feed} {start : Nat} {list : List ρ} {opening : Opening ρ}
    (hopens : feed.Opens list start opening.initial) (hretry : start = 0 ∨ opening.retry ≠ .full) :
    Inv feed start (setup once opening) list := by
  have hblank : Closes ({} : Stream ρ) := rfl
  have hstopped : ∀ s : Stream ρ, delivered feed s = [] → Kept {} s → Inv feed start (stop true s) list := by
    intro s hnothing hkept
    have hall := hkept.trans (stop_kept true s)
    refine ⟨?_, fun hopen => ?_, ?_, hall.closes hblank⟩
    · rw [stop_delivered, hnothing]
      exact List.nil_prefix
    · unfold stop at hopen
      split at hopen
      · next hclosed => rw [hclosed] at hopen; cases hopen
      · cases hopen
    · rw [hall.inFlight, hall.polling]
      rfl
  unfold setup
  by_cases hprepare : opening.prepareThrows = true
  · rw [if_pos hprepare]
    exact hstopped {} rfl (Kept.refl _)
  rw [if_neg hprepare]
  have hkept := writeFrame_kept once (.retry : Frame ρ) opening.retry {}
  have hnothing : delivered feed (writeFrame once (.retry : Frame ρ) opening.retry {}).2 = [] :=
    writeFrame_delivered feed once rfl opening.retry {}
  have hfull : (writeFrame once (.retry : Frame ρ) opening.retry {}).2.backpressured = true → start = 0 := by
    intro hback
    rcases hretry with h | h
    · exact h
    · cases houtcome : opening.retry with
      | full => exact absurd houtcome h
      | accepted => rw [houtcome] at hback; cases hback
      | throws => rw [houtcome] at hback; cases hback
  generalize (writeFrame once (.retry : Frame ρ) opening.retry {}).2 = s at hkept hnothing hfull
  dsimp only
  by_cases hevent : opening.eventThrows = true
  · rw [if_pos hevent]
    exact hstopped s hnothing hkept
  rw [if_neg hevent]
  have hinv : Inv feed start (writePayload once .snapshot opening.initial opening.first s) list := by
    rcases writePayload_cases once .snapshot opening.initial opening.first s with
      ⟨hsame, hframes, hback⟩ | ⟨-, hcursors, hframes, hpolling, hflight, hcloses⟩
    · have hdelivered : delivered feed (writePayload once .snapshot opening.initial opening.first s) = [] := by
        rw [delivered, hframes, ← delivered, hnothing]
      have hall := hkept.trans hsame
      refine ⟨?_, fun hopen => ?_, ?_, hall.closes hblank⟩
      · rw [hdelivered]
        exact List.nil_prefix
      · rw [hall.cursors, hdelivered, hfull (hback hopen)]
        rfl
      · rw [hall.inFlight, hall.polling]
        rfl
    · have hfollows : feed.Follows list (start + (delivered feed s).length) opening.initial := by
        rw [hnothing]
        exact hopens.1
      have hnone : feed.cursorOf opening.initial = none →
          feed.place s.cursors = start + (delivered feed s).length ∧ feed.rowsOf opening.initial = [] := by
        intro hcursor
        rw [hkept.cursors, hnothing, (hopens.2 hcursor).1]
        exact ⟨rfl, (hopens.2 hcursor).2⟩
      have hrows := delivered_append feed hframes
      refine ⟨?_, fun _ => ?_, ?_, hcloses (hkept.closes hblank)⟩
      · rw [hrows]
        refine front_written ?_ hfollows
        rw [hnothing]
        exact List.nil_prefix
      · rw [hcursors, hrows]
        exact place_written hfollows hnone
      · rw [hflight, hkept.inFlight, hpolling, hkept.polling]
        rfl
  split
  · exact hinv
  · exact ⟨hinv.front, hinv.place, hinv.flight, hinv.closes⟩

theorem pollFailed_kept (once terminal : Bool) (outcome : Outcome) (s : Stream ρ) :
    Kept s (pollFailed once terminal outcome s) := by
  unfold pollFailed
  have hwrite := writeFrame_kept once (.event .error errorPayload) outcome s
  cases terminal with
  | true => exact hwrite.trans (stop_kept true _)
  | false => exact hwrite

theorem pollFailed_delivered (feed : Feed) (once terminal : Bool) (outcome : Outcome) (s : Stream ρ) :
    delivered feed (pollFailed once terminal outcome s) = delivered feed s := by
  have hwrite : delivered feed (writeFrame once (.event .error errorPayload) outcome s).2 = delivered feed s :=
    writeFrame_delivered feed once (control_rows feed _ _ _) outcome s
  unfold pollFailed
  cases terminal with
  | true => exact (stop_delivered feed true _).trans hwrite
  | false => exact hwrite

/-- A load that settles keeps what was delivered a prefix, and the cursors behind it. -/
theorem pollSettled_inv (once : Bool) {feed : Feed} {start : Nat} {s : Stream ρ} {list : List ρ}
    (h : Inv feed start s list) {loaded : Option (Payload ρ)}
    (hloads : ∀ payload ∈ loaded, feed.Loads list s.cursors payload) (eventThrows : Option Bool) (terminal : Bool)
    (outcome : Outcome) :
    delivered feed (pollSettled once loaded eventThrows terminal outcome s) <+: list.drop start ∧
      ((pollSettled once loaded eventThrows terminal outcome s).closed = false →
        feed.place (pollSettled once loaded eventThrows terminal outcome s).cursors =
          start + (delivered feed (pollSettled once loaded eventThrows terminal outcome s)).length) ∧
      Closes (pollSettled once loaded eventThrows terminal outcome s) := by
  have hfailed : ∀ terminal, Inv feed start (pollFailed once terminal outcome s) list := fun terminal =>
    h.kept (pollFailed_kept once terminal outcome s) (pollFailed_delivered feed once terminal outcome s)
  unfold pollSettled
  cases loaded with
  | none => exact ⟨(hfailed terminal).front, (hfailed terminal).place, (hfailed terminal).closes⟩
  | some payload =>
    dsimp only
    split
    · cases eventThrows with
      | some terminal => exact ⟨(hfailed terminal).front, (hfailed terminal).place, (hfailed terminal).closes⟩
      | none =>
        dsimp only
        rcases writePayload_cases once .delta payload outcome s with
          ⟨hsame, hframes, -⟩ | ⟨hopen, hcursors, hframes, -, -, hcloses⟩
        · have hkept := h.kept hsame (by rw [delivered, hframes, delivered])
          exact ⟨hkept.front, hkept.place, hkept.closes⟩
        · obtain ⟨hfollows, hnone⟩ := hloads payload rfl
          have hplace := h.place hopen
          rw [hplace] at hfollows
          rw [hcursors, delivered_append feed hframes]
          exact ⟨front_written h.front hfollows,
            fun _ => place_written hfollows fun hcursor => ⟨hplace, hnone hcursor⟩, hcloses h.closes⟩
    · exact ⟨h.front, h.place, h.closes⟩

/-- In a stream that keeps the invariant, the load that settles is the only one, with the cursors of the stream. -/
theorem Inv.settles {feed : Feed} {start : Nat} {s : Stream ρ} {list : List ρ} (h : Inv feed start s list)
    {index : Nat} {cursors : List (String × String)} (hflight : s.inFlight[index]? = some cursors) :
    cursors = s.cursors ∧ s.inFlight.eraseIdx index = [] := by
  rw [h.flight] at hflight ⊢
  cases hpolling : s.polling with
  | false => simp [hpolling] at hflight
  | true =>
    rw [hpolling, if_pos rfl] at hflight
    cases index with
    | zero => exact ⟨(Option.some.inj hflight).symm, rfl⟩
    | succ index => simp at hflight

variable {e : Event ρ} {once : Bool} {sys sys' : System ρ}

theorem step_inv {feed : Feed} {start : Nat} (h : Inv feed start sys.stream sys.list)
    (hstep : Step once feed sys e sys') : Inv feed start sys'.stream sys'.list := by
  obtain ⟨henabled, rfl⟩ := hstep
  have hstop : ∀ endResponse, Inv feed start (stop endResponse sys.stream) sys.list := fun endResponse =>
    h.kept (stop_kept endResponse _) (stop_delivered feed endResponse _)
  cases e with
  | append rows =>
    refine ⟨h.front.trans ?_, h.place, h.flight, h.closes⟩
    show sys.list.drop start <+: (sys.list ++ rows).drop start
    rw [List.drop_append]
    exact List.prefix_append _ _
  | poll =>
    show Inv feed start (poll sys.stream) sys.list
    unfold poll
    split
    · exact h
    · next hidle =>
      have hpolling : sys.stream.polling = false := by simp_all
      refine ⟨h.front, h.place, ?_, h.closes⟩
      show sys.stream.inFlight ++ [sys.stream.cursors] = _
      rw [h.flight, hpolling]
      rfl
  | settled index loaded eventThrows terminal outcome =>
    obtain ⟨cursors, hflight, hloads⟩ := henabled
    obtain ⟨rfl, hnone⟩ := h.settles hflight
    obtain ⟨hfront, hplace, hcloses⟩ := pollSettled_inv once h hloads eventThrows terminal outcome
    exact ⟨hfront, hplace, hnone, hcloses⟩
  | heartbeat outcome => exact h.kept (writeFrame_kept once _ outcome _) (writeFrame_delivered feed once rfl outcome _)
  | lifetime outcome =>
    refine h.kept ((writeFrame_kept once _ outcome _).trans (stop_kept true _)) ?_
    exact (stop_delivered feed true _).trans (writeFrame_delivered feed once (control_rows feed _ _ _) outcome _)
  | drain =>
    show Inv feed start (onDrain sys.stream) sys.list
    unfold onDrain
    split
    · exact h
    · exact ⟨h.front, h.place, h.flight, h.closes⟩
  | slowClient =>
    have hdrain : Kept sys.stream { sys.stream with drainListener := false } :=
      ⟨rfl, rfl, rfl, fun hs => ⟨hs, rfl⟩, id⟩
    exact h.kept (hdrain.trans (stop_kept true _)) (stop_delivered feed true _)
  | disconnect => exact hstop false
  | stop endResponse => exact hstop endResponse

/-- Nothing is written behind a stop. -/
theorem step_stopped {feed : Feed} (hstep : Step once feed sys e sys') (hclosed : sys.stream.closed = true) :
    sys'.stream.closed = true ∧ sys'.stream.frames = sys.stream.frames := by
  obtain ⟨-, rfl⟩ := hstep
  have hstop : ∀ s : Stream ρ, ∀ endResponse, s.closed = true → stop endResponse s = s := fun s endResponse hs =>
    if_pos hs
  have hwrite : ∀ (frame : Frame ρ) outcome, (writeFrame once frame outcome sys.stream) = (false, sys.stream) :=
    fun frame outcome => if_pos (by simp [hclosed])
  cases e with
  | append rows => exact ⟨hclosed, rfl⟩
  | poll => simp [next, poll, hclosed]
  | settled index loaded eventThrows terminal outcome =>
    have hfailed : ∀ terminal, pollFailed once terminal outcome sys.stream = sys.stream := by
      intro terminal
      unfold pollFailed
      rw [hwrite]
      dsimp only
      split
      · exact hstop _ _ hclosed
      · rfl
    have hsame : pollSettled once loaded eventThrows terminal outcome sys.stream = sys.stream := by
      unfold pollSettled writePayload
      simp only [hfailed, hwrite]
      split
      · rfl
      · split
        · split <;> rfl
        · rfl
    show (pollSettled once loaded eventThrows terminal outcome sys.stream).closed = true ∧
      (pollSettled once loaded eventThrows terminal outcome sys.stream).frames = _
    rw [hsame]
    exact ⟨hclosed, rfl⟩
  | heartbeat outcome => simp [next, hwrite, hclosed]
  | lifetime outcome => simp [next, lifetimeEnd, hwrite, hstop _ _ hclosed, hclosed]
  | drain => simp [next, onDrain, hclosed]
  | slowClient => simp [next, slowClient, stop, hclosed]
  | disconnect => simp [next, hstop _ _ hclosed, hclosed]
  | stop endResponse => simp [next, hstop _ _ hclosed, hclosed]

theorem step_list {feed : Feed} (hstep : Step once feed sys e sys') : sys.list <+: sys'.list := by
  obtain ⟨-, rfl⟩ := hstep
  cases e with
  | append rows => exact List.prefix_append _ _
  | _ => exact List.prefix_refl _

/-- **Rows are delivered once and in order**, from the initial ones on, unless the stream was resumed and the
response was full behind the retry frame; at most one load is in flight, `onClose` is called once if the stream
stops, and nothing is written from then on. -/
theorem stream_delivers_in_order {once : Bool} {feed : Feed} {start : Nat} {list : List ρ} {opening : Opening ρ}
    {es : List (Event ρ)} {sys : System ρ} (hopens : feed.Opens list start opening.initial)
    (hretry : start = 0 ∨ opening.retry ≠ .full) (hrun : Run (Step once feed) ⟨setup once opening, list⟩ es sys) :
    delivered feed sys.stream <+:
        feed.rowsOf opening.initial ++ sys.list.drop (start + (feed.rowsOf opening.initial).length) ∧
      sys.stream.inFlight.length ≤ 1 ∧ sys.stream.onCloses = (if sys.stream.closed then 1 else 0) ∧
      (sys.stream.closed = true → ∀ fs later, Run (Step once feed) sys fs later →
        later.stream.frames = sys.stream.frames) := by
  have hinv : Inv feed start sys.stream sys.list :=
    Run.invariant (I := fun sys => Inv feed start sys.stream sys.list) (fun _ _ _ h hstep => step_inv h hstep) hrun
      (setup_inv once hopens hretry)
  have hlist : list <+: sys.list :=
    Run.invariant (I := fun sys => list <+: sys.list) (fun _ _ _ h hstep => h.trans (step_list hstep)) hrun
      (List.prefix_refl _)
  refine ⟨?_, ?_, hinv.closes, fun hclosed fs later hlater => ?_⟩
  · have hinitial : feed.rowsOf opening.initial <+: sys.list.drop start := by
      obtain ⟨rest, hrest⟩ := hlist
      rw [← hrest, List.drop_append]
      exact hopens.1.1.trans (List.prefix_append _ _)
    have hall := List.prefix_iff_eq_append.1 hinitial
    rw [List.drop_drop] at hall
    rw [hall]
    exact hinv.front
  · rw [hinv.flight]
    split <;> simp
  · exact (Run.invariant (I := fun t => t.stream.closed = true ∧ t.stream.frames = sys.stream.frames)
      (fun _ _ _ h hstep => ⟨(step_stopped hstep h.1).1, (step_stopped hstep h.1).2.trans h.2⟩) hlater
      ⟨hclosed, rfl⟩).2

/-! ### A resumed stream -/

/-- Log rows, with a mark for every row as their cursor. -/
def logFeed : Feed := ⟨"logs", "logCursor", String.length⟩

def logPage (rows : List Nat) (cursor : String) : Payload Nat := [("logs", .rows rows), ("logCursor", .text cursor)]

theorem logPage_follows {list rows : List Nat} {place : Nat} {cursor : String} (hrows : rows <+: list.drop place)
    (hcursor : cursor ≠ "") (hplace : cursor.length = place + rows.length) :
    logFeed.Follows list place (logPage rows cursor) ∧ logFeed.cursorOf (logPage rows cursor) = some cursor := by
  have hkey : isCursorKey "logCursor" = true := by decide
  have hcursorOf : logFeed.cursorOf (logPage rows cursor) = some cursor := by
    simp [Feed.cursorOf, cursorValues, logPage, logFeed, hkey, hcursor]
  refine ⟨⟨hrows, fun text htext => ?_⟩, hcursorOf⟩
  obtain rfl : cursor = text := Option.some.inj (hcursorOf.symm.trans htext)
  exact hplace

/-- The client has seen the first of two rows. -/
def resumed (retry : Outcome) : Opening Nat := { initial := logPage [20] "xx", retry := retry }

theorem resumed_opens (retry : Outcome) : logFeed.Opens [10, 20] 1 (resumed retry).initial := by
  obtain ⟨hfollows, hcursor⟩ := @logPage_follows [10, 20] [20] 1 "xx" (by decide) (by decide) (by decide)
  exact ⟨hfollows, fun hnone => absurd (hcursor.symm.trans hnone) (by simp)⟩

theorem logPage_loads {list rows : List Nat} {cursors : List (String × String)} {cursor : String}
    (hrows : rows <+: list.drop (logFeed.place cursors)) (hcursor : cursor ≠ "")
    (hplace : cursor.length = logFeed.place cursors + rows.length) :
    logFeed.Loads list cursors (logPage rows cursor) := by
  obtain ⟨hfollows, hsome⟩ := logPage_follows hrows hcursor hplace
  exact ⟨hfollows, fun hnone => absurd (hsome.symm.trans hnone) (by simp)⟩

theorem stream_delivers_in_order_resumed : ∃ sys,
    Run (Step true logFeed) ⟨setup true (resumed .accepted), [10, 20]⟩
        [.append [30], .poll, .settled 0 (some (logPage [30] "xxx")) none false .full] sys ∧
      delivered logFeed sys.stream = [20, 30] ∧ delivered logFeed sys.stream <+: [20] ++ sys.list.drop 2 := by
  have hloads : ∀ payload ∈ some (logPage [30] "xxx"),
      logFeed.Loads [10, 20, 30] [("logCursor", "xx")] payload := by
    rintro payload ⟨⟩
    exact logPage_loads (by decide) (by decide) (by decide)
  obtain ⟨sys, hsys, hrun⟩ : ∃ sys, sys = List.foldl (next true) ⟨setup true (resumed .accepted), [10, 20]⟩
      [.append [30], .poll, .settled 0 (some (logPage [30] "xxx")) none false .full] ∧
      Run (Step true logFeed) ⟨setup true (resumed .accepted), [10, 20]⟩
        [.append [30], .poll, .settled 0 (some (logPage [30] "xxx")) none false .full] sys :=
    ⟨_, rfl, (Run.single ⟨trivial, rfl⟩).append ((Run.single ⟨rfl, rfl⟩).append
      (Run.single ⟨⟨_, rfl, hloads⟩, rfl⟩))⟩
  refine ⟨sys, hrun, ?_, (stream_delivers_in_order (resumed_opens .accepted) (.inr (by decide)) hrun).1⟩
  rw [hsys]
  rfl

/-- **A resumed stream repeats rows** if the response is full behind the retry frame: the initial payload is not
written, its cursor is lost, and the first load starts at the beginning. -/
theorem resumed_stream_repeats_rows : logFeed.Opens [10, 20] 1 (resumed .full).initial ∧ ∃ sys,
    Run (Step true logFeed) ⟨setup true (resumed .full), [10, 20]⟩
        [.drain, .poll, .settled 0 (some (logPage [10, 20] "xx")) none false .accepted] sys ∧
      delivered logFeed sys.stream = [10, 20] ∧
      ¬ delivered logFeed sys.stream <+: logFeed.rowsOf (resumed .full).initial ++ sys.list.drop 2 := by
  have hloads : ∀ payload ∈ some (logPage [10, 20] "xx"), logFeed.Loads [10, 20] [] payload := by
    rintro payload ⟨⟩
    exact logPage_loads (by decide) (by decide) (by decide)
  refine ⟨resumed_opens .full, List.foldl (next true) ⟨setup true (resumed .full), [10, 20]⟩
    [.drain, .poll, .settled 0 (some (logPage [10, 20] "xx")) none false .accepted], ?_, rfl, by decide⟩
  exact (Run.single ⟨rfl, rfl⟩).append ((Run.single ⟨rfl, rfl⟩).append (Run.single ⟨⟨_, rfl, hloads⟩, rfl⟩))

end RaibitServer.Observability.Sse
