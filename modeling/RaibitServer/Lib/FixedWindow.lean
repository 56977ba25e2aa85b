import Mathlib.Algebra.Order.Group.Int
import Mathlib.Tactic.Common

/-!
# Lib.FixedWindow — a rate limiter with fixed windows

The first call of a key starts a window; until the window expires, calls are allowed as long as there are
fewer than the limit.  A limiter keeps a window for each key.  What is kept of an expired window does not
matter (`consume_congr`), so a store may drop it at any time.  `Within`: of the calls of a key no more than
the limit are allowed in a window, and no more than twice the limit in a time shorter than a window.
-/

namespace RaibitServer.Lib.FixedWindow

structure Window where
  count : Nat
  expiresAt : Int
  deriving DecidableEq

structure Answer where
  allowed : Bool
  count : Nat
  remaining : Int
  resetAt : Int
  deriving DecidableEq

/-- The window of a key while it lasts. -/
def live (now : Int) (w : Option Window) : Option Window := w.filter (now < ·.expiresAt)

variable {now : Int}

theorem live_pos {w : Window} (h : now < w.expiresAt) : live now (some w) = some w :=
  Option.filter_some_pos (decide_eq_true h)

theorem live_neg {w : Window} (h : ¬ now < w.expiresAt) : live now (some w) = none :=
  Option.filter_some_neg (decide_eq_false h)

def remaining (limit : Int) (count : Nat) : Int := max 0 (limit - count)

/-- A call at `now`, and the window it leaves. -/
def consume (limit window now : Int) (w : Option Window) : Answer × Window :=
  match live now w with
  | none => (⟨true, 1, remaining limit 1, now + window⟩, ⟨1, now + window⟩)
  | some w =>
    if w.count < limit then
      (⟨true, w.count + 1, remaining limit (w.count + 1), w.expiresAt⟩, ⟨w.count + 1, w.expiresAt⟩)
    else (⟨false, w.count, remaining limit w.count, w.expiresAt⟩, w)

def peek (limit now : Int) (w : Option Window) : Answer :=
  match live now w with
  | none => ⟨true, 0, limit, now⟩
  | some w => ⟨w.count < limit, w.count, remaining limit w.count, w.expiresAt⟩

theorem consume_congr {limit window now : Int} {w w' : Option Window} (h : live now w = live now w') :
    consume limit window now w = consume limit window now w' := by
  unfold consume
  rw [h]

theorem peek_congr {limit : Int} {w w' : Option Window} (h : live now w = live now w') :
    peek limit now w = peek limit now w' := by
  unfold peek
  rw [h]

/-- What has expired stays expired. -/
theorem live_of_le {later : Int} (hle : now ≤ later) (w : Option Window) : live later (live now w) = live later w := by
  cases w with
  | none => rfl
  | some w =>
    by_cases h : now < w.expiresAt
    · rw [live_pos h]
    · have hlater : ¬ later < w.expiresAt := by omega
      rw [live_neg h, live_neg hlater]
      rfl

/-! ### Calls of several keys -/

inductive Call (κ : Type)
  | consume (key : κ) (limit window now : Int)
  | peek (key : κ) (limit now : Int)
  | reset (key : κ)

variable {κ : Type}

/-- The limiter that keeps every window. -/
def step [DecidableEq κ] (s : κ → Option Window) : Call κ → Option Answer × (κ → Option Window)
  | .consume key limit window now =>
    (some (consume limit window now (s key)).1, Function.update s key (some (consume limit window now (s key)).2))
  | .peek key limit now => (some (peek limit now (s key)), s)
  | .reset key => (none, Function.update s key none)

/-- The answers to calls one after the other. -/
def answers {σ γ α : Type} (step : σ → γ → α × σ) (s : σ) : List γ → List α
  | [] => []
  | c :: calls => (step s c).1 :: answers step (step s c).2 calls

/-- What two limiters have in common at `now`. -/
def Agree (now : Int) (s t : κ → Option Window) : Prop := ∀ key, live now (s key) = live now (t key)

theorem Agree.later {later : Int} (hle : now ≤ later) {s t : κ → Option Window} (h : Agree now s t) :
    Agree later s t := by
  intro key
  rw [← live_of_le hle (s key), h key, live_of_le hle]

theorem Agree.update [DecidableEq κ] {s t : κ → Option Window} (h : Agree now s t) (key : κ) (w : Option Window) :
    Agree now (Function.update s key w) (Function.update t key w) := by
  intro k
  by_cases hk : k = key
  · subst hk
    rw [Function.update_self, Function.update_self]
  · rw [Function.update_of_ne hk, Function.update_of_ne hk]
    exact h k

/-- The time of a call; a reset has none of its own. -/
def Call.time (now : Int) : Call κ → Int
  | .consume _ _ _ now' | .peek _ _ now' => now'
  | .reset _ => now

/-- The clock does not go back. -/
def Clocked : Int → List (Call κ) → Prop
  | _, [] => True
  | now, c :: calls => now ≤ c.time now ∧ Clocked (c.time now) calls

section Refinement

variable [DecidableEq κ] {σ γ : Type} {store : σ → γ → Option Answer × σ} {windows : σ → κ → Option Window}
  {view : γ → Call κ}

theorem step_congr {now : Int} {s t : κ → Option Window} {c : Call κ} (hle : now ≤ c.time now) (h : Agree now s t) :
    (step s c).1 = (step t c).1 ∧ Agree (c.time now) (step s c).2 (step t c).2 := by
  cases c with
  | consume key limit window now' =>
    have hlater : Agree now' s t := h.later hle
    have hsame := @consume_congr limit window _ _ _ (hlater key)
    refine ⟨congrArg (fun r : Answer × Window => some r.1) hsame, ?_⟩
    show Agree now' (Function.update s key (some (consume limit window now' (s key)).2)) _
    rw [hsame]
    exact hlater.update key _
  | peek key limit now' =>
    have hlater : Agree now' s t := h.later hle
    exact ⟨congrArg some (peek_congr (hlater key)), hlater⟩
  | reset key => exact ⟨rfl, h.update key none⟩

/-- A store whose steps are those of the limiter, up to expired windows, answers as the limiter does. -/
theorem answers_eq {valid : γ → Prop}
    (hstep : ∀ now s c, valid c → (store s c).1 = (step (windows s) (view c)).1 ∧
      Agree ((view c).time now) (windows (store s c).2) (step (windows s) (view c)).2)
    {now : Int} {s : σ} {t : κ → Option Window} {calls : List γ} (hagree : Agree now (windows s) t)
    (hclock : Clocked now (calls.map view)) (hvalid : ∀ c ∈ calls, valid c) :
    answers store s calls = answers step t (calls.map view) := by
  induction calls generalizing now s t with
  | nil => rfl
  | cons c calls ih =>
    obtain ⟨hle, hclock⟩ := hclock
    obtain ⟨hc, hrest⟩ := List.forall_mem_cons.1 hvalid
    obtain ⟨hanswer, hstore⟩ := hstep now s c hc
    obtain ⟨hspec, hnext⟩ := step_congr hle hagree
    rw [List.map_cons]
    unfold answers
    rw [hanswer, hspec, ih (fun key => (hstore key).trans (hnext key)) hclock hrest]

end Refinement

/-! ### Bounds -/

section Bounds

variable {limit window : Int}

/-- The times in `[from, to)`. -/
def between (times : List Int) (low high : Int) : Nat := times.countP fun t => low ≤ t ∧ t < high

theorem between_mono {times : List Int} {low high high' : Int} (h : high ≤ high') :
    between times low high ≤ between times low high' :=
  List.countP_mono_left fun t _ ht => by simp only [decide_eq_true_eq] at ht ⊢; omega

/-- `allowed` are the times of allowed calls and `starts` those that started a window. -/
structure Within (limit window : Int) (allowed starts : List Int) : Prop where
  perWindow : ∀ s ∈ starts, (between allowed s (s + window) : Int) ≤ limit
  perInterval : ∀ low, (between allowed low (low + window) : Int) ≤ 2 * limit

/-- The calls so far, the last window having started at `s`; `now` is a time after all of them. -/
structure Ran (limit window now : Int) (allowed starts : List Int) (s : Int) (count : Nat) : Prop where
  within : Within limit window allowed starts
  reached : s ≤ now
  current : allowed.countP (fun t => s ≤ t) = count
  room : (count : Int) ≤ limit
  before : (allowed.countP (fun t => s - window < t ∧ t < s) : Int) ≤ limit
  last : ∀ t ∈ allowed, t < s + window
  apart : ∀ s' ∈ starts, s' = s ∨ s' + window ≤ s

theorem countP_le_add {times : List Int} {p q r : Int → Bool} (h : ∀ t ∈ times, p t = true → q t = true ∨ r t = true) :
    times.countP p ≤ times.countP q + times.countP r := by
  induction times with
  | nil => exact Nat.zero_le _
  | cons t times ih =>
    obtain ⟨ht, hrest⟩ := List.forall_mem_cons.1 h
    have hle := ih hrest
    rw [List.countP_cons, List.countP_cons, List.countP_cons]
    by_cases hp : p t = true
    · rcases ht hp with hq | hr
      · rw [if_pos hp, if_pos hq]
        omega
      · rw [if_pos hp, if_pos hr]
        omega
    · rw [if_neg hp]
      omega

theorem between_snoc (times : List Int) (t low high : Int) :
    between (times ++ [t]) low high = between times low high + if low ≤ t ∧ t < high then 1 else 0 := by
  unfold between
  rw [List.countP_append, List.countP_singleton]
  simp

/-- The first call. -/
theorem Ran.first (hlimit : 1 ≤ limit) (hwindow : 0 < window) (now : Int) :
    Ran limit window now [now] [now] now 1 := by
  have hone (low high : Int) : between [now] low high ≤ 1 := by
    unfold between
    exact List.countP_le_length.trans (by simp)
  refine ⟨⟨fun s _ => ?_, fun low => ?_⟩, le_rfl, by simp, hlimit, ?_, by simp [hwindow], by simp⟩
  · have := hone s (s + window)
    omega
  · have := hone low (low + window)
    omega
  · rw [List.countP_singleton]
    simp
    omega

variable {allowed starts : List Int} {count : Nat} {now s : Int} {w : Option Window}

theorem Ran.later {later : Int} (hle : now ≤ later) (h : Ran limit window now allowed starts s count) :
    Ran limit window later allowed starts s count :=
  { h with reached := h.reached.trans hle }

/-- A call in the current window. -/
theorem Ran.again (h : Ran limit window now allowed starts s count) (hlive : now < s + window)
    (hroom : (count : Int) < limit) : Ran limit window now (allowed ++ [now]) starts s (count + 1) := by
  have hs := h.reached
  refine ⟨⟨fun s' hs' => ?_, fun low => ?_⟩, hs, ?_, by omega, ?_, ?_, h.apart⟩
  · rw [between_snoc]
    rcases h.apart s' hs' with rfl | hbefore
    · have hcurrent : between allowed s' (s' + window) ≤ count := by
        rw [← h.current]
        exact List.countP_mono_left fun t _ ht => by simp at ht ⊢; exact ht.1
      split_ifs <;> omega
    · rw [if_neg (by omega)]
      exact h.within.perWindow s' hs'
  · rw [between_snoc]
    by_cases hin : low ≤ now ∧ now < low + window
    · have hsplit : between allowed low (low + window) ≤
          allowed.countP (fun t => s - window < t ∧ t < s) + allowed.countP fun t => s ≤ t :=
        countP_le_add fun t _ ht => by
          simp only [decide_eq_true_eq] at ht ⊢
          omega
      have hbefore := h.before
      rw [h.current] at hsplit
      rw [if_pos hin]
      omega
    · rw [if_neg hin]
      exact h.within.perInterval low
  · rw [List.countP_append, h.current, List.countP_singleton, if_pos (by simpa using hs)]
  · rw [List.countP_append, List.countP_singleton, if_neg (by simp; omega)]
    exact h.before
  · intro t ht
    rcases List.mem_append.1 ht with ht | ht
    · exact h.last t ht
    · obtain rfl := List.mem_singleton.1 ht
      exact hlive

/-- A call after the current window. -/
theorem Ran.next (hlimit : 1 ≤ limit) (hwindow : 0 < window) (h : Ran limit window now allowed starts s count)
    (hexpired : s + window ≤ now) : Ran limit window now (allowed ++ [now]) (starts ++ [now]) now 1 := by
  have hroom := h.room
  -- What lies less than a window back belongs to the window that has expired.
  have hback {low high : Int} (hlow : now - window ≤ low) : between allowed low high ≤ count := by
    rw [← h.current]
    exact List.countP_mono_left fun t _ ht => by simp only [decide_eq_true_eq] at ht ⊢; omega
  have hnone : between allowed now (now + window) = 0 := by
    refine List.countP_eq_zero.2 fun t ht => ?_
    have hlast := h.last t ht
    simp only [decide_eq_true_eq]
    omega
  refine ⟨⟨fun s' hs' => ?_, fun low => ?_⟩, le_rfl, ?_, hlimit, ?_, ?_, ?_⟩
  · rw [between_snoc]
    rcases List.mem_append.1 hs' with hs' | hs'
    · have hold : s' ≤ s := by
        rcases h.apart s' hs' with rfl | hbefore
        · exact le_rfl
        · omega
      rw [if_neg (by omega)]
      exact h.within.perWindow s' hs'
    · obtain rfl := List.mem_singleton.1 hs'
      rw [hnone, if_pos (by omega)]
      exact hlimit
  · rw [between_snoc]
    by_cases hin : low ≤ now ∧ now < low + window
    · have hle : between allowed low (low + window) ≤ count := hback (by omega)
      rw [if_pos hin]
      omega
    · rw [if_neg hin]
      exact h.within.perInterval low
  · have hzero : allowed.countP (fun t => now ≤ t) = 0 := by
      refine List.countP_eq_zero.2 fun t ht => ?_
      have hlast := h.last t ht
      simp only [decide_eq_true_eq]
      omega
    rw [List.countP_append, hzero, List.countP_singleton, if_pos (by simp)]
  · rw [List.countP_append, List.countP_singleton, if_neg (by simp)]
    have hle : allowed.countP (fun t => now - window < t ∧ t < now) ≤ count := by
      rw [← h.current]
      exact List.countP_mono_left fun t _ ht => by simp only [decide_eq_true_eq] at ht ⊢; omega
    omega
  · intro t ht
    rcases List.mem_append.1 ht with ht | ht
    · have hlast := h.last t ht
      omega
    · obtain rfl := List.mem_singleton.1 ht
      omega
  · intro s' hs'
    rcases List.mem_append.1 hs' with hs' | hs'
    · right
      rcases h.apart s' hs' with rfl | hbefore <;> omega
    · exact .inl (List.mem_singleton.1 hs')

variable [DecidableEq κ]

/-- The time of a call of `key` whose answer meets a condition. -/
def timeWhere (key : κ) (p : Answer → Bool) : Call κ × Option Answer → Option Int
  | (.consume k _ _ now, some answer) => if k = key ∧ p answer then some now else none
  | _ => none

/-- The times at which calls of `key` are allowed. -/
def allowedTimes (key : κ) (calls : List (Call κ)) (answers : List (Option Answer)) : List Int :=
  (calls.zip answers).filterMap (timeWhere key fun answer => answer.allowed)

/-- The times at which calls of `key` start a window. -/
def startTimes (key : κ) (calls : List (Call κ)) (answers : List (Option Answer)) : List Int :=
  (calls.zip answers).filterMap (timeWhere key fun answer => answer.allowed && answer.count = 1)

/-- A key with one limit and one window, which is not reset. -/
def Steady (key : κ) (limit window : Int) : Call κ → Prop
  | .consume k l w _ => k = key → l = limit ∧ w = window
  | .peek _ _ _ => True
  | .reset k => k ≠ key

/-- The calls of a key so far, by the window that is kept of it. -/
def Track (limit window now : Int) (allowed starts : List Int) : Option Window → Prop
  | none => allowed = [] ∧ starts = []
  | some w => 1 ≤ w.count ∧ Ran limit window now allowed starts (w.expiresAt - window) w.count

theorem Track.later {later : Int} (hle : now ≤ later) (h : Track limit window now allowed starts w) :
    Track limit window later allowed starts w := by
  cases w with
  | none => exact h
  | some w => exact ⟨h.1, h.2.later hle⟩

theorem Track.within (hlimit : 1 ≤ limit) (h : Track limit window now allowed starts w) :
    Within limit window allowed starts := by
  cases w with
  | none =>
    obtain ⟨rfl, rfl⟩ := h
    refine ⟨nofun, fun low => ?_⟩
    show (0 : Int) ≤ 2 * limit
    omega
  | some w => exact h.2.within

theorem consume_cases (limit window now : Int) (w : Option Window) :
    (live now w = none ∧
      consume limit window now w = (⟨true, 1, remaining limit 1, now + window⟩, ⟨1, now + window⟩)) ∨
    ∃ v, w = some v ∧ now < v.expiresAt ∧
      ((v.count < limit ∧ consume limit window now w =
        (⟨true, v.count + 1, remaining limit (v.count + 1), v.expiresAt⟩, ⟨v.count + 1, v.expiresAt⟩)) ∨
      consume limit window now w = (⟨false, v.count, remaining limit v.count, v.expiresAt⟩, v)) := by
  unfold consume
  cases hlive : live now w with
  | none => exact .inl ⟨rfl, rfl⟩
  | some v =>
    obtain ⟨rfl, hv⟩ := Option.filter_eq_some_iff.1 hlive
    refine .inr ⟨v, rfl, of_decide_eq_true hv, ?_⟩
    by_cases hroom : (v.count : Int) < limit
    · exact .inl ⟨hroom, if_pos hroom⟩
    · exact .inr (if_neg hroom)

/-- One call of the key. -/
theorem Track.consume (hlimit : 1 ≤ limit) (hwindow : 0 < window) (h : Track limit window now allowed starts w)
    {answer : Answer} {w' : Window} (hr : FixedWindow.consume limit window now w = (answer, w')) :
    Track limit window now (allowed ++ if answer.allowed = true then [now] else [])
      (starts ++ if (answer.allowed && answer.count = 1) = true then [now] else []) (some w') := by
  rcases consume_cases limit window now w with ⟨hlive, hnew⟩ | ⟨v, rfl, hv, ⟨hroom, hagain⟩ | hdenied⟩
  · obtain ⟨rfl, rfl⟩ := Prod.mk.inj (hr.symm.trans hnew)
    refine ⟨le_rfl, ?_⟩
    show Ran limit window now (allowed ++ [now]) (starts ++ [now]) (now + window - window) 1
    rw [add_sub_cancel_right]
    cases w with
    | none =>
      obtain ⟨rfl, rfl⟩ := h
      exact .first hlimit hwindow now
    | some v =>
      have hexpired : ¬ now < v.expiresAt := by
        intro hv
        rw [live_pos hv] at hlive
        cases hlive
      exact h.2.next hlimit hwindow (by omega)
  · obtain ⟨rfl, rfl⟩ := Prod.mk.inj (hr.symm.trans hagain)
    obtain ⟨hcount, hran⟩ := h
    have hnext := hran.again (by omega) hroom
    rw [if_pos rfl, if_neg (by simp; omega), List.append_nil]
    exact ⟨Nat.le_add_left _ _, hnext⟩
  · obtain ⟨rfl, rfl⟩ := Prod.mk.inj (hr.symm.trans hdenied)
    rw [if_neg (by simp), if_neg (by simp), List.append_nil, List.append_nil]
    exact h

theorem filterMap_timeWhere {key : κ} (p : Answer → Bool) {limit window : Int} {answer : Answer}
    (rest : List (Call κ × Option Answer)) :
    ((.consume key limit window now, some answer) :: rest).filterMap (timeWhere key p) =
      (if p answer = true then [now] else []) ++ rest.filterMap (timeWhere key p) := by
  by_cases hp : p answer = true
  · rw [if_pos hp]
    exact List.filterMap_cons_some (if_pos ⟨rfl, hp⟩)
  · rw [if_neg hp]
    exact List.filterMap_cons_none (if_neg fun e => hp e.2)

/-- **Bounds of a run.** -/
theorem answers_within {key : κ} (hlimit : 1 ≤ limit) (hwindow : 0 < window) {now : Int} {allowed starts : List Int}
    {s : κ → Option Window} {calls : List (Call κ)} (h : Track limit window now allowed starts (s key))
    (hclock : Clocked now calls) (hsteady : ∀ c ∈ calls, Steady key limit window c) :
    Within limit window (allowed ++ allowedTimes key calls (answers step s calls))
      (starts ++ startTimes key calls (answers step s calls)) := by
  induction calls generalizing now allowed starts s with
  | nil =>
    show Within limit window (allowed ++ []) (starts ++ [])
    rw [List.append_nil, List.append_nil]
    exact h.within hlimit
  | cons c calls ih =>
    obtain ⟨hle, hclock⟩ := hclock
    obtain ⟨hc, hrest⟩ := List.forall_mem_cons.1 hsteady
    -- A call that is not one of the key leaves its window alone.
    have hother (hkey : (step s c).2 key = s key) (hnone : ∀ p, timeWhere key p (c, (step s c).1) = none) :
        Within limit window (allowed ++ allowedTimes key (c :: calls) (answers step s (c :: calls)))
          (starts ++ startTimes key (c :: calls) (answers step s (c :: calls))) := by
      have hafter := ih (s := (step s c).2) (hkey ▸ h.later hle) hclock hrest
      unfold answers allowedTimes startTimes
      rw [List.zip_cons_cons, List.filterMap_cons_none (hnone _), List.filterMap_cons_none (hnone _)]
      exact hafter
    cases c with
    | peek k l now' => exact hother rfl fun _ => rfl
    | reset k => exact hother (Function.update_of_ne (Ne.symm hc) _ _) fun _ => rfl
    | consume k l w now' =>
      by_cases hk : k = key
      · subst hk
        obtain ⟨rfl, rfl⟩ := hc rfl
        have hstep := (h.later hle).consume hlimit hwindow rfl
        have hnext : (step s (.consume k l w now')).2 k = some (consume l w now' (s k)).2 := Function.update_self ..
        have hafter := ih (s := (step s (.consume k l w now')).2) (hnext ▸ hstep) hclock hrest
        rw [List.append_assoc, List.append_assoc] at hafter
        unfold answers allowedTimes startTimes
        rw [List.zip_cons_cons]
        unfold step
        rw [filterMap_timeWhere, filterMap_timeWhere]
        exact hafter
      · exact hother (Function.update_of_ne (Ne.symm hk) _ _) fun p => if_neg fun e => hk e.1

end Bounds

end RaibitServer.Lib.FixedWindow
