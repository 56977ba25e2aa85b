import Mathlib.Data.List.Induction
import Mathlib.Order.Lattice

/-!
# Lib.Register — a register that keeps the latest value

A register is fed with stamped values.  A value with a larger stamp replaces the one it holds, one with a
smaller stamp is ignored, and a different value with the same stamp makes it contested until a larger stamp
arrives.  What it reads does not depend on the order or the number of times the values were fed
(`Reads.agree`), because it is a property of the set of values (`feedAll_reads`).
-/

namespace RaibitServer.Lib

structure Register (σ κ : Type) where
  stamp : σ
  value : κ
  contested : Bool
  deriving DecidableEq, Repr

namespace Register

variable {σ κ : Type} [LinearOrder σ]

/-! ### The latest values of a list -/

/-- One of the values with the largest stamp. -/
def Latest (l : List (σ × κ)) (x : σ × κ) : Prop := x ∈ l ∧ ∀ y ∈ l, y.1 ≤ x.1

variable {l l' : List (σ × κ)} {r r' : Register σ κ} {x y z : σ × κ}

theorem Latest.stamp_eq (hx : Latest l x) (hy : Latest l y) : x.1 = y.1 := le_antisymm (hy.2 x hx.1) (hx.2 y hy.1)

theorem Latest.mono (hx : Latest l x) (hmem : ∀ y, y ∈ l ↔ y ∈ l') : Latest l' x :=
  ⟨(hmem x).1 hx.1, fun y hy => hx.2 y ((hmem y).2 hy)⟩

/-- An earlier value changes none of the latest ones. -/
theorem latest_concat_of_lt (hx : Latest l x) (h : y.1 < x.1) :
    Latest (l ++ [y]) z ↔ Latest l z := by
  constructor
  · rintro ⟨hz, hle⟩
    have hxz : x.1 ≤ z.1 := hle x (List.mem_append_left _ hx.1)
    refine ⟨?_, fun w hw => hle w (List.mem_append_left _ hw)⟩
    rcases List.mem_append.1 hz with hz | hz
    · exact hz
    · rw [List.mem_singleton.1 hz] at hxz
      exact absurd h (not_lt_of_ge hxz)
  · rintro ⟨hz, hle⟩
    refine ⟨List.mem_append_left _ hz, fun w hw => ?_⟩
    rcases List.mem_append.1 hw with hw | hw
    · exact hle w hw
    · rw [List.mem_singleton.1 hw]
      exact le_trans (le_of_lt h) (hle x hx.1)

/-- A value with the same stamp joins them. -/
theorem latest_concat_of_eq (hx : Latest l x) (h : y.1 = x.1) :
    Latest (l ++ [y]) z ↔ Latest l z ∨ z = y := by
  constructor
  · rintro ⟨hz, hle⟩
    rcases List.mem_append.1 hz with hz | hz
    · exact .inl ⟨hz, fun w hw => hle w (List.mem_append_left _ hw)⟩
    · exact .inr (List.mem_singleton.1 hz)
  · have hle : ∀ z : σ × κ, x.1 ≤ z.1 → ∀ w ∈ l ++ [y], w.1 ≤ z.1 := by
      intro z hxz w hw
      rcases List.mem_append.1 hw with hw | hw
      · exact le_trans (hx.2 w hw) hxz
      · rw [List.mem_singleton.1 hw, h]
        exact hxz
    rintro (⟨hz, hzle⟩ | rfl)
    · exact ⟨List.mem_append_left _ hz, hle z (hzle x hx.1)⟩
    · exact ⟨List.mem_append_right _ (List.mem_singleton_self z), hle z (le_of_eq h.symm)⟩

/-- A value with a larger stamp is the only one. -/
theorem latest_concat_of_gt (hx : Latest l x) (h : x.1 < y.1) :
    Latest (l ++ [y]) z ↔ z = y := by
  constructor
  · rintro ⟨hz, hle⟩
    rcases List.mem_append.1 hz with hz | hz
    · have hyz : y.1 ≤ z.1 := hle y (List.mem_append_right _ (List.mem_singleton_self y))
      exact absurd (lt_of_lt_of_le h hyz) (not_lt_of_ge (hx.2 z hz))
    · exact List.mem_singleton.1 hz
  · rintro rfl
    refine ⟨List.mem_append_right _ (List.mem_singleton_self z), fun w hw => ?_⟩
    rcases List.mem_append.1 hw with hw | hw
    · exact le_trans (hx.2 w hw) (le_of_lt h)
    · rw [List.mem_singleton.1 hw]

/-! ### Feeding -/

variable [DecidableEq κ]

def feed (r : Option (Register σ κ)) (x : σ × κ) : Register σ κ :=
  match r with
  | none => ⟨x.1, x.2, false⟩
  | some r =>
    if x.1 < r.stamp then r
    else if x.1 = r.stamp then if r.value = x.2 then r else { r with contested := true }
    else ⟨x.1, x.2, false⟩

theorem feed_lt (h : x.1 < r.stamp) : feed (some r) x = r := if_pos h

theorem feed_same (h : x.1 = r.stamp) (hvalue : r.value = x.2) : feed (some r) x = r := by
  unfold feed
  dsimp only
  rw [if_neg (not_lt_of_ge (le_of_eq h.symm)), if_pos h, if_pos hvalue]

theorem feed_clash (h : x.1 = r.stamp) (hvalue : r.value ≠ x.2) :
    feed (some r) x = { r with contested := true } := by
  unfold feed
  dsimp only
  rw [if_neg (not_lt_of_ge (le_of_eq h.symm)), if_pos h, if_neg hvalue]

theorem feed_gt (h : r.stamp < x.1) : feed (some r) x = ⟨x.1, x.2, false⟩ := by
  unfold feed
  dsimp only
  rw [if_neg (not_lt_of_ge (le_of_lt h)), if_neg (ne_of_gt h)]

def feedAll (l : List (σ × κ)) : Option (Register σ κ) := l.foldl (fun r x => some (feed r x)) none

/-- What a register reads that was fed with the values of a list. -/
structure Reads (l : List (σ × κ)) (r : Register σ κ) : Prop where
  latest : Latest l (r.stamp, r.value)
  contested : r.contested = true ↔ ∃ x, Latest l x ∧ x.2 ≠ r.value

theorem reads_singleton (x : σ × κ) : Reads [x] (feed none x) := by
  refine ⟨⟨List.mem_singleton_self _, fun y hy => ?_⟩, ?_⟩
  · rw [List.mem_singleton.1 hy]
    exact le_refl _
  · constructor
    · intro h
      cases h
    · rintro ⟨y, ⟨hy, -⟩, hne⟩
      rw [List.mem_singleton.1 hy] at hne
      exact absurd rfl hne

/-- Feeding one more value. -/
theorem Reads.feed (h : Reads l r) (y : σ × κ) : Reads (l ++ [y]) (feed (some r) y) := by
  rcases lt_trichotomy y.1 r.stamp with hlt | heq | hgt
  · rw [feed_lt hlt]
    refine ⟨(latest_concat_of_lt h.latest hlt).2 h.latest, h.contested.trans ?_⟩
    simp only [latest_concat_of_lt h.latest hlt]
  · by_cases hvalue : r.value = y.2
    · rw [feed_same heq hvalue]
      refine ⟨(latest_concat_of_eq h.latest heq).2 (.inl h.latest), h.contested.trans ?_⟩
      simp only [latest_concat_of_eq h.latest heq]
      constructor
      · rintro ⟨x, hx, hne⟩
        exact ⟨x, .inl hx, hne⟩
      · rintro ⟨x, hx | rfl, hne⟩
        · exact ⟨x, hx, hne⟩
        · exact absurd hvalue.symm hne
    · rw [feed_clash heq hvalue]
      refine ⟨(latest_concat_of_eq h.latest heq).2 (.inl h.latest), ?_⟩
      simp only [latest_concat_of_eq h.latest heq, true_iff]
      exact ⟨y, .inr rfl, fun hyr => hvalue hyr.symm⟩
  · rw [feed_gt hgt]
    refine ⟨(latest_concat_of_gt h.latest hgt).2 rfl, ?_⟩
    simp only [latest_concat_of_gt h.latest hgt]
    constructor
    · intro hfalse
      cases hfalse
    · rintro ⟨x, rfl, hne⟩
      exact absurd rfl hne

/-- **A register reads the values it was fed with.** -/
theorem feedAll_reads (hl : l ≠ []) : ∃ r, feedAll l = some r ∧ Reads l r := by
  induction l using List.reverseRecOn with
  | nil => exact absurd rfl hl
  | append_singleton l x ih =>
    unfold feedAll
    rw [List.foldl_append]
    show ∃ r, some (Register.feed (feedAll l) x) = some r ∧ _
    by_cases hnil : l = []
    · subst hnil
      exact ⟨_, rfl, reads_singleton x⟩
    · obtain ⟨r, hr, hreads⟩ := ih hnil
      rw [hr]
      exact ⟨_, rfl, hreads.feed x⟩

/-- A register is contested when two of the latest values differ. -/
theorem Reads.contested_iff (h : Reads l r) :
    r.contested = true ↔ ∃ x y, Latest l x ∧ Latest l y ∧ x.2 ≠ y.2 := by
  rw [h.contested]
  constructor
  · rintro ⟨x, hx, hne⟩
    exact ⟨x, _, hx, h.latest, hne⟩
  · rintro ⟨x, y, hx, hy, hne⟩
    by_cases hxr : x.2 = r.value
    · exact ⟨y, hy, fun hyr => hne (hxr.trans hyr.symm)⟩
    · exact ⟨x, hx, hxr⟩

/-- Registers fed with the same values, in any order and any number of times, agree. -/
theorem Reads.agree (h : Reads l r) (h' : Reads l' r') (hmem : ∀ x, x ∈ l ↔ x ∈ l') :
    r.stamp = r'.stamp ∧ r.contested = r'.contested := by
  have hiff : ∀ x, Latest l x ↔ Latest l' x :=
    fun x => ⟨fun hx => hx.mono hmem, fun hx => hx.mono fun y => (hmem y).symm⟩
  have hstamp : r.stamp = r'.stamp := (h.latest.mono hmem).stamp_eq h'.latest
  refine ⟨hstamp, Bool.eq_iff_iff.2 ?_⟩
  rw [h.contested_iff, h'.contested_iff]
  simp only [hiff]

end Register

end RaibitServer.Lib
