import Mathlib.Data.List.Count

/-!
# Lib.Sql — updates of a table of rows

A table is the list of its rows.  `update` is `UPDATE … SET … WHERE`, and `affected` its row count.  The
lemmas say what such a write does to the rows that a selection shows.
-/

namespace RaibitServer.Lib.Sql

universe u v

variable {α : Type u} {β : Type v}

def update (cond : α → Bool) (f : α → α) (rows : List α) : List α :=
  rows.map fun r => if cond r then f r else r

def affected (cond : α → Bool) (rows : List α) : Nat := rows.countP cond

variable {w p : α → Bool} {f : α → α} {l : List α}

@[simp] theorem update_nil : update w f [] = [] := rfl

@[simp] theorem update_cons (r : α) :
    update w f (r :: l) = (if w r then f r else r) :: update w f l := rfl

theorem update_eq_self (h : ∀ r ∈ l, w r = false) : update w f l = l := by
  unfold update
  conv_rhs => rw [← List.map_id l]
  refine List.map_congr_left fun r hr => ?_
  simp [h r hr]

theorem mem_update {r : α} : r ∈ update w f l ↔
    ∃ a ∈ l, r = if w a then f a else a := by
  unfold update
  rw [List.mem_map]
  exact exists_congr fun a => and_congr_right fun _ => eq_comm

/-- A write that keeps the selected key can be seen through the selection. -/
theorem filter_update (h : ∀ r, w r = true → p (f r) = p r) :
    (update w f l).filter p = update w f (l.filter p) := by
  induction l with
  | nil => rfl
  | cons r l ih =>
    have hp : p (if w r then f r else r) = p r := by
      by_cases hc : w r = true
      · rw [if_pos hc, h r hc]
      · rw [if_neg hc]
    rw [update_cons, List.filter_cons, List.filter_cons, hp, ih]
    by_cases hr : p r = true
    · rw [if_pos hr, if_pos hr, update_cons]
    · rw [if_neg hr, if_neg hr]

/-- A write elsewhere does not touch the selected l. -/
theorem filter_update_of_disjoint (h : ∀ r, w r = true → p (f r) = p r)
    (hd : ∀ r, p r = true → w r = false) : (update w f l).filter p = l.filter p := by
  rw [filter_update h]
  refine update_eq_self fun r hr => hd r ?_
  exact (List.mem_filter.1 hr).2

/-- A write that keeps a column. -/
theorem map_update {g : α → β} (h : ∀ r, w r = true → g (f r) = g r) : (update w f l).map g = l.map g := by
  unfold update
  rw [List.map_map]
  refine List.map_congr_left fun r _ => ?_
  by_cases hc : w r = true
  · simp [hc, h r hc]
  · simp [hc]

/-- What a write does row by row. -/
theorem forall₂_update {R : α → α → Prop} (hrefl : ∀ r, R r r) :
    List.Forall₂ R l (update w f l) ↔ ∀ r ∈ l, w r = true → R r (f r) := by
  induction l with
  | nil => simp
  | cons r l ih =>
    rw [update_cons, List.forall₂_cons, ih, List.forall_mem_cons]
    refine and_congr_left fun _ => ?_
    by_cases hc : w r = true
    · simp [hc]
    · simp [hc, hrefl r]

theorem affected_filter (h : ∀ r, w r = true → p r = true) :
    affected w (l.filter p) = affected w l := by
  unfold affected
  rw [List.countP_filter]
  refine List.countP_congr fun r _ => ?_
  by_cases hc : w r = true
  · simp [hc, h r hc]
  · simp [hc]

/-- A write keyed to the only row of a selection. -/
theorem affected_of_filter {a : α} (hl : l.filter p = [a]) (h : ∀ r, w r = true → p r = true) :
    affected w l = if w a then 1 else 0 := by
  rw [← affected_filter h, hl]
  unfold affected
  rw [List.countP_singleton]

/-- A write that affects one row rewrites that row and leaves the others. -/
theorem update_split (h : affected w l = 1) : ∃ pre r post, l = pre ++ r :: post ∧
    w r = true ∧ (∀ x ∈ pre, w x = false) ∧ (∀ x ∈ post, w x = false) ∧
    update w f l = pre ++ f r :: post := by
  induction l with
  | nil => simp [affected] at h
  | cons r l ih =>
    unfold affected at h
    rw [List.countP_cons] at h
    by_cases hc : w r = true
    · have hnone : ∀ x ∈ l, w x = false := by
        have hzero : l.countP w = 0 := by
          rw [if_pos hc] at h
          omega
        intro x hx
        simpa using List.countP_eq_zero.1 hzero x hx
      refine ⟨[], r, l, rfl, hc, by simp, hnone, ?_⟩
      rw [update_cons, if_pos hc, update_eq_self hnone, List.nil_append]
    · rw [if_neg hc] at h
      obtain ⟨pre, x, post, hl, hx, hpre, hpost, hupd⟩ := ih h
      refine ⟨r :: pre, x, post, by rw [hl, List.cons_append], hx, ?_, hpost, ?_⟩
      · intro y hy
        rcases List.mem_cons.1 hy with rfl | hy
        · simpa using hc
        · exact hpre y hy
      · rw [update_cons, if_neg hc, hupd, List.cons_append]

end RaibitServer.Lib.Sql
