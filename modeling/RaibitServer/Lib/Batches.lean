import Mathlib.Data.List.Basic
import Mathlib.Order.Defs.LinearOrder

/-!
# Lib.Batches — a fold that is cut into pages

`f` makes an output of each row and carries a state on.  A page takes outputs as long as their sizes fit and leaves
the state as it was before the first that does not.  `drain` asks for page after page, for what is left of the rows.
Whatever the cuts, it makes the outputs of the whole fold (`drain_eq`); every call makes progress and all rows are
taken in the end if each output fits on a page of its own (`call_progress`, `drain_end`).
-/

namespace RaibitServer.Lib.Batches

variable {σ α β : Type*} (f : σ → α → β × σ) (size : β → Nat) (most room : Nat)

/-- The outputs of the whole fold. -/
def outputs : σ → List α → List β
  | _, [] => []
  | s, a :: rows => (f s a).1 :: outputs (f s a).2 rows

/-- The state behind it. -/
def final (s : σ) (rows : List α) : σ := rows.foldl (fun s a => (f s a).2) s

def page : Nat → σ → List α → List β × σ
  | _, s, [] => ([], s)
  | room, s, a :: rows =>
    if size (f s a).1 ≤ room then
      let rest := page (room - size (f s a).1) (f s a).2 rows
      ((f s a).1 :: rest.1, rest.2)
    else ([], s)

/-- `calls` pages of at most `most` rows each; what was made of how many rows, the state, and the rows left. -/
def drain : Nat → σ → List α → List β × σ × List α
  | 0, s, rows => ([], s, rows)
  | calls + 1, s, rows =>
    let first := page f size room s (rows.take most)
    let rest := drain calls first.2 (rows.drop first.1.length)
    (first.1 ++ rest.1, rest.2)

theorem length_outputs (s : σ) (rows : List α) : (outputs f s rows).length = rows.length := by
  induction rows generalizing s with
  | nil => rfl
  | cons a rows ih => rw [outputs, List.length_cons, List.length_cons, ih]

theorem outputs_append (s : σ) (front rest : List α) :
    outputs f s (front ++ rest) = outputs f s front ++ outputs f (final f s front) rest := by
  induction front generalizing s with
  | nil => rfl
  | cons a front ih =>
    rw [List.cons_append, outputs, outputs, ih]
    rfl

theorem final_append (s : σ) (front rest : List α) :
    final f s (front ++ rest) = final f (final f s front) rest := List.foldl_append

variable {f size most room}

/-- A page is the fold over some of the first rows, all of which fit. -/
theorem page_eq {room : Nat} (s : σ) (rows : List α) :
    ∃ k, k ≤ rows.length ∧ page f size room s rows = (outputs f s (rows.take k), final f s (rows.take k)) ∧
      ∀ b ∈ outputs f s (rows.take k), size b ≤ room := by
  induction rows generalizing s room with
  | nil => exact ⟨0, Nat.le_refl _, rfl, by simp [outputs]⟩
  | cons a rows ih =>
    unfold page
    by_cases h : size (f s a).1 ≤ room
    · obtain ⟨k, hk, hpage, hfit⟩ := @ih (room - size (f s a).1) (f s a).2
      rw [if_pos h, hpage]
      refine ⟨k + 1, by simpa using hk, rfl, fun b hb => ?_⟩
      rcases List.mem_cons.1 hb with rfl | hb
      · exact h
      · exact Nat.le_trans (hfit b hb) (Nat.sub_le _ _)
    · rw [if_neg h]
      exact ⟨0, Nat.zero_le _, rfl, by simp [outputs]⟩

variable {rows : List α} {s : σ}

/-- A page whose first row fits is not empty. -/
theorem page_ne_nil (hrows : rows ≠ []) (h : ∀ b ∈ outputs f s rows, size b ≤ room) :
    (page f size room s rows).1 ≠ [] := by
  cases rows with
  | nil => exact absurd rfl hrows
  | cons a rows =>
    unfold page
    rw [if_pos (h _ List.mem_cons_self)]
    exact List.cons_ne_nil _ _

/-- The page of a call, of at most `most` rows. -/
theorem page_take (s : σ) (rows : List α) :
    ∃ j, j ≤ rows.length ∧ page f size room s (rows.take most) = (outputs f s (rows.take j), final f s (rows.take j)) ∧
      (outputs f s (rows.take j)).length = j ∧ ∀ b ∈ outputs f s (rows.take j), size b ≤ room := by
  obtain ⟨j, hj, hpage, hfit⟩ := @page_eq _ _ _ f size room s (rows.take most)
  rw [List.length_take] at hj
  have htake : (rows.take most).take j = rows.take j := by
    rw [List.take_take, Nat.min_eq_left (by omega)]
  rw [htake] at hpage hfit
  refine ⟨j, by omega, hpage, ?_, hfit⟩
  rw [length_outputs, List.length_take, Nat.min_eq_left (by omega)]

/-- **Calls make the outputs of the fold** over some of the first rows, all of which fit, and leave the others. -/
theorem drain_eq (calls : Nat) (s : σ) (rows : List α) :
    ∃ k, k ≤ rows.length ∧ drain f size most room calls s rows =
        (outputs f s (rows.take k), final f s (rows.take k), rows.drop k) ∧
      ∀ b ∈ outputs f s (rows.take k), size b ≤ room := by
  induction calls generalizing s rows with
  | zero => exact ⟨0, Nat.zero_le _, rfl, by simp [outputs]⟩
  | succ calls ih =>
    obtain ⟨j, hj, hpage, hlength, hfit⟩ := @page_take _ _ _ f size most room s rows
    obtain ⟨k, hk, hrest, hfits⟩ := ih (final f s (rows.take j)) (rows.drop j)
    have hsplit : rows.take (j + k) = rows.take j ++ (rows.drop j).take k := List.take_add
    rw [List.length_drop] at hk
    refine ⟨j + k, by omega, ?_, ?_⟩
    · rw [hsplit, outputs_append, final_append]
      unfold drain
      rw [hpage]
      dsimp only
      rw [hlength, hrest, List.drop_drop]
    · rw [hsplit, outputs_append]
      intro b hb
      rcases List.mem_append.1 hb with hb | hb
      · exact hfit b hb
      · exact hfits b hb

theorem fits_drop (h : ∀ b ∈ outputs f s rows, size b ≤ room) (k : Nat) :
    ∀ b ∈ outputs f (final f s (rows.take k)) (rows.drop k), size b ≤ room := by
  intro b hb
  refine h b ?_
  rw [← List.take_append_drop k rows, outputs_append]
  exact List.mem_append_right _ hb

/-- A call makes progress if the first row that is left fits. -/
theorem call_progress (hmost : 0 < most) (h : ∀ b ∈ outputs f s rows, size b ≤ room) (hrows : rows ≠ []) :
    (page f size room s (rows.take most)).1 ≠ [] := by
  refine page_ne_nil ?_ fun b hb => h b ?_
  · simpa only [ne_eq, List.take_eq_nil_iff, hrows, or_false] using Nat.ne_of_gt hmost
  · rw [← List.take_append_drop most rows, outputs_append]
    exact List.mem_append_left _ hb

/-- If every output fits, as many calls as there are rows make them all. -/
theorem drain_end (hmost : 0 < most) {calls : Nat} (hcalls : rows.length ≤ calls)
    (h : ∀ b ∈ outputs f s rows, size b ≤ room) : (drain f size most room calls s rows).2.2 = [] := by
  induction calls generalizing s rows with
  | zero => exact List.eq_nil_of_length_eq_zero (Nat.le_zero.1 hcalls)
  | succ calls ih =>
    obtain ⟨j, -, hpage, hlength, -⟩ := @page_take _ _ _ f size most room s rows
    unfold drain
    rw [hpage]
    dsimp only
    rw [hlength]
    refine ih ?_ (fits_drop h j)
    rw [List.length_drop]
    by_cases hrows : rows = []
    · rw [hrows]
      exact Nat.le_trans (Nat.sub_le _ _) (Nat.zero_le _)
    · have hsome := call_progress hmost h hrows
      rw [hpage] at hsome
      have : j ≠ 0 := fun hj => hsome (List.eq_nil_of_length_eq_zero (hlength.trans hj))
      omega

end RaibitServer.Lib.Batches
