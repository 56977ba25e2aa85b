import RaibitServer.Lib.Guard
import RaibitServer.Lib.Json
import RaibitServer.Lib.Keyset

/-!
# Lib.Paging — reading a list page by page

A client asks for a page, then for the page behind the cursor it was given, and so on until a page comes
without a cursor.  `follow_complete`: if each answer is the next `limit` rows, with the cursor of the last
one where there are more, the client ends with all rows in their order.
-/

namespace RaibitServer.Lib.Paging

/-- A text that a client sends as a cursor: the base64url text of a JSON value, or one that is no such text. -/
inductive CursorText
  | json (value : Json)
  | other (text : String)

variable {α β γ ε : Type}

/-- At most `calls` calls from `cursor` on; `call` is the number of the first.  `none` if there is still a cursor. -/
def follow (page : Nat → Option γ → Except ε (List β × Option γ)) :
    Nat → Nat → Option γ → Except ε (Option (List β))
  | 0, _, _ => .ok none
  | calls + 1, call, cursor => do
    let (rows, next) ← page call cursor
    match next with
    | none => return some rows
    | some next => return (← follow page calls (call + 1) (some next)).map (rows ++ ·)

/-- What is left of the rows behind a cursor. -/
inductive Stands (cursor : α → γ) (rows : List α) : List α → Option γ → Prop
  | start : Stands cursor rows rows none
  | behind {front rest : List α} {a : α} (h : rows = front ++ a :: rest) : Stands cursor rows rest (some (cursor a))

/-- The next rows, with the cursor of the last of them where there are more. -/
structure IsPage (Shows : β → α → Prop) (cursor : α → γ) (limit : Nat) (rest : List α)
    (page : List β × Option γ) : Prop where
  rows : List.Forall₂ Shows page.1 (rest.take limit)
  next : page.2 = if limit < rest.length then (rest.take limit).getLast?.map cursor else none

theorem Stands.suffix {cursor : α → γ} {rows rest : List α} {c : Option γ} (h : Stands cursor rows rest c) :
    rest <:+ rows := by
  cases h with
  | start => exact List.suffix_rfl
  | behind h =>
    rw [h]
    exact (List.suffix_cons _ _).trans (List.suffix_append _ _)

/-- One row more than the page tells whether there are more. -/
theorem take_one_more (n : Nat) (rows : List α) : (rows.take (n + 1)).take n = rows.take n ∧
    (n < (rows.take (n + 1)).length ↔ n < rows.length) := by
  rw [List.take_take, Nat.min_eq_left (Nat.le_succ _), List.length_take]
  exact ⟨rfl, by omega⟩

variable {Shows : β → α → Prop} {cursor : α → γ} {limit : Nat} {rows : List α}
  {page : Nat → Option γ → Except ε (List β × Option γ)}

/-- **All pages** make up the rows, whatever number of calls more than that of the rows is allowed. -/
theorem follow_complete (hlimit : 0 < limit)
    (hpage : ∀ call rest c, Stands cursor rows rest c →
      ∃ p, page call c = .ok p ∧ IsPage Shows cursor limit rest p)
    {calls call : Nat} {rest : List α} {c : Option γ} (hstands : Stands cursor rows rest c)
    (hcalls : rest.length < calls) :
    ∃ shown, follow page calls call c = .ok (some shown) ∧ List.Forall₂ Shows shown rest := by
  induction calls generalizing call rest c with
  | zero => exact absurd hcalls (Nat.not_lt_zero _)
  | succ calls ih =>
    obtain ⟨⟨shown, next⟩, hp, hrows, hnext⟩ := hpage call rest c hstands
    dsimp only at hrows hnext
    unfold follow
    rw [hp]
    by_cases hmore : limit < rest.length
    · obtain ⟨last, hlast⟩ : ∃ last, (rest.take limit).getLast? = some last := by
        have hne : rest.take limit ≠ [] := by
          intro hnil
          rcases List.take_eq_nil_iff.1 hnil with rfl | rfl
          · exact absurd hlimit (Nat.lt_irrefl 0)
          · exact absurd hmore (Nat.not_lt_zero _)
        exact ⟨_, List.getLast?_eq_getLast_of_ne_nil hne⟩
      obtain ⟨front, hfront⟩ := List.getLast?_eq_some_iff.1 hlast
      have hnext' : Stands cursor rows (rest.drop limit) (some (cursor last)) := by
        obtain ⟨before, hbefore⟩ := hstands.suffix
        refine @Stands.behind _ _ _ _ (before ++ front) _ _ ?_
        rw [← hbefore, List.append_assoc]
        conv_lhs => rw [← List.take_append_drop limit rest, hfront]
        rw [List.append_assoc]
        rfl
      have hless : (rest.drop limit).length < calls := by
        rw [List.length_drop]
        omega
      obtain ⟨others, hothers, hshown⟩ := @ih (call + 1) _ _ hnext' hless
      rw [if_pos hmore, hlast] at hnext
      obtain rfl : next = some (cursor last) := hnext
      refine ⟨shown ++ others, ?_, ?_⟩
      · show (do
          let all ← follow page calls (call + 1) (some (cursor last))
          pure (all.map (shown ++ ·))) = Except.ok (some (shown ++ others))
        rw [hothers]
        rfl
      · have hall : List.Forall₂ Shows (shown ++ others) (rest.take limit ++ rest.drop limit) :=
          List.rel_append hrows hshown
        rwa [List.take_append_drop] at hall
    · rw [if_neg hmore] at hnext
      obtain rfl : next = none := hnext
      rw [List.take_of_length_le (Nat.le_of_not_lt hmore)] at hrows
      exact ⟨shown, rfl, hrows⟩

end RaibitServer.Lib.Paging
