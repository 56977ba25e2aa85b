import Mathlib.Data.List.Sort

/-!
# Lib.Keyset — pages of rows behind a key

Rows are read in the order of their keys, a page at a time, each page behind the key of the last row of the
page before.  `mem_take_iff`: a page holds exactly the rows up to its last key, so no row between two
pages is skipped or read twice.  `after_append_cons`: behind the last key come the rows that follow, whether
the rows are ordered first or after (`inOrder_filter`).  `head?_newestFirst`: which row comes first in descending order.
-/

namespace RaibitServer.Lib.Keyset

variable {α κ : Type} (key : α → κ) (cmp : κ → κ → Ordering)

/-- The rows in the order of their keys; equal keys keep their order. -/
def inOrder (rows : List α) : List α := rows.insertionSort fun a b => (cmp (key a) (key b)).isLE = true

/-- The rows behind a key. -/
def after (c : κ) (rows : List α) : List α := rows.filter fun r => (cmp (key r) c).isGT

variable {rows : List α} {c : κ}

theorem mem_inOrder {r : α} : r ∈ inOrder key cmp rows ↔ r ∈ rows := List.mem_insertionSort _

theorem mem_after {r : α} : r ∈ after key cmp c rows ↔ r ∈ rows ∧ cmp (key r) c = .gt := by
  unfold after
  rw [List.mem_filter, Ordering.isGT_iff_eq_gt]

theorem length_inOrder (rows : List α) : (inOrder key cmp rows).length = rows.length :=
  (List.perm_insertionSort _ rows).length_eq

/-- A comparison of parts is a comparison of wholes. -/
instance transCmp_on {β : Type} (f : β → κ) [Std.TransCmp cmp] : Std.TransCmp fun a b => cmp (f a) (f b) where
  eq_swap := Std.OrientedCmp.eq_swap
  isLE_trans := Std.TransCmp.isLE_trans

variable {key cmp}

theorem isLE_of_not_gt {a : κ} (h : cmp a c ≠ .gt) : (cmp a c).isLE = true := Ordering.isLE_iff_ne_gt.2 h

/-- Only the comparisons of the rows at hand matter. -/
theorem inOrder_congr {cmp' : κ → κ → Ordering}
    (h : ∀ a ∈ rows, ∀ b ∈ rows, cmp (key a) (key b) = cmp' (key a) (key b)) :
    inOrder key cmp rows = inOrder key cmp' rows := by
  have hinsert (a : α) (l : List α) (hl : ∀ b ∈ l, cmp (key a) (key b) = cmp' (key a) (key b)) :
      l.orderedInsert (fun a b => (cmp (key a) (key b)).isLE = true) a =
        l.orderedInsert (fun a b => (cmp' (key a) (key b)).isLE = true) a := by
    induction l with
    | nil => rfl
    | cons b l ih =>
      obtain ⟨hb, hl⟩ := List.forall_mem_cons.1 hl
      rw [List.orderedInsert_cons, List.orderedInsert_cons, hb, ih hl]
  induction rows with
  | nil => rfl
  | cons a rows ih =>
    have hrows : inOrder key cmp rows = inOrder key cmp' rows :=
      ih fun b hb c hc => h b (List.mem_cons_of_mem _ hb) c (List.mem_cons_of_mem _ hc)
    show (inOrder key cmp rows).orderedInsert _ a = (inOrder key cmp' rows).orderedInsert _ a
    rw [hrows]
    exact hinsert a _ fun b hb => h a List.mem_cons_self b (List.mem_cons_of_mem _ ((mem_inOrder key cmp').1 hb))

variable [Std.TransCmp cmp]

/-- Behind a key and up to a later one. -/
theorem isLE_split {a b : κ} (hbc : cmp b c = .gt) :
    (cmp a b).isLE = true ↔ (cmp a c).isLE = true ∨ (cmp a c = .gt ∧ (cmp a b).isLE = true) := by
  constructor
  · intro h
    by_cases hac : cmp a c = .gt
    · exact .inr ⟨hac, h⟩
    · exact .inl (isLE_of_not_gt hac)
  · rintro (h | ⟨-, h⟩)
    · have hcb : cmp c b = .lt := Std.OrientedCmp.gt_iff_lt.1 hbc
      rw [Std.TransCmp.lt_of_isLE_of_lt h hcb]
      rfl
    · exact h

variable [Std.LawfulEqCmp cmp]

/-- Rows with distinct keys come in strictly increasing order. -/
theorem pairwise_inOrder {rows : List α} (hkeys : (rows.map key).Nodup) :
    (inOrder key cmp rows).Pairwise fun a b => cmp (key a) (key b) = .lt := by
  have htotal : Std.Total fun a b : α => (cmp (key a) (key b)).isLE = true := ⟨fun a b => by
    have hswap : cmp (key b) (key a) = (cmp (key a) (key b)).swap := Std.OrientedCmp.eq_swap
    rw [hswap]
    cases cmp (key a) (key b) <;> simp⟩
  have htrans : IsTrans α fun a b : α => (cmp (key a) (key b)).isLE = true := ⟨fun _ _ _ => Std.TransCmp.isLE_trans⟩
  have hle : (inOrder key cmp rows).Pairwise fun a b => (cmp (key a) (key b)).isLE = true :=
    List.pairwise_insertionSort _ rows
  have hne : (inOrder key cmp rows).Pairwise fun a b => key a ≠ key b := by
    have hperm := (List.perm_insertionSort (fun a b => (cmp (key a) (key b)).isLE = true) rows).map key
    exact List.pairwise_map.1 (hperm.nodup_iff.2 hkeys)
  refine (hle.and hne).imp fun h => ?_
  rcases Ordering.isLE_iff_eq_lt_or_eq_eq.1 h.1 with hlt | heq
  · exact hlt
  · exact absurd (Std.LawfulEqCmp.eq_of_compare heq) h.2

/-- A page of rows in strictly increasing order: the rows up to its last key. -/
theorem mem_take_iff {l : List α} (hl : l.Pairwise fun a b => cmp (key a) (key b) = .lt) {n : Nat} {p : α}
    (hp : (l.take n).getLast? = some p) (r : α) : r ∈ l.take n ↔ r ∈ l ∧ (cmp (key r) (key p)).isLE = true := by
  have hsplit : l.take n ++ l.drop n = l := List.take_append_drop n l
  rw [← hsplit, List.pairwise_append] at hl
  obtain ⟨htake, -, hbetween⟩ := hl
  obtain ⟨front, hfront⟩ := List.getLast?_eq_some_iff.1 hp
  constructor
  · intro hr
    refine ⟨List.mem_of_mem_take hr, ?_⟩
    rw [hfront, List.mem_append, List.mem_singleton] at hr
    rw [hfront, List.pairwise_append] at htake
    rcases hr with hr | rfl
    · rw [htake.2.2 r hr p (List.mem_singleton.2 rfl)]
      rfl
    · have hself : cmp (key r) (key r) = .eq := Std.ReflCmp.compare_self
      rw [hself]
      rfl
  · rintro ⟨hr, hle⟩
    rw [← hsplit, List.mem_append] at hr
    rcases hr with hr | hr
    · exact hr
    · have hlt := hbetween p (List.mem_of_getLast? hp) r hr
      exact absurd hle (Std.OrientedCmp.not_isLE_of_lt hlt)

/-- Rows may be left out before or after they are ordered. -/
theorem inOrder_filter (hkeys : (rows.map key).Nodup) (p : α → Bool) :
    inOrder key cmp (rows.filter p) = (inOrder key cmp rows).filter p := by
  have hfiltered : ((rows.filter p).map key).Nodup := hkeys.sublist (List.filter_sublist.map key)
  have hperm : (inOrder key cmp (rows.filter p)).Perm ((inOrder key cmp rows).filter p) :=
    (List.perm_insertionSort _ _).trans ((List.perm_insertionSort _ _).filter p).symm
  refine hperm.eq_of_pairwise ?_ (pairwise_inOrder hfiltered) ((pairwise_inOrder hkeys).filter p)
  intro a b _ _ hab hba
  have hgt : cmp (key a) (key b) = .gt := Std.OrientedCmp.gt_iff_lt.2 hba
  rw [hab] at hgt
  cases hgt

/-- Behind a row come the rows that follow it. -/
theorem after_append_cons {front back : List α} {a : α}
    (hl : (front ++ a :: back).Pairwise fun a b => cmp (key a) (key b) = .lt) :
    after key cmp (key a) (front ++ a :: back) = back := by
  obtain ⟨-, hback, hbetween⟩ := List.pairwise_append.1 hl
  have hself : cmp (key a) (key a) = .eq := Std.ReflCmp.compare_self
  have hnone : front.filter (fun r => (cmp (key r) (key a)).isGT) = [] := by
    refine List.filter_eq_nil_iff.2 fun r hr => ?_
    rw [hbetween r hr a List.mem_cons_self]
    decide
  have hall : back.filter (fun r => (cmp (key r) (key a)).isGT) = back := by
    refine List.filter_eq_self.2 fun r hr => ?_
    rw [Std.OrientedCmp.gt_iff_lt.2 (List.rel_of_pairwise_cons hback hr)]
    rfl
  unfold after
  rw [List.filter_append, hnone, List.nil_append, List.filter_cons_of_neg (by rw [hself]; decide), hall]

/-- The rows behind a row of the order, in the order of a comparison that is the same for them. -/
theorem inOrder_behind {cmp' : κ → κ → Ordering} (hkeys : (rows.map key).Nodup)
    (hcmp : ∀ a ∈ rows, ∀ b ∈ rows, cmp' (key a) (key b) = cmp (key a) (key b)) {front back : List α} {a : α}
    (hsplit : inOrder key cmp rows = front ++ a :: back) {p : α → Bool}
    (hp : ∀ r ∈ rows, p r = (cmp (key r) (key a)).isGT) : inOrder key cmp' (rows.filter p) = back := by
  have hsorted : (inOrder key cmp rows).Pairwise _ := pairwise_inOrder hkeys
  calc inOrder key cmp' (rows.filter p)
      = inOrder key cmp (rows.filter p) :=
        inOrder_congr fun r hr r' hr' => hcmp r (List.mem_of_mem_filter hr) r' (List.mem_of_mem_filter hr')
    _ = inOrder key cmp (after key cmp (key a) rows) := by rw [List.filter_congr hp]; rfl
    _ = after key cmp (key a) (inOrder key cmp rows) := inOrder_filter hkeys _
    _ = back := by
        rw [hsplit] at hsorted ⊢
        exact after_append_cons hsorted

/-! ### Descending order -/

section NewestFirst

variable {α κ : Type} [LinearOrder κ] {key : α → κ}

/-- The rows by descending key; equal keys keep their order. -/
def newestFirst (key : α → κ) (rows : List α) : List α := rows.insertionSort fun a b => key b ≤ key a

/-- The first of the rows with the largest key. -/
def Leads (key : α → κ) (rows : List α) (d : α) : Prop :=
  ∃ l₁ l₂, rows = l₁ ++ d :: l₂ ∧ (∀ e ∈ l₁, key e < key d) ∧ ∀ e ∈ l₂, key e ≤ key d

variable {d : α} {rows : List α}

theorem Leads.mem (h : Leads key rows d) : d ∈ rows := by
  obtain ⟨l₁, l₂, rfl, -, -⟩ := h
  simp

theorem Leads.le {e : α} (h : Leads key rows d) (he : e ∈ rows) : key e ≤ key d := by
  obtain ⟨l₁, l₂, rfl, hbefore, hafter⟩ := h
  rcases List.mem_append.1 he with he | he
  · exact (hbefore e he).le
  · rcases List.mem_cons.1 he with rfl | he
    · exact le_rfl
    · exact hafter e he

theorem head?_newestFirst_cons (a : α) (rows : List α) :
    (newestFirst key (a :: rows)).head? =
      some ((newestFirst key rows).head?.elim a fun b => if key b ≤ key a then a else b) := by
  show (List.orderedInsert _ a (newestFirst key rows)).head? = _
  cases hrows : newestFirst key rows with
  | nil => rfl
  | cons b l =>
    rw [List.orderedInsert_cons]
    by_cases h : key b ≤ key a
    · simp [h]
    · simp [h]

/-- The head of the descending order. -/
theorem head?_newestFirst : (newestFirst key rows).head? = some d ↔ Leads key rows d := by
  induction rows generalizing d with
  | nil => exact ⟨nofun, fun h => nomatch h.mem⟩
  | cons a rows ih =>
    rw [head?_newestFirst_cons, Option.some.injEq]
    constructor
    · intro h
      cases hhead : (newestFirst key rows).head? with
      | none =>
        have hnil : newestFirst key rows = [] := List.head?_eq_none_iff.1 hhead
        have hrows : rows = [] := List.Perm.eq_nil (hnil ▸ (List.perm_insertionSort _ rows).symm)
        rw [hhead] at h
        obtain rfl : a = d := h
        subst hrows
        exact ⟨[], [], rfl, nofun, nofun⟩
      | some b =>
        have hb := ih.1 hhead
        rw [hhead] at h
        change (if key b ≤ key a then a else b) = d at h
        split_ifs at h with hle
        · subst h
          exact ⟨[], rows, rfl, nofun, fun e he => (hb.le he).trans hle⟩
        · subst h
          obtain ⟨l₁, l₂, rfl, hbefore, hafter⟩ := hb
          refine ⟨a :: l₁, l₂, rfl, fun e he => ?_, hafter⟩
          rcases List.mem_cons.1 he with rfl | he
          · exact not_le.1 hle
          · exact hbefore e he
    · rintro ⟨l₁, l₂, hrows, hbefore, hafter⟩
      cases l₁ with
      | nil =>
        obtain ⟨rfl, rfl⟩ := List.cons.inj hrows
        cases hhead : (newestFirst key rows).head? with
        | none => rfl
        | some b => exact if_pos (hafter b (ih.1 hhead).mem)
      | cons c l₁ =>
        rw [List.cons_append] at hrows
        obtain ⟨rfl, rfl⟩ := List.cons.inj hrows
        have hd : (newestFirst key (l₁ ++ d :: l₂)).head? = some d :=
          ih.2 ⟨l₁, l₂, rfl, fun e he => hbefore e (List.mem_cons_of_mem _ he), hafter⟩
        rw [hd]
        exact if_neg (not_le.2 (hbefore a List.mem_cons_self))

end NewestFirst

end RaibitServer.Lib.Keyset
