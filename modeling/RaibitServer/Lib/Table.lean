import Mathlib.Data.List.Perm.Basic
import Mathlib.Data.List.Nodup

/-!
# Lib.Table — tables as lists of rows

The three writes a table sees besides an insert:

* `replace key a l`: every row with `a`'s key becomes `a` (`rows.map(r => r.id === a.id ? a : r)`);
* `updateFirst p f l`: the row a search for `p` returns is rewritten in place
  (`rows.map(r => r === found ? f(r) : r)`, where `===` compares references);
* `filter`.

For each write there is one lemma per way of reading: by `find?`, by membership, by a `filter`.
-/

namespace RaibitServer.Lib.Table

variable {α κ : Type*}

variable {l : List α}

/-- What a search returns is a row of the table that meets the condition. -/
theorem find?_spec {p : α → Prop} [DecidablePred p] {a : α} (h : l.find? (fun r => decide (p r)) = some a) :
    a ∈ l ∧ p a := by
  have hp := List.find?_some h
  exact ⟨List.mem_of_find?_eq_some h, of_decide_eq_true hp⟩

/-- Rewriting rows outside a slice leaves the slice alone. -/
theorem filter_rewrite {p : α → Prop} [DecidablePred p] {f : α → α} {q : α → Bool}
    (h : ∀ r ∈ l, p r → q r = false ∧ q (f r) = false) :
    (l.map fun r => if p r then f r else r).filter q = l.filter q := by
  induction l with
  | nil => rfl
  | cons r l ih =>
    have htail := ih fun r' hr' => h r' (List.mem_cons_of_mem _ hr')
    by_cases hp : p r
    · obtain ⟨hq, hq'⟩ := h r List.mem_cons_self hp
      rw [List.map_cons, if_pos hp, List.filter_cons_of_neg (by simp [hq']),
        List.filter_cons_of_neg (by simp [hq]), htail]
    · rw [List.map_cons, if_neg hp, List.filter_cons, List.filter_cons, htail]

section Replace

variable [DecidableEq κ] (key : α → κ)

def replace (a : α) (l : List α) : List α := l.map fun r => if key r = key a then a else r

@[simp] theorem map_key_replace (a : α) (l : List α) : (replace key a l).map key = l.map key := by
  unfold replace
  rw [List.map_map]
  refine List.map_congr_left fun r _ => ?_
  by_cases h : key r = key a <;> simp [h]

theorem mem_replace {a b : α} {l : List α} :
    b ∈ replace key a l ↔ (b ∈ l ∧ key b ≠ key a) ∨ (b = a ∧ ∃ r ∈ l, key r = key a) := by
  unfold replace
  constructor
  · intro h
    obtain ⟨r, hr, rfl⟩ := List.mem_map.1 h
    by_cases hk : key r = key a
    · exact .inr ⟨by simp [hk], r, hr, hk⟩
    · exact .inl (by simpa [hk] using hr)
  · rintro (⟨hb, hk⟩ | ⟨rfl, r, hr, hk⟩)
    · exact List.mem_map.2 ⟨b, hb, by simp [hk]⟩
    · exact List.mem_map.2 ⟨r, hr, by simp [hk]⟩

/-- A search whose predicate is constant on the replaced rows: it misses them before and after, or
it finds the new row where it found an old one. -/
theorem find?_replace {a : α} {p : α → Bool} {l : List α}
    (hp : ∀ r ∈ l, key r = key a → p r = p a) :
    (replace key a l).find? p = (l.find? p).map fun r => if key r = key a then a else r := by
  induction l with
  | nil => rfl
  | cons r l ih =>
    have hl := ih fun r' hr' => hp r' (List.mem_cons_of_mem _ hr')
    unfold replace at hl ⊢
    by_cases hk : key r = key a
    · have hr := hp r List.mem_cons_self hk
      rcases hpa : p a with _ | _ <;> simp [hk, hr, hpa, hl]
    · rcases hpr : p r with _ | _ <;> simp [hk, hpr, hl]

theorem find?_replace_hit {a r : α} {p : α → Bool} {l : List α}
    (hp : ∀ r ∈ l, key r = key a → p r = p a) (hr : l.find? p = some r) (hk : key r = key a) :
    (replace key a l).find? p = some a := by
  rw [find?_replace key hp, hr, Option.map_some, if_pos hk]

theorem find?_replace_miss {a : α} {p : α → Bool} {l : List α}
    (hp : ∀ r ∈ l, key r = key a → p r = p a) (ha : p a = false) :
    (replace key a l).find? p = l.find? p := by
  rw [find?_replace key hp]
  refine (Option.map_congr fun r hr => ?_).trans Option.map_id'
  have hne : key r ≠ key a := fun h => by
    have := hp r (List.mem_of_find?_eq_some hr) h
    simp [List.find?_some hr, ha] at this
  rw [if_neg hne]

/-- Replacing a row by itself changes nothing, when keys identify rows. -/
theorem replace_self {a : α} {l : List α} (ha : a ∈ l) (hl : (l.map key).Nodup) :
    replace key a l = l := by
  unfold replace
  refine (List.map_congr_left fun r hr => ?_).trans (List.map_id l)
  by_cases hk : key r = key a
  · simp [List.inj_on_of_nodup_map hl hr ha hk]
  · simp [hk]

theorem find?_unique {α : Type*} {a : α} {p : α → Bool} {l : List α} (ha : a ∈ l) (hp : p a = true)
    (hl : ∀ b ∈ l, p b = true → b = a) : l.find? p = some a := by
  obtain ⟨b, hb⟩ := Option.isSome_iff_exists.1 (List.find?_isSome.2 ⟨a, ha, hp⟩)
  rw [hb, hl b (List.mem_of_find?_eq_some hb) (List.find?_some hb)]

/-- Where keys identify rows, the search by key finds the row. -/
theorem find?_key_eq {a : α} {l : List α} (ha : a ∈ l) (hl : (l.map key).Nodup) :
    l.find? (fun r => decide (key r = key a)) = some a :=
  find?_unique ha (by simp) fun _ hb hkey =>
    List.inj_on_of_nodup_map hl hb ha (of_decide_eq_true hkey)

/-- Where keys identify rows, a row is the only one with its key. -/
theorem filter_key_eq {a : α} {l : List α} (ha : a ∈ l) (hl : (l.map key).Nodup) :
    l.filter (fun r => decide (key r = key a)) = [a] := by
  induction l with
  | nil => simp at ha
  | cons r l ih =>
    rw [List.map_cons, List.nodup_cons] at hl
    rcases List.mem_cons.1 ha with rfl | ha
    · have hnone : l.filter (fun r => decide (key r = key a)) = [] :=
        List.filter_eq_nil_iff.2 fun r hr => by
          have hne : key r ≠ key a := fun h => hl.1 (h ▸ List.mem_map_of_mem hr)
          simpa using hne
      simp [hnone]
    · have hne : key r ≠ key a := fun h => hl.1 (h ▸ List.mem_map_of_mem ha)
      simp [hne, ih ha hl.2]

end Replace

/-- Dropping rows outside a slice leaves the slice alone. -/
theorem filter_filter_of_imp {p q : α → Bool} (h : ∀ r ∈ l, p r → q r) : (l.filter q).filter p = l.filter p := by
  rw [List.filter_filter]
  refine List.filter_congr fun r hr => ?_
  rcases hp : p r with _ | _
  · rfl
  · simp [h r hr hp]

section UpdateFirst

def updateFirst (p : α → Bool) (f : α → α) : List α → List α
  | [] => []
  | r :: l => if p r then f r :: l else r :: updateFirst p f l

variable {p q : α → Bool} {f : α → α}

theorem map_updateFirst {β : Type*} {g : α → β} (hg : ∀ r, p r → g (f r) = g r) (l : List α) :
    (updateFirst p f l).map g = l.map g := by
  induction l with
  | nil => rfl
  | cons r l ih => by_cases h : p r = true <;> simp [updateFirst, h, hg, ih]

/-- An update of a row inside a slice is an update of the slice. -/
theorem filter_updateFirst (hf : ∀ r, q r → q (f r)) (l : List α) :
    (updateFirst (fun r => q r && p r) f l).filter q = updateFirst p f (l.filter q) := by
  induction l with
  | nil => rfl
  | cons r l ih =>
    by_cases hq : q r = true
    · by_cases hp : p r = true <;> simp [updateFirst, hq, hp, hf r hq, ih]
    · simp [updateFirst, hq, ih]

/-- An update outside a slice leaves the slice alone. -/
theorem filter_updateFirst_of_not (hp : ∀ r, p r → q r = false ∧ q (f r) = false) (l : List α) :
    (updateFirst p f l).filter q = l.filter q := by
  induction l with
  | nil => rfl
  | cons r l ih =>
    by_cases h : p r = true
    · simp [updateFirst, h, hp r h]
    · rcases hq : q r with _ | _ <;> simp [updateFirst, h, hq, ih]

variable {l : List α} {a : α}

theorem updateFirst_none (h : l.find? p = none) : updateFirst p f l = l := by
  induction l with
  | nil => rfl
  | cons r l ih =>
    rw [List.find?_cons] at h
    cases hp : p r with
    | true => simp [hp] at h
    | false => simp [updateFirst, hp, ih (by simpa [hp] using h)]

/-- What the search found is what the update rewrites. -/
theorem updateFirst_split (h : l.find? p = some a) :
    ∃ l₁ l₂, l = l₁ ++ a :: l₂ ∧ updateFirst p f l = l₁ ++ f a :: l₂ ∧ ∀ r ∈ l₁, p r = false := by
  induction l with
  | nil => simp at h
  | cons r l ih =>
    by_cases hp : p r = true
    · obtain rfl : r = a := by simpa [hp] using h
      exact ⟨[], l, rfl, by simp [updateFirst, hp], by simp⟩
    · obtain ⟨l₁, l₂, rfl, hu, hn⟩ := ih (by simpa [hp] using h)
      refine ⟨r :: l₁, l₂, rfl, by simp [updateFirst, hp, hu], ?_⟩
      rintro r' hr'
      rcases List.mem_cons.1 hr' with rfl | hr'
      · simpa using hp
      · exact hn r' hr'

/-- A row after the update: the rewritten one, or one that was there. -/
theorem mem_updateFirst {r : α} (found : l.find? p = some a) (hr : r ∈ updateFirst p f l) : r = f a ∨ r ∈ l := by
  obtain ⟨l₁, l₂, rfl, hu, -⟩ := updateFirst_split (f := f) found
  rw [hu] at hr
  simp only [List.mem_append, List.mem_cons] at hr ⊢
  rcases hr with hr | rfl | hr
  · exact .inr (.inl hr)
  · exact .inl rfl
  · exact .inr (.inr (.inr hr))

/-- A row at its place after the update: as it was, or rewritten because the search found it. -/
theorem getElem?_updateFirst {i : Nat} (h : l[i]? = some a) :
    ∃ b, (updateFirst p f l)[i]? = some b ∧ (b = a ∨ (l.find? p = some a ∧ b = f a)) := by
  induction l generalizing i with
  | nil => simp at h
  | cons r l ih =>
    by_cases hp : p r = true
    · cases i with
      | zero =>
        obtain rfl : r = a := by simpa using h
        exact ⟨f r, by simp [updateFirst, hp], .inr ⟨by simp [hp], rfl⟩⟩
      | succ i => exact ⟨a, by simpa [updateFirst, hp] using h, .inl rfl⟩
    · cases i with
      | zero => exact ⟨a, by simpa [updateFirst, hp] using h, .inl rfl⟩
      | succ i =>
        obtain ⟨b, hb, hcases⟩ := ih (i := i) (by simpa using h)
        exact ⟨b, by simpa [updateFirst, hp] using hb, by simpa [hp] using hcases⟩

/-- An update that a relation between earlier and later rows does not see. -/
theorem pairwise_updateFirst {R : α → α → Prop} (hleft : ∀ a b, p a → R a b → R (f a) b)
    (hright : ∀ a b, p b → R a b → R a (f b)) (h : l.Pairwise R) : (updateFirst p f l).Pairwise R := by
  cases hfind : l.find? p with
  | none =>
    rw [updateFirst_none hfind]
    exact h
  | some a =>
    have hp := List.find?_some hfind
    obtain ⟨l₁, l₂, rfl, hu, -⟩ := updateFirst_split (f := f) hfind
    rw [hu]
    rw [List.pairwise_append, List.pairwise_cons] at h ⊢
    obtain ⟨h₁, ⟨ha, h₂⟩, hbetween⟩ := h
    refine ⟨h₁, ⟨fun b hb => hleft a b hp (ha b hb), h₂⟩, fun x hx y hy => ?_⟩
    rcases List.mem_cons.1 hy with rfl | hy
    · exact hright x a hp (hbetween x hx a List.mem_cons_self)
    · exact hbetween x hx y (List.mem_cons_of_mem _ hy)

end UpdateFirst

/-- A maximum is not below what it started with or ran over. -/
theorem le_foldl_max {l : List Nat} {m n : Nat} (h : n ≤ m ∨ n ∈ l) : n ≤ l.foldl max m := by
  induction l generalizing m with
  | nil => simpa using h
  | cons r l ih =>
    refine ih ?_
    rcases h with h | h
    · exact .inl (Nat.le_trans h (Nat.le_max_left m r))
    · rcases List.mem_cons.1 h with rfl | h
      · exact .inl (Nat.le_max_right m n)
      · exact .inr h

/-- What the search found is what `eraseP` cuts out. -/
theorem eraseP_split {p : α → Bool} {a : α} (h : l.find? p = some a) :
    ∃ l₁ l₂, l = l₁ ++ a :: l₂ ∧ l.eraseP p = l₁ ++ l₂ := by
  induction l with
  | nil => simp at h
  | cons r l ih =>
    by_cases hp : p r = true
    · obtain rfl : r = a := by simpa [hp] using h
      exact ⟨[], l, rfl, by simp [hp]⟩
    · obtain ⟨l₁, l₂, rfl, he⟩ := ih (by simpa [hp] using h)
      exact ⟨r :: l₁, l₂, rfl, by simp [hp, he]⟩

end RaibitServer.Lib.Table
