import Mathlib.Data.List.Rotate
import RaibitServer.Lib.Table

/-!
# Lib.Keyed — tables with a primary key

A table carries the proof that no two of its rows have the same key.  Rows are read by key (`get?`) and
written by `insert?`, which fails on a key that is taken, by `put`, which replaces the row with the key
or adds one, by `update`, which rewrites the rows that meet a condition and leaves their keys alone, and
by `filter`, which deletes rows.

Each write has its lemmas for reading by key, by membership and by a condition on rows (`select`).
-/

namespace RaibitServer.Lib

structure Keyed {α κ : Type} (key : α → κ) where
  rows : List α
  nodup : (rows.map key).Nodup

namespace Keyed

variable {α κ : Type} {key : α → κ}

def empty : Keyed key := ⟨[], List.nodup_nil⟩

variable {t u : Keyed key} {a : α} {p q : α → Bool} {k : κ}

theorem ext_rows (h : t.rows = u.rows) : t = u := by
  cases t
  cases u
  congr

/-- The rows that meet a condition. -/
def select (t : Keyed key) (q : α → Bool) : List α := t.rows.filter q

def keys (t : Keyed key) : List κ := t.rows.map key

theorem eq_of_key {b : α} (ha : a ∈ t.rows) (hb : b ∈ t.rows) (h : key a = key b) :
    a = b := List.inj_on_of_nodup_map t.nodup ha hb h

theorem nodup_concat (h : key a ∉ t.keys) : ((t.rows ++ [a]).map key).Nodup := by
  rw [List.map_append, List.nodup_append]
  refine ⟨t.nodup, by simp, ?_⟩
  rintro k hk l hl rfl
  exact h ((List.mem_singleton.1 hl) ▸ hk)

/-! ### `update` -/

theorem keys_map {f : α → α} (hf : ∀ a, key (f a) = key a) (l : List α) :
    (l.map fun r => if p r then f r else r).map key = l.map key := by
  rw [List.map_map]
  refine List.map_congr_left fun r _ => ?_
  by_cases h : p r = true <;> simp [h, hf]

def update (t : Keyed key) (p : α → Bool) (f : α → α) (hf : ∀ a, key (f a) = key a) : Keyed key :=
  ⟨t.rows.map fun r => if p r then f r else r, by rw [keys_map hf]; exact t.nodup⟩

section Update

variable {f : α → α} {hf : ∀ a, key (f a) = key a}

theorem keys_update : (t.update p f hf).keys = t.keys := keys_map hf t.rows

theorem mem_update {r : α} :
    r ∈ (t.update p f hf).rows ↔ ∃ a ∈ t.rows, (if p a then f a else a) = r := List.mem_map

theorem update_eq_self (h : ∀ r ∈ t.rows, p r = false) : t.update p f hf = t := by
  refine ext_rows ((List.map_congr_left fun r hr => ?_).trans (List.map_id _))
  rw [h r hr]
  rfl

/-- An update of rows outside a selection leaves the selection alone. -/
theorem select_update (h : ∀ r ∈ t.rows, p r = true → q r = false ∧ q (f r) = false) :
    (t.update p f hf).select q = t.select q := Table.filter_rewrite h

/-- An update that keeps a selection apart from the rest changes it only by rewriting its rows. -/
theorem select_update_eq_iff (hq : ∀ r, q (f r) = q r) :
    (t.update p f hf).select q = t.select q ↔ ∀ r ∈ t.rows, q r = true → p r = true → f r = r := by
  have hmap : (t.update p f hf).select q = (t.select q).map fun r => if p r then f r else r := by
    show (t.rows.map _).filter q = _
    rw [List.filter_map]
    refine congrArg _ (List.filter_congr fun r _ => ?_)
    by_cases hp : p r = true <;> simp [hp, hq]
  have hid : t.select q = (t.select q).map id := (List.map_id _).symm
  rw [hmap]
  nth_rewrite 2 [hid]
  rw [List.map_inj_left]
  constructor
  · intro h r hr hqr hpr
    have hfix := h r (List.mem_filter.2 ⟨hr, hqr⟩)
    simpa [hpr] using hfix
  · intro h r hr
    obtain ⟨hr, hqr⟩ := List.mem_filter.1 hr
    by_cases hpr : p r = true
    · simpa [hpr] using h r hr hqr hpr
    · simp [hpr]

/-- An update that keeps a selection apart from the rest keeps what it does not write of the selection. -/
theorem map_select_update {β : Type*} {g : α → β} (hq : ∀ r, q (f r) = q r)
    (hg : ∀ r, g (f r) = g r) : ((t.update p f hf).select q).map g = (t.select q).map g := by
  show ((t.rows.map _).filter q).map g = _
  rw [List.filter_map, List.map_map]
  have hsame : t.rows.filter (q ∘ fun r => if p r then f r else r) = t.rows.filter q := by
    refine List.filter_congr fun r _ => ?_
    by_cases hp : p r = true <;> simp [hp, hq]
  rw [hsame]
  refine List.map_congr_left fun r _ => ?_
  by_cases hp : p r = true <;> simp [hp, hg]

/-- Updates one after the other rewrite each row by itself. -/
theorem rows_foldl_update {β : Type} {p : β → α → Bool} {f : β → α → α} (hf : ∀ b a, key (f b a) = key a)
    (l : List β) (t : Keyed key) :
    (l.foldl (fun t b => t.update (p b) (f b) (hf b)) t).rows =
      t.rows.map fun r => l.foldl (fun r b => if p b r then f b r else r) r := by
  induction l generalizing t with
  | nil => exact (List.map_id _).symm
  | cons b l ih =>
    rw [List.foldl_cons, ih]
    show (t.rows.map _).map _ = _
    rw [List.map_map]
    rfl

end Update

/-! ### `filter` -/

/-- The table without the rows that fail a condition. -/
def filter (t : Keyed key) (p : α → Bool) : Keyed key :=
  ⟨t.rows.filter p, t.nodup.sublist (List.filter_sublist.map key)⟩

theorem select_filter (h : ∀ r ∈ t.rows, q r = true → p r = true) :
    (t.filter p).select q = t.select q := Table.filter_filter_of_imp h

/-! ### A query without an order -/

/-- One of the rows that meet a condition; `choice` tells which. -/
def anyOf (t : Keyed key) (p : α → Bool) (choice : Nat) : Option α := ((t.select p).rotate choice).head?

theorem mem_anyOf {choice : Nat} (h : t.anyOf p choice = some a) :
    a ∈ t.rows ∧ p a = true :=
  List.mem_filter.1 (List.mem_rotate.1 (List.mem_of_head? h))

theorem exists_anyOf (ha : a ∈ t.rows) (hp : p a = true) (choice : Nat) :
    ∃ b, t.anyOf p choice = some b := by
  refine Option.ne_none_iff_exists'.1 fun hnone => ?_
  exact List.ne_nil_of_mem (List.mem_filter.2 ⟨ha, hp⟩) (List.rotate_eq_nil_iff.1 (List.head?_eq_none_iff.1 hnone))

variable [DecidableEq κ]

def get? (t : Keyed key) (k : κ) : Option α := t.rows.find? fun r => key r = k

def insert? (t : Keyed key) (a : α) : Option (Keyed key) :=
  if h : key a ∈ t.keys then none else some ⟨t.rows ++ [a], nodup_concat h⟩

def put (t : Keyed key) (a : α) : Keyed key :=
  if h : key a ∈ t.keys then ⟨Table.replace key a t.rows, by rw [Table.map_key_replace]; exact t.nodup⟩
  else ⟨t.rows ++ [a], nodup_concat h⟩

/-! ### Reading -/

theorem get?_eq_some : t.get? k = some a ↔ a ∈ t.rows ∧ key a = k := by
  constructor
  · exact fun h => Table.find?_spec h
  · rintro ⟨ha, rfl⟩
    exact Table.find?_key_eq key ha t.nodup

theorem get?_eq_none : t.get? k = none ↔ k ∉ t.keys := by
  unfold get? keys
  rw [List.find?_eq_none]
  constructor
  · intro h hk
    obtain ⟨a, ha, rfl⟩ := List.mem_map.1 hk
    exact h a ha (decide_eq_true rfl)
  · intro h a ha hk
    exact h (List.mem_map.2 ⟨a, ha, of_decide_eq_true hk⟩)

/-- Two tables that agree on the rows with a key answer alike. -/
theorem get?_congr (h : ∀ a, key a = k → (a ∈ t.rows ↔ a ∈ u.rows)) : t.get? k = u.get? k := by
  refine Option.ext fun a => ?_
  show t.get? k = some a ↔ u.get? k = some a
  rw [get?_eq_some, get?_eq_some]
  exact and_congr_left fun ha => h a ha

theorem get?_filter : (t.filter p).get? k = (t.get? k).filter p := by
  refine Option.ext fun a => ?_
  show (t.filter p).get? k = some a ↔ _ = some a
  rw [get?_eq_some, Option.filter_eq_some_iff, get?_eq_some]
  show a ∈ t.rows.filter p ∧ _ ↔ _
  rw [List.mem_filter]
  exact and_right_comm

theorem get?_update {f : α → α} {hf : ∀ a, key (f a) = key a} :
    (t.update p f hf).get? k = (t.get? k).map fun r => if p r then f r else r := by
  cases h : t.get? k with
  | none =>
    rw [get?_eq_none] at h
    rw [Option.map_none, get?_eq_none, keys_update]
    exact h
  | some a =>
    obtain ⟨ha, rfl⟩ := get?_eq_some.1 h
    rw [Option.map_some, get?_eq_some]
    refine ⟨mem_update.2 ⟨a, ha, rfl⟩, ?_⟩
    by_cases hp : p a = true <;> simp [hp, hf]

/-- An update of the row with a key. -/
theorem get?_update_at (t : Keyed key) (k₀ : κ) (f : α → α) (hf : ∀ a, key (f a) = key a) (k : κ) :
    (t.update (fun a => key a = k₀) f hf).get? k = if k₀ = k then (t.get? k).map f else t.get? k := by
  rw [get?_update]
  cases h : t.get? k with
  | none => rw [Option.map_none, Option.map_none, ite_self]
  | some a =>
    rw [Option.map_some, Option.map_some, (get?_eq_some.1 h).2]
    by_cases hk : k₀ = k
    · rw [if_pos hk, if_pos (decide_eq_true hk.symm)]
    · rw [if_neg hk, if_neg (by simpa using Ne.symm hk)]

/-! ### `insert?` -/

theorem insert?_rows (h : t.insert? a = some u) : key a ∉ t.keys ∧ u.rows = t.rows ++ [a] := by
  unfold insert? at h
  split_ifs at h with hk
  exact ⟨hk, by rw [← Option.some.inj h]⟩

theorem insert?_fresh (h : key a ∉ t.keys) : ∃ u, t.insert? a = some u := by
  unfold insert?
  rw [dif_neg h]
  exact ⟨_, rfl⟩

theorem get?_insert? (h : t.insert? a = some u) (k : κ) :
    u.get? k = if key a = k then some a else t.get? k := by
  obtain ⟨hfree, hrows⟩ := insert?_rows h
  by_cases hk : key a = k
  · rw [if_pos hk, get?_eq_some, hrows]
    exact ⟨List.mem_append_right _ (List.mem_singleton_self a), hk⟩
  · rw [if_neg hk]
    refine get?_congr fun b hb => ?_
    rw [hrows, List.mem_append, List.mem_singleton]
    exact or_iff_left fun heq => hk (heq ▸ hb)

theorem select_insert? (h : t.insert? a = some u) (hq : q a = false) : u.select q = t.select q := by
  unfold select
  rw [(insert?_rows h).2, List.filter_append, List.filter_cons_of_neg (by simp [hq]), List.filter_nil,
    List.append_nil]

/-! ### `put` -/

theorem mem_put {r : α} : r ∈ (t.put a).rows ↔ r = a ∨ (r ∈ t.rows ∧ key r ≠ key a) := by
  unfold put
  split_ifs with h
  · show r ∈ Table.replace key a t.rows ↔ _
    rw [Table.mem_replace]
    constructor
    · rintro (hr | ⟨rfl, -⟩)
      · exact .inr hr
      · exact .inl rfl
    · rintro (rfl | hr)
      · obtain ⟨b, hb, hk⟩ := List.mem_map.1 h
        exact .inr ⟨rfl, b, hb, hk⟩
      · exact .inl hr
  · show r ∈ t.rows ++ [a] ↔ _
    rw [List.mem_append, List.mem_singleton]
    constructor
    · rintro (hr | rfl)
      · exact .inr ⟨hr, fun hk => h (hk ▸ List.mem_map_of_mem hr)⟩
      · exact .inl rfl
    · rintro (rfl | hr)
      · exact .inr rfl
      · exact .inl hr.1

theorem put_rows_of_mem (h : key a ∈ t.keys) :
    (t.put a).rows = t.rows.map fun r => if key r = key a then a else r := by
  unfold put
  rw [dif_pos h]
  rfl

/-- Putting a row that is there changes nothing. -/
theorem put_of_mem (h : a ∈ t.rows) : t.put a = t := by
  refine ext_rows ?_
  rw [put_rows_of_mem (List.mem_map_of_mem h)]
  exact Table.replace_self key h t.nodup

theorem get?_put_self : (t.put a).get? (key a) = some a :=
  get?_eq_some.2 ⟨mem_put.2 (.inl rfl), rfl⟩

theorem get?_put_ne (h : key a ≠ k) : (t.put a).get? k = t.get? k := by
  refine get?_congr fun r hr => ?_
  rw [mem_put]
  constructor
  · rintro (rfl | hr)
    · exact absurd hr h
    · exact hr.1
  · exact fun hmem => .inr ⟨hmem, fun e => h (e ▸ hr)⟩

theorem get?_put : (t.put a).get? k = if key a = k then some a else t.get? k := by
  split_ifs with h
  · exact h ▸ get?_put_self
  · exact get?_put_ne h

/-- A write outside a selection, over a row outside it, leaves the selection alone. -/
theorem select_put (ha : q a = false) (h : ∀ r ∈ t.rows, q r = true → key r ≠ key a) :
    (t.put a).select q = t.select q := by
  unfold put select
  split_ifs
  · refine Table.filter_rewrite fun r hr hk => ⟨?_, ha⟩
    exact Bool.eq_false_iff.2 fun hq => h r hr hq hk
  · show (t.rows ++ [a]).filter q = t.rows.filter q
    rw [List.filter_append, List.filter_cons_of_neg (by simp [ha]), List.filter_nil, List.append_nil]

end Keyed

end RaibitServer.Lib
