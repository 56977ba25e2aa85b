import RaibitServer.Lib.Slug

/-!
# Lib.Fields — labels joined by two dashes

`firstField` is what stands in front of the first two dashes in a row.  A label that has no such dashes
itself is the first field of every label it is joined in front of (`firstField_join`), and bounding
cannot mix up two labels with different first fields (`bound_ne_of_firstField`): a label cut in its first
field has a single dash in front of its suffix, so no joined label is spelled like it.
-/

namespace RaibitServer.Lib.Label

/-- What stands in front of the first two dashes in a row, if there are any. -/
def firstField : List Char → Option (List Char)
  | [] => none
  | c :: s => if isDash c && s.head?.any isDash then some [] else (firstField s).map (c :: ·)

variable {a k pre x : List Char} {limit : Nat}

theorem firstField_eq_some {l : List Char} (h : firstField l = some a) : ∃ t, l = a ++ '-' :: '-' :: t := by
  induction l generalizing a with
  | nil => simp [firstField] at h
  | cons c s ih =>
    rw [firstField] at h
    split_ifs at h with hdash
    · obtain rfl := Option.some.inj h
      cases s with
      | nil => simp at hdash
      | cons d s =>
        simp only [isDash, List.head?_cons, Option.any_some, Bool.and_eq_true, decide_eq_true_eq] at hdash
        exact ⟨s, by rw [hdash.1, hdash.2]; rfl⟩
    · obtain ⟨b, hb, rfl⟩ := Option.map_eq_some_iff.1 h
      obtain ⟨t, rfl⟩ := ih hb
      exact ⟨t, rfl⟩

theorem firstField_eq_none {l : List Char} (h : ¬ ['-', '-'] <:+: l) : firstField l = none := by
  cases hfield : firstField l with
  | none => rfl
  | some a =>
    obtain ⟨t, ht⟩ := firstField_eq_some hfield
    exact absurd ⟨a, t, by simp [ht]⟩ h

/-- A first field stays the first whatever follows. -/
theorem firstField_append (h : firstField k = some a) (r : List Char) : firstField (k ++ r) = some a := by
  induction k generalizing a with
  | nil => simp [firstField] at h
  | cons c s ih =>
    have hhead : ∀ b, firstField s = some b → (s ++ r).head? = s.head? := by
      intro b hb
      cases s with
      | nil => simp [firstField] at hb
      | cons d s => rfl
    rw [firstField] at h
    rw [List.cons_append, firstField]
    split_ifs at h with hdash
    · have hsome : ((s ++ r).head?) = s.head? := by
        cases s with
        | nil => simp at hdash
        | cons d s => rfl
      rw [hsome, if_pos hdash]
      exact h
    · obtain ⟨b, hb, rfl⟩ := Option.map_eq_some_iff.1 h
      rw [hhead b hb, if_neg hdash, ih hb]
      rfl

/-- Behind a text without fields that does not end in a dash, the fields are those of what follows. -/
theorem firstField_behind (h : firstField k = none) (hlast : ∃ s c, k = s ++ [c] ∧ isDash c = false) (r : List Char) :
    firstField (k ++ r) = (firstField r).map (k ++ ·) := by
  obtain ⟨s, c, rfl, hc⟩ := hlast
  induction s with
  | nil =>
    show firstField (c :: r) = _
    rw [firstField, hc, Bool.false_and, if_neg Bool.false_ne_true]
    rfl
  | cons b s ih =>
    have hhead : (s ++ [c] ++ r).head? = (s ++ [c]).head? := by
      cases s <;> rfl
    rw [List.cons_append, firstField] at h
    split_ifs at h with hdash
    rw [List.cons_append, List.cons_append, firstField, hhead, if_neg hdash, ih (Option.map_eq_none_iff.1 h),
      Option.map_map]
    rfl

/-- A label without two dashes in a row is the first field of what it is joined in front of. -/
theorem firstField_join (ha : IsLabel a) (hsingle : ¬ ['-', '-'] <:+: a) (t : List Char) :
    firstField (a ++ '-' :: '-' :: t) = some a := by
  rw [firstField_behind (firstField_eq_none hsingle) ha.last]
  simp [firstField, isDash]

/-- A single dash makes no field. -/
theorem firstField_single {d : List Char} (h : firstField k = none) (hlast : ∃ s c, k = s ++ [c] ∧ isDash c = false)
    (hd : ∀ c ∈ d, isDash c = false) : firstField (k ++ '-' :: d) = none := by
  have hsuffix : firstField ('-' :: d) = none := by
    refine firstField_eq_none ?_
    rintro ⟨a, t, ht⟩
    have hmem : '-' ∈ d := by
      cases a with
      | nil =>
        obtain ⟨-, hd'⟩ := List.cons.inj ht
        rw [← hd']
        exact List.mem_cons_self
      | cons b a =>
        obtain ⟨-, hd'⟩ := List.cons.inj ht
        rw [← hd']
        simp
    exact absurd (hd '-' hmem) (by decide)
  rw [firstField_behind h hlast, hsuffix]
  rfl

/-- What is kept of a label behind `pre`: a front of it that does not end in a dash. -/
theorem keep_append {n : Nat} (hlimit : pre.length + n + 1 < limit) (hx : ∃ c s, x = c :: s ∧ isDash c = false) :
    ∃ k r, keep limit n (pre ++ x) = pre ++ k ∧ x = k ++ r ∧ ∃ s c, k = s ++ [c] ∧ isDash c = false := by
  obtain ⟨c, s, rfl, hc⟩ := hx
  obtain ⟨m, hm⟩ : ∃ m, limit - n - 1 = pre.length + (m + 1) := ⟨limit - n - 2 - pre.length, by omega⟩
  have hkeep : keep limit n (pre ++ c :: s) = pre ++ (c :: (s.take m).rdropWhile isDash) := by
    unfold keep
    rw [hm, List.take_length_add_append, List.take_succ_cons, ← List.singleton_append, ← List.append_assoc,
      Slug.rdropWhile_append ⟨pre, c, rfl, hc⟩, List.append_assoc]
    rfl
  obtain ⟨r, hr⟩ := List.rdropWhile_prefix isDash (s.take m)
  refine ⟨c :: (s.take m).rdropWhile isDash, r ++ s.drop m, hkeep, ?_, ?_⟩
  · rw [List.cons_append, ← List.append_assoc, hr, List.take_append_drop]
  · by_cases hnil : (s.take m).rdropWhile isDash = []
    · exact ⟨[], c, by rw [hnil]; rfl, hc⟩
    · refine ⟨c :: ((s.take m).rdropWhile isDash).dropLast, _, ?_,
        eq_false_of_ne_true (List.rdropWhile_last_not isDash _ hnil)⟩
      rw [List.cons_append, List.dropLast_append_getLast]

/-- A label that is spelled like a cut one has the first field of the cut one. -/
theorem ne_cut_of_firstField {y t b : List Char} (hlimit : pre.length + t.length + 1 < limit)
    (hfirst : ∃ c s, y = c :: s ∧ isDash c = false) (hx : firstField x = some a) (hy : firstField y = some b)
    (hab : a ≠ b) (ht : ∀ c ∈ t, isDash c = false) : pre ++ x ≠ keep limit t.length (pre ++ y) ++ '-' :: t := by
  intro heq
  obtain ⟨k, r, hkeep, rfl, hlast⟩ := keep_append hlimit hfirst
  rw [hkeep, List.append_assoc] at heq
  obtain rfl := List.append_cancel_left heq
  cases hfield : firstField k with
  | none =>
    rw [firstField_single hfield hlast ht] at hx
    cases hx
  | some d =>
    rw [firstField_append hfield] at hx hy
    exact hab ((Option.some.inj hx).symm.trans (Option.some.inj hy))

/-- **Labels with different first fields stay apart when they are bounded**, if those that are cut end
in different suffixes: also from a label spelled like a cut one. -/
theorem bound_ne_of_firstField {y s t b : List Char} (hst : s.length = t.length)
    (hlimit : pre.length + t.length + 1 < limit) (hfirstx : ∃ c u, x = c :: u ∧ isDash c = false)
    (hfirsty : ∃ c u, y = c :: u ∧ isDash c = false) (hx : firstField x = some a) (hy : firstField y = some b)
    (hab : a ≠ b) (hs : ∀ c ∈ s, isDash c = false) (ht : ∀ c ∈ t, isDash c = false) (hne : s ≠ t) :
    bound limit s (pre ++ x) ≠ bound limit t (pre ++ y) := by
  intro heq
  rcases (bound_eq_iff hst).1 heq with ⟨-, -, hxy⟩ | ⟨-, -, -, hdigits⟩ | ⟨-, -, hcut⟩ | ⟨-, -, hcut⟩
  · obtain rfl := List.append_cancel_left hxy
    exact hab (Option.some.inj (hx.symm.trans hy))
  · exact hne hdigits
  · exact ne_cut_of_firstField hlimit hfirsty hx hy hab ht hcut
  · exact ne_cut_of_firstField (hst ▸ hlimit) hfirstx hy hx hab.symm hs hcut

end RaibitServer.Lib.Label
