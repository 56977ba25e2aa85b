import Mathlib.Tactic.Common

/-!
# Lib.Guard — straight-line `Except` programs

A fallible function is written as a `do` block of guards `throwIf c e` and calls.  The lemmas here
peel such a block apart: `f x = .ok r` becomes the list of guards that passed and of calls that
succeeded, so a caller never unfolds more than the block itself.
-/

namespace RaibitServer.Lib

universe u v

variable {ε : Type u} {α β : Type v}

/-- `if (c) throw e`. -/
def throwIf (c : Prop) [Decidable c] (e : ε) : Except ε Unit := if c then .error e else .ok ()

variable {e : ε} {x : Except ε α} {a : α}

@[simp] theorem throwIf_ok {c : Prop} [Decidable c] {u : Unit} : throwIf c e = .ok u ↔ ¬ c := by
  unfold throwIf
  by_cases h : c <;> simp [h]

theorem bind_ok {f : α → Except ε β} {b : β} : (x >>= f) = .ok b ↔ ∃ a, x = .ok a ∧ f a = .ok b := by
  cases x <;> simp [bind, Except.bind]

theorem isOk_iff : x.isOk = true ↔ ∃ a, x = .ok a := by
  cases x with
  | error e => exact ⟨nofun, nofun⟩
  | ok a => exact ⟨fun _ => ⟨a, rfl⟩, fun _ => rfl⟩

theorem pure_ok {b : α} : (pure a : Except ε α) = .ok b ↔ a = b := by
  simp [pure, Except.pure]

theorem map_ok {f : α → β} {b : β} : x.map f = .ok b ↔ ∃ a, x = .ok a ∧ f a = b := by
  cases x <;> simp [Except.map]

theorem mapError_ok {ε' : Type*} {f : ε → ε'} : x.mapError f = .ok a ↔ x = .ok a := by
  cases x <;> simp [Except.mapError]

/-- The first row a search finds, or the error of an empty search. -/
def orThrow (x : Option α) (e : ε) : Except ε α :=
  match x with
  | some a => .ok a
  | none => .error e

@[simp] theorem orThrow_ok {x : Option α} : orThrow x e = .ok a ↔ x = some a := by
  cases x <;> simp [orThrow]

/-! ### What a block can throw -/

/-- Whatever the block throws is of a kind; with none, it returns. -/
def ThrowsOnly (p : ε → Prop) (x : Except ε α) : Prop := ∀ e, x = .error e → p e

variable {p : ε → Prop}

theorem throwsOnly_false : ThrowsOnly (fun _ => False) x ↔ ∃ a, x = .ok a := by
  cases x <;> simp [ThrowsOnly]

theorem throwsOnly_ok (a : α) : ThrowsOnly p (.ok a) := by simp [ThrowsOnly]

theorem throwsOnly_throwIf {c : Prop} [Decidable c] (h : p e) : ThrowsOnly p (throwIf c e) := by
  unfold throwIf
  by_cases hc : c <;> simp [ThrowsOnly, hc, h]

theorem throwsOnly_orThrow {x : Option α} (h : p e) : ThrowsOnly p (orThrow x e) := by
  cases x <;> simp [ThrowsOnly, orThrow, h]

theorem ThrowsOnly.bind {f : α → Except ε β} (hx : ThrowsOnly p x) (hf : ∀ a, x = .ok a → ThrowsOnly p (f a)) :
    ThrowsOnly p (x >>= f) := by
  cases x with
  | error e => exact fun e' he' => hx e' (congrArg Except.error (Except.error.inj he'))
  | ok a => exact hf a rfl

theorem ThrowsOnly.map {f : α → β} (hx : ThrowsOnly p x) : ThrowsOnly p (x >>= fun a => pure (f a)) :=
  hx.bind fun _ _ => throwsOnly_ok _

theorem throwsOnly_ite {c : Prop} [Decidable c] {y : Except ε α} (hx : ThrowsOnly p x) (hy : ThrowsOnly p y) :
    ThrowsOnly p (if c then x else y) := by
  split_ifs
  · exact hx
  · exact hy

/-! ### Loops -/

theorem toOption_eq_some : x.toOption = some a ↔ x = .ok a := by
  cases x <;> simp [Except.toOption]

/-- `filter`, with a test that may throw. -/
def filterThrows {α : Type} (f : α → Except ε Bool) : List α → Except ε (List α)
  | [] => .ok []
  | a :: l => do
    let keep ← f a
    let rest ← filterThrows f l
    return if keep then a :: rest else rest

theorem filterThrows_ok {α : Type} {f : α → Except ε Bool} {l kept : List α} : filterThrows f l = .ok kept ↔
    (∀ a ∈ l, ∃ keep, f a = .ok keep) ∧ (l.filter fun a => (f a).toOption = some true) = kept := by
  induction l generalizing kept with
  | nil => simp [filterThrows]
  | cons a l ih =>
    cases ha : f a with
    | error e => simp [filterThrows, ha, bind, Except.bind]
    | ok keep => cases keep <;> simp [filterThrows, ha, bind_ok, pure_ok, -bind_pure_comp, ih, and_assoc, Except.toOption]

theorem filterThrows_eq {α : Type} {f : α → Except ε Bool} {l : List α} {keep : α → Bool}
    (h : ∀ a ∈ l, f a = .ok (keep a)) : filterThrows f l = .ok (l.filter keep) :=
  filterThrows_ok.2 ⟨fun a ha => ⟨_, h a ha⟩, List.filter_congr fun a ha => by simp [h a ha, Except.toOption]⟩

theorem mem_filterThrows {α : Type} {f : α → Except ε Bool} {l kept : List α} {a : α}
    (h : filterThrows f l = .ok kept) (ha : a ∈ kept) : a ∈ l ∧ f a = .ok true := by
  rw [← (filterThrows_ok.1 h).2, List.mem_filter, decide_eq_true_eq] at ha
  exact ha.imp_right toOption_eq_some.1

/-- A loop that runs to its end has taken every element. -/
theorem foldlM_mem {γ : Type*} {f : α → γ → Except ε α} {l : List γ} {b : α} {c : γ} (h : l.foldlM f a = .ok b)
    (hc : c ∈ l) : ∃ a' b', f a' c = .ok b' := by
  induction l generalizing a with
  | nil => simp at hc
  | cons d l ih =>
    rw [List.foldlM_cons] at h
    obtain ⟨a', ha', h⟩ := bind_ok.1 h
    rcases List.mem_cons.1 hc with rfl | hc
    · exact ⟨a, a', ha'⟩
    · exact ih h hc

end RaibitServer.Lib
