import Mathlib.Data.List.Induction
import Mathlib.Data.List.ReduceOption

/-!
# Lib.Run — runs of a labelled transition relation

`Run step s es t`: from `s` the steps labelled `es`, in this order, lead to `t`.  Steps are added
at the end, so an induction over a run sees the history first and the last step on top of it.

* `Run.invariant`: what every step preserves, a run preserves.
* `Run.relates`: a reflexive and transitive relation that every step (from a state satisfying the
  invariant) respects, relates the two ends of a run.
* `Run.history`: the same with the history in the invariant.
* `Run.split`, `Run.at_label`: cut a run at a point of its label list.
* `Seen`, `Run.seen_some`, `Run.seen_none`: a view of part of the state runs a machine of its own,
  and takes part in the run exactly at the labels meant for it.
* `trace`, `Run.exists_of_trace`: a step function executed on a list of commands gives a run.
-/

namespace RaibitServer.Lib

variable {σ ε : Type*} {step : σ → ε → σ → Prop}

inductive Run (step : σ → ε → σ → Prop) (s : σ) : List ε → σ → Prop
  | nil : Run step s [] s
  | snoc {es : List ε} {t u : σ} {e : ε} (run : Run step s es t) (last : step t e u) :
      Run step s (es ++ [e]) u

variable {e : ε} {s t u : σ} {es fs : List ε}

theorem Run.single (h : step s e t) : Run step s [e] t := Run.snoc .nil h

theorem Run.append (h : Run step s es t) (h' : Run step t fs u) : Run step s (es ++ fs) u := by
  induction h' with
  | nil => simpa using h
  | snoc _ last ih =>
    rw [← List.append_assoc]
    exact Run.snoc ih last

/-- A run over a concatenation passes through a middle state. -/
theorem Run.split (h : Run step s (es ++ fs) u) : ∃ t, Run step s es t ∧ Run step t fs u := by
  induction fs using List.reverseRecOn generalizing u with
  | nil => exact ⟨u, by simpa using h, .nil⟩
  | append_singleton fs e ih =>
    rw [← List.append_assoc] at h
    generalize hl : es ++ fs ++ [e] = l at h
    cases h with
    | nil => simp at hl
    | snoc run last =>
      obtain ⟨rfl, he⟩ := List.append_inj' hl rfl
      obtain rfl : e = _ := by simpa using he
      obtain ⟨t, h1, h2⟩ := ih run
      exact ⟨t, h1, .snoc h2 last⟩

/-- The step a label of a run stands for. -/
theorem Run.at_label (h : Run step s (es ++ e :: fs) u) : ∃ t t', Run step s es t ∧ step t e t' ∧ Run step t' fs u := by
  obtain ⟨t, h1, h2⟩ := Run.split h
  obtain ⟨t', h3, h4⟩ := Run.split (show Run step t ([e] ++ fs) u from h2)
  generalize hl : [e] = l at h3
  cases h3 with
  | nil => simp at hl
  | @snoc es' t₀ _ e' run last =>
    obtain ⟨rfl, he⟩ := List.append_inj' (show [] ++ [e] = es' ++ [e'] from hl) rfl
    obtain rfl : e = e' := by simpa using he
    generalize hn : ([] : List ε) = l at run
    cases run with
    | nil => exact ⟨t, t', h1, last, h4⟩
    | snoc _ _ => simp at hn

theorem Run.invariant {I : σ → Prop} (hstep : ∀ s e t, I s → step s e t → I t) (h : Run step s es t) (h0 : I s) :
    I t := by
  induction h with
  | nil => exact h0
  | snoc _ last ih => exact hstep _ _ _ ih last

/-- What holds of a history and its state, if every step carries it on. -/
theorem Run.history {I : List ε → σ → Prop} (hstep : ∀ es s e t, I es s → step s e t → I (es ++ [e]) t)
    (h : Run step s es t) (h0 : I [] s) : I es t := by
  induction h with
  | nil => exact h0
  | snoc _ last ih => exact hstep _ _ _ _ ih last

/-- The two ends of a run are related by what each of its steps respects. -/
theorem Run.relates {I : σ → Prop} {R : σ → σ → Prop} (hI : ∀ s e t, I s → step s e t → I t) (hrefl : ∀ s, I s → R s s)
    (htrans : ∀ s t u, R s t → R t u → R s u) (hR : ∀ s e t, I s → step s e t → R s t) (h : Run step s es t)
    (h0 : I s) : R s t := by
  induction h with
  | nil => exact hrefl _ h0
  | snoc run last ih => exact htrans _ _ _ ih (hR _ _ _ (run.invariant hI h0) last)

/-- Where a label stands in a history that grew by one: at the end, or already before. -/
theorem snoc_eq_append_cons {es₁ es₂ : List ε} {a : ε} (h : es ++ [e] = es₁ ++ a :: es₂) :
    (es = es₁ ∧ e = a ∧ es₂ = []) ∨ ∃ es₃, es = es₁ ++ a :: es₃ ∧ es₂ = es₃ ++ [e] := by
  rcases List.eq_nil_or_concat es₂ with rfl | ⟨es₃, l, rfl⟩
  · obtain ⟨rfl, hl⟩ := List.append_inj' h rfl
    exact .inl ⟨rfl, by simpa using hl, rfl⟩
  · rw [List.concat_eq_append, ← List.cons_append, ← List.append_assoc] at h
    obtain ⟨rfl, hl⟩ := List.append_inj' h rfl
    obtain rfl : e = l := by simpa using hl
    exact .inr ⟨es₃, rfl, by simp⟩

/-! ### Views -/

variable {τ : Type*} {ℓ : Type*}

/-- One step of a system, as a partial view of its state shows it: nothing happens, what is viewed
comes into being, or it makes a move of its own. -/
inductive Seen (init : τ → Prop) (move : τ → Option ℓ → τ → Prop) :
    Option τ → Option ℓ → Option τ → Prop
  | stay (v : Option τ) : Seen init move v none v
  | born {t : τ} (new : init t) : Seen init move none none (some t)
  | moved {t t' : τ} {l : Option ℓ} (h : move t l t') : Seen init move (some t) l (some t')

variable {I : σ → Prop} {init : τ → Prop} {move : τ → Option ℓ → τ → Prop} {view : σ → Option τ}
  {label : ε → Option ℓ}

theorem Run.seen_some (hI : ∀ s e t, I s → step s e t → I t)
    (sim : ∀ s e t, I s → step s e t → Seen init move (view s) (label e) (view t)) (h : Run step s es t) (h0 : I s)
    {v : τ} (hv : view s = some v) :
    ∃ w ls, view t = some w ∧ Run move v ls w ∧ ls.reduceOption = es.filterMap label := by
  induction h with
  | nil => exact ⟨v, [], hv, .nil, rfl⟩
  | @snoc es t u e run last ih =>
    obtain ⟨w, ls, hw, hrun, hls⟩ := ih
    have hlast := sim _ _ _ (run.invariant hI h0) last
    rw [hw] at hlast
    generalize hu : view u = v' at hlast
    generalize hl : label e = l at hlast
    cases hlast with
    | stay => exact ⟨w, ls, rfl, hrun, by simp [hls, hl]⟩
    | @moved _ w' l hm =>
      refine ⟨w', ls ++ [l], rfl, hrun.snoc hm, ?_⟩
      cases l <;> simp [List.reduceOption_append, hls, hl]

theorem Run.seen_none (hI : ∀ s e t, I s → step s e t → I t)
    (sim : ∀ s e t, I s → step s e t → Seen init move (view s) (label e) (view t)) (h : Run step s es t) (h0 : I s)
    (hv : view s = none) :
    (view t = none ∧ es.filterMap label = []) ∨
      ∃ v w ls, init v ∧ view t = some w ∧ Run move v ls w ∧
        ls.reduceOption = es.filterMap label := by
  induction h with
  | nil => exact .inl ⟨hv, rfl⟩
  | @snoc es t u e run last ih =>
    have hlast := sim _ _ _ (run.invariant hI h0) last
    rcases ih with ⟨ht, hes⟩ | ⟨v, w, ls, hnew, hw, hrun, hls⟩
    · rw [ht] at hlast
      generalize hu : view u = v' at hlast
      generalize hl : label e = l at hlast
      cases hlast with
      | stay => exact .inl ⟨rfl, by simp [hes, hl]⟩
      | born new => exact .inr ⟨_, _, [], new, rfl, .nil, by simp [hes, hl]⟩
    · obtain ⟨w', ls', hw', hrun', hls'⟩ :=
        Run.seen_some hI sim (.single last) (run.invariant hI h0) hw
      refine .inr ⟨v, w', ls ++ ls', hnew, hw', hrun.append hrun', ?_⟩
      rw [List.reduceOption_append, hls, hls', List.filterMap_append]

/-! ### Executed runs -/

section Trace

variable {γ : Type*}

/-- The labels of a list of commands and the state they lead to; `none` if one cannot be executed. -/
def trace (exec : σ → γ → Option (ε × σ)) (s : σ) : List γ → Option (List ε × σ)
  | [] => some ([], s)
  | c :: cs => (exec s c).bind fun r => (trace exec r.2 cs).map fun q => (r.1 :: q.1, q.2)

variable {exec : σ → γ → Option (ε × σ)}

theorem Run.of_trace (hexec : ∀ s c e t, exec s c = some (e, t) → step s e t) {s t : σ}
    {cs : List γ} {es : List ε} (h : trace exec s cs = some (es, t)) : Run step s es t := by
  induction cs generalizing s es with
  | nil =>
    obtain ⟨rfl, rfl⟩ : es = [] ∧ s = t := by simpa [trace, eq_comm] using h
    exact .nil
  | cons c cs ih =>
    obtain ⟨⟨e, u⟩, hstep, hrest⟩ := Option.bind_eq_some_iff.1 h
    obtain ⟨⟨fs, t'⟩, htrace, heq⟩ := Option.map_eq_some_iff.1 hrest
    obtain ⟨rfl, rfl⟩ := Prod.mk.inj heq
    exact (Run.single (hexec _ _ _ _ hstep)).append (ih htrace)

/-- A checked trace is a run with the checked property. -/
theorem Run.exists_of_trace (hexec : ∀ s c e t, exec s c = some (e, t) → step s e t) (s : σ)
    (cs : List γ) (check : List ε → σ → Bool)
    (h : (trace exec s cs).any (fun r => check r.1 r.2) = true) :
    ∃ es t, Run step s es t ∧ check es t = true := by
  obtain ⟨⟨es, t⟩, htrace, hcheck⟩ := (Option.any_eq_true _ _).1 h
  exact ⟨es, t, .of_trace hexec htrace, hcheck⟩

end Trace

end RaibitServer.Lib
