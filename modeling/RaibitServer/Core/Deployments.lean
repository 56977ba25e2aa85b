import RaibitServer.Core.Lifecycle
import RaibitServer.Lib.Guard
import RaibitServer.Lib.Trim

/-!
# Core.Deployments — the moves of a deployment (`packages/core/src/deployments.ts`)

`Follows current next`: the status machine of deployments has the move, or the two texts are spellings
of one status.  The builder's statements compare spellings of their own; where they accept a text, it is
the status they mean (`parseDeploymentStatus_of_checks`).
-/

namespace RaibitServer.Core

open Lib

/-- `LIFECYCLE_CONTRACT.machines.deployment.states[status].next`. -/
def deploymentNext (status : String) : List String :=
  ((deploymentMachine.states.lookup status).map LifecycleState.next).getD []

def canTransitionDeployment (current next : String) : Except String Bool := do
  let current ← parseDeploymentStatus current
  let next ← parseDeploymentStatus next
  return decide (current = next) || (deploymentNext current).contains next

/-- The message is that of the `DeploymentTransitionError`, or of the status that is none. -/
def assertDeploymentTransition (current next : String) : Except String Unit := do
  let current ← parseDeploymentStatus current
  let next ← parseDeploymentStatus next
  let can ← canTransitionDeployment current next
  throwIf (¬ can) ("invalid deployment status transition: " ++ current ++ " -> " ++ next)

/-- A change of status that the machine has, or no change of status. -/
def Follows (current next : String) : Prop := canTransitionDeployment current next = .ok true

instance (current next : String) : Decidable (Follows current next) :=
  inferInstanceAs (Decidable (_ = _))

theorem follows_iff {current next : String} : Follows current next ↔
    ∃ a b, parseDeploymentStatus current = .ok a ∧ parseDeploymentStatus next = .ok b ∧
      (a = b ∨ b ∈ deploymentNext a) := by
  unfold Follows canTransitionDeployment
  constructor
  · intro h
    obtain ⟨a, ha, h⟩ := bind_ok.1 h
    obtain ⟨b, hb, h⟩ := bind_ok.1 h
    have hmove := pure_ok.1 h
    rw [Bool.or_eq_true, decide_eq_true_eq, List.contains_iff_mem] at hmove
    exact ⟨a, b, ha, hb, hmove⟩
  · rintro ⟨a, b, ha, hb, hmove⟩
    refine bind_ok.2 ⟨a, ha, bind_ok.2 ⟨b, hb, pure_ok.2 ?_⟩⟩
    rwa [Bool.or_eq_true, decide_eq_true_eq, List.contains_iff_mem]

/-- A move stands in the entry of its status. -/
theorem mem_deploymentNext {a b : String} (h : b ∈ deploymentNext a) :
    ∃ state, (a, state) ∈ deploymentMachine.states ∧ b ∈ state.next := by
  unfold deploymentNext at h
  cases hlookup : deploymentMachine.states.lookup a with
  | none => simp [hlookup] at h
  | some state =>
    rw [hlookup] at h
    obtain ⟨before, after, hstates, -⟩ := List.lookup_eq_some_iff.1 hlookup
    refine ⟨state, ?_, h⟩
    rw [hstates]
    exact List.mem_append_right _ List.mem_cons_self

/-! ### Spellings -/

section Spellings

open Text

/-- The letters that `Char.toUpper` takes to `A` to `Z`. -/
theorem letter_of_toUpper {c : Char} (h : c.toUpper.isUpper = true) :
    65 ≤ c.toNat ∧ c.toNat ≤ 90 ∨ 97 ≤ c.toNat ∧ c.toNat ≤ 122 := by
  by_cases hlow : 97 ≤ c.toNat ∧ c.toNat ≤ 122
  · exact .inr hlow
  · have hsame : c.toUpper = c := by
      unfold Char.toUpper
      refine dif_neg fun hc => hlow ?_
      exact ⟨hc.1, hc.2⟩
    rw [hsame] at h
    exact .inl (isUpper_iff.1 h)

/-- A letter, or one of the two that have their upper case among the letters. -/
theorem not_space_of_upperChar {c : Char} (h : (upperChar c).isUpper = true) :
    isGoSpace c = false ∧ isJsSpace c = false := by
  have hascii : ∀ n ≤ 122, 65 ≤ n → isGoSpace (Char.ofNat n) = false ∧ isJsSpace (Char.ofNat n) = false := by
    decide
  unfold upperChar at h
  by_cases hi : c.toNat = 0x131
  · rw [← Char.ofNat_toNat c, hi]
    decide
  rw [if_neg hi] at h
  by_cases hs : c.toNat = 0x17F
  · rw [← Char.ofNat_toNat c, hs]
    decide
  rw [if_neg hs] at h
  have hletter := letter_of_toUpper h
  have hspace := hascii c.toNat (by omega) (by omega)
  rwa [Char.ofNat_toNat] at hspace

theorem jsLowerChar_of_toUpper {c : Char} (h : c.toUpper.isUpper = true) :
    jsLowerChar c = [lowerChar c.toUpper] := by
  have hascii : ∀ n ≤ 122, 65 ≤ n ∧ n ≤ 90 ∨ 97 ≤ n →
      jsLowerChar (Char.ofNat n) = [lowerChar (Char.ofNat n).toUpper] := by decide
  have hletter := letter_of_toUpper h
  have hlower := hascii c.toNat (by omega) (by omega)
  rwa [Char.ofNat_toNat] at hlower

variable {s w : String}

/-- A text that both the builder and its statement take for the word `w` is `w` to the control plane. -/
theorem jsLower_of_checks (hw : ∀ c ∈ w.toList, c.isUpper = true ∧ c.toUpper = c)
    (hgo : equalFold (trimSpace s) w = true) (hsql : upper (btrim s) = w) :
    jsLower (jsTrim s) = lower w := by
  have hspace : ∀ c ∈ (btrim s).toList, isGoSpace c = false ∧ isJsSpace c = false := by
    intro c hc
    refine not_space_of_upperChar (hw _ ?_).1
    rw [← hsql, upper, String.toList_ofList]
    exact List.mem_map_of_mem hc
  have hgoTrim : trimSpace s = btrim s :=
    trimBy_widen (fun c hc => by rw [of_decide_eq_true hc]; decide) fun c hc => (hspace c hc).1
  have hjsTrim : jsTrim s = btrim s :=
    trimBy_widen (fun c hc => by rw [of_decide_eq_true hc]; decide) fun c hc => (hspace c hc).2
  have hupper : (btrim s).toList.map Char.toUpper = w.toList := by
    rw [← hgoTrim, of_decide_eq_true hgo]
    conv_rhs => rw [← List.map_id w.toList]
    exact List.map_congr_left fun c hc => (hw c hc).2
  have hlower : ∀ c ∈ (btrim s).toList, jsLowerChar c = [lowerChar c.toUpper] := by
    intro c hc
    refine jsLowerChar_of_toUpper (hw _ ?_).1
    rw [← hupper]
    exact List.mem_map_of_mem hc
  unfold jsLower lower
  rw [hjsTrim, List.flatMap_congr hlower, ← List.map_eq_flatMap, ← hupper, List.map_map]
  rfl

theorem parseDeploymentStatus_of_checks (hw : ∀ c ∈ w.toList, c.isUpper = true ∧ c.toUpper = c)
    (hgo : equalFold (trimSpace s) w = true) (hsql : upper (btrim s) = w)
    (hword : jsLower (jsTrim w) = lower w) : parseDeploymentStatus s = parseDeploymentStatus w := by
  unfold parseDeploymentStatus
  rw [jsLower_of_checks hw hgo hsql, hword]

end Spellings

end RaibitServer.Core
