import RaibitServer.Preview.Webhook

/-!
# Preview.Keys — when two derived identifiers are the same

The ids that the database issues have 25 characters and a delivery id has 36, so the 63 characters of an
identifier are used up early: a lineage id ends inside the id of the project, the ids of a webhook's
deployment and job end inside the id of the service, and those of an applied observation end inside the
id of the organization.  Everything after that place is not in the identifier.
-/

namespace RaibitServer.Preview

open Lib Slug Core

/-! ### Issued values -/

/-- An id the database issues: `c` and 24 characters of `[a-z0-9]`. -/
def isCuid (s : String) : Bool :=
  match s.toList with
  | [] => false
  | c :: cs => c = 'c' && cs.length = 24 && cs.all Text.lowerAlnum

/-- A positive number in decimal digits. -/
def isPositiveDecimal (s : String) : Bool :=
  match s.toList with
  | [] => false
  | c :: cs => c ≠ '0' && (c :: cs).all Char.isDigit

structure LineageKey.Issued (k : LineageKey) : Prop where
  organizationId : isCuid k.organizationId = true
  projectId : isCuid k.projectId = true
  serviceId : isCuid k.serviceId = true
  installationId : isPositiveDecimal k.installationId = true
  repositoryId : isPositiveDecimal k.repositoryId = true
  pullRequestNumber : 0 < k.pullRequestNumber

theorem isCuid_spec {s : String} (h : isCuid s = true) : IsWord s.toList ∧ s.toList.length = 25 := by
  unfold isCuid at h
  split at h
  · cases h
  · next c cs hs =>
    simp only [Bool.and_eq_true, decide_eq_true_eq, List.all_eq_true] at h
    obtain ⟨⟨rfl, hlen⟩, hchars⟩ := h
    rw [hs]
    refine ⟨⟨List.cons_ne_nil _ _, ?_⟩, by rw [List.length_cons, hlen]⟩
    intro d hd
    rcases List.mem_cons.1 hd with rfl | hd
    · decide
    · exact hchars d hd

/-! ### Cutting -/

theorem take_after {a b : List Char} {n k : Nat} (h : a.length + k = n) : (a ++ b).take n = a ++ b.take k := by
  rw [← h, List.take_length_add_append]

/-- Two parts with a dash between them, when the first ones have the same length. -/
theorem dash_inj {a a' b b' : List Char} (h : a.length = a'.length) :
    a ++ '-' :: b = a' ++ '-' :: b' ↔ a = a' ∧ b = b' := by
  constructor
  · intro e
    obtain ⟨ha, hb⟩ := List.append_inj e h
    exact ⟨ha, (List.cons.inj hb).2⟩
  · rintro ⟨rfl, rfl⟩
    rfl

/-- The part of a project id that a lineage id keeps. -/
def projectCut : Nat := 21

/-! ### Lineages -/

theorem lineageId_toList {k : LineageKey} (h : k.Issued) :
    k.lineageId.toList = "preview-lineage".toList ++ '-' :: (k.organizationId.toList ++
      '-' :: k.projectId.toList.take projectCut) := by
  obtain ⟨horg, hlorg⟩ := isCuid_spec h.organizationId
  obtain ⟨hproj, hlproj⟩ := isCuid_spec h.projectId
  have hfront : front "preview-lineage" [k.organizationId, k.projectId] =
      "preview-lineage".toList ++ '-' :: (k.organizationId.toList ++ '-' :: k.projectId.toList) := by
    simp [front]
  have hpre : "preview-lineage".toList.length = 15 := by decide
  have hparts : ∀ p ∈ [k.organizationId, k.projectId], Dashed p.toList ∧ p.toList.length ≤ slugLimit := by
    simp only [List.forall_mem_cons, List.not_mem_nil, false_implies, implies_true, and_true]
    exact ⟨⟨.word horg, by rw [hlorg]; decide⟩, .word hproj, by rw [hlproj]; decide⟩
  have hlen : slugLimit ≤ (front "preview-lineage" [k.organizationId, k.projectId]).length := by
    rw [hfront]
    simp only [List.length_append, List.length_cons, hpre, hlorg, hlproj]
    decide
  have hcut : k.lineageId.toList =
      (front "preview-lineage" [k.organizationId, k.projectId]).take slugLimit :=
    stableId_cut (dashed_of_isDashed (by decide)) (by simp) hparts hlen
      [k.serviceId, k.installationId, k.repositoryId, toString k.pullRequestNumber]
  rw [hcut, hfront, take_after (k := 48) (by rw [hpre]; rfl), List.take_succ_cons,
    take_after (k := 22) (by rw [hlorg]), List.take_succ_cons]
  rfl

/-- Two lineages with different organizations, or with projects whose ids differ in the part that is
kept. -/
def Separated (k k' : LineageKey) : Prop :=
  k.organizationId ≠ k'.organizationId ∨
    k.projectId.toList.take projectCut ≠ k'.projectId.toList.take projectCut

/-- **Two keys have different lineage ids exactly when they are separated**: the service, the
installation, the repository and the pull request do not count. -/
theorem lineageId_ne_iff {k k' : LineageKey} (h : k.Issued) (h' : k'.Issued) :
    k.lineageId ≠ k'.lineageId ↔ Separated k k' := by
  have hlen : k.organizationId.toList.length = k'.organizationId.toList.length := by
    rw [(isCuid_spec h.organizationId).2, (isCuid_spec h'.organizationId).2]
  have heq : k.lineageId = k'.lineageId ↔ k.organizationId = k'.organizationId ∧
      k.projectId.toList.take projectCut = k'.projectId.toList.take projectCut := by
    rw [← String.toList_inj, lineageId_toList h, lineageId_toList h', dash_inj rfl, and_iff_right rfl,
      dash_inj hlen, String.toList_inj]
  unfold Separated
  rw [ne_eq, heq, not_and_or]

end RaibitServer.Preview
