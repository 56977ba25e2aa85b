import RaibitServer.Lib.Slug

/-!
# Core.Ids — derived identifiers (`ids.ts`)

`stableId` slugs each part, joins them with dashes behind the prefix and slugs the whole again, and
every slug is cut after 63 characters.  Parts that are slugs already come through, so an identifier is
the first 63 characters of the joined text: what stands behind them does not count (`stableId_cut`).
-/

namespace RaibitServer.Core

open Lib Slug

def slugLimit : Nat := 63

def slugify (value fallback : String) : String :=
  Text.jsOr (String.ofList ((slug (Text.jsLower (Text.jsTrim value)).toList).take slugLimit)) fallback

def stableId (pre : String) (parts : List String) : String :=
  slugify (pre ++ "-" ++ "-".intercalate (parts.map fun part => slugify part "x")) pre

/-! ### Slugs -/

theorem isJsSpace_of_labelChar {c : Char} (h : Label.labelChar c = true) : Text.isJsSpace c = false :=
  Label.labelChar_ascii (P := fun c => Text.isJsSpace c = false) (by decide) h

theorem jsLowerChar_of_labelChar {c : Char} (h : Label.labelChar c = true) : Text.jsLowerChar c = [c] :=
  Label.labelChar_ascii (P := fun c => Text.jsLowerChar c = [c]) (by decide) h

theorem dashed_ends {x : List Char} (hx : Dashed x) :
    (∃ c s, x = c :: s ∧ Text.isJsSpace c = false) ∧ ∃ s c, x = s ++ [c] ∧ Text.isJsSpace c = false := by
  obtain ⟨c, s, hfirst, -⟩ := hx.first
  obtain ⟨t, d, hlast, -⟩ := hx.last
  refine ⟨⟨c, s, hfirst, isJsSpace_of_labelChar (hx.chars c ?_)⟩,
    t, d, hlast, isJsSpace_of_labelChar (hx.chars d ?_)⟩
  · rw [hfirst]
    exact List.mem_cons_self
  · rw [hlast]
    simp

/-- Blanks are trimmed and letters lowered behind a dashed front, not in it. -/
theorem normalized_append {value : String} {x y : List Char} (h : value.toList = x ++ y) (hx : Dashed x) :
    ∃ z, (Text.jsLower (Text.jsTrim value)).toList = x ++ z := by
  obtain ⟨⟨c, s, hfirst, hc⟩, hlast⟩ := dashed_ends hx
  have hdrop : (x ++ y).dropWhile Text.isJsSpace = x ++ y := by
    rw [hfirst, List.cons_append, List.dropWhile_cons_of_neg (by simp [hc])]
  have htrim : (Text.jsTrim value).toList = x ++ y.rdropWhile Text.isJsSpace := by
    unfold Text.jsTrim Text.trimBy
    rw [String.toList_ofList, h, hdrop]
    exact rdropWhile_append hlast y
  have hlower : x.flatMap Text.jsLowerChar = x := by
    rw [List.flatMap_congr fun c hc => jsLowerChar_of_labelChar (hx.chars c hc), List.flatMap_singleton']
  refine ⟨(y.rdropWhile Text.isJsSpace).flatMap Text.jsLowerChar, ?_⟩
  unfold Text.jsLower
  rw [String.toList_ofList, htrim, List.flatMap_append, hlower]

theorem jsOr_ofList {l : List Char} (h : l ≠ []) (fallback : String) :
    Text.jsOr (String.ofList l) fallback = String.ofList l := by
  unfold Text.jsOr
  refine if_neg fun e => h ?_
  rw [← String.toList_ofList (l := l), e]
  rfl

/-- A slug is left as it is. -/
theorem slugify_dashed {value : String} (hx : Dashed value.toList) (hlen : value.toList.length ≤ slugLimit)
    (fallback : String) : slugify value fallback = value := by
  have hne : value.toList ≠ [] := by
    obtain ⟨c, s, h, -⟩ := hx.first
    rw [h]
    exact List.cons_ne_nil c s
  have htrim : Text.jsTrim value = value :=
    Text.trimBy_eq_self fun c hc => isJsSpace_of_labelChar (hx.chars c hc)
  have hlower : Text.jsLower value = value :=
    Text.jsLower_eq_self fun c hc => jsLowerChar_of_labelChar (hx.chars c hc)
  unfold slugify
  rw [htrim, hlower, slug_dashed hx, List.take_of_length_le hlen, jsOr_ofList hne, String.ofList_toList]

/-- A text whose front is a slug of the full length is cut there. -/
theorem slugify_cut {value : String} {x y : List Char} (h : value.toList = x ++ y) (hx : Dashed x)
    (hlen : slugLimit ≤ x.length) (fallback : String) :
    (slugify value fallback).toList = x.take slugLimit := by
  obtain ⟨z, hz⟩ := normalized_append h hx
  obtain ⟨u, hu⟩ := slug_append hx z
  have hne : x.take slugLimit ≠ [] := by
    intro e
    have hlength := congrArg List.length e
    rw [List.length_take, List.length_nil] at hlength
    unfold slugLimit at hlength hlen
    omega
  unfold slugify
  rw [hz, hu, List.take_append_of_le_length hlen, jsOr_ofList hne, String.toList_ofList]

/-! ### Identifiers -/

/-- The front of an identifier: the prefix and the parts that are known. -/
def front (pre : String) (parts : List String) : List Char :=
  pre.toList ++ '-' :: ['-'].intercalate (parts.map String.toList)

theorem dashed_intercalate {parts : List (List Char)} (hne : parts ≠ []) (h : ∀ p ∈ parts, Dashed p) :
    Dashed (['-'].intercalate parts) := by
  induction parts with
  | nil => exact absurd rfl hne
  | cons p parts ih =>
    have hp := h p List.mem_cons_self
    cases parts with
    | nil => simpa using hp
    | cons q parts =>
      rw [List.intercalate_cons_cons, List.append_assoc]
      exact hp.append (ih (by simp) fun r hr => h r (List.mem_cons_of_mem _ hr))

theorem intercalate_append (a b : List (List Char)) :
    ∃ y, ['-'].intercalate (a ++ b) = ['-'].intercalate a ++ y := by
  induction a with
  | nil => exact ⟨['-'].intercalate b, rfl⟩
  | cons p a ih =>
    obtain ⟨y, hy⟩ := ih
    cases a with
    | nil =>
      cases b with
      | nil => exact ⟨[], by simp⟩
      | cons q b => exact ⟨'-' :: ['-'].intercalate (q :: b), by simp⟩
    | cons q a =>
      have hcons : p :: q :: a ++ b = p :: q :: (a ++ b) := rfl
      refine ⟨y, ?_⟩
      rw [hcons, List.intercalate_cons_cons, List.intercalate_cons_cons, List.append_assoc (p ++ ['-']), ← hy]
      rfl

/-- **An identifier is the first 63 characters of its front**, whatever other parts follow. -/
theorem stableId_cut {pre : String} {parts : List String} (hpre : Dashed pre.toList) (hne : parts ≠ [])
    (hparts : ∀ p ∈ parts, Dashed p.toList ∧ p.toList.length ≤ slugLimit)
    (hlen : slugLimit ≤ (front pre parts).length) (rest : List String) :
    (stableId pre (parts ++ rest)).toList = (front pre parts).take slugLimit := by
  have hfront : Dashed (front pre parts) := by
    refine hpre.append (dashed_intercalate (by simpa using hne) ?_)
    intro p hp
    obtain ⟨part, hpart, rfl⟩ := List.mem_map.1 hp
    exact (hparts part hpart).1
  have hkept : parts.map (fun part => slugify part "x") = parts := by
    refine (List.map_congr_left fun p hp => ?_).trans (List.map_id parts)
    exact slugify_dashed (hparts p hp).1 (hparts p hp).2 "x"
  obtain ⟨y, hy⟩ := intercalate_append (parts.map String.toList)
    ((rest.map fun part => slugify part "x").map String.toList)
  refine slugify_cut (y := y) ?_ hfront hlen pre
  rw [String.toList_append, String.toList_append, String.toList_intercalate, List.map_append, hkept,
    List.map_append]
  show pre.toList ++ ['-'] ++ ['-'].intercalate _ = _
  rw [hy, front, List.append_assoc, List.append_assoc, List.singleton_append, List.cons_append]

end RaibitServer.Core
