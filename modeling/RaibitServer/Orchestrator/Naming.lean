import RaibitServer.Lib.Label

/-!
# Orchestrator.Naming — names of the objects in the cluster

The naming functions of `kube/deployment.go`.  `boundedDNSName` and `identityDNSName` slice their
twelve digits of a SHA-256 to the limit where nothing of the name can be kept.  At the limit thirteen
that slice is out of range and panics; every caller passes another limit, which is why the functions
used in the rest of the model ask for it (`boundedDNSName?` is the function for any limit).
-/

namespace RaibitServer.Orchestrator

open Lib Label

def firstNonEmpty (values : List String) : String :=
  (values.find? fun value => Text.trimSpace value ≠ "").getD ""

def normalizeDNSName (value : String) : String :=
  let value := squash (Text.lower (Text.trimSpace value)).toList
  if value = [] then "item" else String.ofList value

/-- `suffix[:limit]`; out of range it panics. -/
def sliceTo (suffix : List Char) (limit : Nat) : Option String :=
  if limit ≤ suffix.length then some (String.ofList (suffix.take limit)) else none

/-- `boundedDNSName`; `none` is a panic. -/
def boundedDNSName? (sha256 : Hash) (value identity : String) (limit : Nat) : Option String :=
  let value := normalizeDNSName value
  if limit = 0 then some "item"
  else if value.toList.length ≤ limit then some value
  else
    let suffix := sha256.short (firstNonEmpty [identity, value])
    if limit ≤ suffix.length then sliceTo suffix limit
    else
      let base := keep limit suffix.length value.toList
      if base = [] then sliceTo suffix limit else some (String.ofList (base ++ '-' :: suffix))

/-- `identityDNSName`; `none` is a panic. -/
def identityDNSName? (sha256 : Hash) (value identity : String) (limit : Nat) : Option String :=
  if limit = 0 then some "item"
  else
    let value := normalizeDNSName value
    let suffix := sha256.short (firstNonEmpty [identity, value])
    if limit ≤ suffix.length then sliceTo suffix limit
    else
      let baseLimit := limit - suffix.length - 1
      let base := if value.toList.length > baseLimit then keep limit suffix.length value.toList
        else value.toList
      if base = [] then sliceTo suffix limit else some (String.ofList (base ++ '-' :: suffix))

/-! ### What the names are -/

theorem normalizeDNSName_isLabel (value : String) : IsLabel (normalizeDNSName value).toList := by
  unfold normalizeDNSName
  dsimp only
  split_ifs with h
  · exact isLabel_item
  · rw [String.toList_ofList]
    exact squash_isLabel h

/-- A label is left as it is. -/
theorem normalizeDNSName_of_isLabel {value : String} (h : IsLabel value.toList) :
    normalizeDNSName value = value := by
  have htrim : Text.trimSpace value = value := Text.trimBy_eq_self fun c hc =>
    labelChar_ascii (P := fun c => Text.isGoSpace c = false) (by decide) (h.chars c hc)
  have hlower : Text.lower value = value := Text.lower_eq_self fun c hc =>
    labelChar_ascii (P := fun c => Text.lowerChar c = c) (by decide) (h.chars c hc)
  unfold normalizeDNSName
  rw [htrim, hlower, squash_of_isLabel h, if_neg h.ne_nil, String.ofList_toList]

section Panic

variable {sha256 : Hash} {value identity : String} {limit : Nat}

theorem keep_ne_nil (h : 12 + 1 < limit) : keep limit 12 (normalizeDNSName value).toList ≠ [] := by
  obtain ⟨c, s, hkeep, -⟩ := keep_first (normalizeDNSName_isLabel value) h
  rw [hkeep]
  exact List.cons_ne_nil c s

theorem sliceTo_isSome {suffix : List Char} (h : limit ≤ suffix.length) :
    (sliceTo suffix limit).isSome := by
  unfold sliceTo
  rw [if_pos h]
  rfl

theorem boundedDNSName?_isSome (h : limit ≠ 13) :
    (boundedDNSName? sha256 value identity limit).isSome := by
  have hlength := sha256.short_length (firstNonEmpty [identity, normalizeDNSName value])
  unfold boundedDNSName?
  dsimp only
  split_ifs with hzero hfits hslice hbase
  · rfl
  · rfl
  · exact sliceTo_isSome hslice
  · rw [hlength] at hbase
    exact absurd hbase (keep_ne_nil (by omega))
  · rfl

theorem identityDNSName?_isSome (h : limit ≠ 13) :
    (identityDNSName? sha256 value identity limit).isSome := by
  have hlength := sha256.short_length (firstNonEmpty [identity, normalizeDNSName value])
  unfold identityDNSName?
  dsimp only
  split_ifs with hzero hslice hlong hbase hbase
  · rfl
  · exact sliceTo_isSome hslice
  · rw [hlength] at hbase
    exact absurd hbase (keep_ne_nil (by omega))
  · rfl
  · exact absurd hbase (normalizeDNSName_isLabel value).ne_nil
  · rfl

end Panic

theorem limit_63 : 63 ≠ 13 := by decide

def boundedDNSName (sha256 : Hash) (value identity : String) (limit : Nat)
    (h : limit ≠ 13 := by decide) : String :=
  (boundedDNSName? sha256 value identity limit).get (boundedDNSName?_isSome h)

def identityDNSName (sha256 : Hash) (value identity : String) (limit : Nat)
    (h : limit ≠ 13 := by decide) : String :=
  (identityDNSName? sha256 value identity limit).get (identityDNSName?_isSome h)

section Bounded

variable {sha256 : Hash} {value identity : String} {limit : Nat} (hlimit : 13 < limit)
include hlimit

theorem boundedDNSName_eq (h : limit ≠ 13) :
    (boundedDNSName sha256 value identity limit h).toList =
      bound limit (sha256.short (firstNonEmpty [identity, normalizeDNSName value]))
        (normalizeDNSName value).toList := by
  have hlength := sha256.short_length (firstNonEmpty [identity, normalizeDNSName value])
  suffices hsome : boundedDNSName? sha256 value identity limit = some (String.ofList
      (bound limit (sha256.short (firstNonEmpty [identity, normalizeDNSName value]))
        (normalizeDNSName value).toList)) by
    simp only [boundedDNSName, hsome, Option.get_some, String.toList_ofList]
  unfold boundedDNSName? bound
  dsimp only
  rw [if_neg (by omega : ¬ limit = 0)]
  split_ifs with hfits hslice hbase
  · rw [String.ofList_toList]
  · omega
  · rw [hlength] at hbase
    exact absurd hbase (keep_ne_nil hlimit)
  · rfl

/-- Every name is a label within the limit. -/
theorem boundedDNSName_isLabel (h : limit ≠ 13) :
    IsLabel (boundedDNSName sha256 value identity limit h).toList ∧
      (boundedDNSName sha256 value identity limit h).toList.length ≤ limit := by
  have hlength : (sha256.short (firstNonEmpty [identity, normalizeDNSName value])).length + 1 < limit := by
    rw [sha256.short_length]
    exact hlimit
  rw [boundedDNSName_eq hlimit]
  exact ⟨bound_isLabel (normalizeDNSName_isLabel value) (sha256.short_isLabel _) hlength,
    bound_length hlength⟩

end Bounded

end RaibitServer.Orchestrator
