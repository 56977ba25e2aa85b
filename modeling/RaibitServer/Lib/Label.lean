import Mathlib.Data.List.DropRight
import RaibitServer.Lib.Hex
import RaibitServer.Lib.Text

/-!
# Lib.Label — DNS labels made from texts

`squash` turns a text into a label: every run of other characters becomes one dash, and the dashes at
the ends go.  `bound` keeps a label within a limit: a longer one is cut and ends in a suffix that a
hash of its identity gives.

* `squash_isLabel`, `squash_of_isLabel`: the result is a label, and a label is left as it is.
* `bound_isLabel`, `bound_length`: a bounded label is a label within the limit.
* `bound_eq_iff`: when two bounded labels are the same.
-/

namespace RaibitServer.Lib.Label

/-- The class `[a-z0-9-]`. -/
def labelChar (c : Char) : Bool := Text.lowerAlnum c || c = '-'

def isDash (c : Char) : Bool := c = '-'

/-- Each run of characters outside `[a-z0-9-]` becomes one dash; `inside` one, nothing is written. -/
def dashRuns : Bool → List Char → List Char
  | _, [] => []
  | inside, c :: s =>
    if labelChar c then c :: dashRuns false s
    else if inside then dashRuns true s
    else '-' :: dashRuns true s

def trimDashes (s : List Char) : List Char := (s.dropWhile isDash).rdropWhile isDash

def squash (s : List Char) : List Char := trimDashes (dashRuns false s)

/-- A label of any length: `[a-z0-9](?:[a-z0-9-]*[a-z0-9])?`. -/
structure IsLabel (l : List Char) : Prop where
  chars : ∀ c ∈ l, labelChar c = true
  first : ∃ c s, l = c :: s ∧ isDash c = false
  last : ∃ s c, l = s ++ [c] ∧ isDash c = false

theorem IsLabel.ne_nil {l : List Char} (h : IsLabel l) : l ≠ [] := by
  obtain ⟨c, s, rfl, -⟩ := h.first
  simp

theorem labelChar_dash : labelChar '-' = true := by decide

variable {c : Char} {s : List Char}

theorem labelChar_lt (hc : labelChar c = true) : c.toNat < 128 := by
  simp only [labelChar, Text.lowerAlnum, Text.isLower_iff, Text.isDigit_iff, Bool.or_eq_true,
    decide_eq_true_eq] at hc
  rcases hc with (⟨-, h⟩ | ⟨-, h⟩) | rfl
  · omega
  · omega
  · decide

/-- What the ASCII table shows of the characters of labels. -/
theorem labelChar_ascii {P : Char → Prop} (h : ∀ n < 128, labelChar (Char.ofNat n) = true → P (Char.ofNat n))
    (hc : labelChar c = true) : P c := by
  have hc' := h c.toNat (labelChar_lt hc)
  rw [Char.ofNat_toNat] at hc'
  exact hc' hc

/-! ### Squashing -/

theorem dashRuns_chars {inside : Bool} : ∀ c ∈ dashRuns inside s, labelChar c = true := by
  induction s generalizing inside with
  | nil => simp [dashRuns]
  | cons a s ih =>
    intro c hc
    unfold dashRuns at hc
    split_ifs at hc with ha hin
    · rcases List.mem_cons.1 hc with rfl | hc
      · exact ha
      · exact ih c hc
    · exact ih c hc
    · rcases List.mem_cons.1 hc with rfl | hc
      · exact labelChar_dash
      · exact ih c hc

theorem trimDashes_mem (h : c ∈ trimDashes s) : c ∈ s :=
  (List.dropWhile_suffix _).subset ((List.rdropWhile_prefix _ _).subset h)

/-- What is left of a trimmed text, if anything, has no dash at its ends. -/
theorem trimDashes_ends (h : trimDashes s ≠ []) :
    (∃ c t, trimDashes s = c :: t ∧ isDash c = false) ∧
      ∃ t c, trimDashes s = t ++ [c] ∧ isDash c = false := by
  constructor
  · obtain ⟨t, ht⟩ := List.rdropWhile_prefix (p := isDash) (l := s.dropWhile isDash)
    obtain ⟨c, u, hcu⟩ := List.exists_cons_of_ne_nil h
    refine ⟨c, u, hcu, ?_⟩
    have hdrop : s.dropWhile isDash = c :: (u ++ t) := by
      rw [← ht]
      show trimDashes s ++ t = _
      rw [hcu]
      rfl
    have hne : s.dropWhile isDash ≠ [] := by simp [hdrop]
    have hhead := List.head_dropWhile_not isDash hne
    simpa [hdrop] using hhead
  · have hlast := List.rdropWhile_last_not isDash _ h
    exact ⟨_, _, (List.dropLast_append_getLast h).symm, eq_false_of_ne_true hlast⟩

theorem squash_isLabel (h : squash s ≠ []) : IsLabel (squash s) :=
  ⟨fun _ hc => dashRuns_chars _ (trimDashes_mem hc), (trimDashes_ends h).1, (trimDashes_ends h).2⟩

theorem dashRuns_of_chars (h : ∀ c ∈ s, labelChar c = true) : dashRuns false s = s := by
  induction s with
  | nil => rfl
  | cons c s ih =>
    unfold dashRuns
    rw [if_pos (h c (by simp)), ih fun d hd => h d (by simp [hd])]

theorem trimDashes_of_ends {l : List Char} (hfirst : ∃ c s, l = c :: s ∧ isDash c = false)
    (hlast : ∃ s c, l = s ++ [c] ∧ isDash c = false) : trimDashes l = l := by
  have hdrop : l.dropWhile isDash = l := by
    obtain ⟨c, s, rfl, hc⟩ := hfirst
    rw [List.dropWhile_cons_of_neg (by simp [hc])]
  unfold trimDashes
  rw [hdrop]
  obtain ⟨s, c, rfl, hc⟩ := hlast
  exact List.rdropWhile_concat_neg _ _ _ (by simp [hc])

theorem squash_of_isLabel {l : List Char} (h : IsLabel l) : squash l = l := by
  unfold squash
  rw [dashRuns_of_chars h.chars, trimDashes_of_ends h.first h.last]

theorem isLabel_item : IsLabel "item".toList :=
  ⟨List.all_eq_true.1 (by decide), ⟨'i', ['t', 'e', 'm'], by decide⟩, ⟨['i', 't', 'e'], 'm', by decide⟩⟩

/-- Two labels joined by text of the same class. -/
theorem IsLabel.join {a b : List Char} (ha : IsLabel a) (hb : IsLabel b) {mid : List Char}
    (hmid : ∀ c ∈ mid, labelChar c = true) : IsLabel (a ++ mid ++ b) := by
  refine ⟨?_, ?_, ?_⟩
  · intro c hc
    rcases List.mem_append.1 hc with hc | hc
    · rcases List.mem_append.1 hc with hc | hc
      · exact ha.chars c hc
      · exact hmid c hc
    · exact hb.chars c hc
  · obtain ⟨c, s, rfl, hc⟩ := ha.first
    exact ⟨c, s ++ mid ++ b, by simp, hc⟩
  · obtain ⟨s, c, rfl, hc⟩ := hb.last
    exact ⟨a ++ mid ++ s, c, by simp, hc⟩

/-! ### Bounding -/

/-- What is kept of a label in front of a dash and a suffix of `n` characters. -/
def keep (limit n : Nat) (l : List Char) : List Char := (l.take (limit - n - 1)).rdropWhile isDash

def bound (limit : Nat) (suffix l : List Char) : List Char :=
  if l.length ≤ limit then l else keep limit suffix.length l ++ '-' :: suffix

section Bound

variable {limit n : Nat} {suffix l : List Char}

theorem keep_length : (keep limit n l).length ≤ limit - n - 1 :=
  Nat.le_trans (List.rdropWhile_prefix _ _).length_le (List.length_take_le _ _)

/-- A label starts with no dash, so something of it is kept. -/
theorem keep_first (h : IsLabel l) (hlimit : n + 1 < limit) :
    ∃ c s, keep limit n l = c :: s ∧ isDash c = false := by
  obtain ⟨c, s, rfl, hc⟩ := h.first
  obtain ⟨k, hk⟩ : ∃ k, limit - n - 1 = k + 1 := ⟨limit - n - 2, by omega⟩
  have htake : (c :: s).take (limit - n - 1) = c :: s.take k := by rw [hk, List.take_succ_cons]
  have hne : keep limit n (c :: s) ≠ [] := by
    intro hnil
    have hall := List.rdropWhile_eq_nil_iff.1 hnil c (by simp [htake])
    simp [hc] at hall
  obtain ⟨t, ht⟩ := List.rdropWhile_prefix isDash ((c :: s).take (limit - n - 1))
  obtain ⟨d, u, hdu⟩ := List.exists_cons_of_ne_nil hne
  refine ⟨d, u, hdu, ?_⟩
  have hhead : d :: (u ++ t) = c :: s.take k := by
    rw [← htake, ← ht]
    show _ = keep limit n (c :: s) ++ t
    rw [hdu]
    rfl
  obtain ⟨rfl, -⟩ := List.cons.inj hhead
  exact hc

theorem keep_chars (h : IsLabel l) : ∀ c ∈ keep limit n l, labelChar c = true := fun c hc =>
  h.chars c (List.mem_of_mem_take ((List.rdropWhile_prefix _ _).subset hc))

theorem bound_length (hlimit : suffix.length + 1 < limit) : (bound limit suffix l).length ≤ limit := by
  unfold bound
  split_ifs with h
  · exact h
  · have hkeep := @keep_length limit suffix.length l
    rw [List.length_append, List.length_cons]
    omega

theorem bound_isLabel (h : IsLabel l) (hsuffix : IsLabel suffix) (hlimit : suffix.length + 1 < limit) :
    IsLabel (bound limit suffix l) := by
  unfold bound
  split_ifs
  · exact h
  · obtain ⟨c, s, hkeep, hc⟩ := keep_first h hlimit
    refine ⟨?_, ?_, ?_⟩
    · intro d hd
      rcases List.mem_append.1 hd with hd | hd
      · exact keep_chars h d hd
      · rcases List.mem_cons.1 hd with rfl | hd
        · exact labelChar_dash
        · exact hsuffix.chars d hd
    · exact ⟨c, s ++ '-' :: suffix, by rw [hkeep]; rfl, hc⟩
    · obtain ⟨s', d, hd, hdash⟩ := hsuffix.last
      exact ⟨keep limit suffix.length l ++ '-' :: s', d, by rw [hd]; simp, hdash⟩

/-- **When two bounded labels are the same**: neither is cut and they are equal; both are cut, in
what is kept and in the suffix alike; or one is cut and the other is spelled like the cut one. -/
theorem bound_eq_iff {a b s t : List Char} (hst : s.length = t.length) :
    bound limit s a = bound limit t b ↔
      (a.length ≤ limit ∧ b.length ≤ limit ∧ a = b) ∨
      (limit < a.length ∧ limit < b.length ∧
        keep limit s.length a = keep limit t.length b ∧ s = t) ∨
      (a.length ≤ limit ∧ limit < b.length ∧ a = keep limit t.length b ++ '-' :: t) ∨
      (limit < a.length ∧ b.length ≤ limit ∧ b = keep limit s.length a ++ '-' :: s) := by
  have hcut : keep limit s.length a ++ '-' :: s = keep limit t.length b ++ '-' :: t ↔
      keep limit s.length a = keep limit t.length b ∧ s = t := by
    constructor
    · intro h
      obtain ⟨hkeep, htail⟩ := List.append_inj' h (by simp [hst])
      exact ⟨hkeep, (List.cons.inj htail).2⟩
    · rintro ⟨hkeep, rfl⟩
      rw [hkeep]
  unfold bound
  by_cases ha : a.length ≤ limit <;> by_cases hb : b.length ≤ limit
  · simp [ha, hb, Nat.not_lt.2 ha, Nat.not_lt.2 hb]
  · simp [ha, hb, Nat.not_lt.2 ha, Nat.lt_of_not_le hb]
  · simp [ha, hb, Nat.not_lt.2 hb, Nat.lt_of_not_le ha, eq_comm]
  · simp [ha, hb, Nat.lt_of_not_le ha, Nat.lt_of_not_le hb, hcut]

end Bound

/-! ### Hashes -/

/-- A hash of texts with digests of 32 bytes. -/
structure Hash where
  sum : String → List UInt8
  length_sum : ∀ text, (sum text).length = 32

/-- A hash that repeats one byte. -/
def Hash.repeated (byte : String → UInt8) : Hash :=
  ⟨fun text => List.replicate 32 (byte text), fun _ => List.length_replicate⟩

/-- The first six bytes of the digest, in hexadecimal. -/
def Hash.short (hash : Hash) (text : String) : List Char := Hex.encode ((hash.sum text).take 6)

theorem Hash.short_length (hash : Hash) (text : String) : (hash.short text).length = 12 := by
  unfold Hash.short
  rw [Hex.length_encode, List.length_take, hash.length_sum]
  rfl

theorem Hash.short_isLabel (hash : Hash) (text : String) : IsLabel (hash.short text) := by
  have hchars : ∀ c ∈ hash.short text, Text.lowerAlnum c = true :=
    fun _ hc => Hex.encode_lowerAlnum hc
  have hdash : ∀ c ∈ hash.short text, isDash c = false := by
    intro c hc
    by_contra h
    obtain rfl : c = '-' := by simpa [isDash] using h
    exact absurd (hchars _ hc) (by decide)
  have hne : hash.short text ≠ [] := by
    intro h
    have hlen := hash.short_length text
    rw [h] at hlen
    simp at hlen
  refine ⟨fun c hc => by simp [labelChar, hchars c hc], ?_, ?_⟩
  · obtain ⟨c, s, hcs⟩ := List.exists_cons_of_ne_nil hne
    exact ⟨c, s, hcs, hdash c (by simp [hcs])⟩
  · exact ⟨_, _, (List.dropLast_append_getLast hne).symm, hdash _ (List.getLast_mem hne)⟩

end RaibitServer.Lib.Label
