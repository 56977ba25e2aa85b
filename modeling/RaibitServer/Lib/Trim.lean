import Mathlib.Data.List.DropRight
import RaibitServer.Lib.Text

/-!
# Lib.Trim — trimmed texts

What trimming leaves of a text, when it leaves nothing, and where JavaScript and Go trim alike.
-/

namespace RaibitServer.Lib.Text

variable {blank : Char → Bool} {s t : String}

theorem trimBy_eq (blank : Char → Bool) (s : String) :
    trimBy blank s = String.ofList ((s.toList.dropWhile blank).rdropWhile blank) := rfl

theorem trimBy_eq_empty : trimBy blank s = "" ↔ ∀ c ∈ s.toList, blank c = true := by
  rw [trimBy_eq, ← String.toList_inj, String.toList_ofList, String.toList_empty, List.rdropWhile_eq_nil_iff]
  constructor
  · intro h
    by_contra hsome
    -- a character that is not blank stops the first pass, and is then the first one left
    have hne : s.toList.dropWhile blank ≠ [] := fun hnil => hsome (List.dropWhile_eq_nil_iff.1 hnil)
    have hhead := List.head_dropWhile_not blank hne
    rw [h _ (List.head_mem hne)] at hhead
    cases hhead
  · intro h c hc
    exact h c ((List.dropWhile_suffix blank).subset hc)

theorem trimBy_append (hs : ∀ c ∈ s.toList, blank c = false) (ht : ∀ c ∈ t.toList, blank c = true) (hne : s ≠ "") :
    trimBy blank (s ++ t) = s := by
  obtain ⟨c, cs, hcons⟩ : ∃ c cs, s.toList = c :: cs :=
    List.exists_cons_of_ne_nil fun hnil => hne (String.toList_inj.1 (by rw [hnil, String.toList_empty]))
  have hc : blank c = false := hs c (by rw [hcons]; exact List.mem_cons_self)
  have hfront : (s ++ t).toList.dropWhile blank = s.toList ++ t.toList := by
    rw [String.toList_append, hcons, List.cons_append, List.dropWhile_cons_of_neg (by rw [hc]; exact Bool.false_ne_true)]
  have hback : (s.toList ++ t.toList).reverse.dropWhile blank = s.toList.reverse := by
    rw [List.reverse_append, List.dropWhile_append_of_pos (fun c hmem => ht c (List.mem_reverse.1 hmem))]
    refine List.dropWhile_eq_self_iff.2 fun hlen => ?_
    rw [hs _ (List.mem_reverse.1 (List.getElem_mem hlen))]
    exact Bool.false_ne_true
  unfold trimBy
  rw [hfront, hback, List.reverse_reverse, String.ofList_toList]

/-! ### Blanks around a text -/

/-- What trimming takes away. -/
theorem trimBy_split (blank : Char → Bool) (s : String) : ∃ front back : List Char,
    s.toList = front ++ (trimBy blank s).toList ++ back ∧ (∀ c ∈ front, blank c = true) ∧
      ∀ c ∈ back, blank c = true := by
  refine ⟨s.toList.takeWhile blank, (s.toList.dropWhile blank).rtakeWhile blank, ?_,
    fun c hc => List.mem_takeWhile_imp hc, fun c hc => List.mem_rtakeWhile_imp hc⟩
  rw [trimBy_eq, String.toList_ofList, List.append_assoc, List.rdropWhile_append_rtakeWhile,
    List.takeWhile_append_dropWhile]

theorem trimBy_surrounded {front back : List Char} (hfront : ∀ c ∈ front, blank c = true)
    (hback : ∀ c ∈ back, blank c = true) (ht : ∀ c ∈ t.toList, blank c = false)
    (hs : s.toList = front ++ t.toList ++ back) : trimBy blank s = t := by
  by_cases hne : t = ""
  · rw [hne, trimBy_eq_empty, hs, hne, String.toList_empty, List.append_nil]
    intro c hc
    rcases List.mem_append.1 hc with hc | hc
    · exact hfront c hc
    · exact hback c hc
  · have hrest := trimBy_append (t := String.ofList back) ht
      (by rw [String.toList_ofList]; exact hback) hne
    unfold trimBy at hrest ⊢
    rw [hs, List.append_assoc, List.dropWhile_append_of_pos hfront]
    rwa [String.toList_append, String.toList_ofList] at hrest

/-- A wider notion of blank takes no more away, if what is left has none of its blanks. -/
theorem trimBy_widen {p q : Char → Bool} (hpq : ∀ c, p c = true → q c = true)
    (hleft : ∀ c ∈ (trimBy p s).toList, q c = false) : trimBy q s = trimBy p s := by
  obtain ⟨front, back, hs, hfront, hback⟩ := trimBy_split p s
  exact trimBy_surrounded (fun c hc => hpq c (hfront c hc)) (fun c hc => hpq c (hback c hc)) hleft hs

/-! ### ASCII texts -/

def isAscii (s : String) : Prop := ∀ c ∈ s.toList, c.toNat < 128

theorem dropWhile_congr {p q : Char → Bool} {l : List Char} (h : ∀ c ∈ l, p c = q c) :
    l.dropWhile p = l.dropWhile q := by
  induction l with
  | nil => rfl
  | cons c l ih =>
    rw [List.dropWhile_cons, List.dropWhile_cons, h c List.mem_cons_self,
      ih fun c hc => h c (List.mem_cons_of_mem _ hc)]

theorem trimBy_congr {p q : Char → Bool} (h : ∀ c ∈ s.toList, p c = q c) : trimBy p s = trimBy q s := by
  unfold trimBy
  rw [dropWhile_congr h, dropWhile_congr (p := p) (q := q) fun c hc =>
    h c ((List.dropWhile_suffix q).subset (List.mem_reverse.1 hc))]

/-- On ASCII texts JavaScript and Go trim alike. -/
theorem jsTrim_eq_trimSpace (h : isAscii s) : jsTrim s = trimSpace s := by
  refine trimBy_congr fun c hc => ?_
  have hsmall := h c hc
  unfold isJsSpace
  have h85 : (c.toNat != 0x85) = true := bne_iff_ne.2 (by omega)
  have hbom : ¬ c.toNat = 0xFEFF := by omega
  rw [h85, decide_eq_false hbom, Bool.and_true, Bool.or_false]

/-- On ASCII texts JavaScript and Go have one lower case. -/
theorem jsLower_eq_lower (h : isAscii s) : jsLower s = lower s := by
  unfold jsLower lower
  congr 1
  have hsingle : ∀ c ∈ s.toList, jsLowerChar c = [lowerChar c] := by
    intro c hc
    have hsmall := h c hc
    unfold jsLowerChar
    rw [if_neg (by omega)]
  rw [List.flatMap_congr hsingle, ← List.map_eq_flatMap]

theorem isAscii_trimBy (h : isAscii s) : isAscii (trimBy blank s) := fun c hc => h c (mem_trimBy hc)

/-! ### Hexadecimal texts -/

theorem lowerHex_toNat {c : Char} (h : lowerHex c = true) :
    48 ≤ c.toNat ∧ c.toNat ≤ 57 ∨ 97 ≤ c.toNat ∧ c.toNat ≤ 102 := by
  unfold lowerHex at h
  rw [Bool.or_eq_true, Bool.and_eq_true, decide_eq_true_eq, decide_eq_true_eq] at h
  rcases h with h | ⟨hlo, hhi⟩
  · exact .inl (isDigit_iff.1 h)
  · exact .inr ⟨hlo, hhi⟩

theorem isGoSpace_of_lowerHex {c : Char} (h : lowerHex c = true) : isGoSpace c = false := by
  have hascii : ∀ n ≤ 102, 48 ≤ n → isGoSpace (Char.ofNat n) = false := by decide
  have hrange := lowerHex_toNat h
  have hspace := hascii c.toNat (by omega) (by omega)
  rwa [Char.ofNat_toNat] at hspace

end RaibitServer.Lib.Text
