import RaibitServer.Lib.Label

/-!
# Lib.Slug — words joined by single dashes

`slug` turns a text into words of `[a-z0-9]` with one dash between two: every run of other characters,
dashes among them, becomes one dash, and the dashes at the ends go.  A text of that shape is left as it
is, and so is one at the front of a longer text (`slug_append`): what follows cannot change it.
-/

namespace RaibitServer.Lib.Slug

open Label (isDash trimDashes labelChar)

/-- Each run of characters outside `[a-z0-9]` becomes one dash; `inside` one, nothing is written. -/
def dashRuns : Bool → List Char → List Char
  | _, [] => []
  | inside, c :: s =>
    if Text.lowerAlnum c then c :: dashRuns false s
    else if inside then dashRuns true s
    else '-' :: dashRuns true s

def slug (s : List Char) : List Char := trimDashes (dashRuns false s)

/-- A word of `[a-z0-9]`. -/
structure IsWord (w : List Char) : Prop where
  nonempty : w ≠ []
  chars : ∀ c ∈ w, Text.lowerAlnum c = true

/-- Words with one dash between two. -/
inductive Dashed : List Char → Prop
  | word {w : List Char} (hw : IsWord w) : Dashed w
  | cons {w t : List Char} (hw : IsWord w) (ht : Dashed t) : Dashed (w ++ '-' :: t)

theorem Dashed.append {a b : List Char} (ha : Dashed a) (hb : Dashed b) : Dashed (a ++ '-' :: b) := by
  induction ha with
  | word hw => exact .cons hw hb
  | cons hw _ ih =>
    rw [List.append_assoc, List.cons_append]
    exact .cons hw ih

/-- The words of a dashed text are its fields between dashes. -/
theorem dashed_of_splitOn {l : List Char} (h : ∀ w ∈ l.splitOn '-', IsWord w) : Dashed l := by
  have hjoin : ∀ ws : List (List Char), ws ≠ [] → (∀ w ∈ ws, IsWord w) → Dashed (['-'].intercalate ws) := by
    intro ws
    induction ws with
    | nil => intro hne; exact absurd rfl hne
    | cons w ws ih =>
      intro _ hws
      have hw := hws w List.mem_cons_self
      cases ws with
      | nil => simpa using Dashed.word hw
      | cons v ws =>
        rw [List.intercalate_cons_cons, List.append_assoc]
        exact .cons hw (ih (by simp) fun u hu => hws u (List.mem_cons_of_mem _ hu))
  have hself : ['-'].intercalate (l.splitOn '-') = l := List.intercalate_splitOn '-'
  rw [← hself]
  exact hjoin _ (by simp [List.splitOn]) h

/-- The check that `dashed_of_splitOn` needs, as it can be evaluated. -/
def isDashed (l : List Char) : Bool := (l.splitOn '-').all fun w => w ≠ [] && w.all Text.lowerAlnum

theorem dashed_of_isDashed {l : List Char} (h : isDashed l = true) : Dashed l := by
  refine dashed_of_splitOn fun w hw => ?_
  have hcheck := List.all_eq_true.1 h w hw
  rw [Bool.and_eq_true, decide_eq_true_eq, List.all_eq_true] at hcheck
  exact ⟨hcheck.1, hcheck.2⟩

theorem not_isDash_of_lowerAlnum {c : Char} (h : Text.lowerAlnum c = true) : isDash c = false := by
  by_cases hc : c = '-'
  · subst hc
    exact absurd h (by decide)
  · simp [isDash, hc]

theorem labelChar_of_lowerAlnum {c : Char} (h : Text.lowerAlnum c = true) : labelChar c = true := by
  rw [labelChar, h, Bool.true_or]

variable {x : List Char}

theorem Dashed.chars (h : Dashed x) : ∀ c ∈ x, labelChar c = true := by
  induction h with
  | word hw => exact fun c hc => labelChar_of_lowerAlnum (hw.chars c hc)
  | cons hw _ ih =>
    intro c hc
    rcases List.mem_append.1 hc with hc | hc
    · exact labelChar_of_lowerAlnum (hw.chars c hc)
    · rcases List.mem_cons.1 hc with rfl | hc
      · exact Label.labelChar_dash
      · exact ih c hc

theorem Dashed.first (h : Dashed x) : ∃ c s, x = c :: s ∧ isDash c = false := by
  have hword : ∀ w rest : List Char, IsWord w → ∃ c s, w ++ rest = c :: s ∧ isDash c = false := by
    intro w rest hw
    obtain ⟨c, s, rfl⟩ := List.exists_cons_of_ne_nil hw.nonempty
    exact ⟨c, s ++ rest, rfl, not_isDash_of_lowerAlnum (hw.chars c List.mem_cons_self)⟩
  cases h with
  | word hw => simpa using hword x [] hw
  | cons hw _ => exact hword _ _ hw

theorem Dashed.last (h : Dashed x) : ∃ s c, x = s ++ [c] ∧ isDash c = false := by
  induction h with
  | @word w hw =>
    refine ⟨w.dropLast, w.getLast hw.nonempty, (List.dropLast_append_getLast hw.nonempty).symm, ?_⟩
    exact not_isDash_of_lowerAlnum (hw.chars _ (List.getLast_mem _))
  | @cons w t hw _ ih =>
    obtain ⟨s, c, rfl, hc⟩ := ih
    exact ⟨w ++ '-' :: s, c, by simp, hc⟩

/-! ### Slugging -/

theorem dashRuns_word {w : List Char} (hw : IsWord w) (inside : Bool) (s : List Char) :
    dashRuns inside (w ++ s) = w ++ dashRuns false s := by
  obtain ⟨hne, hchars⟩ := hw
  induction w generalizing inside with
  | nil => exact absurd rfl hne
  | cons c w ih =>
    rw [List.cons_append, dashRuns, if_pos (hchars c List.mem_cons_self)]
    cases w with
    | nil => rfl
    | cons d w => rw [ih false (by simp) fun e he => hchars e (List.mem_cons_of_mem _ he)]; rfl

/-- A dashed text at the front comes out as it went in. -/
theorem dashRuns_dashed (hx : Dashed x) (inside : Bool) (s : List Char) :
    dashRuns inside (x ++ s) = x ++ dashRuns false s := by
  induction hx generalizing inside with
  | word hw => exact dashRuns_word hw inside s
  | @cons w t hw _ ih =>
    have hdash : dashRuns false ('-' :: (t ++ s)) = '-' :: dashRuns true (t ++ s) := by
      rw [dashRuns, if_neg (by decide), if_neg (by decide)]
    rw [List.append_assoc, dashRuns_word hw, List.cons_append, hdash, ih, List.append_assoc,
      List.cons_append]

/-- What is dropped at the end stops at a text whose last character stays. -/
theorem rdropWhile_append {p : Char → Bool} (h : ∃ s c, x = s ++ [c] ∧ p c = false) (y : List Char) :
    (x ++ y).rdropWhile p = x ++ y.rdropWhile p := by
  obtain ⟨s, c, rfl, hc⟩ := h
  unfold List.rdropWhile
  rw [List.reverse_append, List.dropWhile_append]
  by_cases hy : (y.reverse.dropWhile p).isEmpty = true
  · rw [if_pos hy, List.isEmpty_iff.1 hy, List.reverse_concat,
      List.dropWhile_cons_of_neg (by simp [hc]), List.reverse_nil, List.append_nil, List.reverse_cons,
      List.reverse_reverse]
  · rw [if_neg hy, List.reverse_append, List.reverse_reverse]

theorem slug_append (hx : Dashed x) (y : List Char) : ∃ z, slug (x ++ y) = x ++ z := by
  obtain ⟨c, s, hfirst, hc⟩ := hx.first
  refine ⟨(dashRuns false y).rdropWhile isDash, ?_⟩
  have hdrop : (x ++ dashRuns false y).dropWhile isDash = x ++ dashRuns false y := by
    rw [hfirst, List.cons_append, List.dropWhile_cons_of_neg (by simp [hc])]
  unfold slug trimDashes
  rw [dashRuns_dashed hx, hdrop, rdropWhile_append hx.last]

theorem slug_dashed (hx : Dashed x) : slug x = x := by
  have hruns : dashRuns false x = x := by
    have happend := dashRuns_dashed hx false []
    rw [List.append_nil] at happend
    rw [happend]
    exact List.append_nil x
  rw [slug, hruns, Label.trimDashes_of_ends hx.first hx.last]

end RaibitServer.Lib.Slug
