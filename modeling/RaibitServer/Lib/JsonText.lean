import RaibitServer.Lib.Json

/-!
# Lib.JsonText — the text of a value as `JSON.stringify` writes it

Members keep their order.  A string literal ends where its text says so (`quote_append_inj`), and objects with the
same keys and texts or `null` as values are told apart by their texts (`stringify_inj`).
-/

namespace RaibitServer.Lib.Json

mutual

def stringify : Json → List Char
  | .null => "null".toList
  | .bool b => if b then "true".toList else "false".toList
  | .num n => (toString n).toList
  | .frac text => text.toList
  | .str s => quote s
  | .arr items => '[' :: (joinComma (stringifyItems items) ++ [']'])
  | .obj members => '{' :: (joinComma (stringifyMembers members) ++ ['}'])

def stringifyItems : List Json → List (List Char)
  | [] => []
  | item :: items => stringify item :: stringifyItems items

def stringifyMembers : List (String × Json) → List (List Char)
  | [] => []
  | (key, value) :: members => (quote key ++ ':' :: stringify value) :: stringifyMembers members

end

/-! ### Texts tell strings apart -/

/-- The characters that stand for themselves. -/
abbrev Plain (c : Char) : Prop := 32 ≤ c.toNat ∧ c ≠ '"' ∧ c ≠ '\\'

variable {c : Char} {x y : List Char}

theorem escapeChar_plain (h : Plain c) : escapeChar c = [c] := by
  unfold escapeChar
  rw [if_neg (Nat.not_lt.2 h.1), if_neg h.2.1, if_neg h.2.2]

/-- The codes of the other characters. -/
def escapedCodes : List Nat := 34 :: 92 :: List.range 32

theorem escaped_of_not_plain (h : ¬ Plain c) : ∃ n ∈ escapedCodes, c = Char.ofNat n := by
  by_cases hlow : c.toNat < 32
  · exact ⟨c.toNat, by simp [escapedCodes, hlow], (Char.ofNat_toNat c).symm⟩
  · by_cases hquote : c = '"'
    · exact ⟨34, by decide, hquote⟩
    · exact ⟨92, by decide, by_contra fun hne => h ⟨Nat.le_of_not_lt hlow, hquote, hne⟩⟩

theorem escapeChar_codes : ∀ n ∈ escapedCodes, ∃ rest, escapeChar (Char.ofNat n) = '\\' :: rest := by
  have hhead : ∀ n ∈ escapedCodes, (escapeChar (Char.ofNat n)).head? = some '\\' := by decide
  intro n hn
  exact List.head?_eq_some_iff.1 (hhead n hn)

theorem escapeChar_codes_start : ∀ m ∈ escapedCodes, ∀ n ∈ escapedCodes,
    (escapeChar (Char.ofNat m)).isPrefixOf (escapeChar (Char.ofNat n)) = true → m = n := by
  decide +kernel

/-- No text of a character goes on to be that of another. -/
theorem eq_of_escapeChar_start {d : Char} (h : escapeChar c <+: escapeChar d) : c = d := by
  by_cases hc : Plain c <;> by_cases hd : Plain d
  · rw [escapeChar_plain hc, escapeChar_plain hd] at h
    simpa using h
  · obtain ⟨n, hn, rfl⟩ := escaped_of_not_plain hd
    obtain ⟨rest, hrest⟩ := escapeChar_codes n hn
    rw [escapeChar_plain hc, hrest] at h
    exact absurd (List.cons_prefix_cons.1 h).1 hc.2.2
  · obtain ⟨n, hn, rfl⟩ := escaped_of_not_plain hc
    obtain ⟨rest, hrest⟩ := escapeChar_codes n hn
    rw [escapeChar_plain hd, hrest] at h
    exact absurd (List.cons_prefix_cons.1 h).1.symm hd.2.2
  · obtain ⟨m, hm, rfl⟩ := escaped_of_not_plain hc
    obtain ⟨n, hn, rfl⟩ := escaped_of_not_plain hd
    rw [escapeChar_codes_start m hm n hn (List.isPrefixOf_iff_prefix.2 h)]

theorem escapeChar_append_inj {d : Char} (h : escapeChar c ++ x = escapeChar d ++ y) : c = d ∧ x = y := by
  obtain rfl : c = d := by
    have hfront : escapeChar d <+: escapeChar c ++ x := h ▸ List.prefix_append (escapeChar d) y
    rcases List.prefix_or_prefix_of_prefix (List.prefix_append _ x) hfront with hcd | hdc
    · exact eq_of_escapeChar_start hcd
    · exact (eq_of_escapeChar_start hdc).symm
  exact ⟨rfl, List.append_cancel_left h⟩

theorem escapeChar_ne_quote (c : Char) (x y : List Char) : escapeChar c ++ x ≠ '"' :: y := by
  intro h
  by_cases hc : Plain c
  · rw [escapeChar_plain hc] at h
    exact hc.2.1 (List.cons.inj h).1
  · obtain ⟨n, hn, rfl⟩ := escaped_of_not_plain hc
    obtain ⟨rest, hrest⟩ := escapeChar_codes n hn
    rw [hrest] at h
    exact absurd (List.cons.inj h).1 (by decide)

theorem quote_append_inj {s t : String} (h : quote s ++ x = quote t ++ y) : s = t ∧ x = y := by
  have hinner : ∀ s t : List Char, s.flatMap escapeChar ++ '"' :: x = t.flatMap escapeChar ++ '"' :: y →
      s = t ∧ x = y := by
    intro s
    induction s with
    | nil =>
      intro t h
      cases t with
      | nil => exact ⟨rfl, (List.cons.inj h).2⟩
      | cons d t =>
        rw [List.flatMap_cons, List.append_assoc] at h
        exact absurd h.symm (escapeChar_ne_quote d _ _)
    | cons c s ih =>
      intro t h
      cases t with
      | nil =>
        rw [List.flatMap_cons, List.append_assoc] at h
        exact absurd h (escapeChar_ne_quote c _ _)
      | cons d t =>
        rw [List.flatMap_cons, List.flatMap_cons, List.append_assoc, List.append_assoc] at h
        obtain ⟨rfl, hrest⟩ := escapeChar_append_inj h
        obtain ⟨rfl, rfl⟩ := ih t hrest
        exact ⟨rfl, rfl⟩
  have hcut : s.toList.flatMap escapeChar ++ '"' :: x = t.toList.flatMap escapeChar ++ '"' :: y := by
    simpa [quote] using h
  obtain ⟨hst, rfl⟩ := hinner _ _ hcut
  exact ⟨String.toList_inj.1 hst, rfl⟩

/-- A text, or none. -/
def nullable : Option String → Json
  | none => .null
  | some s => .str s

theorem nullable_append_inj {a b : Option String} (h : stringify (nullable a) ++ x = stringify (nullable b) ++ y) :
    a = b ∧ x = y := by
  cases a <;> cases b
  · exact ⟨rfl, List.append_cancel_left h⟩
  · exact absurd (List.cons.inj h).1 (by decide)
  · exact absurd (List.cons.inj h).1 (by decide)
  · obtain ⟨rfl, rfl⟩ := quote_append_inj h
    exact ⟨rfl, rfl⟩

/-! ### Objects -/

/-- Members whose values are texts or nothing. -/
def nullableMembers (fields : List (String × Option String)) : JsonObject :=
  fields.map fun field => (field.1, nullable field.2)

theorem member_append_inj {f g : String × Option String} (hkey : f.1 = g.1)
    (h : (quote f.1 ++ ':' :: stringify (nullable f.2)) ++ x = (quote g.1 ++ ':' :: stringify (nullable g.2)) ++ y) :
    f = g ∧ x = y := by
  rw [hkey, List.append_assoc, List.append_assoc] at h
  obtain ⟨hvalue, rfl⟩ := nullable_append_inj (List.cons.inj (List.append_cancel_left h)).2
  exact ⟨Prod.ext hkey hvalue, rfl⟩

theorem members_append_inj {a b : List (String × Option String)} (hkeys : a.map (·.1) = b.map (·.1))
    (h : joinComma (stringifyMembers (nullableMembers a)) ++ x =
      joinComma (stringifyMembers (nullableMembers b)) ++ y) : a = b ∧ x = y := by
  induction a generalizing b with
  | nil =>
    obtain rfl := List.map_eq_nil_iff.1 hkeys.symm
    exact ⟨rfl, h⟩
  | cons f a ih =>
    cases b with
    | nil => cases hkeys
    | cons g b =>
      obtain ⟨hkey, hrest⟩ := List.cons.inj hkeys
      cases a with
      | nil =>
        obtain rfl := List.map_eq_nil_iff.1 hrest.symm
        obtain ⟨rfl, rfl⟩ := member_append_inj hkey h
        exact ⟨rfl, rfl⟩
      | cons f' a =>
        cases b with
        | nil => cases hrest
        | cons g' b =>
          -- the comma stands between the first member and the others
          have hcomma : (quote f.1 ++ ':' :: stringify (nullable f.2)) ++
                (',' :: (joinComma (stringifyMembers (nullableMembers (f' :: a))) ++ x)) =
              (quote g.1 ++ ':' :: stringify (nullable g.2)) ++
                (',' :: (joinComma (stringifyMembers (nullableMembers (g' :: b))) ++ y)) := by
            simpa [stringifyMembers, nullableMembers, joinComma] using h
          obtain ⟨rfl, htail⟩ := member_append_inj hkey hcomma
          obtain ⟨hothers, rfl⟩ := ih hrest (List.cons.inj htail).2
          exact ⟨by rw [hothers], rfl⟩

theorem stringify_inj {a b : List (String × Option String)} (hkeys : a.map (·.1) = b.map (·.1))
    (h : stringify (.obj (nullableMembers a)) = stringify (.obj (nullableMembers b))) : a = b :=
  (members_append_inj hkeys (List.cons.inj h).2).1

end RaibitServer.Lib.Json
