import Mathlib.Data.List.Sort

/-!
# Lib.Text — character classes, bounded patterns and text order

Texts are `String`, but every function runs over the character list, so that closed terms reduce.
The patterns are the anchored shapes that identifier checks use; all their classes are ASCII, so it
does not matter whether the host counts bytes, UTF-16 units or code points.
-/

namespace RaibitServer.Lib.Text

/-! ### Classes -/

variable {c : Char} {s : String}

theorem isUpper_iff : c.isUpper = true ↔ 65 ≤ c.toNat ∧ c.toNat ≤ 90 :=
  ⟨fun h => of_decide_eq_true h, fun h => decide_eq_true h⟩

theorem isLower_iff : c.isLower = true ↔ 97 ≤ c.toNat ∧ c.toNat ≤ 122 := by
  have h : c.isLower = (decide (97 ≤ c.toNat) && decide (c.toNat ≤ 122)) := rfl
  rw [h, Bool.and_eq_true, decide_eq_true_eq, decide_eq_true_eq]

theorem isDigit_iff : c.isDigit = true ↔ 48 ≤ c.toNat ∧ c.toNat ≤ 57 := by
  have h : c.isDigit = (decide (48 ≤ c.toNat) && decide (c.toNat ≤ 57)) := rfl
  rw [h, Bool.and_eq_true, decide_eq_true_eq, decide_eq_true_eq]

def lowerAlnum (c : Char) : Bool := c.isLower || c.isDigit

def lowerHex (c : Char) : Bool := c.isDigit || (decide ('a' ≤ c) && decide (c ≤ 'f'))

/-- The class `base` together with the characters of `extra`. -/
def orOneOf (base : Char → Bool) (extra : List Char) (c : Char) : Bool := base c || extra.contains c

/-! ### Anchored patterns -/

/-- `^[first][rest]{0,n}$`. -/
def headTail (first rest : Char → Bool) (n : Nat) (s : String) : Bool :=
  match s.toList with
  | [] => false
  | c :: cs => first c && cs.all rest && decide (cs.length ≤ n)

/-- `^[cls]{lo,hi}$`. -/
def bounded (cls : Char → Bool) (lo hi : Nat) (s : String) : Bool :=
  s.toList.all cls && decide (lo ≤ s.toList.length) && decide (s.toList.length ≤ hi)

/-- `^[edge](?:[inner]{0,n}[edge])?$`. -/
def edged (edge inner : Char → Bool) (n : Nat) (s : String) : Bool :=
  match s.toList with
  | [] => false
  | [c] => edge c
  | c :: cs => edge c && cs.dropLast.all inner && decide (cs.dropLast.length ≤ n) &&
      cs.getLast?.any edge

/-! ### Lengths, numbers and order -/

/-- UTF-16 code units of a character. -/
def utf16 (c : Char) : List Nat :=
  if c.toNat < 0x10000 then [c.toNat]
  else [0xD800 + (c.toNat - 0x10000) / 0x400, 0xDC00 + (c.toNat - 0x10000) % 0x400]

/-- The `length` of a JavaScript string. -/
def jsLength (s : String) : Nat := (s.toList.flatMap utf16).length

/-- Value of a text of decimal digits. -/
def decimal (s : String) : Nat := s.toList.foldl (fun n c => n * 10 + (c.toNat - '0'.toNat)) 0

/-- Lexicographic order on code units, as a Boolean. -/
def unitsLe : List Nat → List Nat → Bool
  | [], _ => true
  | _ :: _, [] => false
  | a :: as, b :: bs => decide (a < b) || (decide (a = b) && unitsLe as bs)

/-- `a <= b` on JavaScript strings: by UTF-16 code units. -/
def jsLe (a b : String) : Bool := unitsLe (a.toList.flatMap utf16) (b.toList.flatMap utf16)

/-! ### Affixes -/

def startsWith (s pre : String) : Bool := pre.toList.isPrefixOf s.toList

def endsWith (s suffix : String) : Bool := suffix.toList.isSuffixOf s.toList

/-! ### Blanks and case -/

def trimBy (blank : Char → Bool) (s : String) : String :=
  String.ofList (((s.toList.dropWhile blank).reverse.dropWhile blank).reverse)

/-- `BTRIM(s)`. -/
def btrim (s : String) : String := trimBy (fun c => c = ' ') s

/-- Unicode white space, as Go's `unicode.IsSpace` has it. -/
def isGoSpace (c : Char) : Bool :=
  [0x9, 0xA, 0xB, 0xC, 0xD, 0x20, 0x85, 0xA0, 0x1680, 0x2028, 0x2029, 0x202F, 0x205F, 0x3000].contains
    c.toNat || (decide (0x2000 ≤ c.toNat) && decide (c.toNat ≤ 0x200A))

/-- `strings.TrimSpace`. -/
def trimSpace (s : String) : String := trimBy isGoSpace s

/-- Upper case, as far as a comparison with an ASCII text can tell: besides `a` to `z`, the dotless i
and the long s have an upper case in ASCII. -/
def upperChar (c : Char) : Char :=
  if c.toNat = 0x131 then 'I' else if c.toNat = 0x17F then 'S' else c.toUpper

def upper (s : String) : String := String.ofList (s.toList.map upperChar)

/-- Lower case, as far as a comparison with an ASCII text can tell: besides `A` to `Z`, the dotted I
and the Kelvin sign have a lower case in ASCII. -/
def lowerChar (c : Char) : Char :=
  if c.toNat = 0x130 then 'i' else if c.toNat = 0x212A then 'k' else c.toLower

def lower (s : String) : String := String.ofList (s.toList.map lowerChar)

/-- JavaScript's white space and line terminators. -/
def isJsSpace (c : Char) : Bool := (isGoSpace c && c.toNat != 0x85) || c.toNat = 0xFEFF

/-- `s.trim()`. -/
def jsTrim (s : String) : String := trimBy isJsSpace s

/-- `toLowerCase`, as far as a comparison with ASCII texts can tell: unlike Go's, it keeps the dot of
the dotted I as a character of its own. -/
def jsLowerChar (c : Char) : List Char :=
  if c.toNat = 0x130 then ['i', Char.ofNat 0x307] else [lowerChar c]

def jsLower (s : String) : String := String.ofList (s.toList.flatMap jsLowerChar)

/-- `strings.EqualFold` with an ASCII text without `k` and `s`. -/
def equalFold (s t : String) : Bool := s.toList.map Char.toUpper = t.toList.map Char.toUpper

theorem trimBy_eq_self {blank : Char → Bool} (h : ∀ c ∈ s.toList, blank c = false) : trimBy blank s = s := by
  have hdrop : ∀ l : List Char, (∀ c ∈ l, blank c = false) → l.dropWhile blank = l := by
    intro l hl
    cases l with
    | nil => rfl
    | cons c l => rw [List.dropWhile_cons_of_neg (by simp [hl c (by simp)])]
  unfold trimBy
  rw [hdrop _ h, hdrop _ (by simpa using h), List.reverse_reverse, String.ofList_toList]

theorem mem_trimBy {blank : Char → Bool} (h : c ∈ (trimBy blank s).toList) : c ∈ s.toList := by
  unfold trimBy at h
  rw [String.toList_ofList, List.mem_reverse] at h
  exact (List.dropWhile_suffix blank).subset (List.mem_reverse.1 ((List.dropWhile_suffix blank).subset h))

theorem lower_eq_self (h : ∀ c ∈ s.toList, lowerChar c = c) : lower s = s := by
  unfold lower
  rw [List.map_congr_left h, List.map_id', String.ofList_toList]

theorem jsLower_eq_self (h : ∀ c ∈ s.toList, jsLowerChar c = [c]) : jsLower s = s := by
  have hmap : s.toList.flatMap jsLowerChar = s.toList := by
    rw [List.flatMap_congr h, List.flatMap_singleton']
  unfold jsLower
  rw [hmap, String.ofList_toList]

/-- `a || b` on JavaScript strings. -/
def jsOr (a b : String) : String := if a = "" then b else a

theorem jsOr_of_ne {a b : String} (h : a ≠ "") : jsOr a b = a := if_neg h

/-- A string or `null` that JavaScript counts as true. -/
def truthy : Option String → Bool
  | some s => decide (s ≠ "")
  | none => false

/-! ### The order of JavaScript strings -/

/-- The comparison behind `<` and `===` of JavaScript strings. -/
def jsCompare (a b : String) : Ordering := compare (a.toList.flatMap utf16) (b.toList.flatMap utf16)

theorem utf16_append_inj {d : Char} {rest rest' : List Nat} (h : utf16 c ++ rest = utf16 d ++ rest') :
    c = d ∧ rest = rest' := by
  have hrange (c : Char) : c.toNat < 0xD800 ∨ 0xDFFF < c.toNat ∧ c.toNat < 0x110000 := c.valid
  have hc := hrange c
  have hd := hrange d
  unfold utf16 at h
  split_ifs at h with hcb hdb hdb
  · obtain ⟨hcd, hrest⟩ := List.cons.inj h
    exact ⟨Char.toNat_inj.1 hcd, hrest⟩
  · obtain ⟨hhigh, -⟩ := List.cons.inj h
    omega
  · obtain ⟨hhigh, -⟩ := List.cons.inj h
    omega
  · obtain ⟨hhigh, htail⟩ := List.cons.inj h
    obtain ⟨hlow, hrest⟩ := List.cons.inj htail
    exact ⟨Char.toNat_inj.1 (by omega), hrest⟩

theorem utf16_ne_nil (c : Char) : utf16 c ≠ [] := by
  unfold utf16
  split <;> simp

theorem utf16_injective {a b : List Char} (h : a.flatMap utf16 = b.flatMap utf16) : a = b := by
  induction a generalizing b with
  | nil =>
    cases b with
    | nil => rfl
    | cons d b =>
      rw [List.flatMap_cons, List.flatMap_nil] at h
      exact absurd (List.append_eq_nil_iff.1 h.symm).1 (utf16_ne_nil d)
  | cons c a ih =>
    cases b with
    | nil =>
      rw [List.flatMap_cons, List.flatMap_nil] at h
      exact absurd (List.append_eq_nil_iff.1 h).1 (utf16_ne_nil c)
    | cons d b =>
      rw [List.flatMap_cons, List.flatMap_cons] at h
      obtain ⟨rfl, hrest⟩ := utf16_append_inj h
      rw [ih hrest]

instance : Std.TransCmp jsCompare where
  eq_swap := Std.OrientedOrd.eq_swap
  isLE_trans := Std.TransOrd.isLE_trans

instance : Std.LawfulEqCmp jsCompare where
  compare_self := Std.ReflOrd.compare_self
  eq_of_compare h := String.toList_inj.1 (utf16_injective (Std.LawfulEqOrd.eq_of_compare h))

end RaibitServer.Lib.Text
