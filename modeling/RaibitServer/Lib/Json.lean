import RaibitServer.Lib.Hex
import RaibitServer.Lib.Text

/-!
# Lib.Json — JSON values and their canonical text

An object is the list of its members in enumeration order.  A number whose text is a plain integer
is a `num`; any other number is a `frac` and is carried by the text the host prints for it.
-/

namespace RaibitServer.Lib

inductive Json where
  | null
  | bool (value : Bool)
  | num (value : Int)
  | frac (text : String)
  | str (value : String)
  | arr (items : List Json)
  | obj (members : List (String × Json))

abbrev JsonObject := List (String × Json)

namespace Json

/-- `record[key]`: `none` is JavaScript's `undefined`. -/
def member (members : JsonObject) (key : String) : Option Json := List.lookup key members

theorem member_cons (m : String × Json) (members : JsonObject) (key : String) :
    member (m :: members) key = if key = m.1 then some m.2 else member members key := by
  unfold member
  rw [List.lookup_cons]
  by_cases h : key = m.1
  · rw [if_pos h, h, beq_self_eq_true]
  · rw [if_neg h, beq_false_of_ne h]

/-- Where the names are apart, the order of the members does not matter. -/
theorem member_perm {l members : JsonObject} (h : l.Perm members) (hnames : (l.map Prod.fst).Nodup)
    (key : String) : member l key = member members key := by
  induction h with
  | nil => rfl
  | cons m _ ih => rw [member_cons, member_cons, ih (List.nodup_cons.1 hnames).2]
  | swap m n l =>
    have hne : n.1 ≠ m.1 := fun heq => (List.nodup_cons.1 hnames).1 (heq ▸ List.mem_cons_self)
    simp only [member_cons]
    by_cases hn : key = n.1
    · rw [if_pos hn, if_neg (hn ▸ hne), if_pos hn]
    · rw [if_neg hn, if_neg hn]
  | trans h _ ihl ihr => rw [ihl hnames, ihr ((h.map Prod.fst).nodup_iff.1 hnames)]

/-- An object with these members in whatever order: a JSONB column has an order of its own. -/
def IsObject (members : JsonObject) (json : Json) : Prop := ∃ l, json = .obj l ∧ l.Perm members

/-- `{ ...record, [key]: value }`: an existing member keeps its place. -/
def setMember (members : JsonObject) (key : String) (value : Json) : JsonObject :=
  if members.any (fun m => m.1 == key) then
    members.map fun m => if m.1 == key then (key, value) else m
  else members ++ [(key, value)]

/-- `{ ...members, ...others }`. -/
def overlay (members others : JsonObject) : JsonObject :=
  others.foldl (fun members m => setMember members m.1 m.2) members

theorem member_replaced (members : JsonObject) (name : String) (value : Json) (key : String) :
    member (members.map fun m => if m.1 == name then (name, value) else m) key =
      if key = name then (member members key).map fun _ => value else member members key := by
  induction members with
  | nil => simp [member]
  | cons m members ih =>
    rw [List.map_cons, member_cons, member_cons, ih]
    by_cases hm : m.1 = name
    · by_cases hkey : key = name <;> simp [hm, hkey]
    · by_cases hkey : key = name
      · subst hkey
        simp [hm, Ne.symm hm]
      · simp [hm, hkey]

theorem member_eq_none_iff {members : JsonObject} {key : String} :
    member members key = none ↔ ¬ members.any (fun m => m.1 == key) = true := by
  unfold member
  rw [List.lookup_eq_none_iff, Bool.not_eq_true, List.any_eq_false]
  exact forall₂_congr fun m _ => by rw [bne_iff_ne, beq_iff_eq, ne_comm]

theorem member_setMember (members : JsonObject) (name : String) (value : Json) (key : String) :
    member (setMember members name value) key = if key = name then some value else member members key := by
  unfold setMember
  by_cases hany : members.any (fun m => m.1 == name) = true
  · rw [if_pos hany, member_replaced]
    by_cases hkey : key = name
    · obtain ⟨old, hold⟩ := Option.ne_none_iff_exists'.1 (mt member_eq_none_iff.1 (not_not_intro hany))
      rw [if_pos hkey, if_pos hkey, hkey, hold, Option.map_some]
    · rw [if_neg hkey, if_neg hkey]
  · have happend : member (members ++ [(name, value)]) key =
        (member members key).or (member [(name, value)] key) := List.lookup_append
    rw [if_neg hany, happend, member_cons]
    by_cases hkey : key = name
    · rw [if_pos hkey, if_pos hkey, hkey, member_eq_none_iff.2 hany, Option.none_or]
    · rw [if_neg hkey, if_neg hkey]
      exact Option.or_none

/-- What an overlay has under a name depends on what is there under that name. -/
theorem member_overlay_congr {a b : JsonObject} {key : String} (h : member a key = member b key)
    (others : JsonObject) : member (overlay a others) key = member (overlay b others) key := by
  unfold overlay
  induction others generalizing a b with
  | nil => exact h
  | cons m others ih =>
    rw [List.foldl_cons, List.foldl_cons]
    exact ih (by rw [member_setMember, member_setMember, h])

theorem member_filter {p : String → Bool} {key : String} (h : p key = true) (members : JsonObject) :
    member (members.filter fun m => p m.1) key = member members key := by
  induction members with
  | nil => rfl
  | cons m members ih =>
    rw [List.filter_cons, member_cons]
    by_cases hkey : key = m.1
    · rw [if_pos (hkey ▸ h), member_cons, if_pos hkey, if_pos hkey]
    · split_ifs
      · rw [member_cons, if_neg hkey, ih]
      · exact ih

/-- The string in an optional member, if it is one. -/
def asString : Option Json → Option String
  | some (.str s) => some s
  | _ => none

/-- The object in an optional member, if it is one. -/
def asObject : Option Json → Option JsonObject
  | some (.obj members) => some members
  | _ => none

/-- The array in an optional member, if it is one. -/
def asArray : Option Json → Option (List Json)
  | some (.arr items) => some items
  | _ => none

theorem asArray_eq_some {value : Option Json} {items : List Json} :
    asArray value = some items ↔ value = some (.arr items) := by
  constructor
  · intro h
    unfold asArray at h
    split at h
    · rw [Option.some.inj h]
    · cases h
  · rintro rfl
    rfl

/-- Whether JavaScript counts a value as true. -/
def isTruthy : Json → Bool
  | .null => false
  | .bool b => b
  | .num n => n != 0
  | .str s => s != ""
  | .frac _ | .arr _ | .obj _ => true

mutual

/-- `String(value)`. -/
def jsText : Json → String
  | .null => "null"
  | .bool b => if b then "true" else "false"
  | .num n => toString n
  | .frac text => text
  | .str s => s
  | .arr items => ",".intercalate (itemTexts items)
  | .obj _ => "[object Object]"

/-- In an array `null` is the empty text. -/
def itemTexts : List Json → List String
  | [] => []
  | .null :: items => "" :: itemTexts items
  | item :: items => jsText item :: itemTexts items

end

/-! ### Text -/

/-- One character inside a JSON string literal. -/
def escapeChar (c : Char) : List Char :=
  if c.toNat < 32 then
    if c.toNat = 8 then ['\\', 'b']
    else if c.toNat = 9 then ['\\', 't']
    else if c.toNat = 10 then ['\\', 'n']
    else if c.toNat = 12 then ['\\', 'f']
    else if c.toNat = 13 then ['\\', 'r']
    else ['\\', 'u', '0', '0', Hex.hexDigit (c.toNat / 16), Hex.hexDigit (c.toNat % 16)]
  else if c = '"' then ['\\', '"']
  else if c = '\\' then ['\\', '\\']
  else [c]

def quote (s : String) : List Char := '"' :: (s.toList.flatMap escapeChar ++ ['"'])

def joinComma : List (List Char) → List Char
  | [] => []
  | [t] => t
  | t :: ts => t ++ ',' :: joinComma ts

/-- Members by key, in the order of JavaScript's `<`. -/
def sortMembers (members : List (String × List Char)) : List (String × List Char) :=
  members.insertionSort fun a b => Text.jsLe a.1 b.1

mutual

/-- The characters of the text with the members of every object sorted by key and no spaces. -/
def canonical : Json → List Char
  | .null => "null".toList
  | .bool b => if b then "true".toList else "false".toList
  | .num n => (toString n).toList
  | .frac text => text.toList
  | .str s => quote s
  | .arr items => '[' :: (joinComma (canonicalItems items) ++ [']'])
  | .obj members =>
    '{' :: (joinComma ((sortMembers (canonicalMembers members)).map fun m => quote m.1 ++ ':' :: m.2)
      ++ ['}'])

def canonicalItems : List Json → List (List Char)
  | [] => []
  | item :: items => canonical item :: canonicalItems items

def canonicalMembers : List (String × Json) → List (String × List Char)
  | [] => []
  | (key, value) :: members => (key, canonical value) :: canonicalMembers members

end

example : canonical (.obj [("b", .num (-2)), ("a", .arr [.str "x\n", .null])]) =
    "\x7b\"a\":[\"x\\n\",null],\"b\":-2\x7d".toList := by decide

end Json

end RaibitServer.Lib
