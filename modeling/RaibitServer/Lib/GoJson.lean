import RaibitServer.Lib.Json

/-!
# Lib.GoJson — JSON decoded into Go values

`encoding/json` decodes a value into a variable that already holds one: `null` and what a document
does not mention leave a string, a number or a struct as it is.  A value whose JSON type does not fit
the Go type is an error of the whole document.  The members of an object find their struct field by
name without regard to case; the others are skipped, or refused by a strict decoder.
-/

namespace RaibitServer.Lib.GoJson

/-- How a value is decoded into a variable of type `α`; `none` is an error. -/
abbrev Decoder (α : Type) := α → Json → Option α

def string : Decoder String
  | a, .null => some a
  | _, .str s => some s
  | _, _ => none

def bool : Decoder Bool
  | a, .null => some a
  | _, .bool b => some b
  | _, _ => none

/-- A Go `int`, of 64 bits. -/
def int : Decoder Int
  | a, .null => some a
  | _, .num n => if -(2 ^ 63) ≤ n ∧ n < 2 ^ 63 then some n else none
  | _, _ => none

def pointer {α : Type} (zero : α) (decode : Decoder α) : Decoder (Option α)
  | _, .null => some none
  | a, value => (decode (a.getD zero) value).map some

def slice {α : Type} (zero : α) (decode : Decoder α) : Decoder (List α)
  | _, .null => some []
  | _, .arr items => items.mapM (decode zero)
  | _, _ => none

/-- A `map[string]string`, latest entry first. -/
abbrev StringMap := List (String × String)

/-- A missing key reads as the empty string. -/
def StringMap.get (entries : StringMap) (key : String) : String := (entries.lookup key).getD ""

def stringMap : Decoder StringMap
  | _, .null => some []
  | entries, .obj members =>
    members.foldlM (fun entries m => (string "" m.2).map fun s => (m.1, s) :: entries) entries
  | _, _ => none

/-! ### Structs -/

structure Field (α : Type) where
  name : String
  decode : Decoder α

def field {α β : Type} (name : String) (get : α → β) (set : α → β → α) (decode : Decoder β) :
    Field α :=
  ⟨name, fun a value => (decode (get a) value).map (set a)⟩

/-- The letter that names are compared by: besides the other case, the long s and the Kelvin sign
count as ASCII letters. -/
def foldChar (c : Char) : Char :=
  if c.toNat = 0x17F then 's' else if c.toNat = 0x212A then 'k' else c.toLower

def foldName (name : String) : List Char := name.toList.map foldChar

def findField {α : Type} (fields : List (Field α)) (key : String) : Option (Field α) :=
  fields.find? fun f => foldName f.name = foldName key

/-- The members of an object one after the other, as `unknown` says for those without a field. -/
def members {α : Type} (fields : List (Field α)) (unknown : Decoder α) (a : α) :
    JsonObject → Option α
  | [] => some a
  | (key, value) :: rest =>
    ((match findField fields key with
      | some f => f.decode a value
      | none => unknown a value).bind fun a => members fields unknown a rest)

def structOf {α : Type} (fields : List (Field α)) (unknown : Decoder α) : Decoder α
  | a, .null => some a
  | a, .obj rows => members fields unknown a rows
  | _, _ => none

def struct {α : Type} (fields : List (Field α)) : Decoder α := structOf fields fun a _ => some a

/-- With `DisallowUnknownFields`. -/
def strictStruct {α : Type} (fields : List (Field α)) : Decoder α := structOf fields fun _ _ => none

end RaibitServer.Lib.GoJson
