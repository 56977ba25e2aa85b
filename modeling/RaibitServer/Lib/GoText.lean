import RaibitServer.Lib.Hex
import RaibitServer.Lib.Text

/-!
# Lib.GoText — functions of Go's `strings`, `strconv`, `unicode` and `net/url`
-/

namespace RaibitServer.Lib.GoText

/-- `strings.Split` at one character. -/
def split (s : String) (sep : Char) : List String := (s.toList.splitOn sep).map String.ofList

/-- `strings.Fields`. -/
def fields (s : String) : List String :=
  ((s.toList.splitOnP Text.isGoSpace).filter fun f => f ≠ []).map String.ofList

/-- `unicode.IsControl`. -/
def isControl (c : Char) : Bool := c.toNat < 0x20 || (decide (0x7F ≤ c.toNat) && decide (c.toNat ≤ 0x9F))

def containsControl (s : String) : Bool := s.toList.any isControl

def containsAny (s : String) (chars : List Char) : Bool := s.toList.any chars.contains

/-- `strings.TrimPrefix`. -/
def trimPrefix (s pre : String) : String :=
  if Text.startsWith s pre then String.ofList (s.toList.drop pre.toList.length) else s

/-- `strconv.Atoi`. -/
def atoi (s : String) : Option Int :=
  let (sign, digits) : Int × List Char := match s.toList with
    | '+' :: digits => (1, digits)
    | '-' :: digits => (-1, digits)
    | digits => (1, digits)
  let n := sign * (Text.decimal (String.ofList digits) : Int)
  if digits ≠ [] ∧ digits.all Char.isDigit ∧ -(2 ^ 63) ≤ n ∧ n < 2 ^ 63 then some n else none

/-- `strconv.Quote`, for a text whose characters outside ASCII are printable. -/
def quoteChar (c : Char) : List Char :=
  if c = '"' then ['\\', '"']
  else if c = '\\' then ['\\', '\\']
  else if c = '\n' then ['\\', 'n']
  else if c = '\r' then ['\\', 'r']
  else if c = '\t' then ['\\', 't']
  else if c.toNat = 7 then ['\\', 'a']
  else if c.toNat = 8 then ['\\', 'b']
  else if c.toNat = 11 then ['\\', 'v']
  else if c.toNat = 12 then ['\\', 'f']
  else if c.toNat < 0x20 || c.toNat = 0x7F then
    ['\\', 'x', Hex.hexDigit (c.toNat / 16), Hex.hexDigit (c.toNat % 16)]
  else [c]

def quote (s : String) : String := String.ofList ('"' :: (s.toList.flatMap quoteChar ++ ['"']))

/-- The bytes of a path with its escapes read; `none` for a bad escape. -/
def unescapeBytes : List UInt8 → Option (List UInt8)
  | [] => some []
  | [b] => if b = 37 then none else some [b]
  | [b, c] => if b = 37 || c = 37 then none else some [b, c]
  | b :: high :: low :: rest =>
    if b = 37 then do
      let h ← Hex.hexValue (Char.ofNat high.toNat)
      let l ← Hex.hexValue (Char.ofNat low.toNat)
      let bytes ← unescapeBytes rest
      return UInt8.ofNat (16 * h + l) :: bytes
    else (unescapeBytes (high :: low :: rest)).map (b :: ·)

/-- `url.PathUnescape` to a valid UTF-8 text. -/
def pathUnescape (s : String) : Option String :=
  (unescapeBytes s.toUTF8.toList).bind fun bytes => String.fromUTF8? ⟨bytes.toArray⟩

end RaibitServer.Lib.GoText
