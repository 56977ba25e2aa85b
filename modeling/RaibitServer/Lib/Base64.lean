import Mathlib.Data.UInt

/-!
# Lib.Base64 — bytes as base64 text

The standard alphabet with padding.  `encode` writes four characters for three bytes; `decode` is the
strict reader: it passes over line ends, wants the padding and refuses a last group whose unused bits
are not zero.  Reading back what was written is the identity, so `encode` is injective.
-/

namespace RaibitServer.Lib.Base64

/-- The alphabet. -/
def digit (n : Nat) : Char :=
  if n < 26 then Char.ofNat (65 + n)
  else if n < 52 then Char.ofNat (71 + n)
  else if n < 62 then Char.ofNat (n - 4)
  else if n = 62 then '+'
  else '/'

def value (c : Char) : Option Nat :=
  if c.isUpper then some (c.toNat - 65)
  else if c.isLower then some (c.toNat - 71)
  else if c.isDigit then some (c.toNat + 4)
  else if c = '+' then some 62
  else if c = '/' then some 63
  else none

def encode : List UInt8 → List Char
  | [] => []
  | [x] => [digit (x.toNat / 4), digit (x.toNat % 4 * 16), '=', '=']
  | [x, y] =>
    [digit (x.toNat / 4), digit (x.toNat % 4 * 16 + y.toNat / 16), digit (y.toNat % 16 * 4), '=']
  | x :: y :: z :: rest =>
    digit (x.toNat / 4) :: digit (x.toNat % 4 * 16 + y.toNat / 16) ::
      digit (y.toNat % 16 * 4 + z.toNat / 64) :: digit (z.toNat % 64) :: encode rest

/-- The groups of a text without line ends. -/
def decodeGroups : List Char → Option (List UInt8)
  | [] => some []
  | [a, b, '=', '='] => do
    let a ← value a
    let b ← value b
    if b % 16 = 0 then some [UInt8.ofNat (a * 4 + b / 16)] else none
  | [a, b, c, '='] => do
    let a ← value a
    let b ← value b
    let c ← value c
    if c % 4 = 0 then some [UInt8.ofNat (a * 4 + b / 16), UInt8.ofNat (b % 16 * 16 + c / 4)] else none
  | a :: b :: c :: d :: rest => do
    let a ← value a
    let b ← value b
    let c ← value c
    let d ← value d
    let bytes ← decodeGroups rest
    return UInt8.ofNat (a * 4 + b / 16) :: UInt8.ofNat (b % 16 * 16 + c / 4) ::
      UInt8.ofNat (c % 4 * 64 + d) :: bytes
  | _ => none

def isLineEnd (c : Char) : Bool := c = '\r' || c = '\n'

def decode (text : List Char) : Option (List UInt8) := decodeGroups (text.filter fun c => !isLineEnd c)

theorem value_digit {n : Nat} (h : n < 64) : value (digit n) = some n := by
  revert n
  decide

theorem digit_ne_pad {n : Nat} (h : n < 64) : digit n ≠ '=' := by
  revert n
  decide

/-- The alphabet and the padding. -/
def isBase64 (c : Char) : Bool := c.isAlphanum || c = '+' || c = '/' || c = '='

theorem isBase64_digit {n : Nat} (h : n < 64) : isBase64 (digit n) := by
  revert n
  decide

theorem isBase64_of_mem_encode {bytes : List UInt8} {c : Char} (h : c ∈ encode bytes) : isBase64 c := by
  have hpad : isBase64 '=' := by decide
  induction bytes using encode.induct with
  | case1 => simp [encode] at h
  | case2 x =>
    have hx : x.toNat < 256 := x.toNat_lt
    simp only [encode, List.mem_cons, List.not_mem_nil, or_false] at h
    rcases h with rfl | rfl | rfl | rfl
    · exact isBase64_digit (by omega)
    · exact isBase64_digit (by omega)
    · exact hpad
    · exact hpad
  | case3 x y =>
    have hx : x.toNat < 256 := x.toNat_lt
    have hy : y.toNat < 256 := y.toNat_lt
    simp only [encode, List.mem_cons, List.not_mem_nil, or_false] at h
    rcases h with rfl | rfl | rfl | rfl
    · exact isBase64_digit (by omega)
    · exact isBase64_digit (by omega)
    · exact isBase64_digit (by omega)
    · exact hpad
  | case4 x y z rest ih =>
    have hx : x.toNat < 256 := x.toNat_lt
    have hy : y.toNat < 256 := y.toNat_lt
    have hz : z.toNat < 256 := z.toNat_lt
    simp only [encode, List.mem_cons] at h
    rcases h with rfl | rfl | rfl | rfl | h
    · exact isBase64_digit (by omega)
    · exact isBase64_digit (by omega)
    · exact isBase64_digit (by omega)
    · exact isBase64_digit (by omega)
    · exact ih h

theorem length_encode (bytes : List UInt8) : (encode bytes).length = 4 * ((bytes.length + 2) / 3) := by
  induction bytes using encode.induct with
  | case1 => rfl
  | case2 x => simp [encode]
  | case3 x y => simp [encode]
  | case4 x y z rest ih =>
    simp only [encode, List.length_cons, ih]
    omega

theorem encode_eq_nil {bytes : List UInt8} : encode bytes = [] ↔ bytes = [] := by
  rw [← List.length_eq_zero_iff, ← List.length_eq_zero_iff, length_encode]
  omega

/-! ### Reading back -/

theorem decodeGroups_cons {a b c d : Char} {rest : List Char} (hd : d ≠ '=') :
    decodeGroups (a :: b :: c :: d :: rest) = (do
      let a ← value a
      let b ← value b
      let c ← value c
      let d ← value d
      let bytes ← decodeGroups rest
      return UInt8.ofNat (a * 4 + b / 16) :: UInt8.ofNat (b % 16 * 16 + c / 4) ::
        UInt8.ofNat (c % 4 * 64 + d) :: bytes) := by
  rw [decodeGroups]
  · intro _ h _
    exact hd h
  · intro h _
    exact hd h

theorem ofNat_of_eq {n : Nat} {x : UInt8} (h : n = x.toNat) : UInt8.ofNat n = x := by
  rw [h, UInt8.ofNat_toNat]

theorem decodeGroups_encode (bytes : List UInt8) : decodeGroups (encode bytes) = some bytes := by
  induction bytes using encode.induct with
  | case1 => rfl
  | case2 x =>
    have hx : x.toNat < 256 := x.toNat_lt
    have hbyte : UInt8.ofNat (x.toNat / 4 * 4 + x.toNat % 4 * 16 / 16) = x := ofNat_of_eq (by omega)
    have hzero : x.toNat % 4 * 16 % 16 = 0 := by omega
    simp only [encode, decodeGroups, value_digit (show x.toNat / 4 < 64 by omega),
      value_digit (show x.toNat % 4 * 16 < 64 by omega), Option.bind_eq_bind, Option.bind_some, hzero,
      if_true, hbyte]
  | case3 x y =>
    have hx : x.toNat < 256 := x.toNat_lt
    have hy : y.toNat < 256 := y.toNat_lt
    have hbyte : UInt8.ofNat (x.toNat / 4 * 4 + (x.toNat % 4 * 16 + y.toNat / 16) / 16) = x :=
      ofNat_of_eq (by omega)
    have hbyte' :
        UInt8.ofNat ((x.toNat % 4 * 16 + y.toNat / 16) % 16 * 16 + y.toNat % 16 * 4 / 4) = y :=
      ofNat_of_eq (by omega)
    have hzero : y.toNat % 16 * 4 % 4 = 0 := by omega
    have hc : digit (y.toNat % 16 * 4) ≠ '=' := digit_ne_pad (by omega)
    rw [encode, decodeGroups]
    · simp only [value_digit (show x.toNat / 4 < 64 by omega),
        value_digit (show x.toNat % 4 * 16 + y.toNat / 16 < 64 by omega),
        value_digit (show y.toNat % 16 * 4 < 64 by omega), Option.bind_eq_bind, Option.bind_some, hzero,
        if_true, hbyte, hbyte']
    · exact hc
  | case4 x y z rest ih =>
    have hx : x.toNat < 256 := x.toNat_lt
    have hy : y.toNat < 256 := y.toNat_lt
    have hz : z.toNat < 256 := z.toNat_lt
    have hbyte : UInt8.ofNat (x.toNat / 4 * 4 + (x.toNat % 4 * 16 + y.toNat / 16) / 16) = x :=
      ofNat_of_eq (by omega)
    have hbyte' : UInt8.ofNat ((x.toNat % 4 * 16 + y.toNat / 16) % 16 * 16 +
        (y.toNat % 16 * 4 + z.toNat / 64) / 4) = y := ofNat_of_eq (by omega)
    have hbyte'' : UInt8.ofNat ((y.toNat % 16 * 4 + z.toNat / 64) % 4 * 64 + z.toNat % 64) = z :=
      ofNat_of_eq (by omega)
    rw [encode, decodeGroups_cons (digit_ne_pad (by omega)), ih]
    simp only [value_digit (show x.toNat / 4 < 64 by omega),
      value_digit (show x.toNat % 4 * 16 + y.toNat / 16 < 64 by omega),
      value_digit (show y.toNat % 16 * 4 + z.toNat / 64 < 64 by omega),
      value_digit (show z.toNat % 64 < 64 by omega), Option.bind_eq_bind, Option.bind_some, hbyte, hbyte',
      hbyte'']
    rfl

theorem decode_encode (bytes : List UInt8) : decode (encode bytes) = some bytes := by
  have hkeep : (encode bytes).filter (fun c => !isLineEnd c) = encode bytes := by
    rw [List.filter_eq_self]
    intro c hc
    have hb := isBase64_of_mem_encode hc
    by_cases hr : c = '\r'
    · subst hr
      exact absurd hb (by decide)
    · by_cases hn : c = '\n'
      · subst hn
        exact absurd hb (by decide)
      · simp [isLineEnd, hr, hn]
  rw [decode, hkeep, decodeGroups_encode]

theorem encode_injective {a b : List UInt8} (h : encode a = encode b) : a = b := by
  have hdecode := congrArg decode h
  rw [decode_encode, decode_encode] at hdecode
  exact Option.some.inj hdecode

end RaibitServer.Lib.Base64
