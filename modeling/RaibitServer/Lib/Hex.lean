import Mathlib.Data.UInt

/-!
# Lib.Hex — bytes as hexadecimal text

`encode` writes lower-case digits; `decode` reads digits of either case and fails on a text of odd
length or with another character.  Reading back what was written is the identity.
-/

namespace RaibitServer.Lib.Hex

def hexDigit (n : Nat) : Char := if n < 10 then Char.ofNat (48 + n) else Char.ofNat (87 + n)

def hexValue (c : Char) : Option Nat :=
  if '0' ≤ c ∧ c ≤ '9' then some (c.toNat - 48)
  else if 'a' ≤ c ∧ c ≤ 'f' then some (c.toNat - 87)
  else if 'A' ≤ c ∧ c ≤ 'F' then some (c.toNat - 55)
  else none

def encode (bytes : List UInt8) : List Char :=
  bytes.flatMap fun b => [hexDigit (b.toNat / 16), hexDigit (b.toNat % 16)]

def decode : List Char → Option (List UInt8)
  | [] => some []
  | [_] => none
  | high :: low :: rest => do
    let h ← hexValue high
    let l ← hexValue low
    let bytes ← decode rest
    return UInt8.ofNat (16 * h + l) :: bytes

theorem hexValue_hexDigit {n : Nat} (h : n < 16) : hexValue (hexDigit n) = some n := by
  revert n
  decide

theorem decode_encode (bytes : List UInt8) : decode (encode bytes) = some bytes := by
  induction bytes with
  | nil => rfl
  | cons b bytes ih =>
    have hb : b.toNat < 256 := b.toNat_lt
    have hhigh : hexValue (hexDigit (b.toNat / 16)) = some (b.toNat / 16) :=
      hexValue_hexDigit (by omega)
    have hlow : hexValue (hexDigit (b.toNat % 16)) = some (b.toNat % 16) :=
      hexValue_hexDigit (by omega)
    have hsplit : 16 * (b.toNat / 16) + b.toNat % 16 = b.toNat := by omega
    have hbyte : UInt8.ofNat (16 * (b.toNat / 16) + b.toNat % 16) = b := by
      rw [hsplit, UInt8.ofNat_toNat]
    have hcons : encode (b :: bytes) =
        hexDigit (b.toNat / 16) :: hexDigit (b.toNat % 16) :: encode bytes := rfl
    rw [hcons, decode, hhigh, hlow, ih]
    simp only [Option.bind_eq_bind, Option.bind_some, hbyte]
    rfl

theorem length_encode (bytes : List UInt8) : (encode bytes).length = 2 * bytes.length := by
  induction bytes with
  | nil => rfl
  | cons b bytes ih =>
    have hcons : (encode (b :: bytes)).length = (encode bytes).length + 2 := rfl
    rw [hcons, ih, List.length_cons]
    omega

/-- Two digits to a byte. -/
theorem encode_take (bytes : List UInt8) (n : Nat) :
    (encode bytes).take (2 * n) = encode (bytes.take n) := by
  induction bytes generalizing n with
  | nil => simp [encode]
  | cons b bytes ih =>
    cases n with
    | zero => rfl
    | succ n =>
      have hcons : encode (b :: bytes) =
          hexDigit (b.toNat / 16) :: hexDigit (b.toNat % 16) :: encode bytes := rfl
      have hcons' : encode (b :: bytes.take n) =
          hexDigit (b.toNat / 16) :: hexDigit (b.toNat % 16) :: encode (bytes.take n) := rfl
      rw [show 2 * (n + 1) = 2 * n + 1 + 1 by omega, hcons, List.take_succ_cons, List.take_succ_cons,
        ih, List.take_succ_cons, hcons']

theorem hexDigit_lowerAlnum {n : Nat} (h : n < 16) :
    (hexDigit n).isLower || (hexDigit n).isDigit := by
  revert n
  decide

theorem encode_lowerAlnum {bytes : List UInt8} {c : Char} (h : c ∈ encode bytes) :
    c.isLower || c.isDigit := by
  obtain ⟨b, -, hc⟩ := List.mem_flatMap.1 h
  have hb : b.toNat < 256 := b.toNat_lt
  rcases List.mem_cons.1 hc with rfl | hc
  · exact hexDigit_lowerAlnum (by omega)
  · obtain rfl := List.mem_singleton.1 hc
    exact hexDigit_lowerAlnum (by omega)

end RaibitServer.Lib.Hex
