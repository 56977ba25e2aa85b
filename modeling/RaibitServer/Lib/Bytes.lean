import Mathlib.Algebra.Order.Ring.Nat
import Mathlib.Data.List.Induction

/-!
# Lib.Bytes — fixed-width numbers and reads of a byte stream

`bigEndian w n` writes a number in `w` bytes, most significant first, and `ofBigEndian` reads one back;
they are inverse within `256 ^ w`.  `readFull` takes bytes off the front of a stream or fails.
-/

namespace RaibitServer.Lib.Bytes

def bigEndian : Nat → Nat → List UInt8
  | 0, _ => []
  | w + 1, n => bigEndian w (n / 256) ++ [UInt8.ofNat n]

def ofBigEndian (l : List UInt8) : Nat := l.foldl (fun n b => n * 256 + b.toNat) 0

@[simp] theorem length_bigEndian (w n : Nat) : (bigEndian w n).length = w := by
  induction w generalizing n with
  | zero => rfl
  | succ w ih => rw [bigEndian, List.length_append, ih, List.length_singleton]

theorem ofBigEndian_concat (l : List UInt8) (b : UInt8) :
    ofBigEndian (l ++ [b]) = ofBigEndian l * 256 + b.toNat := by
  unfold ofBigEndian
  rw [List.foldl_append]
  rfl

theorem ofBigEndian_lt (l : List UInt8) : ofBigEndian l < 256 ^ l.length := by
  induction l using List.reverseRecOn with
  | nil => exact Nat.one_pos
  | append_singleton l b ih =>
    have hb : b.toNat < 256 := b.toNat_lt
    rw [ofBigEndian_concat, List.length_append, List.length_singleton, Nat.pow_succ]
    omega

theorem ofBigEndian_bigEndian {w n : Nat} (h : n < 256 ^ w) : ofBigEndian (bigEndian w n) = n := by
  induction w generalizing n with
  | zero =>
    have hzero : n = 0 := by omega
    rw [hzero]
    rfl
  | succ w ih =>
    have hhigh : n / 256 < 256 ^ w := Nat.div_lt_of_lt_mul (by rwa [Nat.mul_comm, ← Nat.pow_succ])
    have hlow : (UInt8.ofNat n).toNat = n % 256 := rfl
    rw [bigEndian, ofBigEndian_concat, ih hhigh, hlow]
    omega

theorem bigEndian_ofBigEndian (l : List UInt8) : bigEndian l.length (ofBigEndian l) = l := by
  induction l using List.reverseRecOn with
  | nil => rfl
  | append_singleton l b ih =>
    have hb : b.toNat < 256 := b.toNat_lt
    have hhigh : (ofBigEndian l * 256 + b.toNat) / 256 = ofBigEndian l := by omega
    have hlow : UInt8.ofNat (ofBigEndian l * 256 + b.toNat) = b := by
      apply UInt8.toNat_inj.1
      show (ofBigEndian l * 256 + b.toNat) % 256 = b.toNat
      omega
    rw [List.length_append, List.length_singleton, bigEndian, ofBigEndian_concat, hhigh, ih, hlow]

/-- `io.ReadFull`: the next `n` bytes and what is left. -/
def readFull (n : Nat) (stream : List UInt8) : Option (List UInt8 × List UInt8) :=
  if n ≤ stream.length then some (stream.take n, stream.drop n) else none

theorem readFull_eq_some {n : Nat} {stream front rest : List UInt8} :
    readFull n stream = some (front, rest) ↔ front.length = n ∧ stream = front ++ rest := by
  unfold readFull
  constructor
  · intro h
    split_ifs at h with hn
    obtain ⟨rfl, rfl⟩ := Prod.mk.inj (Option.some.inj h)
    exact ⟨List.length_take_of_le hn, (List.take_append_drop n stream).symm⟩
  · rintro ⟨rfl, rfl⟩
    have hn : front.length ≤ (front ++ rest).length := by simp
    rw [if_pos hn, List.take_left, List.drop_left]

end RaibitServer.Lib.Bytes
