import Mathlib.Data.List.Basic
import Mathlib.Tactic.Ring

namespace Noa.Framework

/-- The value of a little-endian byte string, low byte first. -/
def leValue : List UInt8 → Nat
  | [] => 0
  | b :: bs => b.toNat + 256 * leValue bs

/-- The low `k` bytes of a number, low byte first. -/
def leBytes : Nat → Nat → List UInt8
  | 0, _ => []
  | k + 1, n => UInt8.ofNat n :: leBytes k (n / 256)

@[simp] theorem leBytes_length (k n : Nat) : (leBytes k n).length = k := by
  induction k generalizing n with
  | zero => rfl
  | succ k ih => simp [leBytes, ih]

theorem leValue_leBytes (k n : Nat) : leValue (leBytes k n) = n % 256 ^ k := by
  induction k generalizing n with
  | zero => simp [leBytes, leValue, Nat.mod_one]
  | succ k ih =>
    have hsplit : n % 256 ^ (k + 1) = n % 256 + 256 * (n / 256 % 256 ^ k) := by
      rw [Nat.pow_succ', Nat.mod_mul]
    simp only [leBytes, leValue, ih, UInt8.toNat_ofNat', hsplit]

theorem leBytes_leValue (bs : List UInt8) : leBytes bs.length (leValue bs) = bs := by
  induction bs with
  | nil => rfl
  | cons b bs ih =>
    have hb := b.toNat_lt
    have hlow : UInt8.ofNat (b.toNat + 256 * leValue bs) = b := by
      apply UInt8.toNat_inj.mp
      rw [UInt8.toNat_ofNat']
      omega
    have hhigh : (b.toNat + 256 * leValue bs) / 256 = leValue bs := by omega
    rw [List.length_cons, leBytes, leValue, hlow, hhigh, ih]

theorem leValue_lt (bs : List UInt8) : leValue bs < 256 ^ bs.length := by
  induction bs with
  | nil => simp [leValue]
  | cons b bs ih =>
    have hb := b.toNat_lt
    rw [List.length_cons, leValue, Nat.pow_succ']
    omega

/-- `u32::from_le_bytes` on the bytes of a slice. -/
def u32FromLe (bs : List UInt8) : UInt32 := UInt32.ofNat (leValue bs)

/-- `u32::to_le_bytes`. -/
def u32ToLe (w : UInt32) : List UInt8 := leBytes 4 w.toNat

/-- `i32::from_le_bytes` reads the same four bytes in two's complement. -/
def i32FromLe (bs : List UInt8) : Int32 := (u32FromLe bs).toInt32

/-- `i32::to_le_bytes`. -/
def i32ToLe (i : Int32) : List UInt8 := u32ToLe i.toUInt32

@[simp] theorem u32ToLe_length (w : UInt32) : (u32ToLe w).length = 4 := leBytes_length 4 _

@[simp] theorem i32ToLe_length (i : Int32) : (i32ToLe i).length = 4 := leBytes_length 4 _

@[simp] theorem u32FromLe_u32ToLe (w : UInt32) : u32FromLe (u32ToLe w) = w := by
  have hw := w.toNat_lt
  apply UInt32.toNat_inj.mp
  simp only [u32FromLe, u32ToLe, leValue_leBytes, UInt32.toNat_ofNat']
  omega

theorem u32ToLe_u32FromLe {bs : List UInt8} (h : bs.length = 4) : u32ToLe (u32FromLe bs) = bs := by
  have hlt : leValue bs < 2 ^ 32 := by
    have hbound := leValue_lt bs
    rwa [h, show 256 ^ 4 = 2 ^ 32 from rfl] at hbound
  rw [u32ToLe, u32FromLe, UInt32.toNat_ofNat', Nat.mod_eq_of_lt hlt, ← h, leBytes_leValue]

theorem i32ToLe_i32FromLe {bs : List UInt8} (h : bs.length = 4) : i32ToLe (i32FromLe bs) = bs := by
  simp [i32ToLe, i32FromLe, u32ToLe_u32FromLe h]

@[simp] theorem i32FromLe_i32ToLe (i : Int32) : i32FromLe (i32ToLe i) = i := by
  simp [i32FromLe, i32ToLe]

end Noa.Framework
