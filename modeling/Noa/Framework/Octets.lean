import Mathlib

namespace Noa.Framework

/-- The bytes of a word, the highest first. -/
def octets (n : Nat) (x : BitVec (8 * n)) : List (BitVec 8) :=
  (List.range n).map fun i => x.extractLsb' (8 * (n - 1 - i)) 8

/-- The word of some bytes, the highest first. -/
def ofOctets (n : Nat) (l : List (BitVec 8)) : BitVec (8 * n) :=
  l.foldl (fun acc b => acc <<< 8 ||| b.setWidth (8 * n)) 0

section Octets

variable {n : Nat}

@[simp] theorem length_octets (x : BitVec (8 * n)) : (octets n x).length = n := by simp [octets]

/-- Bit `i` of a word is bit `i % 8` of byte `i / 8`, both counted from the front. -/
theorem getMsbD_octets (x : BitVec (8 * n)) {i : Nat} (hi : i < 8 * n) :
    ((octets n x).getD (i / 8) 0).getMsbD (i % 8) = x.getMsbD i := by
  have hdiv : i / 8 < n := by omega
  have hpos : 8 * (n - 1 - i / 8) + (8 - 1 - i % 8) = 8 * n - 1 - i := by omega
  have hmod : 8 - 1 - i % 8 < 8 := by omega
  have hbyte : (octets n x).getD (i / 8) 0 = x.extractLsb' (8 * (n - 1 - i / 8)) 8 := by
    simp [octets, List.getD, hdiv]
  rw [hbyte, BitVec.getMsbD, BitVec.getLsbD_extractLsb', hpos, BitVec.getMsbD]
  simp [hi, hmod, Nat.mod_lt]

theorem getMsbD_octet (x : BitVec (8 * n)) {j r : Nat} (hj : j < n) (hr : r < 8) :
    ((octets n x).getD j 0).getMsbD r = x.getMsbD (8 * j + r) := by
  have h := getMsbD_octets x (i := 8 * j + r) (by omega)
  have hdiv : (8 * j + r) / 8 = j := by omega
  have hmod : (8 * j + r) % 8 = r := by omega
  rwa [hdiv, hmod] at h

theorem getLsbD_ofOctets (l : List (BitVec 8)) {i : Nat} (hi : i < 8 * n) :
    (ofOctets n l).getLsbD i = (l.reverse.getD (i / 8) 0).getLsbD (i % 8) := by
  -- on the last byte, which is the one the shift makes room for
  induction l using List.reverseRecOn generalizing i with
  | nil => simp [ofOctets]
  | append_singleton l b ih =>
    have hstep : ofOctets n (l ++ [b]) = ofOctets n l <<< 8 ||| b.setWidth (8 * n) := by
      simp [ofOctets]
    rw [hstep, BitVec.getLsbD_or, BitVec.getLsbD_shiftLeft, BitVec.getLsbD_setWidth,
      List.reverse_append, List.reverse_singleton, List.singleton_append]
    by_cases hlow : i < 8
    · have hdiv : i / 8 = 0 := by omega
      have hmod : i % 8 = i := by omega
      simp [hi, hlow, hdiv, hmod]
    · have hdiv : i / 8 = (i - 8) / 8 + 1 := by omega
      have hmod : i % 8 = (i - 8) % 8 := by omega
      have hzero : b.getLsbD i = false := BitVec.getLsbD_of_ge b i (by omega)
      rw [hdiv, hmod, List.getD_cons_succ, ← ih (by omega)]
      simp [hi, hlow, hzero]

theorem getMsbD_ofOctets {l : List (BitVec 8)} (hl : l.length = n) {i : Nat} (hi : i < 8 * n) :
    (ofOctets n l).getMsbD i = (l.getD (i / 8) 0).getMsbD (i % 8) := by
  have hrev : l.reverse.getD ((8 * n - 1 - i) / 8) 0 = l.getD (i / 8) 0 := by
    rw [List.getD_reverse _ (by omega)]
    congr 1
    omega
  have hmod : (8 * n - 1 - i) % 8 = 8 - 1 - i % 8 := by omega
  rw [BitVec.getMsbD, getLsbD_ofOctets l (by omega), hrev, hmod, BitVec.getMsbD]
  simp [hi, Nat.mod_lt]

end Octets

end Noa.Framework
