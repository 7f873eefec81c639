import Mathlib

namespace Noa.Framework

/-- A text as the list of its characters. -/
abbrev Text := List Char

/-- The length in bytes, as UTF-8. -/
def utf8Len (s : Text) : Nat := (s.map Char.utf8Size).sum

/-- Cut at the first separator, if there is one. -/
def splitOnce (sep : Char) : Text → Option (Text × Text)
  | [] => none
  | c :: cs => if c = sep then some ([], cs) else (splitOnce sep cs).map fun r => (c :: r.1, r.2)

/-- The value of a digit in bases up to 36. -/
def digitValue (radix : Nat) (c : Char) : Option Nat :=
  let value :=
    if '0' ≤ c ∧ c ≤ '9' then some (c.toNat - 48)
    else if 'a' ≤ c ∧ c ≤ 'z' then some (c.toNat - 87)
    else if 'A' ≤ c ∧ c ≤ 'Z' then some (c.toNat - 55)
    else none
  value.filter (· < radix)

/-- Decimal digits with overflow checked at each of them. -/
def parseDigits (bound : Nat) (acc : Nat) : Text → Option Nat
  | [] => some acc
  | c :: cs =>
    match digitValue 10 c with
    | none => none
    | some d => if acc * 10 + d < bound then parseDigits bound (acc * 10 + d) cs else none

/-- `str::parse` of an unsigned integer below `bound`: an optional plus sign, then digits. -/
def parseUnsigned (bound : Nat) : Text → Option Nat
  | [] => none
  | ['+'] => none
  | '+' :: cs => parseDigits bound 0 cs
  | cs => parseDigits bound 0 cs

/-- A case mapping of characters, of which only what it does to two signs is assumed. -/
structure CaseMap where
  lower : Char → Text
  lower_star : lower '*' = ['*']
  lower_dot : lower '.' = ['.']

def asciiLower (c : Char) : Char := if 'A' ≤ c ∧ c ≤ 'Z' then Char.ofNat (c.toNat + 32) else c

/-- The mapping that leaves everything but ASCII alone. -/
def CaseMap.ascii : CaseMap := ⟨fun c => [asciiLower c], by decide, by decide⟩

/-- A text mapped character by character. -/
def CaseMap.fold (m : CaseMap) (s : Text) : Text := s.flatMap m.lower

theorem CaseMap.fold_star_dot (m : CaseMap) (s : Text) :
    m.fold ('*' :: '.' :: s) = '*' :: '.' :: m.fold s := by
  simp [fold, m.lower_star, m.lower_dot]

theorem utf8Size_asciiLower (c : Char) : (asciiLower c).utf8Size = c.utf8Size := by
  unfold asciiLower
  split_ifs with h
  · have hc : c.toNat ≤ 90 := h.2
    have hvalid : (c.toNat + 32).isValidChar := Or.inl (by omega)
    have hlow : (Char.ofNat (c.toNat + 32)).toNat = c.toNat + 32 := by
      rw [Char.toNat_ofNat, if_pos hvalid]
    have hone (x : Char) (hx : x.toNat ≤ 127) : x.utf8Size = 1 := Char.utf8Size_eq_one_iff.mpr hx
    rw [hone c (by omega), hone _ (by omega)]
  · rfl

theorem utf8Len_map_asciiLower (s : Text) : utf8Len (s.map asciiLower) = utf8Len s := by
  unfold utf8Len
  rw [List.map_map]
  congr 1
  exact List.map_congr_left fun c _ => utf8Size_asciiLower c

theorem utf8Len_append (s t : Text) : utf8Len (s ++ t) = utf8Len s + utf8Len t := by
  simp [utf8Len]

theorem splitOnce_eq_none {sep : Char} {s : Text} : splitOnce sep s = none ↔ sep ∉ s := by
  induction s with
  | nil => simp [splitOnce]
  | cons c s ih =>
    rw [splitOnce]
    by_cases hc : c = sep
    · simp [hc]
    · simp [hc, Ne.symm hc, ih]

theorem splitOnce_append {sep : Char} {a : Text} (ha : sep ∉ a) (b : Text) :
    splitOnce sep (a ++ sep :: b) = some (a, b) := by
  induction a with
  | nil => simp [splitOnce]
  | cons c a ih =>
    have hc : c ≠ sep := fun h => ha (h ▸ List.mem_cons_self)
    have ha' : sep ∉ a := fun h => ha (List.mem_cons_of_mem c h)
    rw [List.cons_append, splitOnce, if_neg hc, ih ha']
    rfl

theorem splitOnce_eq_some {sep : Char} {s a b : Text} (h : splitOnce sep s = some (a, b)) :
    sep ∉ a ∧ s = a ++ sep :: b := by
  induction s generalizing a with
  | nil => cases h
  | cons c s ih =>
    rw [splitOnce] at h
    split_ifs at h with hc
    · cases h
      simp [hc]
    · obtain ⟨⟨a', b'⟩, h', heq⟩ := Option.map_eq_some_iff.mp h
      cases heq
      obtain ⟨hnot, hs⟩ := ih h'
      refine ⟨by simp [Ne.symm hc, hnot], ?_⟩
      rw [hs]
      rfl

theorem isDigit_iff (c : Char) : c.isDigit = true ↔ '0' ≤ c ∧ c ≤ '9' := by
  simp [Char.isDigit, Char.le_def]

theorem digitValue_ten (c : Char) :
    digitValue 10 c = if c.isDigit then some (c.toNat - 48) else none := by
  by_cases h : '0' ≤ c ∧ c ≤ '9'
  · have hle : c.toNat ≤ 57 := h.2
    have hlt : c.toNat - 48 < 10 := by omega
    simp [digitValue, h, (isDigit_iff c).mpr h, hlt]
  · have hnot : ¬ c.isDigit = true := mt (isDigit_iff c).mp h
    rw [if_neg hnot]
    simp only [digitValue, if_neg h]
    by_cases hlow : 'a' ≤ c ∧ c ≤ 'z'
    · have hge : 97 ≤ c.toNat := hlow.1
      have hten : 10 ≤ c.toNat - 87 := by omega
      simp [hlow, hten]
    · by_cases hup : 'A' ≤ c ∧ c ≤ 'Z'
      · have hge : 65 ≤ c.toNat := hup.1
        have hten : 10 ≤ c.toNat - 55 := by omega
        simp [hlow, hup, hten]
      · simp [hlow, hup]

/-- The value of a numeral that is read on from `acc`. -/
def decimalFrom (acc : Nat) (s : Text) : Nat := s.foldl (fun acc c => acc * 10 + (c.toNat - 48)) acc

theorem le_decimalFrom (acc : Nat) (s : Text) : acc ≤ decimalFrom acc s := by
  induction s generalizing acc with
  | nil => exact le_rfl
  | cons c s ih =>
    have h := ih (acc * 10 + (c.toNat - 48))
    exact le_trans (by omega) h

theorem parseDigits_eq_some {bound acc v : Nat} {s : Text} (hacc : acc < bound) :
    parseDigits bound acc s = some v ↔
      (∀ c ∈ s, c.isDigit = true) ∧ v = decimalFrom acc s ∧ v < bound := by
  induction s generalizing acc with
  | nil =>
    simp only [parseDigits, decimalFrom, List.foldl_nil, Option.some.injEq]
    constructor
    · rintro rfl
      exact ⟨by simp, rfl, hacc⟩
    · exact fun h => h.2.1.symm
  | cons c s ih =>
    have hle := le_decimalFrom (acc * 10 + (c.toNat - 48)) s
    have hfrom : decimalFrom acc (c :: s) = decimalFrom (acc * 10 + (c.toNat - 48)) s := rfl
    rw [parseDigits, digitValue_ten, hfrom]
    by_cases hc : c.isDigit = true
    · rw [if_pos hc]
      dsimp only
      by_cases hlt : acc * 10 + (c.toNat - 48) < bound
      · rw [if_pos hlt, ih hlt]
        simp [hc]
      · rw [if_neg hlt]
        simp only [reduceCtorEq, false_iff]
        rintro ⟨-, rfl, hv⟩
        omega
    · rw [if_neg hc]
      simp [hc]

/-- A numeral as it is to be written: digits, and no zero before other digits. -/
def IsDecimal (s : Text) : Prop :=
  s ≠ [] ∧ (∀ c ∈ s, c.isDigit = true) ∧ (s.head? = some '0' → s.length = 1)

instance (s : Text) : Decidable (IsDecimal s) :=
  decidable_of_iff
    (s ≠ [] ∧ s.all Char.isDigit = true ∧ (s.head? = some '0' → s.length = 1))
    (by rw [List.all_eq_true, IsDecimal])

theorem except_bind_eq_ok {ε α β : Type} {x : Except ε α} {f : α → Except ε β} {b : β} :
    (x >>= f) = .ok b ↔ ∃ a, x = .ok a ∧ f a = .ok b := by
  cases x <;> simp [bind, Except.bind]

end Noa.Framework
