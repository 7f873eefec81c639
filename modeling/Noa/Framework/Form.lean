import Noa.Framework.Utf8

/-! Forms as `application/x-www-form-urlencoded` texts. -/

namespace Noa.Framework.Form

/-- The bytes that stand for themselves. -/
def unreserved (b : UInt8) : Bool :=
  b = 0x2a || b = 0x2d || b = 0x2e || b = 0x5f || (0x30 ≤ b && b ≤ 0x39) || (0x41 ≤ b && b ≤ 0x5a) ||
    (0x61 ≤ b && b ≤ 0x7a)

def hexUpper (n : Nat) : Char := Char.ofNat (if n < 10 then 0x30 + n else 0x37 + n)

def encodeByte (b : UInt8) : Text :=
  if b = 0x20 then ['+']
  else if unreserved b then [Char.ofNat b.toNat]
  else ['%', hexUpper (b.toNat / 16), hexUpper (b.toNat % 16)]

def encode (bs : List UInt8) : Text := bs.flatMap encodeByte

def writePair (p : List UInt8 × List UInt8) : Text := encode p.1 ++ '=' :: encode p.2

def serialize (pairs : List (List UInt8 × List UInt8)) : Text :=
  List.intercalate ['&'] (pairs.map writePair)

/-- The bytes of a component. A `%` that no two digits follow stands for itself. -/
def decode : Text → List UInt8
  | [] => []
  | c :: s =>
    if c = '+' then 0x20 :: decode s
    else if c = '%' then
      match s with
      | a :: b :: rest =>
        match digitValue 16 a, digitValue 16 b with
        | some x, some y => UInt8.ofNat (16 * x + y) :: decode rest
        | _, _ => 0x25 :: decode (a :: b :: rest)
      | s => 0x25 :: decode s
    else String.utf8EncodeChar c ++ decode s
termination_by s => s.length

def readPair (s : Text) : List UInt8 × List UInt8 :=
  match splitOnce '=' s with
  | some (name, value) => (decode name, decode value)
  | none => (decode s, [])

def parse (s : Text) : List (List UInt8 × List UInt8) :=
  ((s.splitOn '&').filter (· ≠ [])).map readPair

section RoundTrip

/-- What a byte is written as can be read back, and holds no separator. -/
theorem unreserved_spec : ∀ b : UInt8, unreserved b = true →
    Char.ofNat b.toNat ≠ '+' ∧ Char.ofNat b.toNat ≠ '%' ∧ Char.ofNat b.toNat ≠ '&' ∧
      Char.ofNat b.toNat ≠ '=' ∧ String.utf8EncodeChar (Char.ofNat b.toNat) = [b] := by
  decide +kernel

theorem hexUpper_spec : ∀ n < 16,
    digitValue 16 (hexUpper n) = some n ∧ hexUpper n ≠ '&' ∧ hexUpper n ≠ '=' := by
  decide +kernel

theorem nibbles_lt (b : UInt8) : b.toNat / 16 < 16 ∧ b.toNat % 16 < 16 := by
  have := b.toNat_lt
  omega

theorem decode_encodeByte (b : UInt8) (s : Text) : decode (encodeByte b ++ s) = b :: decode s := by
  unfold encodeByte
  split_ifs with hspace hself
  · subst hspace
    rw [List.singleton_append, decode.eq_def]
    exact if_pos rfl
  · obtain ⟨hplus, hpercent, -, -, hutf8⟩ := unreserved_spec b hself
    rw [List.singleton_append, decode.eq_def]
    dsimp only
    rw [if_neg hplus, if_neg hpercent, hutf8, List.singleton_append]
  · obtain ⟨hhigh, hlow⟩ := nibbles_lt b
    simp only [List.cons_append, List.nil_append]
    rw [decode, if_neg (by decide), if_pos rfl]
    simp only [(hexUpper_spec _ hhigh).1, (hexUpper_spec _ hlow).1, Nat.div_add_mod,
      UInt8.ofNat_toNat]

theorem decode_encode (bs : List UInt8) : decode (encode bs) = bs := by
  induction bs with
  | nil =>
    rw [encode, List.flatMap_nil, decode]
  | cons b bs ih =>
    rw [encode, List.flatMap_cons, decode_encodeByte, ← encode, ih]

theorem separator_notMem_encode {c : Char} (hc : c = '&' ∨ c = '=') (bs : List UInt8) : c ∉ encode bs := by
  rw [encode, List.mem_flatMap]
  rintro ⟨b, -, hb⟩
  obtain ⟨hhigh, hlow⟩ := nibbles_lt b
  obtain ⟨-, hhigh⟩ := hexUpper_spec _ hhigh
  obtain ⟨-, hlow⟩ := hexUpper_spec _ hlow
  unfold encodeByte at hb
  split_ifs at hb with hspace hself
  · rw [List.mem_singleton] at hb
    subst hb
    rcases hc with hc | hc <;> exact absurd hc (by decide)
  · obtain ⟨-, -, hamp, heq, -⟩ := unreserved_spec b hself
    rw [List.mem_singleton] at hb
    subst hb
    exact hc.elim hamp heq
  · simp only [List.mem_cons, List.not_mem_nil, or_false] at hb
    rcases hb with rfl | rfl | rfl
    · rcases hc with hc | hc <;> exact absurd hc (by decide)
    · exact hc.elim hhigh.1 hhigh.2
    · exact hc.elim hlow.1 hlow.2

theorem readPair_writePair (p : List UInt8 × List UInt8) : readPair (writePair p) = p := by
  rw [readPair, writePair, splitOnce_append (separator_notMem_encode (.inr rfl) p.1)]
  simp only [decode_encode]

theorem separator_notMem_writePair (p : List UInt8 × List UInt8) : '&' ∉ writePair p := by
  rw [writePair, List.mem_append, List.mem_cons]
  rintro (h | h | h)
  · exact separator_notMem_encode (.inl rfl) p.1 h
  · exact absurd h (by decide)
  · exact separator_notMem_encode (.inl rfl) p.2 h

/-- A form is read as the pairs that were written, whatever their bytes are. -/
theorem parse_serialize (pairs : List (List UInt8 × List UInt8)) : parse (serialize pairs) = pairs := by
  cases pairs with
  | nil =>
    rw [serialize, List.map_nil, parse]
    rfl
  | cons p ps =>
    have hsplit : (serialize (p :: ps)).splitOn '&' = (p :: ps).map writePair := by
      refine List.splitOn_intercalate '&' (fun s hs => ?_) (by simp)
      obtain ⟨q, -, rfl⟩ := List.mem_map.mp hs
      exact separator_notMem_writePair q
    have hall : ∀ s ∈ (p :: ps).map writePair, decide (s ≠ []) = true := by
      intro s hs
      obtain ⟨q, -, rfl⟩ := List.mem_map.mp hs
      exact decide_eq_true (by simp [writePair])
    rw [parse, hsplit, List.filter_eq_self.mpr hall, List.map_map]
    exact List.map_id'' readPair_writePair _

end RoundTrip

end Noa.Framework.Form
