import Noa.Framework.Stop

namespace Noa.Framework

/-- The bytes of a text. -/
def utf8 (s : Text) : List UInt8 := s.flatMap String.utf8EncodeChar

@[simp] theorem utf8_nil : utf8 [] = [] := rfl

theorem utf8_cons (c : Char) (s : Text) : utf8 (c :: s) = String.utf8EncodeChar c ++ utf8 s :=
  List.flatMap_cons

theorem utf8_append (s t : Text) : utf8 (s ++ t) = utf8 s ++ utf8 t := List.flatMap_append

theorem utf8_inj {s t : Text} : utf8 s = utf8 t ↔ s = t := by
  refine ⟨fun h => ?_, congrArg utf8⟩
  have hbytes : s.utf8Encode = t.utf8Encode := congrArg List.toByteArray h
  rw [← String.toByteArray_ofList, ← String.toByteArray_ofList, String.toByteArray_inj] at hbytes
  exact String.ofList_injective hbytes

theorem utf8_eq_nil {s : Text} : utf8 s = [] ↔ s = [] := utf8_inj (t := [])

theorem utf8_length (s : Text) : (utf8 s).length = utf8Len s := by
  induction s with
  | nil => rfl
  | cons c s ih =>
    rw [utf8_cons, List.length_append, ih, String.length_utf8EncodeChar]
    simp [utf8Len]

/-- `str::from_utf8`. -/
def decodeUtf8 (bs : List UInt8) : Option Text :=
  (String.fromUTF8? bs.toByteArray).map String.toList

theorem decodeUtf8_eq_some {bs : List UInt8} {t : Text} : decodeUtf8 bs = some t ↔ utf8 t = bs := by
  unfold decodeUtf8 String.fromUTF8?
  constructor
  · intro h
    by_cases hvalid : bs.toByteArray.IsValidUTF8
    · rw [dif_pos hvalid] at h
      obtain rfl := Option.some.inj h
      have hbytes := String.utf8Encode_toList (b := String.fromUTF8 bs.toByteArray hvalid)
      exact List.toByteArray_inj.mp hbytes
    · rw [dif_neg hvalid] at h
      cases h
  · rintro rfl
    have hvalid : (utf8 t).toByteArray.IsValidUTF8 := ⟨t, rfl⟩
    have hstring : String.fromUTF8 (utf8 t).toByteArray hvalid = String.ofList t := by
      rw [← String.toByteArray_inj, String.toByteArray_ofList]
      rfl
    rw [dif_pos hvalid, hstring, Option.map_some, String.toList_ofList]

section Char

theorem utf8EncodeChar_ascii {c : Char} (h : c.toNat ≤ 127) :
    String.utf8EncodeChar c = [UInt8.ofNat c.toNat] :=
  String.utf8EncodeChar_eq_singleton (Char.utf8Size_eq_one_iff.mpr h)

/-- No byte of a character past ASCII looks like one of ASCII. -/
theorem utf8EncodeChar_high {c : Char} (h : 128 ≤ c.toNat) :
    ∀ b ∈ String.utf8EncodeChar c, 128 ≤ b.toNat := by
  have hlow : ¬ c.val.toNat ≤ 127 := fun hle => by
    have hnat : c.toNat ≤ 127 := hle
    omega
  simp only [String.utf8EncodeChar, if_neg hlow]
  split_ifs <;> simp only [List.forall_mem_cons, UInt8.toNat_ofNat'] <;> simp <;> omega

theorem utf8EncodeChar_head (c : Char) : ∃ b bs, String.utf8EncodeChar c = b :: bs ∧
    (b.toNat < 128 ∨ 192 ≤ b.toNat) := by
  simp only [String.utf8EncodeChar]
  split_ifs <;> refine ⟨_, _, rfl, ?_⟩ <;> rw [UInt8.toNat_ofNat'] <;> omega

theorem head?_utf8_cons {c : Char} {s : Text} {a : UInt8} (ha : a.toNat < 128) :
    (utf8 (c :: s)).head? = some a ↔ c.toNat = a.toNat := by
  by_cases hc : c.toNat ≤ 127
  · rw [utf8_cons, utf8EncodeChar_ascii hc, List.singleton_append, List.head?_cons,
      Option.some.injEq, ← UInt8.toNat_inj, UInt8.toNat_ofNat']
    have hmod : c.toNat % 2 ^ 8 = c.toNat := Nat.mod_eq_of_lt (by omega)
    rw [hmod]
  · obtain ⟨b, bs, hb, -⟩ := utf8EncodeChar_head c
    have hhigh := utf8EncodeChar_high (c := c) (by omega) b (hb ▸ List.mem_cons_self)
    rw [utf8_cons, hb, List.cons_append, List.head?_cons, Option.some.injEq]
    refine iff_of_false (fun h => ?_) (by omega)
    subst h
    omega

end Char

section Slices

/-- `str::is_char_boundary`. -/
def isCharBoundary (s : List UInt8) (i : Nat) : Bool :=
  i == 0 || i == s.length || s[i]?.any fun b => decide (b.toNat < 128 ∨ 192 ≤ b.toNat)

/-- `&s[i..]`. -/
def sliceFrom (s : List UInt8) (i : Nat) : Except Stop (List UInt8) :=
  if isCharBoundary s i then .ok (s.drop i) else .error .boundary

/-- `&s[..i]`. -/
def sliceTo (s : List UInt8) (i : Nat) : Except Stop (List UInt8) :=
  if isCharBoundary s i then .ok (s.take i) else .error .boundary

theorem isCharBoundary_utf8 (s t : Text) : isCharBoundary (utf8 s ++ utf8 t) (utf8 s).length = true := by
  cases t with
  | nil => simp [isCharBoundary]
  | cons c t =>
    obtain ⟨b, bs, hc, hb⟩ := utf8EncodeChar_head c
    simp [isCharBoundary, utf8_cons, hc, hb]

theorem sliceFrom_utf8 (s t : Text) : sliceFrom (utf8 s ++ utf8 t) (utf8 s).length = .ok (utf8 t) := by
  rw [sliceFrom, if_pos (isCharBoundary_utf8 s t), List.drop_left]

theorem sliceTo_utf8 (s t : Text) : sliceTo (utf8 s ++ utf8 t) (utf8 s).length = .ok (utf8 s) := by
  rw [sliceTo, if_pos (isCharBoundary_utf8 s t), List.take_left]

end Slices

section Classes

/-- A class of bytes that tells a class of characters: all bytes of a character inside, or its first
byte outside. -/
structure ByteClass (p : UInt8 → Bool) (q : Char → Bool) : Prop where
  inside : ∀ c, q c = true → ∀ b ∈ String.utf8EncodeChar c, p b = true
  outside : ∀ c, q c = false → ∃ b bs, String.utf8EncodeChar c = b :: bs ∧ p b = false

variable {p : UInt8 → Bool} {q : Char → Bool}

/-- Classes that agree on ASCII, where all other bytes fall on one side. -/
theorem ByteClass.of_ascii (high : Bool)
    (hascii : ∀ c : Char, c.toNat ≤ 127 → p (UInt8.ofNat c.toNat) = q c)
    (hp : ∀ b : UInt8, 128 ≤ b.toNat → p b = high) (hq : ∀ c : Char, 128 ≤ c.toNat → q c = high) :
    ByteClass p q := by
  constructor
  · intro c hc b hb
    by_cases hlow : c.toNat ≤ 127
    · rw [utf8EncodeChar_ascii hlow, List.mem_singleton] at hb
      rw [hb, hascii c hlow, hc]
    · have hge : 128 ≤ c.toNat := by omega
      rw [hp b (utf8EncodeChar_high hge b hb), ← hq c hge, hc]
  · intro c hc
    by_cases hlow : c.toNat ≤ 127
    · exact ⟨_, _, utf8EncodeChar_ascii hlow, by rw [hascii c hlow, hc]⟩
    · have hge : 128 ≤ c.toNat := by omega
      obtain ⟨b, bs, hb, -⟩ := utf8EncodeChar_head c
      have hmem : b ∈ String.utf8EncodeChar c := hb ▸ List.mem_cons_self
      refine ⟨b, bs, hb, ?_⟩
      rw [hp b (utf8EncodeChar_high hge b hmem), ← hq c hge, hc]

theorem ByteClass.takeWhile (h : ByteClass p q) (s : Text) :
    (utf8 s).takeWhile p = utf8 (s.takeWhile q) := by
  induction s with
  | nil => rfl
  | cons c s ih =>
    rw [utf8_cons]
    by_cases hc : q c = true
    · rw [List.takeWhile_cons_of_pos hc, utf8_cons,
        List.takeWhile_append_of_pos (h.inside c hc), ih]
    · obtain ⟨b, bs, hb, hp⟩ := h.outside c (Bool.eq_false_iff.mpr hc)
      rw [List.takeWhile_cons_of_neg hc, hb, List.cons_append,
        List.takeWhile_cons_of_neg (Bool.eq_false_iff.mp hp), utf8_nil]

end Classes

end Noa.Framework
