import Noa.Framework.Utf8

namespace Noa.Tunnel.Resolve
open Noa.Framework

/-! Strings are their bytes here: the scanner counts bytes, and slices the string where it stops. -/

def mulU64 (x y : Nat) : Except Stop Nat := if x * y < 2 ^ 64 then .ok (x * y) else .error .overflow

def addU64 (x y : Nat) : Except Stop Nat := if x + y < 2 ^ 64 then .ok (x + y) else .error .overflow

/-- `u64::checked_add(..)?`. -/
def checkedAdd (x y : Nat) : Except Stop Nat := if x + y < 2 ^ 64 then .ok (x + y) else .error .none

/-- `u64::cast_signed`. -/
def castSigned (x : Nat) : Int := if x < 2 ^ 63 then x else x - 2 ^ 64

/-- The negation of an `i64`. -/
def negI64 (x : Int) : Except Stop Int := if x = -2 ^ 63 then .error .overflow else .ok (-x)

def isAsciiDigit (b : UInt8) : Bool := decide (48 ≤ b.toNat ∧ b.toNat ≤ 57)

/-- The digits at the front with their value and count; none past `1 << 63`. -/
def leadingIntLoop (x i : Nat) : List UInt8 → Except Stop (Nat × Nat)
  | [] => .ok (x, i)
  | c :: cs =>
    if !isAsciiDigit c then .ok (x, i)
    else if 2 ^ 63 / 10 < x then .error .none
    else do
      let x ← addU64 (← mulU64 x 10) (c.toNat - 48)
      if 2 ^ 63 < x then .error .none else leadingIntLoop x (i + 1) cs

def leadingInt (s : List UInt8) : Except Stop (Nat × List UInt8) := do
  let (x, i) ← leadingIntLoop 0 0 s
  return (x, ← sliceFrom s i)

/-- Digits of a fraction with their scale; those that would overflow are dropped. -/
def leadingFractionLoop (x : Nat) (scale : Float) (overflow : Bool) (i : Nat) :
    List UInt8 → Except Stop (Nat × Float × Nat)
  | [] => .ok (x, scale, i)
  | c :: cs =>
    if !isAsciiDigit c then .ok (x, scale, i)
    else if overflow then leadingFractionLoop x scale overflow (i + 1) cs
    else if (2 ^ 63 - 1) / 10 < x then leadingFractionLoop x scale true (i + 1) cs
    else do
      let y ← addU64 (← mulU64 x 10) (c.toNat - 48)
      if 2 ^ 63 < y then leadingFractionLoop x scale true (i + 1) cs
      else leadingFractionLoop y (scale * 10) overflow (i + 1) cs

def leadingFraction (s : List UInt8) : Except Stop (Nat × Float × List UInt8) := do
  let (x, scale, i) ← leadingFractionLoop 0 1 false 0 s
  return (x, scale, ← sliceFrom s i)

def fractionNanos (f unit : Nat) (scale : Float) : Nat :=
  ((UInt64.ofNat f).toFloat * ((UInt64.ofNat unit).toFloat / scale)).toUInt64.toNat

def unitNanos (u : List UInt8) : Except Stop Nat :=
  if u = utf8 ['n', 's'] then .ok 1
  else if u = utf8 ['u', 's'] ∨ u = utf8 ['µ', 's'] ∨ u = utf8 ['μ', 's'] then .ok 1000
  else if u = utf8 ['m', 's'] then .ok 1000000
  else if u = utf8 ['s'] then .ok 1000000000
  else if u = utf8 ['m'] then .ok 60000000000
  else if u = utf8 ['h'] then .ok 3600000000000
  else .error .none

def isUnitByte (b : UInt8) : Bool := b.toNat != 46 && !isAsciiDigit b

/-- The fraction after a point, and whether it has a digit. -/
def optionalFraction (s : List UInt8) : Except Stop (Nat × Float × Bool × List UInt8) :=
  if s.head? = some 46 then do
    let s ← sliceFrom s 1
    let (f, scale, rest) ← leadingFraction s
    return (f, scale, s.length != rest.length, rest)
  else .ok (0, 1, false, s)

/-- The unit at the front, up to the next digit or point. -/
def takeUnit (s : List UInt8) : Except Stop (Nat × List UInt8) :=
  let i := (s.takeWhile isUnitByte).length
  if i = 0 then .error .none
  else do
    let unit ← unitNanos (← sliceTo s i)
    return (unit, ← sliceFrom s i)

/-- A number and its fraction in nanoseconds, up to `1 << 63`. -/
def scaledNanos (v f : Nat) (scale : Float) (unit : Nat) : Except Stop Nat :=
  if 2 ^ 63 / unit < v then .error .none
  else do
    let v ← mulU64 v unit
    if 0 < f then
      let v ← addU64 v (fractionNanos f unit scale)
      if 2 ^ 63 < v then .error .none else return v
    else return v

/-- One number with its unit: the nanoseconds, and the rest of the string. -/
def durationTerm (s : List UInt8) : Except Stop (Nat × List UInt8) :=
  if s.head?.any fun b => b.toNat != 46 && !isAsciiDigit b then .error .none
  else do
    let (v, rest) ← leadingInt s
    let pre := s.length != rest.length
    let (f, scale, post, rest) ← optionalFraction rest
    if !pre && !post then .error .none
    else
      let (unit, rest) ← takeUnit rest
      return (← scaledNanos v f scale unit, rest)

theorem sliceFrom_length {s t : List UInt8} {i : Nat} (h : sliceFrom s i = .ok t) :
    t.length = s.length - i := by
  unfold sliceFrom at h
  split_ifs at h
  cases h
  exact List.length_drop

theorem leadingInt_length {s rest : List UInt8} {v : Nat} (h : leadingInt s = .ok (v, rest)) :
    rest.length ≤ s.length := by
  obtain ⟨⟨x, i⟩, -, h⟩ := except_bind_eq_ok.mp h
  obtain ⟨t, ht, h⟩ := except_bind_eq_ok.mp h
  cases h
  have hlen := sliceFrom_length ht
  omega

theorem leadingFraction_length {s rest : List UInt8} {f : Nat} {scale : Float}
    (h : leadingFraction s = .ok (f, scale, rest)) : rest.length ≤ s.length := by
  obtain ⟨⟨x, sc, i⟩, -, h⟩ := except_bind_eq_ok.mp h
  obtain ⟨t, ht, h⟩ := except_bind_eq_ok.mp h
  cases h
  have hlen := sliceFrom_length ht
  omega

theorem optionalFraction_length {s rest : List UInt8} {f : Nat} {scale : Float} {post : Bool}
    (h : optionalFraction s = .ok (f, scale, post, rest)) : rest.length ≤ s.length := by
  unfold optionalFraction at h
  split_ifs at h
  · obtain ⟨t, ht, h⟩ := except_bind_eq_ok.mp h
    obtain ⟨⟨f', scale', rest'⟩, hf, h⟩ := except_bind_eq_ok.mp h
    cases h
    have hlen := sliceFrom_length ht
    have hrest := leadingFraction_length hf
    omega
  · cases h
    exact le_rfl

theorem takeUnit_length {s rest : List UInt8} {unit : Nat} (h : takeUnit s = .ok (unit, rest)) :
    rest.length < s.length := by
  unfold takeUnit at h
  dsimp only at h
  split_ifs at h with hi
  obtain ⟨u, -, h⟩ := except_bind_eq_ok.mp h
  obtain ⟨k, -, h⟩ := except_bind_eq_ok.mp h
  obtain ⟨t, ht, h⟩ := except_bind_eq_ok.mp h
  cases h
  have hlen := sliceFrom_length ht
  have hle := (List.takeWhile_sublist isUnitByte (l := s)).length_le
  omega

theorem durationTerm_shorter {s rest : List UInt8} {v : Nat} (h : durationTerm s = .ok (v, rest)) :
    rest.length < s.length := by
  unfold durationTerm at h
  split_ifs at h
  obtain ⟨⟨v', s₁⟩, hint, h⟩ := except_bind_eq_ok.mp h
  obtain ⟨⟨f, scale, post, s₂⟩, hfrac, h⟩ := except_bind_eq_ok.mp h
  dsimp only at h
  split_ifs at h
  obtain ⟨⟨unit, s₃⟩, hunit, h⟩ := except_bind_eq_ok.mp h
  obtain ⟨nanos, -, h⟩ := except_bind_eq_ok.mp h
  cases h
  have hint := leadingInt_length hint
  have hfrac := optionalFraction_length hfrac
  have hunit := takeUnit_length hunit
  change s₃.length < s.length
  omega

/-- The sum of all terms up to the end of the string. -/
def durationLoop (s : List UInt8) (d : Nat) : Except Stop Nat :=
  if s = [] then .ok d
  else
    match _hterm : durationTerm s with
    | .error e => .error e
    | .ok (v, rest) =>
      match checkedAdd d v with
      | .error e => .error e
      | .ok d => if 2 ^ 63 < d then .error .none else durationLoop rest d
termination_by s.length
decreasing_by exact durationTerm_shorter _hterm

/-- The sign, and what follows it. -/
def leadingSign (s : List UInt8) : Except Stop (Bool × List UInt8) :=
  match s with
  | [] => .ok (false, [])
  | c :: _ => if c = 45 ∨ c = 43 then do return (c == 45, ← sliceFrom s 1) else .ok (false, s)

/-- The nanoseconds of what follows the sign; a lone zero needs no unit. -/
def durationBody (neg : Bool) (s : List UInt8) : Except Stop Int :=
  if s = [48] then .ok 0
  else if s = [] then .error .none
  else do
    let d ← durationLoop s 0
    if neg then if d = 2 ^ 63 then return -2 ^ 63 else negI64 (castSigned d)
    else if 2 ^ 63 - 1 < d then .error .none
    else return castSigned d

def parseGoDuration (s : List UInt8) : Except Stop Int := do
  let (neg, s) ← leadingSign s
  durationBody neg s

structure HostV1ListenOptions where
  connectTimeoutSeconds : Option UInt32
  connectTimeout : Option Text

/-- Why there is no timeout: the reason the host gives, or a panic of the parser. -/
inductive TimeoutError where
  | reason (text : Text)
  | panic (stop : Stop)

def positiveDurationFromNanos (nanos : Int) : Option Nat :=
  if 0 < nanos then some nanos.toNat else none

/-- The dial timeout in nanoseconds: a duration string wins over whole seconds, also where it is
malformed. -/
def getDialTimeout (listenOptions : Option HostV1ListenOptions) (default : Nat) :
    Except TimeoutError Nat :=
  match listenOptions with
  | none => .ok default
  | some opts =>
    match opts.connectTimeout, opts.connectTimeoutSeconds with
    | some ct, _ =>
      match parseGoDuration (utf8 ct) with
      | .error .none => .error (.reason
          ("invalid host.v1 connectTimeout '".toList ++ ct ++ "'".toList))
      | .error stop => .error (.panic stop)
      | .ok nanos =>
        match positiveDurationFromNanos nanos with
        | some duration => .ok duration
        | none => .error (.reason ("host.v1 connectTimeout '".toList ++ ct ++
            "' must be a positive duration".toList))
    | none, some secs =>
      if secs = 0 then .error (.reason
        "host.v1 connectTimeoutSeconds must be a positive number of seconds".toList)
      else .ok (secs.toNat * 10 ^ 9)
    | none, none => .ok default

/-- A host never dials without a limit. -/
theorem getDialTimeout_pos {listenOptions : Option HostV1ListenOptions} {default timeout : Nat}
    (hdefault : 0 < default) (h : getDialTimeout listenOptions default = .ok timeout) :
    0 < timeout := by
  unfold getDialTimeout at h
  split at h
  · cases h
    exact hdefault
  · split at h
    · split at h
      · cases h
      · cases h
      · split at h
        · next nanos _ duration hpos =>
          cases h
          unfold positiveDurationFromNanos at hpos
          split_ifs at hpos
          cases hpos
          omega
        · cases h
    · next secs _ _ =>
      split_ifs at h with hzero
      cases h
      have hne : secs.toNat ≠ 0 := fun h => hzero (UInt32.toNat_inj.mp h)
      omega
    · cases h
      exact hdefault

section Scan

theorem isAsciiDigit_ofNat {c : Char} (hc : c.toNat ≤ 127) :
    isAsciiDigit (UInt8.ofNat c.toNat) = c.isDigit := by
  have hbyte : (UInt8.ofNat c.toNat).toNat = c.toNat := by
    rw [UInt8.toNat_ofNat']
    omega
  have hdigit : c.isDigit = true ↔ 48 ≤ c.toNat ∧ c.toNat ≤ 57 := isDigit_iff c
  rw [isAsciiDigit, hbyte, Bool.eq_iff_iff, decide_eq_true_eq, hdigit]

theorem isAsciiDigit_high {b : UInt8} (hb : 128 ≤ b.toNat) : isAsciiDigit b = false := by
  rw [isAsciiDigit, decide_eq_false_iff_not]
  omega

theorem isDigit_high {c : Char} (hc : 128 ≤ c.toNat) : c.isDigit = false := by
  refine Bool.eq_false_iff.mpr fun h => ?_
  have hle : c.toNat ≤ 57 := ((isDigit_iff c).mp h).2
  omega

theorem byteClass_digit : ByteClass isAsciiDigit Char.isDigit :=
  .of_ascii false (fun _ => isAsciiDigit_ofNat) (fun _ => isAsciiDigit_high) fun _ => isDigit_high

def isUnitChar (c : Char) : Bool := c.toNat != 46 && !c.isDigit

theorem byteClass_unit : ByteClass isUnitByte isUnitChar := by
  refine .of_ascii true (fun c hc => ?_) (fun b hb => ?_) (fun c hc => ?_)
  · have hbyte : (UInt8.ofNat c.toNat).toNat = c.toNat := by
      rw [UInt8.toNat_ofNat']
      omega
    rw [isUnitByte, isUnitChar, isAsciiDigit_ofNat hc, hbyte]
  · have hne : b.toNat ≠ 46 := by omega
    simp [isUnitByte, isAsciiDigit_high hb, hne]
  · have hne : c.toNat ≠ 46 := by omega
    simp [isUnitChar, isDigit_high hc, hne]

/-- One more digit: the two guards reject what is past `1 << 63`, and nothing overflows on the way. -/
theorem leadingIntLoop_digit {x : Nat} (hx : x ≤ 2 ^ 63) (i : Nat) {b : UInt8}
    (hb : isAsciiDigit b = true) (bs : List UInt8) :
    leadingIntLoop x i (b :: bs) =
      if x * 10 + (b.toNat - 48) ≤ 2 ^ 63 then leadingIntLoop (x * 10 + (b.toNat - 48)) (i + 1) bs
      else .error .none := by
  have hbound : 48 ≤ b.toNat ∧ b.toNat ≤ 57 := of_decide_eq_true hb
  rw [leadingIntLoop, hb]
  by_cases hguard : 2 ^ 63 / 10 < x
  · rw [if_neg (by simp), if_pos hguard, if_neg (by omega)]
  · have hmul : mulU64 x 10 = .ok (x * 10) := if_pos (by omega)
    have hadd : addU64 (x * 10) (b.toNat - 48) = .ok (x * 10 + (b.toNat - 48)) := if_pos (by omega)
    rw [if_neg (by simp), if_neg hguard, hmul]
    dsimp only [bind, Except.bind]
    rw [hadd]
    dsimp only
    by_cases hle : x * 10 + (b.toNat - 48) ≤ 2 ^ 63
    · rw [if_neg (by omega), if_pos hle]
    · rw [if_pos (by omega), if_neg hle]

theorem leadingIntLoop_utf8 {x : Nat} (hx : x ≤ 2 ^ 63) (i : Nat) (s : Text) :
    leadingIntLoop x i (utf8 s) =
      if decimalFrom x (s.takeWhile Char.isDigit) ≤ 2 ^ 63 then
        .ok (decimalFrom x (s.takeWhile Char.isDigit), i + (utf8 (s.takeWhile Char.isDigit)).length)
      else .error .none := by
  induction s generalizing x i with
  | nil => exact (if_pos hx).symm
  | cons c s ih =>
    by_cases hc : c.isDigit = true
    · have hle : c.toNat ≤ 57 := ((isDigit_iff c).mp hc).2
      have hbyte : (UInt8.ofNat c.toNat).toNat = c.toNat := by
        rw [UInt8.toNat_ofNat']
        omega
      have hdigit : isAsciiDigit (UInt8.ofNat c.toNat) = true := by
        rw [isAsciiDigit_ofNat (by omega), hc]
      have hascii := utf8EncodeChar_ascii (c := c) (by omega)
      have hgrow := le_decimalFrom (x * 10 + (c.toNat - 48)) (s.takeWhile Char.isDigit)
      have hfrom : decimalFrom x (c :: s.takeWhile Char.isDigit) =
        decimalFrom (x * 10 + (c.toNat - 48)) (s.takeWhile Char.isDigit) := rfl
      rw [utf8_cons, hascii, List.singleton_append, leadingIntLoop_digit hx i hdigit, hbyte,
        List.takeWhile_cons_of_pos hc, hfrom, utf8_cons, hascii, List.singleton_append,
        List.length_cons]
      by_cases hnext : x * 10 + (c.toNat - 48) ≤ 2 ^ 63
      · rw [if_pos hnext, ih hnext, Nat.add_right_comm, Nat.add_assoc]
      · rw [if_neg hnext, if_neg (by omega)]
    · obtain ⟨b, bs, hb, hnot⟩ := byteClass_digit.outside c (Bool.eq_false_iff.mpr hc)
      rw [utf8_cons, hb, List.cons_append, leadingIntLoop, List.takeWhile_cons_of_neg hc, hnot]
      exact (if_pos hx).symm

theorem leadingInt_utf8 (s : Text) :
    leadingInt (utf8 s) =
      if decimalFrom 0 (s.takeWhile Char.isDigit) ≤ 2 ^ 63 then
        .ok (decimalFrom 0 (s.takeWhile Char.isDigit), utf8 (s.dropWhile Char.isDigit))
      else .error .none := by
  have hslice := sliceFrom_utf8 (s.takeWhile Char.isDigit) (s.dropWhile Char.isDigit)
  rw [← utf8_append, List.takeWhile_append_dropWhile] at hslice
  rw [leadingInt, leadingIntLoop_utf8 (Nat.zero_le _), Nat.zero_add]
  by_cases hle : decimalFrom 0 (s.takeWhile Char.isDigit) ≤ 2 ^ 63
  · rw [if_pos hle, if_pos hle]
    simp only [bind, Except.bind, hslice]
    rfl
  · rw [if_neg hle, if_neg hle]
    rfl

theorem unitNanos_ne (u : List UInt8) {e : Stop} (h : unitNanos u = .error e) : e = .none := by
  unfold unitNanos at h
  split_ifs at h
  cases h
  rfl

end Scan

/-- The units, and what they are in nanoseconds. -/
inductive IsUnit : Text → Nat → Prop
  | nano : IsUnit ['n', 's'] 1
  | micro : IsUnit ['u', 's'] 1000
  | microSign : IsUnit ['µ', 's'] 1000
  | greekMu : IsUnit ['μ', 's'] 1000
  | milli : IsUnit ['m', 's'] 1000000
  | second : IsUnit ['s'] 1000000000
  | minute : IsUnit ['m'] 60000000000
  | hour : IsUnit ['h'] 3600000000000

theorem unitNanos_utf8 {u : Text} {k : Nat} : unitNanos (utf8 u) = .ok k ↔ IsUnit u k := by
  unfold unitNanos
  simp only [utf8_inj]
  constructor
  · intro h
    split_ifs at h with h₁ h₂ h₃ h₄ h₅ h₆ <;> cases h
    · exact h₁ ▸ .nano
    · obtain h₂ | h₂ | h₂ := h₂
      · exact h₂ ▸ .micro
      · exact h₂ ▸ .microSign
      · exact h₂ ▸ .greekMu
    · exact h₃ ▸ .milli
    · exact h₄ ▸ .second
    · exact h₅ ▸ .minute
    · exact h₆ ▸ .hour
  · intro h
    cases h <;> simp

theorem IsUnit.chars {u : Text} {k : Nat} (h : IsUnit u k) :
    u ≠ [] ∧ (∀ c ∈ u, isUnitChar c = true) ∧ 0 < k := by
  cases h <;> simp [isUnitChar]

section Term

theorem optionalFraction_utf8 {t : Text} (hdot : '.' ∉ t) :
    optionalFraction (utf8 t) = .ok (0, 1, false, utf8 t) := by
  have hhead : ¬ (utf8 t).head? = some 46 := by
    cases t with
    | nil => simp
    | cons c t =>
      rw [head?_utf8_cons (by decide)]
      intro h
      have hc : c = '.' := Char.toNat_inj.mp h
      exact hdot (hc ▸ List.mem_cons_self)
  rw [optionalFraction, if_neg hhead]

theorem takeUnit_utf8 (t : Text) :
    takeUnit (utf8 t) = (unitNanos (utf8 (t.takeWhile isUnitChar))).bind fun k =>
      .ok (k, utf8 (t.dropWhile isUnitChar)) := by
  have hto := sliceTo_utf8 (t.takeWhile isUnitChar) (t.dropWhile isUnitChar)
  have hfrom := sliceFrom_utf8 (t.takeWhile isUnitChar) (t.dropWhile isUnitChar)
  rw [← utf8_append, List.takeWhile_append_dropWhile] at hto hfrom
  rw [takeUnit, byteClass_unit.takeWhile]
  split_ifs with hi
  · rw [List.length_eq_zero_iff.mp hi]
    rfl
  · rw [hto]
    cases hu : unitNanos (utf8 (t.takeWhile isUnitChar)) with
    | error e => simp [bind, Except.bind, hu]
    | ok k => simp [bind, Except.bind, pure, Except.pure, hu, hfrom]

theorem scaledNanos_whole {v k : Nat} (hk : 0 < k) (scale : Float) :
    scaledNanos v 0 scale k = if v * k ≤ 2 ^ 63 then .ok (v * k) else .error .none := by
  have hguard : 2 ^ 63 / k < v ↔ ¬ v * k ≤ 2 ^ 63 := by
    rw [Nat.div_lt_iff_lt_mul hk, Nat.not_le]
  rw [scaledNanos]
  by_cases hle : v * k ≤ 2 ^ 63
  · have hmul : mulU64 v k = .ok (v * k) := if_pos (by omega)
    rw [if_neg (fun h => hguard.mp h hle), if_pos hle, hmul]
    rfl
  · rw [if_pos (hguard.mpr hle), if_neg hle]

/-- Without a point a string starts with a digit, or with something a number cannot start with. -/
theorem head_utf8 {s : Text} (hdot : '.' ∉ s) (hs : s ≠ []) :
    (utf8 s).head?.any isUnitByte = decide (s.takeWhile Char.isDigit = []) := by
  cases s with
  | nil => exact absurd rfl hs
  | cons c s =>
    have hc : c.toNat ≠ 46 := by
      intro h
      have hdot' : c = '.' := Char.toNat_inj.mp h
      exact hdot (hdot' ▸ List.mem_cons_self)
    by_cases hdigit : c.isDigit = true
    · have hunit : isUnitChar c = false := by simp [isUnitChar, hdigit]
      obtain ⟨b, bs, hb, hnot⟩ := byteClass_unit.outside c hunit
      simp [utf8_cons, hb, hnot, hdigit]
    · have hunit : isUnitChar c = true := by simp [isUnitChar, hdigit, hc]
      obtain ⟨b, bs, hb, -⟩ := utf8EncodeChar_head c
      have hbyte := byteClass_unit.inside c hunit b (hb ▸ List.mem_cons_self)
      simp [utf8_cons, hb, hbyte, hdigit]

theorem durationTerm_utf8 {s : Text} (hdot : '.' ∉ s) (hs : s ≠ []) :
    durationTerm (utf8 s) =
      if s.takeWhile Char.isDigit = [] ∨ 2 ^ 63 < decimalFrom 0 (s.takeWhile Char.isDigit) then
        .error .none
      else (unitNanos (utf8 ((s.dropWhile Char.isDigit).takeWhile isUnitChar))).bind fun k =>
        if decimalFrom 0 (s.takeWhile Char.isDigit) * k ≤ 2 ^ 63 then
          .ok (decimalFrom 0 (s.takeWhile Char.isDigit) * k,
            utf8 ((s.dropWhile Char.isDigit).dropWhile isUnitChar))
        else .error .none := by
  unfold durationTerm
  change (if (utf8 s).head?.any isUnitByte = true then _ else _) = _
  rw [head_utf8 hdot hs]
  by_cases hds : s.takeWhile Char.isDigit = []
  · rw [if_pos (decide_eq_true hds), if_pos (.inl hds)]
  rw [if_neg (by simpa using hds), leadingInt_utf8]
  by_cases hv : decimalFrom 0 (s.takeWhile Char.isDigit) ≤ 2 ^ 63
  · rw [if_pos hv, if_neg (by simp only [hds, false_or]; omega)]
    have hdot' : '.' ∉ s.dropWhile Char.isDigit := fun h => hdot ((List.dropWhile_sublist _).subset h)
    have hpre : (utf8 s).length ≠ (utf8 (s.dropWhile Char.isDigit)).length := by
      conv_lhs => rw [← List.takeWhile_append_dropWhile (p := Char.isDigit) (l := s), utf8_append]
      rw [List.length_append]
      have hpos := List.length_pos_iff.mpr (mt utf8_eq_nil.mp hds)
      omega
    simp only [bind, Except.bind, optionalFraction_utf8 hdot', takeUnit_utf8]
    rw [if_neg (by simp [hpre])]
    cases hu : unitNanos (utf8 ((s.dropWhile Char.isDigit).takeWhile isUnitChar)) with
    | error e => rfl
    | ok k =>
      dsimp only
      rw [scaledNanos_whole (unitNanos_utf8.mp hu).chars.2.2]
      split_ifs <;> rfl
  · rw [if_neg hv, if_pos (.inr (by omega))]
    rfl

end Term

/-- Digits and a unit, one after another, and what they add up to in nanoseconds. -/
inductive Terms : Text → Nat → Prop
  | nil : Terms [] 0
  | cons {ds u rest : Text} {k n : Nat} (hds : ds ≠ []) (hdigits : ∀ c ∈ ds, c.isDigit = true)
      (hu : IsUnit u k) (hrest : Terms rest n) :
    Terms (ds ++ (u ++ rest)) (decimalFrom 0 ds * k + n)

section Loop

theorem Terms.head {s : Text} {n : Nat} (h : Terms s n) : ∀ c, s.head? = some c → c.isDigit = true := by
  cases h with
  | nil => exact fun c hc => by cases hc
  | @cons ds u rest k n hds hdigits hu hrest =>
    cases ds with
    | nil => exact absurd rfl hds
    | cons d ds =>
      intro c hc
      cases hc
      exact hdigits _ List.mem_cons_self

theorem takeWhile_append_stop {α : Type} {p : α → Bool} {xs ys : List α} (hxs : ∀ x ∈ xs, p x = true)
    (hys : ∀ y, ys.head? = some y → p y = false) :
    (xs ++ ys).takeWhile p = xs ∧ (xs ++ ys).dropWhile p = ys := by
  rw [List.takeWhile_append_of_pos hxs, List.dropWhile_append_of_pos hxs]
  cases ys with
  | nil => simp
  | cons y ys => simp [hys y rfl]

theorem terms_nil {n : Nat} : Terms [] n ↔ n = 0 := by
  constructor
  · intro h
    generalize hs : ([] : Text) = s at h
    cases h with
    | nil => rfl
    | cons hds => simp [hds] at hs
  · rintro rfl
    exact .nil

/-- A string of terms is cut in one way: after its digits, and before the next ones. -/
theorem terms_iff {s : Text} {n : Nat} (hs : s ≠ []) : Terms s n ↔
    ∃ k m, s.takeWhile Char.isDigit ≠ [] ∧
      IsUnit ((s.dropWhile Char.isDigit).takeWhile isUnitChar) k ∧
      Terms ((s.dropWhile Char.isDigit).dropWhile isUnitChar) m ∧
      n = decimalFrom 0 (s.takeWhile Char.isDigit) * k + m := by
  constructor
  · intro h
    cases h with
    | nil => exact absurd rfl hs
    | @cons ds u rest k m hds hdigits hu hrest =>
      obtain ⟨hne, hunit, -⟩ := hu.chars
      have hnotDigit {c : Char} (hc : isUnitChar c = true) : c.isDigit = false := by
        simp only [isUnitChar, Bool.and_eq_true, Bool.not_eq_true'] at hc
        exact hc.2
      have hstart : ∀ c, (u ++ rest).head? = some c → c.isDigit = false := by
        intro c hc
        rw [List.head?_append_of_ne_nil _ hne] at hc
        exact hnotDigit (hunit c (List.mem_of_mem_head? hc))
      obtain ⟨htake, hdrop⟩ := takeWhile_append_stop hdigits hstart
      have hnext : ∀ c, rest.head? = some c → isUnitChar c = false := by
        intro c hc
        simp [isUnitChar, hrest.head c hc]
      obtain ⟨htakeUnit, hdropUnit⟩ := takeWhile_append_stop hunit hnext
      rw [htake, hdrop, htakeUnit, hdropUnit]
      exact ⟨k, m, hds, hu, hrest, rfl⟩
  · rintro ⟨k, m, hds, hu, hrest, rfl⟩
    have hterms := Terms.cons hds (fun c hc => List.mem_takeWhile_imp hc) hu hrest
    rwa [List.takeWhile_append_dropWhile, List.takeWhile_append_dropWhile] at hterms

theorem durationLoop_cons {s : List UInt8} (hs : s ≠ []) (d : Nat) :
    durationLoop s d = (durationTerm s).bind fun r => (checkedAdd d r.1).bind fun d =>
      if 2 ^ 63 < d then .error .none else durationLoop r.2 d := by
  rw [durationLoop, if_neg hs]
  cases hterm : durationTerm s with
  | error e => rfl
  | ok r =>
    dsimp only [Except.bind]
    cases checkedAdd d r.1 <;> rfl

theorem checkedAdd_bind (d v : Nat) (f : Nat → Except Stop Nat) :
    ((checkedAdd d v).bind fun d => if 2 ^ 63 < d then .error .none else f d) =
      if d + v ≤ 2 ^ 63 then f (d + v) else .error .none := by
  unfold checkedAdd
  by_cases hle : d + v ≤ 2 ^ 63
  · rw [if_pos hle, if_pos (by omega)]
    exact if_neg (by omega)
  · rw [if_neg hle]
    split_ifs
    · exact if_pos (by omega)
    · rfl

theorem durationLoop_decides {s : Text} {d : Nat} (hdot : '.' ∉ s) (hd : d ≤ 2 ^ 63) :
    Decides (durationLoop (utf8 s) d) fun m => ∃ n, Terms s n ∧ m = d + n ∧ m ≤ 2 ^ 63 := by
  -- on the length: every term takes its digits and its unit
  induction hlen : s.length using Nat.strong_induction_on generalizing s d with
  | _ len ih =>
  by_cases hs : s = []
  · subst hs
    rw [durationLoop, utf8_nil, if_pos rfl]
    refine ⟨fun m => ?_, fun e h => by cases h⟩
    simp only [terms_nil, exists_eq_left, Except.ok.injEq]
    omega
  rw [durationLoop_cons (mt utf8_eq_nil.mp hs), durationTerm_utf8 hdot hs]
  simp only [terms_iff hs]
  set ds := s.takeWhile Char.isDigit
  set t := s.dropWhile Char.isDigit with ht
  by_cases hv : ds = [] ∨ 2 ^ 63 < decimalFrom 0 ds
  · rw [if_pos hv]
    refine .none ?_
    rintro m ⟨n, ⟨k, n', hds, hu, -, rfl⟩, rfl, hle⟩
    have hk := Nat.le_mul_of_pos_right (decimalFrom 0 ds) hu.chars.2.2
    have hbig := hv.resolve_left hds
    omega
  rw [if_neg hv]
  cases hu : unitNanos (utf8 (t.takeWhile isUnitChar)) with
  | error e =>
    obtain rfl := unitNanos_ne _ hu
    refine .none ?_
    rintro m ⟨n, ⟨k, n', -, hk, -⟩, -⟩
    rw [unitNanos_utf8.mpr hk] at hu
    cases hu
  | ok k =>
    have hunit := unitNanos_utf8.mp hu
    have honly {k' : Nat} (h : IsUnit (t.takeWhile isUnitChar) k') : k' = k := by
      rw [unitNanos_utf8.mpr h] at hu
      exact Except.ok.inj hu
    change Decides ((if decimalFrom 0 ds * k ≤ 2 ^ 63 then _ else _ : Except Stop _).bind _) _
    by_cases hterm : decimalFrom 0 ds * k ≤ 2 ^ 63
    · rw [if_pos hterm]
      change Decides ((checkedAdd d (decimalFrom 0 ds * k)).bind fun d => _) _
      rw [checkedAdd_bind]
      by_cases hsum : d + decimalFrom 0 ds * k ≤ 2 ^ 63
      · have hcut : ds.length + t.length = s.length := by
          rw [← List.length_append, List.takeWhile_append_dropWhile]
        have hpos := List.length_pos_iff.mpr fun h => hv (.inl h)
        have hsub := List.dropWhile_sublist isUnitChar (l := t)
        have hdot' : '.' ∉ t.dropWhile isUnitChar := fun h =>
          hdot ((List.dropWhile_sublist _).subset (hsub.subset h))
        have hrest := ih _ (by have := hsub.length_le; omega) hdot' hsum rfl
        rw [if_pos hsum]
        refine hrest.congr fun m => ⟨?_, ?_⟩
        · rintro ⟨n, hn, rfl, hle⟩
          exact ⟨_, ⟨k, n, fun h => hv (.inl h), hunit, hn, rfl⟩, by omega, hle⟩
        · rintro ⟨n, ⟨k', n', -, hk', hn, rfl⟩, rfl, hle⟩
          rw [honly hk'] at hle ⊢
          exact ⟨n', hn, by omega, hle⟩
      · rw [if_neg hsum]
        refine .none ?_
        rintro m ⟨n, ⟨k', n', -, hk', -, rfl⟩, rfl, hle⟩
        rw [honly hk'] at hle
        omega
    · rw [if_neg hterm]
      refine .none ?_
      rintro m ⟨n, ⟨k', n', -, hk', -, rfl⟩, rfl, hle⟩
      rw [honly hk'] at hle
      omega

end Loop

/-- A sign or none, and what follows it. -/
inductive Signed : Text → Bool → Text → Prop
  | bare {body : Text} : Signed body false body
  | plus {body : Text} : Signed ('+' :: body) false body
  | minus {body : Text} : Signed ('-' :: body) true body

/-- The signed sum of a lone zero or of one or more terms, as far as an `i64` goes. -/
def IsBody (neg : Bool) (body : Text) (n : Int) : Prop :=
  ∃ sum : Nat, (body = ['0'] ∧ sum = 0 ∨ body ≠ [] ∧ Terms body sum) ∧
    (sum ≤ 2 ^ 63 - 1 ∨ neg = true ∧ sum = 2 ^ 63) ∧ n = if neg then -(sum : Int) else sum

def IsDuration (s : Text) (n : Int) : Prop :=
  ∃ (neg : Bool) (body : Text), Signed s neg body ∧ IsBody neg body n

section Body

theorem not_terms_zero {n : Nat} : ¬ Terms ['0'] n := by
  rw [terms_iff (List.cons_ne_nil _ _)]
  rintro ⟨k, m, -, hu, -⟩
  exact hu.chars.1 rfl

theorem sign_decides (neg : Bool) {d : Nat} (hd : d ≤ 2 ^ 63) :
    Decides (if neg then if d = 2 ^ 63 then .ok (-2 ^ 63) else negI64 (castSigned d)
      else if 2 ^ 63 - 1 < d then .error .none else .ok (castSigned d))
      fun n : Int => (d ≤ 2 ^ 63 - 1 ∨ neg = true ∧ d = 2 ^ 63) ∧
        n = if neg then -(d : Int) else d := by
  cases neg with
  | false =>
    simp only [Bool.false_eq_true, if_false, false_and, or_false]
    split_ifs with hbig
    · refine .none fun n h => ?_
      omega
    · have hcast : castSigned d = d := if_pos (by omega)
      rw [hcast]
      exact .ok fun n => and_iff_right (by omega)
  | true =>
    simp only [if_true, true_and]
    split_ifs with hmin
    · subst hmin
      exact .ok fun n => and_iff_right (.inr rfl)
    · have hcast : castSigned d = d := if_pos (by omega)
      have hneg : negI64 d = .ok (-(d : Int)) := if_neg (by omega)
      rw [hcast, hneg]
      exact .ok fun n => and_iff_right (by omega)

theorem durationBody_decides {body : Text} (hdot : '.' ∉ body) (neg : Bool) :
    Decides (durationBody neg (utf8 body)) (IsBody neg body) := by
  have hzero : utf8 body = [48] ↔ body = ['0'] := utf8_inj (t := ['0'])
  unfold durationBody
  by_cases hbody : body = ['0']
  · subst hbody
    rw [if_pos (hzero.mpr rfl)]
    refine .ok fun n => ⟨?_, ?_⟩
    · rintro ⟨sum, ⟨-, rfl⟩ | ⟨-, hterms⟩, -, rfl⟩
      · cases neg <;> rfl
      · exact absurd hterms not_terms_zero
    · rintro rfl
      refine ⟨0, .inl ⟨rfl, rfl⟩, .inl (Nat.zero_le _), ?_⟩
      cases neg <;> rfl
  rw [if_neg (mt hzero.mp hbody)]
  by_cases hempty : body = []
  · subst hempty
    refine .none ?_
    rintro n ⟨sum, ⟨h, -⟩ | ⟨h, -⟩, -⟩
    · cases h
    · exact h rfl
  rw [if_neg (mt utf8_eq_nil.mp hempty)]
  have hloop := durationLoop_decides hdot (Nat.zero_le (2 ^ 63))
  have hsigned := hloop.bind fun d ⟨_, _, _, hd⟩ => sign_decides neg hd
  refine hsigned.congr fun n => ⟨?_, ?_⟩
  · rintro ⟨d, ⟨sum, hterms, rfl, -⟩, hrange, rfl⟩
    rw [Nat.zero_add] at *
    exact ⟨sum, .inr ⟨hempty, hterms⟩, hrange, rfl⟩
  · rintro ⟨sum, ⟨h, -⟩ | ⟨-, hterms⟩, hrange, rfl⟩
    · exact absurd h hbody
    · exact ⟨sum, ⟨sum, hterms, by omega, by omega⟩, hrange, rfl⟩

theorem IsBody.head {neg : Bool} {body : Text} {n : Int} (h : IsBody neg body n) :
    ∃ c cs, body = c :: cs ∧ c.isDigit = true := by
  obtain ⟨sum, ⟨rfl, -⟩ | ⟨hne, hterms⟩, -⟩ := h
  · exact ⟨'0', [], rfl, rfl⟩
  · cases body with
    | nil => exact absurd rfl hne
    | cons c cs => exact ⟨c, cs, rfl, hterms.head c rfl⟩

theorem leadingSign_plain {c : Char} (t : Text) (hplus : c ≠ '+') (hminus : c ≠ '-') :
    leadingSign (utf8 (c :: t)) = .ok (false, utf8 (c :: t)) := by
  have hhead (a : UInt8) (d : Char) (ha : a.toNat < 128) (hd : d.toNat = a.toNat) (hc : c ≠ d) :
      (utf8 (c :: t)).head? ≠ some a := by
    rw [Ne, head?_utf8_cons ha, ← hd]
    exact fun h => hc (Char.toNat_inj.mp h)
  have h₁ := hhead 45 '-' (by decide) rfl hminus
  have h₂ := hhead 43 '+' (by decide) rfl hplus
  generalize utf8 (c :: t) = s at h₁ h₂
  cases s with
  | nil => rfl
  | cons b bs =>
    rw [leadingSign, if_neg]
    rintro (rfl | rfl)
    · exact h₁ rfl
    · exact h₂ rfl

theorem parseGoDuration_decides {s : Text} (hdot : '.' ∉ s) :
    Decides (parseGoDuration (utf8 s)) (IsDuration s) := by
  have hbody {neg : Bool} {body : Text} (hsub : body ⊆ s)
      (hsign : leadingSign (utf8 s) = .ok (neg, utf8 body))
      (honly : ∀ neg' body' n, Signed s neg' body' → IsBody neg' body' n → neg' = neg ∧ body' = body)
      (hsigned : Signed s neg body) : Decides (parseGoDuration (utf8 s)) (IsDuration s) := by
    have hdec := durationBody_decides (fun h => hdot (hsub h)) neg
    rw [parseGoDuration, hsign]
    refine hdec.congr fun n => ⟨fun h => ⟨neg, body, hsigned, h⟩, ?_⟩
    rintro ⟨neg', body', hs, h⟩
    obtain ⟨rfl, rfl⟩ := honly neg' body' n hs h
    exact h
  -- a body starts with a digit, so a sign is never a part of it
  have hdigit {neg' : Bool} {c : Char} {t : Text} {n : Int} (hc : c.isDigit = false)
      (h : IsBody neg' (c :: t) n) : False := by
    obtain ⟨d, ds, heq, hd⟩ := h.head
    cases heq
    rw [hc] at hd
    cases hd
  cases s with
  | nil =>
    refine hbody (List.Subset.refl _) rfl (fun neg' body' n hs _ => ?_) .bare
    cases hs
    exact ⟨rfl, rfl⟩
  | cons c t =>
    by_cases hminus : c = '-'
    · subst hminus
      refine hbody (List.subset_cons_self _ _) ?_ (fun neg' body' n hs h => ?_) .minus
      · have hslice : sliceFrom (45 :: utf8 t) 1 = .ok (utf8 t) := sliceFrom_utf8 ['-'] t
        change leadingSign (45 :: utf8 t) = _
        simp only [leadingSign, hslice]
        rfl
      · cases hs with
        | bare => exact (hdigit rfl h).elim
        | minus => exact ⟨rfl, rfl⟩
    by_cases hplus : c = '+'
    · subst hplus
      refine hbody (List.subset_cons_self _ _) ?_ (fun neg' body' n hs h => ?_) .plus
      · have hslice : sliceFrom (43 :: utf8 t) 1 = .ok (utf8 t) := sliceFrom_utf8 ['+'] t
        change leadingSign (43 :: utf8 t) = _
        simp only [leadingSign, hslice]
        rfl
      · cases hs with
        | bare => exact (hdigit rfl h).elim
        | plus => exact ⟨rfl, rfl⟩
    refine hbody (List.Subset.refl _) (leadingSign_plain t hplus hminus) (fun neg' body' n hs _ => ?_)
      .bare
    cases hs with
    | bare => exact ⟨rfl, rfl⟩
    | plus => exact absurd rfl hplus
    | minus => exact absurd rfl hminus

end Body

theorem go_duration_exact (s : Text) (hdot : '.' ∉ s) :
    (∀ n, parseGoDuration (utf8 s) = .ok n ↔ IsDuration s n) ∧
      ((∀ n, ¬ IsDuration s n) → parseGoDuration (utf8 s) = .error .none) := by
  obtain ⟨hok, herr⟩ := parseGoDuration_decides hdot
  refine ⟨hok, fun hnot => ?_⟩
  cases hr : parseGoDuration (utf8 s) with
  | ok n => exact absurd ((hok n).mp hr) (hnot n)
  | error e => rw [herr e hr]

/-- The longest negative duration, in two terms. -/
theorem go_duration_exact_min :
    parseGoDuration (utf8 "-2562047h2836854775808ns".toList) = .ok (-2 ^ 63) := by
  have hdigits : "2836854775808".toList.all Char.isDigit = true := rfl
  have hnanos : Terms "2836854775808ns".toList (2836854775808 * 1 + 0) :=
    .cons (List.cons_ne_nil _ _) (List.all_eq_true.mp hdigits) .nano .nil
  have hdigits : "2562047".toList.all Char.isDigit = true := rfl
  have hhours : Terms "2562047h2836854775808ns".toList
      (2562047 * 3600000000000 + (2836854775808 * 1 + 0)) :=
    .cons (List.cons_ne_nil _ _) (List.all_eq_true.mp hdigits) .hour hnanos
  have hbody : IsBody true "2562047h2836854775808ns".toList (-2 ^ 63) :=
    ⟨_, .inr ⟨List.cons_ne_nil _ _, hhours⟩, .inr ⟨rfl, rfl⟩, rfl⟩
  exact ((go_duration_exact _ (by decide)).1 _).mpr ⟨true, _, .minus, hbody⟩

end Noa.Tunnel.Resolve
