import Noa.Tunnel.Resolve.Allowed

namespace Noa.Tunnel.Resolve
open Noa.Framework

section Numeral

theorem parseUnsigned_cons {bound : Nat} {c : Char} (hc : c ≠ '+') (cs : Text) :
    parseUnsigned bound (c :: cs) = parseDigits bound 0 (c :: cs) := by
  unfold parseUnsigned
  split
  · next h => cases h
  · next h => exact absurd (List.cons.inj h).1 hc
  · next h => exact absurd (List.cons.inj h).1 hc
  · rfl

/-- The first character the guard asks for in a longer prefix. -/
def startsNumber (b : Text) : Bool := b.head?.any fun c => decide ('1' ≤ c) && decide (c ≤ '9')

theorem startsNumber_cons {c : Char} {cs : Text} :
    startsNumber (c :: cs) = true ↔ c.isDigit = true ∧ c ≠ '0' := by
  have hzero : c = '0' ↔ c.toNat = 48 := (Char.toNat_inj (d := '0')).symm
  have hfrom : '1' ≤ c ↔ 49 ≤ c.toNat := Iff.rfl
  have hdigit : '0' ≤ c ↔ 48 ≤ c.toNat := Iff.rfl
  simp only [startsNumber, List.head?_cons, Option.any_some, Bool.and_eq_true, decide_eq_true_eq]
  rw [isDigit_iff, Ne, hzero, hfrom, hdigit]
  constructor
  · rintro ⟨hlow, hhigh⟩
    exact ⟨⟨by omega, hhigh⟩, by omega⟩
  · rintro ⟨⟨hlow, hhigh⟩, hne⟩
    exact ⟨by omega, hhigh⟩

theorem isDecimal_singleton {c : Char} : IsDecimal [c] ↔ c.isDigit = true := by
  simp [IsDecimal]

theorem isDecimal_cons_cons {c d : Char} {cs : Text} :
    IsDecimal (c :: d :: cs) ↔ startsNumber (c :: d :: cs) = true ∧
      ∀ x ∈ c :: d :: cs, x.isDigit = true := by
  rw [startsNumber_cons]
  simp only [IsDecimal, List.head?_cons, Option.some.injEq, List.length_cons]
  constructor
  · rintro ⟨-, hall, hzero⟩
    refine ⟨⟨hall c List.mem_cons_self, fun h => ?_⟩, hall⟩
    have hlen := hzero h
    omega
  · rintro ⟨⟨-, hne⟩, hall⟩
    exact ⟨List.cons_ne_nil _ _, hall, fun h => absurd h hne⟩

theorem parseDigits_decimal {p : Nat} {b : Text} : parseDigits 256 0 b = some p ↔
    (∀ c ∈ b, c.isDigit = true) ∧ p = decimalFrom 0 b ∧ p < 256 :=
  parseDigits_eq_some (by omega)

theorem digit_ne_plus {c : Char} (h : c.isDigit = true) : c ≠ '+' := by
  rintro rfl
  cases h

theorem utf8Size_digit {c : Char} (h : c.isDigit = true) : c.utf8Size = 1 := by
  have hle : c.toNat ≤ 57 := ((isDigit_iff c).mp h).2
  exact Char.utf8Size_eq_one_iff.mpr (show c.toNat ≤ 127 by omega)

/-- The guard and the number's own parser together take the numerals below the bound. -/
theorem guard_parseUnsigned {b : Text} {p : Nat} :
    (decide (1 < utf8Len b) && !startsNumber b) = false ∧ parseUnsigned 256 b = some p ↔
      IsDecimal b ∧ p = decimalFrom 0 b ∧ p < 256 := by
  match b with
  | [] => simp [parseUnsigned, IsDecimal]
  | [c] =>
    rw [isDecimal_singleton]
    by_cases hc : c.isDigit = true
    · have hlen : ¬ 1 < utf8Len [c] := by simp [utf8Len, utf8Size_digit hc]
      rw [parseUnsigned_cons (digit_ne_plus hc), parseDigits_decimal]
      simp [hlen, hc]
    · have hnone (h : parseUnsigned 256 [c] = some p) : False := by
        by_cases hplus : c = '+'
        · subst hplus
          cases h
        · rw [parseUnsigned_cons hplus, parseDigits_decimal] at h
          exact hc (h.1 c List.mem_cons_self)
      exact iff_of_false (fun h => hnone h.2) fun h => hc h.1
  | c :: d :: cs =>
    have hlen : 1 < utf8Len (c :: d :: cs) := by
      have hc := c.utf8Size_pos
      have hd := d.utf8Size_pos
      simp only [utf8Len, List.map_cons, List.sum_cons]
      omega
    rw [isDecimal_cons_cons]
    by_cases hstart : startsNumber (c :: d :: cs) = true
    · have hplus := digit_ne_plus (startsNumber_cons.mp hstart).1
      rw [parseUnsigned_cons hplus, parseDigits_decimal]
      simp [hstart]
    · simp [hlen, hstart]

end Numeral

section Mapped

/-- The IPv6 form `::ffff:w.x.y.z` of an IPv4 address. -/
def mapped (v4 : BitVec 32) : BitVec 128 := 0xffff#96 ++ v4

theorem toNat_mapped (v4 : BitVec 32) : (mapped v4).toNat = 0xffff * 2 ^ 32 + v4.toNat := by
  rw [mapped, BitVec.toNat_append, ← Nat.shiftLeft_add_eq_or_of_lt v4.isLt, Nat.shiftLeft_eq]
  rfl

theorem shiftRight_eq_iff {bits : BitVec 128} :
    bits >>> 32 = 0xffff#128 ↔ bits = mapped (bits.setWidth 32) := by
  have hhigh : (0xffff#128).toNat = 0xffff := rfl
  rw [BitVec.toNat_eq, BitVec.toNat_eq, toNat_mapped, BitVec.toNat_ushiftRight,
    Nat.shiftRight_eq_div_pow, BitVec.toNat_setWidth, hhigh]
  omega

theorem setWidth_mapped (v4 : BitVec 32) : (mapped v4).setWidth 32 = v4 := by
  rw [BitVec.toNat_eq, BitVec.toNat_setWidth, toNat_mapped]
  have hlt := v4.isLt
  omega

theorem unmapV4Mapped_mapped (v4 : BitVec 32) (p : Nat) :
    unmapV4Mapped (.v6 (mapped v4)) p = (.v4 v4, p - 96) := by
  have hcheck : mapped v4 >>> 32 = 0xffff#128 := by rw [shiftRight_eq_iff, setWidth_mapped]
  rw [unmapV4Mapped, if_pos hcheck, setWidth_mapped]

theorem unmapV4Mapped_v6 {bits : BitVec 128} (h : ∀ v4, bits ≠ mapped v4) (p : Nat) :
    unmapV4Mapped (.v6 bits) p = (.v6 bits, p) := by
  rw [unmapV4Mapped, if_neg fun hcheck => h _ (shiftRight_eq_iff.mp hcheck)]

end Mapped

/-- The address an entry is written with, and its prefix length: all of a bare address. -/
inductive Denotes : Text → IpAddr → Nat → Prop
  | bare {e : Text} {ip : IpAddr} (hip : IpAddr.fromStr e = some ip) : Denotes e ip ip.width
  | cidr {a b : Text} {ip : IpAddr} (hip : IpAddr.fromStr a = some ip) (hb : IsDecimal b) :
    Denotes (a ++ '/' :: b) ip (decimalFrom 0 b)

/-- The prefix is no longer than an address of the network's family. -/
inductive Fits : IpAddr → Nat → Prop
  | v4 {x : BitVec 32} {p : Nat} (hp : p ≤ 32) : Fits (.v4 x) p
  | mapped {x : BitVec 32} {p : Nat} (hp : p - 96 ≤ 32) : Fits (.v6 (mapped x)) p
  | v6 {x : BitVec 128} {p : Nat} (hx : ∀ v4, x ≠ Resolve.mapped v4) (hp : p ≤ 128) : Fits (.v6 x) p

/-- The addresses in a network; those of a mapped one are IPv4 addresses. -/
inductive Covers : IpAddr → Nat → IpAddr → Prop
  | v4 {x y : BitVec 32} {p : Nat} (hxy : SameLeading p x y) : Covers (.v4 x) p (.v4 y)
  | mapped {x y : BitVec 32} {p : Nat} (hxy : SameLeading (p - 96) x y) :
    Covers (.v6 (mapped x)) p (.v4 y)
  | v6 {x y : BitVec 128} {p : Nat} (hx : ∀ v4, x ≠ Resolve.mapped v4) (hxy : SameLeading p x y) :
    Covers (.v6 x) p (.v6 y)

theorem mapped_cases (ip : IpAddr) : (∃ x, ip = .v4 x) ∨ (∃ x, ip = .v6 (mapped x)) ∨
    ∃ x, ip = .v6 x ∧ ∀ v4, x ≠ mapped v4 := by
  cases ip with
  | v4 x => exact .inl ⟨x, rfl⟩
  | v6 x =>
    by_cases hx : ∃ v4, x = mapped v4
    · obtain ⟨v4, rfl⟩ := hx
      exact .inr (.inl ⟨v4, rfl⟩)
    · exact .inr (.inr ⟨x, rfl, fun v4 h => hx ⟨v4, h⟩⟩)

/-- The network made of an address and a prefix, after the mapped form is taken away. -/
def netOf (ip : IpAddr) (p : Nat) : Option IpNet :=
  IpNet.new (unmapV4Mapped ip p).1 (unmapV4Mapped ip p).2

theorem netOf_v4 (x : BitVec 32) (p : Nat) : netOf (.v4 x) p = IpNet.new (.v4 x) p := rfl

theorem netOf_mapped (x : BitVec 32) (p : Nat) :
    netOf (.v6 (mapped x)) p = IpNet.new (.v4 x) (p - 96) := by
  rw [netOf, unmapV4Mapped_mapped]

theorem netOf_v6 {x : BitVec 128} (hx : ∀ v4, x ≠ mapped v4) (p : Nat) :
    netOf (.v6 x) p = IpNet.new (.v6 x) p := by
  rw [netOf, unmapV4Mapped_v6 hx]

theorem mapped_injective {x y : BitVec 32} (h : mapped x = mapped y) : x = y := by
  rw [← setWidth_mapped x, h, setWidth_mapped]

theorem new_v4_isSome (x : BitVec 32) (p : Nat) : (IpNet.new (.v4 x) p).isSome = true ↔ p ≤ 32 := by
  rw [IpNet.new]
  split_ifs with hp <;> simp [hp]

theorem new_v6_isSome (x : BitVec 128) (p : Nat) :
    (IpNet.new (.v6 x) p).isSome = true ↔ p ≤ 128 := by
  rw [IpNet.new]
  split_ifs with hp <;> simp [hp]

theorem new_v4_contains {x : BitVec 32} {p : Nat} {net : IpNet} (h : IpNet.new (.v4 x) p = some net)
    (a : IpAddr) : net.contains a = true ↔ ∃ y, a = .v4 y ∧ SameLeading p x y := by
  rw [IpNet.new] at h
  split_ifs at h with hp
  cases h
  cases a with
  | v4 y => simp [IpNet.contains, Net.contains_iff_sameLeading]
  | v6 y => simp [IpNet.contains]

theorem new_v6_contains {x : BitVec 128} {p : Nat} {net : IpNet} (h : IpNet.new (.v6 x) p = some net)
    (a : IpAddr) : net.contains a = true ↔ ∃ y, a = .v6 y ∧ SameLeading p x y := by
  rw [IpNet.new] at h
  split_ifs at h with hp
  cases h
  cases a with
  | v4 y => simp [IpNet.contains]
  | v6 y => simp [IpNet.contains, Net.contains_iff_sameLeading]

theorem netOf_isSome (ip : IpAddr) (p : Nat) : (netOf ip p).isSome = true ↔ Fits ip p := by
  obtain ⟨x, rfl⟩ | ⟨x, rfl⟩ | ⟨x, rfl, hx⟩ := mapped_cases ip
  · rw [netOf_v4, new_v4_isSome]
    exact ⟨.v4, fun | .v4 hp => hp⟩
  · rw [netOf_mapped, new_v4_isSome]
    refine ⟨.mapped, fun h => ?_⟩
    generalize hx : mapped x = bits at h
    cases h with
    | mapped hp => exact hp
    | v6 hne => exact absurd hx.symm (hne x)
  · rw [netOf_v6 hx, new_v6_isSome]
    refine ⟨.v6 hx, fun h => ?_⟩
    cases h with
    | mapped hp => exact absurd rfl (hx _)
    | v6 _ hp => exact hp

theorem netOf_contains {ip : IpAddr} {p : Nat} {net : IpNet} (h : netOf ip p = some net)
    (a : IpAddr) : net.contains a = true ↔ Covers ip p a := by
  obtain ⟨x, rfl⟩ | ⟨x, rfl⟩ | ⟨x, rfl, hx⟩ := mapped_cases ip
  · rw [netOf_v4] at h
    rw [new_v4_contains h]
    exact ⟨fun ⟨_, ha, hxy⟩ => ha ▸ .v4 hxy, fun | .v4 hxy => ⟨_, rfl, hxy⟩⟩
  · rw [netOf_mapped] at h
    rw [new_v4_contains h]
    refine ⟨fun ⟨_, ha, hxy⟩ => ha ▸ .mapped hxy, fun h => ?_⟩
    generalize hx : mapped x = bits at h
    cases h with
    | mapped hxy => exact ⟨_, rfl, mapped_injective hx ▸ hxy⟩
    | v6 hne => exact absurd hx.symm (hne x)
  · rw [netOf_v6 hx] at h
    rw [new_v6_contains h]
    refine ⟨fun ⟨_, ha, hxy⟩ => ha ▸ .v6 hx hxy, fun h => ?_⟩
    cases h with
    | mapped hxy => exact absurd rfl (hx _)
    | v6 _ hxy => exact ⟨_, rfl, hxy⟩

theorem contains_family (net : IpNet) (x : BitVec 32) (y : BitVec 128) :
    ¬ (net.contains (.v4 x) = true ∧ net.contains (.v6 y) = true) := by
  cases net with
  | v4 net => exact fun h => Bool.false_ne_true h.2
  | v6 net => exact fun h => Bool.false_ne_true h.1

section Entry

theorem parseIpOrCidr_bare {e : Text} (he : '/' ∉ e) :
    parseIpOrCidr e = (IpAddr.fromStr e).bind fun ip => netOf ip ip.width := by
  unfold parseIpOrCidr
  rw [splitOnce_eq_none.mpr he]
  dsimp only [Option.any_none]
  rw [if_neg Bool.false_ne_true]
  cases IpAddr.fromStr e with
  | none => rfl
  | some ip => cases ip <;> rfl

theorem parseIpOrCidr_cidr {a : Text} (ha : '/' ∉ a) (b : Text) :
    parseIpOrCidr (a ++ '/' :: b) = if (decide (1 < utf8Len b) && !startsNumber b) = true then none
      else (IpAddr.fromStr a).bind fun ip => (parseUnsigned 256 b).bind fun p => netOf ip p := by
  unfold parseIpOrCidr
  rw [splitOnce_append ha]
  dsimp only [Option.any_some]
  change (if (decide (1 < utf8Len b) && !startsNumber b) = true then none else _) = _
  split_ifs
  · rfl
  · cases IpAddr.fromStr a with
    | none => rfl
    | some ip => cases ip <;> rfl

theorem slash_cases (e : Text) : '/' ∉ e ∨ ∃ a b, '/' ∉ a ∧ e = a ++ '/' :: b := by
  cases h : splitOnce '/' e with
  | none => exact .inl (splitOnce_eq_none.mp h)
  | some r => exact .inr ⟨r.1, r.2, splitOnce_eq_some h⟩

theorem denotes_bare {e : Text} {ip : IpAddr} {p : Nat} (he : '/' ∉ e) :
    Denotes e ip p ↔ IpAddr.fromStr e = some ip ∧ p = ip.width := by
  constructor
  · rintro (hip | ⟨hip, hb⟩)
    · exact ⟨hip, rfl⟩
    · simp at he
  · rintro ⟨hip, rfl⟩
    exact .bare hip

theorem denotes_cidr {a b : Text} {ip : IpAddr} {p : Nat} (ha : '/' ∉ a) :
    Denotes (a ++ '/' :: b) ip p ↔
      IpAddr.fromStr a = some ip ∧ IsDecimal b ∧ p = decimalFrom 0 b := by
  constructor
  · intro h
    generalize he : a ++ '/' :: b = e at h
    cases h with
    | bare hip =>
      subst he
      simpa using IpAddr.slash_not_mem hip
    | @cidr a' b' _ hip hb =>
      -- the address has no slash, so both texts are cut at the same one
      have hcut := splitOnce_append (IpAddr.slash_not_mem hip) b'
      rw [← he, splitOnce_append ha] at hcut
      cases hcut
      exact ⟨hip, hb, rfl⟩
  · rintro ⟨hip, hb, rfl⟩
    exact .cidr hip hb

theorem Denotes.unique {e : Text} {ip ip' : IpAddr} {p p' : Nat} (h : Denotes e ip p)
    (h' : Denotes e ip' p') : ip = ip' ∧ p = p' := by
  obtain he | ⟨a, b, ha, rfl⟩ := slash_cases e
  · obtain ⟨hip, rfl⟩ := (denotes_bare he).mp h
    obtain ⟨hip', rfl⟩ := (denotes_bare he).mp h'
    cases hip.symm.trans hip'
    exact ⟨rfl, rfl⟩
  · obtain ⟨hip, -, rfl⟩ := (denotes_cidr ha).mp h
    obtain ⟨hip', -, rfl⟩ := (denotes_cidr ha).mp h'
    cases hip.symm.trans hip'
    exact ⟨rfl, rfl⟩

theorem Fits.lt {ip : IpAddr} {p : Nat} (h : Fits ip p) : p < 256 := by
  cases h <;> omega

/-- The parser takes the entries that denote a network, and makes that network of them. -/
theorem parseIpOrCidr_eq_some {e : Text} {net : IpNet} : parseIpOrCidr e = some net ↔
    ∃ ip p, Denotes e ip p ∧ netOf ip p = some net := by
  obtain he | ⟨a, b, ha, rfl⟩ := slash_cases e
  · rw [parseIpOrCidr_bare he, Option.bind_eq_some_iff]
    constructor
    · rintro ⟨ip, hip, hnet⟩
      exact ⟨ip, ip.width, .bare hip, hnet⟩
    · rintro ⟨ip, p, hden, hnet⟩
      obtain ⟨hip, rfl⟩ := (denotes_bare he).mp hden
      exact ⟨ip, hip, hnet⟩
  · rw [parseIpOrCidr_cidr ha]
    constructor
    · intro h
      split_ifs at h with hguard
      obtain ⟨ip, hip, h⟩ := Option.bind_eq_some_iff.mp h
      obtain ⟨p, hp, hnet⟩ := Option.bind_eq_some_iff.mp h
      obtain ⟨hb, hval, -⟩ := guard_parseUnsigned.mp ⟨Bool.eq_false_iff.mpr hguard, hp⟩
      exact ⟨ip, p, (denotes_cidr ha).mpr ⟨hip, hb, hval⟩, hnet⟩
    · rintro ⟨ip, p, hden, hnet⟩
      obtain ⟨hip, hb, hval⟩ := (denotes_cidr ha).mp hden
      have hfits : Fits ip p := (netOf_isSome ip p).mp (Option.isSome_iff_exists.mpr ⟨net, hnet⟩)
      obtain ⟨hguard, hp⟩ := guard_parseUnsigned.mpr ⟨hb, hval, hfits.lt⟩
      rw [if_neg (Bool.eq_false_iff.mp hguard), hip, hp]
      exact hnet

end Entry

theorem cidr_entry_semantics (e : Text) :
    ((parseIpOrCidr e).isSome = true ↔ ∃ ip p, Denotes e ip p ∧ Fits ip p) ∧
    ∀ net, parseIpOrCidr e = some net →
      (∀ ip p, Denotes e ip p → ∀ a, net.contains a = true ↔ Covers ip p a) ∧
      ∀ x y, ¬ (net.contains (.v4 x) = true ∧ net.contains (.v6 y) = true) := by
  constructor
  · rw [Option.isSome_iff_exists]
    constructor
    · rintro ⟨net, hnet⟩
      obtain ⟨ip, p, hden, hof⟩ := parseIpOrCidr_eq_some.mp hnet
      exact ⟨ip, p, hden, (netOf_isSome ip p).mp (Option.isSome_iff_exists.mpr ⟨net, hof⟩)⟩
    · rintro ⟨ip, p, hden, hfits⟩
      obtain ⟨net, hof⟩ := Option.isSome_iff_exists.mp ((netOf_isSome ip p).mpr hfits)
      exact ⟨net, parseIpOrCidr_eq_some.mpr ⟨ip, p, hden, hof⟩⟩
  · intro net hnet
    refine ⟨fun ip p hden a => ?_, contains_family net⟩
    obtain ⟨ip', p', hden', hof⟩ := parseIpOrCidr_eq_some.mp hnet
    obtain ⟨rfl, rfl⟩ := hden.unique hden'
    exact netOf_contains hof a

/-- A prefix that ends inside the mapping leaves every IPv4 address, and nothing else. -/
theorem cidr_entry_semantics_short_mapped :
    let net := IpNet.v4 ⟨0x0a000000#32, 0, Nat.zero_le 32⟩
    parseIpOrCidr "::ffff:10.0.0.0/64".toList = some net ∧
      ∀ a, net.contains a = true ↔ Covers (.v6 (mapped 0x0a000000#32)) 64 a := by
  have hnet : parseIpOrCidr "::ffff:10.0.0.0/64".toList =
      some (.v4 ⟨0x0a000000#32, 0, Nat.zero_le 32⟩) := by decide +kernel
  have hip : IpAddr.fromStr "::ffff:10.0.0.0".toList = some (.v6 (mapped 0x0a000000#32)) := by
    decide +kernel
  have hden : Denotes "::ffff:10.0.0.0/64".toList (.v6 (mapped 0x0a000000#32)) 64 :=
    Denotes.cidr hip (show IsDecimal ['6', '4'] by decide)
  exact ⟨hnet, ((cidr_entry_semantics _).2 _ hnet).1 _ _ hden⟩

end Noa.Tunnel.Resolve
