import Noa.Framework.IpPrint
import Noa.Framework.Octets
import Noa.Framework.Selection

namespace Noa.Tunnel.Resolve
open Noa.Framework

structure AddressTranslation where
  fromAddr : Text
  toAddr : Text
  prefixLength : UInt8

structure AddressTranslationPrefix where
  fromAddr : IpAddr
  toAddr : IpAddr
  bits : UInt8

/-- Are the first `bits` bits equal? -/
def maskedEq (x y : List (BitVec 8)) (bits : Nat) : Bool :=
  let full := bits / 8
  if x.take full ≠ y.take full then false
  else
    let rem := bits % 8
    if rem = 0 then true
    else
      let mask := ~~~ (0xff#8 >>> rem)
      x.getD full 0 &&& mask == y.getD full 0 &&& mask

/-- The bits of `toAddr` under the mask, and those of `ip` behind it. -/
def renumber (ip toAddr : List (BitVec 8)) (bits : Nat) : List (BitVec 8) :=
  (List.range ip.length).map fun i =>
    let maskByte :=
      if i * 8 < bits then
        let bitsLeft := bits - i * 8
        if bitsLeft < 8 then ~~~ (0xff#8 >>> bitsLeft) else 0xff#8
      else 0#8
    toAddr.getD i 0 &&& maskByte ||| ip.getD i 0 &&& ~~~ maskByte

def prefixContains (fromAddr : IpAddr) (bits : UInt8) (ip : IpAddr) : Bool :=
  match fromAddr, ip with
  | .v4 f, .v4 a => decide (bits ≤ 32) && maskedEq (octets 4 f) (octets 4 a) bits.toNat
  | .v6 f, .v6 a => decide (bits ≤ 128) && maskedEq (octets 16 f) (octets 16 a) bits.toNat
  | _, _ => false

/-- The address in the other network; none across families. -/
def translateIp (ip toAddr : IpAddr) (bits : UInt8) : Option IpAddr :=
  match ip, toAddr with
  | .v4 a, .v4 t => some (.v4 (ofOctets 4 (renumber (octets 4 a) (octets 4 t) bits.toNat)))
  | .v6 a, .v6 t => some (.v6 (ofOctets 16 (renumber (octets 16 a) (octets 16 t) bits.toNat)))
  | _, _ => none

def parseTranslation (x : AddressTranslation) : Except Text AddressTranslationPrefix :=
  match IpAddr.fromStr x.fromAddr, IpAddr.fromStr x.toAddr with
  | none, _ =>
    .error ("failed to parse 'from' address translation '".toList ++ x.fromAddr ++ "'".toList)
  | some _, none =>
    .error ("failed to parse 'to' address translation '".toList ++ x.toAddr ++ "'".toList)
  | some fromAddr, some toAddr => .ok ⟨fromAddr, toAddr, x.prefixLength⟩

/-- The translations of a host, the longest prefix first. The sort is stable. -/
def buildAddressTranslations (forwardAddress : Bool) (translations : List AddressTranslation) :
    Except Text (List AddressTranslationPrefix) :=
  if !forwardAddress || translations.isEmpty then .ok []
  else do
    let out ← translations.mapM parseTranslation
    return sortDesc (fun t => t.bits.toNat) out

/-- The first translation that contains an address renumbers it; `print` is how addresses are
written. -/
def translateAddress (print : IpAddr → Text) (address : Text)
    (translations : List AddressTranslationPrefix) : Text :=
  match IpAddr.fromStr address with
  | none => address
  | some ip =>
    let translated := translations.findSome? fun t =>
      if prefixContains t.fromAddr t.bits ip then translateIp ip t.toAddr t.bits else none
    match translated with
    | some ip => print ip
    | none => address

section Bits

theorem getMsbD_topMask (k : Nat) {r : Nat} (hr : r < 8) :
    (~~~ (0xff#8 >>> k)).getMsbD r = decide (r < k) := by
  have hones : 0xff#8 = BitVec.allOnes 8 := rfl
  rw [BitVec.getMsbD_not, BitVec.getMsbD_ushiftRight, hones]
  simp only [BitVec.getMsbD, BitVec.getLsbD_allOnes]
  by_cases hk : r < k
  · simp [hr, hk]
  · have hsub : r - k < 8 := by omega
    simp [hr, hk, hsub]
    omega

theorem octet_eq_iff {n j : Nat} (hj : j < n) (x y : BitVec (8 * n)) :
    (octets n x).getD j 0 = (octets n y).getD j 0 ↔
      ∀ r < 8, x.getMsbD (8 * j + r) = y.getMsbD (8 * j + r) := by
  constructor
  · intro h r hr
    rw [← getMsbD_octet x hj hr, h, getMsbD_octet y hj hr]
  · intro h
    refine BitVec.eq_of_getMsbD_eq fun r hr => ?_
    rw [getMsbD_octet x hj hr, getMsbD_octet y hj hr, h r hr]

theorem take_octets_eq {n k : Nat} (hk : k ≤ n) (x y : BitVec (8 * n)) :
    (octets n x).take k = (octets n y).take k ↔ SameLeading (8 * k) x y := by
  have hget (z : BitVec (8 * n)) {j : Nat} (hj : j < k) :
      ((octets n z).take k).getD j 0 = (octets n z).getD j 0 := by
    rw [List.getD_eq_getElem?_getD, List.getElem?_take_of_lt hj, List.getD_eq_getElem?_getD]
  constructor
  · intro h i hi
    have hbyte := congrArg (fun l => l.getD (i / 8) 0) h
    simp only [hget _ (show i / 8 < k by omega)] at hbyte
    have hbit := (octet_eq_iff (by omega) x y).mp hbyte (i % 8) (by omega)
    rwa [Nat.div_add_mod] at hbit
  · intro h
    refine List.ext_getElem (by simp) fun j hj hj' => ?_
    have hjk : j < k := by
      rw [List.length_take, length_octets] at hj
      omega
    have hbyte := (octet_eq_iff (by omega) x y).mpr fun r hr => h (8 * j + r) (by omega)
    rw [← hget x hjk, ← hget y hjk] at hbyte
    rwa [List.getD_eq_getElem _ _ hj, List.getD_eq_getElem _ _ hj'] at hbyte

theorem masked_octet_eq {n j k : Nat} (hj : j < n) (x y : BitVec (8 * n)) (hk : k ≤ 8) :
    (octets n x).getD j 0 &&& ~~~ (0xff#8 >>> k) = (octets n y).getD j 0 &&& ~~~ (0xff#8 >>> k) ↔
      ∀ r < k, x.getMsbD (8 * j + r) = y.getMsbD (8 * j + r) := by
  constructor
  · intro h r hr
    have hbit := congrArg (BitVec.getMsbD · r) h
    simp only [BitVec.getMsbD_and, getMsbD_topMask k (show r < 8 by omega),
      getMsbD_octet _ hj (show r < 8 by omega)] at hbit
    simpa [hr] using hbit
  · intro h
    refine BitVec.eq_of_getMsbD_eq fun r hr => ?_
    rw [BitVec.getMsbD_and, BitVec.getMsbD_and, getMsbD_topMask k hr, getMsbD_octet x hj hr,
      getMsbD_octet y hj hr]
    by_cases hrk : r < k
    · rw [h r hrk]
    · simp [hrk]

theorem maskedEq_octets {n bits : Nat} (hbits : bits ≤ 8 * n) (x y : BitVec (8 * n)) :
    maskedEq (octets n x) (octets n y) bits = true ↔ SameLeading bits x y := by
  have hfull := take_octets_eq (show bits / 8 ≤ n by omega) x y
  have hsplit := Nat.div_add_mod bits 8
  unfold maskedEq
  by_cases heq : SameLeading (8 * (bits / 8)) x y
  · rw [if_neg (not_not.mpr (hfull.mpr heq))]
    by_cases hrem : bits % 8 = 0
    · rw [if_pos hrem]
      rw [hrem, Nat.add_zero] at hsplit
      exact iff_of_true rfl (hsplit ▸ heq)
    · rw [if_neg hrem, beq_iff_eq, masked_octet_eq (by omega) x y (by omega)]
      constructor
      · intro h i hi
        by_cases hlow : i < 8 * (bits / 8)
        · exact heq i hlow
        · have hbit := h (i - 8 * (bits / 8)) (by omega)
          rwa [Nat.add_sub_cancel' (by omega)] at hbit
      · intro h r hr
        exact h _ (by omega)
  · rw [if_pos (mt hfull.mp heq)]
    exact iff_of_false Bool.false_ne_true fun h => heq fun i hi => h i (by omega)

theorem length_renumber (ip toAddr : List (BitVec 8)) (bits : Nat) :
    (renumber ip toAddr bits).length = ip.length := by simp [renumber]

theorem getMsbD_maskByte (bits i : Nat) {r : Nat} (hr : r < 8) :
    (if i * 8 < bits then if bits - i * 8 < 8 then ~~~ (0xff#8 >>> (bits - i * 8)) else 0xff#8
      else 0#8).getMsbD r = decide (8 * i + r < bits) := by
  have hones : 0xff#8 = BitVec.allOnes 8 := rfl
  split_ifs with hin hpart
  · rw [getMsbD_topMask _ hr]
    exact decide_eq_decide.mpr (by omega)
  · have hlt : 8 * i + r < bits := by omega
    have hbit : 7 - r < 8 := by omega
    rw [hones, BitVec.getMsbD, BitVec.getLsbD_allOnes]
    simp [hr, hlt, hbit]
  · have hlt : ¬ 8 * i + r < bits := by omega
    simp [hlt]

theorem getMsbD_renumber {n : Nat} (ip toAddr : BitVec (8 * n)) (bits : Nat) {i : Nat}
    (hi : i < 8 * n) :
    (ofOctets n (renumber (octets n ip) (octets n toAddr) bits)).getMsbD i =
      if i < bits then toAddr.getMsbD i else ip.getMsbD i := by
  have hdiv : i / 8 < n := by omega
  have hmod : i % 8 < 8 := by omega
  have hpos : 8 * (i / 8) + i % 8 = i := Nat.div_add_mod i 8
  have hlen : (renumber (octets n ip) (octets n toAddr) bits).length = n := by
    rw [length_renumber, length_octets]
  rw [getMsbD_ofOctets hlen hi, List.getD_eq_getElem _ _ (by omega)]
  simp only [renumber, List.getElem_map, List.getElem_range]
  rw [BitVec.getMsbD_or, BitVec.getMsbD_and, BitVec.getMsbD_and, BitVec.getMsbD_not,
    getMsbD_maskByte bits (i / 8) hmod, hpos, getMsbD_octets _ hi, getMsbD_octets _ hi]
  by_cases hlt : i < bits <;> simp [hlt, hmod]

end Bits

/-- The address is in the translation's network, and of one family with both of its ends. -/
def Applies (t : AddressTranslationPrefix) (ip : IpAddr) : Prop :=
  match t.fromAddr, t.toAddr, ip with
  | .v4 f, .v4 _, .v4 a => t.bits.toNat ≤ 32 ∧ SameLeading t.bits.toNat f a
  | .v6 f, .v6 _, .v6 a => t.bits.toNat ≤ 128 ∧ SameLeading t.bits.toNat f a
  | _, _, _ => False

/-- The leading bits of the translation's target, the others of the address. -/
def Renumbers (t : AddressTranslationPrefix) (ip result : IpAddr) : Prop :=
  match t.toAddr, ip, result with
  | .v4 d, .v4 a, .v4 r =>
    SameLeading t.bits.toNat r d ∧ ∀ i, t.bits.toNat ≤ i → r.getMsbD i = a.getMsbD i
  | .v6 d, .v6 a, .v6 r =>
    SameLeading t.bits.toNat r d ∧ ∀ i, t.bits.toNat ≤ i → r.getMsbD i = a.getMsbD i
  | _, _, _ => False

section Step

/-- What one translation makes of an address. -/
def translateOne (ip : IpAddr) (t : AddressTranslationPrefix) : Option IpAddr :=
  if prefixContains t.fromAddr t.bits ip then translateIp ip t.toAddr t.bits else none

theorem renumber_spec {n p : Nat} (hp : p ≤ 8 * n) (ip toAddr : BitVec (8 * n)) :
    SameLeading p (ofOctets n (renumber (octets n ip) (octets n toAddr) p)) toAddr ∧
      ∀ i, p ≤ i →
        (ofOctets n (renumber (octets n ip) (octets n toAddr) p)).getMsbD i = ip.getMsbD i := by
  constructor
  · intro i hi
    rw [getMsbD_renumber ip toAddr p (by omega), if_pos hi]
  · intro i hi
    by_cases hlt : i < 8 * n
    · rw [getMsbD_renumber ip toAddr p hlt, if_neg (by omega)]
    · simp [BitVec.getMsbD, hlt]

theorem prefixContains_v4 {f a : BitVec 32} {bits : UInt8} :
    prefixContains (.v4 f) bits (.v4 a) = true ↔ bits.toNat ≤ 32 ∧ SameLeading bits.toNat f a := by
  have hle : bits ≤ 32 ↔ bits.toNat ≤ 32 := UInt8.le_iff_toNat_le
  rw [prefixContains, Bool.and_eq_true, decide_eq_true_eq, hle]
  exact and_congr_right fun h => maskedEq_octets (n := 4) h f a

theorem prefixContains_v6 {f a : BitVec 128} {bits : UInt8} :
    prefixContains (.v6 f) bits (.v6 a) = true ↔ bits.toNat ≤ 128 ∧ SameLeading bits.toNat f a := by
  have hle : bits ≤ 128 ↔ bits.toNat ≤ 128 := UInt8.le_iff_toNat_le
  rw [prefixContains, Bool.and_eq_true, decide_eq_true_eq, hle]
  exact and_congr_right fun h => maskedEq_octets (n := 16) h f a

theorem isSome_ite {α : Type} (c : Bool) (a : α) :
    (if c = true then some a else none).isSome = true ↔ c = true := by
  cases c <;> simp

theorem translateOne_isSome (ip : IpAddr) (t : AddressTranslationPrefix) :
    (translateOne ip t).isSome = true ↔ Applies t ip := by
  obtain ⟨fromAddr, toAddr, bits⟩ := t
  cases fromAddr <;> cases toAddr <;> cases ip
  case v4.v4.v4 f d a => exact (isSome_ite _ _).trans prefixContains_v4
  case v6.v6.v6 f d a => exact (isSome_ite _ _).trans prefixContains_v6
  all_goals simp [translateOne, prefixContains, translateIp, Applies]

theorem renumbers_of_translateOne {ip r : IpAddr} {t : AddressTranslationPrefix}
    (h : translateOne ip t = some r) : Renumbers t ip r := by
  have happlies := (translateOne_isSome ip t).mp (h ▸ rfl)
  obtain ⟨fromAddr, toAddr, bits⟩ := t
  cases fromAddr <;> cases toAddr <;> cases ip
  case v4.v4.v4 f d a =>
    rw [translateOne, if_pos (prefixContains_v4.mpr happlies)] at h
    cases h
    exact renumber_spec (n := 4) happlies.1 a d
  case v6.v6.v6 f d a =>
    rw [translateOne, if_pos (prefixContains_v6.mpr happlies)] at h
    cases h
    exact renumber_spec (n := 16) happlies.1 a d
  all_goals exact happlies.elim

/-- A translation the other way round. -/
def AddressTranslationPrefix.swap (t : AddressTranslationPrefix) : AddressTranslationPrefix :=
  ⟨t.toAddr, t.fromAddr, t.bits⟩

theorem eq_of_leading {w p : Nat} {a f r b : BitVec w} (ha : SameLeading p f a)
    (hr : ∀ i, p ≤ i → r.getMsbD i = a.getMsbD i) (hb : SameLeading p b f)
    (hbr : ∀ i, p ≤ i → b.getMsbD i = r.getMsbD i) : b = a := by
  refine BitVec.eq_of_getMsbD_eq fun i _ => ?_
  by_cases hi : i < p
  · rw [hb i hi, ha i hi]
  · rw [hbr i (by omega), hr i (by omega)]

theorem translateOne_swap {ip r : IpAddr} {t : AddressTranslationPrefix}
    (h : translateOne ip t = some r) : translateOne r t.swap = some ip := by
  have happlies := (translateOne_isSome ip t).mp (h ▸ rfl)
  have hr := renumbers_of_translateOne h
  have hback : Applies t.swap r := by
    obtain ⟨fromAddr, toAddr, bits⟩ := t
    cases fromAddr <;> cases toAddr <;> cases ip <;> cases r
    case v4.v4.v4.v4 => exact ⟨happlies.1, fun i hi => (hr.1 i hi).symm⟩
    case v6.v6.v6.v6 => exact ⟨happlies.1, fun i hi => (hr.1 i hi).symm⟩
    all_goals first | exact happlies.elim | exact hr.elim
  obtain ⟨b, hb⟩ := Option.isSome_iff_exists.mp ((translateOne_isSome r t.swap).mpr hback)
  have hb' := renumbers_of_translateOne hb
  rw [hb]
  obtain ⟨fromAddr, toAddr, bits⟩ := t
  cases fromAddr <;> cases toAddr <;> cases ip <;> cases r <;> cases b
  case v4.v4.v4.v4.v4 => rw [eq_of_leading happlies.2 hr.2 hb'.1 hb'.2]
  case v6.v6.v6.v6.v6 => rw [eq_of_leading happlies.2 hr.2 hb'.1 hb'.2]
  all_goals first | exact happlies.elim | exact hr.elim | exact hb'.elim

end Step

section Build

/-- A configured translation whose texts are these addresses. -/
structure Parses (x : AddressTranslation) (t : AddressTranslationPrefix) : Prop where
  fromAddr : IpAddr.fromStr x.fromAddr = some t.fromAddr
  toAddr : IpAddr.fromStr x.toAddr = some t.toAddr
  bits : x.prefixLength = t.bits

/-- The configured translation the other way round. -/
def AddressTranslation.swap (x : AddressTranslation) : AddressTranslation :=
  ⟨x.toAddr, x.fromAddr, x.prefixLength⟩

theorem Parses.swap {x : AddressTranslation} {t : AddressTranslationPrefix} (h : Parses x t) :
    Parses x.swap t.swap :=
  ⟨h.toAddr, h.fromAddr, h.bits⟩

theorem mapM_parseTranslation {xs : List AddressTranslation} {ts : List AddressTranslationPrefix}
    (h : List.Forall₂ Parses xs ts) : xs.mapM parseTranslation = .ok ts := by
  induction h with
  | nil => rfl
  | @cons x t xs ts hx _ ih =>
    have hparse : parseTranslation x = .ok t := by
      rw [parseTranslation, hx.fromAddr, hx.toAddr, hx.bits]
    rw [List.mapM_cons, hparse, ih]
    rfl

theorem build_forwarded {xs : List AddressTranslation} {ts : List AddressTranslationPrefix}
    (h : List.Forall₂ Parses xs ts) :
    buildAddressTranslations true xs = .ok (sortDesc (fun t => t.bits.toNat) ts) := by
  unfold buildAddressTranslations
  cases h with
  | nil => simp [sortDesc]
  | cons hx hxs =>
    rw [mapM_parseTranslation (.cons hx hxs)]
    rfl

theorem translateAddress_of_ip {print : IpAddr → Text} {address : Text} {ip : IpAddr}
    (hip : IpAddr.fromStr address = some ip) (ts : List AddressTranslationPrefix) :
    translateAddress print address ts = ((ts.findSome? (translateOne ip)).map print).getD address := by
  unfold translateAddress
  rw [hip]
  change (match ts.findSome? (translateOne ip) with
    | some ip => print ip
    | none => address) = _
  cases ts.findSome? (translateOne ip) <;> rfl

theorem findSome?_sorted (ip : IpAddr) (ts : List AddressTranslationPrefix) :
    match (sortDesc (fun t => t.bits.toNat) ts).findSome? (translateOne ip) with
    | none => ∀ t ∈ ts, ¬ Applies t ip
    | some r => ∃ t, Best (fun t : AddressTranslationPrefix => t.bits.toNat)
        (fun t => (translateOne ip t).isSome) ts t ∧ translateOne ip t = some r := by
  rw [findSome?_eq_bind]
  cases hfind : (sortDesc (fun t : AddressTranslationPrefix => t.bits.toNat) ts).find?
      fun t => (translateOne ip t).isSome with
  | none =>
    intro t ht happlies
    have hnone := find?_sortDesc_eq_none.mp hfind t ht
    rw [(translateOne_isSome ip t).mpr happlies] at hnone
    cases hnone
  | some t =>
    have hbest := best_of_find?_sortDesc hfind
    obtain ⟨r, hr⟩ := Option.isSome_iff_exists.mp hbest.holds
    rw [Option.bind_some, hr]
    exact ⟨t, hbest, hr⟩

theorem translateAddress_of_not_ip {print : IpAddr → Text} {address : Text}
    (hip : IpAddr.fromStr address = none) (ts : List AddressTranslationPrefix) :
    translateAddress print address ts = address := by
  rw [translateAddress, hip]

theorem translateAddress_unmatched {print : IpAddr → Text} {address : Text} {ip : IpAddr}
    {ts : List AddressTranslationPrefix} (hip : IpAddr.fromStr address = some ip)
    (hnone : ∀ t ∈ ts, ¬ Applies t ip) :
    translateAddress print address (sortDesc (fun t => t.bits.toNat) ts) = address := by
  have hfind := findSome?_sorted ip ts
  rw [translateAddress_of_ip hip]
  cases h : (sortDesc (fun t => t.bits.toNat) ts).findSome? (translateOne ip) with
  | none => rfl
  | some r =>
    rw [h] at hfind
    obtain ⟨t, hbest, ht⟩ := hfind
    obtain ⟨before, after, rfl, -⟩ := hbest.split
    exact absurd ((translateOne_isSome ip t).mp hbest.holds) (hnone t (by simp))

theorem translateAddress_matched (print : IpAddr → Text) {address : Text} {ip : IpAddr}
    {ts : List AddressTranslationPrefix} (hip : IpAddr.fromStr address = some ip)
    (hsome : ∃ t ∈ ts, Applies t ip) :
    ∃ t r, Best (fun t : AddressTranslationPrefix => t.bits.toNat)
        (fun t => (translateOne ip t).isSome) ts t ∧ translateOne ip t = some r ∧
      translateAddress print address (sortDesc (fun t => t.bits.toNat) ts) = print r := by
  have hfind := findSome?_sorted ip ts
  rw [translateAddress_of_ip hip]
  cases h : (sortDesc (fun t => t.bits.toNat) ts).findSome? (translateOne ip) with
  | none =>
    rw [h] at hfind
    obtain ⟨t, ht, happlies⟩ := hsome
    exact absurd happlies (hfind t ht)
  | some r =>
    rw [h] at hfind
    obtain ⟨t, hbest, ht⟩ := hfind
    exact ⟨t, r, hbest, ht, rfl⟩

theorem translateAddress_singleton {print : IpAddr → Text} {address : Text} {ip r : IpAddr}
    {t : AddressTranslationPrefix} (hip : IpAddr.fromStr address = some ip)
    (h : translateOne ip t = some r) :
    translateAddress print address (sortDesc (fun t => t.bits.toNat) [t]) = print r := by
  have hone : sortDesc (fun t : AddressTranslationPrefix => t.bits.toNat) [t] = [t] := by
    simp [sortDesc]
  rw [translateAddress_of_ip hip, hone]
  simp [h]

end Build

theorem address_translation (print : IpAddr → Text)
    (hprint : ∀ ip, IpAddr.fromStr (print ip) = some ip) (forwardAddress : Bool)
    (xs : List AddressTranslation) (ts : List AddressTranslationPrefix)
    (hts : List.Forall₂ Parses xs ts) :
    (∃ built, buildAddressTranslations forwardAddress xs = .ok built ∧ ∀ address,
      (IpAddr.fromStr address = none → translateAddress print address built = address) ∧
      ∀ ip, IpAddr.fromStr address = some ip →
        ((forwardAddress = false ∨ ∀ t ∈ ts, ¬ Applies t ip) →
          translateAddress print address built = address) ∧
        (forwardAddress = true → (∃ t ∈ ts, Applies t ip) →
          ∃ before t after r, ts = before ++ t :: after ∧ Applies t ip ∧
            (∀ x ∈ before, Applies x ip → x.bits.toNat < t.bits.toNat) ∧
            (∀ x ∈ after, Applies x ip → x.bits.toNat ≤ t.bits.toNat) ∧
            Renumbers t ip r ∧ translateAddress print address built = print r)) ∧
    ∀ x t address ip, Parses x t → IpAddr.fromStr address = some ip → Applies t ip →
      ∃ there back, buildAddressTranslations true [x] = .ok there ∧
        buildAddressTranslations true [x.swap] = .ok back ∧
        translateAddress print (translateAddress print address there) back = print ip := by
  constructor
  · cases forwardAddress with
    | false =>
      refine ⟨[], rfl, fun address => ⟨fun hip => translateAddress_of_not_ip hip [], ?_⟩⟩
      intro ip hip
      refine ⟨fun _ => ?_, fun h => by cases h⟩
      rw [translateAddress_of_ip hip]
      rfl
    | true =>
      refine ⟨_, build_forwarded hts, fun address => ⟨fun hip => translateAddress_of_not_ip hip _, ?_⟩⟩
      intro ip hip
      constructor
      · rintro (h | hnone)
        · cases h
        · exact translateAddress_unmatched hip hnone
      · intro _ hsome
        obtain ⟨t, r, hbest, hr, heq⟩ := translateAddress_matched print hip hsome
        obtain ⟨before, after, hsplit, hbefore, hafter⟩ := hbest.split
        refine ⟨before, t, after, r, hsplit, (translateOne_isSome ip t).mp hbest.holds, ?_, ?_,
          renumbers_of_translateOne hr, heq⟩
        · exact fun x hx happlies => hbefore x hx ((translateOne_isSome ip x).mpr happlies)
        · exact fun x hx happlies => hafter x hx ((translateOne_isSome ip x).mpr happlies)
  · intro x t address ip hx hip happlies
    obtain ⟨r, hr⟩ := Option.isSome_iff_exists.mp ((translateOne_isSome ip t).mpr happlies)
    refine ⟨_, _, build_forwarded (.cons hx .nil), build_forwarded (.cons hx.swap .nil), ?_⟩
    rw [translateAddress_singleton hip hr]
    exact translateAddress_singleton (hprint r) (translateOne_swap hr)

/-- A host of one network, in the other and back. -/
theorem address_translation_back :
    let x : AddressTranslation := ⟨"10.0.0.0".toList, "192.168.7.0".toList, 24⟩
    ∃ there back, buildAddressTranslations true [x] = .ok there ∧
      buildAddressTranslations true [x.swap] = .ok back ∧
      translateAddress IpAddr.print (translateAddress IpAddr.print "10.0.0.5".toList there) back =
        "10.0.0.5".toList := by
  intro x
  have hparses : Parses x ⟨.v4 0x0a000000, .v4 0xc0a80700, 24⟩ :=
    ⟨by decide +kernel, by decide +kernel, rfl⟩
  have hip : IpAddr.fromStr "10.0.0.5".toList = some (.v4 0x0a000005) := by decide +kernel
  have happlies : Applies ⟨.v4 0x0a000000, .v4 0xc0a80700, 24⟩ (.v4 0x0a000005) := by
    refine ⟨by decide, fun i hi => ?_⟩
    have hlt : i < 24 := hi
    interval_cases i <;> rfl
  have hprint : IpAddr.print (.v4 0x0a000005) = "10.0.0.5".toList := by decide +kernel
  have h := (address_translation IpAddr.print IpAddr.fromStr_print true [x] _
    (.cons hparses .nil)).2 x _ _ _ hparses hip happlies
  rwa [hprint] at h

end Noa.Tunnel.Resolve
