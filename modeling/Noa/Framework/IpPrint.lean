import Noa.Framework.Ip

namespace Noa.Framework

/-! A way to write addresses that the parser reads back: IPv4 in dotted decimals, IPv6 as eight
groups of four digits. -/

def octetText (n : Nat) : Text :=
  if n < 10 then [n].map Nat.digitChar
  else if n < 100 then [n / 10, n % 10].map Nat.digitChar
  else [n / 100, n / 10 % 10, n % 10].map Nat.digitChar

def groupText (g : Nat) : Text :=
  [g / 4096, g / 256 % 16, g / 16 % 16, g % 16].map Nat.digitChar

/-- Groups that follow others. -/
def groupsText (groups : List Nat) : Text := groups.flatMap fun g => ':' :: groupText g

def IpAddr.print : IpAddr → Text
  | .v4 x => octetText (x.toNat / 2 ^ 24) ++ '.' :: (octetText (x.toNat / 2 ^ 16 % 256) ++
      '.' :: (octetText (x.toNat / 2 ^ 8 % 256) ++ '.' :: octetText (x.toNat % 256)))
  | .v6 x => groupText (x.toNat / 2 ^ 112) ++ groupsText [x.toNat / 2 ^ 96 % 2 ^ 16,
      x.toNat / 2 ^ 80 % 2 ^ 16, x.toNat / 2 ^ 64 % 2 ^ 16, x.toNat / 2 ^ 48 % 2 ^ 16,
      x.toNat / 2 ^ 32 % 2 ^ 16, x.toNat / 2 ^ 16 % 2 ^ 16, x.toNat % 2 ^ 16]

section Digits

theorem digitValue_digitChar {radix d : Nat} (hd : d < radix) (hradix : radix ≤ 16) :
    digitValue radix (Nat.digitChar d) = some d := by
  have hlt : d < 16 := by omega
  interval_cases d <;> simp [digitValue, Nat.digitChar] <;> exact hd

/-- A text in which a number ends. -/
def Stops (radix : Nat) (rest : Text) : Prop := ∀ c, rest.head? = some c → digitValue radix c = none

theorem readDigits_stops {radix : Nat} {rest : Text} (h : Stops radix rest) (maxDigits value count : Nat) :
    readDigits radix maxDigits value count rest = some (value, count, rest) := by
  cases rest with
  | nil => rfl
  | cons c rest => rw [readDigits, h c rfl]

theorem readDigits_digits {radix : Nat} (hradix : radix ≤ 16) {rest : Text} (hrest : Stops radix rest)
    {ds : List Nat} (hds : ∀ d ∈ ds, d < radix) {maxDigits count : Nat} (value : Nat)
    (hlen : count + ds.length ≤ maxDigits) :
    readDigits radix maxDigits value count (ds.map Nat.digitChar ++ rest) =
      some (ds.foldl (fun value d => value * radix + d) value, count + ds.length, rest) := by
  induction ds generalizing value count with
  | nil => exact readDigits_stops hrest _ _ _
  | cons d ds ih =>
    rw [List.length_cons] at hlen
    rw [List.map_cons, List.cons_append, readDigits,
      digitValue_digitChar (hds d List.mem_cons_self) hradix]
    dsimp only
    rw [if_neg (by omega), ih (fun x hx => hds x (List.mem_cons_of_mem d hx)) _ (by omega)]
    simp only [List.foldl_cons, List.length_cons, Option.some.injEq, Prod.mk.injEq, true_and, and_true]
    omega

end Digits

section V4

theorem digitChar_ne_zero {d : Nat} (hpos : 0 < d) (hd : d < 10) : Nat.digitChar d ≠ '0' := by
  interval_cases d <;> decide

theorem readNumber_octet {n : Nat} (hn : n < 256) {rest : Text} (hrest : Stops 10 rest) :
    readNumber 10 3 false 256 (octetText n ++ rest) = some (n, rest) := by
  have hread (ds : List Nat) (hds : ∀ d ∈ ds, d < 10) (hlen : ds.length ≤ 3) :=
    readDigits_digits (by omega) hrest hds 0 (show 0 + ds.length ≤ 3 by omega)
  have hdiv {k : Nat} (hk : k ≤ 9) : Nat.digitChar k = '0' → k = 0 := by
    intro h
    by_contra hne
    exact digitChar_ne_zero (by omega) (by omega) h
  unfold octetText
  split_ifs with hone htwo
  · have hr := hread [n] (by simpa using hone) (by simp)
    rw [readNumber, hr]
    simp [hn]
  · have hr := hread [n / 10, n % 10] (by simp; omega) (by simp)
    have hzero := hdiv (k := n / 10) (by omega)
    rw [readNumber, hr]
    simp
    omega
  · have hr := hread [n / 100, n / 10 % 10, n % 10] (by simp; omega) (by simp)
    have hzero := hdiv (k := n / 100) (by omega)
    rw [readNumber, hr]
    simp
    omega

theorem stops_dot (rest : Text) : Stops 10 ('.' :: rest) := by
  intro c hc
  cases hc
  decide

theorem readOctet_succ {n : Nat} (hn : n < 256) (index : Nat) {rest : Text} (hrest : Stops 10 rest) :
    readOctet (index + 1) ('.' :: (octetText n ++ rest)) = some (n, rest) := by
  simp only [readOctet, readSeparator, Nat.succ_ne_zero, if_false, if_true]
  exact readNumber_octet hn hrest

theorem fromStr_print_v4 (x : BitVec 32) : IpAddr.fromStr (IpAddr.print (.v4 x)) = some (.v4 x) := by
  have hx := x.isLt
  have hfirst := readNumber_octet (n := x.toNat / 2 ^ 24) (by omega) (stops_dot
    (octetText (x.toNat / 2 ^ 16 % 256) ++ '.' :: (octetText (x.toNat / 2 ^ 8 % 256) ++
      '.' :: octetText (x.toNat % 256))))
  have hsecond := readOctet_succ (n := x.toNat / 2 ^ 16 % 256) (by omega) 0 (stops_dot
    (octetText (x.toNat / 2 ^ 8 % 256) ++ '.' :: octetText (x.toNat % 256)))
  have hthird := readOctet_succ (n := x.toNat / 2 ^ 8 % 256) (by omega) 1 (stops_dot
    (octetText (x.toNat % 256)))
  have hend : Stops 10 [] := fun c hc => by cases hc
  have hfourth := readOctet_succ (n := x.toNat % 256) (by omega) 2 hend
  rw [List.append_nil] at hfourth
  have hbits : BitVec.ofNat 32 (x.toNat / 2 ^ 24 * 2 ^ 24 + x.toNat / 2 ^ 16 % 256 * 2 ^ 16 +
      x.toNat / 2 ^ 8 % 256 * 2 ^ 8 + x.toNat % 256) = x := by
    rw [BitVec.toNat_eq, BitVec.toNat_ofNat]
    omega
  have hread : readIpv4Addr (IpAddr.print (.v4 x)) = some (x, []) := by
    have hzero (cs : Text) : readOctet 0 cs = readNumber 10 3 false 256 cs := rfl
    simp only [readIpv4Addr, IpAddr.print, hzero, hfirst, hsecond, hthird, hfourth,
      Option.bind_eq_bind, Option.bind_some, hbits]
  rw [IpAddr.fromStr, hread]

end V4

section V6

theorem readIpv4Addr_eq_none {cs : Text} (hdot : '.' ∉ cs) : readIpv4Addr cs = none := by
  refine Option.eq_none_iff_forall_ne_some.mpr fun r hr => ?_
  obtain ⟨⟨a, rest⟩, ha, hr⟩ := Option.bind_eq_some_iff.mp hr
  obtain ⟨b, hb, -⟩ := Option.bind_eq_some_iff.mp hr
  obtain ⟨front, rfl, -⟩ := readOctet_readsOff ha
  cases rest with
  | nil => cases hb
  | cons c rest =>
    have hc : c ≠ '.' := by
      rintro rfl
      exact hdot (by simp)
    simp [readOctet, readSeparator, hc] at hb

theorem stops_colon (rest : Text) : Stops 16 (':' :: rest) := by
  intro c hc
  cases hc
  decide

theorem readNumber_group {g : Nat} (hg : g < 2 ^ 16) {rest : Text} (hrest : Stops 16 rest) :
    readNumber 16 4 true (2 ^ 16) (groupText g ++ rest) = some (g, rest) := by
  have hread := readDigits_digits (by omega) hrest
    (show ∀ d ∈ [g / 4096, g / 256 % 16, g / 16 % 16, g % 16], d < 16 by simp; omega) 0
    (show 0 + 4 ≤ 4 by omega)
  rw [readNumber, groupText, hread]
  simp
  omega

theorem digitChar_ne_dot {d : Nat} (hd : d < 16) : Nat.digitChar d ≠ '.' := by
  interval_cases d <;> decide

theorem dot_not_mem_groupText {g : Nat} (hg : g < 2 ^ 16) : '.' ∉ groupText g := by
  intro h
  obtain ⟨d, hd, heq⟩ := List.mem_map.mp h
  refine digitChar_ne_dot ?_ heq
  simp only [List.mem_cons, List.not_mem_nil, or_false] at hd
  omega

theorem dot_not_mem_groupsText {groups : List Nat} (h : ∀ g ∈ groups, g < 2 ^ 16) :
    '.' ∉ groupsText groups := by
  intro hmem
  obtain ⟨g, hg, hdot⟩ := List.mem_flatMap.mp hmem
  rcases List.mem_cons.mp hdot with hdot | hdot
  · exact absurd hdot (by decide)
  · exact dot_not_mem_groupText (h g hg) hdot

theorem stops_groupsText (groups : List Nat) : Stops 16 (groupsText groups) := by
  cases groups with
  | nil => exact fun c hc => by cases hc
  | cons g groups => exact stops_colon _

theorem readGroups_succ (limit left : Nat) {g : Nat} {cs rest : Text} (hdot : '.' ∉ cs)
    (hg : readSeparator ':' (limit - (left + 1)) (readNumber 16 4 true (2 ^ 16)) cs = some (g, rest)) :
    readGroups limit (left + 1) cs =
      (g :: (readGroups limit left rest).1, (readGroups limit left rest).2) := by
  have hembedded : readSeparator ':' (limit - (left + 1)) readIpv4Addr cs = none := by
    unfold readSeparator
    split_ifs
    · exact readIpv4Addr_eq_none hdot
    · cases cs with
      | nil => rfl
      | cons c cs =>
        dsimp only
        split_ifs
        · exact readIpv4Addr_eq_none fun h => hdot (List.mem_cons_of_mem c h)
        · rfl
  rw [readGroups]
  simp only [hembedded, ite_self, hg]

theorem readGroups_groupsText {groups : List Nat} (h : ∀ g ∈ groups, g < 2 ^ 16) (limit : Nat)
    (hlimit : groups.length < limit) :
    readGroups limit groups.length (groupsText groups) = (groups, false, []) := by
  induction groups with
  | nil => rfl
  | cons g groups ih =>
    rw [List.length_cons] at hlimit
    have htext : groupsText (g :: groups) = ':' :: (groupText g ++ groupsText groups) := rfl
    have hindex : limit - (groups.length + 1) ≠ 0 := by omega
    have hread : readSeparator ':' (limit - (groups.length + 1)) (readNumber 16 4 true (2 ^ 16))
        (groupsText (g :: groups)) = some (g, groupsText groups) := by
      rw [htext, readSeparator, if_neg hindex]
      exact readNumber_group (h g List.mem_cons_self) (stops_groupsText groups)
    rw [List.length_cons, readGroups_succ _ _ (dot_not_mem_groupsText h) hread,
      ih (fun x hx => h x (List.mem_cons_of_mem g hx)) (by omega)]

theorem readIpv6Addr_groups {g : Nat} {groups : List Nat} (hlen : groups.length = 7)
    (h : ∀ x ∈ g :: groups, x < 2 ^ 16) :
    readIpv6Addr (groupText g ++ groupsText groups) = some (groupsToBits (g :: groups), []) := by
  have hg := h g List.mem_cons_self
  have hgroups : ∀ x ∈ groups, x < 2 ^ 16 := fun x hx => h x (List.mem_cons_of_mem g hx)
  have hdot : '.' ∉ groupText g ++ groupsText groups := by
    rw [List.mem_append, not_or]
    exact ⟨dot_not_mem_groupText hg, dot_not_mem_groupsText hgroups⟩
  have hrest := readGroups_groupsText hgroups 8 (by omega)
  rw [hlen] at hrest
  have hread := readGroups_succ 8 7 hdot
    (readNumber_group hg (stops_groupsText groups))
  rw [hrest] at hread
  rw [readIpv6Addr, hread]
  simp [hlen]

theorem fromStr_print_v6 (x : BitVec 128) :
    IpAddr.fromStr (IpAddr.print (.v6 x)) = some (.v6 x) := by
  have hx := x.isLt
  have hlt : ∀ g ∈ [x.toNat / 2 ^ 112, x.toNat / 2 ^ 96 % 2 ^ 16, x.toNat / 2 ^ 80 % 2 ^ 16,
      x.toNat / 2 ^ 64 % 2 ^ 16, x.toNat / 2 ^ 48 % 2 ^ 16, x.toNat / 2 ^ 32 % 2 ^ 16,
      x.toNat / 2 ^ 16 % 2 ^ 16, x.toNat % 2 ^ 16], g < 2 ^ 16 := by
    simp only [List.forall_mem_cons, List.not_mem_nil, false_implies, implies_true, and_true]
    omega
  have hread := readIpv6Addr_groups rfl hlt
  have hbits : groupsToBits [x.toNat / 2 ^ 112, x.toNat / 2 ^ 96 % 2 ^ 16, x.toNat / 2 ^ 80 % 2 ^ 16,
      x.toNat / 2 ^ 64 % 2 ^ 16, x.toNat / 2 ^ 48 % 2 ^ 16, x.toNat / 2 ^ 32 % 2 ^ 16,
      x.toNat / 2 ^ 16 % 2 ^ 16, x.toNat % 2 ^ 16] = x := by
    rw [groupsToBits, BitVec.toNat_eq, BitVec.toNat_ofNat]
    simp only [List.foldl_cons, List.foldl_nil]
    omega
  rw [hbits] at hread
  obtain ⟨hfirst, hrest⟩ := List.forall_mem_cons.mp hlt
  have hdot : '.' ∉ IpAddr.print (.v6 x) := by
    rw [IpAddr.print, List.mem_append, not_or]
    exact ⟨dot_not_mem_groupText hfirst, dot_not_mem_groupsText hrest⟩
  rw [IpAddr.fromStr, readIpv4Addr_eq_none hdot, IpAddr.print, hread]

end V6

theorem IpAddr.fromStr_print (ip : IpAddr) : IpAddr.fromStr ip.print = some ip := by
  cases ip with
  | v4 x => exact fromStr_print_v4 x
  | v6 x => exact fromStr_print_v6 x

end Noa.Framework
