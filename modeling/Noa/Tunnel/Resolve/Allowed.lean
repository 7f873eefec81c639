import Noa.Framework.Ip

namespace Noa.Tunnel.Resolve
open Noa.Framework

/-- Networks match addresses only, names and domains match names only. -/
inductive AllowedAddress where
  | cidr (net : IpNet)
  | hostname (name : Text)
  | domain (pattern : Text)

inductive MatchValue where
  | ip (ip : IpAddr)
  | str (s : Text)

/-- A lone star allows any host, `*.suffix` the suffix and what ends in `.suffix`. -/
def domainAllows (m : CaseMap) (domain host : Text) : Bool :=
  if domain = ['*'] then true
  else (domain.drop 1).isSuffixOf (m.fold host) || m.fold host == domain.drop 2

def AllowedAddress.allows (m : CaseMap) : AllowedAddress → MatchValue → Bool
  | .cidr net, .ip ip => net.contains ip
  | .hostname name, .str s => m.fold s == name
  | .domain pattern, .str s => domainAllows m pattern s
  | _, _ => false

/-- A network written with an IPv4-mapped address is the IPv4 network. -/
def unmapV4Mapped (ip : IpAddr) (prefixLen : Nat) : IpAddr × Nat :=
  match ip with
  | .v6 bits =>
    if bits >>> 32 = 0xffff#128 then (.v4 (bits.setWidth 32), prefixLen - 96) else (ip, prefixLen)
  | .v4 _ => (ip, prefixLen)

/-- An address, or an address and the length of its network's prefix. -/
def parseIpOrCidr (s : Text) : Option IpNet := do
  let (addr, bits) := match splitOnce '/' s with
    | none => (s, none)
    | some (a, b) => (a, some b)
  if bits.any (fun b => decide (1 < utf8Len b) &&
      !(b.head?.any fun c => decide ('1' ≤ c) && decide (c ≤ '9'))) then none
  else
    let ip ← IpAddr.fromStr addr
    let prefixLen ← match bits, ip with
      | none, .v4 _ => some 32
      | none, .v6 _ => some 128
      | some b, _ => parseUnsigned 256 b
    let (ip, prefixLen) := unmapV4Mapped ip prefixLen
    IpNet.new ip prefixLen

/-- One entry of an allow-list: a star form, a network, or a name; entries of no form are dropped,
and so are names with a zone id. -/
def makeAllowedAddress (m : CaseMap) (addr : Text) : Option AllowedAddress :=
  match addr with
  | [] => none
  | '*' :: rest =>
    match rest with
    | [] => some (.domain (m.fold addr))
    | '.' :: _ :: _ => some (.domain (m.fold addr))
    | _ => none
  | _ =>
    match parseIpOrCidr addr with
    | some net => some (.cidr net)
    | none => if '%' ∈ addr then none else some (.hostname (m.fold addr))

def parseAllowedAddresses (m : CaseMap) (entries : List Text) : List AllowedAddress :=
  entries.filterMap (makeAllowedAddress m)

theorem parseIpOrCidr_star (s : Text) : parseIpOrCidr ('*' :: s) = none := by
  have hslash : ¬ '*' = '/' := by decide
  unfold parseIpOrCidr
  rw [splitOnce, if_neg hslash]
  cases splitOnce '/' s with
  | none => simp [IpAddr.fromStr_star]
  | some r => simp [IpAddr.fromStr_star]

/-- What an entry has to say to allow a name. -/
def NamesHost (m : CaseMap) (entry host : Text) : Prop :=
  parseIpOrCidr entry = none ∧
    (m.fold entry = m.fold host ∨ entry = ['*'] ∨
      ∃ suffix, suffix ≠ [] ∧ entry = '*' :: '.' :: suffix ∧
        (m.fold host = m.fold suffix ∨ '.' :: m.fold suffix <:+ m.fold host))

theorem domainAllows_suffix (m : CaseMap) (suffix host : Text) :
    domainAllows m ('*' :: '.' :: m.fold suffix) host = true ↔
      m.fold host = m.fold suffix ∨ '.' :: m.fold suffix <:+ m.fold host := by
  simp [domainAllows, or_comm]

theorem namesHost_of_allows {m : CaseMap} {entry host : Text} {a : AllowedAddress}
    (ha : makeAllowedAddress m entry = some a) (h : a.allows m (.str host) = true) :
    NamesHost m entry host := by
  unfold makeAllowedAddress at ha
  split at ha
  · cases ha
  · next rest =>
    refine ⟨parseIpOrCidr_star rest, ?_⟩
    split at ha
    · exact .inr (.inl rfl)
    · next c cs =>
      cases ha
      rw [m.fold_star_dot] at h
      exact .inr (.inr ⟨c :: cs, List.cons_ne_nil c cs, rfl, (domainAllows_suffix m _ host).mp h⟩)
    · cases ha
  · cases hp : parseIpOrCidr entry with
    | some net =>
      rw [hp] at ha
      cases ha
      cases h
    | none =>
      rw [hp] at ha
      dsimp only at ha
      split_ifs at ha
      cases ha
      exact ⟨hp, .inl (beq_iff_eq.mp h).symm⟩

theorem network_of_allows {m : CaseMap} {entry : Text} {ip : IpAddr} {a : AllowedAddress}
    (ha : makeAllowedAddress m entry = some a) (h : a.allows m (.ip ip) = true) :
    ∃ net, parseIpOrCidr entry = some net ∧ net.contains ip = true := by
  cases a with
  | hostname name => cases h
  | domain pattern => cases h
  | cidr net =>
    refine ⟨net, ?_, h⟩
    unfold makeAllowedAddress at ha
    split at ha
    · cases ha
    · split at ha <;> cases ha
    · cases hp : parseIpOrCidr entry with
      | some net' =>
        rw [hp] at ha
        cases ha
        rfl
      | none =>
        rw [hp] at ha
        dsimp only at ha
        split_ifs at ha
        cases ha

end Noa.Tunnel.Resolve
