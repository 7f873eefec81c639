import Noa.Framework.IpPrint
import Noa.Tunnel.Intercept.SyntheticIp

namespace Noa.Tunnel.Intercept
open Noa.Framework

/-- The network `format!("{utun_addr}/{prefix}")` is parsed to. -/
def utunNet (utunAddr : BitVec 32) (pfx : UInt8) : Option (Net 32) :=
  if h : pfx.toNat ≤ 32 then some ⟨utunAddr, pfx.toNat, h⟩ else none

/-- The matcher with its pool from the utun's network, and the address of the resolver in it. -/
def seedAndReserveDnsPool (utunAddr : BitVec 32) (pfx : UInt8) :
    Except Text (DnsMatcher × BitVec 32) :=
  match DnsMatcher.new.seedPool (utunNet utunAddr pfx) with
  | (false, _) => .error ("utun-cidr '".toList ++ IpAddr.print (.v4 utunAddr) ++ '/' ::
      octetText pfx.toNat ++ ("' inválido para el pool de IP sintética de M3-DNS: el mismo CIDR del " ++
        "utun ahora sirve también de rango DNS, y /0 y /32 se rechazan (degenerados, ver " ++
        "IpPool::seed en dns/)").toList)
  | (true, dns) =>
    let dns := dns.reserve utunAddr
    let dnsResolverAddr := utunAddr + 1
    .ok (dns.reserve dnsResolverAddr, dnsResolverAddr)

namespace IpPool

/-- The pool has as many addresses to hand out as the network has hosts. -/
structure Sized (net : Net 32) (p : IpPool) : Prop extends p.Wf net where
  capacity : p.capacity + 2 = 2 ^ (32 - net.prefixLen)

section Scan

variable {net : Net 32} {p : IpPool} {isOccupied : BitVec 32 → Bool}

theorem seed_sized (h : IpPool.seed net = some p) : p.Sized net := by
  refine ⟨seed_wf h, ?_⟩
  unfold IpPool.seed at h
  split_ifs at h with hbits
  cases h
  have hpow : 2 ^ 1 ≤ 2 ^ (32 - net.prefixLen) := Nat.pow_le_pow_right (by omega) (by omega)
  dsimp only
  omega

theorem inspected_length (n : Nat) (p : IpPool) : (inspected isOccupied n p).length ≤ n := by
  induction n generalizing p with
  | zero => exact le_rfl
  | succ n ih =>
    rw [inspected, List.length_cons]
    split_ifs
    · exact Nat.succ_le_succ (ih p.next.2)
    · simp

theorem allocateLoop_eq_find? (n : Nat) (p : IpPool) :
    (allocateLoop isOccupied n p).1 = (inspected isOccupied n p).find? (!isOccupied ·) := by
  induction n generalizing p with
  | zero => rfl
  | succ n ih =>
    rw [inspected, allocateLoop]
    cases hocc : isOccupied p.next.1 <;> simp [hocc, ih]

theorem Sized.hostmask (h : p.Sized net) : net.hostmask.toNat = p.capacity + 1 := by
  have hcap := h.capacity
  rw [Net.toNat_hostmask]
  omega

theorem Sized.next (h : p.Sized net) (hcap : p.capacity ≠ 0) : p.next.2.Sized net :=
  ⟨h.toWf.next hcap, h.capacity⟩

/-- The candidates are the network's hosts, numbered by the counter. -/
theorem Wf.toNat_next (h : p.Wf net) (hcap : p.capacity ≠ 0) :
    p.next.1.toNat = net.network.toNat + p.counter.toNat := by
  have hleading : SameLeading net.prefixLen net.addr p.next.1 := by
    intro i hi
    have hiw := lt_of_lt_of_le hi net.prefixLen_le
    simp only [IpPool.next, h.base, h.counterMask, Net.network]
    rw [BitVec.getMsbD_or, BitVec.getMsbD_and, BitVec.getMsbD_and, Net.getMsbD_netmask,
      Net.getMsbD_hostmask net hiw]
    simp [hi]
  rw [net.toNat_eq_network_add hleading, h.next_and_hostmask hcap]

theorem Sized.counter_next (h : p.Sized net) (hcap : p.capacity ≠ 0) :
    p.next.2.counter.toNat =
      if p.counter.toNat = p.capacity then 1 else p.counter.toNat + 1 := by
  have hmask := h.hostmask
  have hlt := h.upper.resolve_left hcap
  have hone : (1 : BitVec 32).toNat = 1 := rfl
  have hsucc : (p.counter + 1).toNat = p.counter.toNat + 1 := by
    rw [BitVec.toNat_add, hone]
    have hbound := net.hostmask.isLt
    omega
  have hlast : p.counter + 1 = net.hostmask ↔ p.counter.toNat = p.capacity := by
    rw [BitVec.toNat_eq, hsucc]
    omega
  simp only [IpPool.next, h.counterMask, hlast]
  split_ifs
  · exact hone
  · exact hsucc

/-- How many candidates come before host `k`, with the counter at `c` of `cap`. -/
def stepsTo (cap c k : Nat) : Nat := if c ≤ k then k - c else k + cap - c

theorem Sized.allocateLoop_none {n : Nat} (h : p.Sized net) (hcap : p.capacity ≠ 0)
    (hnone : (allocateLoop isOccupied n p).1 = none) {x : BitVec 32} {k : Nat} (hk : 1 ≤ k)
    (hkcap : k ≤ p.capacity) (hx : x.toNat = net.network.toNat + k)
    (hsteps : stepsTo p.capacity p.counter.toNat k < n) : isOccupied x = true := by
  induction n generalizing p with
  | zero => cases hsteps
  | succ n ih =>
    rw [allocateLoop] at hnone
    have hocc : isOccupied p.next.1 = true := by
      by_contra hfree
      simp [hfree] at hnone
    simp only [hocc, if_true] at hnone
    by_cases hhere : p.counter.toNat = k
    · have hnext := h.toWf.toNat_next hcap
      have hxeq : x = p.next.1 := BitVec.toNat_inj.mp (by omega)
      rw [hxeq]
      exact hocc
    · have hcounter := h.counter_next hcap
      have hlower := h.lower
      have hupper := h.upper.resolve_left hcap
      rw [h.hostmask] at hupper
      refine ih (h.next hcap) hcap hnone hkcap ?_
      have hsame : p.next.2.capacity = p.capacity := rfl
      rw [hsame, hcounter]
      unfold stepsTo at hsteps ⊢
      split_ifs at hsteps ⊢ <;> omega

theorem Sized.allocate_none (h : p.Sized net) {count : Nat}
    (hnone : (p.allocate count isOccupied).1 = none) :
    p.capacity ≤ count ∨ ∀ x, net.IsHost x → isOccupied x = true := by
  unfold IpPool.allocate at hnone
  split_ifs at hnone with hfull
  · exact .inl (by omega)
  · right
    intro x hx
    have hcap := h.capacity
    have hbroadcast := net.toNat_broadcast
    have hlower := h.lower
    have hupper := h.upper.resolve_left (by omega)
    rw [h.hostmask] at hupper
    rw [Net.isHost_iff] at hx
    refine h.allocateLoop_none (by omega) hnone (k := x.toNat - net.network.toNat) (by omega) (by omega)
      (by omega) ?_
    unfold stepsTo
    split_ifs <;> omega

theorem Sized.next_isHost (h : p.Sized net) (hcap : p.capacity ≠ 0) : net.IsHost p.next.1 := by
  have hnext := h.toWf.toNat_next hcap
  have hbroadcast := net.toNat_broadcast
  have hlower := h.lower
  have hupper := h.upper.resolve_left hcap
  rw [Net.toNat_hostmask] at hupper
  rw [Net.isHost_iff]
  omega

theorem Sized.allocate (h : p.Sized net) (count : Nat) (isOccupied : BitVec 32 → Bool) :
    (p.allocate count isOccupied).2.Sized net ∧
      ∀ ip, (p.allocate count isOccupied).1 = some ip → net.IsHost ip := by
  obtain ⟨hsized, hgood⟩ := allocate_induction
    (fun _ h hcap => ⟨Sized.next h hcap, Sized.next_isHost h hcap⟩) h count isOccupied
  exact ⟨hsized, fun ip hip => (hgood ip hip).1⟩

end Scan

end IpPool

namespace DnsMatcher

/-- The pool is the network's, and if that has hosts at all, only hosts are in use. -/
structure Tight (net : Net 32) (d : DnsMatcher) : Prop where
  pool : ∃ p, d.pool = some p ∧ p.Sized net
  hosts : net.prefixLen ≠ 31 → ∀ ip ∈ d.ipAddresses, net.IsHost ip

section Tight

variable {net : Net 32} {d d' : DnsMatcher} {address service query : Text}

theorem card_hosts {p : IpPool} (h : p.Sized net) : ∃ hosts : Finset (BitVec 32),
    (∀ x, x ∈ hosts ↔ net.IsHost x) ∧ hosts.card = p.capacity := by
  have hcap := h.capacity
  have hbroadcast := net.toNat_broadcast
  have hlt := net.broadcast.isLt
  have htoNat {k : Nat} (hk : k ∈ Finset.Icc 1 p.capacity) :
      (BitVec.ofNat 32 (net.network.toNat + k)).toNat = net.network.toNat + k := by
    rw [Finset.mem_Icc] at hk
    rw [BitVec.toNat_ofNat]
    exact Nat.mod_eq_of_lt (by omega)
  refine ⟨(Finset.Icc 1 p.capacity).image fun k => BitVec.ofNat 32 (net.network.toNat + k), ?_, ?_⟩
  · intro x
    rw [Net.isHost_iff, Finset.mem_image]
    constructor
    · rintro ⟨k, hk, rfl⟩
      rw [htoNat hk]
      rw [Finset.mem_Icc] at hk
      omega
    · intro hx
      refine ⟨x.toNat - net.network.toNat, Finset.mem_Icc.mpr (by omega), ?_⟩
      rw [Nat.add_sub_cancel' (by omega), BitVec.ofNat_toNat, BitVec.setWidth_eq]
  · rw [Finset.card_image_of_injOn, Nat.card_Icc, Nat.add_sub_cancel]
    intro k hk l hl heq
    have hnat := congrArg BitVec.toNat heq
    simp only [htoNat hk, htoNat hl] at hnat
    omega

theorem Tight.allocateIp_none (h : d.Tight net) (hnone : d.allocateIp.1 = none) {x : BitVec 32}
    (hx : net.IsHost x) : x ∈ d.ipAddresses := by
  obtain ⟨p, hp, hsized⟩ := h.pool
  rw [DnsMatcher.allocateIp, hp] at hnone
  rcases hsized.allocate_none hnone with hfull | hocc
  · obtain ⟨hosts, hmem, hcard⟩ := card_hosts hsized
    have hbig : net.prefixLen ≠ 31 := by
      intro h31
      have hbroadcast := net.toNat_broadcast
      rw [Net.isHost_iff] at hx
      rw [h31] at hbroadcast
      omega
    exact mem_of_card_le_size (fun k hk => (hmem k).mpr (h.hosts hbig k hk)) (hcard.le.trans hfull)
      ((hmem x).mpr hx)
  · exact Std.ExtTreeMap.contains_iff_mem.mp (hocc x hx)

theorem Tight.allocateIp (h : d.Tight net) : d.allocateIp.2.Tight net ∧
    ∀ ip, d.allocateIp.1 = some ip → net.IsHost ip := by
  obtain ⟨p, hp, hsized⟩ := h.pool
  obtain ⟨hsized', hhost⟩ := hsized.allocate d.ipAddresses.size fun ip => d.ipAddresses.contains ip
  unfold DnsMatcher.allocateIp
  rw [hp]
  exact ⟨⟨⟨_, rfl, hsized'⟩, h.hosts⟩, hhost⟩

theorem Tight.insertHostname (h : d.Tight net) (name : Text) {e : DnsEntry} (he : net.IsHost e.ip) :
    (d.insertHostname name e).Tight net := by
  refine ⟨h.pool, fun hbig ip hip => ?_⟩
  rcases Std.ExtTreeMap.mem_insert.mp hip with heq | hold
  · rw [← Std.compare_eq_iff_eq.mp heq]
    exact he
  · exact h.hosts hbig ip hold

theorem Tight.registers {r : RegisterOutcome × DnsMatcher} (h : d.Tight net)
    (hr : d.Registers address service r) : r.2.Tight net := by
  obtain ⟨hall, hhost⟩ := h.allocateIp
  cases hr with
  | rejected => exact h
  | claim => exact { h with }
  | share => exact { h with }
  | exhausted => exact hall
  | assign _ ip _ hip => exact hall.insertHostname _ (hhost ip hip)

theorem Tight.answers {r : Option DnsMatch × DnsMatcher} (h : d.Tight net)
    (ha : d.Answers query r) : r.2.Tight net := by
  obtain ⟨hall, hhost⟩ := h.allocateIp
  cases ha with
  | unanswered => exact h
  | known => exact h
  | exhausted => exact hall
  | assign ip _ _ _ hip => exact hall.insertHostname _ (hhost ip hip)

theorem Tight.deregisterIntercept (h : d.Tight net) (service : Text) :
    (d.deregisterIntercept service).Tight net := by
  refine ⟨h.pool, fun hbig ip hip => h.hosts hbig ip ?_⟩
  obtain ⟨name, hname⟩ := mem_iff_lookup.mp hip
  simp only [DnsMatcher.deregisterIntercept] at hname
  rw [lookup_foldl_erase (fun kv : Text × DnsEntry => kv.2.ip)] at hname
  split_ifs at hname
  exact mem_iff_lookup.mpr ⟨name, hname⟩

theorem Tight.step (h : d.Tight net) (act : DnsAct) : (d.step act).Tight net := by
  cases act with
  | register address service => exact h.registers (register_registers d address service)
  | lookup query => exact h.answers (lookup_answers d query)
  | deregisterIntercept service => exact h.deregisterIntercept service

theorem Tight.foldl_step (h : d.Tight net) (acts : List DnsAct) :
    (acts.foldl DnsMatcher.step d).Tight net := by
  induction acts generalizing d with
  | nil => exact h
  | cons act acts ih => exact ih (h.step act)

/-- Every host is reserved or the address of some name. -/
def Exhausted (net : Net 32) (reserved : List (BitVec 32)) (d : DnsMatcher) : Prop :=
  ∀ x, net.IsHost x → x ∈ reserved ∨ ∃ (name : Text) (e : DnsEntry), d.hostnames[name]? = some e ∧ e.ip = x

/-- A host that is neither reserved nor the address of a name. -/
def Free (net : Net 32) (reserved : List (BitVec 32)) (d : DnsMatcher) (ip : BitVec 32) : Prop :=
  net.IsHost ip ∧ ip ∉ reserved ∧
    ∀ (name : Text) (e : DnsEntry), d.hostnames[name]? = some e → e.ip ≠ ip

/-- There is a free address, or there is none. -/
def Allocates (net : Net 32) (reserved : List (BitVec 32)) (d : DnsMatcher) :
    Option (BitVec 32) → Prop
  | none => Exhausted net reserved d
  | some ip => Free net reserved d ip

variable {reserved : List (BitVec 32)}

theorem Tight.allocates (h : d.Tight net) (hb : d.Bijective (some net) reserved) :
    Allocates net reserved d d.allocateIp.1 := by
  cases hall : d.allocateIp.1 with
  | none =>
    intro x hx
    obtain ⟨name, hname⟩ := mem_iff_lookup.mp (h.allocateIp_none hall hx)
    exact (hb.back x name hname).imp_right fun ⟨e, he⟩ => ⟨name, e, he⟩
  | some ip =>
    have hfree := d.allocateIp_spec.2 ip hall
    refine ⟨h.allocateIp.2 ip hall, fun hres => ?_, fun name e he heq => ?_⟩
    · obtain ⟨name, hname⟩ := mem_iff_lookup.mp (hb.held ip hres)
      rw [hfree] at hname
      cases hname
    · have hname := hb.forward name e he
      rw [heq, hfree] at hname
      cases hname

theorem register_new (d : DnsMatcher) (service : Text) (ha : ¬ IsWildcard address)
    (hlen : utf8Len address < 256) (hnew : d.hostnames[lowerAscii address]? = none) :
    (d.register address service).1 = d.allocateIp.1.elim .ipUnavailable .hostname := by
  have hlower : utf8Len (lowerAscii address) = utf8Len address := utf8Len_map_asciiLower address
  unfold register
  rw [checkName_hostname ha, if_pos (hlower ▸ hlen)]
  dsimp only
  rw [hnew]
  rcases hall : d.allocateIp with ⟨_ | ip, d'⟩ <;> rfl

theorem lookup_new (d : DnsMatcher) (hq : ¬ IsWildcard query) (hlen : utf8Len query < 256)
    (hnew : d.hostnames[lowerAscii query]? = none)
    (hdom : (findDomain (lowerAscii query) d.domains).isSome = true) :
    (d.lookup query).1 = d.allocateIp.1.map (⟨.domain, ·⟩) := by
  have hlower : utf8Len (lowerAscii query) = utf8Len query := utf8Len_map_asciiLower query
  obtain ⟨dom, hdom⟩ := Option.isSome_iff_exists.mp hdom
  unfold lookup
  rw [checkName_hostname hq, if_pos (hlower ▸ hlen)]
  dsimp only
  rw [hnew]
  dsimp only
  rw [hdom]
  rcases hall : d.allocateIp with ⟨_ | ip, d'⟩ <;> rfl

/-- The scan is as long as the pool has hosts, and ends at the first free one. -/
theorem Tight.inspected (h : d.Tight net) :
    d.inspected.length ≤ 2 ^ (32 - net.prefixLen) - 2 ∧
      d.allocateIp.1 = d.inspected.find? fun ip => !d.ipAddresses.contains ip := by
  obtain ⟨p, hp, hsized⟩ := h.pool
  have hcap := hsized.capacity
  unfold DnsMatcher.inspected DnsMatcher.allocateIp
  rw [hp]
  dsimp only [IpPool.allocate]
  split_ifs
  · exact ⟨Nat.zero_le _, rfl⟩
  · refine ⟨(IpPool.inspected_length _ _).trans (by omega), ?_⟩
    exact IpPool.allocateLoop_eq_find? _ _

end Tight

section Setup

theorem seedAndReserve_eq {utunAddr dnsAddr : BitVec 32} {pfx : UInt8} {d : DnsMatcher}
    (h : seedAndReserveDnsPool utunAddr pfx = .ok (d, dnsAddr)) :
    ∃ net p, utunNet utunAddr pfx = some net ∧ IpPool.seed net = some p ∧
      d = setup (some net) [utunAddr, utunAddr + 1] := by
  cases hnet : utunNet utunAddr pfx with
  | none =>
    rw [seedAndReserveDnsPool, hnet] at h
    cases h
  | some net =>
    rw [seedAndReserveDnsPool, hnet] at h
    cases hseed : IpPool.seed net with
    | none =>
      simp only [seedPool, Option.bind_some, hseed] at h
      cases h
    | some p =>
      refine ⟨net, p, rfl, hseed, ?_⟩
      simp only [seedPool, Option.bind_some, hseed] at h
      cases h
      simp only [setup, seedPool, Option.bind_some, hseed]
      rfl

theorem setup_tight {net : Net 32} {p : IpPool} (hseed : IpPool.seed net = some p)
    {reserved : List (BitVec 32)} (hres : net.prefixLen ≠ 31 → ∀ ip ∈ reserved, net.IsHost ip) :
    (setup (some net) reserved).Tight net := by
  obtain ⟨-, -, hpool, hmem⟩ := foldl_reserve reserved (new.seedPool (some net)).2
  rw [seedPool_new] at hpool hmem
  refine ⟨⟨p, ?_, IpPool.seed_sized hseed⟩, fun hbig ip hip => hres hbig ip ?_⟩
  · rw [setup, seedPool_new, hpool]
    exact hseed
  · rw [setup, seedPool_new, hmem] at hip
    refine hip.resolve_right ?_
    simp [new]

end Setup

/-- Allocation in a state: what a new name gets is a free address, and nothing only when there is
none; the candidates looked at are no more than the pool has hosts. -/
structure ExactAt (net : Net 32) (reserved : List (BitVec 32)) (d : DnsMatcher) : Prop where
  register : ∀ address service, ¬ IsWildcard address → utf8Len address < 256 →
    d.hostnames[lowerAscii address]? = none →
    (d.register address service).1 = d.allocateIp.1.elim .ipUnavailable .hostname
  lookup : ∀ query, ¬ IsWildcard query → utf8Len query < 256 →
    d.hostnames[lowerAscii query]? = none →
    (findDomain (lowerAscii query) d.domains).isSome = true →
    (d.lookup query).1 = d.allocateIp.1.map (⟨.domain, ·⟩)
  allocates : Allocates net reserved d d.allocateIp.1
  inspected : d.inspected.length ≤ 2 ^ (32 - net.prefixLen) - 2 ∧
    d.allocateIp.1 = d.inspected.find? fun ip => !d.ipAddresses.contains ip

theorem Tight.exactAt {net : Net 32} {reserved : List (BitVec 32)} {d : DnsMatcher}
    (h : d.Tight net) (hb : d.Bijective (some net) reserved) : ExactAt net reserved d :=
  ⟨fun _ service => d.register_new service, fun _ => d.lookup_new, h.allocates hb, h.inspected⟩

section Overcount

/-! With an address in use that is no host, the count reaches the capacity one host too early. -/

/-- Names that differ: the binary digits of a number. -/
def numberedName (i : Nat) : Text := (List.range 32).map fun j => if i.testBit j then '1' else '0'

theorem numberedName_inj {i j : Nat} (hi : i < 2 ^ 32) (hj : j < 2 ^ 32)
    (h : numberedName i = numberedName j) : i = j := by
  refine Nat.eq_of_testBit_eq fun k => ?_
  by_cases hk : k < 32
  · have hchar := List.map_inj_left.mp h k (List.mem_range.mpr hk)
    cases hik : i.testBit k <;> cases hjk : j.testBit k <;> simp [hik, hjk] at hchar ⊢
  · have hpow : 2 ^ 32 ≤ 2 ^ k := Nat.pow_le_pow_right (by omega) (by omega)
    rw [Nat.testBit_lt_two_pow (by omega), Nat.testBit_lt_two_pow (by omega)]

theorem numberedName_chars (i : Nat) : ∀ c ∈ numberedName i, c = '0' ∨ c = '1' := by
  intro c hc
  obtain ⟨j, -, rfl⟩ := List.mem_map.mp hc
  by_cases hj : i.testBit j = true
  · simp [hj]
  · simp [hj]

theorem lowerAscii_numberedName (i : Nat) : lowerAscii (numberedName i) = numberedName i := by
  conv_rhs => rw [← List.map_id (numberedName i)]
  refine List.map_congr_left fun c hc => ?_
  rcases numberedName_chars i c hc with rfl | rfl <;> rfl

theorem not_isWildcard_numberedName (i : Nat) : ¬ IsWildcard (numberedName i) := by
  rintro ⟨rest, h⟩
  have hstar := numberedName_chars i '*' (h ▸ List.mem_cons_self)
  exact absurd hstar (by decide)

theorem utf8Len_numberedName (i : Nat) : utf8Len (numberedName i) < 256 := by
  have hsize : (numberedName i).map Char.utf8Size = List.replicate 32 1 := by
    refine List.eq_replicate_iff.mpr ⟨by simp [numberedName], fun n hn => ?_⟩
    obtain ⟨c, hc, rfl⟩ := List.mem_map.mp hn
    rcases numberedName_chars i c hc with rfl | rfl <;> decide
  rw [utf8Len, hsize]
  decide

def fill (n : Nat) : List DnsAct := (List.range n).map fun i => .register (numberedName i) []

theorem fill_succ (d : DnsMatcher) (n : Nat) : (fill (n + 1)).foldl DnsMatcher.step d =
    ((fill n).foldl DnsMatcher.step d).step (.register (numberedName n) []) := by
  simp [fill, List.range_succ]

variable {net : Net 32} {reserved : List (BitVec 32)} {d : DnsMatcher} {p : IpPool}

theorem size_lt_of_allocateIp (hp : d.pool = some p) (hcap : p.capacity < 2 ^ 32)
    (hsome : d.allocateIp.1 ≠ none) : d.ipAddresses.size < p.capacity := by
  by_contra hfull
  refine hsome ?_
  rw [DnsMatcher.allocateIp, hp]
  dsimp only [IpPool.allocate]
  rw [if_pos (by omega)]

theorem size_exhausted {z : BitVec 32} (hsized : p.Sized net) (hb : d.Bijective (some net) reserved)
    (hz : z ∈ d.ipAddresses) (hnot : ¬ net.IsHost z) (hex : Exhausted net reserved d) :
    p.capacity < d.ipAddresses.size := by
  obtain ⟨hosts, hmem, hcard⟩ := card_hosts hsized
  have hused : ∀ x ∈ insert z hosts, x ∈ d.ipAddresses := by
    intro x hx
    rcases Finset.mem_insert.mp hx with rfl | hx
    · exact hz
    · rcases hex x ((hmem x).mp hx) with hres | ⟨name, e, he, rfl⟩
      · exact hb.held x hres
      · exact mem_iff_lookup.mpr ⟨name, hb.forward name e he⟩
  have hle := card_le_size hused
  rw [Finset.card_insert_of_notMem fun h => hnot ((hmem z).mp h), hcard] at hle
  omega

theorem register_assigned {address : Text} {ip : BitVec 32} (service : Text) (ha : ¬ IsWildcard address)
    (hlen : utf8Len address < 256) (hnew : d.hostnames[lowerAscii address]? = none)
    (hip : d.allocateIp.1 = some ip) :
    (d.register address service).2 = d.allocateIp.2.insertHostname (lowerAscii address)
      ⟨ip, none, (∅ : Owners).insert service⟩ := by
  have hlower : utf8Len (lowerAscii address) = utf8Len address := utf8Len_map_asciiLower address
  unfold register
  rw [checkName_hostname ha, if_pos (hlower ▸ hlen)]
  dsimp only
  rw [hnew]
  rcases hall : d.allocateIp with ⟨_ | ip', d'⟩ <;> rw [hall] at hip <;> cases hip
  rfl

/-- After `n` names, with the address `z` in use. -/
structure Filled (net : Net 32) (reserved : List (BitVec 32)) (z : BitVec 32) (n : Nat)
    (d : DnsMatcher) : Prop where
  pool : ∃ p, d.pool = some p ∧ p.Sized net
  bijective : d.Bijective (some net) reserved
  used : z ∈ d.ipAddresses
  names : ∀ (name : Text) (e : DnsEntry), d.hostnames[name]? = some e →
    ∃ i < n, name = numberedName i
  size : n ≤ d.ipAddresses.size ∧ d.ipAddresses.size + 2 ≤ 2 ^ (32 - net.prefixLen)

theorem Filled.step {z : BitVec 32} {n : Nat} (h : Filled net reserved z n d) (hn : n < 2 ^ 32)
    (hnot : ¬ net.IsHost z) (hexact : Allocates net reserved d d.allocateIp.1) :
    Filled net reserved z (n + 1) (d.step (.register (numberedName n) [])) := by
  obtain ⟨p, hp, hsized⟩ := h.pool
  have hcap := hsized.capacity
  have hpow : 2 ^ (32 - net.prefixLen) ≤ 2 ^ 32 := Nat.pow_le_pow_right (by omega) (by omega)
  have hsize := h.size
  cases hall : d.allocateIp.1 with
  | none =>
    rw [hall] at hexact
    have hover := size_exhausted hsized h.bijective h.used hnot hexact
    omega
  | some ip =>
    have hlt := size_lt_of_allocateIp hp (by omega) (by rw [hall]; exact Option.some_ne_none ip)
    have hnew : d.hostnames[lowerAscii (numberedName n)]? = none := by
      rw [lowerAscii_numberedName]
      refine Option.eq_none_iff_forall_ne_some.mpr fun e he => ?_
      obtain ⟨i, hi, heq⟩ := h.names _ e he
      have hni := numberedName_inj hn (by omega) heq
      omega
    obtain ⟨⟨hh, -, hi⟩, hfree⟩ := d.allocateIp_spec
    have hstate := register_assigned [] (not_isWildcard_numberedName n) (utf8Len_numberedName n) hnew
      hall
    rw [lowerAscii_numberedName] at hstate
    have hregs := h.bijective.registers (register_registers d (numberedName n) [])
    have hpool := (hsized.allocate d.ipAddresses.size fun ip => d.ipAddresses.contains ip).1
    rw [hstate] at hregs
    rw [DnsMatcher.step, hstate]
    refine ⟨⟨_, ?_, hpool⟩, hregs, ?_, ?_, ?_⟩
    · rw [DnsMatcher.insertHostname, DnsMatcher.allocateIp, hp]
    · refine Std.ExtTreeMap.mem_insert.mpr (.inr ?_)
      rw [hi]
      exact h.used
    · intro name e he
      simp only [DnsMatcher.insertHostname, lookup_insert, hh] at he
      split_ifs at he with hname
      · exact ⟨n, by omega, hname.symm⟩
      · obtain ⟨i, hi, heq⟩ := h.names name e he
        exact ⟨i, by omega, heq⟩
    · have hip : ¬ d.ipAddresses.contains ip = true := by
        intro hmem
        obtain ⟨name, hname⟩ := mem_iff_lookup.mp (Std.ExtTreeMap.contains_iff_mem.mp hmem)
        rw [hfree ip hall] at hname
        cases hname
      simp only [DnsMatcher.insertHostname, hi, Std.ExtTreeMap.size_insert, if_neg hip]
      omega

theorem Filled.fill {z : BitVec 32} (h : Filled net reserved z 0 d) (hnot : ¬ net.IsHost z)
    (hexact : ∀ acts : List DnsAct,
      Allocates net reserved (acts.foldl DnsMatcher.step d) (acts.foldl DnsMatcher.step d).allocateIp.1)
    (n : Nat) (hn : n ≤ 2 ^ 32) :
    Filled net reserved z n ((DnsMatcher.fill n).foldl DnsMatcher.step d) := by
  induction n with
  | zero => exact h
  | succ n ih =>
    rw [fill_succ]
    exact (ih (by omega)).step (by omega) hnot (hexact _)

/-- In some run a new name gets nothing with a host still free. -/
theorem Filled.not_exact {z : BitVec 32} (h : Filled net reserved z 0 d) (hnot : ¬ net.IsHost z) :
    ¬ ∀ acts : List DnsAct,
      Allocates net reserved (acts.foldl DnsMatcher.step d)
        (acts.foldl DnsMatcher.step d).allocateIp.1 := by
  intro hexact
  have hpow : 2 ^ (32 - net.prefixLen) ≤ 2 ^ 32 := Nat.pow_le_pow_right (by omega) (by omega)
  have hsize := (h.fill hnot hexact (2 ^ 32) le_rfl).size
  omega

theorem setup_filled {z : BitVec 32} (hseed : IpPool.seed net = some p) (hz : z ∈ reserved)
    (hsize : reserved.length + 2 ≤ 2 ^ (32 - net.prefixLen)) :
    Filled net reserved z 0 (setup (some net) reserved) := by
  obtain ⟨hh, -, hpool, hmem⟩ := foldl_reserve reserved (new.seedPool (some net)).2
  have hb := (setup_spec (some net) reserved).1
  rw [← setup] at hh hpool hmem
  rw [seedPool_new] at hh hpool hmem
  refine ⟨⟨p, ?_, IpPool.seed_sized hseed⟩, hb, hb.held z hz, ?_, Nat.zero_le _, ?_⟩
  · rw [hpool]
    exact hseed
  · intro name e he
    rw [hh] at he
    simp [new] at he
  · have hkeys : (setup (some net) reserved).ipAddresses.keys.toFinset ⊆ reserved.toFinset := by
      intro x hx
      rw [mem_keys_toFinset, hmem] at hx
      exact List.mem_toFinset.mpr (hx.resolve_right (by simp [new]))
    have hcard := (Finset.card_le_card hkeys).trans reserved.toFinset_card_le
    rw [card_keys] at hcard
    omega

end Overcount

/-- Exhaustion is exact in every run if and only if both reserved addresses are hosts of the pool, or
it has no host at all. -/
theorem pool_exhaustion_exact (utunAddr dnsAddr : BitVec 32) (pfx : UInt8) (d : DnsMatcher)
    (h : seedAndReserveDnsPool utunAddr pfx = .ok (d, dnsAddr)) :
    ∃ net, utunNet utunAddr pfx = some net ∧
      ((∀ acts : List DnsAct,
          ExactAt net [utunAddr, utunAddr + 1] (acts.foldl DnsMatcher.step d)) ↔
        pfx = 31 ∨ net.IsHost utunAddr ∧ net.IsHost (utunAddr + 1)) := by
  obtain ⟨net, p, hnet, hseed, rfl⟩ := seedAndReserve_eq h
  refine ⟨net, hnet, ?_⟩
  have hlast : net.prefixLen = 31 ↔ pfx = 31 := by
    unfold utunNet at hnet
    split_ifs at hnet
    cases hnet
    exact UInt8.toNat_inj (b := 31)
  constructor
  · intro hexact
    by_contra hcond
    rw [not_or, not_and_or, ← hlast] at hcond
    obtain ⟨hbig, hout⟩ := hcond
    have hsize : [utunAddr, utunAddr + 1].length + 2 ≤ 2 ^ (32 - net.prefixLen) := by
      have hbits : net.prefixLen ≤ 31 := by
        unfold IpPool.seed at hseed
        split_ifs at hseed with hbits
        exact hbits.2
      have hpow : 2 ^ 2 ≤ 2 ^ (32 - net.prefixLen) := Nat.pow_le_pow_right (by omega) (by omega)
      exact hpow
    rcases hout with hout | hout
    · exact (setup_filled hseed (by simp) hsize).not_exact hout fun acts => (hexact acts).allocates
    · exact (setup_filled hseed (by simp) hsize).not_exact hout fun acts => (hexact acts).allocates
  · intro hcond acts
    have htight : (setup (some net) [utunAddr, utunAddr + 1]).Tight net := by
      refine setup_tight hseed fun hbig ip hip => ?_
      obtain ⟨hfirst, hsecond⟩ := hcond.resolve_left (mt hlast.mpr hbig)
      simp only [List.mem_cons, List.not_mem_nil, or_false] at hip
      rcases hip with rfl | rfl
      · exact hfirst
      · exact hsecond
    exact (htight.foldl_step acts).exactAt (foldl_step_spec (setup_spec _ _) acts).1

/-- The first address of a network with six hosts. -/
theorem pool_exhaustion_exact_small :
    let net : Net 32 := ⟨0x0a000001, 29, by decide⟩
    seedAndReserveDnsPool 0x0a000001 29 =
        .ok (setup (some net) [0x0a000001, 0x0a000002], 0x0a000002) ∧
      ∀ acts : List DnsAct, ExactAt net [0x0a000001, 0x0a000002]
        (acts.foldl DnsMatcher.step (setup (some net) [0x0a000001, 0x0a000002])) := by
  intro net
  refine ⟨rfl, ?_⟩
  obtain ⟨net', hnet, hiff⟩ := pool_exhaustion_exact 0x0a000001 0x0a000002 29
    (setup (some net) [0x0a000001, 0x0a000002]) rfl
  obtain rfl : net = net' := Option.some.inj hnet
  exact hiff.mpr (.inr ⟨by decide, by decide⟩)

/-- The utun's address is the last host: its neighbour is the broadcast address, which counts as in
use, so the first name gets nothing while a host is free. -/
theorem pool_exhaustion_early :
    let net : Net 32 := ⟨0x0a000002, 30, by decide⟩
    let d := setup (some net) [0x0a000002, 0x0a000003]
    utunNet 0x0a000002 30 = some net ∧ seedAndReserveDnsPool 0x0a000002 30 = .ok (d, 0x0a000003) ∧
      (d.register "web".toList "svc".toList).1 = .ipUnavailable ∧
      Free net [0x0a000002, 0x0a000003] d 0x0a000001 := by
  intro net d
  refine ⟨rfl, rfl, by decide +kernel, by decide, by decide, fun name e he => ?_⟩
  change (∅ : Std.ExtTreeMap Text DnsEntry)[name]? = some e at he
  simp at he

end DnsMatcher

end Noa.Tunnel.Intercept
