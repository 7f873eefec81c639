import Noa.Tunnel.Intercept.Dns

namespace Noa.Tunnel.Intercept
open Noa.Framework

section Pool

namespace IpPool

/-- The counter runs over the hosts of the network, without the first and the last. A network of two
addresses has no such host, and no capacity. -/
structure Wf (net : Net 32) (p : IpPool) : Prop where
  base : p.base = net.network
  counterMask : p.counterMask = net.hostmask
  lower : 1 ≤ p.counter.toNat
  upper : p.capacity = 0 ∨ p.counter.toNat < net.hostmask.toNat

theorem seed_wf {net : Net 32} {p : IpPool} (h : IpPool.seed net = some p) : p.Wf net := by
  unfold IpPool.seed at h
  split_ifs at h with hbits
  cases h
  have hsub : 32 - (32 - net.prefixLen) = net.prefixLen := by omega
  have hmask : BitVec.allOnes 32 >>> (32 - (32 - net.prefixLen)) = net.hostmask := by
    rw [hsub]
    rfl
  refine ⟨?_, hmask, le_rfl, ?_⟩
  · rw [Net.network, Net.netmask_eq, ← hmask]
  · rw [Net.toNat_hostmask]
    have hone : (1 : BitVec 32).toNat = 1 := rfl
    rw [hone]
    obtain hlast | hmore : 32 - net.prefixLen = 1 ∨ 2 ≤ 32 - net.prefixLen := by omega
    · left
      rw [hlast]
      rfl
    · right
      have hpow : 2 ^ 2 ≤ 2 ^ (32 - net.prefixLen) := Nat.pow_le_pow_right (by omega) hmore
      omega

variable {net : Net 32} {p p' : IpPool} {ip : BitVec 32}

theorem Wf.next (h : p.Wf net) (hcap : p.capacity ≠ 0) : p.next.2.Wf net := by
  have hlt := h.upper.resolve_left hcap
  have hlower := h.lower
  have hmask := net.hostmask.isLt
  have hone : (1 : BitVec 32).toNat = 1 := rfl
  have hsucc : (p.counter + 1).toNat = p.counter.toNat + 1 := by
    rw [BitVec.toNat_add, hone]
    omega
  refine ⟨h.base, h.counterMask, ?_, .inr ?_⟩ <;> simp only [IpPool.next, h.counterMask] <;>
    split_ifs with hlast
  · exact le_rfl
  · omega
  · omega
  · have hne : (p.counter + 1).toNat ≠ net.hostmask.toNat := fun heq => hlast (BitVec.toNat_inj.mp heq)
    omega

theorem Wf.next_and_hostmask (h : p.Wf net) (hcap : p.capacity ≠ 0) :
    p.next.1 &&& net.hostmask = p.counter := by
  have hlt := h.upper.resolve_left hcap
  have hcounter : p.counter &&& net.hostmask = p.counter := by
    rw [BitVec.toNat_eq, Net.toNat_and_hostmask]
    rw [Net.toNat_hostmask] at hlt
    exact Nat.mod_eq_of_lt (by omega)
  simp only [IpPool.next, h.base, h.counterMask, hcounter]
  rw [BitVec.and_comm, BitVec.and_or_distrib_left, BitVec.and_comm, Net.network_and_hostmask,
    BitVec.zero_or, BitVec.and_comm, hcounter]

theorem Wf.next_usable (h : p.Wf net) (hcap : p.capacity ≠ 0) :
    p.next.1 ≠ net.network ∧ p.next.1 ≠ net.broadcast := by
  have hlt := h.upper.resolve_left hcap
  have hhost := h.next_and_hostmask hcap
  constructor
  · intro heq
    rw [heq, Net.network_and_hostmask] at hhost
    have hlower := h.lower
    rw [← hhost] at hlower
    exact absurd hlower (by decide)
  · intro heq
    rw [heq, Net.broadcast_and_hostmask] at hhost
    rw [hhost] at hlt
    exact lt_irrefl _ hlt

theorem Wf.allocate (h : p.Wf net) (count : Nat) (isOccupied : BitVec 32 → Bool) :
    (p.allocate count isOccupied).2.Wf net ∧
      ∀ ip, (p.allocate count isOccupied).1 = some ip → ip ≠ net.network ∧ ip ≠ net.broadcast := by
  obtain ⟨hwf, hgood⟩ := @allocate_induction (Wf net)
    (fun ip => ip ≠ net.network ∧ ip ≠ net.broadcast)
    (fun _ h hcap => ⟨h.next hcap, h.next_usable hcap⟩) p h count isOccupied
  exact ⟨hwf, fun ip hip => (hgood ip hip).1⟩

end IpPool

end Pool

namespace DnsMatcher

variable {d d' : DnsMatcher} {address service query name : Text}

/-- What a registration answers and does to the tables. -/
inductive Registers (d : DnsMatcher) (address service : Text) : RegisterOutcome × DnsMatcher → Prop
  | rejected : Registers d address service (.rejected, d)
  | claim (ha : IsWildcard address) (hlen : utf8Len (suffixOf address) < 254) :
    Registers d address service (.domain, { d with
      domains := d.domains.insert (suffixOf address)
        ((d.domains[suffixOf address]?.getD ∅).insert service) })
  | share (ha : ¬ IsWildcard address) (e : DnsEntry)
      (he : d.hostnames[lowerAscii address]? = some e) :
    Registers d address service (.hostname e.ip, { d with
      hostnames := d.hostnames.insert (lowerAscii address)
        { e with intercepts := e.intercepts.insert service } })
  | exhausted : Registers d address service (.ipUnavailable, d.allocateIp.2)
  | assign (ha : ¬ IsWildcard address) (ip : BitVec 32)
      (hnew : d.hostnames[lowerAscii address]? = none) (hip : d.allocateIp.1 = some ip) :
    Registers d address service (.hostname ip, d.allocateIp.2.insertHostname (lowerAscii address)
      ⟨ip, none, (∅ : Owners).insert service⟩)

theorem register_registers (d : DnsMatcher) (address service : Text) :
    d.Registers address service (d.register address service) := by
  unfold register
  by_cases ha : IsWildcard address
  · rw [checkName_wildcard ha]
    split_ifs with hlen
    · exact .claim ha hlen
    · exact .rejected
  · rw [checkName_hostname ha]
    split_ifs
    · dsimp only
      cases he : d.hostnames[lowerAscii address]? with
      | some e => exact .share ha e he
      | none =>
        rcases hall : d.allocateIp with ⟨_ | ip, d'⟩
        · have hnone : d.Registers address service _ := .exhausted
          rwa [hall] at hnone
        · have hassign : d.Registers address service _ := .assign ha ip he (congrArg Prod.fst hall)
          rwa [hall] at hassign
    · exact .rejected

/-- What a query is answered with and does to the tables. -/
inductive Answers (d : DnsMatcher) (query : Text) : Option DnsMatch × DnsMatcher → Prop
  | unanswered : Answers d query (none, d)
  | known (e : DnsEntry) (he : d.hostnames[lowerAscii query]? = some e) :
    Answers d query (some ⟨if e.domain.isSome then .domain else .hostname, e.ip⟩, d)
  | exhausted : Answers d query (none, d.allocateIp.2)
  | assign (ip : BitVec 32) (dom : Text) (hnew : d.hostnames[lowerAscii query]? = none)
      (hdom : findDomain (lowerAscii query) d.domains = some dom) (hip : d.allocateIp.1 = some ip) :
    Answers d query (some ⟨.domain, ip⟩,
      d.allocateIp.2.insertHostname (lowerAscii query) ⟨ip, some dom, ∅⟩)

theorem lookup_answers (d : DnsMatcher) (query : Text) : d.Answers query (d.lookup query) := by
  unfold lookup
  by_cases hq : IsWildcard query
  · rw [checkName_wildcard hq]
    split_ifs <;> exact .unanswered
  · rw [checkName_hostname hq]
    split_ifs
    · dsimp only
      cases he : d.hostnames[lowerAscii query]? with
      | some e => exact .known e he
      | none =>
        dsimp only
        cases hdom : findDomain (lowerAscii query) d.domains with
        | none => exact .unanswered
        | some dom =>
          rcases hall : d.allocateIp with ⟨_ | ip, d'⟩
          · have hnone : d.Answers query _ := .exhausted
            rwa [hall] at hnone
          · have hassign := Answers.assign ip dom he hdom (congrArg Prod.fst hall)
            rwa [hall] at hassign
    · exact .unanswered

section Sustained

theorem keepsEntry_iff {domains : Std.ExtTreeMap Text Owners} {e : DnsEntry} :
    keepsEntry domains e = true ↔ e.intercepts.isEmpty = false ∨
      ∃ (dom : Text) (owners : Owners), e.domain = some dom ∧ domains[dom]? = some owners ∧
        owners.isEmpty = false := by
  simp [keepsEntry, Option.any_eq_true]

theorem insert_isEmpty (owners : Owners) (service : Text) :
    (owners.insert service).isEmpty = false :=
  Bool.eq_false_iff.mpr fun hempty =>
    Std.ExtTreeSet.not_mem_empty (Std.ExtTreeSet.isEmpty_iff.mp hempty ▸ Std.ExtTreeSet.mem_insert_self)

/-- Names and domains are there for somebody. -/
structure Sustained (d : DnsMatcher) : Prop where
  alive : ∀ (name : Text) (e : DnsEntry), d.hostnames[name]? = some e →
    keepsEntry d.domains e = true
  owned : ∀ (dom : Text) (owners : Owners), d.domains[dom]? = some owners → owners.isEmpty = false

theorem sustained_new : new.Sustained := by
  constructor <;> simp [new]

theorem Sustained.congr (h : d.Sustained) (hh : d'.hostnames = d.hostnames)
    (hd : d'.domains = d.domains) : d'.Sustained := by
  constructor
  · rw [hh, hd]
    exact h.alive
  · rw [hd]
    exact h.owned

theorem Sustained.insert {e : DnsEntry} (h : d.Sustained) (hkeep : keepsEntry d.domains e = true)
    (name : Text) : { d with hostnames := d.hostnames.insert name e }.Sustained := by
  refine ⟨fun n x hx => ?_, h.owned⟩
  simp only [lookup_insert] at hx
  split_ifs at hx
  · obtain rfl := Option.some.inj hx
    exact hkeep
  · exact h.alive n x hx

theorem Sustained.claim (h : d.Sustained) (dom service : Text) :
    { d with
      domains := d.domains.insert dom ((d.domains[dom]?.getD ∅).insert service) }.Sustained := by
  constructor
  · intro n x hx
    refine keepsEntry_iff.mpr ((keepsEntry_iff.mp (h.alive n x hx)).imp_right ?_)
    rintro ⟨dom', owners, hdom', howners, hempty⟩
    by_cases heq : dom = dom'
    · refine ⟨dom', _, hdom', ?_, insert_isEmpty (d.domains[dom]?.getD ∅) service⟩
      rw [lookup_insert, if_pos heq]
    · refine ⟨dom', owners, hdom', ?_, hempty⟩
      rw [lookup_insert, if_neg heq, howners]
  · intro dom' owners howners
    rw [lookup_insert] at howners
    split_ifs at howners
    · obtain rfl := Option.some.inj howners
      exact insert_isEmpty _ service
    · exact h.owned dom' owners howners

theorem deregisterIntercept_domains (d : DnsMatcher) (service dom : Text) :
    (d.deregisterIntercept service).domains[dom]? =
      (d.domains[dom]?.map fun owners => owners.erase service).filter fun owners => !owners.isEmpty := by
  simp only [deregisterIntercept, Std.ExtTreeMap.getElem?_filter', Std.ExtTreeMap.getElem?_map]

/-- A name goes with the service exactly if neither another owner nor its domain keeps it. -/
theorem deregisterIntercept_stays {e : DnsEntry} (he : d.hostnames[name]? = some e) (service : Text) :
    (∃ x, (d.deregisterIntercept service).hostnames[name]? = some x) ↔
      keepsEntry (d.domains.map fun _ owners => owners.erase service)
        { e with intercepts := e.intercepts.erase service } = true := by
  rw [deregisterIntercept_hostnames, he]
  simp [Option.filter_eq_some_iff]

/-- What loses its last owner goes at once, so nothing needs to have been owned before. -/
theorem sustained_deregisterIntercept (d : DnsMatcher) (service : Text) :
    (d.deregisterIntercept service).Sustained := by
  constructor
  · intro n x hx
    obtain ⟨e, he, rfl⟩ := deregisterIntercept_kept hx
    obtain howner | ⟨dom, owners, hdom, howners, hempty⟩ :=
      keepsEntry_iff.mp ((deregisterIntercept_stays he service).mp ⟨_, hx⟩)
    · exact keepsEntry_iff.mpr (.inl howner)
    · refine keepsEntry_iff.mpr (.inr ⟨dom, owners, hdom, ?_, hempty⟩)
      rw [Std.ExtTreeMap.getElem?_map] at howners
      rw [deregisterIntercept_domains, howners]
      simp [hempty]
  · intro dom owners howners
    rw [deregisterIntercept_domains] at howners
    simpa using (Option.filter_eq_some_iff.mp howners).2

theorem Sustained.insertHostname {e : DnsEntry} (h : d.Sustained)
    (hkeep : keepsEntry d.domains e = true) (name : Text) :
    (d.allocateIp.2.insertHostname name e).Sustained := by
  obtain ⟨⟨hh, hd, -⟩, -⟩ := d.allocateIp_spec
  refine (h.insert hkeep name).congr ?_ hd
  simp only [DnsMatcher.insertHostname, hh]

theorem Sustained.registers {r : RegisterOutcome × DnsMatcher} (h : d.Sustained)
    (hr : d.Registers address service r) : r.2.Sustained := by
  cases hr with
  | rejected => exact h
  | claim => exact h.claim _ service
  | share _ e he => exact h.insert (keepsEntry_iff.mpr (.inl (insert_isEmpty _ service))) _
  | exhausted => exact h.congr d.allocateIp_spec.1.1 d.allocateIp_spec.1.2.1
  | assign _ ip =>
    exact h.insertHostname (keepsEntry_iff.mpr (.inl (insert_isEmpty _ service))) _

theorem Sustained.answers {r : Option DnsMatch × DnsMatcher} (h : d.Sustained)
    (ha : d.Answers query r) : r.2.Sustained := by
  cases ha with
  | unanswered => exact h
  | known => exact h
  | exhausted => exact h.congr d.allocateIp_spec.1.1 d.allocateIp_spec.1.2.1
  | assign ip dom hnew hdom hip =>
    obtain ⟨owners, howners⟩ := mem_iff_lookup.mp (findDomain_mem hdom)
    refine h.insertHostname (keepsEntry_iff.mpr (.inr ⟨dom, owners, rfl, howners, ?_⟩)) _
    exact h.owned dom owners howners

end Sustained

/-- The tables lead from names to addresses and back. -/
structure Bijective (net : Option (Net 32)) (reserved : List (BitVec 32)) (d : DnsMatcher) :
    Prop where
  forward : ∀ (name : Text) (e : DnsEntry), d.hostnames[name]? = some e →
    d.ipAddresses[e.ip]? = some name
  back : ∀ (ip : BitVec 32) (name : Text), d.ipAddresses[ip]? = some name →
    ip ∈ reserved ∨ ∃ e, d.hostnames[name]? = some e ∧ e.ip = ip
  held : ∀ ip ∈ reserved, ip ∈ d.ipAddresses
  unreserved : ∀ (name : Text) (e : DnsEntry), d.hostnames[name]? = some e → e.ip ∉ reserved
  pool : ∀ p, d.pool = some p → ∃ n, net = some n ∧ p.Wf n
  usable : ∀ (name : Text) (e : DnsEntry) n, d.hostnames[name]? = some e → net = some n →
    e.ip ≠ n.network ∧ e.ip ≠ n.broadcast

variable {net : Option (Net 32)} {reserved : List (BitVec 32)}

theorem Bijective.allocateIp (h : d.Bijective net reserved) :
    d.allocateIp.2.Bijective net reserved ∧
      ∀ ip n, d.allocateIp.1 = some ip → net = some n → ip ≠ n.network ∧ ip ≠ n.broadcast := by
  unfold DnsMatcher.allocateIp
  cases hp : d.pool with
  | none => exact ⟨h, nofun⟩
  | some p =>
    obtain ⟨n, hn, hwf⟩ := h.pool p hp
    obtain ⟨hwf', husable⟩ := hwf.allocate d.ipAddresses.size
      fun ip => d.ipAddresses.contains ip
    refine ⟨{ h with pool := ?_ }, ?_⟩
    · intro p' hp'
      cases hp'
      exact ⟨n, hn, hwf'⟩
    · intro ip n' hip hn'
      obtain rfl := Option.some.inj (hn.symm.trans hn')
      exact husable ip hip

theorem Bijective.insertHostname {e : DnsEntry} (h : d.Bijective net reserved)
    (hnew : d.hostnames[name]? = none) (hfree : d.ipAddresses[e.ip]? = none)
    (husable : ∀ n, net = some n → e.ip ≠ n.network ∧ e.ip ≠ n.broadcast) :
    (d.insertHostname name e).Bijective net reserved := by
  have hother {n : Text} {x : DnsEntry} (hx : d.hostnames[n]? = some x) : name ≠ n ∧ e.ip ≠ x.ip := by
    constructor
    · rintro rfl
      rw [hnew] at hx
      cases hx
    · intro heq
      rw [heq, h.forward n x hx] at hfree
      cases hfree
  have hlookup {n : Text} {x : DnsEntry} (hx : (d.insertHostname name e).hostnames[n]? = some x) :
      (n = name ∧ x = e) ∨ d.hostnames[n]? = some x := by
    simp only [DnsMatcher.insertHostname, lookup_insert] at hx
    split_ifs at hx with hn
    · exact .inl ⟨hn.symm, (Option.some.inj hx).symm⟩
    · exact .inr hx
  refine ⟨?_, ?_, ?_, ?_, h.pool, ?_⟩
  · intro n x hx
    simp only [DnsMatcher.insertHostname, lookup_insert]
    obtain ⟨rfl, rfl⟩ | hold := hlookup hx
    · rw [if_pos rfl]
    · rw [if_neg (hother hold).2]
      exact h.forward n x hold
  · intro ip n hip
    simp only [DnsMatcher.insertHostname, lookup_insert] at hip ⊢
    split_ifs at hip with heq
    · obtain rfl := Option.some.inj hip
      exact .inr ⟨e, if_pos rfl, heq⟩
    · refine (h.back ip n hip).imp_right ?_
      rintro ⟨x, hx, hxip⟩
      exact ⟨x, by rw [if_neg (hother hx).1, hx], hxip⟩
  · intro ip hip
    exact Std.ExtTreeMap.mem_insert.mpr (.inr (h.held ip hip))
  · intro n x hx hres
    obtain ⟨rfl, rfl⟩ | hold := hlookup hx
    · obtain ⟨m, hm⟩ := mem_iff_lookup.mp (h.held _ hres)
      rw [hfree] at hm
      cases hm
    · exact h.unreserved n x hold hres
  · intro n x n' hx hn'
    obtain ⟨rfl, rfl⟩ | hold := hlookup hx
    · exact husable n' hn'
    · exact h.usable n x n' hold hn'

theorem Bijective.share {e : DnsEntry} (h : d.Bijective net reserved)
    (he : d.hostnames[name]? = some e) (service : Text) :
    { d with
      hostnames := d.hostnames.insert name { e with intercepts := e.intercepts.insert service }
      : DnsMatcher }.Bijective net reserved := by
  let e' : DnsEntry := { e with intercepts := e.intercepts.insert service }
  -- the entry of a name has the address it had
  have hlookup {n : Text} {x : DnsEntry} (hx : (d.hostnames.insert name e')[n]? = some x) :
      ∃ y, d.hostnames[n]? = some y ∧ y.ip = x.ip := by
    rw [lookup_insert] at hx
    split_ifs at hx with hn
    · subst hn
      obtain rfl := Option.some.inj hx
      exact ⟨e, he, rfl⟩
    · exact ⟨x, hx, rfl⟩
  refine { h with forward := ?_, back := ?_, unreserved := ?_, usable := ?_ }
  · intro n x hx
    obtain ⟨y, hy, hip⟩ := hlookup hx
    exact hip ▸ h.forward n y hy
  · intro ip n hip
    refine (h.back ip n hip).imp_right fun ⟨x, hx, hxip⟩ => ?_
    by_cases hn : name = n
    · subst hn
      obtain rfl := Option.some.inj (he.symm.trans hx)
      exact ⟨e', by rw [lookup_insert, if_pos rfl], hxip⟩
    · exact ⟨x, by rw [lookup_insert, if_neg hn, hx], hxip⟩
  · intro n x hx
    obtain ⟨y, hy, hip⟩ := hlookup hx
    exact hip ▸ h.unreserved n y hy
  · intro n x n' hx hn'
    obtain ⟨y, hy, hip⟩ := hlookup hx
    exact hip ▸ h.usable n y n' hy hn'

theorem deregisterIntercept_ipAddresses (h : d.Bijective net reserved) (service : Text)
    {ip : BitVec 32} {n : Text} :
    (d.deregisterIntercept service).ipAddresses[ip]? = some n ↔
      d.ipAddresses[ip]? = some n ∧ ∀ e, d.hostnames[n]? = some e → e.ip = ip →
        ∃ x, (d.deregisterIntercept service).hostnames[n]? = some x := by
  simp only [deregisterIntercept]
  rw [lookup_foldl_erase (fun kv : Text × DnsEntry => kv.2.ip)]
  split_ifs with hdropped
  · obtain ⟨⟨m, y⟩, hmem, hip⟩ := List.mem_map.mp hdropped
    obtain ⟨hlist, hgone⟩ := List.mem_filter.mp hmem
    rw [Std.ExtTreeMap.mem_toList_iff_getElem?_eq_some, Std.ExtTreeMap.getElem?_map,
      Option.map_eq_some_iff] at hlist
    obtain ⟨e, he, rfl⟩ := hlist
    refine iff_of_false (by rintro ⟨⟩) ?_
    rintro ⟨hn, hall⟩
    have hm := h.forward m e he
    rw [show e.ip = ip from hip, hn] at hm
    obtain rfl := Option.some.inj hm
    have hkeep := (deregisterIntercept_stays he service).mp (hall e he hip)
    rw [hkeep] at hgone
    cases hgone
  · refine (and_iff_left_of_imp fun _ e he hip => ?_).symm
    refine (deregisterIntercept_stays he service).mpr (by_contra fun hgone => hdropped ?_)
    refine List.mem_map.mpr ⟨(n, { e with intercepts := e.intercepts.erase service }),
      List.mem_filter.mpr ⟨?_, ?_⟩, hip⟩
    · rw [Std.ExtTreeMap.mem_toList_iff_getElem?_eq_some, Std.ExtTreeMap.getElem?_map, he]
      rfl
    · rw [Bool.eq_false_iff.mpr hgone]
      rfl

theorem Bijective.deregisterIntercept (h : d.Bijective net reserved) (service : Text) :
    (d.deregisterIntercept service).Bijective net reserved := by
  refine ⟨?_, ?_, ?_, ?_, h.pool, ?_⟩
  · intro n x hx
    obtain ⟨e, he, rfl⟩ := deregisterIntercept_kept hx
    exact (deregisterIntercept_ipAddresses h service).mpr ⟨h.forward n e he, fun _ _ _ => ⟨_, hx⟩⟩
  · intro ip n hip
    obtain ⟨hold, hstays⟩ := (deregisterIntercept_ipAddresses h service).mp hip
    refine (h.back ip n hold).imp_right fun ⟨e, he, heip⟩ => ?_
    obtain ⟨x, hx⟩ := hstays e he heip
    obtain ⟨e', he', rfl⟩ := deregisterIntercept_kept hx
    obtain rfl := Option.some.inj (he.symm.trans he')
    exact ⟨_, hx, heip⟩
  · intro ip hip
    obtain ⟨n, hn⟩ := mem_iff_lookup.mp (h.held ip hip)
    refine mem_iff_lookup.mpr ⟨n, (deregisterIntercept_ipAddresses h service).mpr ⟨hn, ?_⟩⟩
    intro e he heip
    exact absurd hip (heip ▸ h.unreserved n e he)
  · intro n x hx
    obtain ⟨e, he, rfl⟩ := deregisterIntercept_kept hx
    exact h.unreserved n e he
  · intro n x n' hx hn'
    obtain ⟨e, he, rfl⟩ := deregisterIntercept_kept hx
    exact h.usable n e n' he hn'

theorem Bijective.registers {r : RegisterOutcome × DnsMatcher} (h : d.Bijective net reserved)
    (hr : d.Registers address service r) : r.2.Bijective net reserved := by
  obtain ⟨⟨hh, -, hi⟩, hfree⟩ := d.allocateIp_spec
  obtain ⟨hall, husable⟩ := h.allocateIp
  cases hr with
  | rejected => exact h
  | claim => exact { h with }
  | share _ e he => exact h.share he service
  | exhausted => exact hall
  | assign _ ip hnew hip =>
    exact hall.insertHostname (hh ▸ hnew) (hi ▸ hfree ip hip) fun n hn => husable ip n hip hn

theorem Bijective.answers {r : Option DnsMatch × DnsMatcher} (h : d.Bijective net reserved)
    (ha : d.Answers query r) : r.2.Bijective net reserved := by
  obtain ⟨⟨hh, -, hi⟩, hfree⟩ := d.allocateIp_spec
  obtain ⟨hall, husable⟩ := h.allocateIp
  cases ha with
  | unanswered => exact h
  | known => exact h
  | exhausted => exact hall
  | assign ip dom hnew hdom hip =>
    exact hall.insertHostname (hh ▸ hnew) (hi ▸ hfree ip hip) fun n hn => husable ip n hip hn

/-- A pool from the network its argument is parsed to, and addresses kept from it. -/
def setup (net : Option (Net 32)) (reserved : List (BitVec 32)) : DnsMatcher :=
  reserved.foldl reserve (new.seedPool net).2

theorem seedPool_new (net : Option (Net 32)) :
    (new.seedPool net).2 = { new with pool := net.bind IpPool.seed } := by
  unfold seedPool
  cases net.bind IpPool.seed <;> rfl

theorem foldl_reserve (reserved : List (BitVec 32)) (d : DnsMatcher) :
    (reserved.foldl reserve d).hostnames = d.hostnames ∧
      (reserved.foldl reserve d).domains = d.domains ∧ (reserved.foldl reserve d).pool = d.pool ∧
      ∀ ip, ip ∈ (reserved.foldl reserve d).ipAddresses ↔ ip ∈ reserved ∨ ip ∈ d.ipAddresses := by
  induction reserved generalizing d with
  | nil => simp
  | cons r reserved ih =>
    obtain ⟨hh, hd, hp, hi⟩ := ih (d.reserve r)
    refine ⟨hh, hd, hp, fun ip => ?_⟩
    rw [List.foldl_cons, hi, List.mem_cons, reserve, Std.ExtTreeMap.mem_insertIfNew,
      Std.compare_eq_iff_eq, eq_comm]
    tauto

theorem setup_spec (net : Option (Net 32)) (reserved : List (BitVec 32)) :
    (setup net reserved).Bijective net reserved ∧ (setup net reserved).Sustained := by
  obtain ⟨hh, hd, hp, hi⟩ := foldl_reserve reserved (new.seedPool net).2
  rw [← setup] at hh hd hp hi
  rw [seedPool_new] at hh hd hp hi
  have hempty (name : Text) : (setup net reserved).hostnames[name]? = none := by
    rw [hh]
    simp [new]
  refine ⟨⟨?_, ?_, ?_, ?_, ?_, ?_⟩, sustained_new.congr hh hd⟩
  · intro name e he
    cases (hempty name).symm.trans he
  · intro ip name hip
    refine .inl (((hi ip).mp (mem_iff_lookup.mpr ⟨name, hip⟩)).resolve_right ?_)
    simp [new]
  · intro ip hip
    exact (hi ip).mpr (.inl hip)
  · intro name e he
    cases (hempty name).symm.trans he
  · intro p hpool
    rw [hp] at hpool
    obtain ⟨n, hn, hseed⟩ := Option.bind_eq_some_iff.mp hpool
    exact ⟨n, hn, IpPool.seed_wf hseed⟩
  · intro name e n he
    cases (hempty name).symm.trans he

end DnsMatcher

inductive DnsAct where
  | register (address intercept : Text)
  | lookup (query : Text)
  | deregisterIntercept (intercept : Text)

namespace DnsMatcher

def step (d : DnsMatcher) : DnsAct → DnsMatcher
  | .register address intercept => (d.register address intercept).2
  | .lookup query => (d.lookup query).2
  | .deregisterIntercept intercept => d.deregisterIntercept intercept

variable {d : DnsMatcher} {net : Option (Net 32)} {reserved : List (BitVec 32)}

theorem step_spec (h : d.Bijective net reserved ∧ d.Sustained) (act : DnsAct) :
    (d.step act).Bijective net reserved ∧ (d.step act).Sustained := by
  cases act with
  | register address intercept =>
    have hr := register_registers d address intercept
    exact ⟨h.1.registers hr, h.2.registers hr⟩
  | lookup query =>
    have ha := lookup_answers d query
    exact ⟨h.1.answers ha, h.2.answers ha⟩
  | deregisterIntercept intercept =>
    exact ⟨h.1.deregisterIntercept intercept, sustained_deregisterIntercept d intercept⟩

theorem foldl_step_spec (h : d.Bijective net reserved ∧ d.Sustained) (acts : List DnsAct) :
    (acts.foldl DnsMatcher.step d).Bijective net reserved ∧
      (acts.foldl DnsMatcher.step d).Sustained := by
  induction acts generalizing d with
  | nil => exact h
  | cons act acts ih => exact ih (step_spec h act)

theorem synthetic_ip_bijection (net : Option (Net 32)) (reserved : List (BitVec 32))
    (acts : List DnsAct) :
    let d := acts.foldl DnsMatcher.step (setup net reserved)
    (∀ (name name' : Text) (e e' : DnsEntry), d.hostnames[name]? = some e →
      d.hostnames[name']? = some e' → e.ip = e'.ip → name = name') ∧
    (∀ (name : Text) (e : DnsEntry), d.hostnames[name]? = some e →
      d.ipAddresses[e.ip]? = some name) ∧
    (∀ ip ∈ d.ipAddresses, ip ∈ reserved ∨
      ∃! name : Text, ∃ e, d.hostnames[name]? = some e ∧ e.ip = ip) ∧
    (∀ (name : Text) (e : DnsEntry), d.hostnames[name]? = some e →
      e.intercepts ≠ ∅ ∨ ∃ dom ∈ d.domains, e.domain = some dom) ∧
    (∀ (dom : Text) (owners : Owners), d.domains[dom]? = some owners → owners ≠ ∅) ∧
    ∀ (name : Text) (e : DnsEntry), d.hostnames[name]? = some e →
      e.ip ∉ reserved ∧ ∀ n, net = some n → e.ip ≠ n.network ∧ e.ip ≠ n.broadcast := by
  intro d
  obtain ⟨h, hsustained⟩ : d.Bijective net reserved ∧ d.Sustained :=
    foldl_step_spec (setup_spec net reserved) acts
  have hinj (name name' : Text) (e e' : DnsEntry) (he : d.hostnames[name]? = some e)
      (he' : d.hostnames[name']? = some e') (hip : e.ip = e'.ip) : name = name' := by
    have hname := h.forward name e he
    rw [hip, h.forward name' e' he'] at hname
    exact (Option.some.inj hname).symm
  refine ⟨hinj, h.forward, ?_, ?_, ?_, ?_⟩
  · intro ip hip
    obtain ⟨name, hname⟩ := mem_iff_lookup.mp hip
    refine (h.back ip name hname).imp_right fun ⟨e, he, heip⟩ => ⟨name, ⟨e, he, heip⟩, ?_⟩
    rintro name' ⟨e', he', heip'⟩
    exact hinj name' name e' e he' he (heip'.trans heip.symm)
  · intro name e he
    refine (keepsEntry_iff.mp (hsustained.alive name e he)).imp (fun hne hempty => ?_) ?_
    · rw [hempty] at hne
      cases hne
    · rintro ⟨dom, owners, hdom, howners, -⟩
      exact ⟨dom, mem_iff_lookup.mpr ⟨owners, howners⟩, hdom⟩
  · rintro dom owners howners rfl
    cases hsustained.owned dom ∅ howners
  · intro name e he
    exact ⟨h.unreserved name e he, fun n hn => h.usable name e n he hn⟩

end DnsMatcher

end Noa.Tunnel.Intercept
