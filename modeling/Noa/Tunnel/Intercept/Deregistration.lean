import Noa.Tunnel.Intercept.SyntheticIp

namespace Noa.Tunnel.Intercept
open Noa.Framework

namespace DnsMatcher

/-- An entry without a service among its owners. -/
def strip (service : Text) (e : DnsEntry) : DnsEntry :=
  { e with intercepts := e.intercepts.erase service }

/-- Somebody who satisfies `p` intercepts the name, or owns the domain it was created under. -/
def OwnedBy (p : Text → Prop) (d : DnsMatcher) (e : DnsEntry) : Prop :=
  (∃ o ∈ e.intercepts, p o) ∨ ∃ (dom : Text) (owners : Owners),
    e.domain = some dom ∧ d.domains[dom]? = some owners ∧ ∃ o ∈ owners, p o

section Sets

theorem mem_erase {owners : Owners} {service o : Text} :
    o ∈ owners.erase service ↔ o ≠ service ∧ o ∈ owners := by
  rw [Std.ExtTreeSet.mem_erase, Ne, Std.compare_eq_iff_eq, eq_comm]

theorem isEmpty_eq_false {owners : Owners} : owners.isEmpty = false ↔ ∃ o, o ∈ owners := by
  constructor
  · intro h
    by_contra hnone
    have hempty : owners = ∅ := Std.ExtTreeSet.ext_mem fun o =>
      iff_of_false (fun ho => hnone ⟨o, ho⟩) Std.ExtTreeSet.not_mem_empty
    rw [hempty] at h
    cases h
  · rintro ⟨o, ho⟩
    refine Bool.eq_false_iff.mpr fun hempty => ?_
    rw [Std.ExtTreeSet.isEmpty_iff.mp hempty] at ho
    exact Std.ExtTreeSet.not_mem_empty ho

theorem isEmpty_erase {owners : Owners} {service : Text} :
    (owners.erase service).isEmpty = false ↔ ∃ o ∈ owners, o ≠ service := by
  simp only [isEmpty_eq_false, mem_erase, and_comm]

theorem erase_erase_comm (owners : Owners) (s t : Text) :
    (owners.erase s).erase t = (owners.erase t).erase s := by
  refine Std.ExtTreeSet.ext_mem fun o => ?_
  simp only [mem_erase]
  exact and_left_comm

theorem erase_erase_self (owners : Owners) (s : Text) :
    (owners.erase s).erase s = owners.erase s := by
  refine Std.ExtTreeSet.ext_mem fun o => ?_
  simp only [mem_erase, and_self_left]

theorem strip_comm (s t : Text) (e : DnsEntry) : strip s (strip t e) = strip t (strip s e) := by
  simp only [strip, erase_erase_comm e.intercepts t s]

theorem strip_self (s : Text) (e : DnsEntry) : strip s (strip s e) = strip s e := by
  simp only [strip, erase_erase_self]

end Sets

section Once

variable {d : DnsMatcher} {s t : Text}

theorem keepsEntry_strip (d : DnsMatcher) (s : Text) (e : DnsEntry) :
    keepsEntry (d.domains.map fun _ owners => owners.erase s) (strip s e) = true ↔
      OwnedBy (· ≠ s) d e := by
  rw [keepsEntry_iff, strip, isEmpty_erase]
  refine or_congr_right ?_
  constructor
  · rintro ⟨dom, owners, hdom, howners, hne⟩
    rw [Std.ExtTreeMap.getElem?_map] at howners
    obtain ⟨owners', ho, rfl⟩ := Option.map_eq_some_iff.mp howners
    exact ⟨dom, owners', hdom, ho, isEmpty_erase.mp hne⟩
  · rintro ⟨dom, owners, hdom, ho, hother⟩
    refine ⟨dom, owners.erase s, hdom, ?_, isEmpty_erase.mpr hother⟩
    rw [Std.ExtTreeMap.getElem?_map, ho]
    rfl

theorem deregister_hostnames_iff {name : Text} {x : DnsEntry} :
    (d.deregisterIntercept s).hostnames[name]? = some x ↔
      ∃ e, d.hostnames[name]? = some e ∧ OwnedBy (· ≠ s) d e ∧ x = strip s e := by
  rw [deregisterIntercept_hostnames, Option.filter_eq_some_iff, Option.map_eq_some_iff]
  constructor
  · rintro ⟨⟨e, he, rfl⟩, hkeep⟩
    exact ⟨e, he, (keepsEntry_strip d s e).mp hkeep, rfl⟩
  · rintro ⟨e, he, howned, rfl⟩
    exact ⟨⟨e, he, rfl⟩, (keepsEntry_strip d s e).mpr howned⟩

theorem deregister_domains_iff {dom : Text} {x : Owners} :
    (d.deregisterIntercept s).domains[dom]? = some x ↔
      ∃ owners, d.domains[dom]? = some owners ∧ (∃ o ∈ owners, o ≠ s) ∧ x = owners.erase s := by
  rw [deregisterIntercept_domains, Option.filter_eq_some_iff, Option.map_eq_some_iff]
  constructor
  · rintro ⟨⟨owners, ho, rfl⟩, hne⟩
    exact ⟨owners, ho, isEmpty_erase.mp (by simpa using hne), rfl⟩
  · rintro ⟨owners, ho, hother, rfl⟩
    exact ⟨⟨owners, ho, rfl⟩, by simpa using isEmpty_erase.mpr hother⟩

variable {net : Option (Net 32)} {reserved : List (BitVec 32)}

theorem deregister_ipAddresses_iff (h : d.Bijective net reserved) {ip : BitVec 32} {name : Text} :
    (d.deregisterIntercept s).ipAddresses[ip]? = some name ↔ d.ipAddresses[ip]? = some name ∧
      ∀ e, d.hostnames[name]? = some e → e.ip = ip → OwnedBy (· ≠ s) d e := by
  rw [deregisterIntercept_ipAddresses h]
  refine and_congr_right fun _ => forall_congr' fun e => forall_congr' fun he => ?_
  refine imp_congr_right fun _ => ?_
  constructor
  · rintro ⟨x, hx⟩
    obtain ⟨e', he', howned, -⟩ := deregister_hostnames_iff.mp hx
    cases he.symm.trans he'
    exact howned
  · intro howned
    exact ⟨strip s e, deregister_hostnames_iff.mpr ⟨e, he, howned, rfl⟩⟩

end Once

section Twice

variable {d : DnsMatcher} {s t : Text} {net : Option (Net 32)} {reserved : List (BitVec 32)}

theorem OwnedBy.mono {p q : Text → Prop} {e : DnsEntry} (hpq : ∀ o, p o → q o)
    (h : OwnedBy p d e) : OwnedBy q d e := by
  refine h.imp (fun ⟨o, ho, hp⟩ => ⟨o, ho, hpq o hp⟩) ?_
  rintro ⟨dom, owners, hdom, howners, o, ho, hp⟩
  exact ⟨dom, owners, hdom, howners, o, ho, hpq o hp⟩

theorem ownedBy_strip {e : DnsEntry} :
    OwnedBy (· ≠ t) (d.deregisterIntercept s) (strip s e) ↔ OwnedBy (fun o => o ≠ s ∧ o ≠ t) d e := by
  refine or_congr ?_ ?_
  · simp only [strip, mem_erase]
    exact exists_congr fun o => by tauto
  · constructor
    · rintro ⟨dom, x, hdom, hx, o, ho, hot⟩
      obtain ⟨owners, howners, -, rfl⟩ := deregister_domains_iff.mp hx
      obtain ⟨hos, ho⟩ := mem_erase.mp ho
      exact ⟨dom, owners, hdom, howners, o, ho, hos, hot⟩
    · rintro ⟨dom, owners, hdom, howners, o, ho, hos, hot⟩
      refine ⟨dom, owners.erase s, hdom, ?_, o, mem_erase.mpr ⟨hos, ho⟩, hot⟩
      exact deregister_domains_iff.mpr ⟨owners, howners, ⟨o, ho, hos⟩, rfl⟩

theorem deregister_twice_hostnames_iff {name : Text} {x : DnsEntry} :
    ((d.deregisterIntercept s).deregisterIntercept t).hostnames[name]? = some x ↔
      ∃ e, d.hostnames[name]? = some e ∧ OwnedBy (fun o => o ≠ s ∧ o ≠ t) d e ∧
        x = strip t (strip s e) := by
  rw [deregister_hostnames_iff]
  constructor
  · rintro ⟨e', he', howned, rfl⟩
    obtain ⟨e, he, -, rfl⟩ := deregister_hostnames_iff.mp he'
    exact ⟨e, he, ownedBy_strip.mp howned, rfl⟩
  · rintro ⟨e, he, howned, rfl⟩
    refine ⟨strip s e, ?_, ownedBy_strip.mpr howned, rfl⟩
    exact deregister_hostnames_iff.mpr ⟨e, he, howned.mono fun o ho => ho.1, rfl⟩

theorem deregister_twice_domains_iff {dom : Text} {x : Owners} :
    ((d.deregisterIntercept s).deregisterIntercept t).domains[dom]? = some x ↔
      ∃ owners, d.domains[dom]? = some owners ∧ (∃ o ∈ owners, o ≠ s ∧ o ≠ t) ∧
        x = (owners.erase s).erase t := by
  rw [deregister_domains_iff]
  constructor
  · rintro ⟨y, hy, ⟨o, ho, hot⟩, rfl⟩
    obtain ⟨owners, howners, -, rfl⟩ := deregister_domains_iff.mp hy
    obtain ⟨hos, ho⟩ := mem_erase.mp ho
    exact ⟨owners, howners, ⟨o, ho, hos, hot⟩, rfl⟩
  · rintro ⟨owners, howners, ⟨o, ho, hos, hot⟩, rfl⟩
    refine ⟨owners.erase s, ?_, ⟨o, mem_erase.mpr ⟨hos, ho⟩, hot⟩, rfl⟩
    exact deregister_domains_iff.mpr ⟨owners, howners, ⟨o, ho, hos⟩, rfl⟩

theorem deregister_twice_ipAddresses_iff (h : d.Bijective net reserved) {ip : BitVec 32}
    {name : Text} :
    ((d.deregisterIntercept s).deregisterIntercept t).ipAddresses[ip]? = some name ↔
      d.ipAddresses[ip]? = some name ∧
        ∀ e, d.hostnames[name]? = some e → e.ip = ip → OwnedBy (fun o => o ≠ s ∧ o ≠ t) d e := by
  rw [deregister_ipAddresses_iff (h.deregisterIntercept s), deregister_ipAddresses_iff h, and_assoc]
  refine and_congr_right fun _ => ?_
  constructor
  · rintro ⟨hfirst, hsecond⟩ e he hip
    refine ownedBy_strip.mp (hsecond (strip s e) ?_ hip)
    exact deregister_hostnames_iff.mpr ⟨e, he, hfirst e he hip, rfl⟩
  · intro hboth
    refine ⟨fun e he hip => (hboth e he hip).mono fun o ho => ho.1, fun x hx hip => ?_⟩
    obtain ⟨e, he, -, rfl⟩ := deregister_hostnames_iff.mp hx
    exact ownedBy_strip.mpr (hboth e he hip)

theorem eq_of_maps {d d' : DnsMatcher} (hh : d.hostnames = d'.hostnames)
    (hd : d.domains = d'.domains) (hi : d.ipAddresses = d'.ipAddresses) (hp : d.pool = d'.pool) :
    d = d' := by
  cases d
  cases d'
  simp_all

theorem deregister_idem (h : d.Bijective net reserved) (s : Text) :
    (d.deregisterIntercept s).deregisterIntercept s = d.deregisterIntercept s := by
  refine eq_of_maps ?_ ?_ ?_ rfl
  · ext name x
    rw [deregister_twice_hostnames_iff, deregister_hostnames_iff]
    simp only [and_self, strip_self]
  · ext dom x
    rw [deregister_twice_domains_iff, deregister_domains_iff]
    simp only [and_self, erase_erase_self]
  · ext ip name
    rw [deregister_twice_ipAddresses_iff h, deregister_ipAddresses_iff h]
    simp only [and_self]

theorem deregister_comm (h : d.Bijective net reserved) (s t : Text) :
    (d.deregisterIntercept s).deregisterIntercept t =
      (d.deregisterIntercept t).deregisterIntercept s := by
  have hswap : (fun o => o ≠ t ∧ o ≠ s) = fun o : Text => o ≠ s ∧ o ≠ t := by
    funext o
    exact propext and_comm
  refine eq_of_maps ?_ ?_ ?_ rfl
  · ext name x
    simp only [deregister_twice_hostnames_iff, hswap, strip_comm t s]
  · ext dom x
    simp only [deregister_twice_domains_iff, erase_erase_comm _ t s, and_comm (a := _ ≠ t)]
  · ext ip name
    simp only [deregister_twice_ipAddresses_iff h, hswap]

end Twice

theorem deregistration_exact (net : Option (Net 32)) (reserved : List (BitVec 32))
    (acts : List DnsAct) (s : Text) :
    let d := acts.foldl DnsMatcher.step (setup net reserved)
    let d' := d.deregisterIntercept s
    -- no owner set mentions the service
    (∀ (name : Text) (e : DnsEntry), d'.hostnames[name]? = some e → s ∉ e.intercepts) ∧
    (∀ (dom : Text) (owners : Owners), d'.domains[dom]? = some owners → s ∉ owners) ∧
    -- the names another service keeps stay as they are but for the service, and no others
    (∀ (name : Text) (x : DnsEntry), d'.hostnames[name]? = some x ↔
      ∃ e, d.hostnames[name]? = some e ∧ OwnedBy (· ≠ s) d e ∧
        x.ip = e.ip ∧ x.domain = e.domain ∧ x.intercepts = e.intercepts.erase s) ∧
    (∀ (dom : Text) (x : Owners), d'.domains[dom]? = some x ↔
      ∃ owners, d.domains[dom]? = some owners ∧ (∃ o ∈ owners, o ≠ s) ∧ x = owners.erase s) ∧
    -- so do their addresses; those of the others are free, and the reserved ones are as before
    (∀ (name : Text) (e : DnsEntry), d.hostnames[name]? = some e →
      (OwnedBy (· ≠ s) d e → d'.ipAddresses[e.ip]? = some name) ∧
      (¬ OwnedBy (· ≠ s) d e → e.ip ∉ d'.ipAddresses)) ∧
    (∀ ip, (∀ (name : Text) (e : DnsEntry), d.hostnames[name]? = some e → e.ip ≠ ip) →
      d'.ipAddresses[ip]? = d.ipAddresses[ip]?) ∧
    (∀ ip ∈ reserved, ip ∈ d'.ipAddresses ∧ d'.ipAddresses[ip]? = d.ipAddresses[ip]?) ∧
    d'.pool = d.pool ∧
    d'.deregisterIntercept s = d' ∧
    ∀ t, d'.deregisterIntercept t = (d.deregisterIntercept t).deregisterIntercept s := by
  intro d d'
  have h : d.Bijective net reserved := (foldl_step_spec (setup_spec net reserved) acts).1
  have hsame (ip : BitVec 32) (hip : ∀ (name : Text) (e : DnsEntry),
      d.hostnames[name]? = some e → e.ip ≠ ip) : d'.ipAddresses[ip]? = d.ipAddresses[ip]? := by
    refine Option.ext fun name => ?_
    rw [deregister_ipAddresses_iff h]
    exact and_iff_left fun e he heq => absurd heq (hip name e he)
  refine ⟨?_, ?_, ?_, fun dom x => deregister_domains_iff, ?_, hsame, ?_, rfl, deregister_idem h s,
    fun t => deregister_comm h s t⟩
  · intro name x hx
    obtain ⟨e, -, -, rfl⟩ := deregister_hostnames_iff.mp hx
    exact fun hs => (mem_erase.mp hs).1 rfl
  · intro dom x hx
    obtain ⟨owners, -, -, rfl⟩ := deregister_domains_iff.mp hx
    exact fun hs => (mem_erase.mp hs).1 rfl
  · intro name x
    rw [deregister_hostnames_iff]
    refine exists_congr fun e => and_congr_right fun _ => and_congr_right fun _ => ?_
    constructor
    · rintro rfl
      exact ⟨rfl, rfl, rfl⟩
    · rintro ⟨hip, hdom, hints⟩
      cases x
      simp only [strip, ← hip, ← hdom, ← hints]
  · intro name e he
    have hname := h.forward name e he
    constructor
    · intro howned
      refine (deregister_ipAddresses_iff h).mpr ⟨hname, fun e' he' _ => ?_⟩
      cases he.symm.trans he'
      exact howned
    · intro hnot hmem
      obtain ⟨name', hname'⟩ := mem_iff_lookup.mp hmem
      obtain ⟨hold, hkept⟩ := (deregister_ipAddresses_iff h).mp hname'
      cases hname.symm.trans hold
      exact hnot (hkept e he rfl)
  · intro ip hip
    have hkeep := hsame ip fun name e he heq => h.unreserved name e he (heq ▸ hip)
    refine ⟨?_, hkeep⟩
    obtain ⟨name, hname⟩ := mem_iff_lookup.mp (h.held ip hip)
    exact mem_iff_lookup.mpr ⟨name, hkeep.trans hname⟩

end DnsMatcher

end Noa.Tunnel.Intercept
