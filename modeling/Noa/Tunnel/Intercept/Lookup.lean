import Noa.Tunnel.Intercept.SyntheticIp

namespace Noa.Tunnel.Intercept
open Noa.Framework

section Domains

variable {domains : Std.ExtTreeMap Text Owners} {name dom : Text}

/-- A domain or one above it. -/
def LabelSuffix (suffix domain : Text) : Prop := suffix = domain ∨ '.' :: suffix <:+ domain

/-- The longest registered domain a name is, or is under. -/
structure LongestDomain (domains : Std.ExtTreeMap Text Owners) (name dom : Text) : Prop where
  registered : dom ∈ domains
  suffix : LabelSuffix dom name
  longest : ∀ dom' ∈ domains, LabelSuffix dom' name → dom'.length ≤ dom.length

theorem LabelSuffix.length_le (h : LabelSuffix dom name) : dom.length ≤ name.length := by
  rcases h with rfl | hparent
  · exact Nat.le_refl _
  · have hlen := hparent.length_le
    rw [List.length_cons] at hlen
    omega

theorem findParent_some (h : findParent domains name = some dom) : '.' :: dom <:+ name ∧
    ∀ dom' ∈ domains, '.' :: dom' <:+ name → dom'.length ≤ dom.length := by
  induction name with
  | nil => cases h
  | cons c rest ih =>
    unfold findParent at h
    split_ifs at h with hc
    · cases h
      refine ⟨hc.1 ▸ List.suffix_refl _, fun dom' _ hdom' => ?_⟩
      exact Nat.le_of_succ_le_succ hdom'.length_le
    · obtain ⟨hparent, hlongest⟩ := ih h
      refine ⟨hparent.trans (List.suffix_cons c rest), fun dom' hmem hdom' => ?_⟩
      rcases List.suffix_cons_iff.mp hdom' with heq | hrest
      · cases heq
        exact absurd ⟨rfl, hmem⟩ hc
      · exact hlongest dom' hmem hrest

theorem findParent_none (h : findParent domains name = none) :
    ∀ dom ∈ domains, ¬ '.' :: dom <:+ name := by
  induction name with
  | nil =>
    intro dom _ hparent
    cases List.suffix_nil.mp hparent
  | cons c rest ih =>
    unfold findParent at h
    split_ifs at h with hc
    intro dom hmem hparent
    rcases List.suffix_cons_iff.mp hparent with heq | hrest
    · cases heq
      exact hc ⟨rfl, hmem⟩
    · exact ih h dom hmem hrest

theorem findDomain_some (h : findDomain name domains = some dom) : LongestDomain domains name dom := by
  refine ⟨findDomain_mem h, ?_, ?_⟩ <;> unfold findDomain at h <;> split_ifs at h with hname
  · cases h
    exact .inl rfl
  · exact .inr (findParent_some h).1
  · cases h
    exact fun dom' _ hdom' => hdom'.length_le
  · rintro dom' hmem (rfl | hparent)
    · exact absurd hmem hname
    · exact (findParent_some h).2 dom' hmem hparent

theorem findDomain_none (h : findDomain name domains = none) :
    ∀ dom ∈ domains, ¬ LabelSuffix dom name := by
  unfold findDomain at h
  split_ifs at h with hname
  rintro dom hmem (rfl | hparent)
  · exact hname hmem
  · exact findParent_none h dom hmem hparent

end Domains

namespace DnsMatcher

variable {d : DnsMatcher} {t : Text}

/-- The matcher with the counter of its pool elsewhere. -/
def moved (d : DnsMatcher) (counter : BitVec 32) : DnsMatcher :=
  { d with pool := d.pool.map fun p => { p with counter := counter } }

theorem allocateLoop_moves (isOccupied : BitVec 32 → Bool) (n : Nat) (p : IpPool) :
    ∃ counter, (IpPool.allocateLoop isOccupied n p).2 = { p with counter := counter } := by
  induction n generalizing p with
  | zero => exact ⟨p.counter, rfl⟩
  | succ n ih =>
    unfold IpPool.allocateLoop
    dsimp only
    split_ifs
    · obtain ⟨counter, hcounter⟩ := ih p.next.2
      exact ⟨counter, hcounter⟩
    · exact ⟨_, rfl⟩

theorem allocateIp_moves (d : DnsMatcher) : ∃ counter, d.allocateIp.2 = d.moved counter := by
  unfold allocateIp moved
  cases hpool : d.pool with
  | none =>
    refine ⟨0, ?_⟩
    cases d
    cases hpool
    rfl
  | some p =>
    have hmoves : ∃ counter, (p.allocate d.ipAddresses.size fun ip => d.ipAddresses.contains ip).2 =
        { p with counter := counter } := by
      unfold IpPool.allocate
      split_ifs
      · exact ⟨p.counter, rfl⟩
      · exact allocateLoop_moves _ _ _
    obtain ⟨counter, hcounter⟩ := hmoves
    refine ⟨counter, ?_⟩
    dsimp only
    rw [hcounter]
    rfl

/-- Names that can be looked up. -/
def Lookable (t : Text) : Prop := ¬ IsWildcard t ∧ utf8Len t < 256

/-- What a look-up answers, with why, and what it does to the tables. -/
inductive Looks (d : DnsMatcher) (t : Text) : Option DnsMatch × DnsMatcher → Prop
  | unnamed (h : ¬ Lookable t) : Looks d t (none, d)
  | known (h : Lookable t) (e : DnsEntry) (he : d.hostnames[lowerAscii t]? = some e) :
    Looks d t (some ⟨if e.domain.isSome then .domain else .hostname, e.ip⟩, d)
  | outside (h : Lookable t) (hnew : d.hostnames[lowerAscii t]? = none)
      (hdom : ∀ dom ∈ d.domains, ¬ LabelSuffix dom (lowerAscii t)) : Looks d t (none, d)
  | exhausted (h : Lookable t) (hnew : d.hostnames[lowerAscii t]? = none) (dom : Text)
      (hdom : LongestDomain d.domains (lowerAscii t) dom) (hip : d.allocateIp.1 = none) :
    Looks d t (none, d.allocateIp.2)
  | assign (h : Lookable t) (hnew : d.hostnames[lowerAscii t]? = none) (dom : Text)
      (hdom : LongestDomain d.domains (lowerAscii t) dom) (ip : BitVec 32)
      (hip : d.allocateIp.1 = some ip) :
    Looks d t (some ⟨.domain, ip⟩,
      d.allocateIp.2.insertHostname (lowerAscii t) ⟨ip, some dom, ∅⟩)

theorem lookup_looks (d : DnsMatcher) (t : Text) : d.Looks t (d.lookup t) := by
  unfold lookup
  by_cases hwild : IsWildcard t
  · rw [checkName_wildcard hwild]
    split_ifs <;> exact .unnamed fun h => h.1 hwild
  · have hlen : utf8Len (lowerAscii t) = utf8Len t := utf8Len_map_asciiLower t
    rw [checkName_hostname hwild, hlen]
    split_ifs with hshort
    · have hlook : Lookable t := ⟨hwild, hshort⟩
      dsimp only
      cases he : d.hostnames[lowerAscii t]? with
      | some e => exact .known hlook e he
      | none =>
        dsimp only
        cases hdom : findDomain (lowerAscii t) d.domains with
        | none => exact .outside hlook he (findDomain_none hdom)
        | some dom =>
          rcases hall : d.allocateIp with ⟨_ | ip, d'⟩
          · have hnone := Looks.exhausted hlook he dom (findDomain_some hdom) (congrArg Prod.fst hall)
            rwa [hall] at hnone
          · have hassign := Looks.assign hlook he dom (findDomain_some hdom) ip (congrArg Prod.fst hall)
            rwa [hall] at hassign
    · exact .unnamed fun h => hshort h.2

theorem Looks.lookable {out : Option DnsMatch × DnsMatcher} {m : DnsMatch} (h : d.Looks t out)
    (hm : out.1 = some m) : Lookable t := by
  cases h with
  | known h | assign h => exact h
  | unnamed | outside | exhausted => cases hm

theorem Registers.grows {address service : Text} {out : RegisterOutcome × DnsMatcher}
    (h : d.Registers address service out) : d.Grows out.2 := by
  obtain ⟨⟨hh, -, -⟩, -⟩ := d.allocateIp_spec
  have halloc := d.grows_allocateIp
  cases h with
  | rejected => exact .refl d
  | claim => exact .of_hostnames rfl
  | exhausted => exact halloc
  | assign ha ip hnew hip =>
    refine halloc.trans (grows_insertHostname ?_ _)
    rw [hh]
    exact hnew
  | share ha e he => exact grows_addOwner he service

theorem Looks.grows {out : Option DnsMatch × DnsMatcher} (h : d.Looks t out) : d.Grows out.2 := by
  obtain ⟨⟨hh, -, -⟩, -⟩ := d.allocateIp_spec
  have halloc := d.grows_allocateIp
  cases h with
  | unnamed | known | outside => exact .refl d
  | exhausted => exact halloc
  | assign h hnew dom hdom ip hip =>
    refine halloc.trans (grows_insertHostname ?_ _)
    rw [hh]
    exact hnew

end DnsMatcher

end Noa.Tunnel.Intercept
