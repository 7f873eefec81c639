import Noa.Tunnel.Intercept.Lookup
import Noa.Tunnel.Intercept.Resolver
import Noa.Framework.Machine

namespace Noa.Tunnel.Intercept
open Noa.Framework Noa.Tunnel.Resolve

/-! What dispatch is for, said of the installed configurations alone. -/

/-- Traffic may come from anywhere, or from one of the listed networks. -/
def SourceOk (cfg : InterceptV1Config) (src : IpAddr) : Prop :=
  cfg.allowedSourceAddresses = [] ∨
    ∃ e ∈ cfg.allowedSourceAddresses, ∃ net, parseIpOrCidr e = some net ∧ net.contains src = true

/-- The configuration asks for such traffic, whatever its destination. -/
def Asks (cfg : InterceptV1Config) (port : UInt16) (proto : Protocol) (src : IpAddr) : Prop :=
  proto.asStr ∈ cfg.protocols ∧ (∃ range ∈ cfg.portRanges, range.low ≤ port ∧ port ≤ range.high) ∧
    SourceOk cfg src

/-- The destination is what the address stands for at present. -/
inductive Covers (d : DnsMatcher) (dst : IpAddr) (addr : Text) : Prop
  | network (net : IpNet) (hw : ¬ IsWildcard addr) (hnet : parseIpOrCidr addr = some net)
      (hdst : net.contains dst = true)
  | hostname (e : DnsEntry) (hw : ¬ IsWildcard addr) (hnet : parseIpOrCidr addr = none)
      (he : d.hostnames[lowerAscii addr]? = some e) (hdst : dst = .v4 e.ip)
  | wildcard (name domain : Text) (e : DnsEntry) (hw : IsWildcard addr)
      (he : d.hostnames[name]? = some e) (hdst : dst = .v4 e.ip) (hdom : e.domain = some domain)
      (hsuffix : LabelSuffix (suffixOf addr) domain)

/-- What happens to a resolver. -/
inductive ResolverAct (V : Type) where
  | event (ev : ServiceEvent V)
  | query (name : Text)
  | seedPool (net : Option (Net 32))
  | reserve (ip : BitVec 32)

/-- The service an event is about, and the configuration it is given by it, if any. -/
def ServiceEvent.service {V : Type} : ServiceEvent V → Service V
  | .added svc => svc
  | .changed svc => svc
  | .removed svc => svc

/-- The configuration each service has after an event. -/
def settle {V : Type} (fromValue : V → Except String InterceptV1Config)
    (installed : Text → Option InterceptV1Config) (ev : ServiceEvent V) :
    Text → Option InterceptV1Config :=
  let svc := ev.service
  let given := match ev with
    | .removed _ => some none
    | _ =>
      if "Dial".toList ∉ svc.permissions then some none
      else match svc.interceptV1.map fromValue with
        | some (.ok cfg) => some (some cfg)
        | _ => none
  match given with
  | some config => Function.update installed svc.name config
  | none => installed

/-- A resolver with the configurations the events have installed, and the hostnames of each that
had no address when it was. -/
structure Dispatch (V : Type) where
  resolver : InterceptResolver V
  installed : Text → Option InterceptV1Config
  unassigned : Text → List Text

namespace Dispatch

variable {V : Type} [DecidableEq V] (fromValue : V → Except String InterceptV1Config)

def new : Dispatch V := ⟨.new, fun _ => none, fun _ => []⟩

/-- The hostnames of a configuration that have no address. -/
def withoutAddress (d : DnsMatcher) (cfg : InterceptV1Config) : List Text :=
  cfg.addresses.filter fun a =>
    !decide (IsWildcard a) && (parseIpOrCidr a).isNone && (d.hostnames[lowerAscii a]?).isNone

/-- The unassigned names of a service change when its configuration in the resolver does. -/
def step (s : Dispatch V) : ResolverAct V → Option (Dispatch V)
  | .event ev =>
    let resolver := (s.resolver.applyEvent fromValue ev).2
    let installed := settle fromValue s.installed ev
    let name := ev.service.name
    some ⟨resolver, installed,
      if resolver.installedConfigs[name]? = s.resolver.installedConfigs[name]? then s.unassigned
      else Function.update s.unassigned name
        ((installed name).elim [] (withoutAddress resolver.dns))⟩
  | .query name =>
    some { s with resolver := { s.resolver with dns := (s.resolver.dns.lookup name).2 } }
  | .seedPool net =>
    some { s with resolver := { s.resolver with dns := (s.resolver.dns.seedPool net).2 } }
  | .reserve ip =>
    some { s with resolver := { s.resolver with dns := s.resolver.dns.reserve ip } }

end Dispatch

section Rules

theorem sourceAllowed_iff {rule : InterceptRule} {cfg : InterceptV1Config} {src : IpAddr}
    (h : rule.allowedSources = buildAllowedSources cfg.allowedSourceAddresses) :
    rule.sourceAllowed src = true ↔ SourceOk cfg src := by
  unfold InterceptRule.sourceAllowed SourceOk
  rw [h, buildAllowedSources]
  by_cases hnil : cfg.allowedSourceAddresses = []
  · simp [hnil]
  · have hstar : ∀ e net, parseIpOrCidr e = some net → e.head? ≠ some '*' := by
      intro e net he hs
      obtain ⟨rest, rfl⟩ := List.head?_eq_some_iff.mp hs
      rw [parseIpOrCidr_star] at he
      cases he
    simp only [hnil, if_false, false_or, List.any_eq_true, List.mem_filterMap, List.mem_filter,
      decide_eq_true_eq]
    constructor
    · rintro ⟨net, ⟨e, ⟨he, -⟩, hnet⟩, hsrc⟩
      exact ⟨e, he, net, hnet, hsrc⟩
    · rintro ⟨e, he, net, hnet, hsrc⟩
      exact ⟨net, ⟨e, ⟨he, hstar e net hnet⟩, hnet⟩, hsrc⟩

theorem rules_admit_iff {service : Text} {cfg : InterceptV1Config} {port : UInt16}
    {proto : Protocol} {src : IpAddr} :
    (∃ rule ∈ rules service cfg, rule.admits port proto src = true) ↔ Asks cfg port proto src := by
  simp only [rules, List.mem_flatMap, List.mem_map, InterceptRule.admits, Bool.and_eq_true,
    beq_iff_eq, decide_eq_true_eq, Asks]
  constructor
  · rintro ⟨_, ⟨p, hp, range, hr, rfl⟩, ⟨⟨rfl, hlow⟩, hhigh⟩, hsrc⟩
    exact ⟨hp, ⟨range, hr, hlow, hhigh⟩, (sourceAllowed_iff rfl).mp hsrc⟩
  · rintro ⟨hp, ⟨range, hr, hlow, hhigh⟩, hsrc⟩
    exact ⟨_, ⟨proto.asStr, hp, range, hr, rfl⟩, ⟨⟨rfl, hlow⟩, hhigh⟩,
      (sourceAllowed_iff rfl).mpr hsrc⟩

theorem rules_service {service : Text} {cfg : InterceptV1Config} {rule : InterceptRule}
    (h : rule ∈ rules service cfg) :
    rule.service = service ∧ rule.dialTimeout = dialTimeoutFor cfg := by
  simp only [rules, List.mem_flatMap, List.mem_map] at h
  obtain ⟨p, -, range, -, rfl⟩ := h
  exact ⟨rfl, rfl⟩

theorem stripSuffix_append (head suffix : Text) :
    stripSuffix (head ++ suffix) suffix = some head := by
  simp [stripSuffix]

theorem stripSuffix_eq_some {s suffix head : Text} :
    stripSuffix s suffix = some head ↔ s = head ++ suffix := by
  constructor
  · intro h
    unfold stripSuffix at h
    split_ifs at h with hs
    obtain ⟨t, rfl⟩ := hs
    simpa using h
  · rintro rfl
    exact stripSuffix_append head suffix

theorem suffixMatches_iff {w : WildcardEntry} {domain : Text} :
    w.suffixMatches domain = true ↔ LabelSuffix w.suffix domain := by
  unfold WildcardEntry.suffixMatches LabelSuffix
  simp only [Bool.or_eq_true, beq_iff_eq, Option.isSome_iff_exists, Option.bind_eq_some_iff,
    stripSuffix_eq_some]
  refine or_congr_right ⟨?_, ?_⟩
  · rintro ⟨head, front, rfl, rfl⟩
    exact ⟨head, by simp⟩
  · rintro ⟨head, rfl⟩
    exact ⟨head, head ++ ['.'], by simp, rfl⟩

end Rules

section Serves

variable {V : Type} {r r' : InterceptResolver V} {service : Text} {cfg : InterceptV1Config}
  {done : List Text} {exempt : Text → Prop}

/-- The network an address of the service's configuration is listed under. -/
def ListedAs (d : DnsMatcher) (service addr : Text) (cidr : IpNet) : Prop :=
  ¬ IsWildcard addr ∧ (parseIpOrCidr addr = some cidr ∨
    parseIpOrCidr addr = none ∧
      ∃ ip, cidr = .v4 (.host ip) ∧ d.Owned service (lowerAscii addr) ip)

/-- The tables hold all rules of the service for the address. -/
structure Listed (r : InterceptResolver V) (service : Text) (cfg : InterceptV1Config)
    (addr : Text) : Prop where
  wildcard : IsWildcard addr → utf8Len (suffixOf addr) < 254 →
    ∀ rule ∈ rules service cfg, WildcardEntry.mk rule (suffixOf addr) ∈ r.wildcards
  literal : ¬ IsWildcard addr → ∃ cidr, ListedAs r.dns service addr cidr ∧
    ∀ rule ∈ rules service cfg, InterceptEntry.mk rule cidr ∈ r.entries

/-- The tables hold for the service what its configuration asks for and nothing else, as far as
the addresses `done` and except for exempt ones. -/
structure Serves (r : InterceptResolver V) (service : Text) (cfg : InterceptV1Config)
    (done : List Text) (exempt : Text → Prop) : Prop where
  entries : ∀ e ∈ r.entries, e.service = service → e.toInterceptRule ∈ rules service cfg ∧
    ∃ a ∈ cfg.addresses, ListedAs r.dns service a e.cidr
  wildcards : ∀ w ∈ r.wildcards, w.service = service → w.toInterceptRule ∈ rules service cfg ∧
    ∃ a ∈ cfg.addresses, IsWildcard a ∧ w.suffix = suffixOf a
  complete : ∀ a ∈ done, ¬ exempt a → Listed r service cfg a

/-- What leaves the service's part of the tables and its names alone. -/
structure Spares (r r' : InterceptResolver V) (service : Text) : Prop where
  entries : ∀ e : InterceptEntry, e.service = service → (e ∈ r'.entries ↔ e ∈ r.entries)
  wildcards : ∀ w : WildcardEntry, w.service = service → (w ∈ r'.wildcards ↔ w ∈ r.wildcards)
  owned : ∀ name ip, r.dns.Owned service name ip → r'.dns.Owned service name ip

theorem ListedAs.owned {d d' : DnsMatcher} {addr : Text} {cidr : IpNet}
    (h : ListedAs d service addr cidr)
    (hd : ∀ name ip, d.Owned service name ip → d'.Owned service name ip) :
    ListedAs d' service addr cidr := by
  obtain ⟨hw, hnet | ⟨hnet, ip, hip, howned⟩⟩ := h
  · exact ⟨hw, .inl hnet⟩
  · exact ⟨hw, .inr ⟨hnet, ip, hip, hd _ ip howned⟩⟩

theorem Listed.mono {addr : Text} (h : Listed r service cfg addr)
    (he : ∀ rule ∈ rules service cfg, ∀ cidr, InterceptEntry.mk rule cidr ∈ r.entries →
      InterceptEntry.mk rule cidr ∈ r'.entries)
    (hw : ∀ rule ∈ rules service cfg, ∀ suffix, WildcardEntry.mk rule suffix ∈ r.wildcards →
      WildcardEntry.mk rule suffix ∈ r'.wildcards)
    (hd : ∀ name ip, r.dns.Owned service name ip → r'.dns.Owned service name ip) :
    Listed r' service cfg addr := by
  refine ⟨fun hwild hlen rule hr => hw rule hr _ (h.wildcard hwild hlen rule hr), fun hlit => ?_⟩
  obtain ⟨cidr, hlisted, hall⟩ := h.literal hlit
  exact ⟨cidr, hlisted.owned hd, fun rule hr => he rule hr cidr (hall rule hr)⟩

theorem Serves.spared (h : Serves r service cfg done exempt) (hs : Spares r r' service) :
    Serves r' service cfg done exempt := by
  refine ⟨fun e he hservice => ?_, fun w hw hservice => ?_, fun a ha hex => ?_⟩
  · obtain ⟨hrule, a, ha, hlisted⟩ := h.entries e ((hs.entries e hservice).mp he) hservice
    exact ⟨hrule, a, ha, hlisted.owned hs.owned⟩
  · exact h.wildcards w ((hs.wildcards w hservice).mp hw) hservice
  · refine (h.complete a ha hex).mono (fun rule hr cidr => ?_) (fun rule hr suffix => ?_) hs.owned
    · exact (hs.entries _ (rules_service hr).1).mpr
    · exact (hs.wildcards _ (rules_service hr).1).mpr

end Serves

section Install

variable {V : Type} {r r' : InterceptResolver V} {name service addr : Text} {rs : List InterceptRule}

theorem removeService_absent (fromValue : V → Except String InterceptV1Config)
    (r : InterceptResolver V) (name : Text) :
    (∀ e ∈ (r.removeService fromValue name).2.entries, e.service ≠ name) ∧
      ∀ w ∈ (r.removeService fromValue name).2.wildcards, w.service ≠ name := by
  simp [InterceptResolver.removeService]

theorem removeService_spares (fromValue : V → Except String InterceptV1Config)
    (r : InterceptResolver V) (hne : name ≠ service) :
    Spares r (r.removeService fromValue name).2 service := by
  refine ⟨fun e he => ?_, fun w hw => ?_, fun n ip howned => howned.deregisterIntercept hne⟩
  · simp [InterceptResolver.removeService, he, hne.symm]
  · simp [InterceptResolver.removeService, hw, hne.symm]

/-- The ways one address of a service's configuration is installed. -/
inductive Installs (name : Text) (rs : List InterceptRule) (r : InterceptResolver V) (addr : Text) :
    InterceptResolver V → Prop
  | overlong (hw : IsWildcard addr) (hlen : ¬ utf8Len (suffixOf addr) < 254) :
    Installs name rs r addr { r with dns := (r.dns.register addr name).2 }
  | wildcard (hw : IsWildcard addr) :
    Installs name rs r addr { r with
      dns := (r.dns.register addr name).2
      wildcards := r.wildcards ++ rs.map fun rule => ⟨rule, suffixOf addr⟩ }
  | network (hw : ¬ IsWildcard addr) (cidr : IpNet) (hnet : parseIpOrCidr addr = some cidr) :
    Installs name rs r addr { r with entries := r.entries ++ rs.map fun rule => ⟨rule, cidr⟩ }
  | hostname (hw : ¬ IsWildcard addr) (hnet : parseIpOrCidr addr = none) (ip : BitVec 32)
      (hreg : (r.dns.register addr name).1 = .hostname ip) :
    Installs name rs r addr { r with
      dns := (r.dns.register addr name).2
      entries := r.entries ++ rs.map fun rule => ⟨rule, .v4 (.host ip)⟩ }
  | passedOver (hw : ¬ IsWildcard addr) (hnet : parseIpOrCidr addr = none)
      (hreg : ∀ ip, (r.dns.register addr name).1 ≠ .hostname ip) :
    Installs name rs r addr { r with dns := (r.dns.register addr name).2 }

theorem take_two_iff {addr : Text} : addr.take 2 = ['*', '.'] ↔ IsWildcard addr := by
  constructor
  · intro h
    have happ := List.take_append_drop 2 addr
    rw [h] at happ
    exact ⟨addr.drop 2, happ.symm⟩
  · rintro ⟨rest, rfl⟩
    rfl

theorem installAddress_installs (name : Text) (rs : List InterceptRule) (r : InterceptResolver V)
    (addr : Text) : Installs name rs r addr (r.installAddress name rs addr) := by
  unfold InterceptResolver.installAddress
  simp only [take_two_iff]
  split_ifs with hw
  · have hsuffix : DnsMatcher.wildcardSuffix addr =
        if utf8Len (suffixOf addr) < 254 then some (suffixOf addr) else none := by
      unfold DnsMatcher.wildcardSuffix
      rw [checkName_wildcard hw]
      split_ifs <;> rfl
    rw [hsuffix]
    split_ifs with hlen
    · exact .wildcard hw
    · exact .overlong hw hlen
  · cases hnet : parseIpOrCidr addr with
    | some cidr => exact .network hw cidr hnet
    | none =>
      dsimp only
      rcases hreg : r.dns.register addr name with ⟨out, d'⟩
      have hout : (r.dns.register addr name).1 = out := congrArg Prod.fst hreg
      obtain rfl : (r.dns.register addr name).2 = d' := congrArg Prod.snd hreg
      cases out with
      | hostname ip => exact .hostname hw hnet ip hout
      | _ => exact .passedOver hw hnet (by simp [hout])

theorem Installs.dns_spec (h : Installs name rs r addr r') (hwf : r.dns.Wf) :
    r'.dns.Wf ∧ r.dns.Grows r'.dns := by
  cases h with
  | overlong hw | wildcard hw => exact DnsMatcher.register_wildcard_spec hwf hw name
  | network => exact ⟨hwf, .refl _⟩
  | hostname hw | passedOver hw =>
    obtain ⟨hwf', hgrows, -⟩ := DnsMatcher.register_hostname_spec hwf hw name
    exact ⟨hwf', hgrows⟩

theorem Installs.installedConfigs (h : Installs name rs r addr r') :
    r'.installedConfigs = r.installedConfigs := by
  cases h <;> rfl

theorem Installs.spares (h : Installs name rs r addr r') (hwf : r.dns.Wf)
    (hrs : ∀ rule ∈ rs, rule.service = name) (hne : name ≠ service) : Spares r r' service := by
  have howned (n : Text) (ip : BitVec 32) (ho : r.dns.Owned service n ip) :
      r'.dns.Owned service n ip := ho.grows (h.dns_spec hwf).2
  have hother (rule : InterceptRule) (hr : rule ∈ rs) : rule.service ≠ service := by
    rw [hrs rule hr]
    exact hne
  cases h with
  | overlong | passedOver => exact ⟨fun _ _ => Iff.rfl, fun _ _ => Iff.rfl, howned⟩
  | wildcard =>
    refine ⟨fun _ _ => Iff.rfl, fun w hw => ?_, howned⟩
    simp only [List.mem_append, List.mem_map, or_iff_left_iff_imp]
    rintro ⟨rule, hr, rfl⟩
    exact absurd hw (hother rule hr)
  | network | hostname =>
    refine ⟨fun e he => ?_, fun _ _ => Iff.rfl, howned⟩
    simp only [List.mem_append, List.mem_map, or_iff_left_iff_imp]
    rintro ⟨rule, hr, rfl⟩
    exact absurd he (hother rule hr)

/-- A hostname for which there was no address. -/
def NoAddress (d : DnsMatcher) (addr : Text) : Prop :=
  ¬ IsWildcard addr ∧ parseIpOrCidr addr = none ∧ d.hostnames[lowerAscii addr]? = none

variable {cfg : InterceptV1Config} {done : List Text}

/-- A hostname is without an address after an installation only if it was before, or if it is the
one that was passed over. -/
theorem Installs.noAddress (h : Installs name rs r addr r') (hwf : r.dns.Wf) {a : Text}
    (ha : NoAddress r.dns a) : NoAddress r'.dns a ∨ ∃ ip, r'.dns.Owned name (lowerAscii a) ip ∧
      ∀ rule ∈ rs, InterceptEntry.mk rule (.v4 (.host ip)) ∈ r'.entries := by
  obtain ⟨haw, hanet, hnone⟩ := ha
  cases h with
  | overlong hw | wildcard hw =>
    refine .inl ⟨haw, hanet, ?_⟩
    rw [DnsMatcher.register_wildcard_hostnames _ hw]
    exact hnone
  | network => exact .inl ⟨haw, hanet, hnone⟩
  | passedOver hw hnet hreg =>
    refine .inl ⟨haw, hanet, ?_⟩
    by_cases hn : lowerAscii addr = lowerAscii a
    · rw [← hn]
      exact DnsMatcher.register_none hwf hw hreg
    · rw [DnsMatcher.register_other _ hw hn]
      exact hnone
  | hostname hw hnet ip hreg =>
    by_cases hn : lowerAscii addr = lowerAscii a
    · have hspec := (DnsMatcher.register_hostname_spec hwf hw name).2.2
      rw [hreg] at hspec
      rw [← hn]
      exact .inr ⟨ip, hspec, fun rule hr => List.mem_append_right _ (List.mem_map_of_mem hr)⟩
    · refine .inl ⟨haw, hanet, ?_⟩
      rw [DnsMatcher.register_other _ hw hn]
      exact hnone

theorem Installs.listed (h : Installs name (rules name cfg) r addr r') (hwf : r.dns.Wf) :
    NoAddress r'.dns addr ∨ Listed r' name cfg addr := by
  cases h with
  | overlong hw hlen =>
    exact .inr ⟨fun _ hshort => absurd hshort hlen, fun hno => absurd hw hno⟩
  | wildcard hw =>
    refine .inr ⟨fun _ _ rule hr => ?_, fun hno => absurd hw hno⟩
    exact List.mem_append_right _ (List.mem_map_of_mem hr)
  | network hw cidr hnet =>
    refine .inr ⟨fun hyes => absurd hyes hw, fun _ => ⟨cidr, ⟨hw, .inl hnet⟩, fun rule hr => ?_⟩⟩
    exact List.mem_append_right _ (List.mem_map_of_mem hr)
  | hostname hw hnet ip hreg =>
    have hspec := (DnsMatcher.register_hostname_spec hwf hw name).2.2
    rw [hreg] at hspec
    refine .inr ⟨fun hyes => absurd hyes hw, fun _ =>
      ⟨.v4 (.host ip), ⟨hw, .inr ⟨hnet, ip, rfl, hspec⟩⟩, fun rule hr => ?_⟩⟩
    exact List.mem_append_right _ (List.mem_map_of_mem hr)
  | passedOver hw hnet hreg => exact .inl ⟨hw, hnet, DnsMatcher.register_none hwf hw hreg⟩

theorem Installs.entry (h : Installs name rs r addr r') (hwf : r.dns.Wf) {e : InterceptEntry}
    (he : e ∈ r'.entries) :
    e ∈ r.entries ∨ e.toInterceptRule ∈ rs ∧ ListedAs r'.dns name addr e.cidr := by
  cases h with
  | overlong => exact .inl he
  | wildcard => exact .inl he
  | passedOver => exact .inl he
  | network hw cidr hnet =>
    rcases List.mem_append.mp he with he | he
    · exact .inl he
    · obtain ⟨rule, hr, rfl⟩ := List.mem_map.mp he
      exact .inr ⟨hr, hw, .inl hnet⟩
  | hostname hw hnet ip hreg =>
    rcases List.mem_append.mp he with he | he
    · exact .inl he
    · obtain ⟨rule, hr, rfl⟩ := List.mem_map.mp he
      have hspec := (DnsMatcher.register_hostname_spec hwf hw name).2.2
      rw [hreg] at hspec
      exact .inr ⟨hr, hw, .inr ⟨hnet, ip, rfl, hspec⟩⟩

theorem Installs.wildcardEntry (h : Installs name rs r addr r') {w : WildcardEntry}
    (hmem : w ∈ r'.wildcards) :
    w ∈ r.wildcards ∨ w.toInterceptRule ∈ rs ∧ IsWildcard addr ∧ w.suffix = suffixOf addr := by
  cases h with
  | wildcard hw =>
    rcases List.mem_append.mp hmem with hmem | hmem
    · exact .inl hmem
    · obtain ⟨rule, hr, rfl⟩ := List.mem_map.mp hmem
      exact .inr ⟨hr, hw, rfl⟩
  | _ => exact .inl hmem

theorem Installs.serves (h : Installs name (rules name cfg) r addr r') (hwf : r.dns.Wf)
    (haddr : addr ∈ cfg.addresses) (hs : Serves r name cfg done (NoAddress r.dns)) :
    Serves r' name cfg (done ++ [addr]) (NoAddress r'.dns) := by
  have hgrows := (h.dns_spec hwf).2
  have howned (n : Text) (ip : BitVec 32) (ho : r.dns.Owned name n ip) :
      r'.dns.Owned name n ip := ho.grows hgrows
  have hold : (∀ e ∈ r.entries, e ∈ r'.entries) ∧ ∀ w ∈ r.wildcards, w ∈ r'.wildcards := by
    cases h <;> simp +contextual
  refine ⟨fun e he hservice => ?_, fun w hw hservice => ?_, fun a ha hex => ?_⟩
  · rcases h.entry hwf he with hin | ⟨hrule, hlisted⟩
    · obtain ⟨hrule, a, ha, hlisted⟩ := hs.entries e hin hservice
      exact ⟨hrule, a, ha, hlisted.owned howned⟩
    · exact ⟨hrule, addr, haddr, hlisted⟩
  · rcases h.wildcardEntry hw with hin | ⟨hrule, hwild⟩
    · exact hs.wildcards w hin hservice
    · exact ⟨hrule, addr, haddr, hwild⟩
  · rcases List.mem_append.mp ha with ha | ha
    · by_cases hno : NoAddress r.dns a
      · rcases h.noAddress hwf hno with hno' | ⟨ip, ho, hall⟩
        · exact absurd hno' hex
        · obtain ⟨hlit, hnet, -⟩ := hno
          exact ⟨fun hyes => absurd hyes hlit,
            fun _ => ⟨_, ⟨hlit, .inr ⟨hnet, ip, rfl, ho⟩⟩, hall⟩⟩
      · refine (hs.complete a ha hno).mono (fun _ _ _ => hold.1 _) (fun _ _ _ => hold.2 _) howned
    · rw [List.mem_singleton.mp ha] at hex ⊢
      exact (h.listed hwf).resolve_left hex

/-- What the loop over a configuration's addresses comes to. -/
structure InstalledAll (r r' : InterceptResolver V) (name : Text) (cfg : InterceptV1Config)
    (done : List Text) : Prop where
  wf : r'.dns.Wf
  configs : r'.installedConfigs = r.installedConfigs
  others : ∀ service, name ≠ service → Spares r r' service
  serves : Serves r' name cfg done (NoAddress r'.dns)

theorem Spares.trans {r r' r'' : InterceptResolver V} (h : Spares r r' service)
    (h' : Spares r' r'' service) : Spares r r'' service :=
  ⟨fun e he => (h'.entries e he).trans (h.entries e he),
    fun w hw => (h'.wildcards w hw).trans (h.wildcards w hw),
    fun n ip ho => h'.owned n ip (h.owned n ip ho)⟩

theorem installAll (hwf : r.dns.Wf) (hs : Serves r name cfg done (NoAddress r.dns))
    (addrs : List Text) (hsub : addrs ⊆ cfg.addresses) :
    InstalledAll r (addrs.foldl (InterceptResolver.installAddress name (rules name cfg)) r) name cfg
      (done ++ addrs) := by
  induction addrs generalizing r done with
  | nil => exact ⟨hwf, rfl, fun _ _ => ⟨fun _ _ => .rfl, fun _ _ => .rfl, fun _ _ => id⟩, by simpa⟩
  | cons addr addrs ih =>
    obtain ⟨haddr, hrest⟩ := List.cons_subset.mp hsub
    have hone := installAddress_installs name (rules name cfg) r addr
    have hall := ih (hone.dns_spec hwf).1 (hone.serves hwf haddr hs) hrest
    refine ⟨hall.wf, hall.configs.trans hone.installedConfigs, fun other hne => ?_, ?_⟩
    · exact (hone.spares hwf (fun rule hr => (rules_service hr).1) hne).trans (hall.others other hne)
    · simpa using hall.serves

/-- A resolver the service is gone from, with the value of its new configuration. -/
def replaced (fromValue : V → Except String InterceptV1Config) (r : InterceptResolver V)
    (name : Text) (raw : V) : InterceptResolver V :=
  let removed := (r.removeService fromValue name).2
  { removed with installedConfigs := removed.installedConfigs.insert name raw }

theorem replaced_installAll (fromValue : V → Except String InterceptV1Config) (hwf : r.dns.Wf)
    (name : Text) (raw : V) (cfg : InterceptV1Config) :
    InstalledAll (replaced fromValue r name raw)
      (cfg.addresses.foldl (InterceptResolver.installAddress name (rules name cfg))
        (replaced fromValue r name raw)) name cfg cfg.addresses := by
  obtain ⟨he, hw⟩ := removeService_absent fromValue r name
  have hnone : Serves (replaced fromValue r name raw) name cfg []
      (NoAddress (replaced fromValue r name raw).dns) :=
    ⟨fun e hmem hs => absurd hs (he e hmem), fun w hmem hs => absurd hs (hw w hmem),
      fun a ha => absurd ha List.not_mem_nil⟩
  exact installAll (DnsMatcher.wf_deregisterIntercept hwf name) hnone cfg.addresses
    (List.Subset.refl _)

/-- The ways a service is added: it is stopped, left as it is, or replaced. -/
inductive AddsService (fromValue : V → Except String InterceptV1Config) (r : InterceptResolver V)
    (svc : Service V) : AppliedEvent × InterceptResolver V → Prop
  | stops (hdial : "Dial".toList ∉ svc.permissions) :
    AddsService fromValue r svc (⟨⟨(r.removeService fromValue svc.name).1, []⟩,
      r.installedConfigs.contains svc.name⟩, (r.removeService fromValue svc.name).2)
  | keeps (hdial : "Dial".toList ∈ svc.permissions)
      (hsame : ∀ raw cfg, svc.interceptV1 = some raw → fromValue raw = .ok cfg →
        r.installedConfigs[svc.name]? = some raw) :
    AddsService fromValue r svc (.default, r)
  | replaces (hdial : "Dial".toList ∈ svc.permissions) (raw : V) (cfg : InterceptV1Config)
      (hcfg : svc.interceptV1 = some raw) (hraw : fromValue raw = .ok cfg)
      (hnew : r.installedConfigs[svc.name]? ≠ some raw) :
    AddsService fromValue r svc (⟨⟨(r.removeService fromValue svc.name).1, literalAddrs cfg⟩,
      r.installedConfigs.contains svc.name⟩,
      cfg.addresses.foldl (InterceptResolver.installAddress svc.name (rules svc.name cfg))
        (replaced fromValue r svc.name raw))

theorem addService_adds [DecidableEq V] (fromValue : V → Except String InterceptV1Config)
    (r : InterceptResolver V) (svc : Service V) :
    AddsService fromValue r svc (r.addService fromValue svc) := by
  have hany : svc.permissions.any (· == "Dial".toList) = true ↔ "Dial".toList ∈ svc.permissions := by
    simp only [List.any_eq_true, beq_iff_eq, exists_eq_right]
  simp only [InterceptResolver.addService, hany]
  by_cases hdial : "Dial".toList ∈ svc.permissions
  · rw [if_neg (not_not.mpr hdial)]
    cases hcfg : svc.interceptV1 with
    | none => exact .keeps hdial fun raw cfg h => by cases hcfg.symm.trans h
    | some raw =>
      cases hraw : fromValue raw with
      | error err =>
        simp only [hraw]
        refine .keeps hdial fun raw' cfg h hok => ?_
        cases hcfg.symm.trans h
        cases hraw.symm.trans hok
      | ok cfg =>
        simp only [hraw]
        split_ifs with hsame
        · refine .keeps hdial fun raw' cfg' h _ => ?_
          cases hcfg.symm.trans h
          exact hsame
        · exact .replaces hdial raw cfg hcfg hraw hsame
  · rw [if_pos hdial]
    exact .stops hdial

end Install

section Refines

variable {V : Type} {fromValue : V → Except String InterceptV1Config}
  {t t' : Dispatch V} {service : Text}

/-- The resolver treats the service as its installed configuration says. -/
structure Dispatched (fromValue : V → Except String InterceptV1Config) (t : Dispatch V)
    (service : Text) : Prop where
  config : t.resolver.installedConfigs[service]?.map fromValue = (t.installed service).map .ok
  absent : t.installed service = none → (∀ e ∈ t.resolver.entries, e.service ≠ service) ∧
    ∀ w ∈ t.resolver.wildcards, w.service ≠ service
  serves : ∀ cfg, t.installed service = some cfg →
    Serves t.resolver service cfg cfg.addresses (· ∈ t.unassigned service)

/-- The resolver refines the table of installed configurations. -/
structure Refines (fromValue : V → Except String InterceptV1Config) (t : Dispatch V) : Prop where
  wf : t.resolver.dns.Wf
  dispatched : ∀ service, Dispatched fromValue t service

theorem Dispatched.spared (h : Dispatched fromValue t service)
    (hs : Spares t.resolver t'.resolver service)
    (hc : t'.resolver.installedConfigs[service]? = t.resolver.installedConfigs[service]?)
    (hi : t'.installed service = t.installed service)
    (hu : t'.unassigned service = t.unassigned service) : Dispatched fromValue t' service := by
  refine ⟨?_, fun hnone => ?_, fun cfg hcfg => ?_⟩
  · rw [hc, hi]
    exact h.config
  · obtain ⟨he, hw⟩ := h.absent (hi ▸ hnone)
    exact ⟨fun e hmem hservice => he e ((hs.entries e hservice).mp hmem) hservice,
      fun w hmem hservice => hw w ((hs.wildcards w hservice).mp hmem) hservice⟩
  · rw [hu]
    exact (h.serves cfg (hi ▸ hcfg)).spared hs

theorem refines_new : Refines fromValue (Dispatch.new : Dispatch V) := by
  refine ⟨DnsMatcher.wf_new, fun service => ⟨rfl, fun _ => ?_, fun cfg hcfg => ?_⟩⟩
  · exact ⟨fun e he => absurd he List.not_mem_nil, fun w hw => absurd hw List.not_mem_nil⟩
  · cases hcfg

theorem Refines.grows (h : Refines fromValue t) {d : DnsMatcher} (hwf : d.Wf)
    (hg : t.resolver.dns.Grows d) :
    Refines fromValue { t with resolver := { t.resolver with dns := d } } := by
  refine ⟨hwf, fun service => (h.dispatched service).spared ?_ rfl rfl rfl⟩
  exact ⟨fun _ _ => .rfl, fun _ _ => .rfl, fun _ _ ho => ho.grows hg⟩

theorem mem_withoutAddress {d : DnsMatcher} {cfg : InterceptV1Config} {a : Text}
    (ha : a ∈ cfg.addresses) (hno : NoAddress d a) : a ∈ Dispatch.withoutAddress d cfg := by
  obtain ⟨hw, hnet, hnone⟩ := hno
  simp [Dispatch.withoutAddress, ha, hw, hnet, hnone]

/-- An event changes nothing, removes its service, or installs a configuration for it. -/
inductive Applies (fromValue : V → Except String InterceptV1Config) (t : Dispatch V) (name : Text) :
    InterceptResolver V → (Text → Option InterceptV1Config) → Prop
  | keeps : Applies fromValue t name t.resolver t.installed
  | removes : Applies fromValue t name (t.resolver.removeService fromValue name).2
      (Function.update t.installed name none)
  | installs (raw : V) (cfg : InterceptV1Config) (hraw : fromValue raw = .ok cfg)
      (hnew : t.resolver.installedConfigs[name]? ≠ some raw) :
    Applies fromValue t name
      (cfg.addresses.foldl (InterceptResolver.installAddress name (rules name cfg))
        (replaced fromValue t.resolver name raw))
      (Function.update t.installed name (some cfg))

theorem Applies.others {name : Text} {r' : InterceptResolver V}
    {installed : Text → Option InterceptV1Config} (h : Applies fromValue t name r' installed)
    (hwf : t.resolver.dns.Wf) (hne : name ≠ service) : Spares t.resolver r' service ∧
      r'.installedConfigs[service]? = t.resolver.installedConfigs[service]? ∧
      installed service = t.installed service := by
  have hspares := removeService_spares fromValue t.resolver hne
  have herase : (t.resolver.removeService fromValue name).2.installedConfigs[service]? =
      t.resolver.installedConfigs[service]? := by
    simp [InterceptResolver.removeService, Std.ExtTreeMap.getElem?_erase, hne]
  cases h with
  | keeps => exact ⟨⟨fun _ _ => .rfl, fun _ _ => .rfl, fun _ _ => id⟩, rfl, rfl⟩
  | removes =>
    exact ⟨hspares, herase, Function.update_of_ne hne.symm _ _⟩
  | installs raw cfg hraw hnew =>
    have hall := replaced_installAll fromValue hwf name raw cfg
    have hreplaced : Spares t.resolver (replaced fromValue t.resolver name raw) service :=
      ⟨hspares.entries, hspares.wildcards, hspares.owned⟩
    refine ⟨hreplaced.trans (hall.others service hne), ?_, Function.update_of_ne hne.symm _ _⟩
    rw [hall.configs, ← herase]
    simp [replaced, Std.ExtTreeMap.getElem?_insert, hne]

theorem Serves.exempts {r : InterceptResolver V} {cfg : InterceptV1Config} {done : List Text}
    {p q : Text → Prop} (h : Serves r service cfg done p) (hpq : ∀ a ∈ done, p a → q a) :
    Serves r service cfg done q :=
  ⟨h.entries, h.wildcards, fun a ha hq => h.complete a ha fun hp => hq (hpq a ha hp)⟩

variable [DecidableEq V]

theorem addService_applies (svc : Service V)
    (h : t.resolver.installedConfigs[svc.name]?.map fromValue = (t.installed svc.name).map .ok) :
    Applies fromValue t svc.name (t.resolver.addService fromValue svc).2
      (settle fromValue t.installed (.added svc)) := by
  have hadds := addService_adds fromValue t.resolver svc
  generalize t.resolver.addService fromValue svc = out at hadds ⊢
  cases hadds with
  | stops hdial =>
    simp only [settle, ServiceEvent.service, hdial, not_false_eq_true, if_true]
    exact .removes
  | keeps hdial hsame =>
    simp only [settle, ServiceEvent.service, hdial, not_true_eq_false, if_false]
    split
    · next given config hgiven =>
      split at hgiven
      · next cfg hcfg =>
        cases hgiven
        obtain ⟨raw, hraw, hok⟩ := Option.map_eq_some_iff.mp hcfg
        -- the installed value again: the configuration the table has is this one
        rw [hsame raw cfg hraw hok, Option.map_some, hok] at h
        have hinst : t.installed svc.name = some cfg := by
          obtain ⟨cfg', hcfg', heq⟩ := Option.map_eq_some_iff.mp h.symm
          cases heq
          exact hcfg'
        rw [← hinst, Function.update_eq_self]
        exact .keeps
      · cases hgiven
    · exact .keeps
  | replaces hdial raw cfg hcfg hraw hnew =>
    simp only [settle, ServiceEvent.service, hdial, not_true_eq_false, if_false, hcfg,
      Option.map_some, hraw]
    exact .installs raw cfg hraw hnew

theorem applyEvent_applies (ev : ServiceEvent V) (h : Dispatched fromValue t ev.service.name) :
    Applies fromValue t ev.service.name (t.resolver.applyEvent fromValue ev).2
      (settle fromValue t.installed ev) := by
  cases ev with
  | added svc | changed svc => exact addService_applies svc h.config
  | removed svc => exact .removes

theorem Refines.event (h : Refines fromValue t) {ev : ServiceEvent V}
    (hstep : t.step fromValue (.event ev) = some t') : Refines fromValue t' := by
  have happlies := applyEvent_applies ev (h.dispatched ev.service.name)
  simp only [Dispatch.step, Option.some.injEq] at hstep
  subst hstep
  have hother (service : Text) (hne : ev.service.name ≠ service) := happlies.others h.wf hne
  generalize hr : (t.resolver.applyEvent fromValue ev).2 = r' at *
  generalize hi : settle fromValue t.installed ev = installed at *
  generalize ev.service.name = name at *
  refine ⟨?_, fun service => ?_⟩
  · cases happlies with
    | keeps => exact h.wf
    | removes => exact DnsMatcher.wf_deregisterIntercept h.wf name
    | installs raw cfg => exact (replaced_installAll fromValue h.wf name raw cfg).wf
  · by_cases hne : name = service
    · subst hne
      cases happlies with
      | keeps =>
        rw [if_pos rfl]
        exact h.dispatched name
      | removes =>
        refine ⟨?_, fun _ => removeService_absent fromValue t.resolver name, fun cfg hcfg => ?_⟩
        · simp [InterceptResolver.removeService]
        · simp at hcfg
      | installs raw cfg hraw hnew =>
        have hall := replaced_installAll fromValue h.wf name raw cfg
        have hlook : (cfg.addresses.foldl (InterceptResolver.installAddress name (rules name cfg))
            (replaced fromValue t.resolver name raw)).installedConfigs[name]? = some raw := by
          rw [hall.configs]
          simp [replaced]
        refine ⟨?_, fun hnone => ?_, fun cfg' hcfg => ?_⟩
        · simp [hlook, hraw]
        · simp at hnone
        · obtain rfl : cfg = cfg' := by simpa using hcfg
          refine hall.serves.exempts fun a ha hno => ?_
          rw [if_neg (by rw [hlook]; exact hnew.symm)]
          simpa using mem_withoutAddress ha hno
    · obtain ⟨hspares, hconfigs, hinst⟩ := hother service hne
      refine (h.dispatched service).spared hspares hconfigs hinst ?_
      dsimp only
      split_ifs
      · rfl
      · exact Function.update_of_ne (Ne.symm hne) _ _

theorem Refines.step (h : Refines fromValue t) {act : ResolverAct V}
    (hstep : t.step fromValue act = some t') : Refines fromValue t' := by
  cases act with
  | event ev => exact h.event hstep
  | query name =>
    cases hstep
    obtain ⟨hwf, hgrows⟩ := DnsMatcher.lookup_spec h.wf name
    exact h.grows hwf hgrows
  | seedPool net =>
    cases hstep
    obtain ⟨hwf, hgrows⟩ := DnsMatcher.seedPool_spec h.wf net
    exact h.grows hwf hgrows
  | reserve ip =>
    cases hstep
    obtain ⟨hwf, hgrows⟩ := DnsMatcher.reserve_spec h.wf ip
    exact h.grows hwf hgrows

theorem run_refines {as : List (ResolverAct V)}
    (hrun : run (Dispatch.step fromValue) Dispatch.new as = some t) : Refines fromValue t :=
  run_invariant (Refines fromValue) (fun _ _ _ hs h => h.step hs) hrun refines_new

end Refines

section Lookup

variable {d : DnsMatcher} {dst src : IpAddr} {port : UInt16} {proto : Protocol} {service a : Text}
  {cfg : InterceptV1Config} {cidr : IpNet}

theorem host_contains_iff {ip : BitVec 32} :
    (IpNet.v4 (.host ip)).contains dst = true ↔ dst = .v4 ip := by
  cases dst with
  | v4 x => simp [IpNet.contains, Net.host_contains]
  | v6 x => simp [IpNet.contains]

theorem ListedAs.contains_iff (h : ListedAs d service a cidr) :
    cidr.contains dst = true ↔ Covers d dst a := by
  obtain ⟨hw, hnet | ⟨hnet, ip, rfl, e, he, rfl, -⟩⟩ := h
  · refine ⟨fun hdst => .network cidr hw hnet hdst, fun hc => ?_⟩
    cases hc with
    | network net _ hnet' hdst =>
      obtain rfl : cidr = net := Option.some.inj (hnet.symm.trans hnet')
      exact hdst
    | hostname _ _ hnone => simp [hnet] at hnone
    | wildcard _ _ _ hyes => exact absurd hyes hw
  · rw [host_contains_iff]
    refine ⟨fun hdst => .hostname e hw hnet he hdst, fun hc => ?_⟩
    cases hc with
    | network net _ hsome => simp [hnet] at hsome
    | hostname e' _ _ he' hdst =>
      obtain rfl : e = e' := Option.some.inj (he.symm.trans he')
      exact hdst
    | wildcard _ _ _ hyes => exact absurd hyes hw

theorem LabelSuffix.utf8Len_le {suffix domain : Text} (h : LabelSuffix suffix domain) :
    utf8Len suffix ≤ utf8Len domain := by
  rcases h with rfl | ⟨head, rfl⟩
  · exact Nat.le_refl _
  · rw [List.append_cons, utf8Len_append]
    exact Nat.le_add_left _ _

/-- The domain a wildcard's destination was handed out under. -/
theorem covers_wildcard_iff (hwf : d.Wf) (ha : IsWildcard a) :
    Covers d dst a ↔ ∃ ip domain, dst = .v4 ip ∧ d.reverseLookupDomain ip = some domain ∧
      LabelSuffix (suffixOf a) domain := by
  constructor
  · intro hc
    cases hc with
    | network _ hw => exact absurd ha hw
    | hostname _ hw => exact absurd ha hw
    | wildcard name domain e _ he hdst hdom hsuffix =>
      exact ⟨e.ip, domain, hdst,
        (DnsMatcher.reverseLookupDomain_eq_some hwf).mpr ⟨name, e, he, rfl, hdom⟩, hsuffix⟩
  · rintro ⟨ip, domain, hdst, hrev, hsuffix⟩
    obtain ⟨name, e, he, rfl, hdom⟩ := (DnsMatcher.reverseLookupDomain_eq_some hwf).mp hrev
    exact .wildcard name domain e ha he hdst hdom hsuffix

variable {V : Type} {fromValue : V → Except String InterceptV1Config} {t : Dispatch V}

theorem lookup_some_cases {r : InterceptResolver V} {m : InterceptMatch}
    (h : r.lookup dst port proto src = some m) :
    (∃ e ∈ r.entries, e.matches dst port proto src = true ∧ e.service = m.service) ∨
      ∃ ip domain, dst = .v4 ip ∧ r.dns.reverseLookupDomain ip = some domain ∧
        ∃ w ∈ r.wildcards, w.claims domain port proto src = true ∧ w.service = m.service := by
  unfold InterceptResolver.lookup at h
  split at h
  next e hfind =>
    cases h
    have hmatch := List.find?_some hfind
    exact .inl ⟨e, List.mem_of_find?_eq_some hfind, hmatch, rfl⟩
  next =>
    split at h
    next => cases h
    next ip _ =>
      split at h
      next => cases h
      next domain hrev =>
        obtain ⟨w, hfind, rfl⟩ := Option.map_eq_some_iff.mp h
        have hclaims := List.find?_some hfind
        exact .inr ⟨ip, domain, rfl, hrev, w, List.mem_of_find?_eq_some hfind, hclaims, rfl⟩

theorem lookup_none_cases {r : InterceptResolver V} (h : r.lookup dst port proto src = none) :
    (∀ e ∈ r.entries, e.matches dst port proto src = false) ∧
      ∀ ip domain, dst = .v4 ip → r.dns.reverseLookupDomain ip = some domain →
        ∀ w ∈ r.wildcards, w.claims domain port proto src = false := by
  unfold InterceptResolver.lookup at h
  split at h
  next => cases h
  next hfind =>
    refine ⟨by simpa using hfind, ?_⟩
    rintro ip domain rfl hrev
    simp only [hrev, Option.map_eq_none_iff] at h
    simpa using h

/-- What is looked up belongs to a service whose configuration asks for it. -/
theorem Refines.lookup_sound (h : Refines fromValue t) {m : InterceptMatch}
    (hm : t.resolver.lookup dst port proto src = some m) :
    ∃ cfg, t.installed m.service = some cfg ∧ Asks cfg port proto src ∧
      ∃ a ∈ cfg.addresses, Covers t.resolver.dns dst a := by
  rcases lookup_some_cases hm with ⟨e, he, hmatch, hs⟩ | ⟨ip, dom, hdst, hrev, w, hw, hclaim, hs⟩
  · rw [← hs]
    have hat := h.dispatched e.service
    cases hcfg : t.installed e.service with
    | none => exact absurd rfl ((hat.absent hcfg).1 e he)
    | some cfg =>
      obtain ⟨hrule, a, ha, hlisted⟩ := (hat.serves cfg hcfg).entries e he rfl
      obtain ⟨hdst, hadmits⟩ := Bool.and_eq_true_iff.mp hmatch
      exact ⟨cfg, rfl, rules_admit_iff.mp ⟨_, hrule, hadmits⟩, a, ha, hlisted.contains_iff.mp hdst⟩
  · rw [← hs]
    have hat := h.dispatched w.service
    cases hcfg : t.installed w.service with
    | none => exact absurd rfl ((hat.absent hcfg).2 w hw)
    | some cfg =>
      obtain ⟨hrule, a, ha, hwild, hsuffix⟩ := (hat.serves cfg hcfg).wildcards w hw rfl
      obtain ⟨hdom, hadmits⟩ := Bool.and_eq_true_iff.mp hclaim
      refine ⟨cfg, rfl, rules_admit_iff.mp ⟨_, hrule, hadmits⟩, a, ha, ?_⟩
      exact (covers_wildcard_iff h.wf hwild).mpr
        ⟨ip, dom, hdst, hrev, hsuffix ▸ suffixMatches_iff.mp hdom⟩

/-- What a configuration asks for at an address it was installed with is looked up. -/
theorem Refines.lookup_complete (h : Refines fromValue t)
    (hnone : t.resolver.lookup dst port proto src = none) (hcfg : t.installed service = some cfg)
    (hasks : Asks cfg port proto src) (ha : a ∈ cfg.addresses)
    (hc : Covers t.resolver.dns dst a) : a ∈ t.unassigned service := by
  obtain ⟨hentries, hwildcards⟩ := lookup_none_cases hnone
  obtain ⟨rule, hrule, hadmits⟩ := rules_admit_iff.mpr hasks
  by_contra hassigned
  have hlisted := ((h.dispatched service).serves cfg hcfg).complete a ha hassigned
  by_cases hwild : IsWildcard a
  · obtain ⟨ip, dom, hdst, hrev, hsuffix⟩ := (covers_wildcard_iff h.wf hwild).mp hc
    obtain ⟨name, e, he, -, hdom⟩ := (DnsMatcher.reverseLookupDomain_eq_some h.wf).mp hrev
    -- names are only handed out under domains short enough to be registered
    have hshort : utf8Len (suffixOf a) < 254 :=
      Nat.lt_of_le_of_lt hsuffix.utf8Len_le (h.wf.assigned name e dom he hdom)
    have hw := hwildcards ip dom hdst hrev _ (hlisted.wildcard hwild hshort rule hrule)
    rw [WildcardEntry.claims, suffixMatches_iff.mpr hsuffix, hadmits] at hw
    cases hw
  · obtain ⟨cidr, hcidr, hall⟩ := hlisted.literal hwild
    have he := hentries _ (hall rule hrule)
    rw [InterceptEntry.matches, hcidr.contains_iff.mpr hc, hadmits] at he
    cases he

variable [DecidableEq V]

/-- Dispatch is exactly the installed configuration: after any events and queries a lookup answers
with a service whose configuration asks for the traffic, and fails only where no configuration
asks for it at an address that was assigned when it was installed. -/
theorem lookup_installed {as : List (ResolverAct V)}
    (hrun : run (Dispatch.step fromValue) Dispatch.new as = some t) (dst : IpAddr) (port : UInt16)
    (proto : Protocol) (src : IpAddr) :
    (∀ m, t.resolver.lookup dst port proto src = some m →
      ∃ cfg, t.installed m.service = some cfg ∧ Asks cfg port proto src ∧
        ∃ a ∈ cfg.addresses, Covers t.resolver.dns dst a) ∧
    (t.resolver.lookup dst port proto src = none →
      ∀ service cfg, t.installed service = some cfg → Asks cfg port proto src →
        ∀ a ∈ cfg.addresses, Covers t.resolver.dns dst a → a ∈ t.unassigned service) := by
  have h := run_refines hrun
  exact ⟨fun m hm => h.lookup_sound hm,
    fun hnone service cfg hcfg hasks a ha hc => h.lookup_complete hnone hcfg hasks ha hc⟩

end Lookup

/-- A service for the names under a domain, to port 443. -/
def corpConfig : InterceptV1Config :=
  { protocols := ["tcp".toList]
    addresses := ["*.corp".toList]
    portRanges := [⟨443, 443⟩]
    connectTimeoutSeconds := none
    allowedSourceAddresses := ["10.0.0.0/8".toList] }

def readCorp (raw : Bool) : Except String InterceptV1Config :=
  if raw then .ok corpConfig else .error "missing field"

/-- A name under the domain is asked for, and the malformed value given later changes nothing. -/
def corpActs : List (ResolverAct Bool) :=
  [.seedPool (some sharedSpace),
    .event (.added ⟨"web".toList, ["Dial".toList], some true⟩),
    .query "a.corp".toList,
    .event (.changed ⟨"web".toList, ["Dial".toList], some false⟩)]

theorem lookup_installed_corp : ∃ t, run (Dispatch.step readCorp) Dispatch.new corpActs = some t ∧
    t.resolver.lookup (.v4 0x64400001#32) 443 .tcp (.v4 0x0a000001#32) =
      some ⟨"web".toList, 5⟩ ∧
    ∃ cfg, t.installed "web".toList = some cfg ∧ Asks cfg 443 .tcp (.v4 0x0a000001#32) ∧
      ∃ a ∈ cfg.addresses, Covers t.resolver.dns (.v4 0x64400001#32) a := by
  have h (t : Dispatch Bool) (hrun : run (Dispatch.step readCorp) Dispatch.new corpActs = some t)
      (hm : t.resolver.lookup (.v4 0x64400001#32) 443 .tcp (.v4 0x0a000001#32) =
        some ⟨"web".toList, 5⟩) :=
    (lookup_installed hrun (.v4 0x64400001#32) 443 .tcp (.v4 0x0a000001#32)).1 _ hm
  have hfound : ((run (Dispatch.step readCorp) Dispatch.new corpActs).map fun t =>
      t.resolver.lookup (.v4 0x64400001#32) 443 .tcp (.v4 0x0a000001#32)) =
        some (some ⟨"web".toList, 5⟩) := by
    decide +kernel
  obtain ⟨t, hrun, hm⟩ := Option.map_eq_some_iff.mp hfound
  exact ⟨t, hrun, hm, h t hrun hm⟩

end Noa.Tunnel.Intercept
