import Noa.Tunnel.Intercept.Dispatch

namespace Noa.Tunnel.Intercept
open Noa.Framework Noa.Tunnel.Resolve

section Names

/-- The address is the name itself or a wildcard for it. -/
def Lists (addr name : Text) : Prop :=
  lowerAscii addr = name ∨ IsWildcard addr ∧ LabelSuffix (suffixOf addr) name

end Names

section Sourced

variable {V : Type} {r r' : InterceptResolver V} {installed : Text → Option InterceptV1Config}
  {service addr : Text} {cfg : InterceptV1Config}

/-- The owners of a name or a domain are installed services that list it, and the tables have their
rules for it. -/
structure Sourced (installed : Text → Option InterceptV1Config) (r : InterceptResolver V) : Prop where
  names : ∀ (name : Text) (e : DnsEntry), r.dns.hostnames[name]? = some e → ∀ s ∈ e.intercepts,
    ∃ cfg, installed s = some cfg ∧ (∃ a ∈ cfg.addresses, lowerAscii a = name) ∧
      ∀ rule ∈ rules s cfg, InterceptEntry.mk rule (.v4 (.host e.ip)) ∈ r.entries
  domains : ∀ (dom : Text) (owners : Owners), r.dns.domains[dom]? = some owners → ∀ s ∈ owners,
    ∃ cfg, installed s = some cfg ∧ (∃ a ∈ cfg.addresses, IsWildcard a ∧ suffixOf a = dom) ∧
      ∀ rule ∈ rules s cfg, WildcardEntry.mk rule dom ∈ r.wildcards
  under : ∀ (name : Text) (e : DnsEntry) (dom : Text), r.dns.hostnames[name]? = some e →
    e.domain = some dom → LabelSuffix dom name

theorem sourced_new : Sourced installed (InterceptResolver.new : InterceptResolver V) := by
  constructor <;> simp [InterceptResolver.new, DnsMatcher.new]

theorem Sourced.mono (h : Sourced installed r) (he : ∀ e ∈ r.entries, e ∈ r'.entries)
    (hw : ∀ w ∈ r.wildcards, w ∈ r'.wildcards) (hh : r'.dns.hostnames = r.dns.hostnames)
    (hd : r'.dns.domains = r.dns.domains) : Sourced installed r' := by
  refine ⟨fun name e hn s hs => ?_, fun dom owners ho s hs => ?_, fun name e dom hn => ?_⟩
  · obtain ⟨cfg, hcfg, hlists, hall⟩ := h.names name e (hh ▸ hn) s hs
    exact ⟨cfg, hcfg, hlists, fun rule hr => he _ (hall rule hr)⟩
  · obtain ⟨cfg, hcfg, hlists, hall⟩ := h.domains dom owners (hd ▸ ho) s hs
    exact ⟨cfg, hcfg, hlists, fun rule hr => hw _ (hall rule hr)⟩
  · exact h.under name e dom (hh ▸ hn)

theorem Sourced.insert (h : Sourced installed r) (name : Text) (entry : DnsEntry)
    (hh : r'.dns.hostnames = r.dns.hostnames.insert name entry) (hd : r'.dns.domains = r.dns.domains)
    (he : ∀ e ∈ r.entries, e ∈ r'.entries) (hw : r'.wildcards = r.wildcards)
    (howners : ∀ s ∈ entry.intercepts, ∃ cfg, installed s = some cfg ∧
      (∃ a ∈ cfg.addresses, lowerAscii a = name) ∧
      ∀ rule ∈ rules s cfg, InterceptEntry.mk rule (.v4 (.host entry.ip)) ∈ r'.entries)
    (hunder : ∀ dom, entry.domain = some dom → LabelSuffix dom name) : Sourced installed r' := by
  refine ⟨fun n e hn => ?_, ?_, fun n e dom hn => ?_⟩
  · rw [hh, lookup_insert] at hn
    split_ifs at hn with heq
    · subst heq
      obtain rfl := Option.some.inj hn
      exact howners
    · intro s hs
      obtain ⟨cfg, hcfg, hlists, hall⟩ := h.names n e hn s hs
      exact ⟨cfg, hcfg, hlists, fun rule hr => he _ (hall rule hr)⟩
  · rw [hd, hw]
    exact h.domains
  · rw [hh, lookup_insert] at hn
    split_ifs at hn with heq
    · subst heq
      obtain rfl := Option.some.inj hn
      exact hunder dom
    · exact h.under n e dom hn

theorem Sourced.answers {out : Option DnsMatch × DnsMatcher} {query : Text}
    (h : Sourced installed r) (ha : r.dns.Answers query out) :
    Sourced installed { r with dns := out.2 } := by
  obtain ⟨⟨hh, hd, -⟩, -⟩ := r.dns.allocateIp_spec
  cases ha with
  | unanswered => exact h
  | known => exact h
  | exhausted => exact h.mono (fun _ he => he) (fun _ hw => hw) hh hd
  | assign ip dom hnew hdom hip =>
    refine h.insert (lowerAscii query) ⟨ip, some dom, ∅⟩ ?_ hd (fun _ he => he) rfl ?_ ?_
    · simp only [DnsMatcher.insertHostname, hh]
    · intro s hs
      exact absurd hs Std.ExtTreeSet.not_mem_empty
    · intro dom' hdom'
      cases hdom'
      exact (findDomain_some hdom).suffix

theorem Sourced.registers {out : RegisterOutcome} (h : Sourced installed r)
    (hcfg : installed service = some cfg) (ha : addr ∈ cfg.addresses)
    (hr : r.dns.Registers addr service (out, r'.dns)) (he : ∀ e ∈ r.entries, e ∈ r'.entries)
    (hw : ∀ w ∈ r.wildcards, w ∈ r'.wildcards)
    (hentries : ∀ ip, out = .hostname ip → r'.wildcards = r.wildcards ∧
      ∀ rule ∈ rules service cfg, InterceptEntry.mk rule (.v4 (.host ip)) ∈ r'.entries)
    (hwildcards : out = .domain →
      ∀ rule ∈ rules service cfg, WildcardEntry.mk rule (suffixOf addr) ∈ r'.wildcards) :
    Sourced installed r' := by
  obtain ⟨⟨hh, hd, -⟩, -⟩ := r.dns.allocateIp_spec
  generalize hdns : r'.dns = dns' at hr
  cases hr with
  | rejected => exact h.mono he hw (by rw [hdns]) (by rw [hdns])
  | claim hwild =>
    refine ⟨fun name e hn s hs => ?_, fun dom owners ho s hs => ?_, fun name e dom hn => ?_⟩
    · rw [hdns] at hn
      obtain ⟨cfg', hcfg', hlists, hall⟩ := h.names name e hn s hs
      exact ⟨cfg', hcfg', hlists, fun rule hr => he _ (hall rule hr)⟩
    · have hold (hs : ∃ owners, r.dns.domains[dom]? = some owners ∧ s ∈ owners) :
          ∃ cfg, installed s = some cfg ∧ (∃ a ∈ cfg.addresses, IsWildcard a ∧ suffixOf a = dom) ∧
            ∀ rule ∈ rules s cfg, WildcardEntry.mk rule dom ∈ r'.wildcards := by
        obtain ⟨owners, ho, hs⟩ := hs
        obtain ⟨cfg', hcfg', hlists, hall⟩ := h.domains dom owners ho s hs
        exact ⟨cfg', hcfg', hlists, fun rule hr => hw _ (hall rule hr)⟩
      rw [hdns, lookup_insert] at ho
      split_ifs at ho with heq
      · subst heq
        obtain rfl := Option.some.inj ho
        obtain heq | hs := Std.ExtTreeSet.mem_insert.mp hs
        · obtain rfl := Std.compare_eq_iff_eq.mp heq
          exact ⟨cfg, hcfg, ⟨addr, ha, hwild, rfl⟩, hwildcards rfl⟩
        · cases hdom : r.dns.domains[suffixOf addr]? with
          | none =>
            rw [hdom] at hs
            exact absurd hs Std.ExtTreeSet.not_mem_empty
          | some owners =>
            rw [hdom] at hs
            exact hold ⟨owners, hdom, hs⟩
      · exact hold ⟨owners, ho, hs⟩
    · rw [hdns] at hn
      exact h.under name e dom hn
  | share hlit e hold =>
    obtain ⟨hwild, hrules⟩ := hentries e.ip rfl
    refine h.insert (lowerAscii addr) { e with intercepts := e.intercepts.insert service }
      (by rw [hdns]) (by rw [hdns]) he hwild ?_ ?_
    · intro s hs
      obtain heq | hs := Std.ExtTreeSet.mem_insert.mp hs
      · obtain rfl := Std.compare_eq_iff_eq.mp heq
        exact ⟨cfg, hcfg, ⟨addr, ha, rfl⟩, hrules⟩
      · obtain ⟨cfg', hcfg', hlists, hall⟩ := h.names _ e hold s hs
        exact ⟨cfg', hcfg', hlists, fun rule hr => he _ (hall rule hr)⟩
    · intro dom hdom
      exact h.under _ e dom hold hdom
  | exhausted => exact h.mono he hw (by rw [hdns, hh]) (by rw [hdns, hd])
  | assign hlit ip hnew hip =>
    obtain ⟨hwild, hrules⟩ := hentries ip rfl
    refine h.insert (lowerAscii addr) ⟨ip, none, (∅ : Owners).insert service⟩ ?_ ?_ he hwild ?_ nofun
    · rw [hdns, ← hh]
      rfl
    · rw [hdns, ← hd]
      rfl
    · intro s hs
      obtain heq | hs := Std.ExtTreeSet.mem_insert.mp hs
      · obtain rfl := Std.compare_eq_iff_eq.mp heq
        exact ⟨cfg, hcfg, ⟨addr, ha, rfl⟩, hrules⟩
      · exact absurd hs Std.ExtTreeSet.not_mem_empty

theorem Registers.of_hostname {d : DnsMatcher} {out : RegisterOutcome × DnsMatcher} {ip : BitVec 32}
    (h : d.Registers addr service out) (ho : out.1 = .hostname ip) : ¬ IsWildcard addr := by
  cases h with
  | share ha => exact ha
  | assign ha => exact ha
  | _ => cases ho

theorem Registers.of_domain {d : DnsMatcher} {out : RegisterOutcome × DnsMatcher}
    (h : d.Registers addr service out) (ho : out.1 = .domain) :
    IsWildcard addr ∧ utf8Len (suffixOf addr) < 254 := by
  cases h with
  | claim ha hlen => exact ⟨ha, hlen⟩
  | _ => cases ho

theorem Sourced.installs (h : Sourced installed r) (hcfg : installed service = some cfg)
    (ha : addr ∈ cfg.addresses) (hi : Installs service (rules service cfg) r addr r') :
    Sourced installed r' := by
  have hr := r.dns.register_registers addr service
  have hstays {α : Type} {old : List α} (new : List α) : ∀ x ∈ old, x ∈ old ++ new :=
    fun _ hx => List.mem_append_left _ hx
  cases hi with
  | network hw cidr hnet => exact h.mono (hstays _) (fun _ hx => hx) rfl rfl
  | overlong hw hlen =>
    refine h.registers hcfg ha hr (fun _ hx => hx) (fun _ hx => hx) (fun ip ho => ?_) fun ho => ?_
    · exact absurd hw (Registers.of_hostname hr ho)
    · exact absurd (Registers.of_domain hr ho).2 hlen
  | wildcard hw =>
    refine h.registers hcfg ha hr (fun _ hx => hx) (hstays _) (fun ip ho => ?_) fun ho rule hrule => ?_
    · exact absurd hw (Registers.of_hostname hr ho)
    · exact List.mem_append_right _ (List.mem_map_of_mem hrule)
  | hostname hw hnet ip hip =>
    refine h.registers hcfg ha hr (hstays _) (fun _ hx => hx) (fun ip' ho => ?_) fun ho => ?_
    · obtain rfl := RegisterOutcome.hostname.inj (hip.symm.trans ho)
      exact ⟨rfl, fun rule hrule => List.mem_append_right _ (List.mem_map_of_mem hrule)⟩
    · exact absurd (Registers.of_domain hr ho).1 hw
  | passedOver hw hnet hno =>
    refine h.registers hcfg ha hr (fun _ hx => hx) (fun _ hx => hx) (fun ip ho => ?_) fun ho => ?_
    · exact absurd ho (hno ip)
    · exact absurd (Registers.of_domain hr ho).1 hw

theorem Sourced.installAll (h : Sourced installed r) (hcfg : installed service = some cfg)
    {addrs : List Text} (hsub : addrs ⊆ cfg.addresses) : Sourced installed
      (addrs.foldl (InterceptResolver.installAddress service (rules service cfg)) r) := by
  induction addrs generalizing r with
  | nil => exact h
  | cons addr addrs ih =>
    obtain ⟨haddr, hrest⟩ := List.cons_subset.mp hsub
    exact ih (h.installs hcfg haddr (installAddress_installs service _ r addr)) hrest

theorem Sourced.removeService (h : Sourced installed r)
    (fromValue : V → Except String InterceptV1Config) (config : Option InterceptV1Config) :
    Sourced (Function.update installed service config) (r.removeService fromValue service).2 := by
  have hother {s : Text} {owners : Owners} (hs : s ∈ owners.erase service) :
      s ≠ service ∧ s ∈ owners := by
    obtain ⟨hne, hmem⟩ := Std.ExtTreeSet.mem_erase.mp hs
    exact ⟨fun heq => hne (Std.compare_eq_iff_eq.mpr heq.symm), hmem⟩
  refine ⟨fun name x hn s hs => ?_, fun dom owners ho s hs => ?_, fun name x dom hn hdom => ?_⟩
  · obtain ⟨e, he, rfl⟩ := DnsMatcher.deregisterIntercept_kept hn
    obtain ⟨hne, hmem⟩ := hother hs
    obtain ⟨cfg, hcfg, hlists, hall⟩ := h.names name e he s hmem
    refine ⟨cfg, ?_, hlists, fun rule hr => List.mem_filter.mpr ⟨hall rule hr, ?_⟩⟩
    · rw [Function.update_of_ne hne, hcfg]
    · simpa [(rules_service hr).1] using hne
  · have ho' := (DnsMatcher.deregisterIntercept_domains r.dns service dom).symm.trans ho
    obtain ⟨hmap, -⟩ := Option.filter_eq_some_iff.mp ho'
    obtain ⟨owners', howners', rfl⟩ := Option.map_eq_some_iff.mp hmap
    obtain ⟨hne, hmem⟩ := hother hs
    obtain ⟨cfg, hcfg, hlists, hall⟩ := h.domains dom owners' howners' s hmem
    refine ⟨cfg, ?_, hlists, fun rule hr => List.mem_filter.mpr ⟨hall rule hr, ?_⟩⟩
    · rw [Function.update_of_ne hne, hcfg]
    · simpa [(rules_service hr).1] using hne
  · obtain ⟨e, he, rfl⟩ := DnsMatcher.deregisterIntercept_kept hn
    exact h.under name e dom he hdom

end Sourced

section Run

variable {V : Type} {fromValue : V → Except String InterceptV1Config} {t t' : Dispatch V}

/-- Every name and domain is there for somebody installed, whose rules are in the tables. -/
structure Routed (fromValue : V → Except String InterceptV1Config) (t : Dispatch V) : Prop where
  refines : Refines fromValue t
  sustained : t.resolver.dns.Sustained
  sourced : Sourced t.installed t.resolver

theorem Installs.sustained {r r' : InterceptResolver V} {name addr : Text} {rs : List InterceptRule}
    (h : Installs name rs r addr r') (hs : r.dns.Sustained) : r'.dns.Sustained := by
  have hreg := hs.registers (r.dns.register_registers addr name)
  cases h with
  | network => exact hs
  | _ => exact hreg

theorem sustained_installAll {r : InterceptResolver V} {name : Text} {rs : List InterceptRule}
    (h : r.dns.Sustained) (addrs : List Text) :
    (addrs.foldl (InterceptResolver.installAddress name rs) r).dns.Sustained := by
  induction addrs generalizing r with
  | nil => exact h
  | cons addr addrs ih => exact ih ((installAddress_installs name rs r addr).sustained h)

theorem routed_new : Routed fromValue (Dispatch.new : Dispatch V) :=
  ⟨refines_new, DnsMatcher.sustained_new, sourced_new⟩

theorem Applies.routed {name : Text} {r' : InterceptResolver V}
    {installed : Text → Option InterceptV1Config} (h : Applies fromValue t name r' installed)
    (hs : t.resolver.dns.Sustained) (hsrc : Sourced t.installed t.resolver) :
    r'.dns.Sustained ∧ Sourced installed r' := by
  have hgone := DnsMatcher.sustained_deregisterIntercept t.resolver.dns name
  cases h with
  | keeps => exact ⟨hs, hsrc⟩
  | removes => exact ⟨hgone, hsrc.removeService fromValue none⟩
  | installs raw cfg =>
    have hremoved : Sourced (Function.update t.installed name (some cfg)) _ :=
      hsrc.removeService fromValue (some cfg)
    have hreplaced : Sourced (Function.update t.installed name (some cfg))
        (replaced fromValue t.resolver name raw) :=
      hremoved.mono (fun _ he => he) (fun _ hw => hw) rfl rfl
    refine ⟨sustained_installAll hgone cfg.addresses, ?_⟩
    exact hreplaced.installAll (Function.update_self ..) (List.Subset.refl _)

theorem Routed.pool (h : Routed fromValue t) {d : DnsMatcher} (hwf : d.Wf)
    (hg : t.resolver.dns.Grows d) (hh : d.hostnames = t.resolver.dns.hostnames)
    (hd : d.domains = t.resolver.dns.domains) :
    Routed fromValue { t with resolver := { t.resolver with dns := d } } :=
  ⟨h.refines.grows hwf hg, h.sustained.congr hh hd,
    h.sourced.mono (fun _ he => he) (fun _ hw => hw) hh hd⟩

theorem Routed.query (h : Routed fromValue t) (name : Text) : Routed fromValue
    { t with resolver := { t.resolver with dns := (t.resolver.dns.lookup name).2 } } := by
  have hanswers := t.resolver.dns.lookup_answers name
  obtain ⟨hwf, hgrows⟩ := DnsMatcher.lookup_spec h.refines.wf name
  exact ⟨h.refines.grows hwf hgrows, h.sustained.answers hanswers, h.sourced.answers hanswers⟩

variable [DecidableEq V]

theorem Routed.step (h : Routed fromValue t) {act : ResolverAct V}
    (hstep : t.step fromValue act = some t') : Routed fromValue t' := by
  cases act with
  | event ev =>
    have hrefines := h.refines.event hstep
    have happlies := applyEvent_applies ev (h.refines.dispatched ev.service.name)
    cases hstep
    obtain ⟨hsustained, hsourced⟩ := happlies.routed h.sustained h.sourced
    exact ⟨hrefines, hsustained, hsourced⟩
  | query name =>
    cases hstep
    exact h.query name
  | seedPool net =>
    cases hstep
    obtain ⟨hwf, hgrows⟩ := DnsMatcher.seedPool_spec h.refines.wf net
    refine h.pool hwf hgrows ?_ ?_ <;> unfold DnsMatcher.seedPool <;> split <;> rfl
  | reserve ip =>
    cases hstep
    obtain ⟨hwf, hgrows⟩ := DnsMatcher.reserve_spec h.refines.wf ip
    exact h.pool hwf hgrows rfl rfl

theorem run_routed {as : List (ResolverAct V)}
    (hrun : run (Dispatch.step fromValue) Dispatch.new as = some t) : Routed fromValue t :=
  run_invariant (Routed fromValue) (fun _ _ _ hs h => h.step hs) hrun routed_new

end Run

section Lookup

variable {d : DnsMatcher} {n : Text}

theorem DnsMatcher.Answers.entry {out : Option DnsMatch × DnsMatcher} {m : DnsMatch}
    (h : d.Answers n out) (hm : out.1 = some m) :
    ∃ e, out.2.hostnames[lowerAscii n]? = some e ∧ e.ip = m.ip := by
  cases h with
  | unanswered => cases hm
  | exhausted => cases hm
  | known e he =>
    cases hm
    exact ⟨e, he, rfl⟩
  | assign ip dom hnew hdom hip =>
    cases hm
    refine ⟨⟨ip, some dom, ∅⟩, ?_, rfl⟩
    simp only [DnsMatcher.insertHostname, lookup_insert, if_true]

theorem DnsMatcher.Answers.unanswered_of {out : Option DnsMatch × DnsMatcher} (h : d.Answers n out)
    (hname : d.hostnames[lowerAscii n]? = none)
    (hdomain : ∀ dom, findDomain (lowerAscii n) d.domains ≠ some dom) : out.1 = none := by
  cases h with
  | unanswered => rfl
  | exhausted => rfl
  | known e he => cases hname.symm.trans he
  | assign ip dom hnew hdom hip => exact absurd hdom (hdomain dom)

theorem exists_owner {owners : Owners} (h : owners.isEmpty = false) : ∃ s, s ∈ owners := by
  by_contra hnone
  have hempty : owners = ∅ := Std.ExtTreeSet.ext_mem fun s =>
    iff_of_false (fun hs => hnone ⟨s, hs⟩) Std.ExtTreeSet.not_mem_empty
  rw [hempty] at h
  cases h

variable {V : Type} {fromValue : V → Except String InterceptV1Config} {t : Dispatch V}

theorem Routed.source (h : Routed fromValue t) {name : Text} {e : DnsEntry}
    (he : t.resolver.dns.hostnames[name]? = some e) :
    ∃ s cfg, t.installed s = some cfg ∧ (∃ a ∈ cfg.addresses, Lists a name) ∧
      ∀ port proto src, Asks cfg port proto src →
        ∃ m, t.resolver.lookup (.v4 e.ip) port proto src = some m := by
  obtain hown | ⟨dom, owners, hdom, howners, hempty⟩ :=
    DnsMatcher.keepsEntry_iff.mp (h.sustained.alive name e he)
  · obtain ⟨s, hs⟩ := exists_owner hown
    obtain ⟨cfg, hcfg, ⟨a, ha, hname⟩, hall⟩ := h.sourced.names name e he s hs
    refine ⟨s, cfg, hcfg, ⟨a, ha, .inl hname⟩, fun port proto src hasks => ?_⟩
    obtain ⟨rule, hrule, hadmits⟩ := rules_admit_iff.mpr hasks
    refine Option.ne_none_iff_exists'.mp fun hnone => ?_
    have hmiss := (lookup_none_cases hnone).1 _ (hall rule hrule)
    rw [InterceptEntry.matches, host_contains_iff.mpr rfl, hadmits] at hmiss
    cases hmiss
  · obtain ⟨s, hs⟩ := exists_owner hempty
    obtain ⟨cfg, hcfg, ⟨a, ha, hwild, hsuffix⟩, hall⟩ := h.sourced.domains dom owners howners s hs
    have hunder := h.sourced.under name e dom he hdom
    refine ⟨s, cfg, hcfg, ⟨a, ha, .inr ⟨hwild, hsuffix ▸ hunder⟩⟩, fun port proto src hasks => ?_⟩
    obtain ⟨rule, hrule, hadmits⟩ := rules_admit_iff.mpr hasks
    refine Option.ne_none_iff_exists'.mp fun hnone => ?_
    have hrev := (DnsMatcher.reverseLookupDomain_eq_some h.refines.wf).mpr ⟨name, e, he, rfl, hdom⟩
    have hmiss := (lookup_none_cases hnone).2 e.ip dom rfl hrev _ (hall rule hrule)
    rw [WildcardEntry.claims, suffixMatches_iff.mpr (.inl rfl), hadmits] at hmiss
    cases hmiss

variable [DecidableEq V]

/-- Every name the server answers is routable: it is there for an installed service that lists it,
and whatever that service asks for at the answered address is dispatched. A name that no installed
service lists is not answered and holds no address. -/
theorem answers_routable {as : List (ResolverAct V)}
    (hrun : run (Dispatch.step fromValue) Dispatch.new as = some t) (n : Text) :
    (∀ m, (t.resolver.dns.lookup n).1 = some m →
      ∃ s cfg, t.installed s = some cfg ∧ (∃ a ∈ cfg.addresses, Lists a (lowerAscii n)) ∧
        ∀ port proto src, Asks cfg port proto src →
          ∃ found, { t.resolver with dns := (t.resolver.dns.lookup n).2 }.lookup (.v4 m.ip) port proto
            src = some found) ∧
    ((∀ s cfg, t.installed s = some cfg → ∀ a ∈ cfg.addresses, ¬ Lists a (lowerAscii n)) →
      (t.resolver.dns.lookup n).1 = none ∧
        t.resolver.dns.hostnames[lowerAscii n]? = none) := by
  have hrouted := run_routed hrun
  have hanswers := t.resolver.dns.lookup_answers n
  constructor
  · intro m hm
    obtain ⟨e, he, hip⟩ := hanswers.entry hm
    rw [← hip]
    exact (hrouted.query n).source he
  · intro hlists
    have hnone : t.resolver.dns.hostnames[lowerAscii n]? = none := by
      refine Option.eq_none_iff_forall_not_mem.mpr fun e he => ?_
      obtain ⟨s, cfg, hcfg, ⟨a, ha, hname⟩, -⟩ := hrouted.source he
      exact hlists s cfg hcfg a ha hname
    refine ⟨?_, hnone⟩
    refine hanswers.unanswered_of hnone fun dom hdom => ?_
    -- the domain it would be handed out under is somebody's wildcard
    obtain ⟨owners, howners⟩ := mem_iff_lookup.mp (findDomain_mem hdom)
    obtain ⟨s, hs⟩ := exists_owner (hrouted.sustained.owned dom owners howners)
    obtain ⟨cfg, hcfg, ⟨a, ha, hwild, hsuffix⟩, -⟩ := hrouted.sourced.domains dom owners howners s hs
    exact hlists s cfg hcfg a ha (.inr ⟨hwild, hsuffix ▸ (findDomain_some hdom).suffix⟩)

theorem answers_routable_corp : ∃ t, run (Dispatch.step readCorp) Dispatch.new corpActs = some t ∧
    (t.resolver.dns.lookup "B.corp".toList).1 = some ⟨.domain, 0x64400002#32⟩ ∧
    (∃ s cfg, t.installed s = some cfg ∧ (∃ a ∈ cfg.addresses, Lists a "b.corp".toList) ∧
      ∀ port proto src, Asks cfg port proto src → ∃ found,
        { t.resolver with dns := (t.resolver.dns.lookup "B.corp".toList).2 }.lookup
          (.v4 0x64400002#32) port proto src = some found) := by
  obtain ⟨t, hrun, hm⟩ := Option.map_eq_some_iff.mp
    (show (run (Dispatch.step readCorp) Dispatch.new corpActs).map
        (fun t => (t.resolver.dns.lookup "B.corp".toList).1) = some (some ⟨.domain, 0x64400002#32⟩) by
      decide +kernel)
  exact ⟨t, hrun, hm, (answers_routable hrun "B.corp".toList).1 _ hm⟩

end Lookup

end Noa.Tunnel.Intercept
