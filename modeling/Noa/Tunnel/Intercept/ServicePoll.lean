import Noa.Tunnel.Intercept.Dispatch
import Noa.Edge.Services

namespace Noa.Tunnel.Intercept
open Noa.Framework

/-- The decoded configurations of a service, by type. -/
abbrev ServiceConfigs (V : Type) := Std.ExtTreeMap String V

/-- What the intercept table reads of a fetched service. -/
def Service.ofEdge {V : Type} (svc : Edge.Service (ServiceConfigs V)) : Service V :=
  ⟨svc.name.toList, svc.permissions.map String.toList, svc.config["intercept.v1"]?⟩

def ServiceEvent.ofEdge {V : Type} : Edge.ServiceEvent (ServiceConfigs V) → ServiceEvent V
  | .added svc => .added (.ofEdge svc)
  | .changed svc => .changed (.ofEdge svc)
  | .removed svc => .removed (.ofEdge svc)

/-- The watcher and the intercept table its events are applied to. -/
structure ServicePoll (V : Type) where
  watch : Edge.Watch (ServiceConfigs V)
  dispatch : Dispatch V

inductive ServicePollAct (V : Type) where
  | poll (p : Edge.Poll (ServiceConfigs V))
  | query (name : Text)
  | seedPool (net : Option (Net 32))
  | reserve (ip : BitVec 32)

namespace ServicePoll

variable {V : Type} [DecidableEq V] (fromValue : V → Except String InterceptV1Config)

def new : ServicePoll V := ⟨.new, .new⟩

/-- A poll's events are applied in the order they are emitted in; queries come in between. -/
def step (s : ServicePoll V) : ServicePollAct V → Option (ServicePoll V)
  | .poll p => do
    let watch ← s.watch.poll p
    let events := Edge.diffServices p.iter s.watch.cache p.fetched
    let dispatch ← run (Dispatch.step fromValue) s.dispatch
      ((events.map ServiceEvent.ofEdge).map .event)
    return ⟨watch, dispatch⟩
  | .query name => (s.dispatch.step fromValue (.query name)).map ({ s with dispatch := · })
  | .seedPool net => (s.dispatch.step fromValue (.seedPool net)).map ({ s with dispatch := · })
  | .reserve ip => (s.dispatch.step fromValue (.reserve ip)).map ({ s with dispatch := · })

end ServicePoll

section Settle

variable {V : Type} {fromValue : V → Except String InterceptV1Config}
  {installed : Text → Option InterceptV1Config} {name : Text} {cfg : InterceptV1Config}

/-- The event lets its service keep or get an intercept. -/
def ServiceEvent.Admits {V : Type} (ev : ServiceEvent V) : Prop :=
  ∃ svc, (ev = .added svc ∨ ev = .changed svc) ∧ "Dial".toList ∈ svc.permissions

theorem given_of_ne {other : Text} (h : other ≠ name) (given : Option (Option InterceptV1Config)) :
    (match given with
      | some config => Function.update installed other config
      | none => installed) name = installed name := by
  cases given with
  | none => rfl
  | some config => exact Function.update_of_ne h.symm config installed

theorem settle_of_ne {ev : ServiceEvent V} (h : ev.service.name ≠ name) :
    settle fromValue installed ev name = installed name :=
  given_of_ne h _

theorem settle_stopped {ev : ServiceEvent V} (h : ¬ ev.Admits) :
    settle fromValue installed ev ev.service.name = none := by
  have hadded (svc : Service V) (hev : ev = .added svc ∨ ev = .changed svc) :
      "Dial".toList ∉ svc.permissions := fun hdial => h ⟨svc, hev, hdial⟩
  cases ev with
  | added svc =>
    have hdial := hadded svc (.inl rfl)
    simp only [settle, ServiceEvent.service, hdial, not_false_eq_true, if_true, Function.update_self]
  | changed svc =>
    have hdial := hadded svc (.inr rfl)
    simp only [settle, ServiceEvent.service, hdial, not_false_eq_true, if_true, Function.update_self]
  | removed svc => exact Function.update_self ..

theorem settle_some {ev : ServiceEvent V} (h : settle fromValue installed ev name = some cfg) :
    ev.service.name ≠ name ∧ installed name = some cfg ∨ ev.service.name = name ∧ ev.Admits := by
  by_cases hname : ev.service.name = name
  · refine .inr ⟨hname, by_contra fun hstop => ?_⟩
    rw [← hname, settle_stopped hstop] at h
    cases h
  · rw [settle_of_ne hname] at h
    exact .inl ⟨hname, h⟩

theorem foldl_settle_some {evs : List (ServiceEvent V)}
    (h : evs.foldl (settle fromValue) installed name = some cfg) :
    (∃ ev ∈ evs, ev.service.name = name ∧ ev.Admits) ∨
      (∀ ev ∈ evs, ev.service.name ≠ name) ∧ installed name = some cfg := by
  induction evs generalizing installed with
  | nil => exact .inr ⟨nofun, h⟩
  | cons ev evs ih =>
    obtain ⟨ev', hmem, hname, hadmits⟩ | ⟨hother, hsettled⟩ := ih h
    · exact .inl ⟨ev', List.mem_cons_of_mem _ hmem, hname, hadmits⟩
    · obtain ⟨hne, hinst⟩ | ⟨heq, hadmits⟩ := settle_some hsettled
      · exact .inr ⟨List.forall_mem_cons.mpr ⟨hne, hother⟩, hinst⟩
      · exact .inl ⟨ev, List.mem_cons_self, heq, hadmits⟩

variable [DecidableEq V]

theorem run_installed {d d' : Dispatch V} {evs : List (ServiceEvent V)}
    (h : run (Dispatch.step fromValue) d (evs.map .event) = some d') :
    d'.installed = evs.foldl (settle fromValue) d.installed := by
  induction evs generalizing d with
  | nil =>
    cases h
    rfl
  | cons ev evs ih =>
    obtain ⟨d₁, hstep, hrest⟩ := run_cons_eq_some.mp h
    cases hstep
    exact ih hrest

end Settle

namespace ServicePoll

variable {V : Type} {fromValue : V → Except String InterceptV1Config} {s s' : ServicePoll V}

/-- Whatever is installed is there for a cached service that may be dialed. -/
structure Follows (fromValue : V → Except String InterceptV1Config) (s : ServicePoll V) : Prop where
  caches : s.watch.Caches
  refines : Refines fromValue s.dispatch
  cached : ∀ name cfg, s.dispatch.installed name = some cfg →
    ∃ svc : Edge.Service (ServiceConfigs V), s.watch.cache[svc.name]? = some svc ∧ svc.name.toList = name ∧ "Dial" ∈ svc.permissions

theorem admits_fetched {ev : Edge.ServiceEvent (ServiceConfigs V)} (h : (ServiceEvent.ofEdge ev).Admits) :
    ∃ svc, (ev = .added svc ∨ ev = .changed svc) ∧ "Dial" ∈ svc.permissions ∧
      (ServiceEvent.ofEdge ev).service.name = svc.name.toList := by
  have hdial (svc : Edge.Service (ServiceConfigs V))
      (hmem : "Dial".toList ∈ (Service.ofEdge svc).permissions) : "Dial" ∈ svc.permissions := by
    obtain ⟨perm, hperm, heq⟩ := List.mem_map.mp hmem
    rwa [← String.toList_injective heq]
  obtain ⟨svc', hev, hperm⟩ := h
  cases ev with
  | added svc =>
    obtain heq | heq := hev <;> cases heq
    exact ⟨svc, .inl rfl, hdial svc hperm, rfl⟩
  | changed svc =>
    obtain heq | heq := hev <;> cases heq
    exact ⟨svc, .inr rfl, hdial svc hperm, rfl⟩
  | removed svc => obtain heq | heq := hev <;> cases heq

theorem follows_new : Follows fromValue (new : ServicePoll V) :=
  ⟨Edge.Watch.caches_new, refines_new, nofun⟩

theorem Follows.tables (h : Follows fromValue s) {d : Dispatch V} (hr : Refines fromValue d)
    (hi : d.installed = s.dispatch.installed) : Follows fromValue { s with dispatch := d } :=
  ⟨h.caches, hr, fun name cfg hcfg => h.cached name cfg (hi ▸ hcfg)⟩

/-- A service the resolver may answer with. -/
def Returns (r : InterceptResolver V) (m : InterceptMatch) : Prop :=
  (∃ dst port proto src, r.lookup dst port proto src = some m) ∨
    ∃ domain, r.proxyService domain = some m

theorem Returns.installed {t : Dispatch V} {m : InterceptMatch} (h : Returns t.resolver m)
    (hr : Refines fromValue t) : ∃ cfg, t.installed m.service = some cfg := by
  obtain ⟨dst, port, proto, src, hm⟩ | ⟨domain, hm⟩ := h
  · obtain ⟨cfg, hcfg, -⟩ := hr.lookup_sound hm
    exact ⟨cfg, hcfg⟩
  · obtain ⟨w, hfind, rfl⟩ := Option.map_eq_some_iff.mp hm
    refine Option.ne_none_iff_exists'.mp fun hnone => ?_
    exact ((hr.dispatched w.service).absent hnone).2 w (List.mem_of_find?_eq_some hfind) rfl

variable [DecidableEq V]

theorem cached_of_silent {watch : Edge.Watch (ServiceConfigs V)} {p : Edge.Poll (ServiceConfigs V)}
    {svc : Edge.Service (ServiceConfigs V)} (hc : watch.cache[svc.name]? = some svc)
    (hsilent : ∀ ev ∈ Edge.diffServices p.iter watch.cache p.fetched,
      (ServiceEvent.ofEdge ev).service.name ≠ svc.name.toList) :
    (Edge.processServices p.iter watch.cache p.fetched).2[svc.name]? = some svc := by
  rw [Edge.lookup_applyCacheUpdate p.names_nodup, Option.or_eq_some_iff]
  cases hfind : p.fetched.find? fun s => s.name = svc.name with
  | some s =>
    have hs := List.mem_of_find?_eq_some hfind
    have hname : s.name = svc.name := by simpa using List.find?_some hfind
    refine .inl (congrArg some (Option.some.inj (.trans (.symm ?_) hc)))
    rw [← hname]
    by_contra hne
    have hev : _ ∈ Edge.diffServices p.iter watch.cache p.fetched ∨ _ ∈ _ :=
      Edge.reported_mem_diffServices hs hne
    obtain hev | hev := hev <;> exact hsilent _ hev (congrArg String.toList hname)
  | none =>
    refine .inr ⟨rfl, ?_⟩
    rw [if_neg, hc]
    intro hgone
    obtain ⟨s, hs, hname⟩ := List.mem_map.mp hgone
    exact hsilent _ (Edge.removed_mem_diffServices hs) (congrArg String.toList hname)

theorem Follows.poll (h : Follows fromValue s) {p : Edge.Poll (ServiceConfigs V)}
    (hstep : s.step fromValue (.poll p) = some s') : Follows fromValue s' := by
  simp only [step, Option.bind_eq_bind, Option.bind_eq_some_iff, Option.pure_def,
    Option.some.injEq] at hstep
  obtain ⟨watch, hwatch, dispatch, hdispatch, rfl⟩ := hstep
  refine ⟨Edge.Watch.poll_caches h.caches hwatch, ?_, fun name cfg hcfg => ?_⟩
  · exact run_invariant (Refines fromValue) (fun _ _ _ hs hr => hr.step hs) hdispatch h.refines
  · obtain ⟨hiter, hcache, -⟩ := Edge.Watch.poll_eq_some hwatch
    rw [show dispatch.installed = _ from run_installed hdispatch] at hcfg
    rw [show watch.cache = _ from hcache]
    obtain ⟨_, hmem, hname, hadmits⟩ | ⟨hsilent, hold⟩ := foldl_settle_some hcfg
    · obtain ⟨ev, hev, rfl⟩ := List.mem_map.mp hmem
      obtain ⟨svc, hsvc, hdial, hsname⟩ := admits_fetched hadmits
      have hfetched := Edge.fetched_of_reported hev hsvc
      exact ⟨svc, Edge.mem_processed p.names_nodup hfetched, hsname ▸ hname, hdial⟩
    · obtain ⟨svc, hc, rfl, hdial⟩ := h.cached name cfg hold
      refine ⟨svc, cached_of_silent hc fun ev hev => ?_, rfl, hdial⟩
      exact hsilent _ (List.mem_map_of_mem hev)

theorem Follows.step (h : Follows fromValue s) {act : ServicePollAct V}
    (hstep : s.step fromValue act = some s') : Follows fromValue s' := by
  cases act with
  | poll p => exact h.poll hstep
  | query name =>
    have hd : s.dispatch.step fromValue (.query name) = some _ := rfl
    cases hstep
    exact h.tables (h.refines.step hd) rfl
  | seedPool net =>
    have hd : s.dispatch.step fromValue (.seedPool net) = some _ := rfl
    cases hstep
    exact h.tables (h.refines.step hd) rfl
  | reserve ip =>
    have hd : s.dispatch.step fromValue (.reserve ip) = some _ := rfl
    cases hstep
    exact h.tables (h.refines.step hd) rfl

theorem run_follows {as : List (ServicePollAct V)}
    (hrun : run (ServicePoll.step fromValue) new as = some s) : Follows fromValue s :=
  run_invariant (Follows fromValue) (fun _ _ _ hs h => h.step hs) hrun follows_new

/-- The intercept table follows the service list but for former names: whatever service is returned
was fetched with the Dial permission, in the last list or, where its id has since been fetched under
other names, when it last had that name. -/
theorem returned_retained {as : List (ServicePollAct V)}
    (hrun : run (ServicePoll.step fromValue) new as = some s) {m : InterceptMatch}
    (hm : Returns s.dispatch.resolver m) :
    ∃ svc, svc.name.toList = m.service ∧ "Dial" ∈ svc.permissions ∧
      (svc ∈ s.watch.lists.headD [] ∨
        svc.name ∉ (s.watch.lists.headD []).map (·.name) ∧
          svc.id ∈ (s.watch.lists.headD []).map (·.id) ∧ Edge.Watch.Retained svc s.watch.lists) := by
  have hfollows := run_follows hrun
  obtain ⟨cfg, hcfg⟩ := hm.installed hfollows.refines
  obtain ⟨svc, hcached, hname, hdial⟩ := hfollows.cached m.service cfg hcfg
  have hretained := ((hfollows.caches.retained svc.name svc).mp hcached).2
  refine ⟨svc, hname, hdial, ?_⟩
  cases hlists : s.watch.lists with
  | nil =>
    rw [hlists] at hretained
    exact hretained.elim
  | cons l older =>
    rw [hlists] at hretained
    exact hretained.imp_right fun hformer => ⟨hformer.1, hformer.2.1, .inr hformer⟩

def webService (id name : String) : Edge.Service (ServiceConfigs Bool) :=
  ⟨id, name, false, ["Dial"], (∅ : ServiceConfigs Bool).insert "intercept.v1" true, ["intercept.v1"]⟩

/-- A service, and another beside it. -/
def joined : List (ServicePollAct Bool) :=
  [.poll ⟨[webService "1" "web"], [], by decide, by decide⟩,
    .poll ⟨[webService "1" "web", webService "2" "mail"], [webService "1" "web"], by decide, by decide⟩]

/-- A service, and the same under a new name. -/
def renamed : List (ServicePollAct Bool) :=
  [.poll ⟨[webService "1" "web"], [], by decide, by decide⟩,
    .poll ⟨[webService "1" "portal"], [webService "1" "web"], by decide, by decide⟩]

theorem returned_retained_joined : ∃ s, run (ServicePoll.step readCorp) new joined = some s ∧
    Returns s.dispatch.resolver ⟨"web".toList, 5⟩ ∧
    ∃ svc, svc.name.toList = "web".toList ∧ "Dial" ∈ svc.permissions ∧
      (svc ∈ s.watch.lists.headD [] ∨
        svc.name ∉ (s.watch.lists.headD []).map (·.name) ∧
          svc.id ∈ (s.watch.lists.headD []).map (·.id) ∧
          Edge.Watch.Retained svc s.watch.lists) := by
  obtain ⟨s, hrun, hm⟩ := Option.map_eq_some_iff.mp
    (show (run (ServicePoll.step readCorp) new joined).map
        (fun s => s.dispatch.resolver.proxyService "corp".toList) = some (some ⟨"web".toList, 5⟩) by
      decide +kernel)
  exact ⟨s, hrun, .inr ⟨_, hm⟩, returned_retained hrun (.inr ⟨_, hm⟩)⟩

/-- The former name of a service that was renamed is still returned. -/
theorem former_name_returned : ∃ s, run (ServicePoll.step readCorp) new renamed = some s ∧
    s.watch.lists.headD [] = [webService "1" "portal"] ∧
    Returns s.dispatch.resolver ⟨"web".toList, 5⟩ := by
  obtain ⟨s, hrun, hm⟩ := Option.map_eq_some_iff.mp
    (show (run (ServicePoll.step readCorp) new renamed).map
        (fun s => (s.watch.lists.headD [], s.dispatch.resolver.proxyService "corp".toList)) =
      some ([webService "1" "portal"], some ⟨"web".toList, 5⟩) by decide +kernel)
  exact ⟨s, hrun, congrArg Prod.fst hm, .inr ⟨_, congrArg Prod.snd hm⟩⟩

end ServicePoll

end Noa.Tunnel.Intercept
