import Noa.Tunnel.Intercept.Dispatch

namespace Noa.Tunnel.Intercept
open Noa.Framework Noa.Tunnel.Resolve

/-- A flow registered under a service; `kill` is the weak handle of its token, which only the flow's
own task keeps alive. -/
structure RegisteredFlow where
  proto : Protocol
  src : SocketAddr
  dst : SocketAddr
  kill : Nat

/-- Registered flows by service. -/
structure FlowRegistry where
  flows : Std.ExtTreeMap Text (List RegisteredFlow)
  registeredTotal : Nat

namespace FlowRegistry

def new : FlowRegistry := ⟨∅, 0⟩

def bucket (reg : FlowRegistry) (service : Text) : List RegisteredFlow :=
  reg.flows[service]?.getD []

/-- Dead handles leave the service's bucket, then the new flow enters it. -/
def register (reg : FlowRegistry) (isLive : Nat → Bool) (service : Text) (proto : Protocol)
    (src dst : SocketAddr) (token : Nat) : FlowRegistry :=
  ⟨reg.flows.insert service
    (((reg.bucket service).filter fun f => isLive f.kill) ++ [⟨proto, src, dst, token⟩]),
    reg.registeredTotal + 1⟩

/-- The tokens that are cancelled, those of the service's live flows; its bucket goes. -/
def killService (reg : FlowRegistry) (isLive : Nat → Bool) (service : Text) :
    List Nat × FlowRegistry :=
  match reg.flows[service]? with
  | none => ([], reg)
  | some bucket =>
    ((bucket.map (·.kill)).filter isLive, { reg with flows := reg.flows.erase service })

variable {reg : FlowRegistry} {isLive : Nat → Bool} {service : Text}

theorem bucket_register {other : Text} {proto : Protocol} {src dst : SocketAddr} {token : Nat} :
    (reg.register isLive service proto src dst token).bucket other =
      if service = other then
        ((reg.bucket service).filter fun f => isLive f.kill) ++ [⟨proto, src, dst, token⟩]
      else reg.bucket other := by
  simp only [bucket, register, lookup_insert]
  split_ifs <;> rfl

theorem bucket_killService {other : Text} : (reg.killService isLive service).2.bucket other =
    if service = other then [] else reg.bucket other := by
  unfold killService
  cases hs : reg.flows[service]? with
  | none =>
    dsimp only
    split_ifs with heq
    · rw [← heq, bucket, hs]
      rfl
    · rfl
  | some b =>
    simp only [bucket, lookup_erase]
    split_ifs <;> rfl

theorem mem_killService {token : Nat} : token ∈ (reg.killService isLive service).1 ↔
    (∃ f ∈ reg.bucket service, f.kill = token) ∧ isLive token = true := by
  unfold killService
  cases hs : reg.flows[service]? with
  | none => simp [bucket, hs]
  | some b => simp [bucket, hs, List.mem_filter]

theorem register_keeps {other : Text} {proto : Protocol} {src dst : SocketAddr} {token : Nat}
    {f : RegisteredFlow} (hf : f ∈ reg.bucket other) (hlive : isLive f.kill = true) :
    f ∈ (reg.register isLive service proto src dst token).bucket other := by
  rw [bucket_register]
  split_ifs with heq
  · subst heq
    exact List.mem_append_left _ (List.mem_filter.mpr ⟨hf, hlive⟩)
  · exact hf

end FlowRegistry

/-- A flow with its token. `closed` is what the handle of a UDP flow in its manager's map says;
`table` and `epoch` are an observer's record of the table the flow was looked up in. -/
structure Flow (V : Type) where
  proto : Protocol
  src : SocketAddr
  dst : SocketAddr
  service : Text
  ended : Bool
  cancelled : Bool
  closed : Bool
  table : InterceptResolver V
  epoch : Nat

abbrev FlowKey := SocketAddr × SocketAddr

/-- What the loops of the combined runner share, with the flows they have started; `epoch` counts
the changes of each service's installed configuration. -/
structure Combined (V : Type) where
  dispatch : Dispatch V
  registry : FlowRegistry
  conns : FlowKey → Option Nat
  flows : Std.ExtTreeMap Nat (Flow V)
  next : Nat
  epoch : Text → Nat

inductive CombinedAct (V : Type) where
  | accept (dst src : SocketAddr)
  | datagram (dst src : SocketAddr)
  | event (ev : ServiceEvent V)
  | query (name : Text)
  | seedPool (net : Option (Net 32))
  | reserve (ip : BitVec 32)
  | close (flow : Nat)
  | finish (flow : Nat)
  | dropExpired (idle : FlowKey → Bool)

/-- The embedded server's address, over TCP and UDP alike. -/
def isDnsServer (dnsServerIp : Option (BitVec 32)) (dst : SocketAddr) : Bool :=
  match dnsServerIp with
  | some ip => dst.ip = .v4 ip && dst.port = 53
  | none => false

namespace Combined

variable {V : Type} [DecidableEq V]

def new : Combined V := ⟨.new, .new, fun _ => none, ∅, 0, fun _ => 0⟩

/-- The flow's task still holds the token. -/
def isLive (s : Combined V) (flow : Nat) : Bool := s.flows[flow]?.any (!·.ended)

def isClosed (s : Combined V) (flow : Nat) : Bool := s.flows[flow]?.any (·.closed)

def modify (s : Combined V) (flow : Nat) (g : Flow V → Flow V) : Combined V :=
  { s with flows := s.flows.map fun i f => if i = flow then g f else f }

def newFlow (s : Combined V) (proto : Protocol) (dst src : SocketAddr) (service : Text) : Flow V :=
  ⟨proto, src, dst, service, false, false, false, s.dispatch.resolver, s.epoch service⟩

/-- A flow that was looked up is registered before it is dialed. -/
def start (s : Combined V) (proto : Protocol) (dst src : SocketAddr) (service : Text) : Combined V :=
  { s with
    registry := s.registry.register s.isLive service proto src dst s.next
    flows := s.flows.insert s.next (s.newFlow proto dst src service)
    next := s.next + 1 }

/-- `FlowRegistry::kill_service` with the cancelled tokens. -/
def killService (s : Combined V) (service : Text) : Combined V :=
  let (tokens, registry) := s.registry.killService s.isLive service
  { s with
    registry := registry
    flows := s.flows.map fun i f => if i ∈ tokens then { f with cancelled := true } else f }

/-- One accepted connection of `tcp_intercept_loop`. -/
def accept (dnsServerIp : Option (BitVec 32)) (s : Combined V) (dst src : SocketAddr) : Combined V :=
  if isDnsServer dnsServerIp dst then s
  else match s.dispatch.resolver.lookup dst.ip dst.port .tcp src.ip with
    | none => s
    | some m => s.start .tcp dst src m.service

/-- One datagram: it is delivered to the flow's handle, unless there is none or it is closed. -/
def routeDatagram (dnsServerIp : Option (BitVec 32)) (s : Combined V) (dst src : SocketAddr) :
    Combined V :=
  if isDnsServer dnsServerIp dst then s
  else if (s.conns (src, dst)).any fun flow => !s.isClosed flow then s
  else
    let s := { s with conns := Function.update s.conns (src, dst) none }
    match s.dispatch.resolver.lookup dst.ip dst.port .udp src.ip with
    | none => s
    | some m =>
      { s.start .udp dst src m.service with conns := Function.update s.conns (src, dst) (some s.next) }

variable (fromValue : V → Except String InterceptV1Config)

/-- One event of `svc_poll_loop`: the table first, then the flows of the service. -/
def applyEvent (s : Combined V) (ev : ServiceEvent V) : Option (Combined V) := do
  let applied := (s.dispatch.resolver.applyEvent fromValue ev).1
  let dispatch ← s.dispatch.step fromValue (.event ev)
  let name := ev.service.name
  let changed : Bool := dispatch.resolver.installedConfigs[name]? ≠
    s.dispatch.resolver.installedConfigs[name]?
  let s := { s with
    dispatch := dispatch
    epoch := if changed then Function.update s.epoch name (s.epoch name + 1) else s.epoch }
  return if applied.killActive then s.killService name else s

def step (dnsServerIp : Option (BitVec 32)) (s : Combined V) : CombinedAct V → Option (Combined V)
  | .accept dst src => some (s.accept dnsServerIp dst src)
  | .datagram dst src => some (s.routeDatagram dnsServerIp dst src)
  | .event ev => s.applyEvent fromValue ev
  | .query name => (s.dispatch.step fromValue (.query name)).map ({ s with dispatch := · })
  | .seedPool net => (s.dispatch.step fromValue (.seedPool net)).map ({ s with dispatch := · })
  | .reserve ip => (s.dispatch.step fromValue (.reserve ip)).map ({ s with dispatch := · })
  | .close flow => some (s.modify flow fun f => { f with closed := true })
  | .finish flow => some (s.modify flow fun f => { f with ended := true })
  | .dropExpired idle =>
    some { s with conns := fun key => (s.conns key).filter fun flow => !s.isClosed flow && !idle key }

end Combined

namespace Flow

variable {V : Type}

/-- The flow goes on. -/
def Live (f : Flow V) : Prop := f.ended = false ∧ f.cancelled = false

/-- The flow was looked up in the table on record. -/
def Admitted (f : Flow V) : Prop :=
  ∃ m, f.table.lookup f.dst.ip f.dst.port f.proto f.src.ip = some m ∧ m.service = f.service

/-- The configuration the flow was admitted under is installed, without a change since. -/
def Current (f : Flow V) (resolver : InterceptResolver V) (epoch : Text → Nat) : Prop :=
  f.epoch = epoch f.service ∧ ∃ raw, f.table.installedConfigs[f.service]? = some raw ∧
    resolver.installedConfigs[f.service]? = some raw

/-- What a flow keeps, and that it never revives. -/
structure Ages (f f' : Flow V) : Prop where
  service : f'.service = f.service
  admitted : f.Admitted → f'.Admitted
  current : ∀ resolver epoch, f.Current resolver epoch → f'.Current resolver epoch
  live : f'.Live → f.Live

theorem ages_cancel (f : Flow V) : f.Ages { f with cancelled := true } :=
  ⟨rfl, id, fun _ _ => id, fun h => by cases h.2⟩

theorem Ages.refl (f : Flow V) : f.Ages f := ⟨rfl, id, fun _ _ => id, id⟩

theorem Current.stays [DecidableEq V] {f : Flow V} {r r' : InterceptResolver V} {epoch : Text → Nat} {name : Text}
    (h : f.Current r epoch)
    (hothers : ∀ service, name ≠ service → r'.installedConfigs[service]? = r.installedConfigs[service]?)
    (hname : f.service = name → r'.installedConfigs[name]? = r.installedConfigs[name]?) :
    f.Current r' (if decide (r'.installedConfigs[name]? ≠ r.installedConfigs[name]?) = true then
      Function.update epoch name (epoch name + 1) else epoch) := by
  obtain ⟨hepoch, raw, htable, hraw⟩ := h
  by_cases heq : f.service = name
  · rw [if_neg (by simpa using hname heq)]
    exact ⟨hepoch, raw, htable, by rw [heq, hname heq, ← heq, hraw]⟩
  · refine ⟨?_, raw, htable, (hothers f.service (Ne.symm heq)).trans hraw⟩
    split_ifs
    · rw [Function.update_of_ne heq, hepoch]
    · exact hepoch

end Flow

namespace Combined

variable {V : Type} {fromValue : V → Except String InterceptV1Config} {s s' : Combined V}

/-- Flows and handles belong together. -/
structure Registered (s : Combined V) : Prop where
  fresh : ∀ i ∈ s.flows, i < s.next
  owned : ∀ service, ∀ e ∈ s.registry.bucket service,
    ∃ f, s.flows[e.kill]? = some f ∧ f.service = service
  listed : ∀ (i : Nat) (f : Flow V), s.flows[i]? = some f → f.Live →
    ∃ e ∈ s.registry.bucket f.service, e.kill = i
  admitted : ∀ (i : Nat) (f : Flow V), s.flows[i]? = some f → f.Admitted

/-- The flows that go on are current. -/
structure Inv (fromValue : V → Except String InterceptV1Config) (s : Combined V) : Prop where
  refines : Refines fromValue s.dispatch
  registered : s.Registered
  current : ∀ (i : Nat) (f : Flow V), s.flows[i]? = some f → f.Live →
    f.Current s.dispatch.resolver s.epoch

theorem inv_new : Inv fromValue (new : Combined V) := by
  refine ⟨refines_new, ⟨?_, ?_, ?_, ?_⟩, ?_⟩ <;>
    simp [new, FlowRegistry.new, FlowRegistry.bucket]

theorem Inv.conns (h : Inv fromValue s) (conns : FlowKey → Option Nat) :
    Inv fromValue { s with conns := conns } :=
  ⟨h.refines, ⟨h.registered.fresh, h.registered.owned, h.registered.listed, h.registered.admitted⟩,
    h.current⟩

theorem lookup_map_ages {flows : Std.ExtTreeMap Nat (Flow V)} {g : Nat → Flow V → Flow V}
    (hg : ∀ (i : Nat) (f : Flow V), f.Ages (g i f)) {i : Nat} {f' : Flow V}
    (hf' : (flows.map g)[i]? = some f') : ∃ f : Flow V, flows[i]? = some f ∧ f.Ages f' := by
  rw [Std.ExtTreeMap.getElem?_map] at hf'
  obtain ⟨f, hf, rfl⟩ := Option.map_eq_some_iff.mp hf'
  exact ⟨f, hf, hg i f⟩

theorem Inv.ages (h : Inv fromValue s) {g : Nat → Flow V → Flow V}
    (hg : ∀ (i : Nat) (f : Flow V), f.Ages (g i f)) :
    Inv fromValue { s with flows := s.flows.map g } := by
  refine ⟨h.refines, ⟨fun i hi => h.registered.fresh i (by simpa using hi), fun service e he => ?_,
    fun i f' hf' hlive => ?_, fun i f' hf' => ?_⟩, fun i f' hf' hlive => ?_⟩
  · obtain ⟨f, hf, hservice⟩ := h.registered.owned service e he
    refine ⟨g e.kill f, ?_, (hg e.kill f).service.trans hservice⟩
    rw [Std.ExtTreeMap.getElem?_map, hf]
    rfl
  · obtain ⟨f, hf, hages⟩ := lookup_map_ages hg hf'
    rw [hages.service]
    exact h.registered.listed i f hf (hages.live hlive)
  · obtain ⟨f, hf, hages⟩ := lookup_map_ages hg hf'
    exact hages.admitted (h.registered.admitted i f hf)
  · obtain ⟨f, hf, hages⟩ := lookup_map_ages hg hf'
    exact hages.current _ _ (h.current i f hf (hages.live hlive))

theorem lookup_start {proto : Protocol} {dst src : SocketAddr} {service : Text} (i : Nat) :
    (s.start proto dst src service).flows[i]? =
      if s.next = i then some (s.newFlow proto dst src service) else s.flows[i]? := by
  rw [Combined.start, lookup_insert]

theorem Registered.start (h : s.Registered) {proto : Protocol} {dst src : SocketAddr}
    {service : Text} (hadmitted : (s.newFlow proto dst src service).Admitted) :
    (s.start proto dst src service).Registered := by
  have hold {i : Nat} {f : Flow V} (hf : s.flows[i]? = some f) : s.next ≠ i := by
    rintro rfl
    exact absurd (h.fresh s.next (mem_iff_lookup.mpr ⟨f, hf⟩)) (lt_irrefl _)
  refine ⟨fun i hi => ?_, fun other e he => ?_, fun i f hf hlive => ?_, fun i f hf => ?_⟩
  · obtain ⟨f, hf⟩ := mem_iff_lookup.mp hi
    rw [lookup_start] at hf
    split_ifs at hf with heq
    · exact heq ▸ Nat.lt_succ_self _
    · exact Nat.lt_succ_of_lt (h.fresh i (mem_iff_lookup.mpr ⟨f, hf⟩))
  · have hbefore (hmem : e ∈ s.registry.bucket other) :
        ∃ f, (s.start proto dst src service).flows[e.kill]? = some f ∧ f.service = other := by
      obtain ⟨f, hf, hservice⟩ := h.owned other e hmem
      refine ⟨f, ?_, hservice⟩
      rw [lookup_start, if_neg (hold hf), hf]
    rw [Combined.start, FlowRegistry.bucket_register] at he
    split_ifs at he with heq
    · subst heq
      obtain hmem | hmem := List.mem_append.mp he
      · exact hbefore (List.mem_of_mem_filter hmem)
      · obtain rfl := List.mem_singleton.mp hmem
        exact ⟨s.newFlow proto dst src service, by rw [lookup_start, if_pos rfl], rfl⟩
    · exact hbefore he
  · rw [lookup_start] at hf
    split_ifs at hf with heq
    · cases hf
      refine ⟨⟨proto, src, dst, s.next⟩, ?_, heq⟩
      rw [Combined.start, FlowRegistry.bucket_register]
      exact (if_pos rfl).symm ▸ List.mem_append_right _ List.mem_cons_self
    · obtain ⟨e, he, rfl⟩ := h.listed i f hf hlive
      refine ⟨e, FlowRegistry.register_keeps he ?_, rfl⟩
      simp [isLive, hf, hlive.1]
  · rw [lookup_start] at hf
    split_ifs at hf with heq
    · cases hf
      exact hadmitted
    · exact h.admitted i f hf

theorem Refines.lookup_config {t : Dispatch V} (h : Refines fromValue t) {dst src : IpAddr}
    {port : UInt16} {proto : Protocol} {m : InterceptMatch}
    (hm : t.resolver.lookup dst port proto src = some m) :
    ∃ raw, t.resolver.installedConfigs[m.service]? = some raw := by
  obtain ⟨cfg, hcfg, -⟩ := h.lookup_sound hm
  have hconfig := (h.dispatched m.service).config
  rw [hcfg] at hconfig
  obtain ⟨raw, hraw, -⟩ := Option.map_eq_some_iff.mp hconfig
  exact ⟨raw, hraw⟩

theorem Inv.start (h : Inv fromValue s) {proto : Protocol} {dst src : SocketAddr} {m : InterceptMatch}
    (hm : s.dispatch.resolver.lookup dst.ip dst.port proto src.ip = some m) :
    Inv fromValue (s.start proto dst src m.service) := by
  refine ⟨h.refines, h.registered.start ⟨m, hm, rfl⟩, fun i f hf hlive => ?_⟩
  rw [lookup_start] at hf
  split_ifs at hf
  · cases hf
    obtain ⟨raw, hraw⟩ := Refines.lookup_config h.refines hm
    exact ⟨rfl, raw, hraw, hraw⟩
  · exact h.current i f hf hlive

/-- The flows a kill cancels are of its service, and all that go on are among them. -/
theorem Registered.killed (h : s.Registered) {i : Nat} {f : Flow V} (hf : s.flows[i]? = some f)
    (service : Text) :
    (i ∈ (s.registry.killService s.isLive service).1 → f.service = service) ∧
      (f.service = service → f.Live → i ∈ (s.registry.killService s.isLive service).1) := by
  rw [FlowRegistry.mem_killService]
  constructor
  · rintro ⟨⟨e, he, rfl⟩, -⟩
    obtain ⟨f', hf', hservice⟩ := h.owned service e he
    obtain rfl := Option.some.inj (hf.symm.trans hf')
    exact hservice
  · rintro rfl hlive
    refine ⟨h.listed i f hf hlive, ?_⟩
    simp [isLive, hf, hlive.1]

theorem lookup_killService (service : Text) (i : Nat) : (s.killService service).flows[i]? =
    s.flows[i]?.map fun f =>
      if i ∈ (s.registry.killService s.isLive service).1 then { f with cancelled := true } else f := by
  simp only [Combined.killService, Std.ExtTreeMap.getElem?_map]

/-- What goes on after a kill is a flow of another service, as it was. -/
theorem Registered.survives (h : s.Registered) {service : Text} {i : Nat} {f' : Flow V}
    (hf' : (s.killService service).flows[i]? = some f') (hlive : f'.Live) :
    s.flows[i]? = some f' ∧ f'.service ≠ service := by
  rw [lookup_killService] at hf'
  obtain ⟨f, hf, rfl⟩ := Option.map_eq_some_iff.mp hf'
  split_ifs at hlive with hkill
  · cases hlive.2
  · rw [if_neg hkill]
    exact ⟨hf, fun hservice => hkill ((h.killed hf service).2 hservice hlive)⟩

theorem Registered.killService (h : s.Registered) (service : Text) :
    (s.killService service).Registered := by
  have hages (i : Nat) (f : Flow V) : f.Ages
      (if i ∈ (s.registry.killService s.isLive service).1 then { f with cancelled := true } else f) := by
    split_ifs
    · exact f.ages_cancel
    · exact .refl f
  have hbucket (other : Text) : (s.killService service).registry.bucket other =
      if service = other then [] else s.registry.bucket other := FlowRegistry.bucket_killService
  refine ⟨fun i hi => h.fresh i ?_, fun other e he => ?_, fun i f hf hlive => ?_, fun i f' hf' => ?_⟩
  · simpa [Combined.killService] using hi
  · rw [hbucket] at he
    split_ifs at he
    · cases he
    · obtain ⟨f, hf, hservice⟩ := h.owned other e he
      rw [lookup_killService, hf]
      exact ⟨_, rfl, (hages e.kill f).service.trans hservice⟩
  · obtain ⟨hf, hne⟩ := h.survives hf hlive
    rw [hbucket, if_neg hne.symm]
    exact h.listed i f hf hlive
  · obtain ⟨f, hf, hold⟩ := lookup_map_ages hages hf'
    exact hold.admitted (h.admitted i f hf)

variable [DecidableEq V]

theorem installed_of_not_killActive {r : InterceptResolver V} {ev : ServiceEvent V}
    (h : (r.applyEvent fromValue ev).1.killActive = false) :
    (r.applyEvent fromValue ev).2.installedConfigs[ev.service.name]? =
        r.installedConfigs[ev.service.name]? ∨
      r.installedConfigs[ev.service.name]? = none := by
  have hadd (svc : Service V) (h : (r.addService fromValue svc).1.killActive = false) :
      (r.addService fromValue svc).2.installedConfigs[svc.name]? = r.installedConfigs[svc.name]? ∨
        r.installedConfigs[svc.name]? = none := by
    have hadds := addService_adds fromValue r svc
    generalize r.addService fromValue svc = out at hadds h ⊢
    cases hadds with
    | keeps => exact .inl rfl
    | stops | replaces => exact .inr (Std.ExtTreeMap.getElem?_eq_none_of_contains_eq_false h)
  cases ev with
  | added svc => exact hadd svc h
  | changed svc => exact hadd svc h
  | removed svc => cases h

theorem Inv.event (h : Inv fromValue s) {ev : ServiceEvent V}
    (hstep : s.applyEvent fromValue ev = some s') : Inv fromValue s' := by
  simp only [Combined.applyEvent, Option.bind_eq_bind, Option.bind_eq_some_iff, Option.pure_def,
    Option.some.injEq] at hstep
  obtain ⟨dispatch, hdispatch, rfl⟩ := hstep
  have hrefines := h.refines.step hdispatch
  have hresolver : dispatch.resolver = (s.dispatch.resolver.applyEvent fromValue ev).2 := by
    cases hdispatch
    rfl
  have hothers (service : Text) (hne : ev.service.name ≠ service) :
      dispatch.resolver.installedConfigs[service]? =
        s.dispatch.resolver.installedConfigs[service]? := by
    have happlies := applyEvent_applies ev (h.refines.dispatched ev.service.name)
    rw [hresolver, (happlies.others h.refines.wf hne).2.1]
  generalize hepoch : (if decide (dispatch.resolver.installedConfigs[ev.service.name]? ≠
      s.dispatch.resolver.installedConfigs[ev.service.name]?) = true then
    Function.update s.epoch ev.service.name (s.epoch ev.service.name + 1) else s.epoch) = epoch
  have hregistered : Registered { s with dispatch := dispatch, epoch := epoch } :=
    ⟨h.registered.fresh, h.registered.owned, h.registered.listed, h.registered.admitted⟩
  split_ifs with hkill
  · refine ⟨hrefines, hregistered.killService _, fun i f hf hlive => ?_⟩
    obtain ⟨hold, hne⟩ := hregistered.survives hf hlive
    exact hepoch ▸ (h.current i f hold hlive).stays hothers fun hname => absurd hname hne
  · refine ⟨hrefines, hregistered, fun i f hf hlive => ?_⟩
    have hcurrent := h.current i f hf hlive
    refine hepoch ▸ hcurrent.stays hothers fun hname => ?_
    -- no kill, and its service had a configuration: it still has it
    rw [hresolver]
    refine (installed_of_not_killActive (Bool.eq_false_iff.mpr hkill)).resolve_right fun hnone => ?_
    obtain ⟨-, raw, -, hraw⟩ := hcurrent
    rw [hname, hnone] at hraw
    cases hraw

theorem Inv.dns (h : Inv fromValue s) {act : ResolverAct V} {dispatch : Dispatch V}
    (hstep : s.dispatch.step fromValue act = some dispatch)
    (hconfigs : dispatch.resolver.installedConfigs = s.dispatch.resolver.installedConfigs) :
    Inv fromValue { s with dispatch := dispatch } := by
  refine ⟨h.refines.step hstep, ⟨h.registered.fresh, h.registered.owned, h.registered.listed,
    h.registered.admitted⟩, fun i f hf hlive => ?_⟩
  obtain ⟨hepoch, raw, htable, hraw⟩ := h.current i f hf hlive
  exact ⟨hepoch, raw, htable, (congrArg (·[f.service]?) hconfigs).trans hraw⟩

theorem Inv.step {dnsServerIp : Option (BitVec 32)} (h : Inv fromValue s) {act : CombinedAct V}
    (hstep : s.step fromValue dnsServerIp act = some s') : Inv fromValue s' := by
  cases act with
  | accept dst src =>
    cases hstep
    unfold Combined.accept
    split_ifs
    · exact h
    · split
      · exact h
      · next m hm => exact h.start hm
  | datagram dst src =>
    cases hstep
    unfold Combined.routeDatagram
    split_ifs
    · exact h
    · exact h
    · dsimp only
      split
      · exact h.conns _
      · next m hm => exact ((h.conns _).start hm).conns _
  | event ev => exact h.event hstep
  | query name =>
    have hd : s.dispatch.step fromValue (.query name) = some _ := rfl
    cases hstep
    exact h.dns hd rfl
  | seedPool net =>
    have hd : s.dispatch.step fromValue (.seedPool net) = some _ := rfl
    cases hstep
    exact h.dns hd rfl
  | reserve ip =>
    have hd : s.dispatch.step fromValue (.reserve ip) = some _ := rfl
    cases hstep
    exact h.dns hd rfl
  | close flow =>
    cases hstep
    refine h.ages fun i f => ?_
    split_ifs
    · exact ⟨rfl, id, fun _ _ => id, id⟩
    · exact .refl f
  | finish flow =>
    cases hstep
    refine h.ages fun i f => ?_
    split_ifs
    · exact ⟨rfl, id, fun _ _ => id, fun hlive => by cases hlive.1⟩
    · exact .refl f
  | dropExpired idle =>
    cases hstep
    exact h.conns _

theorem run_inv {dnsServerIp : Option (BitVec 32)} {as : List (CombinedAct V)}
    (hrun : run (Combined.step fromValue dnsServerIp) new as = some s) : Inv fromValue s :=
  run_invariant (Inv fromValue) (fun _ _ _ hs h => h.step hs) hrun inv_new

/-- Flows that go on were admitted under the configuration that is installed: in every state of every
run each was looked up while its service had the configuration it has now, unchanged since; a kill
cancels the flows of its service that have not ended and touches no other; and registering a flow
drops no handle of one that has not ended. -/
theorem live_flows_current {dnsServerIp : Option (BitVec 32)} {as : List (CombinedAct V)}
    (hrun : run (Combined.step fromValue dnsServerIp) new as = some s) :
    (∀ (i : Nat) (f : Flow V), s.flows[i]? = some f → f.ended = false → f.cancelled = false →
      f.Admitted ∧ f.Current s.dispatch.resolver s.epoch) ∧
    (∀ (service : Text) (i : Nat) (f : Flow V), s.flows[i]? = some f →
      ∃ f', (s.killService service).flows[i]? = some f' ∧
        (f.service = service → f.ended = false → f'.cancelled = true) ∧
        (f.service ≠ service → f' = f)) ∧
    ∀ (service other : Text) (proto : Protocol) (src dst : SocketAddr) (token : Nat),
      ∀ e ∈ s.registry.bucket other, s.isLive e.kill = true →
        e ∈ (s.registry.register s.isLive service proto src dst token).bucket other := by
  have h := run_inv hrun
  refine ⟨fun i f hf hended hcancelled => ?_, fun service i f hf => ?_,
    fun service other proto src dst token e he hlive => FlowRegistry.register_keeps he hlive⟩
  · exact ⟨h.registered.admitted i f hf, h.current i f hf ⟨hended, hcancelled⟩⟩
  · obtain ⟨hown, hall⟩ := h.registered.killed hf service
    rw [lookup_killService, hf]
    refine ⟨_, rfl, fun hservice hended => ?_, fun hne => if_neg fun hmem => hne (hown hmem)⟩
    split_ifs with hmem
    · rfl
    · -- a flow the kill does not reach was cancelled before
      by_contra hnot
      exact hmem (hall hservice ⟨hended, Bool.eq_false_iff.mpr hnot⟩)

/-- A service at one address, for one network of sources or for all. -/
def readSources (restricted : Bool) : Except String InterceptV1Config :=
  .ok ⟨["tcp".toList], ["1.1.1.1".toList], [⟨443, 443⟩], none,
    if restricted then ["10.0.0.0/8".toList] else []⟩

/-- A flow, the service's reconfiguration, and a second flow. -/
def twoFlows : List (CombinedAct Bool) :=
  [.event (.added ⟨"web".toList, ["Dial".toList], some true⟩),
    .accept ⟨.v4 0x01010101#32, 443⟩ ⟨.v4 0x0a000001#32, 50000⟩,
    .event (.changed ⟨"web".toList, ["Dial".toList], some false⟩),
    .accept ⟨.v4 0x01010101#32, 443⟩ ⟨.v4 0x0a000001#32, 50001⟩]

/-- The reconfiguration kills the first flow; the second is current, and a kill cancels it. -/
theorem live_flows_current_second : ∃ s f, run (Combined.step readSources none) new twoFlows = some s ∧
    s.flows[0]?.map (·.cancelled) = some true ∧ s.flows[1]? = some f ∧ f.service = "web".toList ∧
    f.Admitted ∧ f.Current s.dispatch.resolver s.epoch ∧
    ∃ f', (s.killService "web".toList).flows[1]? = some f' ∧ f'.cancelled = true := by
  obtain ⟨s, hrun, hflows⟩ := Option.map_eq_some_iff.mp
    (show (run (Combined.step readSources none) new twoFlows).map (fun s =>
        (s.flows[0]?.map (·.cancelled), s.flows[1]?.map fun f => (f.service, f.ended, f.cancelled))) =
      some (some true, some ("web".toList, false, false)) by decide +kernel)
  obtain ⟨hkilled, hflow⟩ := Prod.mk.inj hflows
  obtain ⟨f, hf, hfields⟩ := Option.map_eq_some_iff.mp hflow
  simp only [Prod.mk.injEq] at hfields
  obtain ⟨hservice, hended, hcancelled⟩ := hfields
  obtain ⟨hcurrent, hkill, -⟩ := live_flows_current hrun
  obtain ⟨hadmitted, hinstalled⟩ := hcurrent 1 f hf hended hcancelled
  obtain ⟨f', hf', hcancels, -⟩ := hkill "web".toList 1 f hf
  exact ⟨s, f, hrun, hkilled, hf, hservice, hadmitted, hinstalled, f', hf', hcancels hservice hended⟩

end Combined

end Noa.Tunnel.Intercept
