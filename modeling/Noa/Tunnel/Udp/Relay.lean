import Noa.Tunnel.Udp.Ledger
import Noa.Tunnel.Intercept.Flows

namespace Noa.Tunnel.Udp
open Noa.Framework Noa.Channel Noa.Edge Noa.Edge.Data Noa.Tunnel.Resolve

/-- The manager's handles, each the number of its vconn, and the vconns in the order in which they
were made. -/
structure Relay (K D : Type) (C : Crypto) where
  conns : K → Option Nat
  vconns : List (Vconn K D C)

inductive RouteAction where
  | deliver
  | createNew

namespace Relay

variable {K D : Type} {C : Crypto} [DecidableEq K]

def new : Relay K D C := ⟨fun _ => none, []⟩

def isClosed (s : Relay K D C) (i : Nat) : Bool := s.vconns[i]?.any (·.closed)

/-- A handle leaves the map, and the sender of its queue with it. -/
def remove (s : Relay K D C) (key : K) (i : Nat) : Relay K D C :=
  ⟨Function.update s.conns key none, s.vconns.modify i Vconn.evict⟩

/-- A closed handle is evicted. -/
def routeDecision (s : Relay K D C) (key : K) : RouteAction × Relay K D C :=
  match s.conns key with
  | none => (.createNew, s)
  | some i => if s.isClosed i then (.createNew, s.remove key i) else (.deliver, s)

def createVconn (s : Relay K D C) (key : K) (dial : D) (first : Bytes) (now : Nat) : Relay K D C :=
  ⟨Function.update s.conns key (some s.vconns.length), s.vconns ++ [.new key dial first now]⟩

/-- One datagram. `dial` is what a new vconn for the key would dial, if there is a service for it. -/
def routeDatagram (s : Relay K D C) (key : K) (dial : Option D) (datagram : Bytes) (now : Nat) :
    Relay K D C :=
  match s.routeDecision key with
  | (.deliver, s) =>
    match s.conns key with
    | some i => { s with vconns := s.vconns.modify i (·.deliver datagram) }
    | none => s
  | (.createNew, s) =>
    match dial with
    | some dial => s.createVconn key dial datagram now
    | none => s

/-- `drop_expired` keeps the handle. -/
def retains (idle now : Nat) (v : Vconn K D C) : Bool :=
  !v.closed && decide (now - v.lastUse ≤ idle)

def dropExpired (s : Relay K D C) (idle now : Nat) : Relay K D C where
  conns key := (s.conns key).filter fun i => s.vconns[i]?.any (retains idle now)
  vconns := s.vconns.mapIdx fun i v =>
    if s.conns v.key = some i ∧ retains idle now v = false then v.evict else v

def taskTurn (s : Relay K D C) (i : Nat) (a : TaskAct C) : Option (Relay K D C) := do
  let v ← s.vconns[i]?
  let v ← v.turn a
  return { s with vconns := s.vconns.set i v }

end Relay

/-! The two relays. -/

/-- What moves the proxy: a datagram, the reaping tick, a vconn's task. -/
inductive ProxyAct (C : Crypto) where
  | recvFrom (src : SocketAddr) (datagram : Bytes) (now : Nat)
  | tick (now : Nat)
  | task (i : Nat) (a : TaskAct C)

/-- The proxy dials one service; its flows have no token to cancel. -/
def proxyStep {C : Crypto} (service : Text) (idle : Nat) (s : Relay SocketAddr Text C) :
    ProxyAct C → Option (Relay SocketAddr Text C)
  | .recvFrom src datagram now => some (s.routeDatagram src (some service) datagram now)
  | .tick now => some (s.dropExpired idle now)
  | .task _ .cancel => none
  | .task i a => s.taskTurn i a

/-- What an intercepted flow dials. -/
structure Dial where
  service : Text
  timeout : Nat
  dstHostname : Option Text
  deriving DecidableEq

/-- The service that intercepts the destination, with the name it was resolved from. -/
def interceptDial {V : Type} (resolver : Intercept.InterceptResolver V) (dst src : SocketAddr) :
    Option Dial :=
  (resolver.lookup dst.ip dst.port .udp src.ip).map fun m =>
    ⟨m.service, m.dialTimeout,
      match dst.ip with
      | .v4 ip => resolver.dns.reverseLookup ip
      | .v6 _ => none⟩

/-- What moves the intercept: a datagram with the table as it is then, the reaping tick, a vconn's
task or the cancellation of its token. -/
inductive InterceptAct (V : Type) (C : Crypto) where
  | recvFrom (resolver : Intercept.InterceptResolver V) (dst src : SocketAddr) (datagram : Bytes)
      (now : Nat)
  | tick (now : Nat)
  | task (i : Nat) (a : TaskAct C)

/-- A datagram to the embedded DNS server is not routed. -/
def interceptStep {V : Type} {C : Crypto} (dnsServerIp : Option (BitVec 32)) (idle : Nat)
    (s : Relay Intercept.FlowKey Dial C) :
    InterceptAct V C → Option (Relay Intercept.FlowKey Dial C)
  | .recvFrom resolver dst src datagram now =>
    if Intercept.isDnsServer dnsServerIp dst then some s
    else some (s.routeDatagram (src, dst) (interceptDial resolver dst src) datagram now)
  | .tick now => some (s.dropExpired idle now)
  | .task i a => s.taskTurn i a

/-! What the manager does to the vconns. -/

namespace Vconn

variable {K D : Type} {C : Crypto} {v v' : Vconn K D C}

/-- One move of a relay, as one of its vconns sees it; `P` tells which moves its task may make. -/
inductive Moves (P : TaskAct C → Prop) (v : Vconn K D C) : Vconn K D C → Prop
  | stays : Moves P v v
  | delivered (hopen : v.closed = false) (datagram : Bytes) : Moves P v (v.deliver datagram)
  | evicted : Moves P v v.evict
  | turned {a : TaskAct C} {v' : Vconn K D C} (ha : P a) (h : v.turn a = some v') : Moves P v v'

theorem deliver_frame (v : Vconn K D C) (d : Bytes) :
    (v.deliver d).key = v.key ∧ (v.deliver d).closed = v.closed ∧ (v.deliver d).kill = v.kill := by
  unfold deliver
  split_ifs <;> exact ⟨rfl, rfl, rfl⟩

theorem turn_frame {a : TaskAct C} (h : v.turn a = some v') :
    v'.key = v.key ∧ v'.accepted = v.accepted ∧ (v.closed = true → v'.closed = true) ∧
      (a ≠ .cancel → v'.kill = v.kill) := by
  cases turn_cases h with
  | cancelled => exact ⟨rfl, rfl, id, fun ha => absurd rfl ha⟩
  | dialFailed | readerReturns | writerReturns | refused | broke =>
    exact ⟨rfl, rfl, fun _ => rfl, fun _ => rfl⟩
  | dialed | told | listens | readerLoops | panics | drains | forwards | wrote | joins | closes =>
    exact ⟨rfl, rfl, id, fun _ => rfl⟩

variable {P : TaskAct C → Prop}

theorem Moves.key (h : v.Moves P v') : v'.key = v.key := by
  cases h with
  | stays | evicted => rfl
  | delivered _ d => exact (v.deliver_frame d).1
  | turned _ h => exact (turn_frame h).1

theorem Moves.books (h : v.Moves P v') (hb : v.Books) : v'.Books := by
  cases h with
  | stays => exact hb
  | delivered hopen d => exact hb.deliver hopen d
  | evicted => exact hb.evict
  | turned _ h => exact hb.turn h

theorem Moves.frozen (h : v.Moves P v') (hc : v.closed = true) :
    v'.closed = true ∧ v'.accepted = v.accepted := by
  cases h with
  | stays | evicted => exact ⟨hc, rfl⟩
  | delivered hopen => cases hopen.symm.trans hc
  | turned _ h => exact ⟨(turn_frame h).2.2.1 hc, (turn_frame h).2.1⟩

theorem Moves.kill (h : v.Moves (· ≠ .cancel) v') : v'.kill = v.kill := by
  cases h with
  | stays | evicted => rfl
  | delivered _ d => exact (v.deliver_frame d).2.2
  | turned ha h => exact (turn_frame h).2.2.2 ha

end Vconn

namespace Relay

variable {K D : Type} {C : Crypto} {P : TaskAct C → Prop} {s s' : Relay K D C} {key : K} {i : Nat}

/-- Every vconn of a relay makes a move, and those that are added are new. -/
structure Advances (P : TaskAct C → Prop) (s s' : Relay K D C) : Prop where
  moved : ∀ (i : Nat) (v : Vconn K D C), s.vconns[i]? = some v →
    ∃ v', s'.vconns[i]? = some v' ∧ v.Moves P v'
  made : ∀ (i : Nat) (v' : Vconn K D C), s'.vconns[i]? = some v' → s.vconns[i]? = none →
    ∃ key dial first now, v' = .new key dial first now

def keys (s : Relay K D C) : List K := s.vconns.map Vconn.key

/-- A handle is that of the youngest vconn of its key. -/
structure Filed (s : Relay K D C) : Prop where
  handle : ∀ key i, s.conns key = some i → s.keys[i]? = some key
  youngest : ∀ key i, s.conns key = some i → ∀ j, s.keys[j]? = some key → j ≤ i

theorem Filed.fewer (h : s.Filed) (hkeys : s'.keys = s.keys)
    (hconns : ∀ key i, s'.conns key = some i → s.conns key = some i) : s'.Filed where
  handle key i hi := hkeys ▸ h.handle key i (hconns key i hi)
  youngest key i hi := hkeys ▸ h.youngest key i (hconns key i hi)

theorem Filed.vconn (h : s.Filed) (hi : s.conns key = some i) :
    ∃ v, s.vconns[i]? = some v ∧ v.key = key := by
  have hkey := h.handle key i hi
  rw [keys, List.getElem?_map] at hkey
  exact Option.map_eq_some_iff.mp hkey

theorem advances_modify {f : Vconn K D C → Vconn K D C} (conns : K → Option Nat)
    (hf : ∀ v, s.vconns[i]? = some v → v.Moves P (f v)) :
    s.Advances P ⟨conns, s.vconns.modify i f⟩ where
  moved j v hv := by
    by_cases hij : i = j
    · subst hij
      exact ⟨f v, by simp [hv], hf v hv⟩
    · exact ⟨v, by simp [hij, hv], .stays⟩
  made j v hv hnone := by simp [List.getElem?_modify, hnone] at hv

theorem map_modify_eq {α β : Type} {g : α → β} {f : α → α} {l : List α} {i : Nat}
    (hf : ∀ a, l[i]? = some a → g (f a) = g a) : (l.modify i f).map g = l.map g := by
  refine List.ext_getElem? fun j => ?_
  rw [List.getElem?_map, List.getElem?_map, List.getElem?_modify]
  cases hv : l[j]? with
  | none => rfl
  | some a =>
    by_cases hij : i = j
    · subst hij
      simp [hf a hv]
    · simp [hij]

theorem taskTurn_eq_some {a : TaskAct C} : s.taskTurn i a = some s' ↔
    ∃ v v', s.vconns[i]? = some v ∧ v.turn a = some v' ∧
      s' = { s with vconns := s.vconns.set i v' } := by
  simp only [taskTurn, Option.pure_def, Option.bind_eq_bind, Option.bind_eq_some_iff,
    Option.some.injEq]
  constructor
  · rintro ⟨v, hv, v', hv', rfl⟩
    exact ⟨v, v', hv, hv', rfl⟩
  · rintro ⟨v, v', hv, hv', rfl⟩
    exact ⟨v, hv, v', hv', rfl⟩

theorem taskTurn_advances {a : TaskAct C} (ha : P a) (h : s.taskTurn i a = some s') :
    s.Advances P s' ∧ s'.keys = s.keys ∧ s'.conns = s.conns := by
  obtain ⟨v, v', hv, hv', rfl⟩ := taskTurn_eq_some.mp h
  have hmove : ∀ w, s.vconns[i]? = some w → w.Moves P v' := by
    rintro w hw
    cases hv.symm.trans hw
    exact .turned ha hv'
  rw [List.set_eq_modify]
  exact ⟨advances_modify s.conns hmove, map_modify_eq fun w hw => (hmove w hw).key, rfl⟩

theorem dropExpired_advances (s : Relay K D C) (idle now : Nat) :
    s.Advances P (s.dropExpired idle now) where
  moved i v hv := by
    refine ⟨_, by rw [dropExpired, List.getElem?_mapIdx, hv]; rfl, ?_⟩
    dsimp only
    split_ifs
    exacts [.evicted, .stays]
  made i v' hv' hnone := by
    rw [dropExpired, List.getElem?_mapIdx, hnone] at hv'
    cases hv'

theorem keys_dropExpired (s : Relay K D C) (idle now : Nat) :
    (s.dropExpired idle now).keys = s.keys := by
  refine List.ext_getElem? fun i => ?_
  rw [keys, keys, List.getElem?_map, List.getElem?_map, dropExpired, List.getElem?_mapIdx]
  cases s.vconns[i]? with
  | none => rfl
  | some v =>
    simp only [Option.map_some]
    split_ifs <;> rfl

theorem Filed.dropExpired (h : s.Filed) (idle now : Nat) : (s.dropExpired idle now).Filed :=
  h.fewer (keys_dropExpired s idle now) fun _ _ hi => (Option.filter_eq_some_iff.mp hi).1

theorem Advances.trans_made {s'' : Relay K D C} (h : s.Advances P s') (hlen : s'.keys = s.keys)
    (h' : s'.Advances P s'') (hstay : ∀ (i : Nat) (v : Vconn K D C), s'.vconns[i]? = some v →
      s''.vconns[i]? = some v) : s.Advances P s'' where
  moved i v hv := by
    obtain ⟨v', hv', hmove⟩ := h.moved i v hv
    exact ⟨v', hstay i v' hv', hmove⟩
  made i v hv hnone := by
    refine h'.made i v hv ?_
    have hlength : s'.vconns.length = s.vconns.length := by
      simpa [keys] using congrArg List.length hlen
    rw [List.getElem?_eq_none_iff] at hnone ⊢
    omega

/-- The steps of a relay are moves of its vconns, and keep its handles. -/
def Drives {A : Type} (P : TaskAct C → Prop) (step : Relay K D C → A → Option (Relay K D C)) : Prop :=
  ∀ s a s', step s a = some s' → s.Filed → s.Advances P s' ∧ s'.Filed

/-- The handles of a relay and the books of its vconns are in order. -/
structure Kept (s : Relay K D C) : Prop where
  filed : s.Filed
  books : ∀ v ∈ s.vconns, v.Books

theorem filed_new : (new : Relay K D C).Filed := ⟨nofun, nofun⟩

theorem Advances.forall {p : Vconn K D C → Prop} (h : s.Advances P s')
    (hmove : ∀ v v' : Vconn K D C, v.Moves P v' → p v → p v')
    (hnew : ∀ key dial first now, p (.new key dial first now)) (hs : ∀ v ∈ s.vconns, p v) :
    ∀ v ∈ s'.vconns, p v := by
  intro v hv
  obtain ⟨i, hi⟩ := List.mem_iff_getElem?.mp hv
  cases hold : s.vconns[i]? with
  | none =>
    obtain ⟨key, dial, first, now, rfl⟩ := h.made i v hi hold
    exact hnew key dial first now
  | some u =>
    obtain ⟨v', hv', hmoves⟩ := h.moved i u hold
    cases hi.symm.trans hv'
    exact hmove u v hmoves (hs u (List.mem_of_getElem? hold))

section Runs

variable {A : Type} {step : Relay K D C → A → Option (Relay K D C)} {as : List A} {t : Relay K D C}

theorem Drives.kept_step (h : Drives P step) {a : A} (hs : step s a = some s') (hk : s.Kept) :
    s'.Kept := by
  obtain ⟨hadv, hfiled⟩ := h s a s' hs hk.filed
  exact ⟨hfiled, hadv.forall (fun _ _ hm => hm.books) Vconn.books_new hk.books⟩

theorem Drives.kept (h : Drives P step) (hrun : run step new as = some t) : t.Kept :=
  run_invariant Kept (fun _ _ _ hs hk => h.kept_step hs hk) hrun
    ⟨filed_new, List.forall_mem_nil _⟩

/-- A vconn that is closed accepts nothing more, however the relay goes on. -/
theorem Drives.frozen (h : Drives P step) (hs : s.Filed) {v : Vconn K D C}
    (hv : s.vconns[i]? = some v) (hc : v.closed = true) (hrun : run step s as = some t) :
    ∃ w, t.vconns[i]? = some w ∧ w.closed = true ∧ w.accepted = v.accepted := by
  refine (run_invariant (fun t : Relay K D C => t.Filed ∧ ∃ w, t.vconns[i]? = some w ∧
    w.closed = true ∧ w.accepted = v.accepted) ?_ hrun ⟨hs, v, hv, hc, rfl⟩).2
  rintro s a s' hstep ⟨hfiled, w, hw, hclosed, hacc⟩
  obtain ⟨hadv, hfiled'⟩ := h s a s' hstep hfiled
  obtain ⟨w', hw', hmoves⟩ := hadv.moved i w hw
  obtain ⟨hclosed', hacc'⟩ := hmoves.frozen hclosed
  exact ⟨hfiled', w', hw', hclosed', hacc'.trans hacc⟩

theorem run_task (act : TaskAct C → A)
    (hact : ∀ s a, TaskAct.own a = true → step s (act a) = s.taskTurn i a) {v v' : Vconn K D C}
    {bs : List (TaskAct C)} (hown : ∀ a ∈ bs, TaskAct.own a = true) (hv : s.vconns[i]? = some v)
    (hrun : run Vconn.turn v bs = some v') :
    ∃ t, run step s (bs.map act) = some t ∧ t.vconns[i]? = some v' := by
  induction bs generalizing s v with
  | nil =>
    cases hrun
    exact ⟨s, rfl, hv⟩
  | cons b bs ih =>
    obtain ⟨hb, hbs⟩ := List.forall_mem_cons.mp hown
    obtain ⟨u, hu, hrest⟩ := run_cons_eq_some.mp hrun
    have hlt := (List.getElem?_eq_some_iff.mp hv).1
    obtain ⟨t, ht, hvt⟩ := ih (s := { s with vconns := s.vconns.set i u }) hbs
      (by simp [hlt]) hrest
    refine ⟨t, run_cons_eq_some.mpr ⟨_, ?_, ht⟩, hvt⟩
    rw [hact s b hb, taskTurn, hv]
    simp [hu]

end Runs

/-- What is claimed of the vconns of a relay in a state: what they delivered when they are closed,
that one whose end has begun comes to it, and that a closed one accepts nothing more. -/
structure Lossless {A : Type} (step : Relay K D C → A → Option (Relay K D C)) (t : Relay K D C) :
    Prop where
  delivered : ∀ v ∈ t.vconns, v.Delivered
  finishes : ∀ (i : Nat) (v : Vconn K D C), t.vconns[i]? = some v → v.Ending →
    ∃ as u w o, run step t as = some u ∧ u.vconns[i]? = some w ∧ w.task = .ended (some o)
  frozen : ∀ (i : Nat) (v : Vconn K D C), t.vconns[i]? = some v → v.closed = true →
    ∀ as u, run step t as = some u →
      ∃ w, u.vconns[i]? = some w ∧ w.closed = true ∧ w.accepted = v.accepted

theorem Drives.lossless {A : Type} {step : Relay K D C → A → Option (Relay K D C)} {as : List A}
    {t : Relay K D C} (h : Drives P step) (act : Nat → TaskAct C → A)
    (hact : ∀ s i a, TaskAct.own a = true → step s (act i a) = s.taskTurn i a)
    (hrun : run step new as = some t) : Lossless step t where
  delivered v hv := ((h.kept hrun).books v hv).delivered
  finishes i v hv hend := by
    obtain ⟨bs, v', o, hown, hbs, hend'⟩ :=
      hend.finishes ((h.kept hrun).books v (List.mem_of_getElem? hv))
    obtain ⟨u, hu, hvu⟩ := run_task (act i) (fun s a => hact s i a) hown hv hbs
    exact ⟨bs.map (act i), u, v', o, hu, hvu, hend'⟩
  frozen i v hv hc _ _ hu := h.frozen (h.kept hrun).filed hv hc hu

variable [DecidableEq K]

/-- What `route_decision` leaves when it asks for a new vconn. -/
inductive Cleared (s : Relay K D C) (key : K) : Relay K D C → Prop
  | absent (h : s.conns key = none) : Cleared s key s
  | evicted {i : Nat} {v : Vconn K D C} (h : s.conns key = some i) (hv : s.vconns[i]? = some v)
      (hc : v.closed = true) : Cleared s key (s.remove key i)

theorem Cleared.conns (h : s.Cleared key s') : s'.conns key = none := by
  cases h with
  | absent h => exact h
  | evicted => exact Function.update_self ..

theorem Cleared.advances (h : s.Cleared key s') :
    s.Advances P s' ∧ s'.keys = s.keys ∧ ∀ k i, s'.conns k = some i → s.conns k = some i := by
  cases h with
  | absent => exact ⟨⟨fun _ v hv => ⟨v, hv, .stays⟩, fun _ _ hv hn => by cases hn.symm.trans hv⟩,
      rfl, fun _ _ => id⟩
  | evicted h =>
    refine ⟨advances_modify _ fun _ _ => .evicted, map_modify_eq fun _ _ => rfl, fun k j hj => ?_⟩
    by_cases hk : k = key
    · subst hk
      simp [remove] at hj
    · simpa [remove, hk] using hj

/-- What becomes of a datagram. -/
inductive Routes (s : Relay K D C) (key : K) (datagram : Bytes) (now : Nat) :
    Option D → Relay K D C → Prop
  | delivered {dial : Option D} {i : Nat} {v : Vconn K D C} (hi : s.conns key = some i)
      (hv : s.vconns[i]? = some v) (hopen : v.closed = false) :
    Routes s key datagram now dial { s with vconns := s.vconns.modify i (·.deliver datagram) }
  | created {s₀ : Relay K D C} {dial : D} (h : s.Cleared key s₀) :
    Routes s key datagram now (some dial) (s₀.createVconn key dial datagram now)
  | dropped {s₀ : Relay K D C} (h : s.Cleared key s₀) : Routes s key datagram now none s₀

theorem Filed.routes (h : s.Filed) (key : K) (dial : Option D) (datagram : Bytes) (now : Nat) :
    s.Routes key datagram now dial (s.routeDatagram key dial datagram now) := by
  have hcreate {s₀ : Relay K D C} (hs : s.Cleared key s₀) : s.Routes key datagram now dial
      (match dial with
        | some dial => s₀.createVconn key dial datagram now
        | none => s₀) := by
    cases dial with
    | none => exact .dropped hs
    | some dial => exact .created hs
  unfold routeDatagram routeDecision
  cases hi : s.conns key with
  | none => exact hcreate (.absent hi)
  | some i =>
    obtain ⟨v, hv, -⟩ := h.vconn hi
    dsimp only
    by_cases hc : s.isClosed i = true
    · rw [if_pos hc]
      exact hcreate (.evicted hi hv (by simpa [isClosed, hv] using hc))
    · rw [if_neg hc]
      dsimp only
      rw [hi]
      exact .delivered hi hv (by simpa [isClosed, hv] using hc)

theorem createVconn_advances (s : Relay K D C) (key : K) (dial : D) (first : Bytes) (now : Nat) :
    s.Advances P (s.createVconn key dial first now) where
  moved i v hv := by
    refine ⟨v, ?_, .stays⟩
    rw [createVconn, List.getElem?_append_left (List.getElem?_eq_some_iff.mp hv).1, hv]
  made i v' hv' hnone := by
    have hlen := List.getElem?_eq_none_iff.mp hnone
    rw [createVconn, List.getElem?_append_right hlen] at hv'
    exact ⟨key, dial, first, now, List.mem_singleton.mp (List.mem_of_getElem? hv')⟩

theorem Filed.createVconn (h : s.Filed) (dial : D) (first : Bytes) (now : Nat) :
    (s.createVconn key dial first now).Filed := by
  have hkeys : (s.createVconn key dial first now).keys = s.keys ++ [key] := by
    simp [keys, Relay.createVconn, Vconn.new]
  have hlen : s.keys.length = s.vconns.length := List.length_map ..
  constructor
  · intro k i hi
    rw [hkeys]
    by_cases hk : k = key
    · subst hk
      simp only [Relay.createVconn, Function.update_self, Option.some.injEq] at hi
      simp [← hi, hlen]
    · simp only [Relay.createVconn, Function.update_of_ne hk] at hi
      have hkey := h.handle k i hi
      rw [List.getElem?_append_left (List.getElem?_eq_some_iff.mp hkey).1, hkey]
  · intro k i hi j hj
    rw [hkeys] at hj
    by_cases hk : k = key
    · subst hk
      simp only [Relay.createVconn, Function.update_self, Option.some.injEq] at hi
      have hlt := (List.getElem?_eq_some_iff.mp hj).1
      simp only [List.length_append, hlen, List.length_singleton] at hlt
      omega
    · simp only [Relay.createVconn, Function.update_of_ne hk] at hi
      refine h.youngest k i hi j ?_
      by_cases hlt : j < s.keys.length
      · rwa [List.getElem?_append_left hlt] at hj
      · rw [List.getElem?_append_right (Nat.le_of_not_lt hlt)] at hj
        exact absurd (List.mem_singleton.mp (List.mem_of_getElem? hj)) hk

theorem Routes.advances {dial : Option D} {datagram : Bytes} {now : Nat} (hf : s.Filed)
    (h : s.Routes key datagram now dial s') : s.Advances P s' ∧ s'.Filed := by
  cases h with
  | delivered hi hv hopen =>
    refine ⟨advances_modify s.conns fun w hw => ?_, hf.fewer (map_modify_eq fun w _ => ?_)
      fun _ _ => id⟩
    · cases hv.symm.trans hw
      exact .delivered hopen datagram
    · exact (w.deliver_frame datagram).1
  | created hs =>
    obtain ⟨hadv, hkeys, hconns⟩ := hs.advances (P := P)
    refine ⟨hadv.trans_made hkeys (createVconn_advances _ key _ datagram now) fun i v hv => ?_,
      (hf.fewer hkeys hconns).createVconn _ datagram now⟩
    rw [createVconn, List.getElem?_append_left (List.getElem?_eq_some_iff.mp hv).1, hv]
  | dropped hs =>
    obtain ⟨hadv, hkeys, hconns⟩ := hs.advances (P := P)
    exact ⟨hadv, hf.fewer hkeys hconns⟩

/-- The next datagram for the key of a closed vconn reaches a younger vconn: it is the first of one
made for it, unless there is one already. -/
def Fresh (t t' : Relay K D C) (i : Nat) (key : K) (datagram : Bytes) : Prop :=
  ∃ j w, i < j ∧ t'.conns key = some j ∧ t'.vconns[j]? = some w ∧ w.key = key ∧
    (j = t.vconns.length ∧ w.task = .dialing ∧ w.queue = [datagram] ∧ w.accepted = [datagram] ∨
      ∃ u, t.conns key = some j ∧ t.vconns[j]? = some u ∧ u.closed = false ∧ w = u.deliver datagram)

/-- Without a service for the destination the datagram is dropped. -/
def Dropped (t t' : Relay K D C) (key : K) : Prop :=
  t'.conns key = none ∧ t'.vconns.map Vconn.accepted = t.vconns.map Vconn.accepted

theorem Routes.fresh {dial : Option D} {datagram : Bytes} {now : Nat} (hf : s.Filed)
    {v : Vconn K D C} (hv : s.vconns[i]? = some v) (hc : v.closed = true)
    (h : s.Routes v.key datagram now dial s') :
    s.Fresh s' i v.key datagram ∨ dial = none ∧ s.Dropped s' v.key := by
  have hkey : s.keys[i]? = some v.key := by rw [keys, List.getElem?_map, hv]; rfl
  cases h with
  | @delivered _ j u hj hu hopen =>
    have hle := hf.youngest _ j hj i hkey
    have hne : i ≠ j := by
      rintro rfl
      cases hv.symm.trans hu
      cases hopen.symm.trans hc
    obtain ⟨w, hw, hwkey⟩ := hf.vconn hj
    cases hu.symm.trans hw
    refine .inl ⟨j, u.deliver datagram, Nat.lt_of_le_of_ne hle hne, hj, by simp [hu], ?_,
      .inr ⟨u, hj, hu, hopen, rfl⟩⟩
    exact (u.deliver_frame datagram).1.trans hwkey
  | @created s₀ dial hs =>
    obtain ⟨-, hkeys, -⟩ := hs.advances (P := fun _ => True)
    have hlen : s₀.vconns.length = s.vconns.length := by
      simpa [keys] using congrArg List.length hkeys
    refine .inl ⟨s.vconns.length, .new v.key dial datagram now,
      (List.getElem?_eq_some_iff.mp hv).1, ?_, ?_, rfl, .inl ⟨rfl, rfl, rfl, rfl⟩⟩
    · simp [createVconn, hlen]
    · simp [createVconn, ← hlen]
  | dropped hs =>
    refine .inr ⟨rfl, hs.conns, ?_⟩
    cases hs with
    | absent => rfl
    | evicted => exact map_modify_eq fun _ _ => rfl

theorem Routes.keys {dial : Option D} {datagram : Bytes} {now : Nat}
    (h : s.Routes key datagram now dial s') : ∀ k ∈ s'.keys, k ∈ s.keys ∨ k = key := by
  cases h with
  | @delivered _ i =>
    have hkeys : Relay.keys { s with vconns := s.vconns.modify i (·.deliver datagram) } = s.keys :=
      map_modify_eq fun w _ => (w.deliver_frame datagram).1
    rw [hkeys]
    exact fun _ => .inl
  | @created s₀ dial hs =>
    obtain ⟨-, hkeys, -⟩ := hs.advances (P := fun _ => True)
    intro k hk
    rw [Relay.keys, createVconn, List.map_append, List.mem_append] at hk
    exact hk.imp (fun hk => hkeys ▸ hk) List.mem_singleton.mp
  | dropped hs =>
    obtain ⟨-, hkeys, -⟩ := hs.advances (P := fun _ => True)
    rw [hkeys]
    exact fun _ => .inl

end Relay

open Relay

section Twins

variable {V : Type} {C : Crypto} {service : Text} {dnsServerIp : Option (BitVec 32)} {idle : Nat}

theorem proxyStep_drives : Drives (· ≠ .cancel) (proxyStep (C := C) service idle) := by
  intro s a s' h hf
  cases a with
  | recvFrom src d now =>
    cases h
    exact (hf.routes src (some service) d now).advances hf
  | tick now =>
    cases h
    exact ⟨s.dropExpired_advances idle now, hf.dropExpired idle now⟩
  | task i a =>
    have hturn : a ≠ .cancel ∧ s.taskTurn i a = some s' := by
      cases a with
      | cancel => cases h
      | _ => exact ⟨nofun, h⟩
    obtain ⟨hadv, hkeys, hconns⟩ := taskTurn_advances (P := (· ≠ .cancel)) hturn.1 hturn.2
    exact ⟨hadv, hf.fewer hkeys fun _ _ hi => hconns ▸ hi⟩

theorem interceptStep_advances {P : TaskAct C → Prop} {s s' : Relay Intercept.FlowKey Dial C}
    {a : InterceptAct V C} (hP : ∀ i b, a = .task i b → P b)
    (h : interceptStep dnsServerIp idle s a = some s') (hf : s.Filed) :
    s.Advances P s' ∧ s'.Filed := by
  cases a with
  | recvFrom resolver dst src d now =>
    simp only [interceptStep] at h
    split_ifs at h
    · cases h
      exact ⟨⟨fun _ v hv => ⟨v, hv, .stays⟩, fun _ _ hv hn => by cases hn.symm.trans hv⟩, hf⟩
    · cases h
      exact (hf.routes (src, dst) (interceptDial resolver dst src) d now).advances hf
  | tick now =>
    cases h
    exact ⟨s.dropExpired_advances idle now, hf.dropExpired idle now⟩
  | task i a =>
    obtain ⟨hadv, hkeys, hconns⟩ := taskTurn_advances (hP i a rfl) h
    exact ⟨hadv, hf.fewer hkeys fun _ _ hi => hconns ▸ hi⟩

theorem interceptStep_drives :
    Drives (fun _ => True) (interceptStep (V := V) (C := C) dnsServerIp idle) :=
  fun _ _ _ h hf => interceptStep_advances (fun _ _ _ => trivial) h hf

theorem proxy_unkilled {as : List (ProxyAct C)} {t : Relay SocketAddr Text C}
    (hrun : run (proxyStep service idle) new as = some t) : ∀ v ∈ t.vconns, v.kill = false := by
  refine (run_invariant (fun t : Relay SocketAddr Text C => t.Filed ∧ ∀ v ∈ t.vconns,
    v.kill = false) ?_ hrun ⟨filed_new, List.forall_mem_nil _⟩).2
  rintro s a s' hs ⟨hf, hall⟩
  obtain ⟨hadv, hf'⟩ := proxyStep_drives s a s' hs hf
  exact ⟨hf', hadv.forall (fun _ _ hm hk => hm.kill.trans hk) (fun _ _ _ _ => rfl) hall⟩

theorem intercept_keys {as : List (InterceptAct V C)} {t : Relay Intercept.FlowKey Dial C}
    (hrun : run (interceptStep dnsServerIp idle) new as = some t) :
    ∀ key ∈ t.keys, Intercept.isDnsServer dnsServerIp key.2 = false := by
  refine (run_invariant (fun t : Relay Intercept.FlowKey Dial C => t.Filed ∧ ∀ key ∈ t.keys,
    Intercept.isDnsServer dnsServerIp key.2 = false) ?_ hrun ⟨filed_new, List.forall_mem_nil _⟩).2
  rintro s a s' hs ⟨hf, hall⟩
  refine ⟨(interceptStep_drives s a s' hs hf).2, ?_⟩
  cases a with
  | recvFrom resolver dst src d now =>
    simp only [interceptStep] at hs
    split_ifs at hs with hdns
    · cases hs
      exact hall
    · cases hs
      intro key hkey
      obtain hkey | rfl := (hf.routes (src, dst) (interceptDial resolver dst src) d now).keys key hkey
      · exact hall key hkey
      · exact Bool.eq_false_iff.mpr hdns
  | tick now =>
    cases hs
    rw [keys_dropExpired]
    exact hall
  | task i a =>
    obtain ⟨-, hkeys, -⟩ := taskTurn_advances (P := fun _ => True) trivial hs
    rw [hkeys]
    exact hall

/-- No accepted datagram is lost. In every state a relay reaches, whatever the order in which its
manager and its vconns' tasks moved: a vconn that closed its connection, unless its flow was killed
or a write failed, had put all that it accepted on the wire, one frame a datagram and in order; a
vconn whose end has begun comes to it; one that is closed accepts nothing more, and the next
datagram for its key goes to a younger one, or is dropped where no service intercepts it. -/
theorem datagrams_relayed :
    (∀ (service : Text) (idle : Nat) (as : List (ProxyAct C)) (t : Relay SocketAddr Text C),
      run (proxyStep service idle) new as = some t →
      Lossless (proxyStep service idle) t ∧ (∀ v ∈ t.vconns, v.kill = false) ∧
      ∀ (i : Nat) (v : Vconn SocketAddr Text C) (datagram : Bytes) (now : Nat)
        (t' : Relay SocketAddr Text C), t.vconns[i]? = some v → v.closed = true →
        proxyStep service idle t (.recvFrom v.key datagram now) = some t' →
        Fresh t t' i v.key datagram) ∧
    ∀ (dnsServerIp : Option (BitVec 32)) (idle : Nat) (as : List (InterceptAct V C))
      (t : Relay Intercept.FlowKey Dial C), run (interceptStep dnsServerIp idle) new as = some t →
      Lossless (interceptStep (V := V) dnsServerIp idle) t ∧
      ∀ (i : Nat) (v : Vconn Intercept.FlowKey Dial C) (resolver : Intercept.InterceptResolver V)
        (datagram : Bytes) (now : Nat) (t' : Relay Intercept.FlowKey Dial C),
        t.vconns[i]? = some v → v.closed = true →
        interceptStep dnsServerIp idle t (.recvFrom resolver v.key.2 v.key.1 datagram now) = some t' →
        Fresh t t' i v.key datagram ∨
          interceptDial resolver v.key.2 v.key.1 = none ∧ Dropped t t' v.key := by
  constructor
  · intro service idle as t hrun
    refine ⟨proxyStep_drives.lossless (fun i a => .task i a) ?_ hrun, proxy_unkilled hrun, ?_⟩
    · intro s i a ha
      cases a with
      | cancel => cases ha
      | _ => rfl
    · intro i v d now t' hv hc hstep
      cases hstep
      have hf := (proxyStep_drives.kept hrun).filed
      obtain hfresh | ⟨hnone, -⟩ := (hf.routes v.key (some service) d now).fresh hf hv hc
      · exact hfresh
      · cases hnone
  · intro dns idle as t hrun
    refine ⟨interceptStep_drives.lossless (fun i a => .task i a) (fun _ _ _ _ => rfl) hrun, ?_⟩
    intro i v resolver d now t' hv hc hstep
    have hdns : Intercept.isDnsServer dns v.key.2 = false :=
      intercept_keys hrun v.key (List.mem_map_of_mem (List.mem_of_getElem? hv))
    simp only [interceptStep, hdns, Bool.false_eq_true, if_false] at hstep
    cases hstep
    have hf := (interceptStep_drives.kept hrun).filed
    exact (hf.routes v.key (interceptDial resolver v.key.2 v.key.1) d now).fresh hf hv hc

end Twins

def udpClient : SocketAddr := ⟨.v4 0x0a000001#32, 5000⟩

/-- The connection ends with one datagram written and one in the queue. -/
def twoDatagrams : List (ProxyAct padCrypto) :=
  [.recvFrom udpClient [1, 2] 0, .recvFrom udpClient [3] 1, .task 0 (.dialed 7 none),
    .task 0 (.writer 2 1), .task 0 (.wrote true), .task 0 .hangUp, .task 0 (.reader 3 true),
    .task 0 (.writer 4 2), .task 0 (.writer 4 2), .task 0 (.wrote true), .task 0 (.writer 5 3),
    .task 0 (.join 3), .task 0 (.wrote true)]

def udpServer : SocketAddr := ⟨.v4 0x01010101#32, 4000⟩

def readUdp (_ : Bool) : Except String Intercept.InterceptV1Config :=
  .ok ⟨["udp".toList], ["1.1.1.1".toList], [⟨4000, 4000⟩], none, []⟩

def udpService : Intercept.Service Bool := ⟨"web".toList, ["Dial".toList], some true⟩

/-- The table while the service is there, and once it has been removed. -/
def servedTable : Intercept.InterceptResolver Bool :=
  (Intercept.InterceptResolver.new.applyEvent readUdp (.added udpService)).2

def unservedTable : Intercept.InterceptResolver Bool :=
  (servedTable.applyEvent readUdp (.removed udpService)).2

theorem interceptDial_served :
    interceptDial servedTable udpServer udpClient = some ⟨"web".toList, 5, none⟩ := by
  decide +kernel

theorem interceptDial_unserved : interceptDial unservedTable udpServer udpClient = none := by
  decide +kernel

theorem recvFrom_served (t : Relay Intercept.FlowKey Dial padCrypto) (d : Bytes) (now : Nat) :
    interceptStep none vconnIdleTimeout t (.recvFrom servedTable udpServer udpClient d now) =
      some (t.routeDatagram (udpClient, udpServer) (some ⟨"web".toList, 5, none⟩) d now) := by
  rw [interceptStep, interceptDial_served]
  rfl

theorem recvFrom_unserved (t : Relay Intercept.FlowKey Dial padCrypto) (d : Bytes) (now : Nat) :
    interceptStep none vconnIdleTimeout t (.recvFrom unservedTable udpServer udpClient d now) =
      some (t.routeDatagram (udpClient, udpServer) none d now) := by
  rw [interceptStep, interceptDial_unserved]
  rfl

/-- A flow that ends on its own, with its one datagram written. -/
def endedFlow : List (InterceptAct Bool padCrypto) :=
  [.recvFrom servedTable udpServer udpClient [1, 2] 0, .task 0 (.dialed 7 none),
    .task 0 (.writer 2 1), .task 0 (.wrote true), .task 0 .hangUp, .task 0 (.reader 3 true),
    .task 0 (.writer 4 2), .task 0 (.writer 4 2), .task 0 (.join 3), .task 0 (.wrote true)]

/-- In both twins the datagrams of a connection that ended are on its wire, and the next one makes a
fresh connection. -/
theorem datagrams_relayed_both :
    (∃ t v o t', run (proxyStep "web".toList vconnIdleTimeout) new twoDatagrams = some t ∧
      t.vconns[0]? = some v ∧ v.task = .ended (some o) ∧ v.accepted = [[1, 2], [3]] ∧
      o.wire.map isStateClosed = [false, false, true] ∧
      (∃ s, Carries o.opened (o.wire.take 2) v.accepted s) ∧
      proxyStep "web".toList vconnIdleTimeout t (.recvFrom udpClient [4] 6) = some t' ∧
      Fresh t t' 0 udpClient [4]) ∧
    ∃ t v o t', run (interceptStep none vconnIdleTimeout) new endedFlow = some t ∧
      t.vconns[0]? = some v ∧ v.task = .ended (some o) ∧ v.accepted = [[1, 2]] ∧
      o.wire.map isStateClosed = [false, true] ∧
      (∃ s, Carries o.opened (o.wire.take 1) v.accepted s) ∧
      interceptStep none vconnIdleTimeout t (.recvFrom servedTable udpServer udpClient [3] 6) = some t' ∧
      Fresh t t' 0 (udpClient, udpServer) [3] := by
  constructor
  · obtain ⟨t, hrun⟩ : ∃ t,
        run (proxyStep "web".toList vconnIdleTimeout) new twoDatagrams = some t := ⟨_, rfl⟩
    obtain ⟨hloss, -, hnext⟩ :=
      (datagrams_relayed (V := Bool)).1 "web".toList vconnIdleTimeout twoDatagrams t hrun
    cases hrun
    refine ⟨_, _, _, _, rfl, rfl, rfl, rfl, rfl, ?_, rfl, hnext 0 _ [4] 6 _ rfl rfl rfl⟩
    exact (hloss.delivered _ (List.mem_singleton.mpr rfl) _ rfl rfl rfl (List.take 2 _) _ [] rfl rfl).2
  · obtain ⟨t, v, o, frame, close, hrest, hv, hkey, hclosed, hkill, htask, hfailed, haccepted, hwire,
        hframe, hclose⟩ : ∃ t v o frame close, run (interceptStep none vconnIdleTimeout)
        (routeDatagram new (udpClient, udpServer) (some ⟨"web".toList, 5, none⟩) [1, 2] 0)
        endedFlow.tail = some t ∧ t.vconns = [v] ∧ v.key = (udpClient, udpServer) ∧ v.closed = true ∧
        v.kill = false ∧ v.task = .ended (some o) ∧ o.failed = false ∧ v.accepted = [[1, 2]] ∧
        o.wire = [frame, close] ∧ isStateClosed frame = false ∧ isStateClosed close = true :=
      ⟨_, _, _, _, _, rfl, rfl, rfl, rfl, rfl, rfl, rfl, rfl, rfl, rfl, rfl⟩
    have hrun : run (interceptStep none vconnIdleTimeout) new endedFlow = some t :=
      run_cons_eq_some.mpr ⟨_, recvFrom_served new [1, 2] 0, hrest⟩
    obtain ⟨hloss, hnext⟩ := datagrams_relayed.2 none vconnIdleTimeout endedFlow t hrun
    have hfirst : t.vconns[0]? = some v := by rw [hv]; rfl
    have hfresh := hnext 0 v servedTable [3] 6 _ hfirst hclosed
      (by rw [hkey]; exact recvFrom_served t [3] 6)
    rw [hkey, interceptDial_served] at hfresh
    refine ⟨t, v, o, _, hrun, hfirst, htask, haccepted, by simp [hwire, hframe, hclose], ?_,
      recvFrom_served t [3] 6, hfresh.resolve_right fun h => by cases h.1⟩
    have hdelivered := hloss.delivered v (by simp [hv]) o (by rw [htask]; rfl) hkill hfailed
    rw [hwire]
    exact (hdelivered [frame] close [] hwire hclose).2

/-- Once its service is removed, no vconn is made for the next datagram of the flow. -/
theorem next_datagram_dropped : ∃ t v o t',
    run (interceptStep none vconnIdleTimeout) new endedFlow = some t ∧ t.vconns = [v] ∧
    v.task = .ended (some o) ∧ o.failed = false ∧ v.kill = false ∧ v.closed = true ∧
    v.key = (udpClient, udpServer) ∧
    interceptStep none vconnIdleTimeout t (.recvFrom unservedTable udpServer udpClient [3] 6) =
      some t' ∧
    t'.vconns.length = 1 ∧ ¬Fresh t t' 0 v.key [3] := by
  refine ⟨_, _, _, _, run_cons_eq_some.mpr ⟨_, recvFrom_served new [1, 2] 0, rfl⟩, rfl, rfl, rfl, rfl, rfl, rfl,
    recvFrom_unserved .., rfl, ?_⟩
  rintro ⟨j, w, -, hconns, -⟩
  cases hconns

end Noa.Tunnel.Udp
