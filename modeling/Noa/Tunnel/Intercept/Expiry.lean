import Noa.Framework.Machine
import Noa.Framework.Pending
import Noa.Tunnel.Intercept.ProxyResolve.Wiring
import Noa.Tunnel.Intercept.Upstream

namespace Noa.Tunnel.Intercept
open Noa.Framework Noa.Channel Noa.Tunnel.Resolve

/-- The two ways a query is forwarded. -/
inductive DnsPath where
  | upstream
  | proxy
  deriving DecidableEq

/-- The time up to which a query may wait. -/
def DnsPath.deadline (path : DnsPath) (p : PendingUpstream) : Nat :=
  p.registeredAt + match path with
    | .upstream => dnsUpstreamTimeout
    | .proxy => ProxyResolve.proxyPendingTimeout

/-- What the completion of a query needs of the client, on both ways. -/
def ProxyResolve.ProxyPending.client (p : ProxyResolve.ProxyPending) : PendingUpstream :=
  ⟨p.serverAddr, p.clientAddr, p.registeredAt⟩

/-- What a turn of the loop does with a table of queries. -/
inductive DnsEffect where
  | none
  | asks (id : UInt16) (client : PendingUpstream)
  | answers (id : Option UInt16)
  | sweeps

def DnsEffect.id : DnsEffect → Option UInt16
  | .asks id _ => some id
  | .answers id => id
  | .none | .sweeps => Option.none

/-- The identifier of a response, if it is long enough to have one. -/
def responseId (response : Bytes) : Option UInt16 :=
  if response.length < 2 then none else some (u16FromBe (response.getD 0 0) (response.getD 1 0))

/-- The identifier an event of a connection task names. -/
def ProxyResolve.ProxyEvent.names (fromSlice : Bytes → Option ProxyResolve.WireMsg) :
    ProxyResolve.ProxyEvent → Option UInt16
  | .writeFailed id => some id
  | .data chunk => (ProxyResolve.parsePeerResponse fromSlice chunk).map (·.id)

namespace DnsLoop

variable (fromSlice : Bytes → Option ProxyResolve.WireMsg)

/-- The query that waits under an identifier. -/
def waiting (s : DnsLoop) (path : DnsPath) (id : UInt16) : Option PendingUpstream :=
  match path with
  | .upstream => s.upstream.bind (·.pending[id]?)
  | .proxy => (s.proxy.bind (·.pending[id]?)).map (·.client)

/-- The effect of a datagram, by what is done with its query. -/
def asked (s : DnsLoop) (payload : Bytes) (dst src : SocketAddr) : DnsAction → DnsPath → DnsEffect
  | .forwardUpstream _, .upstream =>
    .asks (u16FromBe (payload.getD 0 0) (payload.getD 1 0)) ⟨dst, src, s.now⟩
  | .forwardProxy q, .proxy => .asks q.id ⟨dst, src, s.now⟩
  | _, _ => .none

/-- The table and the identifier a turn is about, from the message it handles. -/
def effect (s : DnsLoop) (act : DnsLoopAct) (path : DnsPath) : DnsEffect :=
  match act with
  | .elapse _ | .task _ _ => .none
  | .tick => .sweeps
  | .datagram dns _ _ _ payload dst src =>
    if isDnsServerDatagram dst s.dnsServerIp then
      s.asked payload dst src (handleQuery dns payload s.upstream.isSome s.proxy.isSome).1 path
    else .none
  | .response received _ =>
    match path with
    | .upstream => .answers (received.bind fun bytes => responseId (bytes.take dnsUpstreamBuf))
    | .proxy => .none
  | .event _ =>
    match path with
    | .upstream => .none
    | .proxy => .answers ((s.proxy.bind (·.events.head?)).bind (·.2.names fromSlice))

end DnsLoop

/-- A loop with the history of its two tables. -/
structure DnsRun where
  loop : DnsLoop
  log : DnsPath → PendingLog UInt16 PendingUpstream DnsReply

namespace DnsRun

variable (fromSlice : Bytes → Option ProxyResolve.WireMsg)

def new (loop : DnsLoop) : DnsRun := ⟨loop, fun _ => .empty⟩

/-- The history after a turn: a query whose identifier is taken is refused, one that waits afterwards
was registered, and a reply to a message is the answer of the query the message names. -/
def record (log : PendingLog UInt16 PendingUpstream DnsReply) (now : Nat)
    (before after : UInt16 → Option PendingUpstream) (reply : Option DnsReply) :
    DnsEffect → PendingLog UInt16 PendingUpstream DnsReply
  | .none => log
  | .asks id client =>
    if (before id).isSome then log.refuse id now
    else if (after id).isSome then log.register id client
    else log
  | .answers id =>
    match id, reply with
    | some id, some reply => log.answer id now reply
    | none, some reply => { log with answered := log.answered ++ [⟨none, now, reply⟩] }
    | _, none => log
  | .sweeps => log.sweep now after

def step (r : DnsRun) (act : DnsLoopAct) : Option DnsRun :=
  (r.loop.step fromSlice act).map fun (reply, loop) =>
    ⟨loop, fun path => record (r.log path) r.loop.now (r.loop.waiting path) (loop.waiting path) reply
      (r.loop.effect fromSlice act path)⟩

/-- The message comes too late for no query that was registered under its identifier and not
answered: not after the deadline of the query, unless the table was swept after that. -/
def Timely (r : DnsRun) (act : DnsLoopAct) : Prop :=
  ∀ path id n p, (r.loop.effect fromSlice act path).id = some id →
    (r.log path).requests[n]? = some (id, p) → (r.log path).Unanswered n →
    r.loop.now ≤ path.deadline p ∨ (r.log path).SweptAfter (path.deadline p)

instance (r : DnsRun) (act : DnsLoopAct) : Decidable (r.Timely fromSlice act) :=
  decidable_of_iff (∀ path ∈ [DnsPath.upstream, .proxy], ∀ e ∈ (r.log path).requests.zipIdx,
    (r.loop.effect fromSlice act path).id = some e.1.1 → (r.log path).Unanswered e.2 →
    r.loop.now ≤ path.deadline e.1.2 ∨ (r.log path).SweptAfter (path.deadline e.1.2))
    ⟨fun h path id n p hid hreq => h path (by cases path <;> decide) ((id, p), n)
        (List.mem_zipIdx_iff_getElem?.mpr hreq) hid,
      fun h path _ e he hid => h path e.1.1 e.2 e.1.2 hid (List.mem_zipIdx_iff_getElem?.mp he)⟩

/-- No query is answered, or stands in the way of another, longer than it may wait. -/
def OnTime (r : DnsRun) : Prop := ∀ path, (r.log path).OnTime path.deadline

end DnsRun

section Changes

variable {fromSlice : Bytes → Option ProxyResolve.WireMsg} {s s' : DnsLoop} {now : Nat}
  {deadline : PendingUpstream → Nat}

/-- What a turn changes in a table. -/
inductive Changes (now : Nat) (deadline : PendingUpstream → Nat)
    (before after : UInt16 → Option PendingUpstream) (reply : Option DnsReply) : DnsEffect → Prop
  | none (h : after = before) : Changes now deadline before after reply .none
  | taken {id : UInt16} {client p : PendingUpstream} (hp : before id = some p)
      (h : after = before) : Changes now deadline before after reply (.asks id client)
  | registers {id : UInt16} {client : PendingUpstream} (hnone : before id = .none)
      (hnow : client.registeredAt = now) (h : after = Function.update before id (some client)) :
      Changes now deadline before after reply (.asks id client)
  | unsent {id : UInt16} {client : PendingUpstream} (hnone : before id = .none) (h : after = before) :
      Changes now deadline before after reply (.asks id client)
  | unknown {id : Option UInt16} (hreply : reply = .none) (h : after = before)
      (hnone : id.bind before = .none) : Changes now deadline before after reply (.answers id)
  | completes {id : UInt16} {p : PendingUpstream} {bytes : Bytes} (hp : before id = some p)
      (hreply : reply = some ⟨bytes, p.serverAddr, p.clientAddr⟩)
      (h : after = Function.update before id .none) :
      Changes now deadline before after reply (.answers (some id))
  | sweeps (h : ∀ id, after id = (before id).filter (now ≤ deadline ·)) :
      Changes now deadline before after reply .sweeps

theorem DnsLoop.sendDnsReply_eq {egress : Egress} {reply reply' : Option DnsReply}
    (h : s.sendDnsReply egress reply = (reply', s')) :
    reply' = reply ∧ s'.waiting = s.waiting ∧ s'.now = s.now := by
  unfold DnsLoop.sendDnsReply at h
  split at h <;> cases h <;> exact ⟨rfl, rfl, rfl⟩

/-! The upstream table. -/

theorem UpstreamDns.forward_changes (u : UpstreamDns) (sends : SocketAddr → Bool) (request : Bytes)
    (dst src : SocketAddr) (now : Nat) (reply : Option DnsReply) :
    Changes now deadline (u.pending[·]?) ((u.forward sends request dst src now).2.pending[·]?) reply
      (.asks (u16FromBe (request.getD 0 0) (request.getD 1 0)) ⟨dst, src, now⟩) := by
  unfold UpstreamDns.forward
  dsimp only
  generalize u16FromBe (request.getD 0 0) (request.getD 1 0) = id
  by_cases hid : id ∈ u.pending
  · obtain ⟨p, hp⟩ := mem_iff_lookup.mp hid
    rw [if_pos hid]
    exact .taken hp rfl
  · have hnone : u.pending[id]? = none := Std.ExtTreeMap.getElem?_eq_none hid
    rw [if_neg hid]
    split
    · exact .registers hnone rfl (lookup_insert_update _ _ _)
    · exact .unsent hnone rfl

theorem UpstreamDns.matchResponse_changes (u : UpstreamDns) (response : Bytes) :
    Changes now deadline (u.pending[·]?) ((u.matchResponse response).2.pending[·]?)
      ((u.matchResponse response).1.map fun a => ⟨response, a.1, a.2⟩)
      (.answers (responseId response)) := by
  unfold UpstreamDns.matchResponse responseId
  by_cases hlen : response.length < 2
  · simp only [if_pos hlen]
    exact .unknown rfl rfl rfl
  simp only [if_neg hlen]
  generalize u16FromBe (response.getD 0 0) (response.getD 1 0) = id
  cases hp : u.pending[id]? with
  | none => exact .unknown rfl rfl hp
  | some p => exact .completes hp rfl (lookup_erase_update _ _)

/-- A sweep takes away the queries that have waited longer than they may, and no others. -/
theorem UpstreamDns.evictExpired_changes (u : UpstreamDns) (now : Nat) (reply : Option DnsReply) :
    Changes now (DnsPath.deadline .upstream) (u.pending[·]?) ((u.evictExpired now).pending[·]?) reply
      .sweeps := by
  refine .sweeps fun id => ?_
  simp only [UpstreamDns.evictExpired, Std.ExtTreeMap.getElem?_filter']
  exact congrArg (Option.filter · _) (funext fun _ => decide_eq_decide.mpr Nat.sub_le_iff_le_add')

/-! The proxy table. -/

namespace ProxyResolve.ProxyDns

def waits (p : ProxyDns) (id : UInt16) : Option PendingUpstream := p.pending[id]?.map (·.client)

theorem waits_insert {p p' : ProxyDns} {id : UInt16} {x : ProxyPending}
    (h : p'.pending = p.pending.insert id x) :
    p'.waits = Function.update p.waits id (some x.client) := by
  have hlookup := congrArg (Option.map ProxyPending.client ∘ ·) (lookup_insert_update p.pending id x)
  rw [Function.comp_update, ← h] at hlookup
  exact hlookup

theorem waits_erase {p p' : ProxyDns} {id : UInt16} (h : p'.pending = p.pending.erase id) :
    p'.waits = Function.update p.waits id none := by
  have hlookup := congrArg (Option.map ProxyPending.client ∘ ·) (lookup_erase_update p.pending id)
  rw [Function.comp_update, ← h] at hlookup
  exact hlookup

theorem liveHandle_pending (p : ProxyDns) (service : Text) (timeout : Nat) (domain : Text) :
    (p.liveHandle service timeout domain).2.pending = p.pending := by
  rcases p.liveHandle_cases service timeout domain with ⟨h, -, -, -, heq⟩ | ⟨conns, -, heq⟩ <;> rw [heq]

theorem send_pending {p p' : ProxyDns} {h : ProxyConnHandle} {job : ProxyJob}
    (hs : p.send h job = some p') : p'.pending = p.pending := by
  unfold send at hs
  split_ifs at hs
  cases hs
  rfl

theorem sendJob_pending (p : ProxyDns) (service : Text) (timeout : Nat) (domain : Text)
    (job : ProxyJob) : (p.sendJob service timeout domain job).pending = p.pending := by
  unfold sendJob
  have hlive := p.liveHandle_pending service timeout domain
  generalize p.liveHandle service timeout domain = made at *
  obtain ⟨x, p₁⟩ := made
  dsimp only at *
  cases hsend : p₁.send x job with
  | some p₂ => exact (send_pending hsend).trans hlive
  | none =>
    have hfresh := liveHandle_pending { p₁ with conns := p₁.conns.erase domain } service timeout domain
    dsimp only
    generalize liveHandle _ service timeout domain = fresh at *
    obtain ⟨y, p₂⟩ := fresh
    dsimp only at *
    cases hsend₂ : p₂.send y job with
    | none => exact hfresh.trans hlive
    | some p₃ => exact (send_pending hsend₂).trans (hfresh.trans hlive)

theorem handleForward_changes (p : ProxyDns) (service : Option (Text × Nat)) (q : ProxyQuery)
    (packet : Bytes) (dst src : SocketAddr) (ra : Bool) (now : Nat) (reply : Option DnsReply) :
    Changes now deadline p.waits (p.handleForward service q packet dst src ra now).2.waits reply
      (.asks q.id ⟨dst, src, now⟩) := by
  unfold handleForward
  by_cases hid : q.id ∈ p.pending
  · obtain ⟨x, hx⟩ := mem_iff_lookup.mp hid
    rw [if_pos hid]
    exact .taken (p := x.client) (by rw [waits, hx]; rfl) rfl
  · have hnone : p.waits q.id = none := by
      rw [waits, Std.ExtTreeMap.getElem?_eq_none hid]
      rfl
    rw [if_neg hid]
    cases service with
    | none => exact .unsent hnone rfl
    | some service =>
      refine .registers hnone rfl (waits_insert (x := ⟨packet, q.nameStrlen, dst, src, now⟩) ?_)
      dsimp only
      rw [sendJob_pending]

theorem complete_changes (p : ProxyDns) (id : UInt16) (status : UInt8)
    (answers : Option (List RespAnswer)) (ra : Bool) :
    Changes now deadline p.waits (p.complete id status answers ra).2.waits
      ((p.complete id status answers ra).1.map fun a => ⟨a.1, a.2.1, a.2.2⟩) (.answers (some id)) := by
  unfold complete
  cases hp : p.pending[id]? with
  | none => exact .unknown rfl rfl (by rw [Option.bind_some, waits, hp]; rfl)
  | some x =>
    exact .completes (p := x.client) (by rw [waits, hp]; rfl) rfl (waits_erase rfl)

theorem onEvent_changes (p : ProxyDns) (fromSlice : Bytes → Option WireMsg) (ev : ProxyEvent)
    (ra : Bool) :
    Changes now deadline p.waits (p.onEvent fromSlice ev ra).2.waits
      ((p.onEvent fromSlice ev ra).1.map fun a => ⟨a.1, a.2.1, a.2.2⟩)
      (.answers (ev.names fromSlice)) := by
  cases ev with
  | writeFailed id => exact p.complete_changes id dnsServfail none ra
  | data chunk =>
    simp only [onEvent, ProxyEvent.names]
    cases parsePeerResponse fromSlice chunk with
    | none => exact .unknown rfl rfl rfl
    | some resp => exact p.complete_changes resp.id dnsNoError resp.answers ra

theorem evictExpired_changes (p : ProxyDns) (now : Nat) (reply : Option DnsReply) :
    Changes now (DnsPath.deadline .proxy) p.waits (p.evictExpired now).waits reply .sweeps := by
  refine .sweeps fun id => ?_
  simp only [waits, evictExpired, Std.ExtTreeMap.getElem?_filter']
  rw [Option.filter_map]
  exact congrArg (fun f => (Option.filter f _).map _)
    (funext fun _ => decide_eq_decide.mpr Nat.sub_le_iff_le_add')

end ProxyResolve.ProxyDns

/-! The loop. -/

namespace DnsLoop

theorem waiting_upstream {u : UpstreamDns} (h : s.upstream = some u) :
    s.waiting .upstream = (u.pending[·]?) := by
  funext id
  simp [waiting, h]

theorem waiting_proxy {p : ProxyResolve.ProxyDns} (h : s.proxy = some p) :
    s.waiting .proxy = p.waits := by
  funext id
  simp [waiting, h, ProxyResolve.ProxyDns.waits]

theorem serveDnsDatagram_changes (s : DnsLoop) (dns : DnsMatcher)
    (proxyService : Text → Option (Text × Nat)) (sends : SocketAddr → Bool) (payload : Bytes)
    (dst src : SocketAddr) (reply : Option DnsReply) (path : DnsPath) :
    Changes s.now deadline (s.waiting path)
      ((s.serveDnsDatagram dns proxyService sends payload dst src).2.waiting path) reply
      (s.asked payload dst src (handleQuery dns payload s.upstream.isSome s.proxy.isSome).1 path) := by
  unfold serveDnsDatagram
  generalize (handleQuery dns payload s.upstream.isSome s.proxy.isSome).1 = action
  cases action with
  | respond bytes => cases path <;> exact .none rfl
  | drop => cases path <;> exact .none rfl
  | forwardUpstream onSendFailure =>
    cases hup : s.upstream with
    | none =>
      cases path with
      | upstream => exact .unsent (by simp [waiting, hup]) rfl
      | proxy => exact .none rfl
    | some u =>
      cases path with
      | upstream =>
        rw [waiting_upstream hup]
        exact u.forward_changes sends payload dst src s.now reply
      | proxy => exact .none rfl
  | forwardProxy q =>
    cases hpx : s.proxy with
    | none =>
      cases path with
      | upstream => exact .none rfl
      | proxy => exact .unsent (by simp [waiting, hpx]) rfl
    | some p =>
      cases path with
      | upstream => exact .none rfl
      | proxy =>
        rw [waiting_proxy hpx]
        exact p.handleForward_changes (proxyService q.domain) q payload dst src s.upstream.isSome s.now
          reply
  | respondAndConnectProxy response domain =>
    cases hpx : s.proxy with
    | none => cases path <;> exact .none rfl
    | some p =>
      cases path with
      | upstream => exact .none rfl
      | proxy =>
        rw [waiting_proxy hpx]
        dsimp only
        cases proxyService domain with
        | none => exact .none rfl
        | some service =>
          refine .none (funext fun id => ?_)
          exact congrArg (fun m => (m[id]?).map _) (p.liveHandle_pending service.1 service.2 domain)

theorem step_changes {act : DnsLoopAct} {reply : Option DnsReply}
    (hs : s.step fromSlice act = some (reply, s')) (path : DnsPath) :
    Changes s.now path.deadline (s.waiting path) (s'.waiting path) reply
      (s.effect fromSlice act path) ∧ s.now ≤ s'.now := by
  unfold step at hs
  by_cases hended : s.ended = true
  · rw [if_pos hended] at hs
    cases hs
  rw [if_neg hended] at hs
  cases act with
  | elapse nanos =>
    cases hs
    exact ⟨.none rfl, Nat.le_add_right _ _⟩
  | datagram dns proxyService sends egress payload dst src =>
    simp only [effect]
    by_cases hdst : isDnsServerDatagram dst s.dnsServerIp = true
    · simp only [if_pos hdst] at hs ⊢
      obtain ⟨rfl, hw, hnow⟩ := sendDnsReply_eq (Option.some.inj hs)
      rw [hw, hnow]
      refine ⟨s.serveDnsDatagram_changes dns proxyService sends payload dst src _ path, ?_⟩
      unfold serveDnsDatagram
      split <;> exact Nat.le_refl _
    · simp only [if_neg hdst] at hs ⊢
      cases hs
      exact ⟨.none rfl, Nat.le_refl _⟩
  | response received egress =>
    simp only [Option.bind_eq_bind, Option.bind_eq_some_iff] at hs
    obtain ⟨u, hu, hs⟩ := hs
    cases received with
    | none =>
      cases hs
      refine ⟨?_, Nat.le_refl _⟩
      cases path with
      | upstream => exact .unknown rfl rfl rfl
      | proxy => exact .none rfl
    | some bytes =>
      obtain ⟨rfl, hw, hnow⟩ := sendDnsReply_eq (Option.some.inj hs)
      rw [hw, hnow]
      refine ⟨?_, Nat.le_refl _⟩
      cases path with
      | proxy => exact .none rfl
      | upstream =>
        rw [waiting_upstream hu, waiting_upstream rfl]
        exact u.matchResponse_changes _
  | event egress =>
    simp only [Option.bind_eq_bind, Option.bind_eq_some_iff] at hs
    obtain ⟨p, hp, hs⟩ := hs
    split at hs
    · cases hs
    next ev rest hev =>
      obtain ⟨rfl, hw, hnow⟩ := sendDnsReply_eq (Option.some.inj hs)
      rw [hw, hnow]
      refine ⟨?_, Nat.le_refl _⟩
      cases path with
      | upstream => exact .none rfl
      | proxy =>
        rw [waiting_proxy hp, waiting_proxy rfl]
        simp only [effect, hp, Option.bind_some, hev, List.head?_cons]
        exact ProxyResolve.ProxyDns.onEvent_changes { p with events := rest } fromSlice ev _
  | task n turn =>
    simp only [Option.bind_eq_bind, Option.bind_eq_some_iff] at hs
    obtain ⟨p, hp, p', hp', hs⟩ := hs
    cases hs
    refine ⟨?_, Nat.le_refl _⟩
    cases path with
    | upstream => exact .none rfl
    | proxy =>
      obtain ⟨t, sent, t', -, -, rfl⟩ := ProxyResolve.ProxyDns.taskTurn_eq_some hp'
      rw [waiting_proxy hp]
      exact .none rfl
  | tick =>
    dsimp only at hs
    split_ifs at hs
    cases hs
    refine ⟨?_, Nat.le_refl _⟩
    cases path with
    | upstream =>
      cases hu : s.upstream with
      | none => exact .sweeps fun _ => by simp [waiting, hu]
      | some u =>
        rw [waiting_upstream hu, waiting_upstream rfl]
        exact u.evictExpired_changes s.now _
    | proxy =>
      cases hp : s.proxy with
      | none => exact .sweeps fun _ => by simp [waiting, hp]
      | some p =>
        rw [waiting_proxy hp, waiting_proxy rfl]
        exact p.evictExpired_changes s.now _

end DnsLoop

end Changes

section Runs

variable {fromSlice : Bytes → Option ProxyResolve.WireMsg} {r r' : DnsRun}

/-- The reply goes to the client of the query, from the address it was sent to. -/
def Goes (_ : UInt16) (p : PendingUpstream) (reply : DnsReply) : Prop :=
  reply.serverAddr = p.serverAddr ∧ reply.clientAddr = p.clientAddr

variable {log : PendingLog UInt16 PendingUpstream DnsReply} {now : Nat}
  {deadline : PendingUpstream → Nat} {before after : UInt16 → Option PendingUpstream}
  {reply : Option DnsReply} {effect : DnsEffect}

theorem record_tracks (h : log.Tracks Goes deadline before)
    (hc : Changes now deadline before after reply effect)
    (hnew : ∀ p : PendingUpstream, p.registeredAt = now → ¬log.SweptAfter (deadline p)) :
    (DnsRun.record log now before after reply effect).Tracks Goes deadline after := by
  cases hc with
  | none heq => rwa [heq]
  | taken hp heq =>
    simp only [DnsRun.record, hp, Option.isSome_some, if_true, heq]
    exact h.refuse hp now
  | registers hnone hnow heq =>
    simp only [DnsRun.record, hnone, heq, Function.update_self, Option.isSome_none, Option.isSome_some,
      if_true, Bool.false_eq_true, if_false]
    exact h.register hnone (hnew _ hnow)
  | unsent hnone heq =>
    simp only [DnsRun.record, hnone, heq, Option.isSome_none, Bool.false_eq_true, if_false]
    exact h
  | @unknown id hreply heq hnone =>
    subst hreply heq
    cases id <;> exact h
  | completes hp hreply heq =>
    subst hreply heq
    exact h.answer hp ⟨rfl, rfl⟩ now
  | sweeps hlook => exact h.sweep hlook

theorem record_onTime (h : log.Tracks Goes deadline before)
    (hc : Changes now deadline before after reply effect) :
    (DnsRun.record log now before after reply effect).OnTime deadline ↔
      log.OnTime deadline ∧ ∀ id p, effect.id = some id → before id = some p → now ≤ deadline p := by
  have hsame {o : Option UInt16} (ho : o.bind before = .none) : log.OnTime deadline ↔
      log.OnTime deadline ∧ ∀ id p, o = some id → before id = some p → now ≤ deadline p := by
    refine (and_iff_left fun id p hid hp => ?_).symm
    rw [hid, Option.bind_some, hp] at ho
    cases ho
  have hone {id : UInt16} {p : PendingUpstream} (hp : before id = some p) :
      now ≤ deadline p ↔ ∀ k q, some id = some k → before k = some q → now ≤ deadline q := by
    refine ⟨fun hle k q hk hq => ?_, fun hall => hall id p rfl hp⟩
    cases hk
    cases hp.symm.trans hq
    exact hle
  cases hc with
  | none heq => exact hsame rfl
  | taken hp heq =>
    simp only [DnsRun.record, hp, Option.isSome_some, if_true]
    exact (h.onTime_refuse hp).trans (and_congr_right fun _ => hone hp)
  | registers hnone hnow heq =>
    simp only [DnsRun.record, hnone, heq, Function.update_self, Option.isSome_none, Option.isSome_some,
      if_true, Bool.false_eq_true, if_false]
    rw [h.onTime_register]
    exact hsame hnone
  | unsent hnone heq =>
    simp only [DnsRun.record, hnone, heq, Option.isSome_none, Bool.false_eq_true, if_false]
    exact hsame hnone
  | @unknown id hreply heq hnone =>
    subst hreply
    cases id <;> exact hsame hnone
  | completes hp hreply heq =>
    subst hreply
    exact (h.onTime_answer hp).trans (and_congr_right fun _ => hone hp)
  | sweeps hlook => exact hsame rfl

theorem record_sweeps : ∀ t ∈ (DnsRun.record log now before after reply effect).sweeps,
    t ∈ log.sweeps ∨ t = now := by
  intro t ht
  unfold DnsRun.record at ht
  split at ht
  case h_4 => simpa [PendingLog.sweep] using ht
  all_goals
    left
    revert ht
    repeat' split
    all_goals exact id

namespace DnsRun

theorem step_eq_some {act : DnsLoopAct} (hs : r.step fromSlice act = some r') :
    ∃ reply, r.loop.step fromSlice act = some (reply, r'.loop) ∧ ∀ path, r'.log path =
      record (r.log path) r.loop.now (r.loop.waiting path) (r'.loop.waiting path) reply
        (r.loop.effect fromSlice act path) := by
  obtain ⟨⟨reply, loop⟩, hstep, rfl⟩ := Option.map_eq_some_iff.mp hs
  exact ⟨reply, hstep, fun _ => rfl⟩

/-- The history is that of the tables, up to now. -/
def Tracked (r : DnsRun) : Prop :=
  ∀ path, (r.log path).Tracks Goes path.deadline (r.loop.waiting path) ∧
    ∀ t ∈ (r.log path).sweeps, t ≤ r.loop.now

theorem Tracked.step {act : DnsLoopAct} (h : r.Tracked) (hs : r.step fromSlice act = some r') :
    r'.Tracked := by
  obtain ⟨reply, hstep, hlog⟩ := step_eq_some hs
  intro path
  obtain ⟨htracks, hpast⟩ := h path
  obtain ⟨hchanges, hnow⟩ := DnsLoop.step_changes hstep path
  rw [hlog]
  refine ⟨record_tracks htracks hchanges ?_, fun t ht => ?_⟩
  · rintro p hp ⟨t, ht, hlt⟩
    have hle := hpast t ht
    unfold DnsPath.deadline at hlt
    omega
  · rcases record_sweeps t ht with ht | rfl
    · exact (hpast t ht).trans hnow
    · exact hnow

theorem Tracked.onTime_step {act : DnsLoopAct} (h : r.Tracked)
    (hs : r.step fromSlice act = some r') : r'.OnTime ↔ r.OnTime ∧ r.Timely fromSlice act := by
  obtain ⟨reply, hstep, hlog⟩ := step_eq_some hs
  refine Iff.trans (forall_congr' fun path => ?_) forall_and
  rw [hlog, record_onTime (h path).1 (DnsLoop.step_changes hstep path).1]
  refine and_congr_right fun _ => forall_congr' fun id => ?_
  simp only [(h path).1.look_iff]
  constructor
  · intro hall n p hid hreq hopen
    by_contra hlate
    rw [not_or] at hlate
    exact hlate.1 (hall p hid ⟨n, hreq, hopen, hlate.2⟩)
  · rintro hall p hid ⟨n, hreq, hopen, hswept⟩
    exact (hall n p hid hreq hopen).resolve_right hswept

theorem tracked_new (dnsServerIp : Option (BitVec 32)) (servers : Option (List SocketAddr))
    (pollInterval : Nat) : (new (.new dnsServerIp servers pollInterval)).Tracked := by
  intro path
  have hnone : (DnsLoop.new dnsServerIp servers pollInterval).waiting path = fun _ => none := by
    funext id
    cases path <;> cases servers <;> cases dnsServerIp <;>
      simp [DnsLoop.waiting, DnsLoop.new, ProxyResolve.ProxyDns.new]
  refine ⟨?_, List.forall_mem_nil _⟩
  change PendingLog.empty.Tracks Goes _ ((DnsLoop.new dnsServerIp servers pollInterval).waiting path)
  rw [hnone]
  exact PendingLog.tracks_empty Goes _

end DnsRun

/-- In every run a query is answered at most once, and to its own client. It waits from its
registration until it is answered or until the first sweep after its deadline. It is answered in time,
and stands in the way of others in time only, in all the states of a run in which no message names a
query between its deadline and the first sweep after that. -/
theorem expired_requests {dnsServerIp : Option (BitVec 32)} {servers : Option (List SocketAddr)}
    {pollInterval : Nat} {acts : List DnsLoopAct}
    (hrun : run (DnsRun.step fromSlice) (.new (.new dnsServerIp servers pollInterval)) acts = some r) :
    (∀ path, ((r.log path).answered.map Note.request).Nodup ∧
      ∀ a ∈ (r.log path).answered,
        (r.log path).Concerns (fun id p => Goes id p a.sent) a.request) ∧
    (∀ path id p, r.loop.waiting path id = some p ↔
      ∃ n, (r.log path).requests[n]? = some (id, p) ∧ (r.log path).Unanswered n ∧
        ¬(r.log path).SweptAfter (path.deadline p)) ∧
    (RunAll (DnsRun.step fromSlice) (DnsRun.Timely fromSlice)
        (.new (.new dnsServerIp servers pollInterval)) acts ↔
      ∀ bs u, bs <+: acts →
        run (DnsRun.step fromSlice) (.new (.new dnsServerIp servers pollInterval)) bs = some u →
        u.OnTime) := by
  have hnew := DnsRun.tracked_new dnsServerIp servers pollInterval
  have htracked := run_invariant DnsRun.Tracked (fun _ _ _ hs h => h.step hs) hrun hnew
  refine ⟨fun path => ⟨(htracked path).1.once, (htracked path).1.answered⟩,
    fun path _ _ => (htracked path).1.look_iff, ?_⟩
  have hempty : (DnsRun.new (.new dnsServerIp servers pollInterval)).OnTime :=
    fun _ => PendingLog.onTime_empty
  rw [runAll_iff_prefixes (fun u => DnsRun.Tracked u ∧ u.OnTime) (fun u act u' hs h => ?_) hrun
    ⟨hnew, hempty⟩]
  · refine forall_congr' fun bs => forall_congr' fun u => imp_congr_right fun _ =>
      ⟨fun h hu => (h hu).2, fun h hu => ⟨?_, h hu⟩⟩
    exact run_invariant DnsRun.Tracked (fun _ _ _ hs h => h.step hs) hu hnew
  · have hon := h.1.onTime_step hs
    exact ⟨fun hf => ⟨h.1.step hs, hon.mpr ⟨h.2, hf⟩⟩, fun h' => (hon.mp h'.2).2⟩

/-- A recursive query of type A for `a`. -/
def upstreamQuery (id : UInt8) : Bytes := [0, id, 1, 0, 0, 1, 0, 0, 0, 0, 0, 0, 1, 0x61, 0, 0, 1, 0, 1]

/-- A datagram with the query to the resolver, from a port of a client. -/
def asksUpstream (id : UInt8) (port : UInt16) : DnsLoopAct :=
  .datagram ⟨∅, ∅, ∅, IpPool.seed sharedSpace⟩ (fun _ => none) (fun _ => true) .queued
    (upstreamQuery id) ⟨.v4 0x64400002, 53⟩ ⟨.v4 0x0a000001, port⟩

def upstreamLoop : DnsLoop :=
  .new (some 0x64400002) (some [⟨.v4 0x08080808, 53⟩]) vconnPollInterval

/-- Ticks at the start and after half a minute. A query is forwarded after one second, another client
asks with its identifier after eight, and the response comes after ten. -/
def lateActs : List DnsLoopAct :=
  [.tick, .elapse 1000000000, asksUpstream 7 4000, .elapse 7000000000, asksUpstream 7 4001,
    .elapse 2000000000, .response (some [0, 7]) .queued, .elapse 20000000000, .tick]

theorem late_response_delivered : ∃ r, run (DnsRun.step fun _ => none) (.new upstreamLoop) lateActs =
      some r ∧
    (r.log .upstream).requests =
      [(7, ⟨⟨.v4 0x64400002, 53⟩, ⟨.v4 0x0a000001, 4000⟩, 1000000000⟩)] ∧
    (r.log .upstream).refused = [⟨some 0, 8000000000, ()⟩] ∧
    (r.log .upstream).answered = [⟨some 0, 10000000000,
      ⟨[0, 7], ⟨.v4 0x64400002, 53⟩, ⟨.v4 0x0a000001, 4000⟩⟩⟩] ∧ ¬ r.OnTime := by
  have hrun : (run (DnsRun.step fun _ => none) (.new upstreamLoop) lateActs).map (fun r =>
      ((r.log .upstream).requests, (r.log .upstream).refused, (r.log .upstream).answered)) =
      some ([(7, ⟨⟨.v4 0x64400002, 53⟩, ⟨.v4 0x0a000001, 4000⟩, 1000000000⟩)],
        [⟨some 0, 8000000000, ()⟩], [⟨some 0, 10000000000,
          ⟨[0, 7], ⟨.v4 0x64400002, 53⟩, ⟨.v4 0x0a000001, 4000⟩⟩⟩]) := by
    decide +kernel
  obtain ⟨r, hr, hout⟩ := Option.map_eq_some_iff.mp hrun
  simp only [Prod.mk.injEq] at hout
  obtain ⟨hrequests, hrefused, hanswered⟩ := hout
  refine ⟨r, hr, hrequests, hrefused, hanswered, fun hon => ?_⟩
  have hlate := (hon .upstream).1 _ (by rw [hanswered]; exact List.mem_cons_self)
  exact absurd (hlate.of_lookup rfl (by rw [hrequests]; rfl)) (by decide)

/-- A query is forwarded after one second and swept after half a minute. The response to it comes a
second later and finds nothing; another client asks with its identifier, and has its response after
two seconds. -/
def sweptActs : List DnsLoopAct :=
  [.tick, .elapse 1000000000, asksUpstream 7 4000, .elapse 29000000000, .tick, .elapse 1000000000,
    .response (some [0, 7]) .queued, asksUpstream 7 4001, .elapse 2000000000,
    .response (some [0, 7]) .queued]

theorem expired_requests_swept :
    RunAll (DnsRun.step fun _ => none) (DnsRun.Timely fun _ => none) (.new upstreamLoop) sweptActs ∧
    ∃ r, run (DnsRun.step fun _ => none) (.new upstreamLoop) sweptActs = some r ∧
      (r.log .upstream).requests.length = 2 ∧ (r.log .upstream).refused = [] ∧
      (r.log .upstream).answered = [⟨some 1, 33000000000,
        ⟨[0, 7], ⟨.v4 0x64400002, 53⟩, ⟨.v4 0x0a000001, 4001⟩⟩⟩] ∧ r.OnTime := by
  have hrun : (run (DnsRun.step fun _ => none) (.new upstreamLoop) sweptActs).map (fun r =>
      ((r.log .upstream).requests.length, (r.log .upstream).refused, (r.log .upstream).answered)) =
      some (2, [], [⟨some 1, 33000000000,
        ⟨[0, 7], ⟨.v4 0x64400002, 53⟩, ⟨.v4 0x0a000001, 4001⟩⟩⟩]) := by
    decide +kernel
  have htimely : RunAll (DnsRun.step fun _ => none) (DnsRun.Timely fun _ => none) (.new upstreamLoop)
      sweptActs := by
    decide +kernel
  obtain ⟨r, hr, hout⟩ := Option.map_eq_some_iff.mp hrun
  simp only [Prod.mk.injEq] at hout
  exact ⟨htimely, r, hr, hout.1, hout.2.1, hout.2.2,
    (expired_requests hr).2.2.mp htimely sweptActs r (List.prefix_refl _) hr⟩

end Runs

end Noa.Tunnel.Intercept
