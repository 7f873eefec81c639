import Noa.Tunnel.Intercept.DnsServer.Router

namespace Noa.Tunnel.Intercept
open Noa.Framework Noa.Channel Noa.Tunnel.Resolve

/-! The queries that are forwarded to the upstream servers. -/

/-- Nanoseconds. -/
def dnsUpstreamTimeout : Nat := 5000000000

/-- The size of the buffer a response is received in: a longer one is cut. -/
def dnsUpstreamBuf : Nat := 4096

structure PendingUpstream where
  serverAddr : SocketAddr
  clientAddr : SocketAddr
  registeredAt : Nat
  deriving DecidableEq

structure UpstreamDns where
  servers : List SocketAddr
  pending : Std.ExtTreeMap UInt16 PendingUpstream

namespace UpstreamDns

/-- Forward a request to the servers. `sends` says for which `try_send_to` succeeds. An identifier that
is in flight is not sent again. -/
def forward (u : UpstreamDns) (sends : SocketAddr → Bool) (request : Bytes)
    (serverAddr clientAddr : SocketAddr) (now : Nat) : Bool × UpstreamDns :=
  let id := u16FromBe (request.getD 0 0) (request.getD 1 0)
  if id ∈ u.pending then (true, u)
  else if u.servers.any sends then
    (true, { u with pending := u.pending.insert id ⟨serverAddr, clientAddr, now⟩ })
  else (false, u)

/-- Whom a response goes to, by its identifier. -/
def matchResponse (u : UpstreamDns) (response : Bytes) :
    Option (SocketAddr × SocketAddr) × UpstreamDns :=
  if response.length < 2 then (none, u)
  else
    let id := u16FromBe (response.getD 0 0) (response.getD 1 0)
    match u.pending[id]? with
    | none => (none, u)
    | some p => (some (p.serverAddr, p.clientAddr), { u with pending := u.pending.erase id })

def evictExpired (u : UpstreamDns) (now : Nat) : UpstreamDns :=
  { u with
    pending := u.pending.filter fun _ p => decide (now - p.registeredAt ≤ dnsUpstreamTimeout) }

end UpstreamDns

/-! The manager loop, as far as it serves the embedded resolver: datagrams to other addresses and the
reaping of their connections do not touch the tables of queries. -/

/-- Nanoseconds. -/
def vconnPollInterval : Nat := 30000000000

def dnsServerPort : UInt16 := 53

def isDnsServerDatagram (dst : SocketAddr) (dnsServerIp : Option (BitVec 32)) : Bool :=
  match dnsServerIp with
  | some ip => dst.ip == .v4 ip && dst.port == dnsServerPort
  | none => false

/-- The timer of the loop: a tick is due from its deadline on, and the ticks that were missed are
skipped. -/
structure Ticker where
  period : Nat
  deadline : Nat

def Ticker.next (t : Ticker) (now : Nat) : Ticker :=
  { t with deadline := now + t.period - (now - t.deadline) % t.period }

/-- What becomes of a reply in the queue to the stack. -/
inductive Egress where
  | queued
  | full
  | closed
  deriving DecidableEq

/-- A reply: its bytes, the address it comes from and the client it goes to. -/
structure DnsReply where
  bytes : Bytes
  serverAddr : SocketAddr
  clientAddr : SocketAddr
  deriving DecidableEq

structure DnsLoop where
  dnsServerIp : Option (BitVec 32)
  upstream : Option UpstreamDns
  proxy : Option ProxyResolve.ProxyDns
  ticker : Ticker
  now : Nat
  ended : Bool

/-- What the loop wakes up for, or time that passes. The resolver is shared with the rest of the
tunneler, so a datagram meets some matcher and some owners of the domains. -/
inductive DnsLoopAct where
  | elapse (nanos : Nat)
  | datagram (dns : DnsMatcher) (proxyService : Text → Option (Text × Nat))
      (sends : SocketAddr → Bool) (egress : Egress) (payload : Bytes) (dst src : SocketAddr)
  | response (received : Option Bytes) (egress : Egress)
  | event (egress : Egress)
  | task (n : Nat) (turn : ProxyResolve.TaskTurn)
  | tick

namespace DnsLoop

/-- The loop at its start: the first tick is due at once. -/
def new (dnsServerIp : Option (BitVec 32)) (servers : Option (List SocketAddr)) (pollInterval : Nat) :
    DnsLoop :=
  ⟨dnsServerIp, servers.map (⟨·, ∅⟩), dnsServerIp.map fun _ => .new, ⟨pollInterval, 0⟩, 0, false⟩

/-- The loop ends when the queue of a reply is closed. -/
def sendDnsReply (s : DnsLoop) (egress : Egress) (reply : Option DnsReply) :
    Option DnsReply × DnsLoop :=
  (reply, if reply.isSome && egress == .closed then { s with ended := true } else s)

/-- `handle_query` forwards to an upstream or a proxy that is there only. -/
def serveDnsDatagram (s : DnsLoop) (dns : DnsMatcher) (proxyService : Text → Option (Text × Nat))
    (sends : SocketAddr → Bool) (payload : Bytes) (dst src : SocketAddr) :
    Option DnsReply × DnsLoop :=
  match (handleQuery dns payload s.upstream.isSome s.proxy.isSome).1, s.upstream, s.proxy with
  | .respond bytes, _, _ => (some ⟨bytes, dst, src⟩, s)
  | .forwardUpstream onSendFailure, some up, _ =>
    let (sent, up) := up.forward sends payload dst src s.now
    (if sent then none else some ⟨onSendFailure, dst, src⟩, { s with upstream := some up })
  | .forwardProxy q, _, some p =>
    let (response, p) :=
      p.handleForward (proxyService q.domain) q payload dst src s.upstream.isSome s.now
    (response.map (⟨·, dst, src⟩), { s with proxy := some p })
  | .respondAndConnectProxy response domain, _, some p =>
    let p := match proxyService domain with
      | some (service, timeout) => p.ensureConn service timeout domain
      | none => p
    (some ⟨response, dst, src⟩, { s with proxy := some p })
  | _, _, _ => (none, s)

/-- One turn of the loop, with the reply it sends. -/
def step (fromSlice : Bytes → Option ProxyResolve.WireMsg) (s : DnsLoop) (act : DnsLoopAct) :
    Option (Option DnsReply × DnsLoop) :=
  if s.ended then none
  else match act with
  | .elapse nanos => some (none, { s with now := s.now + nanos })
  | .datagram dns proxyService sends egress payload dst src =>
    if isDnsServerDatagram dst s.dnsServerIp then
      let (reply, s) := s.serveDnsDatagram dns proxyService sends payload dst src
      some (s.sendDnsReply egress reply)
    else some (none, s)
  | .response received egress => do
    let up ← s.upstream
    match received with
    | none => some (none, s)
    | some bytes =>
      let bytes := bytes.take dnsUpstreamBuf
      let (addrs, up) := up.matchResponse bytes
      some ({ s with upstream := some up }.sendDnsReply egress
        (addrs.map fun (serverAddr, clientAddr) => ⟨bytes, serverAddr, clientAddr⟩))
  | .event egress => do
    let p ← s.proxy
    match p.events with
    | [] => none
    | (_, ev) :: rest =>
      let (out, p) := { p with events := rest }.onEvent fromSlice ev s.upstream.isSome
      some ({ s with proxy := some p }.sendDnsReply egress
        (out.map fun (bytes, serverAddr, clientAddr) => ⟨bytes, serverAddr, clientAddr⟩))
  | .task n turn => do
    let p ← (← s.proxy).taskTurn n turn
    some (none, { s with proxy := some p })
  | .tick =>
    if s.ticker.deadline ≤ s.now then
      some (none, { s with
        ticker := s.ticker.next s.now
        upstream := s.upstream.map (·.evictExpired s.now)
        proxy := s.proxy.map (·.evictExpired s.now) })
    else none

end DnsLoop

end Noa.Tunnel.Intercept
