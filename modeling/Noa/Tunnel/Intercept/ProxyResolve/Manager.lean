import Noa.Edge.Wire
import Noa.Tunnel.Resolve.Target
import Noa.Tunnel.Intercept.DnsServer.Serializer

namespace Noa.Tunnel.Intercept.ProxyResolve
open Noa.Framework Noa.Channel Noa.Tunnel.Resolve

/-! The messages of the hosting resolver. -/

/-- The fields of an answer that are read. -/
structure WireAnswer where
  atype : Int64
  ttl : Int64
  priority : Int64
  weight : Int64
  port : Int64
  data : Option Text

/-- The fields of a message that are read. -/
structure WireMsg where
  id : Int64
  answer : Option (List WireAnswer)

structure PeerResponse where
  id : UInt16
  answers : Option (List RespAnswer)
  deriving DecidableEq

/-- The record types that are formatted from their data: MX, TXT and SRV. -/
def needsData (atype : Int64) : Bool := atype == 15 || atype == 16 || atype == 33

def WireAnswer.toRespAnswer (a : WireAnswer) : Option RespAnswer :=
  match a.data with
  | some data => some ⟨a.atype, a.ttl, a.priority, a.weight, a.port, data⟩
  | none =>
    if needsData a.atype then none
    else some ⟨a.atype, a.ttl, a.priority, a.weight, a.port, []⟩

/-- `fromSlice` reads the JSON of a message, if it is one. -/
def parsePeerResponse (fromSlice : Bytes → Option WireMsg) (chunk : Bytes) : Option PeerResponse := do
  let msg ← fromSlice chunk
  let answers ← match msg.answer with
    | none => some none
    | some list => (list.mapM WireAnswer.toRespAnswer).map some
  return ⟨msg.id.toUInt64.toUInt16, answers⟩

/-! The manager and the connection tasks. -/

/-- Nanoseconds. -/
def proxyPendingTimeout : Nat := 5000000000

def resolveAppData : Bytes := Edge.strBytes "\x7b\"connType\":\"resolver\"\x7d"

structure ProxyQuery where
  domain : Text
  id : UInt16
  nameStrlen : Nat
  json : Bytes

inductive ProxyEvent where
  | data (chunk : Bytes)
  | writeFailed (id : UInt16)
  deriving DecidableEq

structure ProxyJob where
  id : UInt16
  json : Bytes
  deriving DecidableEq

/-- What a task asks the edge client to connect to. -/
structure Dial where
  service : Text
  timeout : Nat
  appData : Bytes

/-- Where the task of a connection waits. -/
inductive TaskState where
  | dialing
  | serving
  | writing (job : ProxyJob)
  | ended

/-- The task of one connection, with its queue of jobs and the flag it shares with its handle;
jobs are refused once the queue's receiver is gone. -/
structure ProxyTask where
  domain : Text
  dial : Dial
  state : TaskState
  jobs : List ProxyJob
  receiving : Bool
  closed : Bool

def ProxyTask.spawn (service : Text) (timeout : Nat) (domain : Text) : ProxyTask :=
  ⟨domain, ⟨service, timeout, resolveAppData⟩, .dialing, [], true, false⟩

/-- A handle holds the sending end of a task's queue and its flag: the number of the task. -/
structure ProxyConnHandle where
  task : Nat
  service : Text

structure ProxyPending where
  packet : Bytes
  nameStrlen : Nat
  serverAddr : SocketAddr
  clientAddr : SocketAddr
  registeredAt : Nat

/-- The manager, the tasks it has spawned in order, and the channel of their events. An event in the
channel is kept with the task that sent it, which the manager does not see. -/
structure ProxyDns where
  conns : Std.ExtTreeMap Text ProxyConnHandle
  pending : Std.ExtTreeMap UInt16 ProxyPending
  tasks : List ProxyTask
  events : List (Nat × ProxyEvent)

namespace ProxyDns

def new : ProxyDns := ⟨∅, ∅, [], []⟩

def isClosed (s : ProxyDns) (h : ProxyConnHandle) : Bool := (s.tasks[h.task]?).any (·.closed)

/-- The handle of a domain: a closed one or one of another service is evicted, a missing one is
made with a new task. -/
def liveHandle (s : ProxyDns) (service : Text) (timeout : Nat) (domain : Text) :
    ProxyConnHandle × ProxyDns :=
  let evict := s.conns[domain]?.any fun h => s.isClosed h || h.service != service
  let s := if evict then { s with conns := s.conns.erase domain } else s
  match s.conns[domain]? with
  | some h => (h, s)
  | none =>
    let h := ⟨s.tasks.length, service⟩
    (h, { s with
      conns := s.conns.insert domain h
      tasks := s.tasks ++ [.spawn service timeout domain] })

/-- `jobs_tx.send`, which fails when the receiver is gone. -/
def send (s : ProxyDns) (h : ProxyConnHandle) (job : ProxyJob) : Option ProxyDns :=
  if (s.tasks[h.task]?).any (·.receiving) then
    some { s with tasks := s.tasks.modify h.task fun t => { t with jobs := t.jobs ++ [job] } }
  else none

def sendJob (s : ProxyDns) (service : Text) (timeout : Nat) (domain : Text) (job : ProxyJob) :
    ProxyDns :=
  let (handle, s) := s.liveHandle service timeout domain
  match s.send handle job with
  | some s => s
  | none =>
    let (fresh, s) := { s with conns := s.conns.erase domain }.liveHandle service timeout domain
    (s.send fresh job).getD s

def ensureConn (s : ProxyDns) (service : Text) (timeout : Nat) (domain : Text) : ProxyDns :=
  (s.liveHandle service timeout domain).2

/-- A query whose identifier is pending is dropped, one without a service fails at once, any other
is handed to the connection of its domain and registered. -/
def handleForward (s : ProxyDns) (service : Option (Text × Nat)) (q : ProxyQuery) (packet : Bytes)
    (serverAddr clientAddr : SocketAddr) (recursionAvailable : Bool) (now : Nat) :
    Option Bytes × ProxyDns :=
  if q.id ∈ s.pending then (none, s)
  else match service with
    | none =>
      (some (formatRespAnswers packet q.nameStrlen dnsServfail none 0 recursionAvailable), s)
    | some (service, timeout) =>
      let s := s.sendJob service timeout q.domain ⟨q.id, q.json⟩
      (none, { s with
        pending := s.pending.insert q.id ⟨packet, q.nameStrlen, serverAddr, clientAddr, now⟩ })

/-- Remove a pending query and format its response. -/
def complete (s : ProxyDns) (id : UInt16) (status : UInt8) (answers : Option (List RespAnswer))
    (recursionAvailable : Bool) : Option (Bytes × SocketAddr × SocketAddr) × ProxyDns :=
  match s.pending[id]? with
  | none => (none, s)
  | some p =>
    (some (formatRespAnswers p.packet p.nameStrlen status answers 0 recursionAvailable,
      p.serverAddr, p.clientAddr), { s with pending := s.pending.erase id })

def onEvent (fromSlice : Bytes → Option WireMsg) (s : ProxyDns) (ev : ProxyEvent)
    (recursionAvailable : Bool) : Option (Bytes × SocketAddr × SocketAddr) × ProxyDns :=
  match ev with
  | .writeFailed id => s.complete id dnsServfail none recursionAvailable
  | .data chunk =>
    match parsePeerResponse fromSlice chunk with
    | none => (none, s)
    | some resp => s.complete resp.id dnsNoError resp.answers recursionAvailable

def evictExpired (s : ProxyDns) (now : Nat) : ProxyDns :=
  { s with
    pending := s.pending.filter fun _ p => decide (now - p.registeredAt ≤ proxyPendingTimeout)
    conns := s.conns.filter fun _ h => !s.isClosed h }

end ProxyDns

/-- What the task of a connection wakes up for. -/
inductive TaskTurn where
  | dialed (ok : Bool)
  | takeJob
  | wrote (ok : Bool)
  | chunk (data : Bytes)
  | readEnded
  | handleDropped
  | aborted

/-- The end of the task: the flag is set, and the jobs left in the queue fail. -/
def ProxyTask.finish (t : ProxyTask) : List ProxyEvent × ProxyTask :=
  (t.jobs.map fun job => .writeFailed job.id,
    { t with closed := true, receiving := false, jobs := [], state := .ended })

/-- One turn of the task between two waits, with the events it sends. The queue ends for the task
when it is empty and the handle is gone; an aborted task is dropped where it waits. -/
def ProxyTask.turn (t : ProxyTask) (hasHandle : Bool) :
    TaskTurn → Option (List ProxyEvent × ProxyTask)
  | .dialed ok =>
    match t.state with
    | .dialing => some (if ok then ([], { t with state := .serving }) else t.finish)
    | _ => none
  | .takeJob =>
    match t.state, t.jobs with
    | .serving, job :: rest => some ([], { t with state := .writing job, jobs := rest })
    | _, _ => none
  | .wrote ok =>
    match t.state with
    | .writing job =>
      if ok then some ([], { t with state := .serving })
      else
        let (failed, t) := t.finish
        some (.writeFailed job.id :: failed, t)
    | _ => none
  | .chunk data =>
    match t.state with
    | .serving => some ([.data data], t)
    | _ => none
  | .readEnded =>
    match t.state with
    | .serving => some t.finish
    | _ => none
  | .handleDropped =>
    match t.state, t.jobs with
    | .serving, [] => if hasHandle then none else some t.finish
    | _, _ => none
  | .aborted =>
    match t.state with
    | .ended => none
    | _ => some ([], { t with receiving := false, jobs := [], state := .ended })

/-- One turn of the task with a number. -/
def ProxyDns.taskTurn (s : ProxyDns) (n : Nat) (turn : TaskTurn) : Option ProxyDns := do
  let t ← s.tasks[n]?
  let (sent, t) ← t.turn (s.conns.values.any (·.task == n)) turn
  return { s with tasks := s.tasks.set n t, events := s.events ++ sent.map fun ev => (n, ev) }

end Noa.Tunnel.Intercept.ProxyResolve
