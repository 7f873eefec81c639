import Noa.Edge.Data.Accept
import Noa.Framework.Program

namespace Noa.Edge.Data
open Noa.Framework Noa.Channel

/-- The atomic accesses and the waits of the tasks on one channel, with what they answer. -/
inductive Cmd : Type → Type
  | nextConnId : Cmd UInt32
  | nextSeq : Cmd Int32
  | isClosed : Cmd Bool
  | registerConn (connId : UInt32) : Cmd SenderId
  | registerBind (connId : UInt32) : Cmd SenderId
  | insertWaiter (seq : Int32) : Cmd SenderId
  | removeWaiter (seq : Int32) : Cmd Unit
  | removeConn (connId : UInt32) : Cmd Unit
  | removeBind (connId : UInt32) : Cmd Unit
  | closeCas : Cmd Bool
  | notifyWaiters : Cmd Unit
  | clearWaiters : Cmd Unit
  | clearConns : Cmd Unit
  | clearBinds : Cmd Unit
  | write (msg : Message) : Cmd (Except ChannelError Unit)
  | writeTimeout (msg : Message) : Cmd (Option (Except ChannelError Unit))
  | recv (rx : SenderId) : Cmd (Option Message)
  | recvTimeout (rx : SenderId) : Cmd (Option (Option Message))

abbrev Proc := Program Cmd

namespace Proc

def nextConnId : Proc UInt32 := .lift .nextConnId
def nextSeq : Proc Int32 := .lift .nextSeq
def isClosed : Proc Bool := .lift .isClosed
def registerConn (connId : UInt32) : Proc SenderId := .lift (.registerConn connId)
def registerBind (connId : UInt32) : Proc SenderId := .lift (.registerBind connId)
def insertWaiter (seq : Int32) : Proc SenderId := .lift (.insertWaiter seq)
def removeWaiter (seq : Int32) : Proc Unit := .lift (.removeWaiter seq)
def removeConn (connId : UInt32) : Proc Unit := .lift (.removeConn connId)
def removeBind (connId : UInt32) : Proc Unit := .lift (.removeBind connId)
def write (msg : Message) : Proc (Except ChannelError Unit) := .lift (.write msg)
def recv (rx : SenderId) : Proc (Option Message) := .lift (.recv rx)
def recvTimeout (rx : SenderId) : Proc (Option (Option Message)) := .lift (.recvTimeout rx)

/-- Only the call that flips the flag wakes the loop and clears the tables. -/
def markClosed : Proc Unit := do
  if ← .lift .closeCas then
    .lift .notifyWaiters
    .lift .clearWaiters
    .lift .clearConns
    .lift .clearBinds
  else pure ()

/-- Best effort: the outcome of the write is ignored. -/
def sendDialFailed (connId : UInt32) (dialSeq : Int32) (reason : String) : Proc Unit := do
  let msg := withHeader (buildDialFailed connId reason) hdrReplyFor (i32ToLe dialSeq)
  let seq ← nextSeq
  let _ ← write { msg with sequence := seq }
  pure ()

end Proc

/-- A live connection; `dataRx` is the queue its reader drains. -/
structure EdgeConn (C : Crypto) where
  connId : UInt32
  circuitId : Option Bytes
  sourceIdentity : Option Bytes
  dataRx : SenderId
  crypto : Option (ConnCrypto C)

/-- The arguments of a dial and what it draws: its marker, key pair and stream nonce. -/
structure DialArgs (C : Crypto) where
  token : String
  marker : String
  keypair : Option C.KeyPair
  callerId : Option String
  appData : Option Bytes
  entropy : C.Entropy

section Operations
open Proc

variable {C : Crypto}

/-- After `StateConnected`: the key exchange, then our stream header as the first `Data`. -/
def establishClientCrypto (connId : UInt32) (keypair : Option C.KeyPair) (reply : Message)
    (e : C.Entropy) : Proc (Except EdgeError (Option (ConnCrypto C))) :=
  match clientCryptoSetup C keypair reply e with
  | .error err => pure (.error err)
  | .ok none => pure (.ok none)
  | .ok (some (crypto, header)) => do
    let seq ← nextSeq
    match ← write { buildData connId header true with sequence := seq } with
    | .error err => pure (.error (.channel err))
    | .ok () => pure (.ok (some crypto))

/-- `EdgeChannel::dial`: register the queue and the waiter before the `Connect` is sent. -/
def dial (a : DialArgs C) : Proc (Except EdgeError (EdgeConn C)) := do
  let connId ← nextConnId
  let seq ← nextSeq
  if ← isClosed then pure (.error .channelClosed)
  else
    let dataRx ← registerConn connId
    let replyRx ← insertWaiter seq
    let connect := buildConnect connId a.token a.marker (a.keypair.map C.publicKey) a.callerId
      a.appData
    match ← write { connect with sequence := seq } with
    | .error err =>
      markClosed
      pure (.error (.channel err))
    | .ok () =>
      match ← recv replyRx with
      | none =>
        removeConn connId
        pure (.error .channelClosed)
      | some reply =>
        match classifyDialReply reply with
        | .error err =>
          removeConn connId
          pure (.error err)
        | .ok connected =>
          match ← establishClientCrypto connId a.keypair connected a.entropy with
          | .error err =>
            removeConn connId
            pure (.error err)
          | .ok crypto =>
            pure (.ok ⟨connId, connected.headers[hdrCircuitId]?, none, dataRx, crypto⟩)

/-- `EdgeChannel::send_bind`: the id of the bind and the queue its dials arrive on. -/
def sendBind (token listenerId : String) (pubkey : Option Bytes) :
    Proc (Except EdgeError (UInt32 × SenderId)) := do
  let connId ← nextConnId
  let seq ← nextSeq
  let replyRx ← insertWaiter seq
  let bindRx ← registerBind connId
  match ← write { buildBind connId token listenerId pubkey with sequence := seq } with
  | .error err =>
    removeWaiter seq
    removeBind connId
    pure (.error (.channel err))
  | .ok () =>
    match ← recv replyRx with
    | none =>
      removeBind connId
      pure (.error .channelClosed)
    | some reply =>
      match classifyBindReply reply with
      | .ok () => pure (.ok (connId, bindRx))
      | .error err =>
        removeBind connId
        pure (.error err)

/-- `ChannelState::update_token`. -/
def updateToken (token : String) : Proc (Except EdgeError Unit) := do
  let seq ← nextSeq
  let replyRx ← insertWaiter seq
  match ← write { buildUpdateToken (strBytes token) with sequence := seq } with
  | .error err =>
    removeWaiter seq
    pure (.error (.channel err))
  | .ok () =>
    match ← recvTimeout replyRx with
    | some (some reply) => pure (classifyUpdateTokenReply reply)
    | some none => pure (.error .channelClosed)
    | none =>
      removeWaiter seq
      pure (.error (.updateTokenFailed (strBytes "timed out waiting for UpdateToken reply")))

inductive ProbeOutcome where
  | alive
  | closed
  | timeout
  | writeError
  deriving DecidableEq, Repr

/-- `ChannelState::send_latency_probe`; the write is bounded by the timeout as well. -/
def sendLatencyProbe (nowNanos : UInt64) : Proc ProbeOutcome := do
  let seq ← nextSeq
  let replyRx ← insertWaiter seq
  match ← .lift (.writeTimeout { buildLatencyProbe nowNanos with sequence := seq }) with
  | some (.ok ()) =>
    match ← recvTimeout replyRx with
    | some (some _) => pure .alive
    | some none => pure .closed
    | none =>
      removeWaiter seq
      pure .timeout
  | _ =>
    removeWaiter seq
    pure .writeError

/-- Await the router's start acknowledgement of a child with an id of our own. -/
def awaitStartReply (childId : UInt32) (dialSeq replySeq : Int32) (startRx : SenderId) :
    Proc (Except EdgeError Unit) := do
  match ← recvTimeout startRx with
  | some (some start) =>
    if start.contentType = ctStateConnected then pure (.ok ())
    else
      let seq ← nextSeq
      let _ ← write { buildStateClosed childId with sequence := seq }
      removeConn childId
      pure (.error (.acceptStartFailed
        s!"failed to receive start after dial. got {start.contentType.toInt}"))
  | _ =>
    removeWaiter replySeq
    removeConn childId
    sendDialFailed childId dialSeq "start reply not received"
    pure (.error (.acceptStartFailed "start reply not received"))

/-- The stream header of an encrypted child, after the start handshake. -/
def finishAccept (p : PendingAccept C) : Proc (Except EdgeError (EdgeConn C)) :=
  match p.cryptoSetup with
  | none => pure (.ok ⟨p.childId, p.circuitId, p.sourceIdentity, p.dataTx, none⟩)
  | some (crypto, header) => do
    let seq ← nextSeq
    match ← write { buildData p.childId header true with sequence := seq } with
    | .error err =>
      removeConn p.childId
      pure (.error (.channel err))
    | .ok () => pure (.ok ⟨p.childId, p.circuitId, p.sourceIdentity, p.dataTx, some crypto⟩)

/-- `PendingAccept::complete_success`: only a child with an id of our own waits for the start. -/
def completeSuccess (p : PendingAccept C) : Proc (Except EdgeError (EdgeConn C)) := do
  let closed ← if p.routerProvided then pure false else isClosed
  if closed then
    removeConn p.childId
    sendDialFailed p.childId p.dialSeq "start reply not received"
    pure (.error (.acceptStartFailed "start reply not received"))
  else
    let reply := withHeader (buildDialSuccess p.bindConnId p.childId) hdrReplyFor
      (i32ToLe p.dialSeq)
    let seq ← nextSeq
    if p.routerProvided then
      match ← write { reply with sequence := seq } with
      | .error err =>
        removeConn p.childId
        pure (.error (.channel err))
      | .ok () => finishAccept p
    else
      let startRx ← insertWaiter seq
      match ← write { reply with sequence := seq } with
      | .error err =>
        removeWaiter seq
        removeConn p.childId
        pure (.error (.channel err))
      | .ok () =>
        match ← awaitStartReply p.childId p.dialSeq seq startRx with
        | .error err => pure (.error err)
        | .ok () => finishAccept p

/-- `PendingAccept::complete_failed`. -/
def completeFailed (p : PendingAccept C) (reason : String) : Proc Unit := do
  sendDialFailed p.bindConnId p.dialSeq reason
  let seq ← nextSeq
  let _ ← write { buildStateClosed p.childId with sequence := seq }
  removeConn p.childId

/-- `EdgeWriteHalf::close`, as far as the channel sees it. -/
def closeConn (connId : UInt32) : Proc (Except EdgeError Unit) := do
  let seq ← nextSeq
  match ← write { buildStateClosed connId with sequence := seq } with
  | .error err => pure (.error (.channel err))
  | .ok () =>
    removeConn connId
    pure (.ok ())

end Operations

/-- What the tasks of a channel share: its state, what each `oneshot` was sent, the frames on
the wire, and which tables were cleared after the flag was set. -/
structure Shared where
  chan : ChannelState
  replies : SenderId → Option Message
  wire : List Message
  waitersCleared : Bool
  connsCleared : Bool
  bindsCleared : Bool

def Shared.new : Shared := ⟨.new, fun _ => none, [], false, false, false⟩

/-- How a wait ends; atomic accesses take any. -/
inductive Choice where
  | done
  | failed (e : ChannelError)
  | elapsed

/-- The sender is still registered as a waiter. -/
def ChannelState.holds (st : ChannelState) (tx : SenderId) : Bool :=
  st.waiters.toList.any fun kv => kv.2 == tx

/-- A `oneshot` receiver: what was sent, or that the sender is gone; `none` while it waits. -/
def Shared.resolve (s : Shared) (rx : SenderId) : Option (Option Message) :=
  match s.replies rx with
  | some msg => some (some msg)
  | none => if s.chan.holds rx then none else some none

namespace Cmd

/-- A frame handed to the transport. -/
def writeFrame (s : Shared) (msg : Message) : Shared := { s with wire := s.wire ++ [msg] }

def exec {β : Type} (c : Cmd β) (x : Choice) (s : Shared) : Option (β × Shared) :=
  match c with
  | .nextConnId => s.chan.nextConnId.map fun r => (r.1, { s with chan := r.2 })
  | .nextSeq => some (s.chan.nextSeq.1, { s with chan := s.chan.nextSeq.2 })
  | .isClosed => some (s.chan.closed, s)
  | .registerConn connId =>
    some (s.chan.senders, { s with chan := s.chan.access (.registerConn connId) })
  | .registerBind connId =>
    some (s.chan.senders, { s with chan := s.chan.access (.registerBind connId) })
  | .insertWaiter seq => some (s.chan.senders, { s with chan := s.chan.access (.insertWaiter seq) })
  | .removeWaiter seq => some ((), { s with chan := s.chan.removeWaiter seq })
  | .removeConn connId => some ((), { s with chan := s.chan.removeConn connId })
  | .removeBind connId => some ((), { s with chan := s.chan.removeBind connId })
  | .closeCas => some (!s.chan.closed, { s with chan := s.chan.access .setClosed })
  | .notifyWaiters => some ((), s)
  | .clearWaiters =>
    some ((), { s with chan := s.chan.access .clearWaiters, waitersCleared := s.chan.closed })
  | .clearConns =>
    some ((), { s with chan := s.chan.access .clearConns, connsCleared := s.chan.closed })
  | .clearBinds =>
    some ((), { s with chan := s.chan.access .clearBinds, bindsCleared := s.chan.closed })
  | .write msg =>
    match x with
    | .done => some (.ok (), writeFrame s msg)
    | .failed e => some (.error e, s)
    | .elapsed => none
  | .writeTimeout msg =>
    match x with
    | .done => some (some (.ok ()), writeFrame s msg)
    | .failed e => some (some (.error e), s)
    | .elapsed => some (none, s)
  | .recv rx => (s.resolve rx).map fun r => (r, s)
  | .recvTimeout rx =>
    match s.resolve rx with
    | some r => some (some r, s)
    | none => match x with
      | .elapsed => some (none, s)
      | _ => none

/-- The commands that wait, where a caller's timeout can interrupt. -/
def isAwait {β : Type} : Cmd β → Bool
  | .write _ => true
  | .writeTimeout _ => true
  | .recv _ => true
  | .recvTimeout _ => true
  | _ => false

end Cmd

/-- The receive loop hands a reply to the waiter it names. -/
def Shared.deliver (s : Shared) (seq : Int32) (msg : Message) : Option Shared :=
  s.chan.waiters[seq]?.map fun tx =>
    { s with
      chan := s.chan.removeWaiter seq
      replies := Function.update s.replies tx (some msg) }

theorem ChannelState.holds_iff (st : ChannelState) (tx : SenderId) :
    st.holds tx = true ↔ ∃ k : Int32, st.waiters[k]? = some tx := by
  simp only [holds, List.any_eq_true, beq_iff_eq, Prod.exists,
    Std.ExtTreeMap.mem_toList_iff_getElem?_eq_some]
  exact ⟨fun ⟨k, v, h, hv⟩ => ⟨k, hv ▸ h⟩, fun ⟨k, h⟩ => ⟨k, tx, h, rfl⟩⟩

/-- A command that waits changes at most what was written. -/
theorem Cmd.exec_await {β : Type} {c : Cmd β} {x : Choice} {s : Shared} {r : β × Shared}
    (hc : c.isAwait = true) (h : c.exec x s = some r) : ∃ wire, r.2 = { s with wire := wire } := by
  cases c with
  | write msg | writeTimeout msg => cases x <;> cases h <;> exact ⟨_, rfl⟩
  | recv rx =>
    obtain ⟨_, -, rfl⟩ := Option.map_eq_some_iff.mp h
    exact ⟨_, rfl⟩
  | recvTimeout rx =>
    simp only [Cmd.exec] at h
    split at h
    · cases h
      exact ⟨_, rfl⟩
    · split at h
      · cases h
        exact ⟨_, rfl⟩
      · cases h
  | _ => cases hc

/-- Every command is at most one access to the shared tables, and sends no reply. -/
theorem Cmd.exec_access {β : Type} {c : Cmd β} {x : Choice} {s : Shared} {r : β × Shared}
    (h : c.exec x s = some r) :
    (r.2.chan = s.chan ∨ ∃ a, r.2.chan = s.chan.access a) ∧ r.2.replies = s.replies := by
  cases c with
  | nextConnId =>
    obtain ⟨⟨id, st⟩, hn, rfl⟩ := Option.map_eq_some_iff.mp h
    obtain ⟨-, -, rfl⟩ := ChannelState.nextConnId_spec hn
    exact ⟨.inr ⟨.storeCounter id, rfl⟩, rfl⟩
  | nextSeq => cases h; exact ⟨.inr ⟨.nextSeq, rfl⟩, rfl⟩
  | registerConn connId => cases h; exact ⟨.inr ⟨.registerConn connId, rfl⟩, rfl⟩
  | registerBind connId => cases h; exact ⟨.inr ⟨.registerBind connId, rfl⟩, rfl⟩
  | insertWaiter seq => cases h; exact ⟨.inr ⟨.insertWaiter seq, rfl⟩, rfl⟩
  | removeWaiter seq => cases h; exact ⟨.inr ⟨.removeWaiter seq, rfl⟩, rfl⟩
  | removeConn connId => cases h; exact ⟨.inr ⟨.removeConn connId, rfl⟩, rfl⟩
  | removeBind connId => cases h; exact ⟨.inr ⟨.removeBind connId, rfl⟩, rfl⟩
  | closeCas => cases h; exact ⟨.inr ⟨.setClosed, rfl⟩, rfl⟩
  | clearWaiters => cases h; exact ⟨.inr ⟨.clearWaiters, rfl⟩, rfl⟩
  | clearConns => cases h; exact ⟨.inr ⟨.clearConns, rfl⟩, rfl⟩
  | clearBinds => cases h; exact ⟨.inr ⟨.clearBinds, rfl⟩, rfl⟩
  | isClosed | notifyWaiters => cases h; exact ⟨.inl rfl, rfl⟩
  | write | writeTimeout | recv | recvTimeout =>
    obtain ⟨wire, hr⟩ := exec_await rfl h
    rw [hr]
    exact ⟨.inl rfl, rfl⟩

end Noa.Edge.Data
