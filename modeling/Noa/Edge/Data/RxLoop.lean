import Noa.Edge.Data.ChannelState

namespace Noa.Edge.Data
open Noa.Framework Noa.Channel

/-- An inbound frame with its position in the order the transport delivered them. -/
structure Frame where
  index : Nat
  msg : Message
  deriving DecidableEq

/-- The table entry a queue was created for. -/
inductive Owner where
  | conn (connId : UInt32)
  | bind (connId : UInt32)
  deriving DecidableEq

/-- An `mpsc` channel: its buffer, what its receiver has taken so far, and whether the
receiver still exists. -/
structure Queue where
  owner : Option Owner
  buffer : List Frame
  received : List Frame
  receiverAlive : Bool

def queueCapacity : Nat := 4

namespace Queue

def push (q : Queue) (f : Frame) : Queue := { q with buffer := q.buffer ++ [f] }

/-- The receiver takes the head `f` of the buffer. -/
def pop (q : Queue) (f : Frame) (rest : List Frame) : Queue :=
  { q with buffer := rest, received := q.received ++ [f] }

def dropReceiver (q : Queue) : Queue := { q with buffer := [], receiverAlive := false }

end Queue

/-- Where the loop hands a frame over. -/
inductive Dest where
  | waiter (tx : SenderId)
  | queue (tx : SenderId)
  | inspect (connType : ConnType)
  deriving DecidableEq

/-- The points of the receive loop between two atomic accesses. -/
inductive Pc where
  | reading
  | correlate (f : Frame) (replyFor : Int32)
  | inspectConns (f : Frame) (connId : UInt32)
  | inspectBinds (f : Frame) (connId : UInt32)
  | lookupConns (f : Frame) (connId : UInt32)
  | lookupBinds (f : Frame) (connId : UInt32)
  | checkClosed (f : Frame) (tx : SenderId)
  | sending (f : Frame) (tx : SenderId)
  | stopped
  deriving DecidableEq

/-- The loop together with the shared state and the queues it feeds. `notified` is the
teardown's wake-up of a parked dispatch. -/
structure RxState where
  chan : ChannelState
  queues : SenderId → Queue
  inbound : List Frame
  delivered : List (Frame × Dest)
  pc : Pc
  notified : Bool

def RxState.new : RxState where
  chan := .new
  queues := fun _ => ⟨none, [], [], true⟩
  inbound := []
  delivered := []
  pc := .reading
  notified := false

/-- Routing by connection id and content type, once no waiter took the frame. -/
def routeFrame (f : Frame) : Pc :=
  match headerU32 f.msg hdrConnId with
  | none => .reading
  | some connId =>
    if f.msg.contentType = ctConnInspectRequest then .inspectConns f connId
    else if f.msg.contentType = ctDial then .lookupBinds f connId
    else if f.msg.contentType = ctData then .lookupConns f connId
    else if f.msg.contentType = ctStateClosed then .lookupConns f connId
    else .reading

/-- A frame that was just read: a readable `ReplyFor` is tried first. -/
def startFrame (f : Frame) : Pc :=
  match headerI32 f.msg hdrReplyFor with
  | some replyFor => .correlate f replyFor
  | none => routeFrame f

namespace RxState

def setQueue (s : RxState) (tx : SenderId) (q : Queue) : RxState :=
  { s with queues := Function.update s.queues tx q }

def deliver (s : RxState) (f : Frame) (d : Dest) : RxState :=
  { s with delivered := s.delivered ++ [(f, d)], pc := .reading }

/-- A send into a bounded queue: lost if the receiver is gone, parked while it is full. -/
def send (s : RxState) (f : Frame) (tx : SenderId) : Option RxState :=
  let q := s.queues tx
  if q.receiverAlive = false then some { s with pc := .reading }
  else if q.buffer.length < queueCapacity then
    some ((s.deliver f (.queue tx)).setQueue tx (q.push f))
  else none

/-- The loop's own next access; `none` while it waits for the transport, is parked, or has
ended. -/
def rxStep (s : RxState) : Option RxState :=
  match s.pc with
  | .reading => none
  | .correlate f replyFor =>
    match s.chan.waiters[replyFor]? with
    | some tx => some { s.deliver f (.waiter tx) with chan := s.chan.removeWaiter replyFor }
    | none => some { s with pc := routeFrame f }
  | .inspectConns f connId =>
    if connId ∈ s.chan.conns then some (s.deliver f (.inspect .dial))
    else some { s with pc := .inspectBinds f connId }
  | .inspectBinds f connId =>
    some (s.deliver f (.inspect (if connId ∈ s.chan.binds then .bind else .invalid)))
  | .lookupConns f connId =>
    match s.chan.conns[connId]? with
    | some tx => some { s with pc := .checkClosed f tx }
    | none => some { s with
        pc := if f.msg.contentType = ctStateClosed then .lookupBinds f connId else .reading }
  | .lookupBinds f connId =>
    match s.chan.binds[connId]? with
    | some tx => some { s with pc := .checkClosed f tx }
    | none => some { s with pc := .reading }
  | .checkClosed f tx => some { s with pc := if s.chan.closed then .stopped else .sending f tx }
  | .sending f tx => if s.notified then some { s with pc := .stopped } else s.send f tx
  | .stopped => none

/-- Another task's access; a registration also brings its queue into being. -/
def accessStep (s : RxState) (a : Access) : RxState :=
  let s' := { s with chan := s.chan.access a }
  match a with
  | .registerConn connId => s'.setQueue s.chan.senders ⟨some (.conn connId), [], [], true⟩
  | .registerBind connId => s'.setQueue s.chan.senders ⟨some (.bind connId), [], [], true⟩
  | _ => s'

end RxState

/-- One step of the loop or of its environment. -/
inductive RxAction where
  | read (msg : Message)
  | readFailed
  | rx
  | access (a : Access)
  | notify
  | recv (tx : SenderId)
  | dropReceiver (tx : SenderId)

namespace RxState

def step (s : RxState) : RxAction → Option RxState
  | .read msg =>
    match s.pc with
    | .reading =>
      let f : Frame := ⟨s.inbound.length, msg⟩
      some { s with inbound := s.inbound ++ [f], pc := startFrame f }
    | _ => none
  | .readFailed =>
    match s.pc with
    | .reading => some { s with pc := .stopped }
    | _ => none
  | .rx => s.rxStep
  | .access a => some (s.accessStep a)
  | .notify => if s.chan.closed then some { s with notified := true } else none
  | .recv tx =>
    match (s.queues tx).buffer with
    | [] => none
    | f :: rest => some (s.setQueue tx ((s.queues tx).pop f rest))
  | .dropReceiver tx => some (s.setQueue tx (s.queues tx).dropReceiver)

/-- Everything one step of the loop can do, with the guard it did it under. -/
inductive Rx (s : RxState) : RxState → Prop
  | correlated {f k tx} : s.pc = .correlate f k → s.chan.waiters[k]? = some tx →
      Rx s { s.deliver f (.waiter tx) with chan := s.chan.removeWaiter k }
  | uncorrelated {f k} : s.pc = .correlate f k → s.chan.waiters[k]? = none →
      Rx s { s with pc := routeFrame f }
  | inspected {f connId connType} :
      s.pc = .inspectConns f connId ∨ s.pc = .inspectBinds f connId →
      Rx s (s.deliver f (.inspect connType))
  | inspectNext {f connId} : s.pc = .inspectConns f connId →
      Rx s { s with pc := .inspectBinds f connId }
  | foundConn {f connId tx} : s.pc = .lookupConns f connId → s.chan.conns[connId]? = some tx →
      Rx s { s with pc := .checkClosed f tx }
  | missedConn {f connId} : s.pc = .lookupConns f connId → s.chan.conns[connId]? = none →
      f.msg.contentType = ctStateClosed → Rx s { s with pc := .lookupBinds f connId }
  | unknownConn {f connId} : s.pc = .lookupConns f connId → s.chan.conns[connId]? = none →
      f.msg.contentType ≠ ctStateClosed → Rx s { s with pc := .reading }
  | foundBind {f connId tx} : s.pc = .lookupBinds f connId → s.chan.binds[connId]? = some tx →
      Rx s { s with pc := .checkClosed f tx }
  | unknownBind {f connId} : s.pc = .lookupBinds f connId → s.chan.binds[connId]? = none →
      Rx s { s with pc := .reading }
  | checkedOpen {f tx} : s.pc = .checkClosed f tx → s.chan.closed = false →
      Rx s { s with pc := .sending f tx }
  | checkedClosed {f tx} : s.pc = .checkClosed f tx → s.chan.closed = true →
      Rx s { s with pc := .stopped }
  | woken {f tx} : s.pc = .sending f tx → s.notified = true → Rx s { s with pc := .stopped }
  | lost {f tx} : s.pc = .sending f tx → (s.queues tx).receiverAlive = false →
      Rx s { s with pc := .reading }
  | sent {f tx} : s.pc = .sending f tx → (s.queues tx).receiverAlive = true →
      (s.queues tx).buffer.length < queueCapacity →
      Rx s ((s.deliver f (.queue tx)).setQueue tx ((s.queues tx).push f))

theorem rxStep_rx {s s' : RxState} (h : s.rxStep = some s') : Rx s s' := by
  unfold rxStep at h
  split at h
  case h_1 => cases h
  case h_2 f k hpc =>
    split at h
    case h_1 tx hw => cases h; exact .correlated hpc hw
    case h_2 hw => cases h; exact .uncorrelated hpc hw
  case h_3 f connId hpc =>
    split_ifs at h
    · cases h; exact .inspected (.inl hpc)
    · cases h; exact .inspectNext hpc
  case h_4 f connId hpc => cases h; exact .inspected (.inr hpc)
  case h_5 f connId hpc =>
    split at h
    case h_1 tx hc => cases h; exact .foundConn hpc hc
    case h_2 hc =>
      cases h
      split_ifs with hct
      · exact .missedConn hpc hc hct
      · exact .unknownConn hpc hc hct
  case h_6 f connId hpc =>
    split at h
    case h_1 tx hb => cases h; exact .foundBind hpc hb
    case h_2 hb => cases h; exact .unknownBind hpc hb
  case h_7 f tx hpc =>
    cases h
    split_ifs with hcl
    · exact .checkedClosed hpc hcl
    · exact .checkedOpen hpc (by simpa using hcl)
  case h_8 f tx hpc =>
    split_ifs at h with hn
    · cases h; exact .woken hpc hn
    · simp only [send] at h
      split_ifs at h with halive hlen
      · cases h; exact .lost hpc halive
      · cases h; exact .sent hpc (by simpa using halive) hlen
  case h_9 => cases h

/-- Everything any step can do. -/
inductive Step (s : RxState) : RxState → Prop
  | read (msg : Message) : s.pc = .reading →
      Step s { s with
        inbound := s.inbound ++ [⟨s.inbound.length, msg⟩], pc := startFrame ⟨s.inbound.length, msg⟩ }
  | readFailed : s.pc = .reading → Step s { s with pc := .stopped }
  | loop {s'} : Rx s s' → Step s s'
  | access (a : Access) : Step s (s.accessStep a)
  | notify : s.chan.closed = true → Step s { s with notified := true }
  | recv {tx f rest} : (s.queues tx).buffer = f :: rest →
      Step s (s.setQueue tx ((s.queues tx).pop f rest))
  | dropReceiver (tx : SenderId) : Step s (s.setQueue tx (s.queues tx).dropReceiver)

theorem step_cases {s s' : RxState} {a : RxAction} (h : s.step a = some s') : Step s s' := by
  cases a with
  | read msg =>
    simp only [step] at h
    split at h
    · next hpc => cases h; exact .read msg hpc
    · cases h
  | readFailed =>
    simp only [step] at h
    split at h
    · next hpc => cases h; exact .readFailed hpc
    · cases h
  | rx => exact .loop (rxStep_rx h)
  | access a => cases h; exact .access a
  | notify =>
    simp only [step] at h
    split_ifs at h with hcl
    cases h
    exact .notify hcl
  | recv tx =>
    simp only [step] at h
    split at h
    · cases h
    · next f rest hb => cases h; exact .recv hb
  | dropReceiver tx => cases h; exact .dropReceiver tx

end RxState

end Noa.Edge.Data
