import Noa.Edge.Client.Pool
import Noa.Edge.Client.State
import Noa.Framework.Loop

namespace Noa.Edge.ListenerManager
open Noa.Framework
open Noa.Framework.Program (lift)
open Noa.Edge.Client (SessionDetail SessionEdgeRouter parseTlsAddress)

/-- In nanoseconds of a monotone clock. -/
abbrev Instant := Nat

section Cap

def defaultMaxTerminators : Int32 := 3

/-- The cap of terminators, a nonzero `usize`. -/
structure MaxTerminators where
  get : Nat
  pos : 0 < get
  fits : get < 2 ^ 64
  deriving DecidableEq

namespace MaxTerminators

/-- Precedence: the deprecated field counts only where the other one is zero. -/
def chosen (maxTerminators maxConnections : Int32) : Int32 :=
  if maxTerminators ≠ 0 then maxTerminators else maxConnections

def floored (chosen : Int32) : Int32 := if chosen < 1 then 1 else chosen

theorem floored_pos (chosen : Int32) : 0 < (floored chosen).toInt := by
  unfold floored
  split_ifs with h
  · decide
  · rw [Int32.lt_iff_toInt_lt] at h
    have hone : (1 : Int32).toInt = 1 := rfl
    omega

/-- Neither conversion at the end of the source's function can fail: the floor is behind them. -/
def resolve (maxTerminators maxConnections : Int32) : MaxTerminators where
  get := (floored (chosen maxTerminators maxConnections)).toInt.toNat
  pos := Int.lt_toNat.mpr (floored_pos _)
  fits := by
    have := Int32.toInt_lt (floored (chosen maxTerminators maxConnections))
    omega

instance : Inhabited MaxTerminators := ⟨resolve defaultMaxTerminators 0⟩

end MaxTerminators

/-- `usize::saturating_add`. -/
def saturatingAdd (a b : Nat) : Nat := min (a + b) (2 ^ 64 - 1)

def needsMoreListeners (isClosed : Bool) (listenerCount pendingCount : Nat)
    (maxTerminators : MaxTerminators) : Bool :=
  !isClosed && decide (saturatingAdd listenerCount pendingCount < maxTerminators.get)

end Cap

/-- A `NonZeroU64`. -/
structure AttemptId where
  val : UInt64
  nonzero : val ≠ 0
  deriving DecidableEq

structure ListenAttempts where
  pendingListens : Std.ExtTreeMap String AttemptId
  listenAttemptId : UInt64
  connects : Std.ExtTreeMap String Instant

namespace ListenAttempts

def connectInProgressWindow : Nat := 30 * 10 ^ 9

def new : ListenAttempts := ⟨∅, 0, ∅⟩

variable (t : ListenAttempts)

/-- The increment comes first. One that overflows panics, in debug by itself and in release because
the id is zero then. -/
def nextAttemptId : Option (AttemptId × ListenAttempts) :=
  if h : t.listenAttemptId + 1 ≠ 0 then
    some (⟨t.listenAttemptId + 1, h⟩, { t with listenAttemptId := t.listenAttemptId + 1 })
  else none

def markPending (router : String) (id : AttemptId) : ListenAttempts :=
  { t with pendingListens := t.pendingListens.insert router id }

def pendingCount : Nat := t.pendingListens.size

def isPending (router : String) : Bool := t.pendingListens.contains router

def shouldSkipRouter (hasListener : Bool) (router : String) : Bool :=
  hasListener || t.isPending router

def clearPendingIfCurrent (router : String) (id : AttemptId) : ListenAttempts :=
  if t.pendingListens[router]? = some id then
    { t with pendingListens := t.pendingListens.erase router }
  else t

/-- The subtraction saturates at zero. -/
def connectInProgress (url : String) (now : Instant) : Bool :=
  (t.connects[url]?).any fun start => now - start < connectInProgressWindow

def markConnectStarted (url : String) (now : Instant) : ListenAttempts :=
  { t with connects := t.connects.insert url now }

def clearConnect (url : String) : ListenAttempts := { t with connects := t.connects.erase url }

end ListenAttempts

structure ConnectRequest where
  routerName : String
  routerUrl : String
  deriving DecidableEq

/-- A listen attempt, and the listener it may register. -/
structure Attempt where
  router : String
  id : AttemptId
  deriving DecidableEq

/-- A predicate the consumer has installed, by its number: it answers as it likes. -/
abbrev EdgeRouterUrlFilter := Nat

/-- What the loop is woken up by: a scan, the end of a connect, the end of a listen attempt. -/
inductive Pass where
  | scan (session : Option SessionDetail) (filter : Option EdgeRouterUrlFilter)
  | connectResult (routerUrl : String) (connectedRouterName : Option String)
  | listenSuccess (a : Attempt)
  | listenFailed (a : Attempt)

/-- What an observer writes down. `pending` of a sample is what the ledger had at that moment. -/
inductive Entry where
  | pass (p : Pass)
  | sampled (router : String) (hasListener pending : Bool)
  | filtered (filter : EdgeRouterUrlFilter) (url : String) (accepted : Bool)
  | emitted (request : ConnectRequest) (startedAt : Instant)

/-- The ledger, the parent listener with its children, and the listen attempts launched so far.
`running` are those that may still register; `registered`, `minted` and `log` are the records of an
observer. -/
structure Manager where
  attempts : ListenAttempts
  closed : Bool
  listeners : List Attempt
  running : List Attempt
  launched : List Attempt
  registered : List Attempt
  minted : List AttemptId
  clock : Instant
  log : List Entry

namespace Manager

def new : Manager := ⟨.new, false, [], [], [], [], [], 0, []⟩

variable (s : Manager)

def hasListenerForRouter (name : String) : Bool := s.listeners.any (·.router == name)

def record (e : Entry) : Manager := { s with log := s.log ++ [e] }

/-- The attempt is over: it will not register a listener any more. -/
def settled (a : Attempt) : Bool := s.launched.contains a && !s.running.contains a

/-- The attempts with a mark in the ledger. -/
def pending : List Attempt := s.attempts.pendingListens.toList.map fun e => ⟨e.1, e.2⟩

/-- The registered listeners and the pending attempts that have not registered. -/
def live : List Attempt := s.listeners ++ s.pending.filter fun a => a ∉ s.registered

end Manager

inductive Cmd : Type → Type
  | now : Cmd Instant
  | filter (f : EdgeRouterUrlFilter) (url : String) : Cmd Bool
  | isClosed : Cmd Bool
  | listenerCount : Cmd Nat
  | hasListenerForRouter (name : String) : Cmd Bool
  | shouldSkipRouter (hasListener : Bool) (router : String) : Cmd Bool
  | pendingCount : Cmd Nat
  | connectInProgress (url : String) (now : Instant) : Cmd Bool
  | markConnectStarted (url : String) (now : Instant) : Cmd Unit
  | emit (request : ConnectRequest) (startedAt : Instant) : Cmd Unit
  | clearConnect (url : String) : Cmd Unit
  | nextAttemptId : Cmd AttemptId
  | markPending (router : String) (id : AttemptId) : Cmd Unit
  | clearPendingIfCurrent (router : String) (id : AttemptId) : Cmd Unit
  | createListener (a : Attempt) : Cmd Unit

/-- The reading of a clock, and the answer of a filter. -/
inductive Choice where
  | done
  | reads (t : Instant)
  | answers (accepted : Bool)

def Cmd.exec {β : Type} (c : Cmd β) (x : Choice) (s : Manager) : Option (β × Manager) :=
  match c with
  | .now =>
    match x with
    | .reads t => if s.clock ≤ t then some (t, { s with clock := t }) else none
    | _ => none
  | .filter f url =>
    match x with
    | .answers accepted => some (accepted, s.record (.filtered f url accepted))
    | _ => none
  | .isClosed => some (s.closed, s)
  | .listenerCount => some (s.listeners.length, s)
  | .hasListenerForRouter name =>
    let hasListener := s.hasListenerForRouter name
    some (hasListener, s.record (.sampled name hasListener (s.attempts.isPending name)))
  | .shouldSkipRouter hasListener router => some (s.attempts.shouldSkipRouter hasListener router, s)
  | .pendingCount => some (s.attempts.pendingCount, s)
  | .connectInProgress url t => some (s.attempts.connectInProgress url t, s)
  | .markConnectStarted url t => some ((), { s with attempts := s.attempts.markConnectStarted url t })
  | .emit request startedAt => some ((), s.record (.emitted request startedAt))
  | .clearConnect url => some ((), { s with attempts := s.attempts.clearConnect url })
  | .nextAttemptId =>
    -- a task that panics never gets beyond this command
    s.attempts.nextAttemptId.map fun r =>
      (r.1, { s with attempts := r.2, minted := s.minted ++ [r.1] })
  | .markPending router id => some ((), { s with attempts := s.attempts.markPending router id })
  | .clearPendingIfCurrent router id =>
    some ((), { s with attempts := s.attempts.clearPendingIfCurrent router id })
  | .createListener a =>
    some ((), { s with running := s.running ++ [a], launched := s.launched ++ [a] })

/-- What happens meanwhile: an attempt registers its listener or ends without one, a listener closes,
the parent listener closes. -/
inductive ListenerEvent where
  | register (a : Attempt)
  | giveUp (a : Attempt)
  | close (a : Attempt)
  | closeParent

def ListenerEvent.apply (s : Manager) : ListenerEvent → Option Manager
  | .register a =>
    if a ∈ s.running then
      some { s with
        running := s.running.filter (· ≠ a)
        listeners := s.listeners ++ [a]
        registered := s.registered ++ [a] }
    else none
  | .giveUp a => if a ∈ s.running then some { s with running := s.running.filter (· ≠ a) } else none
  | .close a => some { s with listeners := s.listeners.erase a }
  | .closeParent => some { s with closed := true }

def runtime : Runtime Cmd Manager ListenerEvent Choice where
  exec := Cmd.exec
  env := fun e s => e.apply s
  droppable := fun _ => false

abbrev Proc := Program Cmd

section Programs

variable (filter : Option EdgeRouterUrlFilter) (maxTerminators : MaxTerminators)

def isEdgeRouterUrlAccepted (url : String) : Proc Bool :=
  match filter with
  | none => pure true
  | some f => lift (.filter f url)

/-- The filter is asked only about a url that parses. -/
def isUrlUsable (url : String) : Proc Bool :=
  if (parseTlsAddress url).isOk then isEdgeRouterUrlAccepted filter url else pure false

/-- The gate over fresh reads of its three inputs. -/
def needsMore : Proc Bool := do
  let isClosed ← lift .isClosed
  let listenerCount ← lift .listenerCount
  let pendingCount ← lift .pendingCount
  pure (needsMoreListeners isClosed listenerCount pendingCount maxTerminators)

/-- The inner loop of the scan; the answer tells whether to go on with the next router. -/
def scanUrls (routerName : String) :
    List String → List ConnectRequest → Proc (Bool × List ConnectRequest)
  | [], requests => pure (true, requests)
  | routerUrl :: urls, requests => do
    if ← isUrlUsable filter routerUrl then
      let now ← lift .now
      if ← lift (.connectInProgress routerUrl now) then
        scanUrls routerName urls requests
      else
        let startedAt ← lift .now
        lift (.markConnectStarted routerUrl startedAt)
        lift (.emit ⟨routerName, routerUrl⟩ startedAt)
        if ← needsMore maxTerminators then
          scanUrls routerName urls (requests ++ [⟨routerName, routerUrl⟩])
        else
          pure (false, requests ++ [⟨routerName, routerUrl⟩])
    else
      scanUrls routerName urls requests

/-- The outer loop. -/
def scanRouters : List SessionEdgeRouter → List ConnectRequest → Proc (List ConnectRequest)
  | [], requests => pure requests
  | edgeRouter :: edgeRouters, requests => do
    let hasListener ← lift (.hasListenerForRouter edgeRouter.name)
    if ← lift (.shouldSkipRouter hasListener edgeRouter.name) then
      scanRouters edgeRouters requests
    else
      match ← scanUrls filter maxTerminators edgeRouter.name
          (edgeRouter.supportedProtocols.map (·.2)) requests with
      | (true, requests) => scanRouters edgeRouters requests
      | (false, requests) => pure requests

def makeMoreListeners (session : Option SessionDetail) : Proc (List ConnectRequest) := do
  match session with
  | none => pure []
  | some session =>
    if ← needsMore maxTerminators then
      scanRouters filter maxTerminators session.edgeRouters []
    else
      pure []

def handleRouterConnectResult (routerUrl : String) (connectedRouterName : Option String) :
    Proc (Option AttemptId) := do
  lift (.clearConnect routerUrl)
  match connectedRouterName with
  | none => pure none
  | some routerName =>
    let hasListener ← lift (.hasListenerForRouter routerName)
    if ← lift (.shouldSkipRouter hasListener routerName) then
      pure none
    else if ← needsMore maxTerminators then
      let id ← lift .nextAttemptId
      lift (.markPending routerName id)
      pure (some id)
    else
      pure none

/-- The connects a scan asks for come back as results, of any url and name and in any order. An
attempt that is minted is launched. -/
def Pass.prog : Pass → Proc Unit
  | .scan session filter => do
    let _ ← makeMoreListeners filter maxTerminators session
  | .connectResult routerUrl connectedRouterName => do
    match connectedRouterName, ← handleRouterConnectResult maxTerminators routerUrl
        connectedRouterName with
    | some routerName, some id => lift (.createListener ⟨routerName, id⟩)
    | _, _ => pure ()
  | .listenSuccess a | .listenFailed a => lift (.clearPendingIfCurrent a.router a.id)

end Programs

/-- The events of an attempt come after its end, any number of times. -/
def Pass.arrives (p : Pass) (s : Manager) : Option Manager :=
  match p with
  | .listenSuccess a | .listenFailed a => if s.settled a then some (s.record (.pass p)) else none
  | _ => some (s.record (.pass p))

abbrev Act := LoopAct Pass ListenerEvent Choice

def step (maxTerminators : MaxTerminators) : Loop Cmd Manager → Act → Option (Loop Cmd Manager) :=
  Loop.step runtime Pass.arrives (Pass.prog maxTerminators)

def start : Loop Cmd Manager := ⟨.ret (), .new⟩

end Noa.Edge.ListenerManager
