import Noa.Edge.Client.DialCache
import Noa.Edge.Wire
import Noa.Framework.Handler

namespace Noa.Edge.Client
open Noa.Framework Noa.Channel
open Noa.Framework.Program (lift)

/-- The failures of a connect. -/
inductive ConnectError where
  | rest (e : RestError)
  | serviceNotFound (name : String)
  | noTlsEdgeRouter
  | openFailed (message : String)
  | edge (e : EdgeError)
  deriving DecidableEq

def dialInvalidSessionReason : String := "invalid session"

/-- The exact reason, never a part of it. -/
def ConnectError.isDialInvalidSession : ConnectError → Bool
  | .edge (.dialRejected reason) => reason = strBytes dialInvalidSessionReason
  | _ => false

/-- What an observer of a connect takes note of. -/
inductive ConnectEvent where
  | dial (sessionId : String)
  | dialed (r : Except ConnectError Unit)
  | probed (r : Except ConnectError Unit)
  | returned (r : Except ConnectError Unit)

/-- The channel to a router, from the pool or new; the exchange over it; and the observer. -/
inductive DialCmd : Type → Type
  | openChannel (addrs : List String) : DialCmd (Except String Unit)
  | dial (session : SessionDetail) (encryptionRequired : Bool) (callerId : Option String)
      (appData : Option Bytes) : DialCmd (Except EdgeError Unit)
  | note (e : ConnectEvent) : DialCmd Unit

/-- The commands of a client, and those of its dials. -/
abbrev ConnectCmd (V β : Type) := Cmd V β ⊕ DialCmd β

abbrev ConnectProc (V : Type) := Program (ConnectCmd V)

/-- What a client dials with. -/
structure Dialer where
  cfg : ClientConfig
  identityName : Option String
  urlFilter : Option (String → Bool)

inductive Attempt where
  | first
  | second

/-- One connect. `pages` and `retries` are what its requests see answered, as in the programs it is
made of; the budget of the backoff can leave room for another number of retries the second time. -/
structure ConnectArgs where
  serviceName : String
  appData : Option Bytes
  pages : Nat
  retries : Attempt → Nat

section Programs

variable {V α : Type}

def onClient (p : Proc V α) : ConnectProc V α := p.embed Sum.inl

def note (e : ConnectEvent) : ConnectProc V Unit := lift (.inr (.note e))

def evictDialSession (serviceId : String) : ConnectProc V Unit :=
  onClient (lift (.evictDialSession serviceId))

def resolveService (services : List (Service V)) (name : String) : Option (Service V) :=
  services.find? fun s => s.name == name

/-- A service that is not there is no failure of the request. -/
def doResolveService (pages : Nat) (token : AuthToken) (name : String) :
    Proc V (Except RestError (Option (String × Bool))) :=
  (doListServices pages token []).andThen fun services =>
    pure (.ok ((resolveService services name).map fun svc => (svc.id, svc.encryptionRequired)))

def isEdgeRouterUrlAccepted (filter : Option (String → Bool)) (url : String) : Bool :=
  match filter with
  | none => true
  | some f => f url

def tlsAddrs (detail : SessionDetail) (filter : Option (String → Bool)) : List String :=
  (detail.edgeRouters.filterMap fun er => er.supportedProtocols.lookup "tls").filter
    (isEdgeRouterUrlAccepted filter)

/-- A session without routers is refreshed before it is given up; only the answer that an opaque
session does not exist evicts it. -/
def recoverEmptyEdgeRouters (detail : SessionDetail) :
    ConnectProc V (Except ConnectError SessionDetail) := do
  match ← onClient (refreshSession detail) with
  | .error e =>
    match detail.token.startsWith jwtTokenPrefix, e with
    | false, .sessionHttp 404 _ _ => evictDialSession detail.serviceId
    | _, _ => pure ()
    pure (.error (.rest e))
  | .ok refreshed =>
    if refreshed.edgeRouters.isEmpty then pure (.error .noTlsEdgeRouter)
    else pure (.ok refreshed)

def openOrReusePooledChannel (d : Dialer) (detail : SessionDetail) :
    ConnectProc V (Except ConnectError Unit) :=
  (if detail.edgeRouters.isEmpty then recoverEmptyEdgeRouters detail
    else pure (.ok detail)).andThen fun detail =>
      if (tlsAddrs detail d.urlFilter).isEmpty then pure (.error .noTlsEdgeRouter)
      else do
        let r ← lift (.inr (.openChannel (tlsAddrs detail d.urlFilter)))
        pure (r.mapError .openFailed)

/-- The channel is opened to the routers of the refreshed session, the dial is for the session it was
asked for. -/
def dialSession (d : Dialer) (args : ConnectArgs) (encryptionRequired : Bool)
    (session : SessionDetail) : ConnectProc V (Except ConnectError Unit) :=
  (openOrReusePooledChannel d session).andThen fun _ => do
    let r ← lift (.inr (.dial session encryptionRequired d.identityName args.appData))
    pure (r.mapError .edge)

/-- The one retry: the session is evicted, another one obtained and dialed, and evicted as well if it
is rejected. -/
def retryOnce (getOrCreate : ConnectProc V (Except ConnectError SessionDetail))
    (dial : SessionDetail → ConnectProc V (Except ConnectError α)) (evict : ConnectProc V Unit) :
    ConnectProc V (Except ConnectError α) := do
  evict
  getOrCreate.andThen fun fresh => do
    match ← dial fresh with
    | .ok connected => pure (.ok connected)
    | .error secondErr =>
      if secondErr.isDialInvalidSession then evict
      pure (.error secondErr)

def dialWithRefreshRetry (getOrCreate : Attempt → ConnectProc V (Except ConnectError SessionDetail))
    (dial : SessionDetail → ConnectProc V (Except ConnectError α))
    (refresh : SessionDetail → ConnectProc V (Except ConnectError Unit))
    (evict : ConnectProc V Unit) : ConnectProc V (Except ConnectError α) :=
  (getOrCreate .first).andThen fun session => do
    match ← dial session with
    | .ok connected => pure (.ok connected)
    | .error firstErr =>
      -- a session the router has rejected is not probed
      if firstErr.isDialInvalidSession then retryOnce (getOrCreate .second) dial evict
      else
        match ← refresh session with
        | .error _ => retryOnce (getOrCreate .second) dial evict
        | .ok () => pure (.error firstErr)

/-- The dial of a connect, before the eyes of its observer. -/
def observedDial (d : Dialer) (args : ConnectArgs) (encryptionRequired : Bool)
    (session : SessionDetail) : ConnectProc V (Except ConnectError Unit) := do
  note (.dial session.id)
  let r ← dialSession d args encryptionRequired session
  note (.dialed r)
  pure r

/-- The liveness probe of a connect, which drops the refreshed session. -/
def observedRefresh (session : SessionDetail) : ConnectProc V (Except ConnectError Unit) := do
  let refreshed ← onClient (refreshSession session)
  let r := (refreshed.mapError ConnectError.rest).map fun _ => ()
  note (.probed r)
  pure r

/-- The session of a connect, with the budget its attempt has left. -/
def connectSession (d : Dialer) (args : ConnectArgs) (serviceId : String) (attempt : Attempt) :
    ConnectProc V (Except ConnectError SessionDetail) := do
  let r ← onClient (getOrCreateDialSession d.cfg serviceId (args.retries attempt))
  pure (r.mapError .rest)

/-- The timeout around a connect drops it. -/
def connectInner (d : Dialer) (args : ConnectArgs) : ConnectProc V (Except ConnectError Unit) := do
  let resolve := fun token => doResolveService (V := V) args.pages token args.serviceName
  match ← onClient (withReauthRetry d.cfg resolve) with
  | .error e => pure (.error (.rest e))
  | .ok none => pure (.error (.serviceNotFound args.serviceName))
  | .ok (some (serviceId, encryptionRequired)) =>
    dialWithRefreshRetry (connectSession d args serviceId) (observedDial d args encryptionRequired)
      observedRefresh (evictDialSession serviceId)

end Programs

/-- What the observer of a connect knows: the sessions dialed, the last one first, each with how the
dial ended; how the probe ended; and what the connect returned. -/
structure ConnectRecord where
  dials : List (String × Option (Except ConnectError Unit))
  probe : Option (Except ConnectError Unit)
  result : Option (Except ConnectError Unit)

namespace ConnectRecord

def empty : ConnectRecord := ⟨[], none, none⟩

def note (c : ConnectRecord) : ConnectEvent → ConnectRecord
  | .dial sessionId => { c with dials := (sessionId, none) :: c.dials }
  | .dialed r => { c with dials := c.dials.modifyHead fun d => (d.1, some r) }
  | .probed r => { c with probe := some r }
  | .returned r => { c with result := some r }

end ConnectRecord

structure ConnectLog where
  task : TaskLog
  record : ConnectRecord

def ConnectLog.idle : ConnectLog := ⟨.idle, .empty⟩

/-- What decides a command: the controller's answer, or the router's. -/
inductive ConnectReply (V : Type) where
  | client (x : Reply V)
  | opened (r : Except String Unit)
  | dialed (r : Except EdgeError Unit)
  | noted

section Effects

variable {V β : Type}

/-- What a command adds to the record. -/
def DialCmd.noted (c : DialCmd β) (record : ConnectRecord) : ConnectRecord :=
  match c with
  | .note e => record.note e
  | _ => record

def DialCmd.exec (c : DialCmd β) (x : ConnectReply V) : Option β :=
  match c, x with
  | .openChannel _, .opened r => some r
  | .dial _ _ _ _, .dialed r => some r
  | .note _, .noted => some ()
  | _, _ => none

def DialCmd.isAwait : DialCmd β → Bool
  | .note _ => false
  | _ => true

variable [DecidableEq V]

def ConnectCmd.exec (c : ConnectCmd V β) (x : ConnectReply V) (l : ConnectLog) (s : ClientState V) :
    Option (β × ConnectLog × ClientState V) :=
  match c, x with
  | .inl c, .client x => (c.exec x l.task s).map fun r => (r.1, { l with task := r.2.1 }, r.2.2)
  | .inl _, _ => none
  | .inr c, x => (c.exec x).map fun b => (b, { l with record := c.noted l.record }, s)

def connectEffects (V : Type) [DecidableEq V] :
    Effects (ConnectCmd V) (ClientState V) ConnectLog (List (Service V) × Int) (ConnectReply V) where
  exec := ConnectCmd.exec
  env := ClientState.changeServices
  idle := .idle
  release := fun l s => s.release l.task
  droppable := Sum.elim Cmd.isAwait DialCmd.isAwait

end Effects

/-- The tasks of a client, its connects among them. -/
inductive ConnectOp where
  | client (op : ClientOp)
  | connect (args : ConnectArgs)

def ConnectOp.prog {V : Type} (d : Dialer) : ConnectOp → ConnectProc V Unit
  | .client op => onClient (op.prog d.cfg)
  | .connect args => do
    let r ← connectInner d args
    note (.returned r)

abbrev ConnectTasks (V : Type) := Crew (ConnectCmd V) (ClientState V) ConnectLog

abbrev ConnectAct (V : Type) := PoolAct ConnectOp (List (Service V) × Int) (ConnectReply V)

/-- One step of a client with any number of connects and other tasks. -/
def connectStep {V : Type} [DecidableEq V] (d : Dialer) (s : ConnectTasks V) (a : ConnectAct V) :
    Option (ConnectTasks V) :=
  s.step (connectEffects V) (ConnectOp.prog d) a

def ConnectTasks.start {V : Type} (token : AuthToken) (services : List (Service V))
    (lastChangeAt : Int) : ConnectTasks V :=
  ⟨[], .start token services lastChangeAt⟩

/-- Where a connect is: what its observer knows, the session it would dial next, the keys under which
it has seen sessions in the cache, and the sessions it has evicted. -/
structure ConnectUse where
  record : ConnectRecord
  obtained : Option String
  seen : List (String × String)
  gone : List String

namespace ConnectUse

def idle : ConnectUse := ⟨.empty, none, [], []⟩

def obtain_ (w : ConnectUse) (key id : String) : ConnectUse :=
  { w with obtained := some id, seen := (key, id) :: w.seen }

def evict (w : ConnectUse) (key : String) : ConnectUse :=
  { w with
    obtained := none
    gone := ((w.seen.filter fun p => p.1 = key).map (·.2)) ++ w.gone }

end ConnectUse

/-- The one dial so far was rejected as one of an invalid session, or the probe failed. -/
def ConnectRecord.Retriable (c : ConnectRecord) : Prop :=
  ∃ id e, c.dials = [(id, some (.error e))] ∧
    (e.isDialInvalidSession = true ∨ ∃ e', c.probe = some (.error e'))

/-- A dial is of the session obtained last; a second one comes after the first session was evicted.
The rejection of a session is returned once every session dialed was evicted. -/
def ConnectUse.Allows (w : ConnectUse) : ConnectEvent → Prop
  | .dial sessionId => w.obtained = some sessionId ∧ (w.record.dials = [] ∨
      w.record.Retriable ∧ ∀ d ∈ w.record.dials, d.1 ∈ w.gone)
  | .dialed _ => True
  | .probed _ => w.record.dials.length ≤ 1
  | .returned r => ∀ e, r = .error e → e.isDialInvalidSession = true →
      ∀ d ∈ w.record.dials, d.1 ∈ w.gone

def connectUse (V : Type) : Discipline (ConnectCmd V) ConnectUse where
  may := fun w c =>
    match c with
    | .inr (.note e) => w.record.result = none ∧ w.Allows e
    | _ => True
  next := fun w c =>
    match c with
    | .inl (.cachedDialSession key) => fun
      | some d => w.obtain_ key d.id
      | none => w
    | .inl (.cacheDialSession key d) => fun _ => w.obtain_ key d.id
    | .inl (.evictDialSession key) => fun _ => w.evict key
    | .inr c => fun _ => { w with record := c.noted w.record }
    | _ => fun _ => w

section Anywhere

open Program (Anywhere)

-- what a connect is made of is allowed from every state
variable {V σ : Type} {D : Discipline (ConnectCmd V) σ} (hdone : ∀ st, D.done st)
  (hfree : ∀ {γ : Type} (c : DialCmd γ), Anywhere D (lift (.inr c) : ConnectProc V γ))
  (hevict : ∀ serviceId, Anywhere D (evictDialSession (V := V) serviceId))
  (hrefresh : ∀ session, Anywhere D (onClient (refreshSession (V := V) session)))
  (d : Dialer) (args : ConnectArgs)
  (hsession : ∀ serviceId attempt, Anywhere D (connectSession (V := V) d args serviceId attempt))

include hdone hevict hrefresh in
theorem anywhere_recoverEmptyEdgeRouters (detail : SessionDetail) :
    Anywhere D (recoverEmptyEdgeRouters (V := V) detail) := by
  apply (hrefresh detail).bind
  intro r
  split
  · split
    · exact (hevict _).bind fun _ => hdone
    · exact hdone
  · split
    · exact hdone
    · exact hdone

include hdone hfree hevict hrefresh in
theorem anywhere_openOrReusePooledChannel (detail : SessionDetail) :
    Anywhere D (openOrReusePooledChannel (V := V) d detail) := by
  have hrouters : Anywhere D (if detail.edgeRouters.isEmpty
      then recoverEmptyEdgeRouters (V := V) detail else pure (.ok detail)) := by
    split
    · exact anywhere_recoverEmptyEdgeRouters hdone hevict hrefresh detail
    · exact hdone
  refine hrouters.andThen (fun detail => ?_) hdone
  split
  · exact hdone
  · exact (hfree _).bind fun _ => hdone

include hdone hfree hevict hrefresh in
theorem anywhere_observedDial (encryptionRequired : Bool) (session : SessionDetail) :
    Anywhere D (observedDial (V := V) d args encryptionRequired session) := by
  have hdial : Anywhere D (dialSession (V := V) d args encryptionRequired session) := by
    refine (anywhere_openOrReusePooledChannel hdone hfree hevict hrefresh d session).andThen ?_ hdone
    exact fun _ => (hfree _).bind fun _ => hdone
  refine (hfree _).bind fun _ => hdial.bind fun _ => (hfree _).bind fun _ => hdone

include hdone hfree hevict hrefresh hsession in
theorem anywhere_retryOnce (encryptionRequired : Bool) (serviceId : String) :
    Anywhere D (retryOnce (connectSession (V := V) d args serviceId .second)
      (observedDial d args encryptionRequired) (evictDialSession serviceId)) := by
  refine (hevict serviceId).bind fun _ => (hsession serviceId .second).andThen (fun fresh => ?_) hdone
  apply (anywhere_observedDial hdone hfree hevict hrefresh d args encryptionRequired fresh).bind
  intro r
  split
  · exact hdone
  · split
    · exact (hevict serviceId).bind fun _ => hdone
    · exact hdone

include hdone hfree hevict hrefresh hsession in
theorem anywhere_connectInner (hresolve : Anywhere D (onClient (withReauthRetry d.cfg fun token =>
      doResolveService (V := V) args.pages token args.serviceName))) :
    Anywhere D (connectInner (V := V) d args) := by
  apply hresolve.bind
  intro r
  split
  · exact hdone
  · exact hdone
  · next serviceId encryptionRequired =>
    have hretry := anywhere_retryOnce hdone hfree hevict hrefresh d args hsession encryptionRequired
      serviceId
    refine (hsession serviceId .first).andThen (fun session => ?_) hdone
    apply (anywhere_observedDial hdone hfree hevict hrefresh d args encryptionRequired session).bind
    intro r
    split
    · exact hdone
    · split
      · exact hretry
      · have hprobe : Anywhere D (observedRefresh (V := V) session) :=
          (hrefresh session).bind fun _ => (hfree _).bind fun _ => hdone
        apply hprobe.bind
        intro r
        split
        · exact hretry
        · exact hdone

end Anywhere

section Discipline

variable {V α : Type} {w : ConnectUse}

theorem within_resolve (d : Dialer) (args : ConnectArgs) :
    Proc.Within (· ≠ .session) (withReauthRetry d.cfg fun token =>
      doResolveService (V := V) args.pages token args.serviceName) := by
  refine within_withReauthRetry (by decide) (by decide) d.cfg fun token => ?_
  exact within_andThen (within_doListServices (by decide) args.pages token []) fun _ => trivial

theorem SessionUse.obeys_connectInner (d : Dialer) (args : ConnectArgs) :
    (connectInner (V := V) d args).Anywhere (sessionUse V).left := by
  have hclient {β : Type} {p : Proc V β} (hp : ∀ st, p.Obeys (sessionUse V) st) :
      (onClient p).Anywhere (sessionUse V).left := fun st => Program.Ensures.embed (hp st)
  have hdone : ∀ st, ((sessionUse V).left : Discipline (ConnectCmd V) SessionUse).done st :=
    fun _ => trivial
  refine anywhere_connectInner hdone (fun _ _ => ⟨trivial, fun _ => trivial⟩)
    (fun _ _ => ⟨trivial, fun _ => trivial⟩) (fun session => hclient (obeys_refreshSession session))
    d args (fun serviceId attempt => ?_) (hclient (obeys_of_within (within_resolve d args)))
  exact (hclient (obeys_getOrCreateDialSession d.cfg serviceId _)).bind fun _ => hdone

/-- The commands that do not look up, cache or evict an entry by its key. -/
def Cmd.neutral {γ : Type} : Cmd V γ → Bool
  | .cachedDialSession _ => false
  | .cacheDialSession _ _ => false
  | .evictDialSession _ => false
  | _ => true

theorem Cmd.neutral_of_role {γ : Type} {c : Cmd V γ} (h : c.role ≠ .session) : c.neutral = true := by
  cases c <;> first | rfl | exact absurd rfl h

theorem ensures_neutral {p : Proc V α} (hp : p.Issues fun _ c => c.neutral = true) :
    (onClient p).Ensures (connectUse V) (fun _ w' => w' = w) w := by
  apply Program.Ensures.embed
  refine hp.ensures (fun c hc w => ⟨trivial, fun b => ?_⟩) w
  cases c <;> first | rfl | cases hc

theorem obeys_onClient (p : Proc V α) : (onClient p).Obeys (connectUse V) w := by
  apply Program.Ensures.embed
  induction p generalizing w with
  | ret a => trivial
  | call c k ih => exact ⟨trivial, fun b => ih b⟩

/-- What stays of where a connect was, under a record of its own. -/
structure ConnectUse.Keeps (w w' : ConnectUse) (record : ConnectRecord) : Prop where
  record : w'.record = record
  seen : w.seen ⊆ w'.seen
  gone : w.gone ⊆ w'.gone

theorem ConnectUse.Keeps.refl : w.Keeps w w.record := ⟨rfl, fun _ h => h, fun _ h => h⟩

theorem keeps_evict (key : String) : w.Keeps (w.evict key) w.record :=
  ⟨rfl, fun _ h => h, fun _ h => List.mem_append_right _ h⟩

theorem mem_evict {key id : String} (h : (key, id) ∈ w.seen) : id ∈ (w.evict key).gone := by
  refine List.mem_append_left _ (List.mem_map.mpr ⟨(key, id), ?_, rfl⟩)
  exact List.mem_filter.mpr ⟨h, decide_eq_true rfl⟩

theorem ensures_evictDialSession (key : String) :
    (evictDialSession (V := V) key).Ensures (connectUse V) (fun _ w' => w' = w.evict key) w :=
  ⟨trivial, fun _ => rfl⟩

theorem ensures_refreshSession (session : SessionDetail) :
    (onClient (refreshSession (V := V) session)).Ensures (connectUse V) (fun _ w' => w' = w) w := by
  apply ensures_neutral
  have hprobe (token : AuthToken) :
      (refreshSessionProbe (V := V) token session).Issues fun _ c => c.neutral = true := by
    unfold refreshSessionProbe
    split
    · refine ⟨rfl, fun r => ?_⟩
      cases r <;> trivial
    · exact ⟨rfl, fun _ => trivial⟩
  simp only [refreshSession, Program.lift_bind]
  refine .call rfl fun token => ?_
  split
  · trivial
  · apply (hprobe _).bind
    intro r
    cases r with
    | error e => trivial
    | ok refreshed => exact ⟨rfl, fun _ => trivial⟩

theorem ensures_getOrCreateDialSession (cfg : ClientConfig) (serviceId : String) (retries : Nat) :
    (onClient (getOrCreateDialSession (V := V) cfg serviceId retries)).Ensures (connectUse V)
      (fun r w' => w.Keeps w' w.record ∧ ∀ session, r = .ok session →
        w'.obtained = some session.id ∧ (serviceId, session.id) ∈ w'.seen) w := by
  have hobtain (session : SessionDetail) : w.Keeps (w.obtain_ serviceId session.id) w.record :=
    ⟨rfl, fun _ h => List.mem_cons_of_mem _ h, fun _ h => h⟩
  have hcreate : (createSessionWithPolicy (V := V) cfg serviceId .dial retries).Issues
      fun _ c => c.neutral = true := by
    refine issues_createSessionWithPolicy cfg (fun γ c hc => Cmd.neutral_of_role ?_)
      (fun _ => rfl) retries
    obtain hc | hc | hc := hc <;> rw [hc] <;> decide
  apply Program.Ensures.embed
  simp only [getOrCreateDialSession, Program.lift_bind]
  refine .call trivial fun cached => ?_
  cases cached with
  | some session =>
    refine ⟨hobtain session, ?_⟩
    rintro _ ⟨⟩
    exact ⟨rfl, List.mem_cons_self⟩
  | none =>
    have hensures := hcreate.ensures (D := (connectUse V).comap Sum.inl)
      (fun c hc w => ⟨trivial, fun b => by cases c <;> first | rfl | cases hc⟩) w
    apply hensures.bind
    rintro r _ rfl
    cases r with
    | error e => exact ⟨.refl, by rintro _ ⟨⟩⟩
    | ok session =>
      refine ⟨trivial, fun _ => ⟨hobtain session, ?_⟩⟩
      rintro _ ⟨⟩
      exact ⟨rfl, List.mem_cons_self⟩

theorem ensures_openOrReusePooledChannel (d : Dialer) (detail : SessionDetail) :
    (openOrReusePooledChannel (V := V) d detail).Ensures (connectUse V)
      (fun _ w' => w.Keeps w' w.record) w := by
  have hrecover : (recoverEmptyEdgeRouters (V := V) detail).Ensures (connectUse V)
      (fun _ w' => w.Keeps w' w.record) w := by
    apply (ensures_refreshSession detail).bind
    rintro r _ rfl
    split
    · split
      · exact ⟨trivial, fun _ => keeps_evict _⟩
      · exact .refl
    · split
      · exact .refl
      · exact .refl
  have hrouters : (if detail.edgeRouters.isEmpty then recoverEmptyEdgeRouters (V := V) detail
      else pure (.ok detail)).Ensures (connectUse V) (fun _ w' => w.Keeps w' w.record) w := by
    split
    · exact hrecover
    · exact .refl
  apply hrouters.bind
  intro r w' hw'
  cases r with
  | error e => exact hw'
  | ok detail =>
    dsimp only
    split
    · exact hw'
    · exact ⟨trivial, fun _ => hw'⟩

theorem ensures_observedDial (d : Dialer) (args : ConnectArgs) (encryptionRequired : Bool)
    (session : SessionDetail) (hresult : w.record.result = none)
    (hdial : w.Allows (.dial session.id)) :
    (observedDial (V := V) d args encryptionRequired session).Ensures (connectUse V)
      (fun r w' => w.Keeps w' ((w.record.note (.dial session.id)).note (.dialed r))) w := by
  refine ⟨⟨hresult, hdial⟩, fun _ => ?_⟩
  have hdialed : (dialSession (V := V) d args encryptionRequired session).Ensures (connectUse V)
      (fun _ w' => w.Keeps w' (w.record.note (.dial session.id)))
      { w with record := w.record.note (.dial session.id) } := by
    apply (ensures_openOrReusePooledChannel d session).bind
    intro r w' hw'
    have hkeeps : w.Keeps w' (w.record.note (.dial session.id)) :=
      ⟨hw'.record, hw'.seen, hw'.gone⟩
    cases r with
    | error e => exact hkeeps
    | ok _ => exact ⟨trivial, fun _ => hkeeps⟩
  apply hdialed.bind
  intro r w' hw'
  refine ⟨⟨?_, trivial⟩, fun _ => ⟨?_, hw'.seen, hw'.gone⟩⟩
  · rw [hw'.record]
    exact hresult
  · exact congrArg (·.note (.dialed r)) hw'.record

theorem ensures_observedRefresh (session : SessionDetail) (hresult : w.record.result = none)
    (hdials : w.record.dials.length ≤ 1) :
    (observedRefresh (V := V) session).Ensures (connectUse V)
      (fun r w' => w.Keeps w' (w.record.note (.probed r))) w := by
  apply (ensures_refreshSession session).bind
  rintro r _ rfl
  exact ⟨⟨hresult, hdials⟩, fun _ => ⟨rfl, fun _ h => h, fun _ h => h⟩⟩

/-- The connect may return this. -/
def ConnectUse.Returns (r : Except ConnectError Unit) (w : ConnectUse) : Prop :=
  w.record.result = none ∧ w.Allows (.returned r)

theorem returns_ok (h : w.record.result = none) : w.Returns (.ok ()) := ⟨h, nofun⟩

theorem returns_error {e : ConnectError} (h : w.record.result = none)
    (he : e.isDialInvalidSession = false) : w.Returns (.error e) := by
  refine ⟨h, ?_⟩
  rintro _ ⟨⟩ hinvalid
  rw [he] at hinvalid
  cases hinvalid

theorem ensures_connectSession (d : Dialer) (args : ConnectArgs) (serviceId : String)
    (attempt : Attempt) :
    (connectSession (V := V) d args serviceId attempt).Ensures (connectUse V)
      (fun r w' => w.Keeps w' w.record ∧ (∀ e, r = .error e → e.isDialInvalidSession = false) ∧
        ∀ session, r = .ok session →
          w'.obtained = some session.id ∧ (serviceId, session.id) ∈ w'.seen) w := by
  apply (ensures_getOrCreateDialSession d.cfg serviceId (args.retries attempt)).bind
  rintro r w' ⟨hkeeps, hok⟩
  cases r with
  | error e =>
    refine ⟨hkeeps, ?_, nofun⟩
    rintro _ ⟨⟩
    rfl
  | ok session =>
    refine ⟨hkeeps, nofun, ?_⟩
    rintro _ ⟨⟩
    exact hok session rfl

theorem ensures_retryOnce (d : Dialer) (args : ConnectArgs) {serviceId : String}
    (encryptionRequired : Bool) (hresult : w.record.result = none) (hretry : w.record.Retriable)
    (hseen : ∀ p ∈ w.record.dials, (serviceId, p.1) ∈ w.seen) :
    (retryOnce (connectSession (V := V) d args serviceId .second)
      (observedDial d args encryptionRequired) (evictDialSession serviceId)).Ensures (connectUse V)
        ConnectUse.Returns w := by
  apply (ensures_evictDialSession serviceId).bind
  rintro _ _ rfl
  apply (ensures_connectSession d args serviceId .second).bind
  rintro r w' ⟨hkeeps, herr, hok⟩
  have hrecord : w'.record = w.record := hkeeps.record
  have hgone : ∀ p ∈ w'.record.dials, p.1 ∈ w'.gone := by
    rw [hrecord]
    exact fun p hp => hkeeps.gone (mem_evict (hseen p hp))
  rw [← hrecord] at hresult hretry
  cases r with
  | error e => exact returns_error hresult (herr e rfl)
  | ok fresh =>
    obtain ⟨hobtained, hfresh⟩ := hok fresh rfl
    have hdial : w'.Allows (.dial fresh.id) := ⟨hobtained, .inr ⟨hretry, hgone⟩⟩
    apply (ensures_observedDial d args encryptionRequired fresh hresult hdial).bind
    intro r w'' hw''
    have hresult' : w''.record.result = none := by
      rw [hw''.record]
      exact hresult
    cases r with
    | ok _ => exact returns_ok hresult'
    | error e =>
      dsimp only
      split_ifs with hinvalid
      · apply (ensures_evictDialSession serviceId).bind
        rintro _ _ rfl
        refine ⟨hresult', fun _ _ _ p hp => ?_⟩
        rw [show (w''.evict serviceId).record = _ from hw''.record] at hp
        obtain rfl | hp := List.mem_cons.mp hp
        · exact mem_evict (hw''.seen hfresh)
        · exact (keeps_evict serviceId).gone (hw''.gone (hgone p hp))
      · exact returns_error hresult' (Bool.eq_false_of_not_eq_true hinvalid)

theorem ensures_connectInner (d : Dialer) (args : ConnectArgs) :
    (connectInner (V := V) d args).Ensures (connectUse V) ConnectUse.Returns .idle := by
  have hresolve := (within_resolve (V := V) d args).mono fun _ _ hc => Cmd.neutral_of_role hc
  apply (ensures_neutral hresolve).bind
  rintro r _ rfl
  split
  · next e => exact returns_error (e := .rest e) rfl rfl
  · exact returns_error (e := .serviceNotFound args.serviceName) rfl rfl
  · next serviceId encryptionRequired =>
    apply (ensures_connectSession d args serviceId .first).bind
    rintro r w ⟨hkeeps, herr, hok⟩
    have hempty : w.record = .empty := hkeeps.record
    have hresult : w.record.result = none := by
      rw [hempty]
      rfl
    cases r with
    | error e => exact returns_error hresult (herr e rfl)
    | ok session =>
      obtain ⟨hobtained, hseen⟩ := hok session rfl
      have hdial : w.Allows (.dial session.id) := by
        refine ⟨hobtained, .inl ?_⟩
        rw [hempty]
        rfl
      apply (ensures_observedDial d args encryptionRequired session hresult hdial).bind
      intro r w' hw'
      rw [hempty] at hw'
      have hresult' : w'.record.result = none := by
        rw [hw'.record]
        rfl
      cases r with
      | ok _ => exact returns_ok hresult'
      | error firstErr =>
        have hdials : w'.record.dials = [(session.id, some (.error firstErr))] := by
          rw [hw'.record]
          rfl
        have hseen' {u : ConnectUse} (hu : u.record.dials = w'.record.dials)
            (hsub : w'.seen ⊆ u.seen) : ∀ p ∈ u.record.dials, (serviceId, p.1) ∈ u.seen := by
          intro p hp
          rw [hu, hdials] at hp
          rw [List.mem_singleton.mp hp]
          exact hsub (hw'.seen hseen)
        dsimp only
        split_ifs with hinvalid
        · exact ensures_retryOnce d args encryptionRequired hresult'
            ⟨_, _, hdials, .inl hinvalid⟩ (hseen' rfl fun _ h => h)
        · have hone : w'.record.dials.length ≤ 1 := by
            rw [hdials]
            exact le_rfl
          apply (ensures_observedRefresh session hresult' hone).bind
          intro r u hu
          have hresult'' : u.record.result = none := by
            rw [hu.record]
            exact hresult'
          have hdials' : u.record.dials = w'.record.dials := by
            rw [hu.record]
            rfl
          cases r with
          | ok _ => exact returns_error hresult'' (Bool.eq_false_of_not_eq_true hinvalid)
          | error e =>
            have hprobe : u.record.probe = some (.error e) := by
              rw [hu.record]
              rfl
            exact ensures_retryOnce d args encryptionRequired hresult''
              ⟨_, _, hdials'.trans hdials, .inr ⟨e, hprobe⟩⟩ (hseen' hdials' hu.seen)

end Discipline

/-- At most two dials, of different sessions, the second one for a reason. -/
structure ConnectRecord.Bounded (c : ConnectRecord) : Prop where
  few : c.dials.length ≤ 2
  distinct : (c.dials.map (·.1)).Nodup
  reason : ∀ second first, c.dials = [second, first] → ∃ e, first.2 = some (.error e) ∧
    (e.isDialInvalidSession = true ∨ ∃ e', c.probe = some (.error e'))

/-- What a connect knows of the cache `m`: a session it has seen is nowhere but under its key, one it
has evicted is not there at all, and neither comes back. -/
structure ConnectUse.Sound (spent : String → Prop) (m : DialSessions) (w : ConnectUse) : Prop where
  seen : ∀ p ∈ w.seen, spent p.2 ∧ ∀ key, CachedAt m key p.2 → key = p.1
  gone : ∀ id ∈ w.gone, spent id ∧ ¬ Cached m id
  obtained : ∀ id, w.obtained = some id → id ∉ w.gone
  bounded : w.record.Bounded
  surrendered : ∀ e, w.record.result = some (.error e) → e.isDialInvalidSession = true →
    ∀ d ∈ w.record.dials, d.1 ∈ w.gone

/-- No session is in the cache twice. -/
def Unique (m : DialSessions) : Prop :=
  ∀ id key key', CachedAt m key id → CachedAt m key' id → key = key'

section Sound

variable {spent spent' : String → Prop} {m m' : DialSessions} {w : ConnectUse} {key id : String}

theorem ConnectUse.sound_idle : ConnectUse.idle.Sound spent m := by
  constructor
  · intro p hp
    cases hp
  · intro id hid
    cases hid
  · intro id hid
    cases hid
  · refine ⟨Nat.zero_le _, List.nodup_nil, fun second first h => ?_⟩
    cases h
  · intro e he
    cases he

theorem ConnectUse.Sound.mono (h : w.Sound spent m)
    (hstep : ∀ id, spent id → spent' id ∧ ∀ key, CachedAt m' key id → CachedAt m key id) :
    w.Sound spent' m' := by
  refine ⟨fun p hp => ?_, fun id hid => ?_, h.obtained, h.bounded, h.surrendered⟩
  · obtain ⟨hspent, hkey⟩ := h.seen p hp
    obtain ⟨hspent', hcached⟩ := hstep p.2 hspent
    exact ⟨hspent', fun key hin => hkey key (hcached key hin)⟩
  · obtain ⟨hspent, hout⟩ := h.gone id hid
    obtain ⟨hspent', hcached⟩ := hstep id hspent
    exact ⟨hspent', fun ⟨key, hin⟩ => hout ⟨key, hcached key hin⟩⟩

theorem ConnectUse.Sound.obtain_ (h : w.Sound spent m) (hunique : Unique m) (hin : CachedAt m key id)
    (hspent : spent id) : (w.obtain_ key id).Sound spent m := by
  refine ⟨fun p hp => ?_, h.gone, ?_, h.bounded, h.surrendered⟩
  · obtain rfl | hp := List.mem_cons.mp hp
    · exact ⟨hspent, fun key' hin' => hunique id key' key hin' hin⟩
    · exact h.seen p hp
  · rintro _ ⟨⟩ hgone
    exact (h.gone id hgone).2 ⟨key, hin⟩

theorem ConnectUse.Sound.evict (h : w.Sound spent m) (hkey : ∀ id, ¬ CachedAt m key id) :
    (w.evict key).Sound spent m := by
  refine ⟨h.seen, fun id hid => ?_, nofun, h.bounded, fun e he hinvalid d hd => ?_⟩
  · obtain hid | hid := List.mem_append.mp hid
    · obtain ⟨p, hp, rfl⟩ := List.mem_map.mp hid
      obtain ⟨hp, hpkey⟩ := List.mem_filter.mp hp
      obtain ⟨hspent, honly⟩ := h.seen p hp
      refine ⟨hspent, fun ⟨key', hin⟩ => hkey p.2 ?_⟩
      rw [← of_decide_eq_true hpkey, ← honly key' hin]
      exact hin
    · exact h.gone id hid
  · exact List.mem_append_right _ (h.surrendered e he hinvalid d hd)

theorem ConnectRecord.Bounded.note {c : ConnectRecord} (h : c.Bounded) {e : ConnectEvent}
    (hdial : ∀ id, e = .dial id → (c.dials = [] ∨ c.Retriable) ∧ ∀ d ∈ c.dials, d.1 ≠ id)
    (hprobed : ∀ r, e = .probed r → c.dials.length ≤ 1) : (c.note e).Bounded := by
  obtain ⟨dials, probe, result⟩ := c
  cases e with
  | dial id =>
    obtain ⟨hreason, hnew⟩ := hdial id rfl
    have hnodup : (((id, none) :: dials).map (·.1)).Nodup := by
      refine List.nodup_cons.mpr ⟨fun hmem => ?_, h.distinct⟩
      obtain ⟨d, hd, rfl⟩ := List.mem_map.mp hmem
      exact hnew d hd rfl
    obtain hnil | ⟨first, e, hone, hreason⟩ := hreason
    · obtain rfl : dials = [] := hnil
      refine ⟨Nat.le_succ 1, hnodup, fun second first h => ?_⟩
      cases h
    · obtain rfl : dials = [(first, some (.error e))] := hone
      refine ⟨le_rfl, hnodup, ?_⟩
      rintro _ _ ⟨⟩
      exact ⟨e, rfl, hreason⟩
  | dialed r =>
    cases dials with
    | nil => exact h
    | cons last before =>
      refine ⟨h.few, h.distinct, ?_⟩
      rintro _ first ⟨⟩
      exact h.reason last first rfl
  | probed r =>
    refine ⟨h.few, h.distinct, fun second first hdials => ?_⟩
    obtain rfl : dials = [second, first] := hdials
    cases Nat.not_succ_le_self 1 (hprobed r rfl)
  | returned r => exact ⟨h.few, h.distinct, h.reason⟩

theorem ConnectUse.Sound.note (h : w.Sound spent m) {e : ConnectEvent}
    (hresult : w.record.result = none) (hallows : w.Allows e) :
    ConnectUse.Sound spent m { w with record := w.record.note e } := by
  have hbounded : (w.record.note e).Bounded := by
    refine h.bounded.note ?_ ?_
    · rintro id rfl
      obtain ⟨hobtained, hnil | ⟨hretry, hgone⟩⟩ := hallows
      · rw [hnil]
        exact ⟨.inl rfl, nofun⟩
      · refine ⟨.inr hretry, fun d hd hid => ?_⟩
        exact h.obtained id hobtained (hid ▸ hgone d hd)
    · rintro r rfl
      exact hallows
  refine ⟨h.seen, h.gone, h.obtained, hbounded, fun e' he' hinvalid => ?_⟩
  cases e with
  | returned r =>
    obtain rfl : r = .error e' := Option.some.inj he'
    exact hallows e' rfl hinvalid
  | _ =>
    rw [show w.record.result = some (.error e') from he'] at hresult
    cases hresult

end Sound

/-- The part of where each task is that is about its sessions. -/
def sessionsOf (g : Nat → ConnectLog × SessionUse × ConnectUse) (i : Nat) : TaskLog × SessionUse :=
  ((g i).1.task, (g i).2.1)

/-- Every session in the cache or pending is the controller's, and no session is cached twice. -/
def Distinct {V : Type} (g : Nat → ConnectLog × SessionUse × ConnectUse) (s : ClientState V) : Prop :=
  Fresh (sessionsOf g) s ∧ Unique s.dialSessions

/-- The record of each task is its observer's, and what it knows of the cache is so. -/
def Retrying {V : Type} (g : Nat → ConnectLog × SessionUse × ConnectUse) (s : ClientState V) : Prop :=
  ∀ i, (g i).1.record = (g i).2.2.record ∧
    (g i).2.2.Sound (fun id => Spent id (sessionsOf g) s) s.dialSessions

section Tracks

variable {V β : Type} [DecidableEq V] {g : Nat → ConnectLog × SessionUse × ConnectUse}
  {s : ClientState V} {i : Nat}

omit [DecidableEq V] in
theorem sessionsOf_update (g : Nat → ConnectLog × SessionUse × ConnectUse) (i : Nat) (l : ConnectLog)
    (u : SessionUse) (w : ConnectUse) :
    sessionsOf (Function.update g i (l, u, w)) = Function.update (sessionsOf g) i (l.task, u) := by
  funext j
  simp only [sessionsOf, Function.update_apply]
  split_ifs <;> rfl

omit [DecidableEq V] in
theorem sessionsOf_noted (g : Nat → ConnectLog × SessionUse × ConnectUse) (i : Nat)
    (record : ConnectRecord) (w : ConnectUse) :
    sessionsOf (Function.update g i ({ (g i).1 with record }, (g i).2.1, w)) = sessionsOf g := by
  rw [sessionsOf_update]
  exact Function.update_eq_self i (sessionsOf g)

theorem exec_client {c : Cmd V β} {x : ConnectReply V} {l : ConnectLog}
    {r : β × ConnectLog × ClientState V} (hx : ConnectCmd.exec (.inl c) x l s = some r) :
    ∃ y r', c.exec y l.task s = some r' ∧ r = (r'.1, { l with task := r'.2.1 }, r'.2.2) := by
  cases x with
  | client y =>
    obtain ⟨r', hr', rfl⟩ := Option.map_eq_some_iff.mp hx
    exact ⟨y, r', hr', rfl⟩
  | _ => cases hx

theorem exec_dial {c : DialCmd β} {x : ConnectReply V} {l : ConnectLog}
    {r : β × ConnectLog × ClientState V} (hx : ConnectCmd.exec (.inr c) x l s = some r) :
    ∃ b, r = (b, { l with record := c.noted l.record }, s) := by
  obtain ⟨b, -, rfl⟩ := Option.map_eq_some_iff.mp hx
  exact ⟨b, rfl⟩

/-- A session that is cached once the step is done was cached before, or the task has put it there. -/
theorem Unique.exec {g : Nat → TaskLog × SessionUse} {c : Cmd V β} {x : Reply V} {l : TaskLog}
    {r : β × TaskLog × ClientState V} (h : Unique s.dialSessions) (hfresh : Fresh g s)
    (hx : c.exec x l s = some r) (hmay : (sessionUse V).may (g i).2 c) :
    Unique r.2.2.dialSessions := by
  have hkeep (hc : c.caches = false) : Unique r.2.2.dialSessions := by
    intro id key key' hin hin'
    have hold (k : String) (h : CachedAt r.2.2.dialSessions k id) : CachedAt s.dialSessions k id :=
      exec_cachedAt hx hmay (hfresh.answered i) hc h
    exact h id key key' (hold key hin) (hold key' hin')
  cases c with
  | cacheDialSession serviceId session =>
    cases hx
    have hnew : ¬ Cached s.dialSessions session.id := hfresh.tickets.unspent i session.id hmay
    intro id key key' hin hin'
    obtain ⟨hkey, hid⟩ | hold := cachedAt_insert hin <;>
      obtain ⟨hkey', hid'⟩ | hold' := cachedAt_insert hin'
    · exact hkey.trans hkey'.symm
    · exact absurd ⟨key', hid ▸ hold'⟩ hnew
    · exact absurd ⟨key, hid' ▸ hold⟩ hnew
    · exact h id key key' hold hold'
  | _ => exact hkeep rfl

variable (d : Dialer)

theorem distinct_tracks : Crew.Tracks (connectEffects V) (ConnectOp.prog d) (fun _ _ _ => True)
    ((sessionUse V).left.prod (connectUse V)) (.idle, .idle) Distinct where
  spawn := by
    intro op
    cases op with
    | client op =>
      have hop : (onClient (op.prog (V := V) d.cfg)).Obeys (sessionUse V).left .idle :=
        Program.Ensures.embed (SessionUse.obeys_prog d.cfg op .idle)
      exact hop.prod (obeys_onClient _)
    | connect args =>
      have hsession : (ConnectOp.prog (V := V) d (.connect args)).Obeys (sessionUse V).left .idle :=
        (SessionUse.obeys_connectInner d args .idle).bind fun _ _ => ⟨trivial, fun _ => trivial⟩
      have hretry : (ConnectOp.prog (V := V) d (.connect args)).Obeys (connectUse V) .idle :=
        (ensures_connectInner d args).bind fun _ _ hw => ⟨hw, fun _ => trivial⟩
      exact hsession.prod hretry
  lost := ⟨trivial, trivial⟩
  exec := by
    rintro γ c x g i s r ⟨hfresh, hunique⟩ ⟨hmay, -⟩ _ hx
    cases c with
    | inl c =>
      obtain ⟨y, r', hx', rfl⟩ := exec_client hx
      refine ⟨?_, hunique.exec (g := sessionsOf g) hfresh hx' hmay⟩
      show Fresh (sessionsOf (Function.update g i (_, _, _))) r'.2.2
      rw [sessionsOf_update]
      exact (fresh_tracks d.cfg).exec c y (sessionsOf g) i s r' hfresh hmay trivial hx'
    | inr c =>
      obtain ⟨b, rfl⟩ := exec_dial hx
      refine ⟨?_, hunique⟩
      show Fresh (sessionsOf (Function.update g i ({ (g i).1 with record := _ }, (g i).2.1, _))) s
      rw [sessionsOf_noted]
      exact hfresh
  drop := by
    rintro γ c g i s ⟨hfresh, hunique⟩ _ _
    refine ⟨?_, (release_dialSessions (g i).1.task s).symm ▸ hunique⟩
    rw [sessionsOf_update]
    exact hfresh.drop i
  env := by
    rintro e g s s' he ⟨hfresh, hunique⟩
    obtain ⟨-, rfl⟩ := changeServices_spec he
    exact ⟨⟨hfresh.tickets, hfresh.dead, hfresh.answered⟩, hunique⟩

/-- What a connect learns from a command of the client is so once the command is done. -/
theorem ConnectUse.Sound.client {c : Cmd V β} {x : Reply V} {l : TaskLog}
    {r : β × TaskLog × ClientState V} {spent : String → Prop} {w : ConnectUse}
    (h : w.Sound spent r.2.2.dialSessions) (hx : c.exec x l s = some r)
    (hunique : Unique r.2.2.dialSessions) (hspent : ∀ id, Cached r.2.2.dialSessions id → spent id) :
    ((connectUse V).next w (.inl c) r.1).Sound spent r.2.2.dialSessions := by
  cases c with
  | cachedDialSession key =>
    cases hx
    cases hd : s.dialSessions[key]? with
    | none => exact h
    | some d => exact h.obtain_ hunique ⟨d, hd, rfl⟩ (hspent d.id ⟨key, d, hd, rfl⟩)
  | cacheDialSession key d =>
    cases hx
    have hin : CachedAt (s.dialSessions.insert key d) key d.id :=
      ⟨d, by rw [lookup_insert, if_pos rfl], rfl⟩
    exact h.obtain_ hunique hin (hspent d.id ⟨key, hin⟩)
  | evictDialSession key =>
    cases hx
    exact h.evict fun id hin => (cachedAt_erase hin).1 rfl
  | _ => exact h

omit [DecidableEq V] in
theorem connectUse_record (w : ConnectUse) (c : Cmd V β) (b : β) :
    ((connectUse V).next w (.inl c) b).record = w.record := by
  cases c with
  | cachedDialSession key => cases b <;> rfl
  | _ => rfl

theorem exec_spent {g : Nat → TaskLog × SessionUse} {c : Cmd V β} {x : Reply V} {l : TaskLog}
    {r : β × TaskLog × ClientState V} (hfresh : Fresh g s) (hx : c.exec x l s = some r)
    (hmay : (sessionUse V).may (g i).2 c) {key id : String} (hspent : Spent id g s)
    (hin : CachedAt r.2.2.dialSessions key id) : CachedAt s.dialSessions key id := by
  cases c with
  | cacheDialSession serviceId session =>
    cases hx
    obtain ⟨-, rfl⟩ | hin := cachedAt_insert hin
    · exact absurd hmay (hspent.2 i)
    · exact hin
  | _ => exact exec_cachedAt hx hmay (hfresh.answered i) rfl hin

theorem retrying_tracks : Crew.Tracks (connectEffects V) (ConnectOp.prog d) (fun _ _ _ => True)
    ((sessionUse V).left.prod (connectUse V)) (.idle, .idle)
      fun g s => Distinct g s ∧ Retrying g s := by
  apply (distinct_tracks d).extend (fun _ _ _ h => h)
  · intro γ c x g i s r hinv hretry hmay _ hx
    obtain ⟨hfresh', hunique'⟩ := (distinct_tracks d).exec c x g i s r hinv hmay trivial hx
    cases c with
    | inl c =>
      obtain ⟨y, r', hx', rfl⟩ := exec_client hx
      dsimp only at hfresh' hunique' ⊢
      have hstep := exec_sessionStep hx' hmay.1 (hinv.1.answered i)
      have hspent (id : String) (h : Spent id (sessionsOf g) s) :
          Spent id (sessionsOf (Function.update g i ({ (g i).1 with task := r'.2.1 },
            (sessionUse V).next (g i).2.1 c r'.1, (connectUse V).next (g i).2.2 (.inl c) r'.1)))
              r'.2.2 ∧
            ∀ key, CachedAt r'.2.2.dialSessions key id → CachedAt s.dialSessions key id := by
        rw [sessionsOf_update]
        exact ⟨h.step hstep, fun key hin => exec_spent hinv.1 hx' hmay.1 h hin⟩
      intro j
      obtain ⟨hrecord, hsound⟩ := hretry j
      have hmono := hsound.mono hspent
      rw [Function.update_apply]
      split_ifs with hij
      · subst hij
        refine ⟨hrecord.trans (connectUse_record _ c r'.1).symm, hmono.client hx' hunique' ?_⟩
        exact fun id hin => hfresh'.tickets.retired hin
      · exact ⟨hrecord, hmono⟩
    | inr c =>
      obtain ⟨b, rfl⟩ := exec_dial hx
      intro j
      obtain ⟨hrecord, hsound⟩ := hretry j
      show _ ∧ ConnectUse.Sound (fun id => Spent id (sessionsOf (Function.update g i
        ({ (g i).1 with record := c.noted (g i).1.record }, (g i).2.1, _))) s) s.dialSessions _
      rw [sessionsOf_noted, Function.update_apply]
      split_ifs with hij
      · subst hij
        refine ⟨congrArg c.noted hrecord, ?_⟩
        cases c with
        | note e => exact hsound.note hmay.2.1 hmay.2.2
        | _ => exact hsound
      · exact ⟨hrecord, hsound⟩
  · intro γ c g i s hinv hretry hmay hd
    have hspent (id : String) (h : Spent id (sessionsOf g) s) :
        Spent id (sessionsOf (Function.update g i (.idle, .idle, .idle))) (s.release (g i).1.task) ∧
          ∀ key, CachedAt (s.release (g i).1.task).dialSessions key id →
            CachedAt s.dialSessions key id := by
      rw [sessionsOf_update, release_dialSessions]
      exact ⟨h.step (release_sessionStep ..), fun _ hin => hin⟩
    intro j
    obtain ⟨hrecord, hsound⟩ := hretry j
    rw [Function.update_apply]
    split_ifs with hij
    · exact ⟨rfl, ConnectUse.sound_idle⟩
    · exact ⟨hrecord, hsound.mono hspent⟩
  · intro e g s s' he hinv hretry
    obtain ⟨-, rfl⟩ := changeServices_spec he
    exact hretry

end Tracks

section Runs

/-- Any number of connects beside the other tasks of a client: each makes at most two dials, of
different sessions, the second one only after a rejected session or a failed probe; and once it has
returned that its session is rejected, none of the sessions it dialed is in the cache. -/
theorem connect_retry_bounded {V : Type} [DecidableEq V] {d : Dialer} {token : AuthToken}
    {services : List (Service V)} {lastChangeAt : Int} {as : List (ConnectAct V)} {s : ConnectTasks V}
    (hrun : run (connectStep d) (.start token services lastChangeAt) as = some s) {i : Nat}
    {task : Worker (ConnectCmd V) ConnectLog} (htask : s.workers[i]? = some task) :
    task.own.record.Bounded ∧
      ∀ e, task.own.record.result = some (.error e) → e.isDialInvalidSession = true →
        ∀ dial ∈ task.own.record.dials, ¬ Cached s.state.dialSessions dial.1 := by
  have hstart : Distinct (fun _ => (.idle, .idle, .idle))
      (ClientState.start token services lastChangeAt) := by
    refine ⟨Fresh.start token services lastChangeAt, fun id key key' hin => ?_⟩
    exact absurd ⟨key, hin⟩ not_cached_empty
  obtain ⟨g, hg⟩ := (retrying_tracks d).run hrun (Crew.runAll_meets _ _)
    ⟨_, Crew.tracked_new ⟨hstart, fun _ => ⟨rfl, ConnectUse.sound_idle⟩⟩⟩
  obtain ⟨hrecord, hsound⟩ := hg.inv.2 i
  rw [hg.own i task htask] at hrecord
  rw [hrecord]
  refine ⟨hsound.bounded, fun e he hinvalid dial hdial => ?_⟩
  exact (hsound.gone dial.1 (hsound.surrendered e he hinvalid dial hdial)).2

/-- A session with one router. -/
def routedSession (id : String) : SessionDetail :=
  ⟨id, "ey", "id", .dial, "api", "me", [⟨"r", "h", [("tls", "tls:r:443")]⟩]⟩

/-- A session created, dialed and rejected. -/
def rejectedActs (id : String) : List (ConnectAct Unit) :=
  [.go 0 (.client .done), .go 0 (.client .done), .go 0 (.client (.session (routedSession id))),
    .go 0 (.client .done), .go 0 .noted, .go 0 (.opened (.ok ())),
    .go 0 (.dialed (.error (.dialRejected (strBytes dialInvalidSessionReason)))), .go 0 .noted,
    .go 0 (.client .done)]

/-- Both sessions of a connect are rejected. -/
def rejectedTwice : List (ConnectAct Unit) :=
  [.spawn (.connect ⟨"svc", none, 1, fun _ => 0⟩), .go 0 (.client .done), .go 0 (.client .done)] ++
    rejectedActs "s1" ++ rejectedActs "s2" ++ [.go 0 .noted]

theorem connect_retry_bounded_rejected :
    ∃ s : ConnectTasks Unit, run (connectStep ⟨⟨.cert, false, false⟩, none, none⟩)
        (.start (.legacy "a") [⟨"id", "svc", false, [], (), []⟩] 0) rejectedTwice = some s ∧
      ∃ task, s.workers[0]? = some task ∧ task.own.record.dials.map (·.1) = ["s2", "s1"] ∧
        ¬ Cached s.state.dialSessions "s1" ∧ ¬ Cached s.state.dialSessions "s2" := by
  obtain ⟨s, hrun, hs⟩ := Option.map_eq_some_iff.mp (show
    (run (connectStep ⟨⟨.cert, false, false⟩, none, none⟩)
      (.start (.legacy "a") [⟨"id", "svc", false, [], (), []⟩] 0) rejectedTwice).map
        (fun s => (s.workers[0]?).map fun task =>
          (task.own.record.dials.map (·.1), task.own.record.result)) =
      some (some (["s2", "s1"],
        some (.error (.edge (.dialRejected (strBytes dialInvalidSessionReason)))))) by rfl)
  obtain ⟨task, htask, hrecord⟩ := Option.map_eq_some_iff.mp hs
  obtain ⟨hdials, hresult⟩ := Prod.mk.inj hrecord
  have hout := (connect_retry_bounded hrun htask).2 _ hresult (by decide +kernel)
  have hgone (id : String) (hid : id ∈ ["s2", "s1"]) : ¬ Cached s.state.dialSessions id := by
    rw [← hdials] at hid
    obtain ⟨dial, hdial, rfl⟩ := List.mem_map.mp hid
    exact hout dial hdial
  exact ⟨s, hrun, task, htask, hdials, hgone "s1" (by decide), hgone "s2" (by decide)⟩

end Runs

end Noa.Edge.Client
