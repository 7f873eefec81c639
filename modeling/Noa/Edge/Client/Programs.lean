import Noa.Edge.Client.Commands

namespace Noa.Edge.Client
open Noa.Framework
open Noa.Framework.Program (lift)

abbrev Proc (V : Type) := Program (Cmd V)

/-- What a client is built with; the callback for one-time codes and the session certificate are
optional. -/
structure ClientConfig where
  method : ReauthMethod
  mfaProvider : Bool
  sessionCert : Bool

def authError : Failure → RestError
  | .http status code message => .authHttp status code message
  | .response detail => .authResponse detail

def sessionError : Failure → RestError
  | .http status code message => .sessionHttp status code message
  | .response detail => .sessionResponse detail

def servicesError : Failure → RestError
  | .http status code message => .servicesHttp status code message
  | .response detail => .servicesResponse detail

def serviceUpdatesError : Failure → RestError
  | .http status code message => .serviceUpdatesHttp status code message
  | .response detail => .serviceUpdatesResponse detail

def oidcError : Failure → RestError
  | .http status _ message => .oidcHttp status "oidc refresh" message
  | .response detail => .oidcResponse detail

variable {V : Type}

section Authentication

def doRefreshGet (token : AuthToken) : Proc V (Except RestError ApiSession) := do
  let r ← lift (.getCurrentApiSession token)
  pure (r.mapError authError)

def submitMfaCode (token code : String) : Proc V (Except RestError Unit) := do
  match ← lift (.postMfa token code) with
  | .ok () => pure (.ok ())
  | .error (.http 400 _ _) => pure (.error .totpCodeRejected)
  | .error f => pure (.error (authError f))

def satisfyLegacyMfa (mfaProvider : Bool) (session : ApiSession) :
    Proc V (Except RestError ApiSession) :=
  if mfaProvider then do
    match ← lift .totpCode with
    | .error e => pure (.error (.totpProvider e))
    | .ok code =>
      (submitMfaCode session.token code).andThen fun _ =>
        (doRefreshGet (.legacy session.token)).andThen fun refreshed =>
          if refreshed.authQueries.isEmpty then pure (.ok refreshed)
          else pure (.error .mfaRequired)
  else pure (.error .mfaRequired)

def legacyAuthenticate (mfaProvider : Bool) (method : String) (body : AuthBody) :
    Proc V (Except RestError ApiSession) := do
  match ← lift (.postAuthenticate method body) with
  | .error f => pure (.error (authError f))
  | .ok session =>
    if session.authQueries.isEmpty then pure (.ok session)
    else satisfyLegacyMfa mfaProvider session

def doAuthenticate (mfaProvider : Bool) : Proc V (Except RestError ApiSession) :=
  legacyAuthenticate mfaProvider "cert" .empty

def doAuthenticatePassword (mfaProvider : Bool) (username password : String) :
    Proc V (Except RestError ApiSession) :=
  legacyAuthenticate mfaProvider "password"
    (if username = "" then .password password else .usernamePassword username password)

def ReauthMethod.authenticate (mfaProvider : Bool) :
    ReauthMethod → Proc V (Except RestError ApiSession)
  | .cert => doAuthenticate mfaProvider
  | .updb username password => doAuthenticatePassword mfaProvider username password
  | .extJwt => pure (.error .extJwtReauthUnsupported)

end Authentication

section Rotation

def storeTokenAndExpiry (token : AuthToken) (expiresAt : Option String) : Proc V Unit := do
  lift (.storeToken token)
  lift (.storeExpiry expiresAt)

/-- A call under the re-authentication lock, which its guard releases on return. -/
def locked {α : Type} (call : LockCall) (ok : α → Bool) (p : Proc V α) : Proc V α := do
  lift (.lockReauth call)
  let r ← p
  lift (.unlockReauth (ok r))
  pure r

def reauthenticateLocked (cfg : ClientConfig) (tokenUsed : String) :
    Proc V (Except RestError Unit) := do
  let live ← lift .readToken
  if live.map (·.channelToken) ≠ some tokenUsed then pure (.ok ())
  else
    (cfg.method.authenticate cfg.mfaProvider).andThen fun session => do
      storeTokenAndExpiry (.legacy session.token) session.expiresAt
      lift .clearDialSessions
      if cfg.sessionCert then lift .invalidateSessionCert
      pure (.ok ())

def doReauthenticate (cfg : ClientConfig) (tokenUsed : String) : Proc V (Except RestError Unit) :=
  locked (.reauthenticate tokenUsed) Except.isOk (reauthenticateLocked cfg tokenUsed)

def storeRefreshLocked (tokenUsed : String) (newToken : AuthToken) (newExpiresAt : Option String) :
    Proc V Bool := do
  let live ← lift .readToken
  if live.map (·.channelToken) = some tokenUsed then
    storeTokenAndExpiry newToken newExpiresAt
    pure true
  else pure false

def guardedStoreRefresh (tokenUsed : String) (newToken : AuthToken)
    (newExpiresAt : Option String) : Proc V Bool :=
  locked (.storeRefresh tokenUsed) id (storeRefreshLocked tokenUsed newToken newExpiresAt)

def doOidcRefresh (subject : String) : Proc V (Except RestError RefreshedOidc) := do
  let r ← lift (.postTokenExchange subject)
  pure (r.mapError oidcError)

def oidcRefreshLocked (tokenUsed : String) : Proc V (Except RestError Unit) := do
  let current ← lift .readToken
  if current.map (·.channelToken) ≠ some tokenUsed then pure (.ok ())
  else
    match current.bind (·.refreshToken) with
    | none => pure (.ok ())
    | some subject =>
      (doOidcRefresh subject).andThen fun refreshed => do
        storeTokenAndExpiry (.oidc refreshed.access (refreshed.refresh.or (some subject)))
          refreshed.expiresAt
        pure (.ok ())

def doOidcSessionRefresh (tokenUsed : String) : Proc V (Except RestError Unit) :=
  locked (.oidcRefresh tokenUsed) Except.isOk (oidcRefreshLocked tokenUsed)

def pushTokenToLiveChannels : Proc V Unit := do
  match ← lift .readToken with
  | none => pure ()
  | some current =>
    if current.requiresRouterTokenUpdate then lift (.pushChannels current.channelToken)
    else pure ()

def oidcSessionRefresh (tokenUsed : String) : Proc V (Except RestError Unit) :=
  (doOidcSessionRefresh tokenUsed).andThen fun _ => do
    pushTokenToLiveChannels
    pure (.ok ())

/-- What a request answered with `401` calls for. -/
def renew (cfg : ClientConfig) (token : AuthToken) : Proc V (Except RestError Unit) :=
  match token.sessionType with
  | .legacy => doReauthenticate cfg token.channelToken
  | .oidc => oidcSessionRefresh token.channelToken

def withReauthRetry {α : Type} (cfg : ClientConfig)
    (op : AuthToken → Proc V (Except RestError α)) : Proc V (Except RestError α) := do
  match ← lift .readToken with
  | none => pure (.error .notAuthenticated)
  | some token =>
    match ← op token with
    | .ok value => pure (.ok value)
    | .error first =>
      if isUnauthorized first then
        match ← renew cfg token with
        | .error _ => pure (.error first)
        | .ok () =>
          match ← lift .readToken with
          | none => pure (.error .notAuthenticated)
          | some fresh => op fresh
      else pure (.error first)

/-- One turn of the timer of the api-session, with its sleeps. -/
def runRefreshes (cfg : ClientConfig) : Proc V Unit := do
  match ← lift .readToken with
  | some (.oidc _ _) =>
    match (← lift .readToken).bind (·.refreshToken) with
    | none => lift .backoff
    | some _ =>
      lift .backoff
      match ← lift .readToken with
      | none => lift .backoff
      | some tokenUsed =>
        match ← doOidcSessionRefresh tokenUsed.channelToken with
        | .ok () => pushTokenToLiveChannels
        | .error _ => lift .backoff
  | _ =>
    lift .backoff
    match ← lift .readToken with
    | none => lift .backoff
    | some tokenUsed =>
      match ← doRefreshGet tokenUsed with
      | .ok session =>
        let _ ← guardedStoreRefresh tokenUsed.channelToken (.legacy session.token) session.expiresAt
        pure ()
      | .error (.authHttp 401 _ _) =>
        let _ ← doReauthenticate cfg tokenUsed.channelToken
        lift .backoff
      | .error _ => lift .backoff

end Rotation

section Sessions

def doCreateSession (token : AuthToken) (serviceId : String) (type : SessionType) :
    Proc V (Except RestError SessionDetail) := do
  let r ← lift (.postSession token serviceId type)
  pure ((r.mapError sessionError).map fun detail =>
    { detail with edgeRouters := sanitizeRouters detail.edgeRouters })

def createSession (cfg : ClientConfig) (serviceId : String) (type : SessionType) :
    Proc V (Except RestError SessionDetail) :=
  withReauthRetry cfg fun token => doCreateSession token serviceId type

/-- `retries` is what the budget of the backoff leaves room for. -/
def createSessionWithPolicy (cfg : ClientConfig) (serviceId : String) (type : SessionType) :
    Nat → Proc V (Except RestError SessionDetail)
  | 0 => createSession cfg serviceId type
  | retries + 1 => do
    match ← createSession cfg serviceId type with
    | .ok session => pure (.ok session)
    | .error e =>
      if isRetriableCreateError e then
        lift .backoff
        createSessionWithPolicy cfg serviceId type retries
      else pure (.error e)

def getOrCreateDialSession (cfg : ClientConfig) (serviceId : String) (retries : Nat) :
    Proc V (Except RestError SessionDetail) := do
  match ← lift (.cachedDialSession serviceId) with
  | some session => pure (.ok session)
  | none =>
    (createSessionWithPolicy cfg serviceId .dial retries).andThen fun session => do
      lift (.cacheDialSession serviceId session)
      pure (.ok session)

def doGetServiceEdgeRouters (token : AuthToken) (serviceId sessionToken : String) :
    Proc V (Except RestError (List SessionEdgeRouter)) := do
  let r ← lift (.getServiceEdgeRouters token serviceId sessionToken)
  pure ((r.mapError sessionError).map sanitizeRouters)

def doGetSessionDetail (token : AuthToken) (id : String) :
    Proc V (Except RestError SessionDetail) := do
  let r ← lift (.getSessionDetail token id)
  pure ((r.mapError sessionError).map fun detail =>
    { detail with edgeRouters := sanitizeRouters detail.edgeRouters })

def jwtTokenPrefix : String := "ey"

def refreshSessionProbe (token : AuthToken) (session : SessionDetail) :
    Proc V (Except RestError SessionDetail) :=
  if session.token.startsWith jwtTokenPrefix then
    (doGetServiceEdgeRouters token session.serviceId session.token).andThen fun edgeRouters =>
      pure (.ok { session with edgeRouters })
  else doGetSessionDetail token session.id

def refreshSession (session : SessionDetail) : Proc V (Except RestError SessionDetail) := do
  match ← lift .readToken with
  | none => pure (.error .notAuthenticated)
  | some token =>
    (refreshSessionProbe token session).andThen fun refreshed => do
      let _ ← lift (.recacheRefreshed session.serviceId session.id refreshed)
      pure (.ok refreshed)

/-- Only the edge routers of a detail are taken, never its token. -/
def refreshSessionProbeDurable (token : AuthToken) (session : SessionDetail) :
    Proc V (Except RestError SessionDetail) :=
  match token.sessionType with
  | .legacy =>
    (doGetSessionDetail token session.id).andThen fun detail =>
      pure (.ok { session with edgeRouters := detail.edgeRouters })
  | .oidc =>
    (doGetServiceEdgeRouters token session.serviceId session.token).andThen fun edgeRouters =>
      pure (.ok { session with edgeRouters })

/-- The probes of a tick; answers the sessions to purge, by the key of the snapshot. -/
def probeSessions (token : AuthToken) :
    List (String × SessionDetail) → Proc V (List (String × String))
  | [] => pure []
  | (key, session) :: rest => do
    match ← refreshSessionProbeDurable token session with
    | .ok refreshed =>
      let _ ← lift (.recacheRefreshed key session.id refreshed)
      probeSessions token rest
    | .error e =>
      let purge ← probeSessions token rest
      pure (if isProvenDead token e then (key, session.id) :: purge else purge)

def purgeSessions : List (String × String) → Proc V Unit
  | [] => pure ()
  | (key, id) :: rest => do
    let _ ← lift (.evictDead key id)
    purgeSessions rest

def sessionRefreshTick : Proc V Unit := do
  match ← lift .readToken with
  | none => pure ()
  | some token =>
    let snapshot ← lift .snapshotDialSessions
    let toPurge ← probeSessions token snapshot
    purgeSessions toPurge

end Sessions

section Services

/-- The pages of the service list. `pages` is how many requests the caller sees answered: one that
goes on is cut there, as by a failed request. -/
def listPages (token : AuthToken) (configTypes : List String) :
    Nat → Nat → List (Service V) → Proc V (Except RestError (List (Service V)))
  | 0, _, _ => pure (.error (.servicesResponse "request failed"))
  | pages + 1, offset, out => do
    match ← lift (.getServices token offset configTypes) with
    | .error f => pure (.error (servicesError f))
    | .ok (page, total) =>
      if total ≤ offset + pageLimit then pure (.ok (out ++ page))
      else listPages token configTypes pages (offset + pageLimit) (out ++ page)

def doListServices (pages : Nat) (token : AuthToken) (configTypes : List String) :
    Proc V (Except RestError (List (Service V))) :=
  listPages token configTypes pages 0 []

def listServicesWithConfigTypes (cfg : ClientConfig) (pages : Nat) (configTypes : List String) :
    Proc V (Except RestError (List (Service V))) :=
  withReauthRetry cfg fun token => doListServices pages token configTypes

def checkServiceListUpdateFree (token : AuthToken) :
    Proc V (Except RestError (Bool × Option Int)) := do
  match ← lift (.getServiceUpdates token) with
  | .error f => pure (.error (serviceUpdatesError f))
  | .ok newTs =>
    let stored ← lift .lastServiceUpdate
    pure (.ok (stored ≠ some newTs, some newTs))

def checkServiceListUpdate : Proc V (Except RestError (Bool × Option Int)) := do
  match ← lift .readToken with
  | none => pure (.error .notAuthenticated)
  | some token => checkServiceListUpdateFree token

def removedIds (events : List (ServiceEvent V)) : List String :=
  events.filterMap fun
    | .removed svc => some svc.id
    | _ => none

def storeAndProcess (fetched : List (Service V)) (newTs : Option Int) :
    Proc V (List (ServiceEvent V)) := do
  lift (.storeServiceUpdate newTs)
  let events ← lift (.processServices fetched)
  if removedIds events ≠ [] then lift (.removeDialSessions (removedIds events))
  pure events

/-- A check that failed asks for a fetch, unless the controller is unavailable. -/
def checkOutcome : Except RestError (Bool × Option Int) → Except RestError (Bool × Option Int)
  | .ok pair => .ok pair
  | .error (.serviceUpdatesHttp 503 _ _) => .error .controllerUnavailable
  | .error .controllerUnavailable => .error .controllerUnavailable
  | .error _ => .ok (true, none)

/-- The fetch and its processing, gated by a check. -/
def fetchIfChanged (check : Proc V (Except RestError (Bool × Option Int)))
    (list : Proc V (Except RestError (List (Service V)))) :
    Proc V (Except RestError (List (ServiceEvent V))) := do
  match checkOutcome (← check) with
  | .error e => pure (.error e)
  | .ok (false, _) => pure (.ok [])
  | .ok (true, newTs) =>
    list.andThen fun fetched => do
      let events ← storeAndProcess fetched newTs
      pure (.ok events)

def pollServices (cfg : ClientConfig) (pages : Nat) (configTypes : List String) :
    Proc V (Except RestError (List (ServiceEvent V))) :=
  (listServicesWithConfigTypes cfg pages configTypes).andThen fun fetched => do
    let events ← storeAndProcess fetched none
    pure (.ok events)

def pollServicesIfChanged (cfg : ClientConfig) (pages : Nat) (configTypes : List String) :
    Proc V (Except RestError (List (ServiceEvent V))) :=
  fetchIfChanged checkServiceListUpdate (listServicesWithConfigTypes cfg pages configTypes)

def serviceRefreshTick (pages : Nat) (configTypes : List String) :
    Proc V (Except RestError (List (ServiceEvent V))) := do
  match ← lift .readToken with
  | none => pure (.error .notAuthenticated)
  | some token =>
    fetchIfChanged (checkServiceListUpdateFree token) (doListServices pages token configTypes)

end Services

/-- The tasks of a client. -/
inductive ClientOp where
  | getOrCreateDialSession (serviceId : String) (retries : Nat)
  | refreshSession (session : SessionDetail)
  | evictDialSession (serviceId : String)
  | sessionRefreshTick
  | pollServices (pages : Nat) (configTypes : List String)
  | pollServicesIfChanged (pages : Nat) (configTypes : List String)
  | serviceRefreshTick (pages : Nat) (configTypes : List String)
  | reauthenticate (tokenUsed : String)
  | oidcSessionRefresh (tokenUsed : String)
  | runRefreshes

def ClientOp.prog (cfg : ClientConfig) : ClientOp → Proc V Unit
  | .getOrCreateDialSession serviceId retries => do
    let _ ← Client.getOrCreateDialSession cfg serviceId retries
  | .refreshSession session => do
    let _ ← Client.refreshSession session
  | .evictDialSession serviceId => lift (.evictDialSession serviceId)
  | .sessionRefreshTick => Client.sessionRefreshTick
  | .pollServices pages configTypes => do
    let _ ← Client.pollServices cfg pages configTypes
  | .pollServicesIfChanged pages configTypes => do
    let _ ← Client.pollServicesIfChanged cfg pages configTypes
  | .serviceRefreshTick pages configTypes => do
    let _ ← Client.serviceRefreshTick pages configTypes
  | .reauthenticate tokenUsed => do
    let _ ← doReauthenticate cfg tokenUsed
  | .oidcSessionRefresh tokenUsed => do
    let _ ← Client.oidcSessionRefresh tokenUsed
  | .runRefreshes => Client.runRefreshes cfg

abbrev ClientTasks (V : Type) := Crew (Cmd V) (ClientState V) TaskLog

abbrev ClientAct (V : Type) := PoolAct ClientOp (List (Service V) × Int) (Reply V)

/-- One step of a client with any number of tasks. -/
def clientStep [DecidableEq V] (cfg : ClientConfig) (s : ClientTasks V) (a : ClientAct V) :
    Option (ClientTasks V) :=
  s.step (clientEffects V) (ClientOp.prog cfg) a

def ClientTasks.start (token : AuthToken) (services : List (Service V)) (lastChangeAt : Int) :
    ClientTasks V :=
  ⟨[], .start token services lastChangeAt⟩

end Noa.Edge.Client
