import Noa.Edge.Services

namespace Noa.Edge.Client
open Noa.Framework

inductive ApiSessionType where
  | legacy
  | oidc
  deriving DecidableEq

/-- The token of an api-session. -/
inductive AuthToken where
  | legacy (uuid : String)
  | oidc (access : String) (refresh : Option String)
  deriving DecidableEq

namespace AuthToken

def channelToken : AuthToken → String
  | .legacy uuid => uuid
  | .oidc access _ => access

def sessionType : AuthToken → ApiSessionType
  | .legacy _ => .legacy
  | .oidc _ _ => .oidc

def refreshToken : AuthToken → Option String
  | .legacy _ => none
  | .oidc _ refresh => refresh

def requiresRouterTokenUpdate : AuthToken → Bool
  | .legacy _ => false
  | .oidc _ _ => true

end AuthToken

/-- How a request went wrong: a status with the error envelope of the body, or no verdict. -/
inductive Failure where
  | http (status : Nat) (code message : String)
  | response (detail : String)
  deriving DecidableEq

/-- The failures of the calls to the controller. -/
inductive RestError where
  | authHttp (status : Nat) (code message : String)
  | authResponse (detail : String)
  | mfaRequired
  | totpProvider (detail : String)
  | totpCodeRejected
  | servicesHttp (status : Nat) (code message : String)
  | servicesResponse (detail : String)
  | serviceUpdatesHttp (status : Nat) (code message : String)
  | serviceUpdatesResponse (detail : String)
  | controllerUnavailable
  | sessionHttp (status : Nat) (code message : String)
  | sessionResponse (detail : String)
  | sessionCertHttp (status : Nat) (code message : String)
  | oidcHttp (status : Nat) (step message : String)
  | oidcResponse (detail : String)
  | notAuthenticated
  | extJwtReauthUnsupported
  deriving DecidableEq

def isUnauthorized : RestError → Bool
  | .servicesHttp 401 _ _ => true
  | .sessionHttp 401 _ _ => true
  | .sessionCertHttp 401 _ _ => true
  | _ => false

/-- No verdict, a server error, a rate limit or a request timeout. -/
def isRetriableCreateError : RestError → Bool
  | .sessionResponse _ => true
  | .sessionHttp status _ _ => status ≥ 500 || status == 429 || status == 408
  | _ => false

inductive SessionType where
  | dial
  | bind
  deriving DecidableEq

/-- An edge router of a session; its protocols are in the order of their keys. -/
structure SessionEdgeRouter where
  name : String
  hostname : String
  supportedProtocols : List (String × String)
  deriving DecidableEq

structure SessionDetail where
  id : String
  token : String
  serviceId : String
  sessionType : SessionType
  apiSessionId : String
  identityId : String
  edgeRouters : List SessionEdgeRouter
  deriving DecidableEq

/-- `str::replacen` with a count of one. -/
def replaceFirst (pattern by_ : List Char) : List Char → List Char
  | [] => []
  | c :: cs =>
    if pattern.isPrefixOf (c :: cs) then by_ ++ (c :: cs).drop pattern.length
    else c :: replaceFirst pattern by_ cs

def sanitizeSupportedProtocols (protocols : List (String × String)) : List (String × String) :=
  protocols.map fun kv =>
    (kv.1, String.ofList (replaceFirst "://".toList ":".toList kv.2.toList))

def sanitizeRouters (routers : List SessionEdgeRouter) : List SessionEdgeRouter :=
  routers.map fun er =>
    { er with supportedProtocols := sanitizeSupportedProtocols er.supportedProtocols }

/-- The legacy api-session as the controller answers it. -/
structure ApiSession where
  token : String
  expiresAt : Option String
  authQueries : List String
  deriving DecidableEq

/-- The answer of a token exchange; `expiresAt` is its expiry as an absolute time in text, absent
for an `expires_in` of zero. -/
structure RefreshedOidc where
  access : String
  refresh : Option String
  expiresAt : Option String
  deriving DecidableEq

inductive ReauthMethod where
  | cert
  | updb (username password : String)
  | extJwt
  deriving DecidableEq

/-- The body of an authentication; an empty user name is left out of it. -/
inductive AuthBody where
  | empty
  | password (password : String)
  | usernamePassword (username password : String)
  deriving DecidableEq

abbrev DialSessions := Std.ExtTreeMap String SessionDetail

/-- The controller: api-sessions in the order they were created, with the tokens of each; the
sessions created with the api-session of the request; the service list and when it last changed. -/
structure Controller (V : Type) where
  apiSessions : Nat
  tokens : List (String × Nat)
  refreshTokens : List (String × Nat)
  sessions : List (String × Nat)
  services : List (Service V)
  lastChangeAt : Int

/-- A call that works under the re-authentication lock, and the token it was made for. -/
inductive LockCall where
  | reauthenticate (tokenUsed : String)
  | storeRefresh (tokenUsed : String)
  | oidcRefresh (tokenUsed : String)
  deriving DecidableEq

def LockCall.tokenUsed : LockCall → String
  | .reauthenticate t => t
  | .storeRefresh t => t
  | .oidcRefresh t => t

/-- A call that returned: whether its token had been renewed when it got the lock, whether it
contacted the controller, whether it returned `Ok`, and the token it left. -/
structure FinishedCall where
  call : LockCall
  already : Bool
  contacted : Bool
  ok : Bool
  live : Option String
  deriving DecidableEq

/-- What an observer of the client writes down: every token obtained, with the token it was obtained
for; the tokens an authentication or an exchange succeeded for; the tokens stored; the calls that
returned; the api-sessions for which a re-authentication has cleared the cache, and those of them for
which it has returned; the last change of the service list before the one processed last was
fetched. -/
structure Journal where
  grants : List (String × String)
  renewals : List String
  stored : List String
  calls : List FinishedCall
  clears : List Nat
  completed : List Nat
  processedAt : Option Int

/-- What the tasks of a client share. -/
structure ClientState (V : Type) where
  token : Option AuthToken
  expiresAt : Option String
  reauthLocked : Bool
  dialSessions : DialSessions
  sessionCertValid : Bool
  lastServiceUpdate : Option Int
  services : ServiceCache V
  controller : Controller V
  journal : Journal

namespace Controller

variable {V : Type} (c : Controller V)

/-- The api-session a token belongs to. -/
def apiSessionOf (token : String) : Option Nat := c.tokens.lookup token

/-- The api-session a session was created under. -/
def mintedUnder (id : String) : Option Nat := c.sessions.lookup id

def addToken (token : String) (api : Nat) : Controller V :=
  { c with tokens := (token, api) :: c.tokens }

end Controller

/-- A client right after its first authentication. -/
def ClientState.start {V : Type} (token : AuthToken) (services : List (Service V))
    (lastChangeAt : Int) : ClientState V where
  token := some token
  expiresAt := none
  reauthLocked := false
  dialSessions := ∅
  sessionCertValid := true
  lastServiceUpdate := none
  services := ∅
  controller := ⟨1, [(token.channelToken, 0)],
    token.refreshToken.toList.map fun r => (r, 0), [], services, lastChangeAt⟩
  journal := ⟨[], [], [token.channelToken], [], [], [], none⟩

section Cache

/-- The write gate of a refresh: only under the key, and over the session, of its snapshot. -/
def recacheRefreshedDialSession (m : DialSessions) (key snapshotSessionId : String)
    (refreshed : SessionDetail) : Bool × DialSessions :=
  match m[key]? with
  | none => (false, m)
  | some existing =>
    if existing.id ≠ snapshotSessionId then (false, m) else (true, m.insert key refreshed)

/-- The purge gate: only the session of the snapshot is removed. -/
def evictDeadDialSession (m : DialSessions) (key snapshotSessionId : String) :
    Bool × DialSessions :=
  match m[key]? with
  | none => (false, m)
  | some existing =>
    if existing.id ≠ snapshotSessionId then (false, m) else (true, m.erase key)

/-- Only a session a legacy api-session did not find is proven dead. -/
def isProvenDead (apiToken : AuthToken) (err : RestError) : Bool :=
  match apiToken.sessionType with
  | .legacy =>
    match err with
    | .sessionHttp 404 _ _ => true
    | _ => false
  | .oidc => false

end Cache

end Noa.Edge.Client
