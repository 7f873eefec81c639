import Noa.Edge.Client.State
import Noa.Framework.Crew

namespace Noa.Edge.Client
open Noa.Framework

/-- The lock sections of a client's tasks, their requests to the controller and their other waits,
with what they answer. -/
inductive Cmd (V : Type) : Type → Type
  | readToken : Cmd V (Option AuthToken)
  | storeToken (token : AuthToken) : Cmd V Unit
  | storeExpiry (expiresAt : Option String) : Cmd V Unit
  | lockReauth (call : LockCall) : Cmd V Unit
  | unlockReauth (ok : Bool) : Cmd V Unit
  | postSession (token : AuthToken) (serviceId : String) (type : SessionType) :
      Cmd V (Except Failure SessionDetail)
  | getSessionDetail (token : AuthToken) (id : String) : Cmd V (Except Failure SessionDetail)
  | getServiceEdgeRouters (token : AuthToken) (serviceId sessionToken : String) :
      Cmd V (Except Failure (List SessionEdgeRouter))
  | postAuthenticate (method : String) (body : AuthBody) : Cmd V (Except Failure ApiSession)
  | postMfa (token code : String) : Cmd V (Except Failure Unit)
  | getCurrentApiSession (token : AuthToken) : Cmd V (Except Failure ApiSession)
  | postTokenExchange (subject : String) : Cmd V (Except Failure RefreshedOidc)
  | getServiceUpdates (token : AuthToken) : Cmd V (Except Failure Int)
  | getServices (token : AuthToken) (offset : Nat) (configTypes : List String) :
      Cmd V (Except Failure (List (Service V) × Nat))
  | totpCode : Cmd V (Except String String)
  | backoff : Cmd V Unit
  | pushChannels (token : String) : Cmd V Unit
  | invalidateSessionCert : Cmd V Unit
  | cachedDialSession (serviceId : String) : Cmd V (Option SessionDetail)
  | cacheDialSession (serviceId : String) (session : SessionDetail) : Cmd V Unit
  | evictDialSession (serviceId : String) : Cmd V Unit
  | removeDialSessions (serviceIds : List String) : Cmd V Unit
  | clearDialSessions : Cmd V Unit
  | snapshotDialSessions : Cmd V (List (String × SessionDetail))
  | recacheRefreshed (key snapshotSessionId : String) (refreshed : SessionDetail) : Cmd V Bool
  | evictDead (key snapshotSessionId : String) : Cmd V Bool
  | lastServiceUpdate : Cmd V (Option Int)
  | storeServiceUpdate (instant : Option Int) : Cmd V Unit
  | processServices (fetched : List (Service V)) : Cmd V (List (ServiceEvent V))

/-- What decides a command: the controller's answer, the code of the callback, or the order in which
a map yields its entries. -/
inductive Reply (V : Type) where
  | done
  | failed (f : Failure)
  | session (detail : SessionDetail)
  | edgeRouters (routers : List SessionEdgeRouter)
  | apiSession (session : ApiSession)
  | tokens (tokens : RefreshedOidc)
  | code (code : Except String String)
  | order (iter : List (Service V))
  | entries (entries : List (String × SessionDetail))

/-- The lock as its holder remembers it. -/
structure Guard where
  call : LockCall
  already : Bool
  contacted : Bool
  deriving DecidableEq

/-- What a task has done: the lock it holds, the api-sessions of the token it read and of the token
it stored last, the one it has cleared the cache for, the sessions a legacy api-session of its own
did not find, and the last change of the service list before the first page it fetched. -/
structure TaskLog where
  guard : Option Guard
  readUnder : Option Nat
  storedUnder : Option Nat
  cleared : Option Nat
  notFound : List String
  listedAt : Option Int

def TaskLog.idle : TaskLog := ⟨none, none, none, none, [], none⟩

def TaskLog.contact (l : TaskLog) : TaskLog :=
  { l with guard := l.guard.map fun g => { g with contacted := true } }

/-- A list is as old as its first page. -/
def TaskLog.page (l : TaskLog) (offset : Nat) (lastChangeAt : Int) : TaskLog :=
  if offset = 0 then { l with listedAt := some lastChangeAt } else l

def pageLimit : Nat := 500

namespace Journal

/-- A token obtained while the lock is held, or for the token a request carried; one that completes
an authentication or an exchange under the lock renews the token the call was made for. -/
def grant (j : Journal) (guard : Option Guard) (carried : Option String) (token : String)
    (complete : Bool) : Journal :=
  match guard with
  | some g =>
    { j with
      grants := (g.call.tokenUsed, token) :: j.grants
      renewals := if complete then g.call.tokenUsed :: j.renewals else j.renewals }
  | none =>
    match carried with
    | some used => { j with grants := (used, token) :: j.grants }
    | none => j

def finish (j : Journal) (guard : Option Guard) (cleared : Option Nat) (ok : Bool)
    (live : Option String) : Journal :=
  match guard with
  | some g =>
    { j with
      calls := ⟨g.call, g.already, g.contacted, ok, live⟩ :: j.calls
      completed := if ok then cleared.toList ++ j.completed else j.completed }
  | none => j

end Journal

namespace Cmd

variable {V β : Type}

/-- The controller creates sessions for tokens it issued, under ids it never used. -/
def createSession (s : ClientState V) (token : AuthToken) (detail : SessionDetail) :
    Option (ClientState V) :=
  match s.controller.apiSessionOf token.channelToken with
  | none => none
  | some api =>
    if (s.controller.mintedUnder detail.id).isSome then none
    else some { s with controller :=
      { s.controller with sessions := (detail.id, api) :: s.controller.sessions } }

/-- A new api-session, under a token never issued before. -/
def createApiSession (s : ClientState V) (guard : Option Guard) (session : ApiSession) :
    Option (ClientState V) :=
  if (s.controller.apiSessionOf session.token).isSome then none
  else some { s with
    controller :=
      { s.controller.addToken session.token s.controller.apiSessions with
        apiSessions := s.controller.apiSessions + 1 }
    journal := s.journal.grant guard none session.token session.authQueries.isEmpty }

/-- The api-session of a token, extended under the same token or a new one. -/
def extendApiSession (s : ClientState V) (guard : Option Guard) (token : AuthToken)
    (session : ApiSession) : Option (ClientState V) :=
  match s.controller.apiSessionOf token.channelToken with
  | none => none
  | some api =>
    let journal := s.journal.grant guard (some token.channelToken) session.token
      session.authQueries.isEmpty
    if session.token = token.channelToken then some { s with journal }
    else if (s.controller.apiSessionOf session.token).isSome then none
    else some { s with controller := s.controller.addToken session.token api, journal }

/-- An exchange keeps the api-session of the refresh token it is asked with. -/
def exchangeTokens (s : ClientState V) (guard : Option Guard) (subject : String)
    (tokens : RefreshedOidc) : Option (ClientState V) :=
  match s.controller.refreshTokens.lookup subject with
  | none => none
  | some api =>
    if (s.controller.apiSessionOf tokens.access).isSome then none
    else if tokens.refresh.any fun r => r ≠ subject ∧
        (s.controller.refreshTokens.lookup r).isSome then none
    else some { s with
      controller :=
        { s.controller.addToken tokens.access api with
          refreshTokens := (tokens.refresh.toList.map fun r => (r, api)) ++
            s.controller.refreshTokens }
      journal := s.journal.grant guard none tokens.access true }

/-- A legacy api-session is told that the session does not exist. -/
def provesNotFound (token : AuthToken) : Failure → Bool
  | .http 404 _ _ => token.sessionType = .legacy
  | _ => false

def noteNotFound (l : TaskLog) (token : AuthToken) (id : String) (f : Failure) : TaskLog :=
  if provesNotFound token f then { l with notFound := id :: l.notFound } else l

/-- A request: the controller fails it, or answers as it can. -/
def request {α : Type} (x : Reply V) (l : TaskLog) (s : ClientState V)
    (answer : Reply V → Option (α × ClientState V)) :
    Option (Except Failure α × TaskLog × ClientState V) :=
  match x with
  | .failed f => some (.error f, l.contact, s)
  | x => (answer x).map fun r => (.ok r.1, l.contact, r.2)

variable [DecidableEq V]

def exec (c : Cmd V β) (x : Reply V) (l : TaskLog) (s : ClientState V) :
    Option (β × TaskLog × ClientState V) :=
  match c with
  | .readToken =>
    some (s.token, { l with
      readUnder := s.token.bind fun t => s.controller.apiSessionOf t.channelToken }, s)
  | .storeToken token =>
    some ((), { l with storedUnder := s.controller.apiSessionOf token.channelToken }, { s with
      token := some token
      journal := { s.journal with stored := token.channelToken :: s.journal.stored } })
  | .storeExpiry expiresAt => some ((), l, { s with expiresAt })
  | .lockReauth call =>
    if s.reauthLocked then none
    else
      some ((), { l with
        guard := some ⟨call, s.journal.renewals.contains call.tokenUsed, false⟩
        storedUnder := none
        cleared := none },
        { s with reauthLocked := true })
  | .unlockReauth ok =>
    some ((), { l with guard := none }, { s with
      reauthLocked := false
      journal := s.journal.finish l.guard l.cleared ok (s.token.map (·.channelToken)) })
  | .postSession token _ _ => request x l s fun
    | .session detail => (createSession s token detail).map (detail, ·)
    | _ => none
  | .getSessionDetail token id =>
    match x with
    | .failed f => some (.error f, noteNotFound l.contact token id f, s)
    | .session detail => if detail.id = id then some (.ok detail, l.contact, s) else none
    | _ => none
  | .getServiceEdgeRouters _ _ _ => request x l s fun
    | .edgeRouters routers => some (routers, s)
    | _ => none
  | .postAuthenticate _ _ => request x l s fun
    | .apiSession session => (createApiSession s l.guard session).map (session, ·)
    | _ => none
  | .postMfa _ _ => request x l s fun
    | .done => some ((), s)
    | _ => none
  | .getCurrentApiSession token => request x l s fun
    | .apiSession session => (extendApiSession s l.guard token session).map (session, ·)
    | _ => none
  | .postTokenExchange subject => request x l s fun
    | .tokens tokens => (exchangeTokens s l.guard subject tokens).map (tokens, ·)
    | _ => none
  | .getServiceUpdates _ => request x l s fun
    | .done => some (s.controller.lastChangeAt, s)
    | _ => none
  | .getServices _ offset _ => request x (l.page offset s.controller.lastChangeAt) s fun
    | .done =>
      some (((s.controller.services.drop offset).take pageLimit, s.controller.services.length), s)
    | _ => none
  | .totpCode =>
    match x with
    | .code code => some (code, l, s)
    | _ => none
  | .backoff => some ((), l, s)
  | .pushChannels _ => some ((), l, s)
  | .invalidateSessionCert => some ((), l, { s with sessionCertValid := false })
  | .cachedDialSession serviceId => some (s.dialSessions[serviceId]?, l, s)
  | .cacheDialSession serviceId session =>
    some ((), l, { s with dialSessions := s.dialSessions.insert serviceId session })
  | .evictDialSession serviceId =>
    some ((), l, { s with dialSessions := s.dialSessions.erase serviceId })
  | .removeDialSessions serviceIds =>
    some ((), l, { s with dialSessions := serviceIds.foldl (fun m id => m.erase id) s.dialSessions })
  | .clearDialSessions =>
    some ((), { l with cleared := l.storedUnder }, { s with
      dialSessions := ∅
      journal := { s.journal with clears := l.storedUnder.toList ++ s.journal.clears } })
  | .snapshotDialSessions =>
    match x with
    | .entries entries =>
      if entries.Perm s.dialSessions.toList then some (entries, l, s) else none
    | _ => none
  | .recacheRefreshed key snapshotSessionId refreshed =>
    let (wrote, dialSessions) :=
      recacheRefreshedDialSession s.dialSessions key snapshotSessionId refreshed
    some (wrote, l, { s with dialSessions })
  | .evictDead key snapshotSessionId =>
    let (evicted, dialSessions) := evictDeadDialSession s.dialSessions key snapshotSessionId
    some (evicted, l, { s with dialSessions })
  | .lastServiceUpdate => some (s.lastServiceUpdate, l, s)
  | .storeServiceUpdate instant => some ((), l, { s with lastServiceUpdate := instant })
  | .processServices fetched =>
    match x with
    | .order iter =>
      if iter.Perm (s.services.toList.map (·.2)) then
        let (events, services) := Edge.processServices iter s.services fetched
        some (events, l, { s with
          services
          journal := { s.journal with processedAt := l.listedAt } })
      else none
    | _ => none

/-- The commands that wait, where a caller's timeout can interrupt. -/
def isAwait : Cmd V β → Bool
  | .lockReauth _ => true
  | .postSession _ _ _ => true
  | .getSessionDetail _ _ => true
  | .getServiceEdgeRouters _ _ _ => true
  | .postAuthenticate _ _ => true
  | .postMfa _ _ => true
  | .getCurrentApiSession _ => true
  | .postTokenExchange _ => true
  | .getServiceUpdates _ => true
  | .getServices _ _ _ => true
  | .backoff => true
  | .pushChannels _ => true
  | .invalidateSessionCert => true
  | _ => false

end Cmd

/-- A dropped guard unlocks. -/
def ClientState.release {V : Type} (l : TaskLog) (s : ClientState V) : ClientState V :=
  if l.guard.isSome then { s with reauthLocked := false } else s

/-- The controller's service list changes, at a later instant than ever before. -/
def ClientState.changeServices {V : Type} (change : List (Service V) × Int) (s : ClientState V) :
    Option (ClientState V) :=
  if s.controller.lastChangeAt < change.2 then
    some { s with
      controller := { s.controller with services := change.1, lastChangeAt := change.2 } }
  else none

def clientEffects (V : Type) [DecidableEq V] :
    Effects (Cmd V) (ClientState V) TaskLog (List (Service V) × Int) (Reply V) where
  exec := Cmd.exec
  env := ClientState.changeServices
  idle := .idle
  release := ClientState.release
  droppable := Cmd.isAwait

end Noa.Edge.Client
