import Noa.Edge.Client.RefreshTimer
import Noa.Edge.Client.Rotation
import Noa.Framework.Locks
import Noa.Framework.Text

namespace Noa.Edge.Client
open Noa.Framework
open Noa.Framework.Program (lift)

/-- `RENEW_BUFFER`. -/
def renewBuffer : Nat := fromSecs (5 * 60)

theorem SystemTime.epoch_lower : -(2 ^ 63 * 10 ^ 9) ≤ (0 : Int) := by decide

theorem SystemTime.epoch_upper : (0 : Int) < 2 ^ 63 * 10 ^ 9 := by decide

def SystemTime.unixEpoch : SystemTime := ⟨0, epoch_lower, epoch_upper⟩

/-- The failures of a channel's configuration. -/
inductive ConfigError where
  | rest (e : RestError)
  | sessionCertResponse (detail : String)
  | identityLoad (detail : String)
  | tlsSetup (detail : String)
  deriving DecidableEq

def ConfigError.isUnauthorized : ConfigError → Bool
  | .rest e => Client.isUnauthorized e
  | _ => false

/-- What the libraries for certificates and keys are used for; their failures are texts. -/
structure CertLibs where
  /-- The key in its own form and a request for the session certificate, from the text of a key. -/
  csrFromKey : String → Except String (String × String)
  /-- The end of the first certificate's validity. -/
  notAfter : String → Except String (Option SystemTime)
  certDers : String → Except String (List (List UInt8))
  keyDer : String → Except String (Option (List UInt8))
  commonName : String → Option String
  addRoot : List UInt8 → Except String Unit
  clientAuth : List (List UInt8) → List UInt8 → Except String Unit

/-- The certificate of an api-session as the controller answers it. -/
structure ApiSessionCertificate where
  id : String
  certificate : String

structure SessionCert where
  leafPem : String
  chainPem : String
  keyPem : String
  id : String

def pemCertBegin : Text := "-----BEGIN CERTIFICATE-----".toList
def pemCertEnd : Text := "-----END CERTIFICATE-----".toList

/-- The rest of a text from the first occurrence of a pattern. -/
def fromFirst (pat : Text) : Text → Option Text
  | [] => none
  | c :: cs => if pat.isPrefixOf (c :: cs) then some (c :: cs) else fromFirst pat cs

/-- The start of a text up to the end of the first occurrence of a pattern. -/
def throughFirst (pat : Text) : Text → Option Text
  | [] => none
  | c :: cs => if pat.isPrefixOf (c :: cs) then some pat else (throughFirst pat cs).map (c :: ·)

def extractLeafPem (chain : String) : Except ConfigError String :=
  match fromFirst pemCertBegin chain.toList with
  | none => .error (.sessionCertResponse "response certificate has no PEM block")
  | some rest =>
    match throughFirst pemCertEnd rest with
    | none => .error (.sessionCertResponse "response certificate PEM block is unterminated")
    | some leaf => .ok (String.ofList (leaf ++ ['\n']))

section Holder

variable (C : CertLibs)

def parseNotAfter (leafPem : String) : Except ConfigError SystemTime :=
  match C.notAfter leafPem with
  | .error e => .error (.sessionCertResponse ("parse leaf: " ++ e))
  | .ok none => .error (.sessionCertResponse "session-cert leaf PEM has no certificate")
  | .ok (some t) => .ok t

def parseLeafToDer (leafPem : String) : Except ConfigError (List (List UInt8)) :=
  match C.certDers leafPem with
  | .error e => .error (.identityLoad ("session-cert leaf: " ++ e))
  | .ok [] => .error (.identityLoad "no certificate in session-cert leaf")
  | .ok certs => .ok certs

def parseKeyToDer (keyPem : String) : Except ConfigError (List UInt8) :=
  match C.keyDer keyPem with
  | .error e => .error (.identityLoad ("session-cert key: " ++ e))
  | .ok none => .error (.identityLoad "no private key in session-cert key")
  | .ok (some key) => .ok key

/-- The certificate a client presents to edge routers, with its key and the roots it trusts. -/
structure SessionCertState where
  leafPem : String
  keyPem : String
  rootDers : List (List UInt8)
  notAfter : SystemTime

namespace SessionCertState

def new (cert : SessionCert) (rootDers : List (List UInt8)) : Except ConfigError SessionCertState :=
  (parseNotAfter C cert.leafPem).map fun notAfter => ⟨cert.leafPem, cert.keyPem, rootDers, notAfter⟩

def invalidate (st : SessionCertState) : SessionCertState := { st with notAfter := .unixEpoch }

def isStale (st : SessionCertState) (now : SystemTime) : Bool :=
  st.notAfter.nanos ≤ now.nanos + renewBuffer

end SessionCertState

structure ChannelTlsParts where
  certChain : List (List UInt8)
  key : List UInt8
  roots : List (List UInt8)
  cn : String

/-- The TLS configuration of a channel. -/
structure TlsConfig where
  roots : List (List UInt8)
  certChain : List (List UInt8)
  key : List UInt8

def ChannelTlsParts.intoConfig (parts : ChannelTlsParts) : Except ConfigError (TlsConfig × String) :=
  match parts.roots.forM C.addRoot with
  | .error e => .error (.tlsSetup ("add ca: " ++ e))
  | .ok () =>
    match C.clientAuth parts.certChain parts.key with
    | .error e => .error (.tlsSetup e)
    | .ok () => .ok (⟨parts.roots, parts.certChain, parts.key⟩, parts.cn)

def SessionCertState.tlsParts (st : SessionCertState) : Except ConfigError ChannelTlsParts := do
  let certChain ← parseLeafToDer C st.leafPem
  let key ← parseKeyToDer C st.keyPem
  pure ⟨certChain, key, st.rootDers, (C.commonName st.leafPem).getD ""⟩

end Holder

/-- What is done with the certificate under its lock. -/
inductive HolderCmd : Type → Type
  | lockHolder : HolderCmd Unit
  | unlockHolder : HolderCmd Unit
  | invalidate : HolderCmd Unit
  /-- The key to renew a stale certificate with. -/
  | staleKey : HolderCmd (Option String)
  | postCertificate (token : AuthToken) (csrPem : String) :
      HolderCmd (Except Failure ApiSessionCertificate)
  | install (leafPem : String) (notAfter : SystemTime) : HolderCmd Unit
  | readHolder : HolderCmd SessionCertState

/-- The commands of a client and of its certificate. -/
abbrev CertCmd (V β : Type) := Cmd V β ⊕ HolderCmd β

abbrev CertProc (V : Type) := Program (CertCmd V)

section Programs

variable {V α : Type} (C : CertLibs)

def sessionCertError : Failure → ConfigError
  | .http status code message => .rest (.sessionCertHttp status code message)
  | .response detail => .sessionCertResponse detail

/-- Invalidating the certificate takes its lock. -/
def withHolder {γ : Type} : Cmd V γ → CertProc V γ
  | .invalidateSessionCert => do
    lift (.inr .lockHolder)
    lift (.inr .invalidate)
    lift (.inr .unlockHolder)
  | c => lift (.inl c)

def postCsrAndParse (token : AuthToken) (csrPem keyPem : String) :
    CertProc V (Except ConfigError SessionCert) := do
  match ← lift (.inr (.postCertificate token csrPem)) with
  | .error f => pure (.error (sessionCertError f))
  | .ok answer =>
    pure ((extractLeafPem answer.certificate).map fun leafPem =>
      ⟨leafPem, answer.certificate, keyPem, answer.id⟩)

def remintApiSessionCert (token : AuthToken) (keyPem : String) :
    CertProc V (Except ConfigError SessionCert) :=
  match C.csrFromKey keyPem with
  | .error e => pure (.error (.sessionCertResponse ("csr: " ++ e)))
  | .ok (keyPem, csrPem) => postCsrAndParse token csrPem keyPem

def ensureFresh (token : AuthToken) : CertProc V (Except ConfigError ChannelTlsParts) := do
  let parts : CertProc V (Except ConfigError ChannelTlsParts) := do
    let st ← lift (.inr .readHolder)
    pure (st.tlsParts C)
  match ← lift (.inr .staleKey) with
  | none => parts
  | some keyPem =>
    (remintApiSessionCert C token keyPem).andThen fun fresh =>
      match parseNotAfter C fresh.leafPem with
      | .error e => pure (.error e)
      | .ok notAfter => do
        lift (.inr (.install fresh.leafPem notAfter))
        parts

/-- `withReauthRetry` for an operation with commands and failures of its own. -/
def withReauthRetryOver {Cmd' : Type → Type} {ε : Type} (readToken : Program Cmd' (Option AuthToken))
    (renew : AuthToken → Program Cmd' (Except RestError Unit)) (unauthorized : ε → Bool)
    (rest : RestError → ε) (op : AuthToken → Program Cmd' (Except ε α)) :
    Program Cmd' (Except ε α) := do
  match ← readToken with
  | none => pure (.error (rest .notAuthenticated))
  | some token =>
    match ← op token with
    | .ok value => pure (.ok value)
    | .error first =>
      if unauthorized first then
        match ← renew token with
        | .error _ => pure (.error first)
        | .ok () =>
          match ← readToken with
          | none => pure (.error (rest .notAuthenticated))
          | some fresh => op fresh
      else pure (.error first)

theorem withReauthRetryOver_client (cfg : ClientConfig)
    (op : AuthToken → Proc V (Except RestError α)) :
    withReauthRetryOver (lift .readToken) (renew cfg) isUnauthorized id op =
      withReauthRetry cfg op := by
  refine bind_congr fun token => ?_
  cases token with
  | none => rfl
  | some token =>
    refine bind_congr fun r => ?_
    cases r <;> rfl

/-- The certificate's lock is held from the check to the end, and given back before the
re-authentication that a `401` calls for. -/
def ensureFreshLocked (token : AuthToken) : CertProc V (Except ConfigError ChannelTlsParts) := do
  lift (.inr .lockHolder)
  let r ← ensureFresh C token
  lift (.inr .unlockHolder)
  pure r

/-- `identity` is the configuration of a client that has a certificate of its own. -/
def channelClientConfig (identity : Except ConfigError (TlsConfig × String)) (cfg : ClientConfig) :
    CertProc V (Except ConfigError (TlsConfig × String)) :=
  if cfg.sessionCert then
    (withReauthRetryOver (lift (.inl .readToken)) (fun token => (renew cfg token).handle withHolder)
      ConfigError.isUnauthorized .rest (ensureFreshLocked C)).andThen fun parts =>
        pure (parts.intoConfig C)
  else pure identity

/-- The tasks of a client, and those that open channels. -/
inductive CertOp where
  | client (op : ClientOp)
  | channelClientConfig

def CertOp.prog (identity : Except ConfigError (TlsConfig × String)) (cfg : ClientConfig) :
    CertOp → CertProc V Unit
  | .client op => (op.prog cfg).handle withHolder
  | .channelClientConfig => do
    let _ ← Client.channelClientConfig C identity cfg

end Programs

/-- A client with its certificate. -/
structure CertState (V : Type) where
  client : ClientState V
  holder : SessionCertState
  holderLocked : Bool
  now : SystemTime

/-- What a task has done, and whether it holds the certificate's lock. -/
structure CertLog where
  task : TaskLog
  holds : Bool

def CertLog.idle : CertLog := ⟨.idle, false⟩

inductive CertReply (V : Type) where
  | client (x : Reply V)
  | failed (f : Failure)
  | certificate (answer : ApiSessionCertificate)

section Effects

variable {V β : Type}

/-- The controller issues certificates for tokens it issued. -/
def HolderCmd.exec (c : HolderCmd β) (x : CertReply V) (l : CertLog) (s : CertState V) :
    Option (β × CertLog × CertState V) :=
  match c with
  | .lockHolder =>
    if s.holderLocked then none
    else some ((), { l with holds := true }, { s with holderLocked := true })
  | .unlockHolder => some ((), { l with holds := false }, { s with holderLocked := false })
  | .invalidate =>
    some ((), l, { s with
      client := { s.client with sessionCertValid := false }
      holder := s.holder.invalidate })
  | .staleKey => some (if s.holder.isStale s.now then some s.holder.keyPem else none, l, s)
  | .postCertificate token _ =>
    match x with
    | .failed f => some (.error f, l, s)
    | .certificate answer =>
      (s.client.controller.apiSessionOf token.channelToken).map fun _ => (.ok answer, l, s)
    | .client _ => none
  | .install leafPem notAfter =>
    some ((), l, { s with holder := { s.holder with leafPem, notAfter } })
  | .readHolder => some (s.holder, l, s)

def HolderCmd.isAwait : HolderCmd β → Bool
  | .lockHolder => true
  | .postCertificate _ _ => true
  | _ => false

variable [DecidableEq V]

def CertCmd.exec (c : CertCmd V β) (x : CertReply V) (l : CertLog) (s : CertState V) :
    Option (β × CertLog × CertState V) :=
  match c with
  | .inl c =>
    match x with
    | .client x => (c.exec x l.task s.client).map fun r =>
        (r.1, { l with task := r.2.1 }, { s with client := r.2.2 })
    | _ => none
  | .inr c => c.exec x l s

/-- A service list changes, or the clock does, by however much and in either direction. -/
def CertState.change (e : (List (Service V) × Int) ⊕ SystemTime) (s : CertState V) :
    Option (CertState V) :=
  match e with
  | .inl change => (s.client.changeServices change).map fun client => { s with client }
  | .inr now => some { s with now }

/-- Dropped guards unlock. -/
def CertState.release (l : CertLog) (s : CertState V) : CertState V :=
  { s with
    client := s.client.release l.task
    holderLocked := s.holderLocked && !l.holds }

def certEffects (V : Type) [DecidableEq V] : Effects (CertCmd V) (CertState V) CertLog
    ((List (Service V) × Int) ⊕ SystemTime) (CertReply V) where
  exec := CertCmd.exec
  env := CertState.change
  idle := .idle
  release := CertState.release
  droppable := fun c =>
    match c with
    | .inl c => c.isAwait
    | .inr c => c.isAwait

abbrev CertTasks (V : Type) := Crew (CertCmd V) (CertState V) CertLog

abbrev CertAct (V : Type) := PoolAct CertOp ((List (Service V) × Int) ⊕ SystemTime) (CertReply V)

def certStep (C : CertLibs) (identity : Except ConfigError (TlsConfig × String)) (cfg : ClientConfig)
    (s : CertTasks V) (a : CertAct V) : Option (CertTasks V) :=
  s.step (certEffects V) (CertOp.prog C identity cfg) a

/-- A client right after its first authentication and its first certificate. -/
def CertTasks.start (token : AuthToken) (services : List (Service V)) (lastChangeAt : Int)
    (holder : SessionCertState) (now : SystemTime) : CertTasks V where
  workers := []
  state := ⟨.start token services lastChangeAt, holder, false, now⟩

end Effects

end Noa.Edge.Client
