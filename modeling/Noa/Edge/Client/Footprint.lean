import Noa.Edge.Client.Programs

namespace Noa.Edge.Client
open Noa.Framework
open Noa.Framework.Program (lift)

/-- What a command is for. -/
inductive Role where
  | token
  | rotation
  | session
  | service
  | wait
  deriving DecidableEq

variable {V α β : Type}

def Cmd.role : Cmd V β → Role
  | .readToken => .token
  | .storeToken _ => .rotation
  | .storeExpiry _ => .rotation
  | .lockReauth _ => .rotation
  | .unlockReauth _ => .rotation
  | .postAuthenticate _ _ => .rotation
  | .postMfa _ _ => .rotation
  | .getCurrentApiSession _ => .rotation
  | .postTokenExchange _ => .rotation
  | .totpCode => .rotation
  | .pushChannels _ => .rotation
  | .invalidateSessionCert => .rotation
  | .clearDialSessions => .rotation
  | .getServiceUpdates _ => .service
  | .getServices _ _ _ => .service
  | .lastServiceUpdate => .service
  | .storeServiceUpdate _ => .service
  | .processServices _ => .service
  | .removeDialSessions _ => .service
  | .backoff => .wait
  | _ => .session

/-- A program whose commands all have one of these roles. -/
abbrev Proc.Within (roles : Role → Prop) (p : Proc V α) : Prop := p.Issues fun _ c => roles c.role

section Footprint

variable {roles : Role → Prop}

theorem within_andThen {p : Proc V (Except RestError α)}
    {f : α → Proc V (Except RestError β)} (hp : Proc.Within roles p)
    (hf : ∀ a, Proc.Within roles (f a)) :
    Proc.Within roles (p.andThen f) := by
  apply hp.bind
  intro r
  cases r with
  | ok a => exact hf a
  | error e => trivial

variable (htoken : roles .token) (hrotation : roles .rotation) (hwait : roles .wait)
  (cfg : ClientConfig)

include hrotation in
theorem within_doRefreshGet (token : AuthToken) : Proc.Within roles (doRefreshGet (V := V) token) :=
  ⟨hrotation, fun _ => trivial⟩

include hrotation in
theorem within_submitMfaCode (token code : String) :
    Proc.Within roles (submitMfaCode (V := V) token code) := by
  simp only [submitMfaCode, Program.lift_bind]
  refine .call hrotation fun r => ?_
  split <;> trivial

include hrotation in
theorem within_satisfyLegacyMfa (mfaProvider : Bool) (session : ApiSession) :
    Proc.Within roles (satisfyLegacyMfa (V := V) mfaProvider session) := by
  unfold satisfyLegacyMfa
  split
  · simp only [Program.lift_bind]
    refine .call hrotation fun r => ?_
    split
    · trivial
    · apply within_andThen (within_submitMfaCode hrotation _ _)
      intro _
      apply within_andThen (within_doRefreshGet hrotation _)
      intro refreshed
      split <;> trivial
  · trivial

include hrotation in
theorem within_authenticate (method : ReauthMethod) (mfaProvider : Bool) :
    Proc.Within roles (method.authenticate (V := V) mfaProvider) := by
  have hlegacy (name : String) (body : AuthBody) :
      Proc.Within roles (legacyAuthenticate (V := V) mfaProvider name body) := by
    simp only [legacyAuthenticate, Program.lift_bind]
    refine .call hrotation fun r => ?_
    split
    · trivial
    · split
      · trivial
      · exact within_satisfyLegacyMfa hrotation _ _
  cases method with
  | cert => exact hlegacy _ _
  | updb username password => exact hlegacy _ _
  | extJwt => trivial

include hrotation in
theorem within_locked {call : LockCall} {ok : α → Bool} {p : Proc V α} (hp : Proc.Within roles p) :
    Proc.Within roles (locked call ok p) := by
  refine .call hrotation fun _ => ?_
  apply Program.Issues.bind hp
  intro r
  exact ⟨hrotation, fun _ => trivial⟩

include htoken hrotation in
theorem within_doReauthenticate (tokenUsed : String) :
    Proc.Within roles (doReauthenticate (V := V) cfg tokenUsed) := by
  apply within_locked hrotation
  simp only [reauthenticateLocked, Program.lift_bind]
  refine .call htoken fun live => ?_
  split
  · trivial
  · apply within_andThen (within_authenticate hrotation _ _)
    intro session
    refine .call hrotation fun _ => .call hrotation fun _ => .call hrotation fun _ => ?_
    split
    · exact ⟨hrotation, fun _ => trivial⟩
    · trivial

include htoken hrotation in
theorem within_doOidcSessionRefresh (tokenUsed : String) :
    Proc.Within roles (doOidcSessionRefresh (V := V) tokenUsed) := by
  apply within_locked hrotation
  simp only [oidcRefreshLocked, Program.lift_bind]
  refine .call htoken fun current => ?_
  split
  · trivial
  · split
    · trivial
    · next subject _ =>
      have hexchange : Proc.Within roles (doOidcRefresh (V := V) subject) :=
        ⟨hrotation, fun _ => trivial⟩
      apply within_andThen hexchange
      intro refreshed
      exact ⟨hrotation, fun _ => ⟨hrotation, fun _ => trivial⟩⟩

include htoken hrotation in
theorem within_pushTokenToLiveChannels :
    Proc.Within roles (pushTokenToLiveChannels (V := V)) := by
  simp only [pushTokenToLiveChannels, Program.lift_bind]
  refine .call htoken fun current => ?_
  split
  · trivial
  · split
    · exact ⟨hrotation, fun _ => trivial⟩
    · trivial

include htoken hrotation in
theorem within_oidcSessionRefresh (tokenUsed : String) :
    Proc.Within roles (oidcSessionRefresh (V := V) tokenUsed) := by
  apply within_andThen (within_doOidcSessionRefresh htoken hrotation tokenUsed)
  intro _
  apply (within_pushTokenToLiveChannels htoken hrotation).bind
  intro _
  trivial

include htoken hrotation in
theorem within_renew (token : AuthToken) : Proc.Within roles (renew (V := V) cfg token) := by
  unfold renew
  split
  · exact within_doReauthenticate htoken hrotation cfg _
  · exact within_oidcSessionRefresh htoken hrotation _

/-- A request that is retried after a renewal issues what the request and the renewal issue. -/
theorem issues_withReauthRetry {P : (γ : Type) → Cmd V γ → Prop}
    (hP : ∀ (γ : Type) (c : Cmd V γ), c.role = .token ∨ c.role = .rotation → P γ c)
    {op : AuthToken → Proc V (Except RestError α)} (hop : ∀ token, (op token).Issues P) :
    (withReauthRetry cfg op).Issues P := by
  have hread : P _ (Cmd.readToken (V := V)) := hP _ _ (.inl rfl)
  simp only [withReauthRetry, Program.lift_bind]
  refine .call hread fun token => ?_
  split
  · trivial
  · next token =>
    apply (hop token).bind
    intro r
    split
    · trivial
    · split
      · have hrenew : Proc.Within (fun r => r = .token ∨ r = .rotation) (renew (V := V) cfg token) :=
          within_renew (.inl rfl) (.inr rfl) cfg token
        apply (hrenew.mono hP).bind
        intro renewed
        split
        · trivial
        · refine .call hread fun fresh => ?_
          split
          · trivial
          · exact hop _
      · trivial

include htoken hrotation in
theorem within_withReauthRetry {op : AuthToken → Proc V (Except RestError α)}
    (hop : ∀ token, Proc.Within roles (op token)) :
    Proc.Within roles (withReauthRetry cfg op) := by
  refine issues_withReauthRetry cfg (fun γ c hc => ?_) hop
  obtain hc | hc := hc
  · rw [hc]
    exact htoken
  · rw [hc]
    exact hrotation

include htoken hrotation in
theorem within_guardedStoreRefresh (tokenUsed : String) (newToken : AuthToken)
    (newExpiresAt : Option String) :
    Proc.Within roles (guardedStoreRefresh (V := V) tokenUsed newToken newExpiresAt) := by
  apply within_locked hrotation
  simp only [storeRefreshLocked, Program.lift_bind]
  refine .call htoken fun live => ?_
  split
  · exact ⟨hrotation, fun _ => ⟨hrotation, fun _ => trivial⟩⟩
  · trivial

include htoken hrotation hwait in
theorem within_runRefreshes : Proc.Within roles (runRefreshes (V := V) cfg) := by
  have hsleep : Proc.Within roles (lift (Cmd.backoff (V := V))) := ⟨hwait, fun _ => trivial⟩
  simp only [runRefreshes, Program.lift_bind]
  refine .call htoken fun token => ?_
  split
  · refine .call htoken fun token => ?_
    split
    · exact hsleep
    · refine .call hwait fun _ => .call htoken fun token => ?_
      split
      · exact hsleep
      · apply (within_doOidcSessionRefresh htoken hrotation _).bind
        intro r
        split
        · exact within_pushTokenToLiveChannels htoken hrotation
        · exact hsleep
  · refine .call hwait fun _ => .call htoken fun token => ?_
    split
    · exact hsleep
    · apply (within_doRefreshGet hrotation _).bind
      intro r
      split
      · apply (within_guardedStoreRefresh htoken hrotation _ _ _).bind
        intro _
        trivial
      · apply (within_doReauthenticate htoken hrotation cfg _).bind
        intro _
        exact hsleep
      · exact hsleep

variable (hsession : roles .session) (hservice : roles .service)

theorem issues_createSessionWithPolicy {P : (γ : Type) → Cmd V γ → Prop}
    (hP : ∀ (γ : Type) (c : Cmd V γ), c.role = .token ∨ c.role = .rotation ∨ c.role = .wait → P γ c)
    {serviceId : String} {type : SessionType} (hpost : ∀ token, P _ (.postSession token serviceId type))
    (retries : Nat) : (createSessionWithPolicy (V := V) cfg serviceId type retries).Issues P := by
  have hcreate : (createSession (V := V) cfg serviceId type).Issues P := by
    refine issues_withReauthRetry cfg (fun γ c hc => hP γ c ?_) fun token =>
      ⟨hpost token, fun _ => trivial⟩
    exact hc.imp_right .inl
  induction retries with
  | zero => exact hcreate
  | succ retries ih =>
    apply hcreate.bind
    intro r
    split
    · trivial
    · split
      · exact ⟨hP _ _ (.inr (.inr rfl)), fun _ => ih⟩
      · trivial

include htoken hrotation hwait hsession in
theorem within_getOrCreateDialSession (serviceId : String) (retries : Nat) :
    Proc.Within roles (getOrCreateDialSession (V := V) cfg serviceId retries) := by
  have hpolicy : Proc.Within roles (createSessionWithPolicy (V := V) cfg serviceId .dial retries) := by
    refine issues_createSessionWithPolicy cfg (fun γ c hc => ?_) (fun _ => hsession) retries
    obtain hc | hc | hc := hc <;> rw [hc] <;> assumption
  simp only [getOrCreateDialSession, Program.lift_bind]
  refine .call hsession fun cached => ?_
  split
  · trivial
  · exact within_andThen hpolicy fun _ => ⟨hsession, fun _ => trivial⟩

include htoken hsession in
theorem within_refreshSession (session : SessionDetail) :
    Proc.Within roles (refreshSession (V := V) session) := by
  have hprobe (token : AuthToken) :
      Proc.Within roles (refreshSessionProbe (V := V) token session) := by
    unfold refreshSessionProbe
    split
    · have hget : Proc.Within roles
          (doGetServiceEdgeRouters (V := V) token session.serviceId session.token) :=
        ⟨hsession, fun _ => trivial⟩
      exact within_andThen hget fun _ => trivial
    · exact ⟨hsession, fun _ => trivial⟩
  simp only [refreshSession, Program.lift_bind]
  refine .call htoken fun token => ?_
  split
  · trivial
  · apply within_andThen (hprobe _)
    intro refreshed
    exact ⟨hsession, fun _ => trivial⟩

include hsession in
theorem within_probeSessions (token : AuthToken) (snapshot : List (String × SessionDetail)) :
    Proc.Within roles (probeSessions (V := V) token snapshot) := by
  have hprobe (session : SessionDetail) :
      Proc.Within roles (refreshSessionProbeDurable (V := V) token session) := by
    have hdetail : Proc.Within roles (doGetSessionDetail (V := V) token session.id) :=
      ⟨hsession, fun _ => trivial⟩
    have hrouters : Proc.Within roles
        (doGetServiceEdgeRouters (V := V) token session.serviceId session.token) :=
      ⟨hsession, fun _ => trivial⟩
    unfold refreshSessionProbeDurable
    split
    · exact within_andThen hdetail fun _ => trivial
    · exact within_andThen hrouters fun _ => trivial
  induction snapshot with
  | nil => trivial
  | cons entry rest ih =>
    apply (hprobe entry.2).bind
    intro r
    split
    · exact ⟨hsession, fun _ => ih⟩
    · exact ih.bind fun _ => trivial

include htoken hsession in
theorem within_sessionRefreshTick : Proc.Within roles (sessionRefreshTick (V := V)) := by
  have hpurge (toPurge : List (String × String)) :
      Proc.Within roles (purgeSessions (V := V) toPurge) := by
    induction toPurge with
    | nil => trivial
    | cons p rest ih => exact ⟨hsession, fun _ => ih⟩
  simp only [sessionRefreshTick, Program.lift_bind]
  refine .call htoken fun token => ?_
  split
  · trivial
  · refine .call hsession fun snapshot => ?_
    apply (within_probeSessions hsession _ _).bind
    intro toPurge
    exact hpurge toPurge

include hservice in
theorem within_doListServices (pages : Nat) (token : AuthToken) (configTypes : List String) :
    Proc.Within roles (doListServices (V := V) pages token configTypes) := by
  have hpages (offset : Nat) (out : List (Service V)) :
      Proc.Within roles (listPages token configTypes pages offset out) := by
    induction pages generalizing offset out with
    | zero => trivial
    | succ pages ih =>
      simp only [listPages, Program.lift_bind]
      refine .call hservice fun r => ?_
      split
      · trivial
      · split
        · trivial
        · exact ih _ _
  exact hpages 0 []

include htoken hrotation hservice in
theorem within_listServicesWithConfigTypes (pages : Nat) (configTypes : List String) :
    Proc.Within roles (listServicesWithConfigTypes (V := V) cfg pages configTypes) :=
  within_withReauthRetry htoken hrotation cfg fun token =>
    within_doListServices hservice pages token configTypes

include hservice in
theorem within_checkServiceListUpdateFree (token : AuthToken) :
    Proc.Within roles (checkServiceListUpdateFree (V := V) token) := by
  simp only [checkServiceListUpdateFree, Program.lift_bind]
  refine .call hservice fun r => ?_
  split
  · trivial
  · exact ⟨hservice, fun _ => trivial⟩

include htoken hservice in
theorem within_checkServiceListUpdate :
    Proc.Within roles (checkServiceListUpdate (V := V)) := by
  simp only [checkServiceListUpdate, Program.lift_bind]
  refine .call htoken fun token => ?_
  split
  · trivial
  · exact within_checkServiceListUpdateFree hservice _

include hservice in
theorem within_storeAndProcess (fetched : List (Service V)) (newTs : Option Int) :
    Proc.Within roles (storeAndProcess fetched newTs) := by
  simp only [storeAndProcess, Program.lift_bind]
  refine .call hservice fun _ => .call hservice fun events => ?_
  split
  · exact ⟨hservice, fun _ => trivial⟩
  · trivial

include hservice in
theorem within_fetchIfChanged {check : Proc V (Except RestError (Bool × Option Int))}
    {list : Proc V (Except RestError (List (Service V)))} (hcheck : Proc.Within roles check)
    (hlist : Proc.Within roles list) : Proc.Within roles (fetchIfChanged check list) := by
  apply hcheck.bind
  intro r
  split
  · trivial
  · trivial
  · apply within_andThen hlist
    intro fetched
    apply (within_storeAndProcess hservice _ _).bind
    intro _
    trivial

include htoken hrotation hservice in
theorem within_pollServices (pages : Nat) (configTypes : List String) :
    Proc.Within roles (pollServices (V := V) cfg pages configTypes) := by
  apply within_andThen (within_listServicesWithConfigTypes htoken hrotation cfg hservice _ _)
  intro fetched
  apply (within_storeAndProcess hservice _ _).bind
  intro _
  trivial

include htoken hrotation hservice in
theorem within_pollServicesIfChanged (pages : Nat) (configTypes : List String) :
    Proc.Within roles (pollServicesIfChanged (V := V) cfg pages configTypes) :=
  within_fetchIfChanged hservice (within_checkServiceListUpdate htoken hservice)
    (within_listServicesWithConfigTypes htoken hrotation cfg hservice _ _)

include htoken hservice in
theorem within_serviceRefreshTick (pages : Nat) (configTypes : List String) :
    Proc.Within roles (serviceRefreshTick (V := V) pages configTypes) := by
  simp only [serviceRefreshTick, Program.lift_bind]
  refine .call htoken fun token => ?_
  split
  · trivial
  · exact within_fetchIfChanged hservice (within_checkServiceListUpdateFree hservice _)
      (within_doListServices hservice _ _ _)

end Footprint

end Noa.Edge.Client
