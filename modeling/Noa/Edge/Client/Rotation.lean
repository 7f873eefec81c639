import Noa.Edge.Client.Effects
import Noa.Edge.Client.Footprint
import Noa.Framework.Tickets

namespace Noa.Edge.Client
open Noa.Framework
open Noa.Framework.Program (lift)

/-- How far a call under the lock is: it has not compared the stored token with its own; it found
them equal; it found them different; an authentication or an exchange has succeeded; the new token is
stored. -/
inductive Stage where
  | waiting
  | live
  | passed
  | renewed
  | stored
  deriving DecidableEq

/-- The calls that authenticate or exchange. -/
def LockCall.renews : LockCall → Bool
  | .reauthenticate _ => true
  | .storeRefresh _ => false
  | .oidcRefresh _ => true

/-- Where a task is: the call it holds the lock for, and the token it got last with the token it got
it for. -/
structure RotationUse where
  held : Option (LockCall × Stage)
  grant : Option (String × String)

namespace RotationUse

def idle : RotationUse := ⟨none, none⟩

/-- A token obtained under the lock. -/
def gain (st : RotationUse) (token : String) (complete : Bool) : RotationUse where
  held := st.held.map fun p => (p.1, if complete then .renewed else p.2)
  grant := st.held.map fun p => (p.1.tokenUsed, token)

def check (st : RotationUse) (token : Option AuthToken) : RotationUse :=
  match st.held with
  | some (call, .waiting) =>
    { st with held := some (call,
      if token.map (·.channelToken) = some call.tokenUsed then .live else .passed) }
  | _ => st

end RotationUse

/-- Under the lock a task compares first; only a call that found its own token stored authenticates or
stores, it stores what it got for that token, and nothing comes between its success and the store. -/
def rotation (V : Type) : Discipline (Cmd V) RotationUse where
  may := fun st c =>
    match c with
    | .readToken => True
    | .lockReauth call =>
      st.held = none ∧ (call.renews = false → ∃ new, st.grant = some (call.tokenUsed, new))
    | .unlockReauth ok => ∃ call stage, st.held = some (call, stage) ∧ stage ≠ .waiting ∧
        stage ≠ .renewed ∧ (stage = .passed → call.renews = true → ok = true)
    | .storeToken token => ∃ call stage, st.held = some (call, stage) ∧
        (stage = .renewed ∨ stage = .live ∧ call.renews = false) ∧
        st.grant = some (call.tokenUsed, token.channelToken)
    | .postAuthenticate _ _ => ∃ call, st.held = some (call, .live) ∧ call.renews = true
    | .postTokenExchange _ => ∃ call, st.held = some (call, .live) ∧ call.renews = true
    | .getCurrentApiSession token => st.held = none ∨
        ∃ call, st.held = some (call, .live) ∧ call.renews = true ∧
          st.grant = some (call.tokenUsed, token.channelToken)
    | c => c.isAwait = true →
        ∀ call stage, st.held = some (call, stage) → stage = .live ∨ stage = .stored
  next := fun st c =>
    match c with
    | .readToken => fun token => st.check token
    | .lockReauth call => fun _ => ⟨some (call, .waiting), if call.renews then none else st.grant⟩
    | .unlockReauth _ => fun _ => { st with held := none }
    | .storeToken _ => fun _ => ⟨st.held.map fun p => (p.1, .stored), none⟩
    | .postAuthenticate _ _ => fun
      | .ok session => st.gain session.token session.authQueries.isEmpty
      | .error _ => st
    | .postTokenExchange _ => fun
      | .ok tokens => st.gain tokens.access true
      | .error _ => st
    | .getCurrentApiSession token => fun
      | .ok session =>
        if st.held.isSome then st.gain session.token session.authQueries.isEmpty
        else { st with grant := some (token.channelToken, session.token) }
      | .error _ => st
    | _ => fun _ => st

variable {V : Type}

namespace RotationUse

variable {α : Type} {st : RotationUse} (cfg : ClientConfig)

theorem next_readToken_live {call : LockCall} {token : Option AuthToken}
    (h : token.map (·.channelToken) = some call.tokenUsed) (grant : Option (String × String)) :
    (rotation V).next ⟨some (call, .waiting), grant⟩ .readToken token =
      ⟨some (call, .live), grant⟩ := by
  change RotationUse.mk (some (call, if _ then _ else _)) grant = _
  rw [if_pos h]

theorem next_readToken_passed {call : LockCall} {token : Option AuthToken}
    (h : token.map (·.channelToken) ≠ some call.tokenUsed) (grant : Option (String × String)) :
    (rotation V).next ⟨some (call, .waiting), grant⟩ .readToken token =
      ⟨some (call, .passed), grant⟩ := by
  change RotationUse.mk (some (call, if _ then _ else _)) grant = _
  rw [if_neg h]

theorem next_readToken_free (hst : st.held = none) (token : Option AuthToken) :
    (rotation V).next st .readToken token = st := by
  change st.check token = st
  simp only [check, hst]

theorem next_postAuthenticate_live (call : LockCall) (grant : Option (String × String))
    (method : String) (body : AuthBody) (session : ApiSession) :
    (rotation V).next ⟨some (call, .live), grant⟩ (.postAuthenticate method body) (.ok session) =
      ⟨some (call, if session.authQueries.isEmpty then .renewed else .live),
        some (call.tokenUsed, session.token)⟩ := rfl

theorem next_getCurrentApiSession_live (call : LockCall) (grant : Option (String × String))
    (token : AuthToken) (session : ApiSession) :
    (rotation V).next ⟨some (call, .live), grant⟩ (.getCurrentApiSession token) (.ok session) =
      ⟨some (call, if session.authQueries.isEmpty then .renewed else .live),
        some (call.tokenUsed, session.token)⟩ := rfl

theorem ensures_plain {β : Type} {Q : α → RotationUse → Prop} {c : Cmd V β} {k : β → Proc V α}
    (hc : (rotation V).may st c) (hnext : ∀ b, (rotation V).next st c b = st)
    (hk : ∀ b, (k b).Ensures (rotation V) Q st) :
    Program.Ensures (rotation V) Q st (.call c k) := by
  refine .call hc fun b => ?_
  rw [hnext]
  exact hk b

theorem ensures_of_within {p : Proc V α} (hp : Proc.Within (· ≠ .rotation) p)
    (hst : st.held = none) : p.Ensures (rotation V) (fun _ st' => st' = st) st := by
  induction p with
  | ret a => rfl
  | call c k ih =>
    have hfree : c.isAwait = true →
        ∀ call stage, st.held = some (call, stage) → stage = .live ∨ stage = .stored := by
      intro _ call stage h
      rw [hst] at h
      cases h
    have hnext : (rotation V).may st c ∧ ∀ b, (rotation V).next st c b = st := by
      have hc := hp.1
      cases c with
      | readToken =>
        exact ⟨trivial, next_readToken_free hst⟩
      | storeToken | lockReauth | unlockReauth | postAuthenticate | getCurrentApiSession
        | postTokenExchange => exact absurd rfl hc
      | _ => exact ⟨hfree, fun _ => rfl⟩
    refine ⟨hnext.1, fun b => ?_⟩
    rw [hnext.2 b]
    exact ih b (hp.2 b)

/-- The outcome of an authentication under the lock. -/
def Renewed (call : LockCall) (token : α → String) (r : Except RestError α) (st : RotationUse) :
    Prop :=
  match r with
  | .ok a => st = ⟨some (call, .renewed), some (call.tokenUsed, token a)⟩
  | .error _ => ∃ grant, st = ⟨some (call, .live), grant⟩

theorem ensures_satisfyLegacyMfa {call : LockCall} (hcall : call.renews = true)
    (mfaProvider : Bool) (session : ApiSession) :
    (satisfyLegacyMfa (V := V) mfaProvider session).Ensures (rotation V)
      (Renewed call (·.token)) ⟨some (call, .live), some (call.tokenUsed, session.token)⟩ := by
  have hlive {c : LockCall} {stage : Stage}
      (h : some (call, Stage.live) = some (c, stage)) : stage = .live ∨ stage = .stored := by
    cases h
    exact .inl rfl
  unfold satisfyLegacyMfa
  split
  · simp only [Program.lift_bind]
    refine ensures_plain nofun (fun _ => rfl) fun code => ?_
    split
    · exact ⟨_, rfl⟩
    · simp only [Program.andThen, submitMfaCode, Program.lift_bind, Program.call_bind]
      refine ensures_plain (fun _ _ _ h => hlive h) (fun _ => rfl) fun r => ?_
      split
      · simp only [Program.pure_eq, Program.ret_bind, doRefreshGet, Program.lift_bind,
          Program.call_bind]
        refine .call (.inr ⟨call, rfl, hcall, rfl⟩) fun r => ?_
        cases r with
        | error f => exact ⟨_, rfl⟩
        | ok refreshed =>
          rw [next_getCurrentApiSession_live]
          simp only [Except.mapError]
          split
          · rfl
          · exact ⟨_, rfl⟩
      · exact ⟨_, rfl⟩
      · exact ⟨_, rfl⟩
  · exact ⟨_, rfl⟩

theorem ensures_authenticate {call : LockCall} (hcall : call.renews = true) (method : ReauthMethod)
    (mfaProvider : Bool) (grant : Option (String × String)) :
    (method.authenticate (V := V) mfaProvider).Ensures (rotation V) (Renewed call (·.token))
      ⟨some (call, .live), grant⟩ := by
  have hlegacy (name : String) (body : AuthBody) :
      (legacyAuthenticate (V := V) mfaProvider name body).Ensures (rotation V)
        (Renewed call (·.token)) ⟨some (call, .live), grant⟩ := by
    simp only [legacyAuthenticate, Program.lift_bind]
    refine .call ⟨call, rfl, hcall⟩ fun r => ?_
    cases r with
    | error f => exact ⟨_, rfl⟩
    | ok session =>
      dsimp only
      rw [next_postAuthenticate_live]
      split
      · rfl
      · exact ensures_satisfyLegacyMfa hcall mfaProvider session
  cases method with
  | cert => exact hlegacy _ _
  | updb username password => exact hlegacy _ _
  | extJwt => exact ⟨_, rfl⟩

/-- A call under the lock that can be left with this answer. -/
def Closing (call : LockCall) (ok : Bool) (st : RotationUse) : Prop :=
  ∃ stage, st.held = some (call, stage) ∧ stage ≠ .waiting ∧ stage ≠ .renewed ∧
    (stage = .passed → call.renews = true → ok = true)

theorem ensures_locked {call : LockCall} {ok : α → Bool} {p : Proc V α} (hst : st.held = none)
    (hgrant : call.renews = false → ∃ new, st.grant = some (call.tokenUsed, new))
    (hp : p.Ensures (rotation V) (fun a st' => Closing call (ok a) st')
      ⟨some (call, .waiting), if call.renews then none else st.grant⟩) :
    (locked call ok p).Ensures (rotation V) (fun _ st' => st'.held = none) st := by
  refine ⟨⟨hst, hgrant⟩, fun _ => ?_⟩
  apply hp.bind
  rintro a st' ⟨stage, hheld, hwaiting, hrenewed, hok⟩
  exact ⟨⟨call, stage, hheld, hwaiting, hrenewed, hok⟩, fun _ => rfl⟩

theorem closing_stored (call : LockCall) (ok : Bool) (grant : Option (String × String)) :
    Closing call ok ⟨some (call, .stored), grant⟩ :=
  ⟨.stored, rfl, nofun, nofun, nofun⟩

theorem closing_live (call : LockCall) (ok : Bool) (grant : Option (String × String)) :
    Closing call ok ⟨some (call, .live), grant⟩ :=
  ⟨.live, rfl, nofun, nofun, nofun⟩

theorem closing_passed {call : LockCall} {ok : Bool} (h : call.renews = true → ok = true)
    (grant : Option (String × String)) : Closing call ok ⟨some (call, .passed), grant⟩ :=
  ⟨.passed, rfl, nofun, nofun, fun _ => h⟩

theorem ensures_doReauthenticate (tokenUsed : String) (hst : st.held = none) :
    (doReauthenticate (V := V) cfg tokenUsed).Ensures (rotation V) (fun _ st' => st'.held = none)
      st := by
  apply ensures_locked hst (by intro h; cases h)
  simp only [reauthenticateLocked, Program.lift_bind]
  refine .call trivial fun live => ?_
  by_cases hlive : live.map (·.channelToken) = some tokenUsed
  case neg =>
    rw [next_readToken_passed hlive, if_pos hlive]
    exact closing_passed (fun _ => rfl) _
  case pos =>
    rw [next_readToken_live hlive, if_neg (not_not.mpr hlive)]
    apply (ensures_authenticate rfl cfg.method cfg.mfaProvider _).bind
    intro r st' hr
    cases r with
    | error e =>
      obtain ⟨grant, rfl⟩ := hr
      exact closing_live _ _ _
    | ok session =>
      obtain rfl := hr
      refine .call ⟨_, _, rfl, .inl rfl, rfl⟩ fun _ =>
        .call (by rintro ⟨⟩) fun _ => .call (by rintro ⟨⟩) fun _ => ?_
      split
      · refine .call (fun _ _ _ h => ?_) fun _ => closing_stored _ _ _
        cases h
        exact .inr rfl
      · exact closing_stored _ _ _

theorem ensures_doOidcSessionRefresh (tokenUsed : String) (hst : st.held = none) :
    (doOidcSessionRefresh (V := V) tokenUsed).Ensures (rotation V) (fun _ st' => st'.held = none)
      st := by
  apply ensures_locked hst (by intro h; cases h)
  simp only [oidcRefreshLocked, Program.lift_bind]
  refine .call trivial fun current => ?_
  by_cases hlive : current.map (·.channelToken) = some tokenUsed
  case neg =>
    rw [next_readToken_passed hlive, if_pos hlive]
    exact closing_passed (fun _ => rfl) _
  case pos =>
    rw [next_readToken_live hlive, if_neg (not_not.mpr hlive)]
    cases current.bind (·.refreshToken) with
    | none => exact closing_live _ _ _
    | some subject =>
      refine .call ⟨_, rfl, rfl⟩ fun r => ?_
      cases r with
      | error f => exact closing_live _ _ _
      | ok refreshed =>
        refine .call ⟨_, _, rfl, .inl rfl, rfl⟩ fun _ => .call (by rintro ⟨⟩) fun _ => ?_
        exact closing_stored _ _ _

theorem ensures_guardedStoreRefresh {tokenUsed : String} {newToken : AuthToken}
    (newExpiresAt : Option String) (hst : st.held = none)
    (hgrant : st.grant = some (tokenUsed, newToken.channelToken)) :
    (guardedStoreRefresh (V := V) tokenUsed newToken newExpiresAt).Ensures (rotation V)
      (fun _ st' => st'.held = none) st := by
  refine ensures_locked hst (fun _ => ⟨newToken.channelToken, hgrant⟩) ?_
  simp only [storeRefreshLocked, Program.lift_bind]
  refine .call trivial fun live => ?_
  by_cases hlive : live.map (·.channelToken) = some tokenUsed
  case pos =>
    rw [next_readToken_live hlive, if_pos hlive]
    refine .call ⟨_, _, rfl, .inr ⟨rfl, rfl⟩, hgrant⟩ fun _ => .call (by rintro ⟨⟩) fun _ => ?_
    exact closing_stored _ _ _
  case neg =>
    rw [next_readToken_passed hlive, if_neg hlive]
    exact closing_passed (by rintro ⟨⟩) _

theorem ensures_pushTokenToLiveChannels (hst : st.held = none) :
    (pushTokenToLiveChannels (V := V)).Ensures (rotation V) (fun _ st' => st'.held = none) st := by
  have hfree {c : LockCall} {stage : Stage} (h : st.held = some (c, stage)) :
      stage = .live ∨ stage = .stored := by
    rw [hst] at h
    cases h
  simp only [pushTokenToLiveChannels, Program.lift_bind]
  refine .call trivial fun current => ?_
  rw [next_readToken_free hst]
  split
  · exact hst
  · split
    · exact ⟨fun _ _ _ h => hfree h, fun _ => hst⟩
    · exact hst

theorem ensures_oidcSessionRefresh (tokenUsed : String) (hst : st.held = none) :
    (oidcSessionRefresh (V := V) tokenUsed).Ensures (rotation V) (fun _ st' => st'.held = none)
      st := by
  apply (ensures_doOidcSessionRefresh tokenUsed hst).bind
  intro r st' hst'
  cases r with
  | error e => exact hst'
  | ok _ => exact (ensures_pushTokenToLiveChannels hst').bind fun _ _ h => h

theorem ensures_renew (token : AuthToken) (hst : st.held = none) :
    (renew (V := V) cfg token).Ensures (rotation V) (fun _ st' => st'.held = none) st := by
  unfold renew
  split
  · exact ensures_doReauthenticate cfg _ hst
  · exact ensures_oidcSessionRefresh _ hst

theorem ensures_withReauthRetry {op : AuthToken → Proc V (Except RestError α)}
    (hop : ∀ token, Proc.Within (· ≠ .rotation) (op token)) (hst : st.held = none) :
    (withReauthRetry cfg op).Ensures (rotation V) (fun _ st' => st'.held = none) st := by
  simp only [withReauthRetry, Program.lift_bind]
  refine .call trivial fun token => ?_
  rw [next_readToken_free hst]
  split
  · exact hst
  · apply (ensures_of_within (hop _) hst).bind
    rintro r _ rfl
    split
    · exact hst
    · split
      · apply (ensures_renew cfg _ hst).bind
        intro renewed st' hst'
        split
        · exact hst'
        · refine .call trivial fun fresh => ?_
          rw [next_readToken_free hst']
          split
          · exact hst'
          · apply (ensures_of_within (hop _) hst').mono
            rintro _ _ rfl
            exact hst'
      · exact hst

theorem ensures_doRefreshGet (token : AuthToken) (hst : st.held = none) :
    (doRefreshGet (V := V) token).Ensures (rotation V)
      (fun r st' => st'.held = none ∧ ∀ session, r = .ok session →
        st'.grant = some (token.channelToken, session.token)) st := by
  refine .call (.inl hst) fun r => ?_
  cases r with
  | error f => exact ⟨hst, nofun⟩
  | ok session =>
    change _ ∧ _
    simp only [rotation, hst, Option.isSome_none, Bool.false_eq_true, if_false, true_and]
    rintro _ ⟨⟩
    rfl

/-- A program that is not in the lock when it starts, nor when it returns. -/
def Unlocked (p : Proc V α) : Prop :=
  ∀ st : RotationUse, st.held = none → p.Ensures (rotation V) (fun _ st' => st'.held = none) st

theorem unlocked_of_within {p : Proc V α} (hp : Proc.Within (· ≠ .rotation) p) : Unlocked p := by
  intro st hst
  apply (ensures_of_within hp hst).mono
  rintro _ _ rfl
  exact hst

theorem Unlocked.bind {β : Type} {p : Proc V β} {f : β → Proc V α} (hp : Unlocked p)
    (hf : ∀ b, Unlocked (f b)) : Unlocked (p >>= f) := by
  intro st hst
  apply (hp st hst).bind
  intro b st' hst'
  exact hf b st' hst'

theorem Unlocked.andThen {β : Type} {p : Proc V (Except RestError β)}
    {f : β → Proc V (Except RestError α)} (hp : Unlocked p) (hf : ∀ b, Unlocked (f b)) :
    Unlocked (p.andThen f) := by
  apply hp.bind
  intro r st hst
  cases r with
  | ok b => exact hf b st hst
  | error e => exact hst

theorem unlocked_listServices (pages : Nat) (configTypes : List String) :
    Unlocked (listServicesWithConfigTypes (V := V) cfg pages configTypes) := by
  intro st hst
  apply ensures_withReauthRetry cfg _ hst
  intro token
  exact within_doListServices (by decide) pages token configTypes

theorem unlocked_storeAndProcess (fetched : List (Service V)) (newTs : Option Int) :
    Unlocked (do
      let events ← storeAndProcess fetched newTs
      pure (Except.ok (ε := RestError) events)) :=
  (unlocked_of_within (within_storeAndProcess (by decide) fetched newTs)).bind
    fun _ _ hst => hst

theorem unlocked_getOrCreateDialSession (serviceId : String) (retries : Nat) :
    Unlocked (getOrCreateDialSession (V := V) cfg serviceId retries) := by
  have hcreate : Unlocked (createSession (V := V) cfg serviceId .dial) := by
    intro st hst
    apply ensures_withReauthRetry cfg _ hst
    intro token
    exact ⟨by rintro ⟨⟩, fun _ => trivial⟩
  have hpolicy : Unlocked (createSessionWithPolicy (V := V) cfg serviceId .dial retries) := by
    induction retries with
    | zero => exact hcreate
    | succ retries ih =>
      apply hcreate.bind
      intro r st hst
      split
      · exact hst
      · split
        · refine .call (fun _ call stage h => ?_) fun _ => ih st hst
          rw [hst] at h
          cases h
        · exact hst
  intro st hst
  simp only [getOrCreateDialSession, Program.lift_bind]
  refine ensures_plain (by rintro ⟨⟩) (fun _ => rfl) fun cached => ?_
  split
  · exact hst
  · apply hpolicy.andThen _ st hst
    intro session st' hst'
    exact ⟨by rintro ⟨⟩, fun _ => hst'⟩

theorem unlocked_runRefreshes : Unlocked (runRefreshes (V := V) cfg) := by
  have hsleep : Unlocked (lift (Cmd.backoff (V := V))) := by
    intro st hst
    refine ⟨fun _ call stage h => ?_, fun _ => hst⟩
    rw [hst] at h
    cases h
  intro st hst
  simp only [runRefreshes, Program.lift_bind]
  refine ensures_plain trivial (next_readToken_free hst) fun token => ?_
  split
  · refine ensures_plain trivial (next_readToken_free hst) fun token => ?_
    split
    · exact hsleep st hst
    · refine ensures_plain (hsleep st hst).1 (fun _ => rfl) fun _ => ?_
      refine ensures_plain trivial (next_readToken_free hst) fun token => ?_
      split
      · exact hsleep st hst
      · apply (ensures_doOidcSessionRefresh _ hst).bind
        intro r st' hst'
        split
        · exact ensures_pushTokenToLiveChannels hst'
        · exact hsleep st' hst'
  · refine ensures_plain (hsleep st hst).1 (fun _ => rfl) fun _ => ?_
    refine ensures_plain trivial (next_readToken_free hst) fun token => ?_
    split
    · exact hsleep st hst
    · apply (ensures_doRefreshGet _ hst).bind
      rintro r st' ⟨hst', hgrant⟩
      split
      · next session =>
        apply (ensures_guardedStoreRefresh session.expiresAt hst' (hgrant session rfl)).bind
        intro _ _ hst''
        exact hst''
      · apply (ensures_doReauthenticate cfg _ hst').bind
        intro _ st'' hst''
        exact hsleep st'' hst''
      · exact hsleep st' hst'

theorem Unlocked.ignore {p : Proc V α} (hp : Unlocked p) : Unlocked (p >>= fun _ => pure ()) :=
  hp.bind fun _ _ hst => hst

/-- Every task of a client keeps the discipline, and is out of the lock when it returns. -/
theorem unlocked_prog (op : ClientOp) : Unlocked (op.prog (V := V) cfg) := by
  have htoken : Role.token ≠ .rotation := by decide
  have hsession : Role.session ≠ .rotation := by decide
  have hservice : Role.service ≠ .rotation := by decide
  cases op with
  | getOrCreateDialSession serviceId retries =>
    exact (unlocked_getOrCreateDialSession cfg serviceId retries).ignore
  | refreshSession session =>
    exact (unlocked_of_within (within_refreshSession htoken hsession session)).ignore
  | evictDialSession serviceId => exact fun st hst => ⟨by rintro ⟨⟩, fun _ => hst⟩
  | sessionRefreshTick => exact unlocked_of_within (within_sessionRefreshTick htoken hsession)
  | pollServices pages configTypes =>
    apply Unlocked.ignore
    exact (unlocked_listServices cfg pages configTypes).andThen fun fetched =>
      unlocked_storeAndProcess fetched none
  | pollServicesIfChanged pages configTypes =>
    apply Unlocked.ignore
    apply (unlocked_of_within (within_checkServiceListUpdate htoken hservice)).bind
    intro r st hst
    split
    · exact hst
    · exact hst
    · next newTs _ =>
      exact (unlocked_listServices cfg pages configTypes).andThen
        (fun fetched => unlocked_storeAndProcess fetched newTs) st hst
  | serviceRefreshTick pages configTypes =>
    exact (unlocked_of_within
      (within_serviceRefreshTick htoken hservice pages configTypes)).ignore
  | reauthenticate tokenUsed =>
    exact Unlocked.ignore fun _ hst => ensures_doReauthenticate cfg tokenUsed hst
  | oidcSessionRefresh tokenUsed =>
    exact Unlocked.ignore fun _ hst => ensures_oidcSessionRefresh tokenUsed hst
  | runRefreshes => exact unlocked_runRefreshes cfg

theorem obeys_prog (op : ClientOp) (hst : st.held = none) :
    (op.prog (V := V) cfg).Obeys (rotation V) st :=
  (unlocked_prog cfg op st hst).mono fun _ _ _ => trivial

/-- The token a task got and has not stored, if it is not the one it asked for. -/
def ticket (st : RotationUse) : Option String :=
  st.grant.bind fun p => if p.2 = p.1 then none else some p.2

end RotationUse

/-- The value of the stored token. -/
def ClientState.live (s : ClientState V) : Option String := s.token.map (·.channelToken)

/-- What is true of one task. -/
structure Holding (s : ClientState V) (l : TaskLog) (u : RotationUse) : Prop where
  locked : u.held.isSome → s.reauthLocked = true
  guard : l.guard.map (·.call) = u.held.map (·.1)
  live : ∀ call stage, u.held = some (call, stage) → stage = .live ∨ stage = .renewed →
    s.live = some call.tokenUsed
  early : ∀ gd call stage, l.guard = some gd → u.held = some (call, stage) →
    stage = .waiting ∨ stage = .passed →
    gd.contacted = false ∧ (gd.already = true → s.live ≠ some call.tokenUsed)
  late : ∀ gd call stage, l.guard = some gd → u.held = some (call, stage) →
    gd.already = true → stage = .waiting ∨ stage = .passed
  granted : ∀ p, u.grant = some p → p ∈ s.journal.grants
  renews : ∀ call stage p, u.held = some (call, stage) → call.renews = true → u.grant = some p →
    p.1 = call.tokenUsed ∧ p.2 ≠ p.1
  renewer : ∀ call, u.held = some (call, .renewed) → call.renews = true

/-- A renewal of this token is about to be stored. -/
def RotationUse.Renewing (u : RotationUse) (token : String) : Prop :=
  ∃ call, u.held = some (call, .renewed) ∧ call.tokenUsed = token

/-- What is true of the records of a client. -/
structure Books (s : ClientState V) : Prop where
  stored : ∃ token, s.live = some token ∧ token ∈ s.journal.stored
  renewals : ∀ token ∈ s.journal.renewals, token ∈ s.journal.stored
  nodup : s.journal.renewals.Nodup
  calls : ∀ f ∈ s.journal.calls, f.already = true → f.call.renews = true →
    f.contacted = false ∧ f.ok = true ∧ ∃ token, f.live = some token ∧ token ≠ f.call.tokenUsed

/-- One task at a time holds the lock; every token is stored at most once; a renewed token is no
longer the stored one, or its holder is about to replace it. -/
structure Rotating (g : Nat → TaskLog × RotationUse) (s : ClientState V) : Prop where
  holding : ∀ i, Holding s (g i).1 (g i).2
  one : ∀ i j, (g i).2.held.isSome → (g j).2.held.isSome → i = j
  tickets : Tickets (fun token => (s.controller.apiSessionOf token).isSome)
    (fun token => token ∈ s.journal.stored) fun i => (g i).2.ticket
  books : Books s
  renewed : ∀ token ∈ s.journal.renewals,
    s.live ≠ some token ∨ ∃ i, (g i).2.Renewing token

section Rotating

variable {g : Nat → TaskLog × RotationUse} {s s' : ClientState V} {i : Nat} {l : TaskLog}
  {u : RotationUse}

theorem Holding.idle (s : ClientState V) : Holding s .idle .idle := by
  constructor <;> simp [TaskLog.idle, RotationUse.idle]

theorem Holding.other (h : Holding s l u) (hgrants : s.journal.grants ⊆ s'.journal.grants)
    (hsame : u.held.isSome → s'.reauthLocked = s.reauthLocked ∧ s'.live = s.live) :
    Holding s' l u := by
  have hheld {call : LockCall} {stage : Stage} (hu : u.held = some (call, stage)) :
      s'.live = s.live := (hsame (by rw [hu]; rfl)).2
  constructor
  · intro hu
    rw [(hsame hu).1]
    exact h.locked hu
  · exact h.guard
  · intro call stage hu hstage
    rw [hheld hu]
    exact h.live call stage hu hstage
  · intro gd call stage hgd hu hstage
    rw [hheld hu]
    exact h.early gd call stage hgd hu hstage
  · exact h.late
  · intro p hp
    exact hgrants (h.granted p hp)
  · exact h.renews
  · exact h.renewer

theorem Rotating.start (token : AuthToken) (services : List (Service V)) (lastChangeAt : Int) :
    Rotating (fun _ => (TaskLog.idle, RotationUse.idle)) (.start token services lastChangeAt) := by
  constructor
  · intro i
    exact Holding.idle _
  · intro i j hi
    cases hi
  · apply tickets_none
    intro t ht
    rw [List.mem_singleton.mp ht]
    simp [ClientState.start, Controller.apiSessionOf]
  · constructor
    · exact ⟨token.channelToken, rfl, List.mem_singleton_self _⟩
    · intro t ht
      cases ht
    · exact List.nodup_nil
    · intro f hf
      cases hf
  · intro t ht
    cases ht

/-- A step of one task, by what it does to the task itself and to the records. -/
theorem Rotating.set (h : Rotating g s) (hi : Holding s' l u)
    (hgrants : s.journal.grants ⊆ s'.journal.grants)
    (hothers : ∀ j, j ≠ i → (g j).2.held.isSome →
      u.held = none ∧ s'.reauthLocked = s.reauthLocked ∧ s'.live = s.live)
    (htickets : TicketStep (fun token => (s.controller.apiSessionOf token).isSome)
      (fun token => (s'.controller.apiSessionOf token).isSome)
      (fun token => token ∈ s.journal.stored) (fun token => token ∈ s'.journal.stored)
      (g i).2.ticket u.ticket)
    (hbooks : Books s')
    (hrenewed : ∀ token ∈ s'.journal.renewals,
      s'.live ≠ some token ∨ u.Renewing token ∨ ∃ j, j ≠ i ∧ (g j).2.Renewing token) :
    Rotating (Function.update g i (l, u)) s' := by
  constructor
  · intro j
    rw [Function.update_apply]
    split_ifs with hij
    · exact hi
    · exact (h.holding j).other hgrants fun hj => (hothers j hij hj).2
  · intro j k hj hk
    rw [Function.update_apply] at hj hk
    split_ifs at hj hk with hji hki hki
    · rw [hji, hki]
    · rw [(hothers k hki hk).1] at hj
      cases hj
    · rw [(hothers j hji hj).1] at hk
      cases hk
    · exact h.one j k hj hk
  · exact h.tickets.step (f := fun p : TaskLog × RotationUse => p.2.ticket) (x := (l, u)) htickets
  · exact hbooks
  · intro token htoken
    obtain hlive | hu | ⟨j, hji, hj⟩ := hrenewed token htoken
    · exact .inl hlive
    · refine .inr ⟨i, ?_⟩
      rw [Function.update_self]
      exact hu
    · refine .inr ⟨j, ?_⟩
      rw [Function.update_of_ne hji]
      exact hj

theorem Rotating.alone (h : Rotating g s) (hi : (g i).2.held.isSome) {j : Nat} (hj : j ≠ i) :
    ¬ (g j).2.held.isSome :=
  fun hh => hj (h.one j i hh hi)

theorem Rotating.not_renewed (h : Rotating g s) {call : LockCall} {stage : Stage}
    (hi : (g i).2.held = some (call, stage)) (hstage : stage ≠ .renewed) {token : String}
    (hlive : s.live = some token) : token ∉ s.journal.renewals := by
  intro hr
  obtain hne | ⟨j, c, hj, -⟩ := h.renewed token hr
  · exact hne hlive
  · obtain rfl := h.one j i (by rw [hj]; rfl) (by rw [hi]; rfl)
    rw [hi] at hj
    cases hj
    exact hstage rfl

theorem Books.congr (h : Books s) (hlive : s'.live = s.live)
    (hstored : s'.journal.stored = s.journal.stored)
    (hrenewals : s'.journal.renewals = s.journal.renewals)
    (hcalls : s'.journal.calls = s.journal.calls) : Books s' := by
  constructor
  · rw [hlive, hstored]
    exact h.stored
  · rw [hrenewals, hstored]
    exact h.renewals
  · rw [hrenewals]
    exact h.nodup
  · rw [hcalls]
    exact h.calls

theorem Rotating.keep (h : Rotating g s) (hi : Holding s' l u) (hlive : s'.live = s.live)
    (hlocked : s'.reauthLocked = s.reauthLocked) (htokens : s'.controller.tokens = s.controller.tokens)
    (hjournal : s'.journal.grants = s.journal.grants ∧ s'.journal.stored = s.journal.stored ∧
      s'.journal.renewals = s.journal.renewals ∧ s'.journal.calls = s.journal.calls)
    (hgrant : u.grant = (g i).2.grant) (hheld : u.held.isSome → (g i).2.held.isSome)
    (hrenewing : ∀ token, (g i).2.Renewing token → u.Renewing token) :
    Rotating (Function.update g i (l, u)) s' := by
  obtain ⟨hgrants, hstored, hrenewals, hcalls⟩ := hjournal
  apply h.set hi
  · rw [hgrants]
    exact List.Subset.refl _
  · intro j hji hj
    refine ⟨?_, hlocked, hlive⟩
    by_contra hu
    exact h.alone (hheld (Option.isSome_iff_ne_none.mpr hu)) hji hj
  · refine .keep ?_ ?_ (.inr ?_)
    · simp only [Controller.apiSessionOf, htokens, imp_self, implies_true]
    · rw [hstored]
      exact fun _ ht => ht
    · rw [RotationUse.ticket, hgrant, RotationUse.ticket]
  · exact h.books.congr hlive hstored hrenewals hcalls
  · intro token htoken
    rw [hrenewals] at htoken
    rw [hlive]
    obtain hne | ⟨j, hj⟩ := h.renewed token htoken
    · exact .inl hne
    · by_cases hji : j = i
      · exact .inr (.inl (hrenewing token (hji ▸ hj)))
      · exact .inr (.inr ⟨j, hji, hj⟩)

theorem Rotating.plain (h : Rotating g s) {p : Part} (hf : Cmd.Frame p (g i).1 l s s')
    (htoken : p ≠ .token) (hlock : p ≠ .lock) (hunlock : p ≠ .unlock) (hgrant : p ≠ .grant)
    (hguard : l.guard = (g i).1.guard ∨ ∀ call stage, (g i).2.held = some (call, stage) →
      stage = .live ∨ stage = .stored) :
    Rotating (Function.update g i (l, (g i).2)) s' := by
  have hlive : s'.live = s.live := by
    rw [ClientState.live, (hf.token htoken).1, ClientState.live]
  obtain ⟨htokens, -, hgrants, hrenewals⟩ := hf.grants hgrant
  have hlocked := hf.locked hlock hunlock
  have hi : Holding s' (g i).1 (g i).2 := by
    apply (h.holding i).other
    · rw [hgrants]
      exact List.Subset.refl _
    · exact fun _ => ⟨hlocked, hlive⟩
  have hi' : Holding s' l (g i).2 := by
    obtain heq | hstage := hguard
    · exact ⟨hi.locked, heq ▸ hi.guard, hi.live, heq ▸ hi.early, heq ▸ hi.late, hi.granted,
        hi.renews, hi.renewer⟩
    · obtain heq | heq := hf.guard hlock hunlock
      · exact ⟨hi.locked, heq ▸ hi.guard, hi.live, heq ▸ hi.early, heq ▸ hi.late, hi.granted,
          hi.renews, hi.renewer⟩
      · have hnot {call : LockCall} {stage : Stage} (hu : (g i).2.held = some (call, stage)) :
            ¬ (stage = .waiting ∨ stage = .passed) := by
          obtain rfl | rfl := hstage call stage hu <;> decide
        refine ⟨hi.locked, ?_, hi.live, ?_, ?_, hi.granted, hi.renews, hi.renewer⟩
        · rw [heq, TaskLog.contact, Option.map_map]
          exact hi.guard
        · intro gd call stage _ hu hearly
          exact absurd hearly (hnot hu)
        · intro gd call stage hgd hu halready
          rw [heq, TaskLog.contact] at hgd
          obtain ⟨gd', hgd', rfl⟩ := Option.map_eq_some_iff.mp hgd
          exact hi.late gd' call stage hgd' hu halready
  exact h.keep hi' hlive hlocked htokens
    ⟨hgrants, (hf.token htoken).2, hrenewals, (hf.finished hunlock).1⟩ rfl id fun _ ht => ht

theorem Rotating.read (h : Rotating g s) (hl : l.guard = (g i).1.guard) :
    Rotating (Function.update g i (l, (g i).2.check s.token)) s := by
  have hi := h.holding i
  by_cases hw : ∃ call, (g i).2.held = some (call, .waiting)
  · obtain ⟨call, hw⟩ := hw
    have hcheck : (g i).2.check s.token = ⟨some (call,
        if s.live = some call.tokenUsed then .live else .passed), (g i).2.grant⟩ := by
      rw [RotationUse.check, hw]
      rfl
    rw [hcheck]
    refine h.keep ?_ rfl rfl rfl ⟨rfl, rfl, rfl, rfl⟩ rfl ?_ ?_
    · constructor
      · intro _
        exact hi.locked (by rw [hw]; rfl)
      · rw [hl, hi.guard, hw]
        rfl
      · intro c stage hc hstage
        cases hc
        split_ifs at hstage with hlive
        · exact hlive
        · cases hstage <;> contradiction
      · intro gd c stage hgd hc _
        cases hc
        exact hi.early gd call .waiting (hl ▸ hgd) hw (.inl rfl)
      · intro gd c stage hgd hc halready
        cases hc
        right
        exact if_neg ((hi.early gd call .waiting (hl ▸ hgd) hw (.inl rfl)).2 halready)
      · exact hi.granted
      · intro c stage q hc hrenews hq
        cases hc
        exact hi.renews call .waiting q hw hrenews hq
      · intro c hc
        split_ifs at hc <;> cases hc
    · intro _
      rw [hw]
      rfl
    · rintro token ⟨c, hc, -⟩
      rw [hw] at hc
      cases hc
  · have hcheck : (g i).2.check s.token = (g i).2 := by
      rw [RotationUse.check]
      split
      · next call hc => exact absurd ⟨call, hc⟩ hw
      · rfl
    rw [hcheck]
    exact h.keep ⟨hi.locked, hl ▸ hi.guard, hi.live, hl ▸ hi.early, hl ▸ hi.late, hi.granted,
      hi.renews, hi.renewer⟩ rfl rfl rfl ⟨rfl, rfl, rfl, rfl⟩ rfl id fun _ ht => ht

theorem Rotating.lock (h : Rotating g s) (hfree : s.reauthLocked = false) {call : LockCall}
    (hl : l.guard = some ⟨call, s.journal.renewals.contains call.tokenUsed, false⟩)
    (hlocked : s'.reauthLocked = true) (hlive : s'.live = s.live)
    (hcontroller : s'.controller = s.controller) (hjournal : s'.journal = s.journal) :
    Rotating (Function.update g i
      (l, ⟨some (call, .waiting), if call.renews then none else (g i).2.grant⟩)) s' := by
  have hnobody (j : Nat) : ¬ (g j).2.held.isSome := by
    intro hj
    rw [(h.holding j).locked hj] at hfree
    cases hfree
  have hticket : RotationUse.ticket ⟨some (call, .waiting),
      if call.renews then none else (g i).2.grant⟩ = none ∨ RotationUse.ticket ⟨some (call,
      .waiting), if call.renews then none else (g i).2.grant⟩ = (g i).2.ticket := by
    simp only [RotationUse.ticket]
    split
    · exact .inl rfl
    · exact .inr rfl
  apply h.set
  · constructor
    · exact fun _ => hlocked
    · rw [hl]
      rfl
    · intro c stage hc hstage
      cases hc
      cases hstage <;> contradiction
    · intro gd c stage hgd hc _
      rw [hl] at hgd
      cases hgd
      cases hc
      refine ⟨rfl, fun halready => ?_⟩
      rw [hlive]
      obtain hne | ⟨j, c, hj, -⟩ :=
        h.renewed call.tokenUsed (List.contains_iff_mem.mp halready)
      · exact hne
      · exact absurd (by rw [hj]; rfl) (hnobody j)
    · intro gd c stage _ hc _
      cases hc
      exact .inl rfl
    · intro q hq
      rw [hjournal]
      dsimp only at hq
      split at hq
      · cases hq
      · exact (h.holding i).granted q hq
    · intro c stage q hc hrenews hq
      cases hc
      dsimp only at hq
      rw [if_pos hrenews] at hq
      cases hq
    · exact nofun
  · rw [hjournal]
    exact List.Subset.refl _
  · intro j _ hj
    exact absurd hj (hnobody j)
  · rw [hcontroller, hjournal]
    exact .keep (fun _ ht => ht) (fun _ ht => ht) hticket
  · exact h.books.congr hlive (by rw [hjournal]) (by rw [hjournal]) (by rw [hjournal])
  · intro token htoken
    rw [hjournal] at htoken
    rw [hlive]
    obtain hne | ⟨j, c, hj, -⟩ := h.renewed token htoken
    · exact .inl hne
    · exact absurd (by rw [hj]; rfl) (hnobody j)

theorem Rotating.unlock (h : Rotating g s) {call : LockCall} {stage : Stage} {ok : Bool}
    (hheld : (g i).2.held = some (call, stage)) (hwaiting : stage ≠ .waiting)
    (hrenewed : stage ≠ .renewed) (hok : stage = .passed → call.renews = true → ok = true)
    {cleared : Option Nat} (hl : l.guard = none) (hlive : s'.live = s.live)
    (hcontroller : s'.controller = s.controller)
    (hjournal : s'.journal = s.journal.finish (g i).1.guard cleared ok s.live) :
    Rotating (Function.update g i (l, { (g i).2 with held := none })) s' := by
  have hi := h.holding i
  obtain ⟨gd, hgd, hcall⟩ : ∃ gd, (g i).1.guard = some gd ∧ gd.call = call := by
    have hg := hi.guard
    rw [hheld] at hg
    exact Option.map_eq_some_iff.mp hg
  have hgrants : s'.journal.grants = s.journal.grants := by
    rw [hjournal, Journal.finish_grants]
  have hstored : s'.journal.stored = s.journal.stored := by
    rw [hjournal, Journal.finish_stored]
  have hrenewals : s'.journal.renewals = s.journal.renewals := by
    rw [hjournal, Journal.finish_renewals]
  apply h.set
  · constructor
    · exact nofun
    · rw [hl]
      rfl
    · exact nofun
    · exact nofun
    · exact nofun
    · rw [hgrants]
      exact hi.granted
    · exact nofun
    · exact nofun
  · rw [hgrants]
    exact List.Subset.refl _
  · intro j hji hj
    exact absurd hj (h.alone (by rw [hheld]; rfl) hji)
  · rw [hcontroller, hstored]
    exact .keep (fun _ ht => ht) (fun _ ht => ht) (.inr rfl)
  · refine ⟨?_, ?_, ?_, ?_⟩
    · rw [hlive, hstored]
      exact h.books.stored
    · rw [hrenewals, hstored]
      exact h.books.renewals
    · rw [hrenewals]
      exact h.books.nodup
    · intro f hf halready hrenews
      rw [hjournal, hgd] at hf
      obtain rfl | hf := List.mem_cons.mp hf
      · -- a token renewed before the call got the lock was not the stored one
        have hstage : stage = .passed := by
          obtain rfl | rfl := hi.late gd call stage hgd hheld halready
          · exact absurd rfl hwaiting
          · rfl
        obtain ⟨hcontacted, hne⟩ := hi.early gd call stage hgd hheld (.inr hstage)
        obtain ⟨token, htoken, -⟩ := h.books.stored
        refine ⟨hcontacted, hok hstage (hcall ▸ hrenews), token, htoken, ?_⟩
        rintro rfl
        rw [hcall] at htoken
        exact hne halready htoken
      · exact h.books.calls f hf halready hrenews
  · intro token htoken
    rw [hrenewals] at htoken
    rw [hlive]
    obtain hne | ⟨j, c, hj, hc⟩ := h.renewed token htoken
    · exact .inl hne
    · refine .inr (.inr ⟨j, ?_, c, hj, hc⟩)
      rintro rfl
      rw [hheld] at hj
      cases hj
      exact hrenewed rfl

theorem RotationUse.ticket_some {u : RotationUse} {used token : String}
    (h : u.grant = some (used, token)) :
    u.ticket = if token = used then none else some token := by
  rw [RotationUse.ticket, h]
  rfl

theorem Rotating.store (h : Rotating g s) {call : LockCall} {stage : Stage} {token : AuthToken}
    (hheld : (g i).2.held = some (call, stage))
    (hstage : stage = .renewed ∨ stage = .live ∧ call.renews = false)
    (hgrant : (g i).2.grant = some (call.tokenUsed, token.channelToken))
    (hl : l.guard = (g i).1.guard) :
    Rotating (Function.update g i (l, ⟨some (call, .stored), none⟩)) { s with
      token := some token
      journal := { s.journal with stored := token.channelToken :: s.journal.stored } } := by
  have hi := h.holding i
  have hlive : s.live = some call.tokenUsed := by
    apply hi.live call stage hheld
    exact hstage.elim .inr fun hs => .inl hs.1
  have hin : call.tokenUsed ∈ s.journal.stored := by
    obtain ⟨t, ht, hin⟩ := h.books.stored
    rw [hlive] at ht
    exact Option.some.inj ht ▸ hin
  have hticket := RotationUse.ticket_some hgrant
  apply h.set
  · refine ⟨fun _ => hi.locked (by rw [hheld]; rfl), ?_, ?_, ?_, ?_, nofun, nofun, nofun⟩
    · rw [hl, hi.guard, hheld]
      rfl
    · rintro c st ⟨⟩ (h | h) <;> cases h
    · rintro gd c st _ ⟨⟩ (h | h) <;> cases h
    · rintro gd c st hgd ⟨⟩ halready
      have := hi.late gd call stage (hl ▸ hgd) hheld halready
      obtain rfl | ⟨rfl, -⟩ := hstage <;> exact absurd this (by decide)
  · exact List.Subset.refl _
  · intro j hji hj
    exact absurd hj (h.alone (by rw [hheld]; rfl) hji)
  · split_ifs at hticket with hsame
    · refine .keep (fun _ ht => ht) (fun t ht => ?_) (.inl rfl)
      obtain rfl | ht := List.mem_cons.mp ht
      · exact hsame ▸ hin
      · exact ht
    · exact .spend token.channelToken hticket (fun _ ht => ht) (fun _ => List.mem_cons.mp) rfl
  · exact ⟨⟨token.channelToken, rfl, List.mem_cons_self⟩,
      fun t ht => List.mem_cons_of_mem _ (h.books.renewals t ht), h.books.nodup, h.books.calls⟩
  · intro t ht
    left
    intro heq
    obtain rfl : token.channelToken = t := Option.some.inj heq
    split_ifs at hticket with hsame
    · obtain rfl | ⟨rfl, -⟩ := hstage
      · exact (hi.renews call .renewed _ hheld (hi.renewer call hheld) hgrant).2 hsame
      · exact h.not_renewed hheld (by decide) hlive (hsame ▸ ht)
    · exact h.tickets.unspent i _ hticket (h.books.renewals _ ht)

theorem Rotating.gain (h : Rotating g s) {call : LockCall} {token : String} {complete : Bool}
    {controller : Controller V} {carried : Option String}
    (hheld : (g i).2.held = some (call, .live)) (hrenews : call.renews = true)
    (hne : token ≠ call.tokenUsed)
    (hissued : ∀ t, (s.controller.apiSessionOf t).isSome → (controller.apiSessionOf t).isSome)
    (hnew : s.controller.apiSessionOf token = none ∧ (controller.apiSessionOf token).isSome ∨
      (g i).2.ticket = some token) :
    Rotating (Function.update g i ((g i).1.contact, (g i).2.gain token complete)) { s with
      controller
      journal := s.journal.grant (g i).1.guard carried token complete } := by
  have hi := h.holding i
  obtain ⟨gd, hgd, hcall⟩ : ∃ gd, (g i).1.guard = some gd ∧ gd.call = call := by
    have hg := hi.guard
    rw [hheld] at hg
    exact Option.map_eq_some_iff.mp hg
  have hlive : s.live = some call.tokenUsed := hi.live call .live hheld (.inl rfl)
  have hin : call.tokenUsed ∈ s.journal.stored := by
    obtain ⟨t, ht, hin⟩ := h.books.stored
    rw [hlive] at ht
    exact Option.some.inj ht ▸ hin
  have hgain : (g i).2.gain token complete =
      ⟨some (call, if complete then .renewed else .live), some (call.tokenUsed, token)⟩ := by
    rw [RotationUse.gain, hheld]
    rfl
  have hjournal : s.journal.grant (g i).1.guard carried token complete = { s.journal with
      grants := (call.tokenUsed, token) :: s.journal.grants
      renewals := if complete then call.tokenUsed :: s.journal.renewals
        else s.journal.renewals } := by
    rw [hgd, ← hcall]
    rfl
  have hrenewal := h.not_renewed hheld (by decide) hlive
  rw [hgain, hjournal]
  apply h.set
  · refine ⟨fun _ => hi.locked (by rw [hheld]; rfl), ?_, ?_, ?_, ?_, ?_, ?_, ?_⟩
    · rw [TaskLog.contact, Option.map_map, hgd]
      exact congrArg some hcall
    · rintro c stage ⟨⟩ _
      exact hlive
    · rintro gd' c stage _ ⟨⟩ hstage
      split_ifs at hstage <;> exact absurd hstage (by decide)
    · rintro gd' c stage hgd' ⟨⟩ halready
      obtain ⟨gd'', hgd'', rfl⟩ := Option.map_eq_some_iff.mp hgd'
      exact absurd (hi.late gd'' call .live hgd'' hheld halready) (by decide)
    · rintro p ⟨⟩
      exact List.mem_cons_self
    · rintro c stage p ⟨⟩ _ ⟨⟩
      exact ⟨rfl, hne⟩
    · intro c hc
      obtain rfl := (Prod.mk.inj (Option.some.inj hc)).1
      exact hrenews
  · exact List.subset_cons_self _ _
  · intro j hji hj
    exact absurd hj (h.alone (by rw [hheld]; rfl) hji)
  · have hticket := RotationUse.ticket_some (u := ⟨some (call, if complete then .renewed
      else .live), some (call.tokenUsed, token)⟩) rfl
    rw [if_neg hne] at hticket
    rw [hticket]
    obtain ⟨hnone, hsome⟩ | hold := hnew
    · refine .issue token ?_ hissued hsome (fun _ ht => ht) rfl
      rw [hnone]
      exact Bool.false_ne_true
    · exact .keep hissued (fun _ ht => ht) (.inr hold.symm)
  · refine ⟨h.books.stored, ?_, ?_, h.books.calls⟩
    · intro t ht
      dsimp only at ht
      split_ifs at ht
      · obtain rfl | ht := List.mem_cons.mp ht
        · exact hin
        · exact h.books.renewals t ht
      · exact h.books.renewals t ht
    · dsimp only
      split_ifs
      · exact List.nodup_cons.mpr ⟨hrenewal, h.books.nodup⟩
      · exact h.books.nodup
  · intro t ht
    have hold (ht : t ∈ s.journal.renewals) : s.live ≠ some t := by
      intro heq
      rw [hlive] at heq
      exact hrenewal (Option.some.inj heq ▸ ht)
    dsimp only at ht
    split_ifs at ht with hcomplete
    · obtain rfl | ht := List.mem_cons.mp ht
      · exact .inr (.inl ⟨call, by rw [if_pos hcomplete], rfl⟩)
      · exact .inl (hold ht)
    · exact .inl (hold ht)

theorem Rotating.fetch (h : Rotating g s) {used token : String} {complete : Bool}
    {controller : Controller V} (hheld : (g i).2.held = none)
    (hissued : ∀ t, (s.controller.apiSessionOf t).isSome → (controller.apiSessionOf t).isSome)
    (hnew : token = used ∨ s.controller.apiSessionOf token = none ∧
      (controller.apiSessionOf token).isSome) :
    Rotating (Function.update g i ((g i).1.contact, { (g i).2 with grant := some (used, token) }))
      { s with
        controller
        journal := s.journal.grant (g i).1.guard (some used) token complete } := by
  have hi := h.holding i
  have hguard : (g i).1.guard = none := by
    have hg := hi.guard
    rw [hheld] at hg
    exact Option.map_eq_none_iff.mp hg
  have hjournal : s.journal.grant (g i).1.guard (some used) token complete =
      { s.journal with grants := (used, token) :: s.journal.grants } := by
    rw [hguard]
    rfl
  rw [hjournal]
  apply h.set
  · refine ⟨hi.locked, ?_, hi.live, ?_, ?_, ?_, ?_, hi.renewer⟩
    · rw [TaskLog.contact, Option.map_map, hguard, hheld]
      rfl
    · intro gd call stage _ hu
      rw [hheld] at hu
      cases hu
    · intro gd call stage _ hu
      rw [hheld] at hu
      cases hu
    · rintro p ⟨⟩
      exact List.mem_cons_self
    · intro call stage p hu
      rw [hheld] at hu
      cases hu
  · exact List.subset_cons_self _ _
  · intro j _ _
    exact ⟨hheld, rfl, rfl⟩
  · rw [RotationUse.ticket_some (u := { (g i).2 with grant := some (used, token) }) rfl]
    split_ifs with hsame
    · exact .keep hissued (fun _ ht => ht) (.inl rfl)
    · obtain hsame' | ⟨hnone, hsome⟩ := hnew
      · exact absurd hsame' hsame
      · refine .issue token ?_ hissued hsome (fun _ ht => ht) rfl
        rw [hnone]
        exact Bool.false_ne_true
  · exact ⟨h.books.stored, h.books.renewals, h.books.nodup, h.books.calls⟩
  · intro t ht
    obtain hne | ⟨j, hj⟩ := h.renewed t ht
    · exact .inl hne
    · refine .inr (.inr ⟨j, ?_, hj⟩)
      rintro rfl
      obtain ⟨c, hc, -⟩ := hj
      rw [hheld] at hc
      cases hc

theorem Rotating.drop (h : Rotating g s) (hwait : ∀ token, ¬ (g i).2.Renewing token) :
    Rotating (Function.update g i (TaskLog.idle, RotationUse.idle)) (s.release (g i).1) := by
  have hi := h.holding i
  have hsame : (s.release (g i).1).live = s.live ∧ (s.release (g i).1).journal = s.journal ∧
      (s.release (g i).1).controller = s.controller := by
    unfold ClientState.release
    split <;> exact ⟨rfl, rfl, rfl⟩
  obtain ⟨hlive, hjournal, hcontroller⟩ := hsame
  apply h.set (Holding.idle _)
  · rw [hjournal]
    exact List.Subset.refl _
  · intro j hji hj
    refine ⟨rfl, ?_, hlive⟩
    -- somebody else is in the lock, so the lost task was not
    have hnone : (g i).2.held = none := by
      by_contra hu
      exact h.alone (Option.isSome_iff_ne_none.mpr hu) hji hj
    have hguard : (g i).1.guard = none := by
      have hg := hi.guard
      rw [hnone] at hg
      exact Option.map_eq_none_iff.mp hg
    rw [ClientState.release, hguard]
    rfl
  · rw [hcontroller, hjournal]
    exact .keep (fun _ ht => ht) (fun _ ht => ht) (.inl rfl)
  · exact h.books.congr hlive (by rw [hjournal]) (by rw [hjournal]) (by rw [hjournal])
  · intro t ht
    rw [hjournal] at ht
    rw [hlive]
    obtain hne | ⟨j, hj⟩ := h.renewed t ht
    · exact .inl hne
    · refine .inr (.inr ⟨j, ?_, hj⟩)
      rintro rfl
      exact hwait t hj

end Rotating

section Exec

variable [DecidableEq V] {β : Type} {c : Cmd V β} {x : Reply V} {l : TaskLog} {s : ClientState V}
  {u : RotationUse} {g : Nat → TaskLog × RotationUse} {i : Nat} {r : β × TaskLog × ClientState V}

omit [DecidableEq V] in
theorem Controller.addToken_known {ctrl : Controller V} {token t : String} {api : Nat}
    (h : (ctrl.apiSessionOf t).isSome) : ((ctrl.addToken token api).apiSessionOf t).isSome := by
  simp only [Controller.apiSessionOf, Controller.addToken, List.lookup_cons] at h ⊢
  split
  · rfl
  · exact h

omit [DecidableEq V] in
theorem Controller.addToken_self (ctrl : Controller V) (token : String) (api : Nat) :
    ((ctrl.addToken token api).apiSessionOf token).isSome := by
  simp only [Controller.apiSessionOf, Controller.addToken, List.lookup_cons_self, Option.isSome_some]

theorem exec_guard (hx : c.exec x l s = some r) (hlock : c.part ≠ .lock) (hunlock : c.part ≠ .unlock)
    (hawait : c.isAwait = false) : r.2.1.guard = l.guard := by
  cases c with
  | lockReauth => exact absurd rfl hlock
  | unlockReauth => exact absurd rfl hunlock
  | totpCode =>
    cases x <;> cases hx
    rfl
  | snapshotDialSessions =>
    cases x with
    | entries entries =>
      simp only [Cmd.exec] at hx
      split_ifs at hx
      cases hx
      rfl
    | _ => cases hx
  | processServices =>
    cases x with
    | order iter =>
      simp only [Cmd.exec] at hx
      split_ifs at hx
      cases hx
      rfl
    | _ => cases hx
  | postSession | getSessionDetail | getServiceEdgeRouters | postAuthenticate | postMfa
    | getCurrentApiSession | postTokenExchange | getServiceUpdates | getServices | backoff
    | pushChannels | invalidateSessionCert => cases hawait
  | _ =>
    cases hx
    rfl

omit [DecidableEq V] in
theorem Rotating.refused (h : Rotating g s)
    (hheld : ∀ call stage, (g i).2.held = some (call, stage) → stage = .live ∨ stage = .stored) :
    Rotating (Function.update g i ((g i).1.contact, (g i).2)) s :=
  h.plain (Cmd.frame_contact .nothing (g i).1 s) nofun nofun nofun nofun (.inr hheld)

omit [DecidableEq V] in
theorem Rotating.new_ne (h : Rotating g s) {call : LockCall} {token : String}
    (hheld : (g i).2.held = some (call, .live)) (hnew : s.controller.apiSessionOf token = none) :
    token ≠ call.tokenUsed := by
  rintro rfl
  obtain ⟨t, ht, hin⟩ := h.books.stored
  rw [(h.holding i).live call .live hheld (.inl rfl)] at ht
  have hknown := h.tickets.spentKnown t hin
  rw [← Option.some.inj ht, hnew] at hknown
  cases hknown

omit [DecidableEq V] in
theorem live_of_held {call : LockCall} (hheld : u.held = some (call, .live)) (c : LockCall)
    (stage : Stage) (h : u.held = some (c, stage)) : stage = .live ∨ stage = .stored := by
  rw [hheld] at h
  cases h
  exact .inl rfl

theorem Rotating.exec_grant (h : Rotating g s) (hmay : (rotation V).may (g i).2 c)
    (hx : c.exec x (g i).1 s = some r) (hc : c.part = .grant) :
    Rotating (Function.update g i (r.2.1, (rotation V).next (g i).2 c r.1)) r.2.2 := by
  cases c with
  | postAuthenticate method body =>
    obtain ⟨call, hheld, hrenews⟩ := hmay
    obtain ⟨f, rfl⟩ | ⟨session, s', hs, rfl⟩ := Cmd.exec_postAuthenticate hx
    · exact h.refused (live_of_held hheld)
    · obtain ⟨hnone, rfl⟩ := Cmd.createApiSession_spec hs
      exact h.gain hheld hrenews (h.new_ne hheld hnone) (fun t ht => Controller.addToken_known ht)
        (.inl ⟨hnone, Controller.addToken_self _ _ _⟩)
  | postTokenExchange subject =>
    obtain ⟨call, hheld, hrenews⟩ := hmay
    obtain ⟨f, rfl⟩ | ⟨tokens, s', hs, rfl⟩ := Cmd.exec_postTokenExchange hx
    · exact h.refused (live_of_held hheld)
    · obtain ⟨api, -, hnone, rfl⟩ := Cmd.exchangeTokens_spec hs
      exact h.gain hheld hrenews (h.new_ne hheld hnone) (fun t ht => Controller.addToken_known ht)
        (.inl ⟨hnone, Controller.addToken_self _ _ _⟩)
  | getCurrentApiSession token =>
    obtain ⟨f, rfl⟩ | ⟨session, s', hs, rfl⟩ := Cmd.exec_getCurrentApiSession hx
    · apply h.refused
      obtain hnone | ⟨call, hheld, -, -⟩ := hmay
      · intro call stage hheld
        rw [hnone] at hheld
        cases hheld
      · exact live_of_held hheld
    · obtain ⟨api, -, controller, hcontroller, rfl⟩ := Cmd.extendApiSession_spec hs
      have hissued (t : String) (ht : (s.controller.apiSessionOf t).isSome) :
          (controller.apiSessionOf t).isSome := by
        obtain ⟨-, rfl⟩ | ⟨-, rfl⟩ := hcontroller
        · exact ht
        · exact Controller.addToken_known ht
      have hnew : session.token = token.channelToken ∨
          s.controller.apiSessionOf session.token = none ∧
            (controller.apiSessionOf session.token).isSome := by
        obtain ⟨hsame, -⟩ | ⟨hnone, rfl⟩ := hcontroller
        · exact .inl hsame
        · exact .inr ⟨hnone, Controller.addToken_self _ _ _⟩
      obtain hnone | ⟨call, hheld, hrenews, hgrant⟩ := hmay
      · have hnext : (rotation V).next (g i).2 (.getCurrentApiSession token) (.ok session) =
            { (g i).2 with grant := some (token.channelToken, session.token) } := by
          change (if (g i).2.held.isSome then _ else _) = _
          exact if_neg (by rw [hnone]; exact Bool.false_ne_true)
        rw [hnext]
        exact h.fetch hnone hissued hnew
      · have hnext : (rotation V).next (g i).2 (.getCurrentApiSession token) (.ok session) =
            (g i).2.gain session.token session.authQueries.isEmpty := by
          change (if (g i).2.held.isSome then _ else _) = _
          exact if_pos (by rw [hheld]; rfl)
        have hpartial := (h.holding i).renews call .live _ hheld hrenews hgrant
        rw [hnext]
        obtain hsame | hnew := hnew
        · have hticket := RotationUse.ticket_some hgrant
          rw [if_neg hpartial.2] at hticket
          exact h.gain hheld hrenews (hsame ▸ hpartial.2) hissued (.inr (hsame ▸ hticket))
        · exact h.gain hheld hrenews (h.new_ne hheld hnew.1) hissued (.inl hnew)
  | _ => cases hc

theorem Rotating.exec (h : Rotating g s) (hmay : (rotation V).may (g i).2 c)
    (hx : c.exec x (g i).1 s = some r) :
    Rotating (Function.update g i (r.2.1, (rotation V).next (g i).2 c r.1)) r.2.2 := by
  have hf := Cmd.exec_frame hx
  have hplain (htoken : c.part ≠ .token) (hlock : c.part ≠ .lock) (hunlock : c.part ≠ .unlock)
      (hgrant : c.part ≠ .grant) (hfree : c.isAwait = true → ∀ call stage,
        (g i).2.held = some (call, stage) → stage = .live ∨ stage = .stored) :
      Rotating (Function.update g i (r.2.1, (g i).2)) r.2.2 := by
    apply h.plain hf htoken hlock hunlock hgrant
    cases hawait : c.isAwait with
    | false => exact .inl (exec_guard hx hlock hunlock hawait)
    | true => exact .inr (hfree hawait)
  cases c with
  | readToken =>
    cases hx
    exact h.read rfl
  | lockReauth call =>
    simp only [Cmd.exec] at hx
    split_ifs at hx with hfree
    cases hx
    exact h.lock (Bool.not_eq_true _ ▸ hfree) rfl rfl rfl rfl rfl
  | unlockReauth ok =>
    cases hx
    obtain ⟨call, stage, hheld, hwaiting, hrenewed, hok⟩ := hmay
    exact h.unlock hheld hwaiting hrenewed hok rfl rfl rfl rfl
  | storeToken token =>
    cases hx
    obtain ⟨call, stage, hheld, hstage, hgrant⟩ := hmay
    have hnext : (rotation V).next (g i).2 (.storeToken token) () =
        ⟨some (call, .stored), none⟩ := by
      change RotationUse.mk ((g i).2.held.map fun p => (p.1, .stored)) none = _
      rw [hheld]
      rfl
    rw [hnext]
    exact h.store hheld hstage hgrant rfl
  | postAuthenticate | postTokenExchange | getCurrentApiSession => exact h.exec_grant hmay hx rfl
  | _ => refine hplain ?_ ?_ ?_ ?_ hmay <;> rintro ⟨⟩

omit [DecidableEq V] in
/-- Nobody waits between a renewal and its store. -/
theorem RotationUse.not_renewing (hmay : (rotation V).may u c) (hawait : c.isAwait = true)
    (token : String) : ¬ u.Renewing token := by
  rintro ⟨call, hu, -⟩
  have hfree (h : ∀ call stage, u.held = some (call, stage) → stage = .live ∨ stage = .stored) :
      False := absurd (h call .renewed hu) (by decide)
  cases c with
  | lockReauth call' =>
    rw [hmay.1] at hu
    cases hu
  | postAuthenticate | postTokenExchange =>
    obtain ⟨call', hu', -⟩ := hmay
    exact hfree (live_of_held hu')
  | getCurrentApiSession token' =>
    obtain hnone | ⟨call', hu', -, -⟩ := hmay
    · rw [hnone] at hu
      cases hu
    · exact hfree (live_of_held hu')
  | postSession | getSessionDetail | getServiceEdgeRouters | postMfa | getServiceUpdates
    | getServices | backoff | pushChannels | invalidateSessionCert => exact hfree (hmay hawait)
  | _ => cases hawait

theorem rotating_tracks (cfg : ClientConfig) :
    Crew.Tracks (clientEffects V) (ClientOp.prog cfg) (fun _ _ _ => True) (rotation V) .idle
      Rotating where
  spawn := fun op => RotationUse.obeys_prog cfg op rfl
  lost := trivial
  exec := fun _ _ _ _ _ _ h hmay _ hx => h.exec hmay hx
  drop := fun _ _ _ _ h hmay hawait => h.drop (RotationUse.not_renewing hmay hawait)
  env := by
    intro e g s s' he h
    obtain ⟨-, rfl⟩ := changeServices_spec he
    refine ⟨fun i => ?_, h.one, h.tickets, ?_, h.renewed⟩
    · exact (h.holding i).other (List.Subset.refl _) fun _ => ⟨rfl, rfl⟩
    · exact h.books.congr rfl rfl rfl rfl

end Exec

section Runs

variable [DecidableEq V] {cfg : ClientConfig} {token : AuthToken} {services : List (Service V)}
  {lastChangeAt : Int} {as : List (ClientAct V)} {s t : ClientTasks V}

theorem run_rotating (hrun : run (clientStep cfg) (.start token services lastChangeAt) as = some s) :
    ∃ g, Crew.Tracked (clientEffects V) (rotation V) .idle Rotating g s :=
  (rotating_tracks cfg).run hrun (Crew.runAll_meets _ _)
    ⟨_, Crew.tracked_new (Rotating.start token services lastChangeAt)⟩

/-- Only a store changes the token, under the lock, to what was got for the token it replaces. -/
theorem token_replaced (hrun : run (clientStep cfg) (.start token services lastChangeAt) as = some s)
    {a : ClientAct V} (hstep : clientStep cfg s a = some t) (hne : t.state.token ≠ s.state.token) :
    ∃ old new, s.state.token = some old ∧ t.state.token = some new ∧
      (old.channelToken, new.channelToken) ∈ s.state.journal.grants := by
  obtain ⟨g, hg⟩ := run_rotating hrun
  cases a with
  | spawn op =>
    cases hstep
    exact absurd rfl hne
  | go i x =>
    obtain ⟨γ, c, k, own, r, hk, hx, rfl⟩ := Crew.step_go hstep
    obtain ⟨hown, hmay⟩ := hg.may hk
    have hi := hg.inv.holding i
    by_cases htoken : c.part = .token
    · cases c with
      | storeToken new =>
        cases hx
        obtain ⟨call, stage, hheld, hstage, hgrant⟩ := hmay
        have hlive := hi.live call stage hheld (hstage.elim .inr fun hs => .inl hs.1)
        obtain ⟨old, hold, hch⟩ := Option.map_eq_some_iff.mp hlive
        refine ⟨old, new, hold, rfl, ?_⟩
        rw [hch]
        exact hi.granted _ hgrant
      | _ => cases htoken
    · exact absurd ((Cmd.exec_frame hx).token htoken).1 hne
  | drop i =>
    obtain ⟨γ, c, k, own, -, -, rfl⟩ := Crew.step_drop hstep
    refine absurd ?_ hne
    change (s.state.release own).token = s.state.token
    unfold ClientState.release
    split <;> rfl
  | env e =>
    obtain ⟨st, he, rfl⟩ := Option.map_eq_some_iff.mp hstep
    obtain ⟨-, rfl⟩ := changeServices_spec he
    exact absurd rfl hne

/-- Over every run: a stored token is replaced only by one obtained for it; at most one authentication
or exchange succeeds for a token; a later call for it returns `Ok` with another token stored, without
a request. -/
theorem token_rotation_linear
    (hrun : run (clientStep cfg) (.start token services lastChangeAt) as = some s) :
    (∀ (a : ClientAct V) (t : ClientTasks V), clientStep cfg s a = some t →
      t.state.token ≠ s.state.token → ∃ old new, s.state.token = some old ∧
        t.state.token = some new ∧
        (old.channelToken, new.channelToken) ∈ s.state.journal.grants) ∧
    s.state.journal.renewals.Nodup ∧
    ∀ f ∈ s.state.journal.calls, f.already = true → f.call.renews = true →
      f.contacted = false ∧ f.ok = true ∧
        ∃ token, f.live = some token ∧ token ≠ f.call.tokenUsed := by
  obtain ⟨g, hg⟩ := run_rotating hrun
  exact ⟨fun _ _ hstep hne => token_replaced hrun hstep hne, hg.inv.books.nodup,
    hg.inv.books.calls⟩

/-- Two re-authentications for one token, one after the other in the lock. -/
def reauthActs : List (ClientAct Unit) :=
  [.spawn (.reauthenticate "a"), .spawn (.reauthenticate "a"), .go 0 .done, .go 0 .done,
    .go 0 (.apiSession ⟨"b", none, []⟩), .go 0 .done, .go 0 .done, .go 0 .done, .go 0 .done,
    .go 1 .done, .go 1 .done, .go 1 .done]

theorem token_rotation_linear_twice :
    ∃ s : ClientTasks Unit,
      run (clientStep ⟨.cert, false, false⟩) (.start (.legacy "a") [] 0) reauthActs = some s ∧
      s.state.journal.renewals = ["a"] ∧ s.state.journal.renewals.Nodup ∧
      ∃ f ∈ s.state.journal.calls, f.call = .reauthenticate "a" ∧ f.already = true ∧
        f.contacted = false ∧ f.ok = true ∧ ∃ token, f.live = some token ∧ token ≠ "a" := by
  obtain ⟨s, hs, hcalls⟩ := Option.map_eq_some_iff.mp (show
    (run (clientStep ⟨.cert, false, false⟩) (.start (.legacy "a") [] 0) reauthActs).map
      (fun s => (s.state.journal.renewals, s.state.journal.calls)) =
      some (["a"], [⟨.reauthenticate "a", true, false, true, some "b"⟩,
        ⟨.reauthenticate "a", false, true, true, some "b"⟩]) by decide +kernel)
  obtain ⟨hrenewals, hcalls⟩ := Prod.mk.inj hcalls
  obtain ⟨-, hnodup, hfinished⟩ := token_rotation_linear hs
  have hmem : ⟨.reauthenticate "a", true, false, true, some "b"⟩ ∈ s.state.journal.calls := by
    rw [hcalls]
    exact List.mem_cons_self
  exact ⟨s, hs, hrenewals, hnodup, _, hmem, rfl, rfl, hfinished _ hmem rfl rfl⟩

end Runs

end Noa.Edge.Client
