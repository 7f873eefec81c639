import Noa.Edge.Client.Footprint
import Noa.Framework.Handler

namespace Noa.Edge.Client
open Noa.Framework
open Noa.Framework.Program (lift)

/-- `Duration::from_secs`; a duration is in nanoseconds. -/
def fromSecs (n : Nat) : Nat := n * 10 ^ 9

/-- `SystemTime`, in nanoseconds since the epoch; its seconds are an `i64`. -/
structure SystemTime where
  nanos : Int
  lower : -(2 ^ 63 * 10 ^ 9) ≤ nanos
  upper : nanos < 2 ^ 63 * 10 ^ 9
  deriving DecidableEq

namespace SystemTime

def checkedSub (t : SystemTime) (d : Nat) : Option SystemTime :=
  if h : -(2 ^ 63 * 10 ^ 9) ≤ t.nanos - d then
    some ⟨t.nanos - d, h, by have := t.upper; omega⟩
  else none

/-- `duration_since(..).ok()`: none for a time that is still ahead. -/
def durationSince (t earlier : SystemTime) : Option Nat :=
  if earlier.nanos ≤ t.nanos then some (t.nanos - earlier.nanos).toNat else none

end SystemTime

structure RefreshIntervals where
  lead : Nat
  default : Nat
  retry : Nat

def prodIntervals : RefreshIntervals := ⟨fromSecs 10, fromSecs 30, fromSecs 5⟩

structure RefreshIntervals.Positive (iv : RefreshIntervals) : Prop where
  lead : 0 < iv.lead
  default : 0 < iv.default
  retry : 0 < iv.retry

def nextSleep (expiresAt : Option SystemTime) (now : SystemTime) (iv : RefreshIntervals) :
    Nat :=
  match expiresAt with
  | some exp => ((exp.checkedSub iv.lead).bind (·.durationSince now)).getD 0
  | none => iv.default

/-- The expiry leaves no more than the lead. -/
def Imminent (iv : RefreshIntervals) (exp now : SystemTime) : Prop :=
  exp.nanos ≤ now.nanos + iv.lead

theorem nextSleep_some_eq_zero {iv : RefreshIntervals} {exp now : SystemTime} :
    nextSleep (some exp) now iv = 0 ↔ Imminent iv exp now := by
  have hlow := now.lower
  unfold nextSleep SystemTime.checkedSub Imminent
  dsimp only
  by_cases hrange : -(2 ^ 63 * 10 ^ 9) ≤ exp.nanos - iv.lead
  · rw [dif_pos hrange, Option.bind_some, SystemTime.durationSince]
    dsimp only
    split_ifs with hpast
    · rw [Option.getD_some]
      omega
    · rw [Option.getD_none]
      omega
  · rw [dif_neg hrange, Option.bind_none, Option.getD_none]
    omega

theorem nextSleep_eq_zero {iv : RefreshIntervals} (hiv : 0 < iv.default)
    {expiresAt : Option SystemTime} {now : SystemTime} (h : nextSleep expiresAt now iv = 0) :
    ∃ exp, expiresAt = some exp ∧ Imminent iv exp now := by
  cases expiresAt with
  | none => exact absurd h hiv.ne'
  | some exp => exact ⟨exp, rfl, nextSleep_some_eq_zero.mp h⟩

inductive ClockCmd : Type → Type
  | readExpiry : ClockCmd (Option SystemTime)
  | now : ClockCmd SystemTime
  | sleep (d : Nat) : ClockCmd Unit

/-- The commands of a client, and its clock. -/
abbrev TimedCmd (V β : Type) := Cmd V β ⊕ ClockCmd β

section Programs

variable {V α : Type}

def readExpiry : Program (TimedCmd V) (Option SystemTime) := lift (.inr .readExpiry)

def now : Program (TimedCmd V) SystemTime := lift (.inr .now)

def sleep (d : Nat) : Program (TimedCmd V) Unit := lift (.inr (.sleep d))

def timed (p : Proc V α) : Program (TimedCmd V) α := p.embed Sum.inl

/-- One turn of the timer of the api-session, by the clock. -/
def runRefreshesTimed (cfg : ClientConfig) (iv : RefreshIntervals) :
    Program (TimedCmd V) Unit := do
  match ← timed (lift .readToken) with
  | some (.oidc _ _) =>
    match (← timed (lift .readToken)).bind (·.refreshToken) with
    | none => sleep iv.default
    | some _ =>
      let exp ← readExpiry
      let at_ ← now
      sleep (nextSleep exp at_ iv)
      match ← timed (lift .readToken) with
      | none => sleep iv.retry
      | some tokenUsed =>
        match ← timed (doOidcSessionRefresh tokenUsed.channelToken) with
        | .ok () => timed pushTokenToLiveChannels
        | .error _ => sleep iv.retry
  | _ =>
    let exp ← readExpiry
    let at_ ← now
    sleep (nextSleep exp at_ iv)
    match ← timed (lift .readToken) with
    | none => sleep iv.retry
    | some tokenUsed =>
      match ← timed (doRefreshGet tokenUsed) with
      | .ok session =>
        let _ ← timed (guardedStoreRefresh tokenUsed.channelToken (.legacy session.token)
          session.expiresAt)
        pure ()
      | .error (.authHttp 401 _ _) =>
        let _ ← timed (doReauthenticate cfg tokenUsed.channelToken)
        sleep iv.retry
      | .error _ => sleep iv.retry

/-- What is left of the clock when nothing is timed: its sleeps. -/
def untimed (exp : Option SystemTime) (at_ : SystemTime) {β : Type} : TimedCmd V β → Proc V β
  | .inl c => lift c
  | .inr .readExpiry => pure exp
  | .inr .now => pure at_
  | .inr (.sleep _) => lift .backoff

theorem handle_timed (exp : Option SystemTime) (at_ : SystemTime) (p : Proc V α) :
    (timed p).handle (untimed exp at_) = p := by
  refine Program.handle_embed ?_ p
  intro γ c
  rfl

theorem handle_clock (exp : Option SystemTime) (at_ : SystemTime) (iv : RefreshIntervals)
    (f : Program (TimedCmd V) α) :
    (readExpiry >>= fun exp => now >>= fun at_ => sleep (nextSleep exp at_ iv) >>= fun _ => f).handle
      (untimed exp at_) = lift .backoff >>= fun _ => f.handle (untimed exp at_) := rfl

theorem handle_answered (cfg : ClientConfig) (iv : RefreshIntervals) (exp : Option SystemTime)
    (at_ : SystemTime) (tokenUsed : AuthToken) (r : Except RestError ApiSession) :
    Program.handle (untimed exp at_)
      (match r with
      | .ok session => do
        let _ ← timed (guardedStoreRefresh (V := V) tokenUsed.channelToken (.legacy session.token)
          session.expiresAt)
        pure ()
      | .error (.authHttp 401 _ _) => do
        let _ ← timed (doReauthenticate cfg tokenUsed.channelToken)
        sleep iv.retry
      | .error _ => sleep iv.retry) =
    match r with
    | .ok session => do
      let _ ← guardedStoreRefresh tokenUsed.channelToken (.legacy session.token) session.expiresAt
      pure ()
    | .error (.authHttp 401 _ _) => do
      let _ ← doReauthenticate cfg tokenUsed.channelToken
      lift .backoff
    | .error _ => lift .backoff := by
  split
  · rw [Program.handle_bind, handle_timed]
    rfl
  · rw [Program.handle_bind, handle_timed]
    rfl
  · rfl

/-- Whatever the clock says, the turn is the one without a clock. -/
theorem untimed_runRefreshesTimed (cfg : ClientConfig) (iv : RefreshIntervals)
    (exp : Option SystemTime) (at_ : SystemTime) :
    (runRefreshesTimed (V := V) cfg iv).handle (untimed exp at_) = runRefreshes cfg := by
  unfold runRefreshesTimed runRefreshes
  rw [Program.handle_bind, handle_timed]
  congr 1
  funext token
  rcases token with _ | _ | _
  case some.oidc =>
    dsimp only
    rw [Program.handle_bind, handle_timed]
    congr 1
    funext token
    generalize token.bind (·.refreshToken) = refresh
    cases refresh with
    | none => rfl
    | some _ =>
      dsimp only
      rw [handle_clock]
      congr 1
      funext _
      rw [Program.handle_bind, handle_timed]
      congr 1
      funext token
      cases token with
      | none => rfl
      | some tokenUsed =>
        dsimp only
        rw [Program.handle_bind, handle_timed]
        congr 1
        funext r
        cases r with
        | ok _ => exact handle_timed exp at_ _
        | error e => rfl
  all_goals
    dsimp only
    rw [handle_clock]
    congr 1
    funext _
    rw [Program.handle_bind, handle_timed]
    congr 1
    funext token
    cases token with
    | none => rfl
    | some tokenUsed =>
      dsimp only
      rw [Program.handle_bind, handle_timed]
      congr 1
      funext r
      exact handle_answered cfg iv exp at_ tokenUsed r

end Programs

/-- The requests that refresh the api-session or authenticate again. -/
inductive RefreshRequest where
  | current
  | exchange
  | authenticate
  | mfa
  deriving DecidableEq

/-- A request, and how it failed. -/
structure Asked where
  request : RefreshRequest
  failure : Option Failure
  deriving DecidableEq

/-- What the timer does, as an observer notes it. -/
inductive TimerEvent where
  | asked (a : Asked)
  | expiry (e : Option SystemTime)
  | clock (t : SystemTime)
  | slept (d : Nat)
  deriving DecidableEq

def failureOf {α : Type} : Except Failure α → Option Failure
  | .ok _ => none
  | .error f => some f

section Observer

variable {V β : Type}

def asks : TimedCmd V β → Option RefreshRequest
  | .inl (.getCurrentApiSession _) => some .current
  | .inl (.postTokenExchange _) => some .exchange
  | .inl (.postAuthenticate _ _) => some .authenticate
  | .inl (.postMfa _ _) => some .mfa
  | _ => none

/-- The events so far, the latest first, after a command and its answer. -/
def observe (t : List TimerEvent) : TimedCmd V β → β → List TimerEvent
  | .inl (.getCurrentApiSession _), r => .asked ⟨.current, failureOf r⟩ :: t
  | .inl (.postTokenExchange _), r => .asked ⟨.exchange, failureOf r⟩ :: t
  | .inl (.postAuthenticate _ _), r => .asked ⟨.authenticate, failureOf r⟩ :: t
  | .inl (.postMfa _ _), r => .asked ⟨.mfa, failureOf r⟩ :: t
  | .inr .readExpiry, e => .expiry e :: t
  | .inr .now, at_ => .clock at_ :: t
  | .inr (.sleep d), _ => .slept d :: t
  | _, _ => t

end Observer

def lastAsked : List TimerEvent → Option Asked
  | [] => none
  | .asked a :: _ => some a
  | _ :: t => lastAsked t

/-- The time slept since the last request. -/
def sleptSince : List TimerEvent → Nat
  | [] => 0
  | .asked _ :: _ => 0
  | .slept d :: t => d + sleptSince t
  | _ :: t => sleptSince t

/-- The request is the next one of a re-authentication: it begins with the authentication a `401`
calls for, which a code and a last look at the api-session may follow. -/
def Continues (prev : Asked) : RefreshRequest → Prop
  | .authenticate =>
    prev.request = .current ∧ ∃ code message, prev.failure = some (.http 401 code message)
  | .mfa => prev.request = .authenticate ∧ prev.failure = none
  | .current => prev.request = .mfa ∧ prev.failure = none
  | .exchange => False

/-- The last sleep was computed from an imminent expiry. -/
def Rushed (iv : RefreshIntervals) (t : List TimerEvent) : Prop :=
  ∃ exp at_ t', t = .slept 0 :: .clock at_ :: .expiry (some exp) :: t' ∧ Imminent iv exp at_

/-- How a request comes after the one before it. -/
def Gap (iv : RefreshIntervals) (r : RefreshRequest) (t : List TimerEvent) : Prop :=
  ∀ prev, lastAsked t = some prev →
    0 < sleptSince t ∨ Continues prev r ∨ prev.failure = none ∧ Rushed iv t

section Resting

variable {V β : Type} {iv : RefreshIntervals} {t : List TimerEvent}

/-- The timer asks only after a gap. -/
def resting (V : Type) (iv : RefreshIntervals) : Discipline (TimedCmd V) (List TimerEvent) where
  may := fun t c => ∀ r, asks c = some r → Gap iv r t
  next := fun t c b => observe t c b

/-- Between two turns: a request that failed has been slept off. -/
def Settled (t : List TimerEvent) : Prop :=
  ∀ prev, lastAsked t = some prev → 0 < sleptSince t ∨ prev.failure = none

/-- Once a turn has slept. -/
def Ready (iv : RefreshIntervals) (t : List TimerEvent) : Prop :=
  ∀ prev, lastAsked t = some prev → 0 < sleptSince t ∨ prev.failure = none ∧ Rushed iv t

theorem Ready.gap (h : Ready iv t) (r : RefreshRequest) : Gap iv r t :=
  fun prev hprev => (h prev hprev).imp_right .inr

theorem Ready.settled (h : Ready iv t) : Settled t :=
  fun prev hprev => (h prev hprev).imp_right And.left

theorem settled_slept {d : Nat} (hd : 0 < d) : Settled (.slept d :: t) :=
  fun _ _ => .inl (Nat.add_pos_left hd _)

theorem settled_asked {r : RefreshRequest} : Settled (.asked ⟨r, none⟩ :: t) := by
  intro prev hprev
  cases hprev
  exact .inr rfl

theorem Settled.ready (h : Settled t) (hiv : iv.Positive) (e : Option SystemTime)
    (at_ : SystemTime) :
    Ready iv (.slept (nextSleep e at_ iv) :: .clock at_ :: .expiry e :: t) := by
  intro prev hprev
  rcases Nat.eq_zero_or_pos (nextSleep e at_ iv) with hzero | hpos
  · obtain ⟨exp, rfl, himminent⟩ := nextSleep_eq_zero hiv.default hzero
    refine (h prev hprev).imp (fun hslept => ?_) fun hok => ⟨hok, exp, at_, t, ?_, himminent⟩
    · exact Nat.add_pos_right _ hslept
    · rw [hzero]
  · exact .inl (Nat.add_pos_left hpos _)

/-- The discipline as the programs without a clock see it. -/
abbrev asking (V : Type) (iv : RefreshIntervals) : Discipline (Cmd V) (List TimerEvent) :=
  (resting V iv).comap Sum.inl

def Silent (γ : Type) (c : Cmd V γ) : Prop := asks (.inl c) = none

theorem observe_silent {c : Cmd V β} (hc : Silent β c) (b : β) : observe t (.inl c) b = t := by
  cases c <;> first | rfl | cases hc

theorem may_of_silent {c : Cmd V β} (hc : Silent β c) : (asking V iv).may t c := by
  intro r hr
  cases (show asks (.inl c) = none from hc).symm.trans hr

theorem ensures_silent {α : Type} {p : Proc V α} (hp : p.Issues Silent) :
    p.Ensures (asking V iv) (fun _ t' => t' = t) t :=
  Program.Issues.ensures (fun _ hc _ => ⟨may_of_silent hc, observe_silent hc⟩) hp t

theorem may_of_gap {c : Cmd V β} {r : RefreshRequest} (hc : asks (.inl c) = some r)
    (h : Gap iv r t) : (asking V iv).may t c := by
  intro r' hr'
  rw [show asks (.inl c) = some r' from hr'] at hc
  cases hc
  exact h

theorem gap_of_continues {r : RefreshRequest} {prev : Asked} (hlast : lastAsked t = some prev)
    (h : Continues prev r) : Gap iv r t := by
  intro prev' hprev'
  rw [hlast] at hprev'
  cases hprev'
  exact .inr (.inl h)

theorem silent_locked {α : Type} {call : LockCall} {ok : α → Bool} {p : Proc V α}
    (hp : p.Issues Silent) : (locked call ok p).Issues Silent := by
  refine .call rfl fun _ => ?_
  apply Program.Issues.bind hp
  intro r
  exact ⟨rfl, fun _ => trivial⟩

theorem silent_guardedStoreRefresh (tokenUsed : String) (newToken : AuthToken)
    (newExpiresAt : Option String) :
    (guardedStoreRefresh (V := V) tokenUsed newToken newExpiresAt).Issues Silent := by
  apply silent_locked
  simp only [storeRefreshLocked, Program.lift_bind]
  refine .call rfl fun live => ?_
  split
  · exact ⟨rfl, fun _ => ⟨rfl, fun _ => trivial⟩⟩
  · trivial

theorem silent_pushTokenToLiveChannels : (pushTokenToLiveChannels (V := V)).Issues Silent := by
  simp only [pushTokenToLiveChannels, Program.lift_bind]
  refine .call rfl fun current => ?_
  split
  · trivial
  · split
    · exact ⟨rfl, fun _ => trivial⟩
    · trivial

theorem ensures_locked {α : Type} {call : LockCall} {ok : α → Bool} {p : Proc V α}
    {Q : α → List TimerEvent → Prop} (hp : p.Ensures (asking V iv) Q t) :
    (locked call ok p).Ensures (asking V iv) Q t := by
  refine .call (may_of_silent rfl) fun _ => ?_
  apply Program.Ensures.bind hp
  intro r t' hr
  exact ⟨may_of_silent rfl, fun _ => hr⟩

theorem ensures_doRefreshGet (token : AuthToken) (h : Gap iv .current t) :
    (doRefreshGet token).Ensures (asking V iv) (fun r t' =>
      match r with
      | .ok _ => t' = .asked ⟨.current, none⟩ :: t
      | .error e => ∃ f, e = authError f ∧ t' = .asked ⟨.current, some f⟩ :: t) t := by
  refine ⟨may_of_gap rfl h, fun r => ?_⟩
  cases r with
  | ok session => exact rfl
  | error f => exact ⟨f, rfl, rfl⟩

theorem ensures_satisfyLegacyMfa (mfaProvider : Bool) (session : ApiSession)
    (h : lastAsked t = some ⟨.authenticate, none⟩) :
    (satisfyLegacyMfa mfaProvider session).Ensures (asking V iv) (fun _ _ => True) t := by
  unfold satisfyLegacyMfa
  split
  · simp only [Program.lift_bind]
    refine .call (may_of_silent rfl) fun code => ?_
    split
    · trivial
    · apply Program.Ensures.bind (R := fun r t' => r.isOk → lastAsked t' = some ⟨.mfa, none⟩)
      · simp only [submitMfaCode, Program.lift_bind]
        refine .call (may_of_gap rfl (gap_of_continues h ⟨rfl, rfl⟩)) fun r => ?_
        split
        · exact fun _ => rfl
        · rintro ⟨⟩
        · rintro ⟨⟩
      · intro r t' hmfa
        cases r with
        | error e => trivial
        | ok _ =>
          have hgap : Gap iv .current t' := gap_of_continues (hmfa rfl) ⟨rfl, rfl⟩
          apply (ensures_doRefreshGet _ hgap).bind
          intro refreshed _ _
          cases refreshed with
          | error e => trivial
          | ok refreshed =>
            dsimp only
            split <;> trivial
  · trivial

theorem ensures_authenticate (method : ReauthMethod) (mfaProvider : Bool)
    (h : Gap iv .authenticate t) :
    (method.authenticate mfaProvider).Ensures (asking V iv) (fun _ _ => True) t := by
  have hlegacy (name : String) (body : AuthBody) :
      (legacyAuthenticate mfaProvider name body).Ensures (asking V iv) (fun _ _ => True) t := by
    simp only [legacyAuthenticate, Program.lift_bind]
    refine .call (may_of_gap rfl h) fun r => ?_
    split
    · trivial
    · split
      · trivial
      · exact ensures_satisfyLegacyMfa _ _ rfl
  cases method with
  | cert => exact hlegacy _ _
  | updb username password => exact hlegacy _ _
  | extJwt => trivial

theorem ensures_doReauthenticate (cfg : ClientConfig) (tokenUsed : String)
    (h : Gap iv .authenticate t) :
    (doReauthenticate cfg tokenUsed).Ensures (asking V iv) (fun _ _ => True) t := by
  apply ensures_locked
  simp only [reauthenticateLocked, Program.lift_bind]
  refine .call (may_of_silent rfl) fun live => ?_
  split
  · trivial
  · apply (ensures_authenticate cfg.method cfg.mfaProvider h).bind
    intro r t' _
    cases r with
    | error e => trivial
    | ok session =>
      refine .call (may_of_silent rfl) fun _ => .call (may_of_silent rfl) fun _ =>
        .call (may_of_silent rfl) fun _ => ?_
      split
      · exact ⟨may_of_silent rfl, fun _ => trivial⟩
      · trivial

theorem ensures_doOidcSessionRefresh (tokenUsed : String) (h : Ready iv t) :
    (doOidcSessionRefresh tokenUsed).Ensures (asking V iv)
      (fun r t' => r.isOk → Settled t') t := by
  apply ensures_locked
  simp only [oidcRefreshLocked, Program.lift_bind]
  refine .call (may_of_silent rfl) fun current => ?_
  split
  · exact fun _ => h.settled
  · split
    · exact fun _ => h.settled
    · refine .call (may_of_gap rfl (h.gap .exchange)) fun r => ?_
      cases r with
      | error f => rintro ⟨⟩
      | ok refreshed =>
        exact ⟨may_of_silent rfl, fun _ => ⟨may_of_silent rfl, fun _ _ => settled_asked⟩⟩

theorem ensures_sleep {d : Nat} (hd : 0 < d) :
    (sleep (V := V) d).Ensures (resting V iv) (fun _ => Settled) t :=
  ⟨nofun, fun _ => settled_slept hd⟩

theorem ensures_schedule {α : Type} {Q : α → List TimerEvent → Prop} {f : Program (TimedCmd V) α}
    (hiv : iv.Positive) (h : Settled t) (hf : ∀ t', Ready iv t' → f.Ensures (resting V iv) Q t') :
    (readExpiry >>= fun exp => now >>= fun at_ => sleep (nextSleep exp at_ iv) >>= fun _ => f).Ensures
      (resting V iv) Q t :=
  .call nofun fun exp => .call nofun fun at_ => .call nofun fun _ => hf _ (h.ready hiv exp at_)

theorem ensures_readToken {α : Type} {Q : α → List TimerEvent → Prop}
    {f : Option AuthToken → Program (TimedCmd V) α}
    (hf : ∀ token, (f token).Ensures (resting V iv) Q t) :
    (timed (lift .readToken) >>= f).Ensures (resting V iv) Q t :=
  .call nofun hf

/-- A turn leaves no failed request unslept. -/
theorem ensures_runRefreshesTimed (cfg : ClientConfig) (hiv : iv.Positive) (h : Settled t) :
    (runRefreshesTimed cfg iv).Ensures (resting V iv) (fun _ => Settled) t := by
  unfold runRefreshesTimed
  refine ensures_readToken fun token => ?_
  split
  · refine ensures_readToken fun token => ?_
    split
    · exact ensures_sleep hiv.default
    · refine ensures_schedule hiv h fun t' hready => ensures_readToken fun token => ?_
      split
      · exact ensures_sleep hiv.retry
      · apply (ensures_doOidcSessionRefresh _ hready).embed.bind
        intro r t'' hsettled
        split
        · refine (ensures_silent silent_pushTokenToLiveChannels).embed.mono fun _ _ heq => ?_
          rw [heq]
          exact hsettled rfl
        · exact ensures_sleep hiv.retry
  · refine ensures_schedule hiv h fun t' hready => ensures_readToken fun token => ?_
    split
    · exact ensures_sleep hiv.retry
    · apply (ensures_doRefreshGet _ (hready.gap .current)).embed.bind
      intro r t'' hasked
      split
      · apply (ensures_silent (silent_guardedStoreRefresh _ _ _)).embed.bind
        intro _ _ heq
        rw [heq, hasked]
        exact settled_asked
      · next code message =>
        obtain ⟨f, hf, rfl⟩ := hasked
        cases f with
        | response detail => cases hf
        | http status _ _ =>
          cases hf
          have hgap : Gap iv .authenticate
              (.asked ⟨.current, some (.http 401 code message)⟩ :: t') :=
            gap_of_continues rfl ⟨rfl, code, message, rfl⟩
          apply (ensures_doReauthenticate cfg _ hgap).embed.bind
          intro _ _ _
          exact ensures_sleep hiv.retry
      · exact ensures_sleep hiv.retry

end Resting

section Spacing

variable {V β : Type} {iv : RefreshIntervals} {t : List TimerEvent}

/-- Every request comes after a gap. -/
def Spaced (iv : RefreshIntervals) (t : List TimerEvent) : Prop :=
  ∀ a t', .asked a :: t' <:+ t → Gap iv a.request t'

theorem Spaced.asked (h : Spaced iv t) {a : Asked} (ha : Gap iv a.request t) :
    Spaced iv (.asked a :: t) := by
  intro a' t' hsuffix
  obtain heq | hsuffix := List.suffix_cons_iff.mp hsuffix
  · cases heq
    exact ha
  · exact h a' t' hsuffix

theorem Spaced.other (h : Spaced iv t) {e : TimerEvent} (he : ∀ a, e ≠ .asked a) :
    Spaced iv (e :: t) := by
  intro a' t' hsuffix
  obtain heq | hsuffix := List.suffix_cons_iff.mp hsuffix
  · cases heq
    exact (he a' rfl).elim
  · exact h a' t' hsuffix

theorem Spaced.observe (h : Spaced iv t) {c : TimedCmd V β} (hmay : (resting V iv).may t c) (b : β) :
    Spaced iv (observe t c b) := by
  cases c with
  | inl c =>
    cases c with
    | getCurrentApiSession token => exact h.asked (hmay _ rfl)
    | postTokenExchange subject => exact h.asked (hmay _ rfl)
    | postAuthenticate method body => exact h.asked (hmay _ rfl)
    | postMfa token code => exact h.asked (hmay _ rfl)
    | _ => exact h
  | inr c => cases c <;> exact h.other nofun

end Spacing

/-- The timer of a client, by a clock. -/
structure TimerState (V : Type) where
  client : ClientState V
  own : TaskLog
  clock : SystemTime
  events : List TimerEvent

namespace TimerState

variable {V β : Type} [DecidableEq V]

def perform (parse : String → Option SystemTime) (s : TimerState V) (c : TimedCmd V β)
    (x : Reply V) : Option (β × TaskLog × ClientState V) :=
  match c with
  | .inl c => c.exec x s.own s.client
  | .inr .readExpiry => some (s.client.expiresAt.bind parse, s.own, s.client)
  | .inr .now => some (s.clock, s.own, s.client)
  | .inr (.sleep _) => some ((), s.own, s.client)

/-- The other tasks and the controller may change what the client shares, and the clock never goes
back. `parse` reads an expiry in text. -/
def runtime (parse : String → Option SystemTime) :
    Runtime (TimedCmd V) (TimerState V) (ClientState V × SystemTime) (Reply V) where
  exec := fun c x s => (s.perform parse c x).map fun r =>
    (r.1, { s with own := r.2.1, client := r.2.2, events := observe s.events c r.1 })
  env := fun e s =>
    if s.clock.nanos ≤ e.2.nanos then some { s with client := e.1, clock := e.2 } else none
  droppable := fun _ => false

/-- Turn after turn. -/
def step (parse : String → Option SystemTime) (cfg : ClientConfig) (iv : RefreshIntervals) :
    Loop (TimedCmd V) (TimerState V) →
      LoopAct Unit (ClientState V × SystemTime) (Reply V) →
        Option (Loop (TimedCmd V) (TimerState V)) :=
  Loop.step (runtime parse) (fun _ => some) fun _ => runRefreshesTimed cfg iv

variable {parse : String → Option SystemTime} {cfg : ClientConfig} {iv : RefreshIntervals}

theorem stable_events (P : List TimerEvent → Prop) :
    (runtime (V := V) parse).Stable fun s => P s.events := by
  intro e s s' he h
  simp only [runtime] at he
  split_ifs at he
  cases he
  exact h

theorem exec_events {c : TimedCmd V β} {x : Reply V} {s : TimerState V} {r : β × TimerState V}
    (h : (runtime parse).exec c x s = some r) : r.2.events = observe s.events c r.1 := by
  obtain ⟨_, -, rfl⟩ := Option.map_eq_some_iff.mp h
  rfl

theorem guarded_runRefreshes (hiv : iv.Positive) {s : TimerState V} (hs : Spaced iv s.events)
    (h : Settled s.events) :
    Guarded (runtime parse) (fun s => Spaced iv s.events) (fun _ s => Settled s.events)
      (runRefreshesTimed cfg iv) s := by
  have hturn := ensures_runRefreshesTimed (V := V) cfg hiv h
  refine (Guarded.of_ensures TimerState.events ?_ ?_ (stable_events _) ?_ hs hturn).mono ?_
  · intro e s s' he
    exact stable_events (· = s.events) e s s' he rfl
  · intro γ c x s r hx
    exact exec_events hx
  · intro γ c x s r hs hmay hx
    rw [exec_events hx]
    exact hs.observe hmay r.1
  · intro _ s hs
    exact hs.2

/-- Between two requests one after the other the timer sleeps, unless the second belongs to the
re-authentication a `401` calls for, or the first succeeded and the expiry stored when the turn of
the second began was imminent. -/
theorem requests_spaced (parse : String → Option SystemTime) (cfg : ClientConfig)
    (iv : RefreshIntervals) (hiv : iv.Positive) {st : TimerState V} (hst : st.events = [])
    {as : List (LoopAct Unit (ClientState V × SystemTime) (Reply V))}
    {l : Loop (TimedCmd V) (TimerState V)} (hrun : run (step parse cfg iv) ⟨.ret (), st⟩ as = some l)
    {prev : Asked} {a : Asked} {t : List TimerEvent} (ht : .asked a :: t <:+ l.state.events)
    (hprev : lastAsked t = some prev) :
    0 < sleptSince t ∨ Continues prev a.request ∨ prev.failure = none ∧ Rushed iv t := by
  have hspaced : Spaced iv st.events := by
    rw [hst]
    intro a t h
    cases List.suffix_nil.mp h
  have hsettled : Settled st.events := by
    rw [hst]
    exact nofun
  have hl := Loop.run_resting (stable_events (Spaced iv)) (stable_events Settled)
    (fun _ s s' hs hrest harr => ?_) hspaced hsettled hrun
  · exact hl.1 a t ht prev hprev
  · cases harr
    exact ⟨hs, guarded_runRefreshes hiv hs hrest⟩

section Fixed

def epoch : SystemTime := ⟨0, by decide, by decide⟩

/-- The only expiry that can be read is the epoch. -/
def parseEpoch (text : String) : Option SystemTime :=
  if text = "1970-01-01T00:00:00Z" then some epoch else none

def legacyClient : TimerState Unit :=
  ⟨.start (.legacy "a") [] 0, .idle, epoch, []⟩

/-- The actions of a turn up to its request. -/
def turn : List (LoopAct Unit (ClientState Unit × SystemTime) (Reply Unit)) :=
  .start () :: List.replicate 5 (.go .done)

def refreshed : LoopAct Unit (ClientState Unit × SystemTime) (Reply Unit) :=
  .go (.apiSession ⟨"a", some "1970-01-01T00:00:00Z", []⟩)

theorem prodIntervals_positive : prodIntervals.Positive := by
  constructor <;> decide

/-- The timer of a client whose refresh failed once. -/
theorem requests_spaced_retry : ∃ (l : Loop (TimedCmd Unit) (TimerState Unit)) (t : List TimerEvent),
    run (step parseEpoch ⟨.cert, false, false⟩ prodIntervals) ⟨.ret (), legacyClient⟩
      (turn ++ [.go (.failed (.response "timeout")), .go .done] ++ turn ++ [refreshed]) = some l ∧
    l.state.events = .asked ⟨.current, none⟩ :: t ∧
    (0 < sleptSince t ∨ Continues ⟨.current, some (.response "timeout")⟩ .current ∨
      some (Failure.response "timeout") = none ∧ Rushed prodIntervals t) := by
  obtain ⟨l, hrun, hevents⟩ := Option.map_eq_some_iff.mp
    (show (run (step parseEpoch ⟨.cert, false, false⟩ prodIntervals) ⟨.ret (), legacyClient⟩
      (turn ++ [.go (.failed (.response "timeout")), .go .done] ++ turn ++ [refreshed])).map
        (fun l => l.state.events) = some
          [.asked ⟨.current, none⟩, .slept (fromSecs 30), .clock epoch, .expiry none,
            .slept (fromSecs 5), .asked ⟨.current, some (.response "timeout")⟩,
            .slept (fromSecs 30), .clock epoch, .expiry none] by decide +kernel)
  refine ⟨l, _, hrun, hevents, ?_⟩
  have ht : (l.state.events : List TimerEvent) <:+ l.state.events := List.suffix_refl _
  nth_rewrite 1 [hevents] at ht
  exact requests_spaced parseEpoch ⟨.cert, false, false⟩ prodIntervals prodIntervals_positive rfl hrun
    ht rfl

/-- An expiry in the past is refreshed without a pause, and a `401` is followed by an authentication
without one. -/
theorem requests_not_spaced : prodIntervals.Positive ∧
    (∃ (l : Loop (TimedCmd Unit) (TimerState Unit)) (t : List TimerEvent),
      run (step parseEpoch ⟨.cert, false, false⟩ prodIntervals) ⟨.ret (), legacyClient⟩
        (turn ++ [refreshed] ++ List.replicate 5 (.go .done) ++ turn ++ [refreshed]) = some l ∧
      l.state.events = .asked ⟨.current, none⟩ :: t ∧ lastAsked t = some ⟨.current, none⟩ ∧
      sleptSince t = 0) ∧
    ∃ (l : Loop (TimedCmd Unit) (TimerState Unit)) (t : List TimerEvent) (f : Failure),
      run (step parseEpoch ⟨.cert, false, false⟩ prodIntervals) ⟨.ret (), legacyClient⟩
        (turn ++ [.go (.failed (.http 401 "UNAUTHORIZED" "")), .go .done, .go .done,
          .go (.failed (.response "timeout"))]) = some l ∧
      l.state.events = .asked ⟨.authenticate, some (.response "timeout")⟩ :: t ∧
      lastAsked t = some ⟨.current, some f⟩ ∧ sleptSince t = 0 := by
  refine ⟨prodIntervals_positive, ?_, ?_⟩
  · obtain ⟨l, hrun, hevents⟩ := Option.map_eq_some_iff.mp
      (show (run (step parseEpoch ⟨.cert, false, false⟩ prodIntervals) ⟨.ret (), legacyClient⟩
        (turn ++ [refreshed] ++ List.replicate 5 (.go .done) ++ turn ++ [refreshed])).map
          (fun l => l.state.events) = some
            [.asked ⟨.current, none⟩, .slept 0, .clock epoch, .expiry (some epoch),
              .asked ⟨.current, none⟩, .slept (fromSecs 30), .clock epoch, .expiry none]
        by decide +kernel)
    exact ⟨l, _, hrun, hevents, rfl, rfl⟩
  · obtain ⟨l, hrun, hevents⟩ := Option.map_eq_some_iff.mp
      (show (run (step parseEpoch ⟨.cert, false, false⟩ prodIntervals) ⟨.ret (), legacyClient⟩
        (turn ++ [.go (.failed (.http 401 "UNAUTHORIZED" "")), .go .done, .go .done,
          .go (.failed (.response "timeout"))])).map (fun l => l.state.events) = some
            [.asked ⟨.authenticate, some (.response "timeout")⟩,
              .asked ⟨.current, some (.http 401 "UNAUTHORIZED" "")⟩, .slept (fromSecs 30),
              .clock epoch, .expiry none]
        by decide +kernel)
    exact ⟨l, _, _, hrun, hevents, rfl, rfl⟩

end Fixed

end TimerState

end Noa.Edge.Client
