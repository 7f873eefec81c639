import Noa.Edge.Client.SessionCert

namespace Noa.Edge.Client
open Noa.Framework
open Noa.Framework.Program (lift)

variable {V : Type}

/-- The locks a task can wait for, in the order they may be taken in. -/
inductive ClientLock where
  | reauth
  | holder
  deriving DecidableEq

def ClientLock.rank : ClientLock → Nat
  | .reauth => 0
  | .holder => 1

instance : LinearOrder ClientLock :=
  LinearOrder.lift' ClientLock.rank (by rintro ⟨⟩ ⟨⟩ h <;> first | rfl | cases h)

instance : Fintype ClientLock := ⟨{.reauth, .holder}, by rintro ⟨⟩ <;> decide⟩

def lockUse (V γ : Type) : CertCmd V γ → LockUse ClientLock
  | .inl (.lockReauth _) => .take .reauth
  | .inl (.unlockReauth _) => .give .reauth
  | .inr .lockHolder => .take .holder
  | .inr .unlockHolder => .give .holder
  | _ => .other

def CertState.taken (s : CertState V) : ClientLock → Bool
  | .reauth => s.client.reauthLocked
  | .holder => s.holderLocked

def CertLog.held (l : CertLog) : ClientLock → Bool
  | .reauth => l.task.guard.isSome
  | .holder => l.holds

section Locks

variable [DecidableEq V] {γ : Type} {x : CertReply V} {l : CertLog} {s : CertState V}
  {r : γ × CertLog × CertState V}

theorem exec_locks {c : CertCmd V γ} (hx : CertCmd.exec c x l s = some r) :
    r.2.2.taken = (lockUse V γ c).after s.taken ∧ r.2.1.held = (lockUse V γ c).after l.held := by
  rw [funext_iff, funext_iff, ← forall_and]
  cases c with
  | inl c =>
    cases x with
    | failed f => cases hx
    | certificate answer => cases hx
    | client x =>
      obtain ⟨q, hq, rfl⟩ := Option.map_eq_some_iff.mp hx
      cases c with
      | lockReauth call =>
        simp only [Cmd.exec] at hq
        split_ifs at hq
        cases hq
        rintro ⟨⟩ <;> exact ⟨rfl, rfl⟩
      | unlockReauth ok =>
        cases hq
        rintro ⟨⟩ <;> exact ⟨rfl, rfl⟩
      | _ =>
        have hf := Cmd.exec_frame hq
        have hguard : q.2.1.guard.isSome = l.task.guard.isSome := by
          obtain h | h := hf.guard (by rintro ⟨⟩) (by rintro ⟨⟩)
          · rw [h]
          · rw [h, TaskLog.contact, Option.isSome_map]
        rintro ⟨⟩
        · exact ⟨hf.locked (by rintro ⟨⟩) (by rintro ⟨⟩), hguard⟩
        · exact ⟨rfl, rfl⟩
  | inr c =>
    cases c with
    | lockHolder =>
      simp only [CertCmd.exec, HolderCmd.exec] at hx
      split_ifs at hx
      cases hx
      rintro ⟨⟩ <;> exact ⟨rfl, rfl⟩
    | postCertificate token csrPem =>
      simp only [CertCmd.exec, HolderCmd.exec] at hx
      split at hx
      · cases hx
        rintro ⟨⟩ <;> exact ⟨rfl, rfl⟩
      · obtain ⟨n, -, rfl⟩ := Option.map_eq_some_iff.mp hx
        rintro ⟨⟩ <;> exact ⟨rfl, rfl⟩
      · cases hx
    | _ =>
      cases hx
      rintro ⟨⟩ <;> exact ⟨rfl, rfl⟩

theorem client_ready (c : Cmd V γ) (l : TaskLog) (s : ClientState V)
    (h : c.part = .lock → s.reauthLocked = false) : ∃ x r, c.exec x l s = some r := by
  cases c with
  | lockReauth call => exact ⟨.done, _, if_neg (by rw [h rfl]; exact Bool.false_ne_true)⟩
  | postSession | getServiceEdgeRouters | postAuthenticate | postMfa | getCurrentApiSession
    | postTokenExchange | getServiceUpdates | getServices | getSessionDetail =>
    exact ⟨.failed (.response ""), _, rfl⟩
  | totpCode => exact ⟨.code (.error ""), _, rfl⟩
  | snapshotDialSessions => exact ⟨.entries s.dialSessions.toList, _, if_pos (List.Perm.refl _)⟩
  | processServices fetched =>
    refine ⟨.order (s.services.toList.map Prod.snd), Option.isSome_iff_exists.mp ?_⟩
    simp only [Cmd.exec]
    rw [if_pos (List.Perm.refl _)]
    rfl
  | _ => exact ⟨.done, _, rfl⟩

theorem client_takesLocks : TakesLocks (certEffects V) (lockUse V) CertState.taken CertLog.held where
  exec := fun _ _ _ _ _ hx => exec_locks hx
  waits := by
    intro γ c x l s r hx k hk
    cases c with
    | inl c =>
      cases c with
      | lockReauth call =>
        cases hk
        cases x with
        | client x =>
          obtain ⟨q, hq, -⟩ := Option.map_eq_some_iff.mp hx
          simp only [Cmd.exec] at hq
          split_ifs at hq with hlocked
          exact eq_false_of_ne_true hlocked
        | _ => cases hx
      | _ => cases hk
    | inr c =>
      cases c with
      | lockHolder =>
        cases hk
        simp only [certEffects, CertCmd.exec, HolderCmd.exec] at hx
        split_ifs at hx with hlocked
        exact eq_false_of_ne_true hlocked
      | _ => cases hk
  ready := by
    intro γ c l s hfree
    cases c with
    | inl c =>
      obtain ⟨x, r, hx⟩ := client_ready c l.task s.client (by
        intro hpart
        cases c with
        | lockReauth call => exact hfree .reauth rfl
        | _ => cases hpart)
      exact ⟨.client x, _, Option.map_eq_some_iff.mpr ⟨r, hx, rfl⟩⟩
    | inr c =>
      cases c with
      | lockHolder =>
        exact ⟨.failed (.response ""), _,
          if_neg (by rw [show s.holderLocked = false from hfree .holder rfl]; exact Bool.false_ne_true)⟩
      | _ => exact ⟨.failed (.response ""), _, rfl⟩
  idle := by rintro ⟨⟩ <;> rfl
  release := by
    rintro l s ⟨⟩
    · change (s.client.release l.task).reauthLocked = (s.client.reauthLocked && !l.task.guard.isSome)
      unfold ClientState.release
      cases l.task.guard.isSome
      · exact (Bool.and_true _).symm
      · exact (Bool.and_false _).symm
    · rfl
  env := by
    rintro (change | now) s s' he
    · obtain ⟨client, hclient, rfl⟩ := Option.map_eq_some_iff.mp he
      obtain ⟨-, rfl⟩ := changeServices_spec hclient
      funext k
      cases k <;> rfl
    · cases he
      funext k
      cases k <;> rfl

end Locks

section Order

variable {γ : Type}

/-- The locks of a task that follows the protocol of the token. -/
def heldOf (st : RotationUse) : ClientLock → Bool
  | .reauth => st.held.isSome
  | .holder => false

theorem heldOf_congr {st st' : RotationUse} (h : st'.held.isSome = st.held.isSome) :
    heldOf st = heldOf st' := by
  funext k
  cases k with
  | reauth => exact h.symm
  | holder => rfl

theorem gain_isSome (st : RotationUse) (token : String) (complete : Bool) :
    (st.gain token complete).held.isSome = st.held.isSome := Option.isSome_map

theorem check_isSome (st : RotationUse) (token : Option AuthToken) :
    (st.check token).held.isSome = st.held.isSome := by
  unfold RotationUse.check
  split
  · next h => rw [h]; rfl
  · rfl

/-- A command of the client keeps the order of the locks: the certificate's is taken last. -/
theorem ensures_withHolder (c : Cmd V γ) (st : RotationUse) (hmay : (rotation V).may st c) :
    (withHolder c).Ensures (lockOrder (lockUse V))
      (fun b held => held = heldOf ((rotation V).next st c b)) (heldOf st) := by
  have hkeep (hc : lockUse V γ (.inl c) = .other)
      (hnext : ∀ b, ((rotation V).next st c b).held.isSome = st.held.isSome) :
      (lift (.inl c) : CertProc V γ).Ensures (lockOrder (lockUse V))
        (fun b held => held = heldOf ((rotation V).next st c b)) (heldOf st) := by
    refine ⟨lockOrder_may_other hc, fun b => ?_⟩
    rw [Program.ensures_ret, lockOrder_next, hc]
    exact heldOf_congr (hnext b)
  cases c with
  | lockReauth call =>
    refine ⟨?_, fun b => ?_⟩
    · rintro ⟨⟩ hk
      · rw [heldOf, hmay.1] at hk
        cases hk
      · cases hk
    · funext k
      cases k <;> rfl
  | unlockReauth ok =>
    obtain ⟨call, stage, hheld, -⟩ := hmay
    refine ⟨?_, fun b => ?_⟩
    · change st.held.isSome = true
      rw [hheld]
      rfl
    · funext k
      cases k <;> rfl
  | invalidateSessionCert =>
    refine ⟨?_, fun _ => ⟨trivial, fun _ => ⟨rfl, fun _ => ?_⟩⟩⟩
    · rintro ⟨⟩ hk
      · decide
      · cases hk
    · funext k
      cases k <;> rfl
  | readToken => exact hkeep rfl fun b => check_isSome st b
  | storeToken => exact hkeep rfl fun _ => Option.isSome_map
  | postAuthenticate =>
    refine hkeep rfl fun b => ?_
    cases b with
    | ok session => exact gain_isSome ..
    | error f => rfl
  | postTokenExchange =>
    refine hkeep rfl fun b => ?_
    cases b with
    | ok tokens => exact gain_isSome ..
    | error f => rfl
  | getCurrentApiSession =>
    refine hkeep rfl fun b => ?_
    cases b with
    | ok session =>
      simp only [rotation]
      split_ifs
      · exact gain_isSome ..
      · rfl
    | error f => rfl
  | _ => exact hkeep rfl fun _ => rfl

end Order

section Retry

variable {Cmd' : Type → Type} {α ε σ : Type} {D : Discipline Cmd' σ} {I : σ → Prop}
  {readToken : Program Cmd' (Option AuthToken)}
  {renew : AuthToken → Program Cmd' (Except RestError Unit)} {unauthorized : ε → Bool}
  {rest : RestError → ε} {op : AuthToken → Program Cmd' (Except ε α)}

/-- What each part of a retried operation returns to, the whole does. -/
theorem ensures_withReauthRetryOver (hread : ∀ st, I st → readToken.Ensures D (fun _ => I) st)
    (hrenew : ∀ token st, I st → (renew token).Ensures D (fun _ => I) st)
    (hop : ∀ token st, I st → (op token).Ensures D (fun _ => I) st) (st : σ) (hst : I st) :
    (withReauthRetryOver readToken renew unauthorized rest op).Ensures D (fun _ => I) st := by
  refine (hread st hst).bind fun token st hst => ?_
  cases token with
  | none => exact hst
  | some token =>
    refine (hop token st hst).bind fun r st hst => ?_
    cases r with
    | ok value => exact hst
    | error first =>
      dsimp only
      split_ifs
      · refine (hrenew token st hst).bind fun r st hst => ?_
        cases r with
        | error e => exact hst
        | ok u =>
          refine (hread st hst).bind fun fresh st hst => ?_
          cases fresh with
          | none => exact hst
          | some fresh => exact hop fresh st hst
      · exact hst

end Retry

section Programs

variable {α : Type} (C : CertLibs) (identity : Except ConfigError (TlsConfig × String))
  (cfg : ClientConfig)

theorem issues_ensureFresh (token : AuthToken) :
    (ensureFresh (V := V) C token).Issues fun γ c => lockUse V γ c = .other := by
  have hparts : Program.Issues (fun γ c => lockUse V γ c = .other)
      (.call (.inr .readHolder) fun st => pure (st.tlsParts C) :
        CertProc V (Except ConfigError ChannelTlsParts)) := ⟨rfl, fun _ => trivial⟩
  simp only [ensureFresh, Program.lift_bind]
  refine .call rfl fun key => ?_
  cases key with
  | none => exact hparts
  | some keyPem =>
    refine Program.Issues.bind ?_ fun r => ?_
    · unfold remintApiSessionCert
      split
      · trivial
      · refine ⟨rfl, fun r => ?_⟩
        cases r <;> trivial
    · cases r with
      | error e => trivial
      | ok fresh =>
        dsimp only
        split
        · trivial
        · exact ⟨rfl, fun _ => hparts⟩

theorem ordered_ensureFreshLocked (token : AuthToken) (held : ClientLock → Bool)
    (hheld : held = fun _ => false) :
    (ensureFreshLocked (V := V) C token).Ensures (lockOrder (lockUse V))
      (fun _ held => held = fun _ => false) held := by
  subst hheld
  refine ⟨by rintro k ⟨⟩, fun _ => ?_⟩
  refine ((issues_ensureFresh C token).ensures (fun c hc held => ?_) _).bind ?_
  · exact ⟨lockOrder_may_other hc, fun b => by rw [lockOrder_next, hc]; rfl⟩
  · rintro r _ rfl
    refine ⟨rfl, fun _ => ?_⟩
    funext k
    cases k <;> rfl

theorem heldOf_free {st : RotationUse} (hst : st.held = none) : heldOf st = fun _ => false := by
  funext k
  cases k with
  | reauth => rw [heldOf, hst]; rfl
  | holder => rfl

/-- A program of the client that is not in the lock when it starts. -/
theorem ordered_handle {p : Proc V α} {Q : α → RotationUse → Prop}
    {Q' : α → (ClientLock → Bool) → Prop}
    (hp : p.Ensures (rotation V) Q .idle)
    (hQ : ∀ a st, Q a st → Q' a (heldOf st)) :
    (p.handle withHolder).Ensures (lockOrder (lockUse V)) Q' fun _ => false := by
  have h := hp.handle ensures_withHolder hQ
  rwa [heldOf_free rfl] at h

theorem ordered_channelClientConfig :
    (channelClientConfig (V := V) C identity cfg).Ensures (lockOrder (lockUse V))
      (fun _ held => held = fun _ => false) fun _ => false := by
  unfold channelClientConfig
  split_ifs
  · refine (ensures_withReauthRetryOver (I := fun held => held = fun _ => false) ?_ ?_ ?_ _
      rfl).bind fun r held hheld => ?_
    · rintro _ rfl
      exact ⟨trivial, fun _ => rfl⟩
    · rintro token _ rfl
      exact ordered_handle (RotationUse.ensures_renew cfg token rfl) fun _ st hst => heldOf_free hst
    · exact ordered_ensureFreshLocked C
    · cases r <;> exact hheld
  · rfl

/-- Every task takes the lock of the re-authentication before the certificate's, if both. -/
theorem ordered_prog (op : CertOp) :
    (op.prog (V := V) C identity cfg).Obeys (lockOrder (lockUse V)) fun _ => false := by
  cases op with
  | client op =>
    refine ordered_handle (RotationUse.unlocked_prog cfg op _ rfl) fun _ st hst k => ?_
    rw [heldOf_free hst]
  | channelClientConfig =>
    refine (ordered_channelClientConfig C identity cfg).bind ?_
    rintro _ _ rfl k
    rfl

end Programs

section Progress

variable [DecidableEq V] {C : CertLibs} {identity : Except ConfigError (TlsConfig × String)}
  {cfg : ClientConfig} {token : AuthToken} {services : List (Service V)} {lastChangeAt : Int}
  {holder : SessionCertState} {now : SystemTime} {as : List (CertAct V)}
  {s : CertTasks V}

theorem exclusive_tracks (C : CertLibs) (identity : Except ConfigError (TlsConfig × String))
    (cfg : ClientConfig) : Crew.Tracks (certEffects V) (CertOp.prog C identity cfg)
      (fun _ _ _ => True) (lockOrder (lockUse V)) (fun _ => false)
      (Exclusive CertState.taken CertLog.held) :=
  Exclusive.tracks client_takesLocks (ordered_prog C identity cfg)

omit [DecidableEq V] in
theorem exclusive_start : Exclusive CertState.taken CertLog.held (fun _ => (.idle, fun _ => false))
    (CertTasks.start token services lastChangeAt holder now).state :=
  Exclusive.new (by rintro ⟨⟩ <;> rfl) (by rintro ⟨⟩ <;> rfl)

/-- Whatever the tasks of a client have got to, waiting for the two locks, for the controller or for
nothing, and wherever tasks have been dropped: if one has not returned, one can go on, and answering
their requests brings all of them to return. None waits for the re-authentication while it holds the
certificate. -/
theorem tasks_never_deadlock (hrun : run (certStep C identity cfg)
      (.start token services lastChangeAt holder now) as = some s) :
    ((∃ w ∈ s.workers, w.returned = false) →
      ∃ i x s', certStep C identity cfg s (.go i x) = some s') ∧
    (∃ bs t, (∀ b ∈ bs, ∃ i x, b = .go i x) ∧ run (certStep C identity cfg) s bs = some t ∧
      ∀ w ∈ t.workers, w.returned = true) ∧
    ∀ w ∈ s.workers, ∀ call k, w.prog = .call (.inl (.lockReauth call)) k → w.own.holds = false := by
  have htracked := (exclusive_tracks C identity cfg).run hrun (Crew.runAll_meets _ _)
    ⟨_, Crew.tracked_new exclusive_start⟩
  refine ⟨?_, Crew.Tracked.all_return client_takesLocks (ordered_prog C identity cfg) htracked, ?_⟩
  · rintro ⟨w, hw, hret⟩
    obtain ⟨g, hg⟩ := htracked
    exact hg.some_goes client_takesLocks hw hret
  · intro w hw call k hprog
    obtain ⟨g, hg⟩ := htracked
    obtain ⟨i, hi⟩ := List.mem_iff_getElem?.mp hw
    have hobeys := hg.obeys i w hi
    rw [hprog, hg.inv.own i, hg.own i w hi] at hobeys
    -- no lock comes before that of the re-authentication
    by_contra hholds
    exact absurd ((lockOrder_may_take rfl).mp hobeys.1 .holder (eq_true_of_ne_false hholds)) (by decide)

/-- Certificates whose text is their name, good for an hour after the epoch. -/
def plainCertLibs : CertLibs where
  csrFromKey := fun key => .ok (key, "csr")
  notAfter := fun _ => .ok (some ⟨3600 * 10 ^ 9, by decide, by decide⟩)
  certDers := fun _ => .ok [[1]]
  keyDer := fun _ => .ok (some [2])
  commonName := fun _ => some "apiSession"
  addRoot := fun _ => .ok ()
  clientAuth := fun _ _ => .ok ()

/-- A client of a user with a password, whose certificate has expired. -/
def expiredStart : CertTasks Unit :=
  .start (.legacy "a") [] 0 ⟨"leaf", "key", [], .unixEpoch⟩ .unixEpoch

/-- A task renews the certificate while a re-authentication has come to invalidate it and another one
waits for the first. -/
def crossingActs : List (CertAct Unit) :=
  let ok : CertReply Unit := .client .done
  [.spawn .channelClientConfig, .go 0 ok, .go 0 ok, .go 0 ok,
    .spawn (.client (.reauthenticate "a")), .go 1 ok, .go 1 ok,
    .go 1 (.client (.apiSession ⟨"b", none, []⟩)), .go 1 ok, .go 1 ok, .go 1 ok,
    .spawn (.client (.reauthenticate "a"))]

def crossingStep : CertTasks Unit → CertAct Unit → Option (CertTasks Unit) :=
  certStep plainCertLibs (.error (.tlsSetup "")) ⟨.updb "user" "secret", false, true⟩

theorem tasks_never_deadlock_crossing :
    ∃ s, run crossingStep expiredStart crossingActs = some s ∧
      (crossingStep s (.go 1 (.client .done))).isSome = false ∧
      (crossingStep s (.go 2 (.client .done))).isSome = false ∧
      (∃ i x s', crossingStep s (.go i x) = some s') ∧
      (∃ bs t, (∀ b ∈ bs, ∃ i x, b = .go i x) ∧ run crossingStep s bs = some t ∧
        ∀ w ∈ t.workers, w.returned = true) ∧
      ∀ w ∈ s.workers, ∀ call k, w.prog = .call (.inl (.lockReauth call)) k →
        w.own.holds = false := by
  obtain ⟨s, hs, h⟩ := Option.map_eq_some_iff.mp (show
    (run crossingStep expiredStart crossingActs).map (fun s =>
      ((crossingStep s (.go 1 (.client .done))).isSome,
        (crossingStep s (.go 2 (.client .done))).isSome, s.workers.any (!·.returned))) =
      some (false, false, true) by decide +kernel)
  simp only [Prod.mk.injEq, List.any_eq_true, Bool.not_eq_true'] at h
  obtain ⟨hgoes, hreturn, horder⟩ := tasks_never_deadlock hs
  exact ⟨s, hs, h.1, h.2.1, hgoes h.2.2, hreturn, horder⟩

end Progress

end Noa.Edge.Client
