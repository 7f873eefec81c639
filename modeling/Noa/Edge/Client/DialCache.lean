import Noa.Edge.Client.Effects
import Noa.Edge.Client.Footprint
import Noa.Framework.Tickets

namespace Noa.Edge.Client
open Noa.Framework
open Noa.Framework.Program (lift)

/-- Where a task is with its sessions: the token it read last, the session it created with it and
has not cached, the sessions proven dead, and the sessions its probes asked for and got. -/
structure SessionUse where
  cur : Option AuthToken
  pending : Option String
  dead : List String
  answered : List (String × String)

def SessionUse.idle : SessionUse := ⟨none, none, [], []⟩

/-- A session is created with the token read last and cached once; a refresh writes the session it
probed; only a proven death purges. -/
def sessionUse (V : Type) : Discipline (Cmd V) SessionUse where
  may := fun st c =>
    match c with
    | .postSession token _ _ => st.cur = some token
    | .cacheDialSession _ session => st.pending = some session.id
    | .recacheRefreshed _ snapshotSessionId refreshed =>
      refreshed.id = snapshotSessionId ∨ (snapshotSessionId, refreshed.id) ∈ st.answered
    | .evictDead _ snapshotSessionId => snapshotSessionId ∈ st.dead
    | _ => True
  next := fun st c =>
    match c with
    | .readToken => fun token => { st with cur := token, pending := none }
    | .postSession _ _ _ => fun
      | .ok detail => { st with pending := some detail.id }
      | .error _ => st
    | .cacheDialSession _ _ => fun _ => { st with pending := none }
    | .getSessionDetail token id => fun
      | .ok detail => { st with answered := (id, detail.id) :: st.answered }
      | .error f => if Cmd.provesNotFound token f then { st with dead := id :: st.dead } else st
    | _ => fun _ => st

variable {V : Type}

namespace SessionUse

variable {α : Type} (cfg : ClientConfig)

theorem obeys_of_within {p : Proc V α} (hp : Proc.Within (· ≠ .session) p) (st : SessionUse) :
    p.Obeys (sessionUse V) st := by
  induction p generalizing st with
  | ret a => trivial
  | call c k ih =>
    refine ⟨?_, fun b => ih b (hp.2 b) _⟩
    have hc := hp.1
    cases c <;> trivial

theorem obeys_discard {p : Proc V α} {st : SessionUse} (hp : p.Obeys (sessionUse V) st) :
    (p >>= fun _ => pure ()).Obeys (sessionUse V) st :=
  hp.bind fun _ _ => trivial

theorem ensures_withReauthRetry {Q : Except RestError α → SessionUse → Prop}
    {op : AuthToken → Proc V (Except RestError α)}
    (hop : ∀ token st, st.cur = some token → (op token).Ensures (sessionUse V) Q st)
    (herr : ∀ e st, Q (.error e) st) (st : SessionUse) :
    (withReauthRetry cfg op).Ensures (sessionUse V) Q st := by
  simp only [withReauthRetry, Program.lift_bind]
  refine .call trivial fun token => ?_
  split
  · exact herr _ _
  · next token =>
    apply (hop token _ rfl).bind
    intro r st' hr
    split
    · exact hr
    · split
      · have hrenew := obeys_of_within (V := V) (within_renew (by decide) (by decide) cfg token) st'
        apply Program.Ensures.bind hrenew
        intro renewed st'' _
        split
        · exact herr _ _
        · refine .call trivial fun fresh => ?_
          split
          · exact herr _ _
          · next fresh => exact hop fresh _ rfl
      · exact hr

/-- A created session is pending. -/
def Created (r : Except RestError SessionDetail) (st : SessionUse) : Prop :=
  ∀ session, r = .ok session → st.pending = some session.id

theorem created_error (e : RestError) (st : SessionUse) : Created (.error e) st := nofun

theorem ensures_createSession (serviceId : String) (type : SessionType) (st : SessionUse) :
    (createSession (V := V) cfg serviceId type).Ensures (sessionUse V) Created st := by
  refine ensures_withReauthRetry cfg ?_ created_error st
  intro token st hcur
  refine ⟨hcur, fun r => ?_⟩
  cases r with
  | error f => exact created_error _ _
  | ok detail =>
    rintro session ⟨⟩
    rfl

theorem ensures_createSessionWithPolicy (serviceId : String) (type : SessionType) (retries : Nat)
    (st : SessionUse) :
    (createSessionWithPolicy (V := V) cfg serviceId type retries).Ensures (sessionUse V) Created
      st := by
  induction retries generalizing st with
  | zero => exact ensures_createSession cfg serviceId type st
  | succ retries ih =>
    apply (ensures_createSession cfg serviceId type st).bind
    intro r st' hr
    split
    · exact hr
    · split
      · exact ⟨trivial, fun _ => ih _⟩
      · exact created_error _ _

theorem obeys_getOrCreateDialSession (serviceId : String) (retries : Nat) (st : SessionUse) :
    (getOrCreateDialSession (V := V) cfg serviceId retries).Obeys (sessionUse V) st := by
  simp only [getOrCreateDialSession, Program.lift_bind]
  refine .call trivial fun cached => ?_
  split
  · trivial
  · apply (ensures_createSessionWithPolicy cfg serviceId .dial retries _).bind
    intro r st' hr
    cases r with
    | error e => trivial
    | ok session => exact ⟨hr session rfl, fun _ => trivial⟩

theorem ensures_refreshSessionProbe (token : AuthToken) (session : SessionDetail)
    (st : SessionUse) :
    (refreshSessionProbe (V := V) token session).Ensures (sessionUse V)
      (fun r st' => ∀ refreshed, r = .ok refreshed →
        refreshed.id = session.id ∨ (session.id, refreshed.id) ∈ st'.answered) st := by
  unfold refreshSessionProbe
  split
  · refine ⟨trivial, fun r => ?_⟩
    cases r with
    | error f => exact nofun
    | ok routers =>
      rintro refreshed ⟨⟩
      exact .inl rfl
  · refine ⟨trivial, fun r => ?_⟩
    cases r with
    | error f => exact nofun
    | ok detail =>
      rintro refreshed ⟨⟩
      exact .inr List.mem_cons_self

theorem obeys_refreshSession (session : SessionDetail) (st : SessionUse) :
    (refreshSession (V := V) session).Obeys (sessionUse V) st := by
  simp only [refreshSession, Program.lift_bind]
  refine .call trivial fun token => ?_
  split
  · trivial
  · next token =>
    apply (ensures_refreshSessionProbe token session _).bind
    intro r st' hr
    cases r with
    | error e => trivial
    | ok refreshed => exact ⟨hr refreshed rfl, fun _ => trivial⟩

theorem isProvenDead_sessionError (token : AuthToken) (f : Failure) :
    isProvenDead token (sessionError f) = Cmd.provesNotFound token f := by
  cases f with
  | response detail => unfold isProvenDead; cases token <;> rfl
  | http status code message =>
    by_cases h : status = 404
    · subst h
      cases token <;> rfl
    · cases token <;> simp [isProvenDead, sessionError, Cmd.provesNotFound, AuthToken.sessionType, h]

theorem ensures_refreshSessionProbeDurable (token : AuthToken) (session : SessionDetail)
    (st : SessionUse) :
    (refreshSessionProbeDurable (V := V) token session).Ensures (sessionUse V)
      (fun r st' => (∀ refreshed, r = .ok refreshed → refreshed.id = session.id) ∧
        (∀ e, r = .error e → isProvenDead token e = true → session.id ∈ st'.dead) ∧
        st.dead ⊆ st'.dead) st := by
  unfold refreshSessionProbeDurable
  split
  · refine ⟨trivial, fun r => ?_⟩
    cases r with
    | error f =>
      refine ⟨nofun, ?_, ?_⟩
      · rintro e ⟨⟩ hdead
        rw [isProvenDead_sessionError] at hdead
        simp [sessionUse, hdead]
      · simp only [sessionUse]
        split <;> simp
    | ok detail => exact ⟨fun _ h => by cases h; rfl, nofun, fun _ h => h⟩
  · next htype =>
    refine ⟨trivial, fun r => ?_⟩
    cases r with
    | error f =>
      refine ⟨nofun, ?_, fun _ h => h⟩
      intro e _ hdead
      simp [isProvenDead, htype] at hdead
    | ok routers => exact ⟨fun _ h => by cases h; rfl, nofun, fun _ h => h⟩

theorem ensures_probeSessions (token : AuthToken) (snapshot : List (String × SessionDetail))
    (st : SessionUse) :
    (probeSessions (V := V) token snapshot).Ensures (sessionUse V)
      (fun purge st' => (∀ p ∈ purge, p.2 ∈ st'.dead) ∧ st.dead ⊆ st'.dead) st := by
  induction snapshot generalizing st with
  | nil => exact ⟨by simp, fun _ h => h⟩
  | cons entry rest ih =>
    obtain ⟨key, session⟩ := entry
    apply (ensures_refreshSessionProbeDurable token session st).bind
    rintro r st' ⟨hid, hdead, hsub⟩
    cases r with
    | ok refreshed =>
      refine ⟨.inl (hid refreshed rfl), fun _ => ?_⟩
      apply (ih st').mono
      rintro purge st'' ⟨hpurge, hsub'⟩
      exact ⟨hpurge, List.Subset.trans hsub hsub'⟩
    | error e =>
      apply (ih st').bind
      rintro purge st'' ⟨hpurge, hsub'⟩
      refine ⟨?_, List.Subset.trans hsub hsub'⟩
      split
      · next hproven =>
        intro p hp
        obtain rfl | hp := List.mem_cons.mp hp
        · exact hsub' (hdead e rfl hproven)
        · exact hpurge p hp
      · exact hpurge

theorem obeys_purgeSessions {toPurge : List (String × String)} {st : SessionUse}
    (h : ∀ p ∈ toPurge, p.2 ∈ st.dead) : (purgeSessions (V := V) toPurge).Obeys (sessionUse V) st := by
  induction toPurge with
  | nil => trivial
  | cons p rest ih =>
    refine ⟨h p List.mem_cons_self, fun _ => ?_⟩
    exact ih fun q hq => h q (List.mem_cons_of_mem p hq)

theorem obeys_sessionRefreshTick (st : SessionUse) :
    (sessionRefreshTick (V := V)).Obeys (sessionUse V) st := by
  simp only [sessionRefreshTick, Program.lift_bind]
  refine .call trivial fun token => ?_
  split
  · trivial
  · next token =>
    refine .call trivial fun snapshot => ?_
    apply (ensures_probeSessions token snapshot _).bind
    rintro purge st' ⟨hpurge, -⟩
    exact obeys_purgeSessions hpurge

theorem obeys_prog (op : ClientOp) (st : SessionUse) :
    (op.prog (V := V) cfg).Obeys (sessionUse V) st := by
  have htoken : Role.token ≠ .session := by decide
  have hrotation : Role.rotation ≠ .session := by decide
  have hservice : Role.service ≠ .session := by decide
  have hwait : Role.wait ≠ .session := by decide
  cases op with
  | getOrCreateDialSession serviceId retries =>
    exact obeys_discard (obeys_getOrCreateDialSession cfg serviceId retries st)
  | refreshSession session => exact obeys_discard (obeys_refreshSession session st)
  | evictDialSession serviceId => exact ⟨trivial, fun _ => trivial⟩
  | sessionRefreshTick => exact obeys_sessionRefreshTick st
  | pollServices pages configTypes =>
    exact obeys_discard (obeys_of_within
      (within_pollServices htoken hrotation cfg hservice pages configTypes) st)
  | pollServicesIfChanged pages configTypes =>
    exact obeys_discard (obeys_of_within
      (within_pollServicesIfChanged htoken hrotation cfg hservice pages configTypes) st)
  | serviceRefreshTick pages configTypes =>
    exact obeys_discard (obeys_of_within
      (within_serviceRefreshTick htoken hservice pages configTypes) st)
  | reauthenticate tokenUsed =>
    exact obeys_discard (obeys_of_within
      (within_doReauthenticate htoken hrotation cfg tokenUsed) st)
  | oidcSessionRefresh tokenUsed =>
    exact obeys_discard (obeys_of_within
      (within_oidcSessionRefresh htoken hrotation tokenUsed) st)
  | runRefreshes =>
    exact obeys_of_within (within_runRefreshes htoken hrotation hwait cfg) st

end SessionUse

section Cached

/-- The session is in the cache, under this key. -/
def CachedAt (m : DialSessions) (key id : String) : Prop :=
  ∃ d : SessionDetail, m[key]? = some d ∧ d.id = id

/-- The session is in the cache, under some key. -/
def Cached (m : DialSessions) (id : String) : Prop :=
  ∃ (key : String) (d : SessionDetail), m[key]? = some d ∧ d.id = id

variable {m : DialSessions} {key key' id : String} {d : SessionDetail}

theorem cachedAt_insert (h : CachedAt (m.insert key d) key' id) :
    key' = key ∧ d.id = id ∨ CachedAt m key' id := by
  obtain ⟨e, hk, rfl⟩ := h
  rw [lookup_insert] at hk
  split_ifs at hk with hkey
  · exact .inl ⟨hkey.symm, congrArg (·.id) (Option.some.inj hk)⟩
  · exact .inr ⟨e, hk, rfl⟩

theorem cached_insert (h : Cached (m.insert key d) id) : d.id = id ∨ Cached m id := by
  obtain ⟨k, h⟩ := h
  obtain ⟨-, hid⟩ | h := cachedAt_insert h
  · exact .inl hid
  · exact .inr ⟨k, h⟩

theorem cachedAt_erase (h : CachedAt (m.erase key) key' id) : key ≠ key' ∧ CachedAt m key' id := by
  obtain ⟨e, hk, rfl⟩ := h
  rw [lookup_erase] at hk
  split_ifs at hk with hkey
  exact ⟨hkey, e, hk, rfl⟩

theorem cachedAt_foldl_erase {keys : List String}
    (h : CachedAt (keys.foldl (fun m k => m.erase k) m) key' id) : CachedAt m key' id := by
  induction keys generalizing m with
  | nil => exact h
  | cons k keys ih => exact (cachedAt_erase (ih h)).2

theorem not_cached_empty : ¬ Cached ∅ id := by
  rintro ⟨k, e, hk, -⟩
  simp at hk

theorem recache_spec (m : DialSessions) (key snapshotSessionId : String) (d : SessionDetail)
    (key' : String) :
    (recacheRefreshedDialSession m key snapshotSessionId d).2[key']? = m[key']? ∨
      key' = key ∧ ∃ e, m[key]? = some e ∧ e.id = snapshotSessionId ∧
        (recacheRefreshedDialSession m key snapshotSessionId d).2[key]? = some d := by
  unfold recacheRefreshedDialSession
  split
  · exact .inl rfl
  · next e he =>
    split_ifs with hid
    · exact .inl rfl
    · rw [lookup_insert, lookup_insert, if_pos rfl]
      split_ifs with hk
      · exact .inr ⟨hk.symm, e, he, not_not.mp hid, rfl⟩
      · exact .inl rfl

theorem cachedAt_recache {snapshotSessionId : String} (hd : d.id = snapshotSessionId)
    (h : CachedAt (recacheRefreshedDialSession m key snapshotSessionId d).2 key' id) :
    CachedAt m key' id := by
  obtain ⟨e, hk, rfl⟩ := h
  obtain heq | ⟨rfl, e', he', hid, hwrote⟩ := recache_spec m key snapshotSessionId d key'
  · exact ⟨e, heq ▸ hk, rfl⟩
  · rw [hwrote] at hk
    refine ⟨e', he', ?_⟩
    rw [hid, ← Option.some.inj hk, hd]

theorem evictDead_spec (m : DialSessions) (key snapshotSessionId key' : String) :
    (evictDeadDialSession m key snapshotSessionId).2[key']? = m[key']? ∨
      key' = key ∧ ∃ e, m[key]? = some e ∧ e.id = snapshotSessionId ∧
        (evictDeadDialSession m key snapshotSessionId).2[key]? = none := by
  unfold evictDeadDialSession
  split
  · exact .inl rfl
  · next e he =>
    split_ifs with hid
    · exact .inl rfl
    · rw [lookup_erase, lookup_erase, if_pos rfl]
      split_ifs with hk
      · exact .inr ⟨hk.symm, e, he, not_not.mp hid, rfl⟩
      · exact .inl rfl

theorem cachedAt_evictDead {snapshotSessionId : String}
    (h : CachedAt (evictDeadDialSession m key snapshotSessionId).2 key' id) :
    CachedAt m key' id := by
  obtain ⟨e, hk, rfl⟩ := h
  obtain heq | ⟨rfl, -, -, -, hgone⟩ := evictDead_spec m key snapshotSessionId key'
  · exact ⟨e, heq ▸ hk, rfl⟩
  · rw [hgone] at hk
    cases hk

end Cached

/-- The sessions in the cache and the pending ones are the controller's; no session is pending twice,
or still pending once it is in the cache; a purge and a refresh are backed by a probe. -/
structure Fresh (g : Nat → TaskLog × SessionUse) (s : ClientState V) : Prop where
  tickets : Tickets (fun id => (s.controller.mintedUnder id).isSome) (Cached s.dialSessions)
    fun i => (g i).2.pending
  dead : ∀ i, (g i).2.dead ⊆ (g i).1.notFound
  answered : ∀ i, ∀ p ∈ (g i).2.answered, p.1 = p.2

theorem Fresh.start (token : AuthToken) (services : List (Service V)) (lastChangeAt : Int) :
    Fresh (fun _ => (TaskLog.idle, SessionUse.idle)) (.start token services lastChangeAt) := by
  constructor
  · exact tickets_none fun _ h => absurd h not_cached_empty
  · intro i
    exact List.nil_subset _
  · intro i p hp
    cases hp

/-- A session is a ticket: created, then cached once. -/
abbrev SessionStep (u u' : SessionUse) (s s' : ClientState V) : Prop :=
  TicketStep (fun id => (s.controller.mintedUnder id).isSome)
    (fun id => (s'.controller.mintedUnder id).isSome) (Cached s.dialSessions)
    (Cached s'.dialSessions) u.pending u'.pending

theorem Fresh.step {g : Nat → TaskLog × SessionUse} {s s' : ClientState V} {i : Nat} {l : TaskLog}
    {u : SessionUse} (h : Fresh g s) (hstep : SessionStep (g i).2 u s s')
    (hdead : u.dead ⊆ l.notFound) (hanswered : ∀ p ∈ u.answered, p.1 = p.2) :
    Fresh (Function.update g i (l, u)) s' := by
  constructor
  · exact h.tickets.step (f := fun p : TaskLog × SessionUse => p.2.pending) (x := (l, u)) hstep
  · intro j
    rw [Function.update_apply]
    split_ifs with hij
    · exact hdead
    · exact h.dead j
  · intro j
    rw [Function.update_apply]
    split_ifs with hij
    · exact hanswered
    · exact h.answered j

@[simp] theorem release_dialSessions (l : TaskLog) (s : ClientState V) :
    (s.release l).dialSessions = s.dialSessions := by
  unfold ClientState.release
  split <;> rfl

theorem release_sessionStep (l : TaskLog) (u : SessionUse) (s : ClientState V) :
    SessionStep u .idle s (s.release l) := by
  unfold ClientState.release
  split <;> exact .keep (fun _ h => h) (fun _ h => h) (.inl rfl)

theorem Fresh.drop {g : Nat → TaskLog × SessionUse} {s : ClientState V} (h : Fresh g s) (i : Nat) :
    Fresh (Function.update g i (.idle, .idle)) (s.release (g i).1) := by
  apply h.step (release_sessionStep ..)
  · exact List.nil_subset _
  · intro p hp
    cases hp

/-- The command that puts a created session into the cache. -/
def Cmd.caches {γ : Type} : Cmd V γ → Bool
  | .cacheDialSession _ _ => true
  | _ => false

section Exec

variable [DecidableEq V] {β : Type} {c : Cmd V β} {x : Reply V} {l : TaskLog} {s : ClientState V}
  {u : SessionUse} {r : β × TaskLog × ClientState V}

theorem exec_cachedAt (hx : c.exec x l s = some r) (hmay : (sessionUse V).may u c)
    (hanswered : ∀ p ∈ u.answered, p.1 = p.2) (hc : c.caches = false) {key id : String}
    (h : CachedAt r.2.2.dialSessions key id) : CachedAt s.dialSessions key id := by
  cases c with
  | cacheDialSession serviceId session => cases hc
  | evictDialSession serviceId =>
    cases hx
    exact (cachedAt_erase h).2
  | removeDialSessions serviceIds =>
    cases hx
    exact cachedAt_foldl_erase h
  | clearDialSessions =>
    cases hx
    exact absurd ⟨key, h⟩ not_cached_empty
  | recacheRefreshed key' snapshotSessionId refreshed =>
    cases hx
    have hid : refreshed.id = snapshotSessionId := by
      obtain hid | hid := hmay
      · exact hid
      · exact (hanswered _ hid).symm
    exact cachedAt_recache hid h
  | evictDead key' snapshotSessionId =>
    cases hx
    exact cachedAt_evictDead h
  | _ =>
    rw [(Cmd.exec_frame hx).dialSessions nofun nofun] at h
    exact h

/-- A session comes into the cache only where the task that created it puts it there. -/
theorem exec_cached (hx : c.exec x l s = some r) (hmay : (sessionUse V).may u c)
    (hanswered : ∀ p ∈ u.answered, p.1 = p.2) {id : String} (h : Cached r.2.2.dialSessions id) :
    Cached s.dialSessions id ∨ c.caches = true ∧ u.pending = some id := by
  obtain ⟨key, h⟩ := h
  cases c with
  | cacheDialSession serviceId session =>
    cases hx
    obtain ⟨-, rfl⟩ | hin := cachedAt_insert h
    · exact .inr ⟨rfl, hmay⟩
    · exact .inl ⟨key, hin⟩
  | _ => exact .inl ⟨key, exec_cachedAt hx hmay hanswered rfl h⟩

theorem exec_sessionStep (hx : c.exec x l s = some r) (hmay : (sessionUse V).may u c)
    (hanswered : ∀ p ∈ u.answered, p.1 = p.2) :
    SessionStep u ((sessionUse V).next u c r.1) s r.2.2 := by
  have hkeep {u' : SessionUse} (hcaches : c.caches = false) (hsession : c.part ≠ .session)
      (hpending : u'.pending = none ∨ u'.pending = u.pending) : SessionStep u u' s r.2.2 := by
    refine .keep (fun id hid => ?_) (fun id hid => ?_) hpending
    · rw [Controller.mintedUnder, (Cmd.exec_frame hx).sessions hsession]
      exact hid
    · obtain hin | ⟨hc, -⟩ := exec_cached hx hmay hanswered hid
      · exact hin
      · rw [hcaches] at hc
        cases hc
  cases c with
  | cacheDialSession serviceId session =>
    cases hx
    exact .spend session.id hmay (fun _ h => h) (fun _ h => (cached_insert h).imp_left Eq.symm) rfl
  | postSession token serviceId type =>
    obtain ⟨f, rfl⟩ | ⟨detail, s', hs, rfl⟩ := Cmd.exec_postSession hx
    · exact .keep (fun _ h => h) (fun _ h => h) (.inr rfl)
    · obtain ⟨api, -, hnew, rfl⟩ := Cmd.createSession_spec hs
      refine .issue detail.id ?_ (fun id hid => ?_) ?_ (fun _ h => h) rfl
      · rw [hnew]
        exact Bool.false_ne_true
      · obtain ⟨n, hn⟩ := Option.isSome_iff_exists.mp hid
        rw [Cmd.exec_mintedUnder hx hn]
        rfl
      · simp only [Controller.mintedUnder, List.lookup_cons_self, Option.isSome_some]
  | readToken => exact hkeep rfl (by rintro ⟨⟩) (.inl rfl)
  | getSessionDetail token id =>
    refine hkeep rfl (by rintro ⟨⟩) (.inr ?_)
    cases r.1 with
    | ok detail => rfl
    | error f =>
      simp only [sessionUse]
      split <;> rfl
  | _ => exact hkeep rfl (by rintro ⟨⟩) (.inr rfl)

theorem exec_dead (hx : c.exec x l s = some r) (h : u.dead ⊆ l.notFound) :
    ((sessionUse V).next u c r.1).dead ⊆ r.2.1.notFound := by
  have hf := Cmd.exec_frame hx
  cases c with
  | getSessionDetail token id =>
    obtain ⟨f, rfl⟩ | ⟨detail, -, rfl⟩ := Cmd.exec_getSessionDetail hx
    · simp only [sessionUse, Cmd.noteNotFound]
      split
      · exact List.cons_subset_cons id h
      · exact h
    · exact h
  | postSession token serviceId type =>
    rw [hf.notFound nofun]
    cases r.1 <;> exact h
  | _ =>
    rw [hf.notFound nofun]
    exact h

theorem exec_answered (hx : c.exec x l s = some r) (h : ∀ p ∈ u.answered, p.1 = p.2) :
    ∀ p ∈ ((sessionUse V).next u c r.1).answered, p.1 = p.2 := by
  cases c with
  | getSessionDetail token id =>
    obtain ⟨f, rfl⟩ | ⟨detail, hid, rfl⟩ := Cmd.exec_getSessionDetail hx
    · simp only [sessionUse]
      split <;> exact h
    · intro p hp
      obtain rfl | hp := List.mem_cons.mp hp
      · exact hid.symm
      · exact h p hp
  | postSession token serviceId type => cases r.1 <;> exact h
  | _ => exact h

variable (cfg : ClientConfig)

theorem fresh_tracks : Crew.Tracks (clientEffects V) (ClientOp.prog cfg) (fun _ _ _ => True)
    (sessionUse V) .idle Fresh where
  spawn := fun op => SessionUse.obeys_prog cfg op .idle
  lost := trivial
  exec := by
    intro γ c x g i s r hinv hmay _ hx
    exact hinv.step (exec_sessionStep hx hmay (hinv.answered i)) (exec_dead hx (hinv.dead i))
      (exec_answered hx (hinv.answered i))
  drop := fun _ _ i _ hinv _ _ => hinv.drop i
  env := by
    intro e g s s' he hinv
    obtain ⟨-, rfl⟩ := changeServices_spec he
    exact ⟨hinv.tickets, hinv.dead, hinv.answered⟩

/-- The session is the controller's, and nobody is about to cache it. -/
abbrev Spent (id : String) (g : Nat → TaskLog × SessionUse) (s : ClientState V) : Prop :=
  Retired id (fun id => (s.controller.mintedUnder id).isSome) fun i => (g i).2.pending

omit [DecidableEq V] in
theorem Spent.step {g : Nat → TaskLog × SessionUse} {s' : ClientState V} {i : Nat} {l : TaskLog}
    {u : SessionUse} {id : String} (h : Spent id g s) (hstep : SessionStep (g i).2 u s s') :
    Spent id (Function.update g i (l, u)) s' :=
  Retired.step (f := fun p : TaskLog × SessionUse => p.2.pending) (x := (l, u)) h hstep

/-- Once nobody is about to cache a session, it can only leave the cache. -/
theorem spent_tracks (id : String) (gone : Prop) :
    Crew.Tracks (clientEffects V) (ClientOp.prog cfg) (fun _ _ _ => True) (sessionUse V) .idle
      fun g s => Fresh g s ∧ Spent id g s ∧ (gone → ¬ Cached s.dialSessions id) := by
  apply (fresh_tracks cfg).extend (fun _ _ _ h => h)
  · rintro γ c x g i s r hinv ⟨hspent, hgone⟩ hmay _ hx
    have hstep := exec_sessionStep hx hmay (hinv.answered i)
    exact ⟨Spent.step hspent hstep, fun h => Retired.not_spent hspent hstep (hgone h)⟩
  · rintro γ c g i s hinv ⟨hspent, hgone⟩ hmay hd
    have hstep := release_sessionStep (g i).1 (g i).2 s
    exact ⟨Spent.step hspent hstep, fun h => Retired.not_spent hspent hstep (hgone h)⟩
  · rintro e g s s' he hinv ⟨hspent, hgone⟩
    obtain ⟨-, rfl⟩ := changeServices_spec he
    exact ⟨hspent, hgone⟩

end Exec

section Runs

variable [DecidableEq V] {cfg : ClientConfig} {token : AuthToken} {services : List (Service V)}
  {lastChangeAt : Int} {as bs cs : List (ClientAct V)} {s t v : ClientTasks V}

theorem run_fresh (hrun : run (clientStep cfg) (.start token services lastChangeAt) as = some s) :
    ∃ g, Crew.Tracked (clientEffects V) (sessionUse V) .idle Fresh g s :=
  (fresh_tracks cfg).run hrun (Crew.runAll_meets _ _)
    ⟨_, Crew.tracked_new (Fresh.start token services lastChangeAt)⟩

theorem left_cache_stays_out
    (hrun : run (clientStep cfg) (.start token services lastChangeAt) as = some s)
    (hst : run (clientStep cfg) s bs = some t) (htv : run (clientStep cfg) t cs = some v)
    {id : String} (hin : Cached s.state.dialSessions id) (hout : ¬ Cached t.state.dialSessions id) :
    ¬ Cached v.state.dialSessions id := by
  obtain ⟨g, hg⟩ := run_fresh hrun
  have hspent : Spent id g s.state :=
    hg.inv.tickets.retired (f := fun p : TaskLog × SessionUse => p.2.pending) hin
  obtain ⟨g', hg'⟩ := (spent_tracks cfg id False).run hst (Crew.runAll_meets _ _)
    ⟨g, hg.mono fun h => ⟨h, hspent, False.elim⟩⟩
  obtain ⟨g'', hg''⟩ := (spent_tracks cfg id True).run htv (Crew.runAll_meets _ _)
    ⟨g', hg'.mono fun h => ⟨h.1, h.2.1, fun _ => hout⟩⟩
  exact hg''.inv.2.2 trivial

theorem refresh_write_guarded
    (hrun : run (clientStep cfg) (.start token services lastChangeAt) as = some s) {i : Nat}
    {x : Reply V} {key snapshotSessionId : String} {refreshed : SessionDetail}
    {k : Bool → Proc V Unit} {own : TaskLog}
    (hk : s.workers[i]? = some ⟨.call (.recacheRefreshed key snapshotSessionId refreshed) k, own⟩)
    (hstep : clientStep cfg s (.go i x) = some t) (key' : String) :
    t.state.dialSessions[key']? = s.state.dialSessions[key']? ∨
      key' = key ∧ refreshed.id = snapshotSessionId ∧
        ∃ e, s.state.dialSessions[key]? = some e ∧ e.id = snapshotSessionId ∧
          t.state.dialSessions[key]? = some refreshed := by
  obtain ⟨g, hg⟩ := run_fresh hrun
  obtain ⟨-, hmay⟩ := hg.may hk
  have hid : refreshed.id = snapshotSessionId := by
    obtain hid | hid := hmay
    · exact hid
    · exact (hg.inv.answered i _ hid).symm
  obtain ⟨γ, c, k', own', r, hk', hx, rfl⟩ := Crew.step_go hstep
  rw [hk] at hk'
  cases hk'
  cases hx
  obtain heq | ⟨hkey, hwrote⟩ :=
    recache_spec s.state.dialSessions key snapshotSessionId refreshed key'
  · exact .inl heq
  · exact .inr ⟨hkey, hid, hwrote⟩

theorem purge_guarded
    (hrun : run (clientStep cfg) (.start token services lastChangeAt) as = some s) {i : Nat}
    {x : Reply V} {key snapshotSessionId : String} {k : Bool → Proc V Unit} {own : TaskLog}
    (hk : s.workers[i]? = some ⟨.call (.evictDead key snapshotSessionId) k, own⟩)
    (hstep : clientStep cfg s (.go i x) = some t) (key' : String) :
    t.state.dialSessions[key']? = s.state.dialSessions[key']? ∨
      key' = key ∧ snapshotSessionId ∈ own.notFound ∧
        ∃ e, s.state.dialSessions[key]? = some e ∧ e.id = snapshotSessionId ∧
          t.state.dialSessions[key]? = none := by
  obtain ⟨g, hg⟩ := run_fresh hrun
  obtain ⟨hown, hmay⟩ := hg.may hk
  have hdead : snapshotSessionId ∈ own.notFound := hown ▸ hg.inv.dead i hmay
  obtain ⟨γ, c, k', own', r, hk', hx, rfl⟩ := Crew.step_go hstep
  rw [hk] at hk'
  cases hk'
  cases hx
  obtain heq | ⟨hkey, hgone⟩ := evictDead_spec s.state.dialSessions key snapshotSessionId key'
  · exact .inl heq
  · exact .inr ⟨hkey, hdead, hgone⟩

/-- The cache of dial sessions over every run: a session that left it never comes back; a refresh
writes only over the session it probed, which was there; a purge removes only the session it probed,
which a legacy api-session was told does not exist. -/
theorem dial_cache_no_resurrection
    (hrun : run (clientStep cfg) (.start token services lastChangeAt) as = some s) :
    (∀ (bs cs : List (ClientAct V)) (t v : ClientTasks V) (id : String),
      run (clientStep cfg) s bs = some t → run (clientStep cfg) t cs = some v →
      Cached s.state.dialSessions id → ¬ Cached t.state.dialSessions id →
      ¬ Cached v.state.dialSessions id) ∧
    (∀ (i : Nat) (x : Reply V) (key snapshotSessionId : String) (refreshed : SessionDetail)
      (k : Bool → Proc V Unit) (own : TaskLog) (t : ClientTasks V),
      s.workers[i]? = some ⟨.call (.recacheRefreshed key snapshotSessionId refreshed) k, own⟩ →
      clientStep cfg s (.go i x) = some t → ∀ key' : String,
      t.state.dialSessions[key']? = s.state.dialSessions[key']? ∨
        key' = key ∧ refreshed.id = snapshotSessionId ∧
          ∃ e, s.state.dialSessions[key]? = some e ∧ e.id = snapshotSessionId ∧
            t.state.dialSessions[key]? = some refreshed) ∧
    (∀ (i : Nat) (x : Reply V) (key snapshotSessionId : String) (k : Bool → Proc V Unit)
      (own : TaskLog) (t : ClientTasks V),
      s.workers[i]? = some ⟨.call (.evictDead key snapshotSessionId) k, own⟩ →
      clientStep cfg s (.go i x) = some t → ∀ key' : String,
      t.state.dialSessions[key']? = s.state.dialSessions[key']? ∨
        key' = key ∧ snapshotSessionId ∈ own.notFound ∧
          ∃ e, s.state.dialSessions[key]? = some e ∧ e.id = snapshotSessionId ∧
            t.state.dialSessions[key]? = none) :=
  ⟨fun _ _ _ _ _ hst htv hin hout => left_cache_stays_out hrun hst htv hin hout,
    fun _ _ _ _ _ _ _ _ hk hstep => refresh_write_guarded hrun hk hstep,
    fun _ _ _ _ _ _ _ hk hstep => purge_guarded hrun hk hstep⟩

/-- A session created, then evicted. -/
def createActs : List (ClientAct Unit) :=
  [.spawn (.getOrCreateDialSession "svc" 0), .go 0 .done, .go 0 .done,
    .go 0 (.session ⟨"s1", "ey", "svc", .dial, "api", "id", []⟩), .go 0 .done]

def evictActs : List (ClientAct Unit) := [.spawn (.evictDialSession "svc"), .go 1 .done]

theorem dial_cache_no_resurrection_evicted :
    ∃ s t : ClientTasks Unit,
      run (clientStep ⟨.cert, false, false⟩) (.start (.legacy "a") [] 0) createActs = some s ∧
      run (clientStep ⟨.cert, false, false⟩) s evictActs = some t ∧
      Cached s.state.dialSessions "s1" ∧ ∀ cs v,
        run (clientStep ⟨.cert, false, false⟩) t cs = some v →
        ¬ Cached v.state.dialSessions "s1" := by
  obtain ⟨s, hs, hin⟩ := Option.map_eq_some_iff.mp (show
    (run (clientStep ⟨.cert, false, false⟩) (.start (.legacy "a") [] 0) createActs).map
      (fun s => (s.state.dialSessions["svc"]?).map (·.id)) = some (some "s1") by decide +kernel)
  obtain ⟨t, ht, hout⟩ := Option.map_eq_some_iff.mp (show
    (run (clientStep ⟨.cert, false, false⟩) (.start (.legacy "a") [] 0)
      (createActs ++ evictActs)).map (fun s => s.state.dialSessions.isEmpty) = some true by
        decide +kernel)
  rw [run_append, hs] at ht
  obtain ⟨d, hd, hid⟩ := Option.map_eq_some_iff.mp hin
  have hin : Cached s.state.dialSessions "s1" := ⟨"svc", d, hd, hid⟩
  have hout : ¬ Cached t.state.dialSessions "s1" := by
    rw [Std.ExtTreeMap.isEmpty_iff.mp hout]
    exact not_cached_empty
  exact ⟨s, t, hs, ht, hin, fun cs v hv =>
    (dial_cache_no_resurrection hs).1 evictActs cs t v "s1" ht hv hin hout⟩

end Runs

end Noa.Edge.Client
