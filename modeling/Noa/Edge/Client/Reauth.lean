import Noa.Edge.Client.DialCache
import Noa.Edge.Client.Rotation

namespace Noa.Edge.Client
open Noa.Framework

variable {V : Type}

/-- The session was created under this api-session, one the client has held the token of. -/
def MintedUnder (s : ClientState V) (id : String) (n : Nat) : Prop :=
  s.controller.mintedUnder id = some n ∧
    ∃ token ∈ s.journal.stored, s.controller.apiSessionOf token = some n

/-- No session in the cache is older than a re-authentication of the list. -/
def NoneStale (s : ClientState V) (reauths : List Nat) : Prop :=
  ∀ e ∈ reauths, ∀ id, Cached s.dialSessions id → ∃ n, MintedUnder s id n ∧ e ≤ n

/-- A created session goes into the cache only if the token it was created with was not read before
a re-authentication that has cleared the cache since. -/
def CachesCurrent {γ : Type} (c : Cmd V γ) (l : TaskLog) (s : ClientState V) : Prop :=
  c.caches = true → ∀ e ∈ s.journal.clears, ∃ n ∈ l.readUnder, e ≤ n

instance {γ : Type} (c : Cmd V γ) (l : TaskLog) (s : ClientState V) :
    Decidable (CachesCurrent c l s) :=
  inferInstanceAs (Decidable (_ → _))

/-- What a client's records never lose. -/
structure Grows (s s' : ClientState V) : Prop where
  stored : s.journal.stored ⊆ s'.journal.stored
  tokens : ∀ token n, s.controller.apiSessionOf token = some n →
    s'.controller.apiSessionOf token = some n
  sessions : ∀ id n, s.controller.mintedUnder id = some n →
    s'.controller.mintedUnder id = some n

/-- What is true of one task: its token and the session it is about to cache are of the api-session
it read, and the api-session it cleared the cache for is on record. -/
structure Reading (s : ClientState V) (l : TaskLog) (u : SessionUse) : Prop where
  cur : ∀ token, u.cur = some token → ∃ n, l.readUnder = some n ∧
    token.channelToken ∈ s.journal.stored ∧ s.controller.apiSessionOf token.channelToken = some n
  pending : ∀ id, u.pending = some id → ∃ n, l.readUnder = some n ∧ MintedUnder s id n
  cleared : ∀ e, l.cleared = some e → e ∈ s.journal.clears

/-- Every session in the cache was created under an api-session of the client. -/
structure Minting (g : Nat → TaskLog × RotationUse × SessionUse) (s : ClientState V) : Prop where
  reading : ∀ i, Reading s (g i).1 (g i).2.2
  cached : ∀ id, Cached s.dialSessions id → ∃ n, MintedUnder s id n
  completed : s.journal.completed ⊆ s.journal.clears

section Minting

variable {g : Nat → TaskLog × RotationUse × SessionUse} {s s' : ClientState V} {l l' : TaskLog}
  {u u' : SessionUse} {i : Nat}

theorem release_grows (l : TaskLog) (s : ClientState V) : Grows s (s.release l) := by
  have hf := release_frame l s
  constructor
  · rw [(hf.token (by rintro ⟨⟩)).2]
    exact List.Subset.refl _
  · intro token n hn
    rw [Controller.apiSessionOf, (hf.grants (by rintro ⟨⟩)).1]
    exact hn
  · intro id n hn
    rw [Controller.mintedUnder, hf.sessions (by rintro ⟨⟩)]
    exact hn

theorem MintedUnder.grows {id : String} {n : Nat} (h : MintedUnder s id n) (hs : Grows s s') :
    MintedUnder s' id n := by
  obtain ⟨hid, token, hstored, hn⟩ := h
  exact ⟨hs.sessions id n hid, token, hs.stored hstored, hs.tokens token n hn⟩

theorem NoneStale.grows {es : List Nat} (h : NoneStale s es) (hs : Grows s s')
    (hcached : ∀ id, Cached s'.dialSessions id → Cached s.dialSessions id) : NoneStale s' es := by
  intro e he id hid
  obtain ⟨n, hn, hle⟩ := h e he id (hcached id hid)
  exact ⟨n, hn.grows hs, hle⟩

theorem Reading.idle (s : ClientState V) : Reading s .idle .idle := ⟨nofun, nofun, nofun⟩

theorem Reading.grows (h : Reading s l u) (hs : Grows s s')
    (hread : l'.readUnder = l.readUnder) (hcur : u'.cur = u.cur)
    (hpending : u'.pending = none ∨ u'.pending = u.pending)
    (hcleared : ∀ e, l'.cleared = some e → e ∈ s'.journal.clears) : Reading s' l' u' := by
  constructor
  · intro token htoken
    obtain ⟨n, hn, hstored, hapi⟩ := h.cur token (hcur ▸ htoken)
    exact ⟨n, hread ▸ hn, hs.stored hstored, hs.tokens _ n hapi⟩
  · intro id hid
    obtain hnone | hsame := hpending
    · rw [hnone] at hid
      cases hid
    · obtain ⟨n, hn, hminted⟩ := h.pending id (hsame ▸ hid)
      exact ⟨n, hread ▸ hn, hminted.grows hs⟩
  · exact hcleared

theorem Minting.start (token : AuthToken) (services : List (Service V)) (lastChangeAt : Int) :
    Minting (fun _ => (TaskLog.idle, RotationUse.idle, SessionUse.idle))
      (.start token services lastChangeAt) :=
  ⟨fun _ => Reading.idle _, fun _ h => absurd h not_cached_empty, List.Subset.refl _⟩

theorem Minting.set (h : Minting g s) (hs : Grows s s') {v : RotationUse}
    (hi : Reading s' l u) (hclears : s.journal.clears ⊆ s'.journal.clears)
    (hcached : ∀ id, Cached s'.dialSessions id →
      Cached s.dialSessions id ∨ (g i).2.2.pending = some id)
    (hcompleted : ∀ e ∈ s'.journal.completed,
      e ∈ s.journal.completed ∨ (g i).1.cleared = some e) :
    Minting (Function.update g i (l, v, u)) s' := by
  constructor
  · intro j
    rw [Function.update_apply]
    split_ifs
    · exact hi
    · exact (h.reading j).grows hs rfl rfl (.inr rfl)
        fun e he => hclears ((h.reading j).cleared e he)
  · intro id hid
    obtain hid | hid := hcached id hid
    · obtain ⟨n, hn⟩ := h.cached id hid
      exact ⟨n, hn.grows hs⟩
    · obtain ⟨n, -, hn⟩ := (h.reading i).pending id hid
      exact ⟨n, hn.grows hs⟩
  · intro e he
    obtain he | he := hcompleted e he
    · exact hclears (h.completed he)
    · exact hclears ((h.reading i).cleared e he)

end Minting

section Exec

variable [DecidableEq V] {β : Type} {c : Cmd V β} {x : Reply V} {l : TaskLog} {s : ClientState V}
  {u : SessionUse} {r : β × TaskLog × ClientState V}

theorem exec_grows (hx : c.exec x l s = some r) : Grows s r.2.2 :=
  ⟨Cmd.exec_stored hx, fun _ _ => Cmd.exec_apiSessionOf hx, fun _ _ => Cmd.exec_mintedUnder hx⟩

theorem exec_clears (hx : c.exec x l s = some r) : s.journal.clears ⊆ r.2.2.journal.clears := by
  cases c with
  | clearDialSessions =>
    cases hx
    exact List.subset_append_right _ _
  | _ =>
    rw [(Cmd.exec_frame hx).clears nofun]
    exact List.Subset.refl _

theorem exec_cleared (hx : c.exec x l s = some r) (h : ∀ e, l.cleared = some e → e ∈ s.journal.clears)
    (e : Nat) (he : r.2.1.cleared = some e) : e ∈ r.2.2.journal.clears := by
  cases c with
  | lockReauth call =>
    simp only [Cmd.exec] at hx
    split_ifs at hx
    cases hx
    cases he
  | clearDialSessions =>
    cases hx
    exact List.mem_append_left _ (Option.mem_toList.mpr he)
  | _ =>
    have hf := Cmd.exec_frame hx
    rw [hf.cleared (by rintro ⟨⟩) (by rintro ⟨⟩)] at he
    rw [hf.clears (by rintro ⟨⟩)]
    exact h e he

theorem exec_completed (hx : c.exec x l s = some r) (e : Nat)
    (he : e ∈ r.2.2.journal.completed) : e ∈ s.journal.completed ∨ l.cleared = some e := by
  cases c with
  | unlockReauth ok =>
    cases hx
    simp only [Journal.finish] at he
    split at he
    · split_ifs at he
      · obtain he | he := List.mem_append.mp he
        · exact .inr (Option.mem_toList.mp he)
        · exact .inl he
      · exact .inl he
    · exact .inl he
  | _ =>
    rw [((Cmd.exec_frame hx).finished nofun).2] at he
    exact .inl he

theorem exec_reading (h : Reading s l u) (hmay : (sessionUse V).may u c)
    (htoken : ∀ token, s.token = some token → token.channelToken ∈ s.journal.stored ∧
      (s.controller.apiSessionOf token.channelToken).isSome)
    (hx : c.exec x l s = some r) : Reading r.2.2 r.2.1 ((sessionUse V).next u c r.1) := by
  have hcleared := exec_cleared hx h.cleared
  have hkeep {u' : SessionUse} (hread : c.part ≠ .read) (hcur : u'.cur = u.cur)
      (hpending : u'.pending = none ∨ u'.pending = u.pending) : Reading r.2.2 r.2.1 u' :=
    h.grows (exec_grows hx) ((Cmd.exec_frame hx).readUnder hread) hcur hpending hcleared
  cases c with
  | readToken =>
    cases hx
    refine ⟨?_, by rintro _ ⟨⟩, hcleared⟩
    intro token hcur
    obtain ⟨hstored, hknown⟩ := htoken token hcur
    obtain ⟨n, hn⟩ := Option.isSome_iff_exists.mp hknown
    refine ⟨n, ?_, hstored, hn⟩
    dsimp only
    rw [show s.token = some token from hcur]
    exact hn
  | postSession token serviceId type =>
    obtain ⟨f, rfl⟩ | ⟨detail, s', hs, rfl⟩ := Cmd.exec_postSession hx
    · exact hkeep (by rintro ⟨⟩) rfl (.inr rfl)
    · have hold : Reading _ _ { u with pending := none } := hkeep (by rintro ⟨⟩) rfl (.inl rfl)
      refine ⟨hold.cur, ?_, hcleared⟩
      rintro id ⟨⟩
      obtain ⟨n, hread, hstored, hn⟩ := h.cur token hmay
      obtain ⟨api, hapi, -, rfl⟩ := Cmd.createSession_spec hs
      obtain rfl : n = api := Option.some.inj (hn.symm.trans hapi)
      exact ⟨n, hread, List.lookup_cons_self, token.channelToken, hstored, hn⟩
  | cacheDialSession => exact hkeep (by rintro ⟨⟩) rfl (.inl rfl)
  | getSessionDetail token id =>
    cases r.1 with
    | ok detail => exact hkeep (by rintro ⟨⟩) rfl (.inr rfl)
    | error f =>
      simp only [sessionUse]
      split <;> exact hkeep (by rintro ⟨⟩) rfl (.inr rfl)
  | _ => exact hkeep (by rintro ⟨⟩) rfl (.inr rfl)

variable (cfg : ClientConfig)

omit [DecidableEq V] in
/-- The token of a client is one it stored and the controller issued. -/
theorem Rotating.token_known {g : Nat → TaskLog × RotationUse} (h : Rotating g s)
    (token : AuthToken) (htoken : s.token = some token) :
    token.channelToken ∈ s.journal.stored ∧
      (s.controller.apiSessionOf token.channelToken).isSome := by
  obtain ⟨t, ht, hstored⟩ := h.books.stored
  rw [ClientState.live, htoken] at ht
  cases ht
  exact ⟨hstored, h.tickets.spentKnown _ hstored⟩

theorem minting_tracks : Crew.Tracks (clientEffects V) (ClientOp.prog cfg) (fun _ _ _ => True)
    ((rotation V).prod (sessionUse V)) (.idle, .idle) fun g s =>
      (Rotating (fun j => ((g j).1, (g j).2.1)) s ∧ Fresh (fun j => ((g j).1, (g j).2.2)) s) ∧
        Minting g s := by
  apply ((rotating_tracks cfg).prod (fresh_tracks cfg)).extend (fun _ _ _ h => h)
  · rintro γ c x g i s r ⟨hrotating, hfresh⟩ hminting hmay _ hx
    have hcached (id : String) (hid : Cached r.2.2.dialSessions id) :=
      exec_cached hx hmay.2 (hfresh.answered i) hid
    apply hminting.set (exec_grows hx)
      (exec_reading (hminting.reading i) hmay.2 hrotating.token_known hx) (exec_clears hx)
    · intro id hid
      exact (hcached id hid).imp_right And.right
    · exact exec_completed hx
  · rintro γ c g i s - hminting _ _
    have hf := release_frame (g i).1 s
    apply hminting.set (release_grows (g i).1 s) (Reading.idle _)
    · exact hf.clears nofun ▸ List.Subset.refl _
    · intro id hid
      exact .inl (hf.dialSessions nofun nofun ▸ hid)
    · intro e he
      exact .inl ((hf.finished nofun).2 ▸ he)
  · rintro e g s s' he - hminting
    obtain ⟨-, rfl⟩ := changeServices_spec he
    exact ⟨fun i => ⟨(hminting.reading i).cur, (hminting.reading i).pending,
      (hminting.reading i).cleared⟩, hminting.cached, hminting.completed⟩

/-- No command but a late insert into the cache leaves a stale session there. -/
theorem exec_noneStale {g : Nat → TaskLog × RotationUse × SessionUse} {i : Nat}
    (hfresh : Fresh (fun j => ((g j).1, (g j).2.2)) s) (hminting : Minting g s)
    (hmay : (sessionUse V).may (g i).2.2 c) (hx : c.exec x (g i).1 s = some r)
    (hnone : NoneStale s s.journal.clears) :
    CachesCurrent c (g i).1 s ↔ NoneStale r.2.2 r.2.2.journal.clears := by
  cases hc : c.caches with
  | false =>
    refine iff_of_true (fun h => absurd (hc.symm.trans h) Bool.false_ne_true) ?_
    by_cases hclear : c.part = .clear
    · cases c with
      | clearDialSessions =>
        cases hx
        exact fun _ _ _ h => absurd h not_cached_empty
      | _ => cases hclear
    · rw [(Cmd.exec_frame hx).clears hclear]
      apply hnone.grows (exec_grows hx)
      intro id hid
      obtain hid | ⟨h, -⟩ := exec_cached hx hmay (hfresh.answered i) hid
      · exact hid
      · exact absurd (hc.symm.trans h) Bool.false_ne_true
  | true =>
    cases c with
    | cacheDialSession serviceId session =>
      cases hx
      obtain ⟨n, hread, hminted⟩ := (hminting.reading i).pending session.id hmay
      constructor
      · intro hcurrent e he id hid
        obtain rfl | hid := cached_insert hid
        · obtain ⟨m, hm, hle⟩ := hcurrent rfl e he
          obtain rfl : n = m := Option.some.inj (hread.symm.trans hm)
          exact ⟨n, hminted, hle⟩
        · exact hnone e he id hid
      · intro hnone' _ e he
        have hin : Cached (s.dialSessions.insert serviceId session) session.id :=
          ⟨serviceId, session, by rw [lookup_insert, if_pos rfl], rfl⟩
        obtain ⟨m, hm, hle⟩ := hnone' e he session.id hin
        obtain rfl : n = m := Option.some.inj (hminted.1.symm.trans hm.1)
        exact ⟨n, hread, hle⟩
    | _ => cases hc

end Exec

section Runs

variable [DecidableEq V] {cfg : ClientConfig} {token : AuthToken} {services : List (Service V)}
  {lastChangeAt : Int} {as : List (ClientAct V)} {s : ClientTasks V}

theorem minting_start : ∃ g, Crew.Tracked (clientEffects V) ((rotation V).prod (sessionUse V))
    (.idle, .idle) (fun g s => (Rotating (fun j => ((g j).1, (g j).2.1)) s ∧
      Fresh (fun j => ((g j).1, (g j).2.2)) s) ∧ Minting g s) g
    (ClientTasks.start token services lastChangeAt) :=
  ⟨_, Crew.tracked_new ⟨⟨Rotating.start token services lastChangeAt,
    Fresh.start token services lastChangeAt⟩, Minting.start token services lastChangeAt⟩⟩

theorem completed_subset_clears
    (hrun : run (clientStep cfg) (.start token services lastChangeAt) as = some s) :
    s.state.journal.completed ⊆ s.state.journal.clears := by
  obtain ⟨g, hg⟩ := (minting_tracks cfg).run hrun (Crew.runAll_meets _ _) minting_start
  exact hg.inv.2.completed

/-- A re-authentication from start to end, by the task of this number. -/
def reauthOnce (i : Nat) : List (ClientAct Unit) :=
  [.spawn (.reauthenticate "a"), .go i .done, .go i .done, .go i (.apiSession ⟨"b", none, []⟩),
    .go i .done, .go i .done, .go i .done, .go i .done]

/-- A session asked for and created, but not yet in the cache. -/
def createInFlight (i : Nat) : List (ClientAct Unit) :=
  [.spawn (.getOrCreateDialSession "svc" 0), .go i .done, .go i .done,
    .go i (.session ⟨"s1", "ey", "svc", .dial, "api", "id", []⟩)]

end Runs

end Noa.Edge.Client
