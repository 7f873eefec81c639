import Noa.Edge.Client.Commands
namespace Noa.Edge.Client
open Noa.Framework

namespace Journal

variable (j : Journal) (guard : Option Guard) (carried : Option String) (token : String)
  (complete : Bool) (cleared : Option Nat) (live : Option String)

@[simp] theorem grant_stored : (j.grant guard carried token complete).stored = j.stored := by
  unfold grant
  split <;> [rfl; split <;> rfl]

@[simp] theorem grant_calls : (j.grant guard carried token complete).calls = j.calls := by
  unfold grant
  split <;> [rfl; split <;> rfl]

@[simp] theorem grant_clears : (j.grant guard carried token complete).clears = j.clears := by
  unfold grant
  split <;> [rfl; split <;> rfl]

@[simp] theorem grant_completed :
    (j.grant guard carried token complete).completed = j.completed := by
  unfold grant
  split <;> [rfl; split <;> rfl]

@[simp] theorem grant_processedAt :
    (j.grant guard carried token complete).processedAt = j.processedAt := by
  unfold grant
  split <;> [rfl; split <;> rfl]

@[simp] theorem finish_grants : (j.finish guard cleared complete live).grants = j.grants := by
  unfold finish
  split <;> rfl

@[simp] theorem finish_renewals : (j.finish guard cleared complete live).renewals = j.renewals := by
  unfold finish
  split <;> rfl

@[simp] theorem finish_stored : (j.finish guard cleared complete live).stored = j.stored := by
  unfold finish
  split <;> rfl

@[simp] theorem finish_clears : (j.finish guard cleared complete live).clears = j.clears := by
  unfold finish
  split <;> rfl

@[simp] theorem finish_processedAt :
    (j.finish guard cleared complete live).processedAt = j.processedAt := by
  unfold finish
  split <;> rfl

end Journal

/-- The part of the client a command can change. -/
inductive Part where
  | nothing
  | read
  | token
  | lock
  | unlock
  | session
  | probe
  | grant
  | list
  | cache
  | clear
  | instant
  | services
  deriving DecidableEq

namespace Cmd

variable {V β : Type}

def part : Cmd V β → Part
  | .readToken => .read
  | .storeToken _ => .token
  | .lockReauth _ => .lock
  | .unlockReauth _ => .unlock
  | .postSession _ _ _ => .session
  | .getSessionDetail _ _ => .probe
  | .postAuthenticate _ _ => .grant
  | .getCurrentApiSession _ => .grant
  | .postTokenExchange _ => .grant
  | .getServices _ _ _ => .list
  | .cacheDialSession _ _ => .cache
  | .evictDialSession _ => .cache
  | .removeDialSessions _ => .cache
  | .recacheRefreshed _ _ _ => .cache
  | .evictDead _ _ => .cache
  | .clearDialSessions => .clear
  | .storeServiceUpdate _ => .instant
  | .processServices _ => .services
  | _ => .nothing

/-- What a command leaves alone. -/
structure Frame (p : Part) (l l' : TaskLog) (s s' : ClientState V) : Prop where
  dialSessions : p ≠ .cache → p ≠ .clear → s'.dialSessions = s.dialSessions
  sessions : p ≠ .session → s'.controller.sessions = s.controller.sessions
  grants : p ≠ .grant → s'.controller.tokens = s.controller.tokens ∧
    s'.controller.refreshTokens = s.controller.refreshTokens ∧
    s'.journal.grants = s.journal.grants ∧ s'.journal.renewals = s.journal.renewals
  token : p ≠ .token → s'.token = s.token ∧ s'.journal.stored = s.journal.stored
  locked : p ≠ .lock → p ≠ .unlock → s'.reauthLocked = s.reauthLocked
  guard : p ≠ .lock → p ≠ .unlock → l'.guard = l.guard ∨ l'.guard = l.contact.guard
  finished : p ≠ .unlock →
    s'.journal.calls = s.journal.calls ∧ s'.journal.completed = s.journal.completed
  clears : p ≠ .clear → s'.journal.clears = s.journal.clears
  cleared : p ≠ .lock → p ≠ .clear → l'.cleared = l.cleared
  readUnder : p ≠ .read → l'.readUnder = l.readUnder
  notFound : p ≠ .probe → l'.notFound = l.notFound
  lastServiceUpdate : p ≠ .instant → s'.lastServiceUpdate = s.lastServiceUpdate
  listedAt : p ≠ .list → l'.listedAt = l.listedAt
  services : p ≠ .services →
    s'.services = s.services ∧ s'.journal.processedAt = s.journal.processedAt
  offered : s'.controller.services = s.controller.services ∧
    s'.controller.lastChangeAt = s.controller.lastChangeAt

variable {x : Reply V} {l : TaskLog} {s s' : ClientState V}

theorem request_cases {α : Type} {answer : Reply V → Option (α × ClientState V)}
    {r : Except Failure α × TaskLog × ClientState V} (h : request x l s answer = some r) :
    (∃ f, x = .failed f ∧ r = (.error f, l.contact, s)) ∨
      ∃ a s', answer x = some (a, s') ∧ r = (.ok a, l.contact, s') := by
  unfold request at h
  split at h
  · next f => exact .inl ⟨f, rfl, (Option.some.inj h).symm⟩
  · obtain ⟨⟨a, s'⟩, ha, hr⟩ := Option.map_eq_some_iff.mp h
    exact .inr ⟨a, s', ha, hr.symm⟩

theorem request_makes {α : Type} {make : α → Option (ClientState V)}
    {answer : Reply V → Option (α × ClientState V)} {r : Except Failure α × TaskLog × ClientState V}
    (hanswer : answer x = none ∨ ∃ a, answer x = (make a).map (a, ·))
    (h : request x l s answer = some r) :
    (∃ f, r = (.error f, l.contact, s)) ∨
      ∃ a s', make a = some s' ∧ r = (.ok a, l.contact, s') := by
  obtain ⟨f, -, rfl⟩ | ⟨a, s', ha, rfl⟩ := request_cases h
  · exact .inl ⟨f, rfl⟩
  · obtain hnone | ⟨b, hb⟩ := hanswer
    · rw [hnone] at ha
      cases ha
    · rw [hb] at ha
      obtain ⟨_, hmake, heq⟩ := Option.map_eq_some_iff.mp ha
      cases heq
      exact .inr ⟨a, s', hmake, rfl⟩

theorem createSession_spec {token : AuthToken} {detail : SessionDetail}
    (h : createSession s token detail = some s') :
    ∃ api, s.controller.apiSessionOf token.channelToken = some api ∧
      s.controller.mintedUnder detail.id = none ∧
      s' = { s with controller :=
        { s.controller with sessions := (detail.id, api) :: s.controller.sessions } } := by
  unfold createSession at h
  split at h
  · cases h
  · next api hapi =>
    split_ifs at h with hm
    exact ⟨api, hapi, Option.not_isSome_iff_eq_none.mp hm, (Option.some.inj h).symm⟩

theorem createApiSession_spec {guard : Option Guard} {session : ApiSession}
    (h : createApiSession s guard session = some s') :
    s.controller.apiSessionOf session.token = none ∧
      s' = { s with
        controller := { s.controller.addToken session.token s.controller.apiSessions with
          apiSessions := s.controller.apiSessions + 1 }
        journal := s.journal.grant guard none session.token session.authQueries.isEmpty } := by
  unfold createApiSession at h
  split_ifs at h with hm
  exact ⟨Option.not_isSome_iff_eq_none.mp hm, (Option.some.inj h).symm⟩

theorem extendApiSession_spec {guard : Option Guard} {token : AuthToken} {session : ApiSession}
    (h : extendApiSession s guard token session = some s') :
    ∃ api, s.controller.apiSessionOf token.channelToken = some api ∧
      ∃ controller, (session.token = token.channelToken ∧ controller = s.controller ∨
        s.controller.apiSessionOf session.token = none ∧
          controller = s.controller.addToken session.token api) ∧
      s' = { s with
        controller
        journal := s.journal.grant guard (some token.channelToken) session.token
          session.authQueries.isEmpty } := by
  unfold extendApiSession at h
  split at h
  · cases h
  · next api hapi =>
    split_ifs at h with ht hm
    · exact ⟨api, hapi, s.controller, .inl ⟨ht, rfl⟩, (Option.some.inj h).symm⟩
    · exact ⟨api, hapi, _, .inr ⟨Option.not_isSome_iff_eq_none.mp hm, rfl⟩,
        (Option.some.inj h).symm⟩

theorem exchangeTokens_spec {guard : Option Guard} {subject : String} {tokens : RefreshedOidc}
    (h : exchangeTokens s guard subject tokens = some s') :
    ∃ api, s.controller.refreshTokens.lookup subject = some api ∧
      s.controller.apiSessionOf tokens.access = none ∧
      s' = { s with
        controller := { s.controller.addToken tokens.access api with
          refreshTokens := (tokens.refresh.toList.map fun r => (r, api)) ++
            s.controller.refreshTokens }
        journal := s.journal.grant guard none tokens.access true } := by
  unfold exchangeTokens at h
  split at h
  · cases h
  · next api hapi =>
    split_ifs at h with hm hr
    exact ⟨api, hapi, Option.not_isSome_iff_eq_none.mp hm, (Option.some.inj h).symm⟩

section Request

variable [DecidableEq V]

theorem exec_postSession {token : AuthToken} {serviceId : String} {type : SessionType}
    {r : Except Failure SessionDetail × TaskLog × ClientState V}
    (h : (Cmd.postSession token serviceId type).exec x l s = some r) :
    (∃ f, r = (.error f, l.contact, s)) ∨
      ∃ detail s', createSession s token detail = some s' ∧ r = (.ok detail, l.contact, s') := by
  refine request_makes ?_ h
  cases x with
  | session detail => exact .inr ⟨detail, rfl⟩
  | _ => exact .inl rfl

theorem exec_postAuthenticate {method : String} {body : AuthBody}
    {r : Except Failure ApiSession × TaskLog × ClientState V}
    (h : (Cmd.postAuthenticate method body).exec x l s = some r) :
    (∃ f, r = (.error f, l.contact, s)) ∨
      ∃ session s', createApiSession s l.guard session = some s' ∧
        r = (.ok session, l.contact, s') := by
  refine request_makes ?_ h
  cases x with
  | apiSession session => exact .inr ⟨session, rfl⟩
  | _ => exact .inl rfl

theorem exec_getCurrentApiSession {token : AuthToken}
    {r : Except Failure ApiSession × TaskLog × ClientState V}
    (h : (Cmd.getCurrentApiSession token).exec x l s = some r) :
    (∃ f, r = (.error f, l.contact, s)) ∨
      ∃ session s', extendApiSession s l.guard token session = some s' ∧
        r = (.ok session, l.contact, s') := by
  refine request_makes ?_ h
  cases x with
  | apiSession session => exact .inr ⟨session, rfl⟩
  | _ => exact .inl rfl

theorem exec_postTokenExchange {subject : String}
    {r : Except Failure RefreshedOidc × TaskLog × ClientState V}
    (h : (Cmd.postTokenExchange subject).exec x l s = some r) :
    (∃ f, r = (.error f, l.contact, s)) ∨
      ∃ tokens s', exchangeTokens s l.guard subject tokens = some s' ∧
        r = (.ok tokens, l.contact, s') := by
  refine request_makes ?_ h
  cases x with
  | tokens tokens => exact .inr ⟨tokens, rfl⟩
  | _ => exact .inl rfl

theorem exec_getSessionDetail {token : AuthToken} {id : String}
    {r : Except Failure SessionDetail × TaskLog × ClientState V}
    (h : (Cmd.getSessionDetail token id).exec x l s = some r) :
    (∃ f, r = (.error f, noteNotFound l.contact token id f, s)) ∨
      ∃ detail, detail.id = id ∧ r = (.ok detail, l.contact, s) := by
  simp only [exec] at h
  split at h
  · next f => exact .inl ⟨f, (Option.some.inj h).symm⟩
  · next detail =>
    split_ifs at h with hid
    exact .inr ⟨detail, hid, (Option.some.inj h).symm⟩
  · cases h

theorem exec_getServiceUpdates {token : AuthToken}
    {r : Except Failure Int × TaskLog × ClientState V}
    (h : (Cmd.getServiceUpdates token).exec x l s = some r) :
    (∃ f, r = (.error f, l.contact, s)) ∨ r = (.ok s.controller.lastChangeAt, l.contact, s) := by
  obtain ⟨f, -, rfl⟩ | ⟨a, s', ha, rfl⟩ := request_cases h
  · exact .inl ⟨f, rfl⟩
  · cases x <;> cases ha
    exact .inr rfl

theorem exec_getServices {token : AuthToken} {offset : Nat} {configTypes : List String}
    {r : Except Failure (List (Service V) × Nat) × TaskLog × ClientState V}
    (h : (Cmd.getServices token offset configTypes).exec x l s = some r) :
    r.2 = ((l.page offset s.controller.lastChangeAt).contact, s) ∧ ((∃ f, r.1 = .error f) ∨
      r.1 = .ok ((s.controller.services.drop offset).take pageLimit,
        s.controller.services.length)) := by
  obtain ⟨f, -, rfl⟩ | ⟨a, s', ha, rfl⟩ := request_cases h
  · exact ⟨rfl, .inl ⟨f, rfl⟩⟩
  · cases x <;> cases ha
    exact ⟨rfl, .inr rfl⟩

theorem exec_processServices {fetched : List (Service V)}
    {r : List (ServiceEvent V) × TaskLog × ClientState V}
    (h : (Cmd.processServices fetched).exec x l s = some r) :
    ∃ iter, iter.Perm (s.services.toList.map (·.2)) ∧ r.2 = (l, { s with
      services := (Edge.processServices iter s.services fetched).2
      journal := { s.journal with processedAt := l.listedAt } }) := by
  cases x with
  | order iter =>
    simp only [exec] at h
    split_ifs at h with hperm
    cases h
    exact ⟨iter, hperm, rfl⟩
  | _ => cases h

end Request

section Frame

theorem frame_refl (p : Part) (l : TaskLog) (s : ClientState V) : Frame p l l s s := by
  constructor <;> simp

theorem frame_contact (p : Part) (l : TaskLog) (s : ClientState V) : Frame p l l.contact s s := by
  constructor <;> simp [TaskLog.contact]

theorem frame_grant {controller : Controller V}
    (hsessions : controller.sessions = s.controller.sessions)
    (hservices : controller.services = s.controller.services)
    (hchange : controller.lastChangeAt = s.controller.lastChangeAt) (guard : Option Guard)
    (carried : Option String) (token : String) (complete : Bool) :
    Frame .grant l l.contact s
      { s with controller, journal := s.journal.grant guard carried token complete } := by
  constructor <;> simp [TaskLog.contact, *]

theorem request_frame {p : Part} {α : Type} {answer : Reply V → Option (α × ClientState V)}
    {r : Except Failure α × TaskLog × ClientState V} (h : request x l s answer = some r)
    (ha : ∀ a s', answer x = some (a, s') → s' = s) : Frame p l r.2.1 s r.2.2 := by
  obtain ⟨f, -, rfl⟩ | ⟨a, s', hs, rfl⟩ := request_cases h
  · exact frame_contact p l s
  · rw [ha a s' hs]
    exact frame_contact p l s

variable [DecidableEq V]

theorem exec_frame {c : Cmd V β} {r : β × TaskLog × ClientState V} (h : c.exec x l s = some r) :
    Frame c.part l r.2.1 s r.2.2 := by
  cases c with
  | readToken | storeToken | storeExpiry | unlockReauth | backoff | pushChannels
    | invalidateSessionCert | cachedDialSession | cacheDialSession | evictDialSession
    | removeDialSessions | clearDialSessions | recacheRefreshed | evictDead | lastServiceUpdate
    | storeServiceUpdate =>
    cases h
    constructor <;> simp [part]
  | lockReauth call =>
    simp only [exec] at h
    split_ifs at h with hl
    cases h
    constructor <;> simp [part]
  | postSession =>
    obtain ⟨f, rfl⟩ | ⟨detail, s', hs, rfl⟩ := exec_postSession h
    · exact frame_contact _ l s
    · obtain ⟨api, -, -, rfl⟩ := createSession_spec hs
      constructor <;> simp [part, TaskLog.contact]
  | getSessionDetail token id =>
    obtain ⟨f, rfl⟩ | ⟨detail, -, rfl⟩ := exec_getSessionDetail h
    · have hn : ∃ ids, noteNotFound l.contact token id f = { l.contact with notFound := ids } := by
        unfold noteNotFound
        split <;> exact ⟨_, rfl⟩
      obtain ⟨ids, hn⟩ := hn
      rw [hn]
      constructor <;> simp [part, TaskLog.contact]
    · exact frame_contact _ l s
  | postAuthenticate =>
    obtain ⟨f, rfl⟩ | ⟨session, s', hs, rfl⟩ := exec_postAuthenticate h
    · exact frame_contact _ l s
    · obtain ⟨-, rfl⟩ := createApiSession_spec hs
      apply frame_grant <;> rfl
  | getCurrentApiSession =>
    obtain ⟨f, rfl⟩ | ⟨session, s', hs, rfl⟩ := exec_getCurrentApiSession h
    · exact frame_contact _ l s
    · obtain ⟨api, -, controller, ⟨-, rfl⟩ | ⟨-, rfl⟩, rfl⟩ := extendApiSession_spec hs <;>
        apply frame_grant <;> rfl
  | postTokenExchange =>
    obtain ⟨f, rfl⟩ | ⟨tokens, s', hs, rfl⟩ := exec_postTokenExchange h
    · exact frame_contact _ l s
    · obtain ⟨api, -, -, rfl⟩ := exchangeTokens_spec hs
      apply frame_grant <;> rfl
  | getServices token offset configTypes =>
    rw [(exec_getServices h).1]
    unfold TaskLog.page
    split_ifs <;> constructor <;> simp [part, TaskLog.contact]
  | getServiceEdgeRouters | postMfa | getServiceUpdates =>
    apply request_frame h
    intro a s' ha
    cases x <;> cases ha
    rfl
  | totpCode =>
    cases x <;> cases h
    exact frame_refl _ l s
  | snapshotDialSessions =>
    cases x with
    | entries entries =>
      simp only [exec] at h
      split_ifs at h
      cases h
      exact frame_refl _ l s
    | _ => cases h
  | processServices =>
    obtain ⟨iter, -, hr⟩ := exec_processServices h
    rw [hr]
    constructor <;> simp [part]

end Frame

section Known

theorem apiSessionOf_addToken {ctrl : Controller V} {token t : String} {api n : Nat}
    (hnew : ctrl.apiSessionOf token = none) (h : ctrl.apiSessionOf t = some n) :
    (ctrl.addToken token api).apiSessionOf t = some n := by
  have hne : (t == token) = false := by
    rw [beq_eq_false_iff_ne]
    rintro rfl
    rw [hnew] at h
    cases h
  rw [Controller.apiSessionOf, Controller.addToken, List.lookup_cons, hne]
  exact h

variable [DecidableEq V]

theorem exec_apiSessionOf {c : Cmd V β} {r : β × TaskLog × ClientState V}
    (h : c.exec x l s = some r) {t : String} {n : Nat}
    (ht : s.controller.apiSessionOf t = some n) : r.2.2.controller.apiSessionOf t = some n := by
  by_cases hgrant : c.part = .grant
  · cases c with
    | postAuthenticate =>
      obtain ⟨f, rfl⟩ | ⟨session, s', hs, rfl⟩ := exec_postAuthenticate h
      · exact ht
      · obtain ⟨hnew, rfl⟩ := createApiSession_spec hs
        exact apiSessionOf_addToken hnew ht
    | getCurrentApiSession =>
      obtain ⟨f, rfl⟩ | ⟨session, s', hs, rfl⟩ := exec_getCurrentApiSession h
      · exact ht
      · obtain ⟨api, -, controller, ⟨-, rfl⟩ | ⟨hnew, rfl⟩, rfl⟩ := extendApiSession_spec hs
        · exact ht
        · exact apiSessionOf_addToken hnew ht
    | postTokenExchange =>
      obtain ⟨f, rfl⟩ | ⟨tokens, s', hs, rfl⟩ := exec_postTokenExchange h
      · exact ht
      · obtain ⟨api, -, hnew, rfl⟩ := exchangeTokens_spec hs
        exact apiSessionOf_addToken hnew ht
    | _ => cases hgrant
  · rw [Controller.apiSessionOf, ((exec_frame h).grants hgrant).1]
    exact ht

theorem exec_mintedUnder {c : Cmd V β} {r : β × TaskLog × ClientState V}
    (h : c.exec x l s = some r) {id : String} {n : Nat}
    (hid : s.controller.mintedUnder id = some n) : r.2.2.controller.mintedUnder id = some n := by
  by_cases hsession : c.part = .session
  · cases c with
    | postSession =>
      obtain ⟨f, rfl⟩ | ⟨detail, s', hs, rfl⟩ := exec_postSession h
      · exact hid
      · obtain ⟨api, -, hnew, rfl⟩ := createSession_spec hs
        have hne : (id == detail.id) = false := by
          rw [beq_eq_false_iff_ne]
          rintro rfl
          rw [hnew] at hid
          cases hid
        rw [Controller.mintedUnder, List.lookup_cons, hne]
        exact hid
    | _ => cases hsession
  · rw [Controller.mintedUnder, (exec_frame h).sessions hsession]
    exact hid

theorem exec_stored {c : Cmd V β} {r : β × TaskLog × ClientState V} (h : c.exec x l s = some r) :
    s.journal.stored ⊆ r.2.2.journal.stored := by
  by_cases htoken : c.part = .token
  · cases c with
    | storeToken token =>
      cases h
      exact List.subset_cons_self _ _
    | _ => cases htoken
  · rw [((exec_frame h).token htoken).2]
    exact List.Subset.refl _

end Known

end Cmd

theorem release_frame {V : Type} (l : TaskLog) (s : ClientState V) :
    Cmd.Frame .lock l l s (s.release l) := by
  unfold ClientState.release
  split <;> constructor <;> simp

theorem changeServices_spec {V : Type} {s s' : ClientState V} {change : List (Service V) × Int}
    (h : s.changeServices change = some s') :
    s.controller.lastChangeAt < change.2 ∧ s' = { s with
      controller := { s.controller with services := change.1, lastChangeAt := change.2 } } := by
  unfold ClientState.changeServices at h
  split_ifs at h with hlt
  exact ⟨hlt, (Option.some.inj h).symm⟩

end Noa.Edge.Client
