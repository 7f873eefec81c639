import Noa.Edge.ListenerManager.Passes
import Noa.Framework.Map

namespace Noa.Edge.ListenerManager
open Noa.Framework
open Noa.Framework.Program (lift)

variable {s s' : Manager} {a : Attempt} {router : String} {id : AttemptId}
  {maxTerminators : MaxTerminators}

section Live

theorem mem_pending : a ∈ s.pending ↔ s.attempts.pendingListens[a.router]? = some a.id := by
  rw [Manager.pending, List.mem_map]
  constructor
  · rintro ⟨⟨r, i⟩, hmem, rfl⟩
    exact Std.ExtTreeMap.mem_toList_iff_getElem?_eq_some.mp hmem
  · intro h
    exact ⟨(a.router, a.id), Std.ExtTreeMap.mem_toList_iff_getElem?_eq_some.mpr h, rfl⟩

theorem nodup_pending (s : Manager) : s.pending.Nodup := by
  refine (nodup_toList s.attempts.pendingListens).map fun e e' h => ?_
  exact Prod.ext (congrArg Attempt.router h) (congrArg Attempt.id h)

theorem mem_live : a ∈ s.live ↔
    a ∈ s.listeners ∨ s.attempts.pendingListens[a.router]? = some a.id ∧ a ∉ s.registered := by
  simp [Manager.live, mem_pending]

theorem live_length_le (s : Manager) :
    s.live.length ≤ s.listeners.length + s.attempts.pendingCount := by
  have hpending : s.pending.length = s.attempts.pendingCount := by
    rw [Manager.pending, List.length_map, Std.ExtTreeMap.length_toList]
    rfl
  have hfilter := List.length_filter_le (fun a => decide (a ∉ s.registered)) s.pending
  rw [Manager.live, List.length_append]
  omega

theorem live_register (hmark : s.attempts.pendingListens[a.router]? = some a.id)
    (hnew : a ∉ s.registered) (running : List Attempt) :
    { s with
      running := running
      listeners := s.listeners ++ [a]
      registered := s.registered ++ [a] : Manager }.live.Perm s.live := by
  let waiting := s.pending.filter fun b => b ∉ s.registered
  have hrest : (s.pending.filter fun b => b ∉ s.registered ++ [a]) = waiting.erase a := by
    rw [((nodup_pending s).filter _).erase_eq_filter, List.filter_filter]
    refine List.filter_congr fun b _ => Bool.eq_iff_iff.mpr ?_
    simp [and_comm]
  have ha : a ∈ waiting := List.mem_filter.mpr ⟨mem_pending.mpr hmark, by simpa using hnew⟩
  change (s.listeners ++ [a] ++ s.pending.filter fun b => b ∉ s.registered ++ [a]).Perm
    (s.listeners ++ waiting)
  rw [hrest, List.append_assoc, List.singleton_append]
  exact (List.perm_cons_erase ha).symm.append_left s.listeners

theorem live_markPending (hfree : s.attempts.pendingListens[router]? = none)
    (hnew : ⟨router, id⟩ ∉ s.registered) :
    { s with attempts := s.attempts.markPending router id : Manager }.live.Perm
      (⟨router, id⟩ :: s.live) := by
  let toAttempt : String × AttemptId → Attempt := fun e => ⟨e.1, e.2⟩
  have hperm : { s with attempts := s.attempts.markPending router id : Manager }.pending.Perm
      (⟨router, id⟩ :: s.pending) := (toList_insert_perm hfree id).map toAttempt
  have hfilter := hperm.filter fun b => decide (b ∉ s.registered)
  rw [List.filter_cons_of_pos (by simpa using hnew)] at hfilter
  exact (hfilter.append_left s.listeners).trans List.perm_middle

theorem live_clearPending (router : String) (id : AttemptId) :
    { s with attempts := s.attempts.clearPendingIfCurrent router id : Manager }.live.Subperm
      s.live := by
  by_cases hcur : s.attempts.pendingListens[router]? = some id
  · let toAttempt : String × AttemptId → Attempt := fun e => ⟨e.1, e.2⟩
    have hperm : s.pending.Perm (⟨router, id⟩ ::
        { s with attempts := s.attempts.clearPendingIfCurrent router id : Manager }.pending) := by
      rw [ListenAttempts.clearPendingIfCurrent, if_pos hcur]
      exact (toList_erase_perm hcur).map toAttempt
    have hsub := List.Subperm.cons_self.trans hperm.symm.subperm
    exact (List.subperm_append_left s.listeners).mpr (hsub.filter _)
  · rw [ListenAttempts.clearPendingIfCurrent, if_neg hcur]

theorem nodup_map_of_subperm {α β : Type*} {f : α → β} {l l' : List α} (h : l'.Subperm l)
    (hl : (l.map f).Nodup) : (l'.map f).Nodup := by
  obtain ⟨l₀, hperm, hsub⟩ := h
  exact (hperm.map f).nodup_iff.mp ((hsub.map f).nodup hl)

end Live

section Invariant

/-- What the counter, the marks and the records of attempts have to do with one another. -/
structure Accounted (s : Manager) : Prop where
  marked : ∀ a ∈ s.running, s.attempts.pendingListens[a.router]? = some a.id
  unregistered : ∀ a ∈ s.running, a ∉ s.registered
  started : ∀ a ∈ s.running, a ∈ s.launched
  launched : ∀ a ∈ s.registered, a ∈ s.launched
  known : ∀ a ∈ s.launched, a.id ∈ s.minted
  increasing : (s.minted.map (·.val)).Pairwise (· < ·)
  counted : ∀ id ∈ s.minted, id.val ≤ s.attempts.listenAttemptId

structure Limited (maxTerminators : MaxTerminators) (s : Manager) : Prop where
  limit : s.live.length ≤ maxTerminators.get
  single : (s.live.map (·.router)).Nodup

def Inv (maxTerminators : MaxTerminators) (s : Manager) : Prop :=
  Accounted s ∧ Limited maxTerminators s

theorem Limited.shrink (h : Limited maxTerminators s) (hlive : s'.live.Subperm s.live) :
    Limited maxTerminators s' :=
  ⟨hlive.length_le.trans h.limit, nodup_map_of_subperm hlive h.single⟩

theorem inv_new (maxTerminators : MaxTerminators) : Inv maxTerminators .new := by
  refine ⟨⟨nofun, nofun, nofun, nofun, nofun, .nil, nofun⟩, ?_, ?_⟩
  · exact Nat.zero_le _
  · exact .nil

/-- What the environment does: it launches no attempt and adds nothing to what is live. -/
structure Drift (s s' : Manager) : Prop where
  attempts : s'.attempts = s.attempts
  launched : s'.launched = s.launched
  minted : s'.minted = s.minted
  live : s'.live.Subperm s.live
  listeners : ∀ a ∈ s'.listeners, a ∈ s.listeners ∨ a ∈ s.running
  running : ∀ a ∈ s'.running, a ∈ s.running

theorem env_drift {e : ListenerEvent} (h : Accounted s) (he : e.apply s = some s') :
    Accounted s' ∧ Drift s s' := by
  cases e with
  | register a =>
    simp only [ListenerEvent.apply] at he
    split_ifs at he with ha
    cases he
    refine ⟨{ h with marked := ?_, unregistered := ?_, started := ?_, launched := ?_ }, rfl, rfl, rfl,
      (live_register (h.marked a ha) (h.unregistered a ha) _).subperm, ?_,
      fun b hb => List.mem_of_mem_filter hb⟩
    · intro b hb
      exact h.marked b (List.mem_of_mem_filter hb)
    · intro b hb hreg
      obtain ⟨hb, hne⟩ := List.mem_filter.mp hb
      obtain hreg | hreg := List.mem_append.mp hreg
      · exact h.unregistered b hb hreg
      · exact of_decide_eq_true hne (List.mem_singleton.mp hreg)
    · intro b hb
      exact h.started b (List.mem_of_mem_filter hb)
    · intro b hb
      obtain hb | hb := List.mem_append.mp hb
      · exact h.launched b hb
      · exact List.mem_singleton.mp hb ▸ h.started a ha
    · intro b hb
      obtain hb | hb := List.mem_append.mp hb
      · exact .inl hb
      · exact .inr (List.mem_singleton.mp hb ▸ ha)
  | giveUp a =>
    simp only [ListenerEvent.apply] at he
    split_ifs at he with ha
    cases he
    refine ⟨{ h with marked := ?_, unregistered := ?_, started := ?_ }, rfl, rfl, rfl, .refl _,
      fun b hb => .inl hb, fun b hb => List.mem_of_mem_filter hb⟩
    · intro b hb
      exact h.marked b (List.mem_of_mem_filter hb)
    · intro b hb
      exact h.unregistered b (List.mem_of_mem_filter hb)
    · intro b hb
      exact h.started b (List.mem_of_mem_filter hb)
  | close a =>
    cases he
    refine ⟨{ h with }, rfl, rfl, rfl, ?_, fun b hb => .inl (List.mem_of_mem_erase hb),
      fun b hb => hb⟩
    exact (List.erase_sublist.append (.refl _)).subperm
  | closeParent =>
    cases he
    exact ⟨{ h with }, rfl, rfl, rfl, .refl _, fun b hb => .inl hb, fun b hb => hb⟩

theorem stable_of_drift {P : Manager → Prop}
    (hP : ∀ s s', Accounted s → Drift s s' → P s → P s') :
    runtime.Stable fun s => Inv maxTerminators s ∧ P s := by
  rintro e s s' he ⟨⟨hacc, hlim⟩, hp⟩
  obtain ⟨hacc', hdrift⟩ := env_drift hacc he
  exact ⟨⟨hacc', hlim.shrink hdrift.live⟩, hP s s' hacc hdrift hp⟩

theorem stable_inv : runtime.Stable (Inv maxTerminators) := by
  rintro e s s' he ⟨hacc, hlim⟩
  obtain ⟨hacc', hdrift⟩ := env_drift hacc he
  exact ⟨hacc', hlim.shrink hdrift.live⟩

/-- Nothing the invariant is about is different. -/
structure Same (s s' : Manager) : Prop where
  pendingListens : s'.attempts.pendingListens = s.attempts.pendingListens
  listenAttemptId : s'.attempts.listenAttemptId = s.attempts.listenAttemptId
  listeners : s'.listeners = s.listeners
  running : s'.running = s.running
  launched : s'.launched = s.launched
  registered : s'.registered = s.registered
  minted : s'.minted = s.minted

theorem Same.live (h : Same s s') : s'.live = s.live := by
  rw [Manager.live, Manager.live, Manager.pending, Manager.pending, h.pendingListens, h.listeners,
    h.registered]

theorem Same.inv (h : Same s s') (hs : Inv maxTerminators s) : Inv maxTerminators s' := by
  obtain ⟨hacc, hlim⟩ := hs
  refine ⟨⟨?_, ?_, ?_, ?_, ?_, ?_, ?_⟩, ?_, ?_⟩
  · rw [h.running, h.pendingListens]
    exact hacc.marked
  · rw [h.running, h.registered]
    exact hacc.unregistered
  · rw [h.running, h.launched]
    exact hacc.started
  · rw [h.registered, h.launched]
    exact hacc.launched
  · rw [h.launched, h.minted]
    exact hacc.known
  · rw [h.minted]
    exact hacc.increasing
  · rw [h.minted, h.listenAttemptId]
    exact hacc.counted
  · rw [h.live]
    exact hlim.limit
  · rw [h.live]
    exact hlim.single

/-- The commands of a scan. -/
def Cmd.isQuiet {β : Type} : Cmd β → Bool
  | .nextAttemptId | .markPending _ _ | .clearPendingIfCurrent _ _ | .createListener _ => false
  | _ => true

theorem exec_same {β : Type} {c : Cmd β} {x : Choice} {r : β × Manager}
    (hx : runtime.exec c x s = some r) (hc : c.isQuiet = true) : Same s r.2 := by
  change c.exec x s = some r at hx
  cases c with
  | now =>
    simp only [Cmd.exec] at hx
    split at hx
    · split_ifs at hx
      cases hx
      exact ⟨rfl, rfl, rfl, rfl, rfl, rfl, rfl⟩
    · cases hx
  | filter f url =>
    simp only [Cmd.exec] at hx
    split at hx
    · cases hx
      exact ⟨rfl, rfl, rfl, rfl, rfl, rfl, rfl⟩
    · cases hx
  | nextAttemptId | markPending | clearPendingIfCurrent | createListener => cases hc
  | _ =>
    cases hx
    exact ⟨rfl, rfl, rfl, rfl, rfl, rfl, rfl⟩

end Invariant

section Scan

abbrev Quiet (γ : Type) (c : Cmd γ) : Prop := c.isQuiet = true

variable {filter : Option EdgeRouterUrlFilter}

theorem quiet_needsMore : (needsMore maxTerminators).Issues Quiet :=
  .call rfl fun _ => .call rfl fun _ => .call rfl fun _ => trivial

theorem quiet_isUrlUsable (url : String) : (isUrlUsable filter url).Issues Quiet := by
  unfold isUrlUsable isEdgeRouterUrlAccepted
  split_ifs
  · cases filter with
    | none => trivial
    | some f => exact .call rfl fun _ => trivial
  · trivial

theorem quiet_scanUrls (routerName : String) (urls : List String) (requests : List ConnectRequest) :
    (scanUrls filter maxTerminators routerName urls requests).Issues Quiet := by
  induction urls generalizing requests with
  | nil => trivial
  | cons url urls ih =>
    simp only [scanUrls, Program.lift_bind]
    refine (quiet_isUrlUsable url).bind fun usable => ?_
    split_ifs
    · refine .call rfl fun now => .call rfl fun inProgress => ?_
      split_ifs
      · exact ih requests
      · refine .call rfl fun startedAt => .call rfl fun _ => .call rfl fun _ => ?_
        refine quiet_needsMore.bind fun more => ?_
        split_ifs
        · exact ih _
        · trivial
    · exact ih requests

theorem quiet_scanRouters (routers : List Client.SessionEdgeRouter) (requests : List ConnectRequest) :
    (scanRouters filter maxTerminators routers requests).Issues Quiet := by
  induction routers generalizing requests with
  | nil => trivial
  | cons edgeRouter routers ih =>
    simp only [scanRouters, Program.lift_bind]
    refine .call rfl fun hasListener => .call rfl fun skip => ?_
    split_ifs
    · exact ih requests
    · refine (quiet_scanUrls _ _ _).bind fun r => ?_
      split
      · exact ih _
      · trivial

theorem quiet_makeMoreListeners (session : Option Client.SessionDetail) :
    (makeMoreListeners filter maxTerminators session).Issues Quiet := by
  cases session with
  | none => trivial
  | some session =>
    refine quiet_needsMore.bind fun more => ?_
    split_ifs
    · exact quiet_scanRouters _ _
    · trivial

end Scan

section ConnectResult

/-- The router has neither a mark nor a listener. -/
def Absent (router : String) (s : Manager) : Prop :=
  s.attempts.pendingListens[router]? = none ∧ ∀ a ∈ s.listeners, a.router ≠ router

theorem Absent.drift (hacc : Accounted s) (hd : Drift s s') (h : Absent router s) :
    Absent router s' := by
  refine ⟨hd.attempts ▸ h.1, fun a ha hr => ?_⟩
  obtain ha | ha := hd.listeners a ha
  · exact h.2 a ha hr
  · -- whoever registers has a mark
    have hmark := hacc.marked a ha
    rw [hr, h.1] at hmark
    cases hmark

theorem absent_of_sample (h : s.hasListenerForRouter router = false)
    (hpending : s.attempts.pendingListens[router]? = none) : Absent router s := by
  refine ⟨hpending, fun a ha hr => ?_⟩
  have hall := List.any_eq_false.mp h a ha
  exact hall (by simp [hr])

theorem not_mem_live (h : Absent router s) : router ∉ s.live.map (·.router) := by
  rw [List.mem_map]
  rintro ⟨a, ha, rfl⟩
  obtain ha | ⟨hmark, -⟩ := mem_live.mp ha
  · exact h.2 a ha rfl
  · rw [h.1] at hmark
    cases hmark

theorem lt_of_needsMoreListeners {isClosed : Bool} {n m : Nat}
    (h : needsMoreListeners isClosed n m maxTerminators = true) : n + m < maxTerminators.get := by
  have hlt := of_decide_eq_true (Bool.and_eq_true_iff.mp h).2
  have hfits := maxTerminators.fits
  unfold saturatingAdd at hlt
  omega

theorem guarded_needsMore {P : Manager → Prop} (hP : ∀ s s', Accounted s → Drift s s' → P s → P s')
    (hs : Inv maxTerminators s ∧ P s) :
    Guarded runtime (Inv maxTerminators)
      (fun more s' => Inv maxTerminators s' ∧ P s' ∧ (more = true → s'.live.length < maxTerminators.get))
      (needsMore maxTerminators) s := by
  refine Guarded.call (stable_of_drift hP) hs fun s₁ h₁ x r hx => ?_
  cases hx
  refine ⟨h₁.1, Guarded.call (stable_of_drift hP) h₁ fun s₂ h₂ x r hx => ?_⟩
  cases hx
  have hbound : ∀ s s', Accounted s → Drift s s' →
      P s ∧ s.live.length ≤ s₂.listeners.length + s.attempts.pendingCount →
      P s' ∧ s'.live.length ≤ s₂.listeners.length + s'.attempts.pendingCount := by
    rintro s s' hacc hd ⟨hp, hle⟩
    refine ⟨hP s s' hacc hd hp, ?_⟩
    rw [hd.attempts]
    exact hd.live.length_le.trans hle
  refine ⟨h₂.1, Guarded.call (stable_of_drift hbound) ⟨h₂.1, h₂.2, live_length_le s₂⟩ ?_⟩
  rintro s₃ ⟨hinv, hp, hle⟩ x r hx
  cases hx
  refine ⟨hinv, hinv, hp, fun hmore => ?_⟩
  exact hle.trans_lt (lt_of_needsMoreListeners hmore)

/-- The attempt is marked, and nobody has seen it. -/
structure Launchable (a : Attempt) (s : Manager) : Prop where
  marked : s.attempts.pendingListens[a.router]? = some a.id
  minted : a.id ∈ s.minted
  fresh : a ∉ s.launched

/-- The id has just been minted. -/
structure Fresh (id : AttemptId) (s : Manager) : Prop where
  minted : id ∈ s.minted
  fresh : ∀ a ∈ s.launched, a.id ≠ id

theorem nextAttemptId_val {t t' : ListenAttempts} (h : t.nextAttemptId = some (id, t')) :
    t' = { t with listenAttemptId := id.val } ∧ t.listenAttemptId < id.val := by
  unfold ListenAttempts.nextAttemptId at h
  split_ifs at h with hne
  cases h
  refine ⟨rfl, ?_⟩
  rw [UInt64.lt_iff_toNat_lt, UInt64.toNat_add]
  have hlt := t.listenAttemptId.toNat_lt
  have hne' : (t.listenAttemptId + 1).toNat ≠ 0 := fun h0 => hne (UInt64.toNat_inj.mp h0)
  rw [UInt64.toNat_add] at hne'
  have hone : (1 : UInt64).toNat = 1 := rfl
  omega

theorem mint_inv {t' : ListenAttempts} (h : Inv maxTerminators s)
    (hid : s.attempts.nextAttemptId = some (id, t')) :
    Inv maxTerminators { s with attempts := t', minted := s.minted ++ [id] } ∧
      Fresh id { s with attempts := t', minted := s.minted ++ [id] } := by
  obtain ⟨rfl, hlt⟩ := nextAttemptId_val hid
  obtain ⟨hacc, hlim⟩ := h
  have hbelow (i : AttemptId) (hi : i ∈ s.minted) : i.val < id.val :=
    UInt64.lt_of_le_of_lt (hacc.counted i hi) hlt
  refine ⟨⟨{ hacc with known := ?_, increasing := ?_, counted := ?_ }, hlim.limit, hlim.single⟩, ?_, ?_⟩
  · intro a ha
    exact List.mem_append_left _ (hacc.known a ha)
  · rw [List.map_append, List.pairwise_append]
    refine ⟨hacc.increasing, List.pairwise_singleton _ _, ?_⟩
    intro u hu v hv
    obtain ⟨i, hi, rfl⟩ := List.mem_map.mp hu
    rw [List.mem_singleton.mp hv]
    exact hbelow i hi
  · intro i hi
    obtain hi | hi := List.mem_append.mp hi
    · exact UInt64.le_of_lt (hbelow i hi)
    · rw [List.mem_singleton.mp hi]
      exact UInt64.le_refl _
  · exact List.mem_append_right _ (List.mem_singleton.mpr rfl)
  · intro a ha heq
    have hself := hbelow a.id (hacc.known a ha)
    rw [heq] at hself
    exact UInt64.lt_irrefl _ hself

theorem mark_inv (h : Inv maxTerminators s) (habsent : Absent router s)
    (hroom : s.live.length < maxTerminators.get) (hid : Fresh id s) :
    Inv maxTerminators { s with attempts := s.attempts.markPending router id } ∧
      Launchable ⟨router, id⟩ { s with attempts := s.attempts.markPending router id } := by
  obtain ⟨hacc, hlim⟩ := h
  have hfresh : ⟨router, id⟩ ∉ s.launched := fun hmem => hid.fresh _ hmem rfl
  have hlive := live_markPending habsent.1 (fun hreg => hfresh (hacc.launched _ hreg))
  refine ⟨⟨{ hacc with marked := ?_ }, ?_, ?_⟩, ?_, hid.minted, hfresh⟩
  · intro a ha
    have hmark := hacc.marked a ha
    change (s.attempts.pendingListens.insert router id)[a.router]? = some a.id
    rw [lookup_insert, if_neg, hmark]
    rintro rfl
    rw [habsent.1] at hmark
    cases hmark
  · rw [hlive.length_eq]
    exact hroom
  · rw [(hlive.map _).nodup_iff, List.map_cons, List.nodup_cons]
    exact ⟨not_mem_live habsent, hlim.single⟩
  · change (s.attempts.pendingListens.insert router id)[router]? = some id
    rw [lookup_insert, if_pos rfl]

theorem launch_inv (h : Inv maxTerminators s) (ha : Launchable a s) :
    Inv maxTerminators { s with running := s.running ++ [a], launched := s.launched ++ [a] } := by
  obtain ⟨hacc, hlim⟩ := h
  refine ⟨{ hacc with marked := ?_, unregistered := ?_, started := ?_, launched := ?_, known := ?_ },
    hlim.limit, hlim.single⟩
  · intro b hb
    obtain hb | hb := List.mem_append.mp hb
    · exact hacc.marked b hb
    · rw [List.mem_singleton.mp hb]
      exact ha.marked
  · intro b hb
    obtain hb | hb := List.mem_append.mp hb
    · exact hacc.unregistered b hb
    · rw [List.mem_singleton.mp hb]
      exact fun hreg => ha.fresh (hacc.launched a hreg)
  · intro b hb
    obtain hb | hb := List.mem_append.mp hb
    · exact List.mem_append_left _ (hacc.started b hb)
    · exact List.mem_append_right _ hb
  · intro b hb
    exact List.mem_append_left _ (hacc.launched b hb)
  · intro b hb
    obtain hb | hb := List.mem_append.mp hb
    · exact hacc.known b hb
    · rw [List.mem_singleton.mp hb]
      exact ha.minted

theorem clear_inv (h : Inv maxTerminators s) (hsettled : s.settled a = true) :
    Inv maxTerminators
      { s with attempts := s.attempts.clearPendingIfCurrent a.router a.id } := by
  obtain ⟨hacc, hlim⟩ := h
  have ha : a ∉ s.running := by
    have := (Bool.and_eq_true_iff.mp hsettled).2
    simpa using this
  refine ⟨{ hacc with marked := ?_, counted := ?_ }, hlim.shrink (live_clearPending _ _)⟩
  · intro b hb
    have hmark := hacc.marked b hb
    unfold ListenAttempts.clearPendingIfCurrent
    split_ifs with hcur
    · change (s.attempts.pendingListens.erase a.router)[b.router]? = some b.id
      rw [lookup_erase, if_neg, hmark]
      intro hr
      -- the mark of a running attempt is its own
      rw [hr, hmark] at hcur
      have hab : b = a := by
        cases a
        cases b
        simp_all
      exact ha (hab ▸ hb)
    · exact hmark
  · intro i hi
    unfold ListenAttempts.clearPendingIfCurrent
    split_ifs <;> exact hacc.counted i hi

theorem Launchable.drift (hd : Drift s s') (h : Launchable a s) : Launchable a s' :=
  ⟨hd.attempts ▸ h.marked, hd.minted ▸ h.minted, hd.launched ▸ h.fresh⟩

theorem Fresh.drift (hd : Drift s s') (h : Fresh id s) : Fresh id s' :=
  ⟨hd.minted ▸ h.minted, hd.launched ▸ h.fresh⟩

theorem settled_drift (hd : Drift s s') (h : s.settled a = true) : s'.settled a = true := by
  simp only [Manager.settled, Bool.and_eq_true, Bool.not_eq_true',
    List.contains_eq_mem, decide_eq_false_iff_not, decide_eq_true_eq] at h ⊢
  exact ⟨hd.launched ▸ h.1, fun hr => h.2 (hd.running a hr)⟩

theorem guarded_handleRouterConnectResult (routerUrl routerName : String)
    (hs : Inv maxTerminators s) :
    Guarded runtime (Inv maxTerminators)
      (fun r s' => Inv maxTerminators s' ∧ ∀ id, r = some id → Launchable ⟨routerName, id⟩ s')
      (handleRouterConnectResult maxTerminators routerUrl (some routerName)) s := by
  simp only [handleRouterConnectResult, Program.lift_bind]
  refine Guarded.call stable_inv hs fun s₁ h₁ x r hx => ?_
  have hinv := (exec_same hx rfl).inv h₁
  refine ⟨hinv, Guarded.call stable_inv hinv fun s₂ h₂ x r hx => ?_⟩
  have hinv := (exec_same hx rfl).inv h₂
  cases hx
  -- no listener when asked, and nobody without a mark can have registered one since
  have hsample : ∀ s s', Accounted s → Drift s s' →
      (s₂.hasListenerForRouter routerName = false →
        s.attempts.pendingListens[routerName]? = none → Absent routerName s) →
      s₂.hasListenerForRouter routerName = false →
        s'.attempts.pendingListens[routerName]? = none → Absent routerName s' := by
    intro s s' hacc hd h hno hmark
    exact (h hno (hd.attempts ▸ hmark)).drift hacc hd
  refine ⟨hinv, Guarded.call (stable_of_drift hsample) ⟨hinv, absent_of_sample⟩ ?_⟩
  rintro s₃ ⟨h₃, habsent⟩ x r hx
  cases hx
  refine ⟨h₃, ?_⟩
  split_ifs with hskip
  · exact ⟨h₃, nofun⟩
  · simp only [ListenAttempts.shouldSkipRouter, ListenAttempts.isPending, Bool.or_eq_true, not_or,
      Bool.not_eq_true, Std.ExtTreeMap.contains_eq_isSome_getElem?, Option.isSome_eq_false_iff,
      Option.isNone_iff_eq_none] at hskip
    have habsent := habsent hskip.1 hskip.2
    refine Guarded.bind (WP.mono (guarded_needsMore (fun _ _ => Absent.drift) ⟨h₃, habsent⟩) ?_)
    rintro more s₄ ⟨h₄, habsent, hroom⟩
    split_ifs with hmore
    · have hdrift : ∀ s s', Accounted s → Drift s s' →
          Absent routerName s ∧ s.live.length < maxTerminators.get →
          Absent routerName s' ∧ s'.live.length < maxTerminators.get :=
        fun s s' hacc hd h => ⟨h.1.drift hacc hd, hd.live.length_le.trans_lt h.2⟩
      refine Guarded.call (stable_of_drift hdrift) ⟨h₄, habsent, hroom hmore⟩ ?_
      rintro s₅ ⟨h₅, habsent, hroom⟩ x r hx
      obtain ⟨⟨id, t'⟩, hid, rfl⟩ := Option.map_eq_some_iff.mp hx
      obtain ⟨h₅, hfresh⟩ := mint_inv h₅ hid
      obtain ⟨rfl, -⟩ := nextAttemptId_val hid
      refine ⟨h₅, Guarded.call (stable_of_drift (P := fun s => (Absent routerName s ∧
        s.live.length < maxTerminators.get) ∧ Fresh id s) fun s s' hacc hd h =>
          ⟨hdrift s s' hacc hd h.1, h.2.drift hd⟩) ⟨h₅, ⟨habsent, hroom⟩, hfresh⟩ ?_⟩
      rintro s₆ ⟨h₆, ⟨habsent, hroom⟩, hfresh⟩ x r hx
      cases hx
      obtain ⟨h₆, hlaunch⟩ := mark_inv h₆ habsent hroom hfresh
      refine ⟨h₆, h₆, fun id' hid' => ?_⟩
      obtain rfl := Option.some.inj hid'
      exact hlaunch
    · exact ⟨h₄, nofun⟩

end ConnectResult

section Run

/-- Every pass keeps the invariant, whatever happens between its commands. -/
theorem guarded_pass (p : Pass) (hs : Inv maxTerminators s) (harr : p.arrives s = some s') :
    Inv maxTerminators s' ∧
      Guarded runtime (Inv maxTerminators) (fun _ _ => True) (p.prog maxTerminators) s' := by
  have hevent (a : Attempt) (hs' : Inv maxTerminators s') (hsettled : s'.settled a = true) :
      Guarded runtime (Inv maxTerminators) (fun _ _ => True)
        (lift (.clearPendingIfCurrent a.router a.id)) s' := by
    refine Guarded.call (stable_of_drift fun _ _ _ => settled_drift) ⟨hs', hsettled⟩ ?_
    rintro s₁ ⟨h₁, hsettled⟩ x r hx
    cases hx
    exact ⟨clear_inv h₁ hsettled, trivial⟩
  have hrecord : Inv maxTerminators (s.record (.pass p)) :=
    Same.inv (s := s) ⟨rfl, rfl, rfl, rfl, rfl, rfl, rfl⟩ hs
  cases p with
  | scan session filter =>
    cases harr
    refine ⟨hrecord, Guarded.bind (WP.mono (Guarded.of_issues stable_inv (fun _ h => h) ?_
      (quiet_makeMoreListeners session) hrecord) fun _ _ _ => trivial)⟩
    intro γ c hc x s r hs hx
    exact (exec_same hx hc).inv hs
  | connectResult routerUrl connectedRouterName =>
    cases harr
    refine ⟨hrecord, ?_⟩
    cases connectedRouterName with
    | none =>
      refine Guarded.call stable_inv hrecord fun s₁ h₁ x r hx => ?_
      exact ⟨(exec_same hx rfl).inv h₁, trivial⟩
    | some routerName =>
      refine Guarded.bind (WP.mono (guarded_handleRouterConnectResult routerUrl routerName hrecord) ?_)
      rintro (_ | id) s₁ ⟨h₁, hlaunch⟩
      · trivial
      · refine Guarded.call (stable_of_drift fun _ _ _ => Launchable.drift) ⟨h₁, hlaunch id rfl⟩ ?_
        rintro s₂ ⟨h₂, hlaunch⟩ x r hx
        cases hx
        exact ⟨launch_inv h₂ hlaunch, trivial⟩
  | listenSuccess a | listenFailed a =>
    simp only [Pass.arrives] at harr
    split_ifs at harr with hsettled
    cases harr
    exact ⟨hrecord, hevent a hrecord hsettled⟩

theorem run_limited {as : List Act} {l : Loop Cmd Manager}
    (hrun : run (step maxTerminators) start as = some l) : Inv maxTerminators l.state :=
  Loop.run_inv stable_inv (fun p _ _ hs harr => guarded_pass p hs harr) (inv_new _) hrun

theorem terminator_limit (maxTerminators maxConnections : Int32) {as : List Act}
    {l : Loop Cmd Manager}
    (hrun : run (step (.resolve maxTerminators maxConnections)) start as = some l) :
    l.state.live.length ≤ (MaxTerminators.resolve maxTerminators maxConnections).get ∧
      (l.state.live.map (·.router)).Nodup ∧
      (∀ a ∈ l.state.running, a ∈ l.state.live) ∧
      (l.state.minted.map (·.val)).Pairwise (· < ·) ∧
      ∀ (p : Pass) (a : Attempt) (x : Choice) (l' : Loop Cmd Manager),
        p = .listenSuccess a ∨ p = .listenFailed a →
        l.prog = p.prog (.resolve maxTerminators maxConnections) →
        step (.resolve maxTerminators maxConnections) l (.go x) = some l' →
        ∀ router id, l.state.attempts.pendingListens[router]? = some id → ⟨router, id⟩ ≠ a →
          l'.state.attempts.pendingListens[router]? = some id := by
  obtain ⟨hacc, hlim⟩ := run_limited hrun
  refine ⟨hlim.limit, hlim.single, ?_, hacc.increasing, ?_⟩
  · intro a ha
    exact mem_live.mpr (.inr ⟨hacc.marked a ha, hacc.unregistered a ha⟩)
  · intro p a x l' hp hprog hstep router id hmark hne
    obtain ⟨γ, c, k, r, hk, hx, rfl⟩ := Loop.step_go hstep
    have hclear : l.prog = lift (.clearPendingIfCurrent a.router a.id) := by
      obtain rfl | rfl := hp <;> exact hprog
    cases hk.symm.trans hclear
    cases hx
    change (l.state.attempts.clearPendingIfCurrent a.router a.id).pendingListens[router]? = some id
    unfold ListenAttempts.clearPendingIfCurrent
    split_ifs with hcur
    · rw [lookup_erase, if_neg, hmark]
      rintro rfl
      rw [hmark] at hcur
      exact hne (by rw [Option.some.inj hcur])
    · exact hmark

/-- The steps of a connect result that ends in a launched attempt. -/
def mintActs (url router : String) : List Act :=
  .start (.connectResult url (some router)) :: List.replicate 9 (.go .done)

def firstAttempt : Attempt := ⟨"r", ⟨1, by decide⟩⟩

/-- With a cap of one, an attempt registers, succeeds and loses its listener; while the next attempt
is pending, the first one's success comes again. -/
theorem terminator_limit_stale :
    ∃ l, run (step (.resolve 1 0)) start (mintActs "tls:a:1" "r" ++
        [.env (.register firstAttempt), .start (.listenSuccess firstAttempt), .go .done,
          .env (.close firstAttempt)] ++ mintActs "tls:a:1" "r" ++
        [.start (.listenSuccess firstAttempt), .go .done]) = some l ∧
      l.state.minted.map (·.val) = [1, 2] ∧
      l.state.attempts.pendingListens["r"]?.map (·.val) = some 2 ∧
      l.state.live.length ≤ (MaxTerminators.resolve 1 0).get := by
  obtain ⟨l, hl, h⟩ := Option.map_eq_some_iff.mp
    (show (run (step (.resolve 1 0)) start (mintActs "tls:a:1" "r" ++
        [.env (.register firstAttempt), .start (.listenSuccess firstAttempt), .go .done,
          .env (.close firstAttempt)] ++ mintActs "tls:a:1" "r" ++
        [.start (.listenSuccess firstAttempt), .go .done])).map
      (fun l => (l.state.minted.map (·.val), l.state.attempts.pendingListens["r"]?.map (·.val))) =
        some ([1, 2], some 2) by decide +kernel)
  exact ⟨l, hl, congrArg Prod.fst h, congrArg Prod.snd h, (terminator_limit 1 0 hl).1⟩

end Run

end Noa.Edge.ListenerManager
