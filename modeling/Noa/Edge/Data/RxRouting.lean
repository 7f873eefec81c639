import Noa.Edge.Data.RxLoop

namespace Noa.Edge.Data
open Noa.Framework Noa.Channel

/-- `owner` may take `msg`: the queue was created for the connection id the frame carries, in
the table its content type is routed by. -/
def Routes (owner : Option Owner) (msg : Message) : Prop :=
  ∃ connId, headerU32 msg hdrConnId = some connId ∧
    ((msg.contentType = ctData ∧ owner = some (.conn connId)) ∨
      (msg.contentType = ctDial ∧ owner = some (.bind connId)) ∨
      (msg.contentType = ctStateClosed ∧
        (owner = some (.conn connId) ∨ owner = some (.bind connId))))

/-- What is known of the frame the loop holds. -/
def Pc.Routed (owners : SenderId → Option Owner) : Pc → Prop
  | .correlate f k => headerI32 f.msg hdrReplyFor = some k
  | .inspectConns f _ => f.msg.contentType = ctConnInspectRequest
  | .inspectBinds f _ => f.msg.contentType = ctConnInspectRequest
  | .lookupConns f connId => headerU32 f.msg hdrConnId = some connId ∧
      (f.msg.contentType = ctData ∨ f.msg.contentType = ctStateClosed)
  | .lookupBinds f connId => headerU32 f.msg hdrConnId = some connId ∧
      (f.msg.contentType = ctDial ∨ f.msg.contentType = ctStateClosed)
  | .checkClosed f tx => Routes (owners tx) f.msg
  | .sending f tx => Routes (owners tx) f.msg
  | .reading => True
  | .stopped => True

/-- What is known of a frame that was handed over. -/
def Dest.Routed (owners : SenderId → Option Owner) (f : Frame) : Dest → Prop
  | .waiter _ => ∃ k, headerI32 f.msg hdrReplyFor = some k
  | .queue tx => Routes (owners tx) f.msg
  | .inspect _ => f.msg.contentType = ctConnInspectRequest

theorem Pc.Routed.mono {owners owners' : SenderId → Option Owner}
    (h : ∀ q o, owners q = some o → owners' q = some o) {pc : Pc} (hp : pc.Routed owners) :
    pc.Routed owners' := by
  cases pc <;> simp only [Pc.Routed, Routes] at hp ⊢ <;> grind

theorem Dest.Routed.mono {owners owners' : SenderId → Option Owner}
    (h : ∀ q o, owners q = some o → owners' q = some o) {f : Frame} {d : Dest}
    (hd : d.Routed owners f) : d.Routed owners' f := by
  cases d <;> simp only [Dest.Routed, Routes] at hd ⊢ <;> grind

theorem routeFrame_routed (owners : SenderId → Option Owner) (f : Frame) :
    (routeFrame f).Routed owners := by
  unfold routeFrame
  split
  · trivial
  · next connId hid =>
    split_ifs with hi hd ha hc
    · exact hi
    · exact ⟨hid, .inl hd⟩
    · exact ⟨hid, .inl ha⟩
    · exact ⟨hid, .inr hc⟩
    · trivial

theorem startFrame_routed (owners : SenderId → Option Owner) (f : Frame) :
    (startFrame f).Routed owners := by
  unfold startFrame
  split
  · next hk => exact hk
  · exact routeFrame_routed owners f

/-- The frame the loop holds. -/
def Pc.frame? : Pc → Option Frame
  | .correlate f _ => some f
  | .inspectConns f _ => some f
  | .inspectBinds f _ => some f
  | .lookupConns f _ => some f
  | .lookupBinds f _ => some f
  | .checkClosed f _ => some f
  | .sending f _ => some f
  | .reading => none
  | .stopped => none

theorem frame?_routeFrame {f g : Frame} (h : (routeFrame f).frame? = some g) : g = f := by
  unfold routeFrame at h
  split at h
  · cases h
  · split_ifs at h <;> cases h <;> rfl

theorem frame?_startFrame {f g : Frame} (h : (startFrame f).frame? = some g) : g = f := by
  unfold startFrame at h
  split at h
  · cases h
    rfl
  · exact frame?_routeFrame h

namespace RxState

def owners (s : RxState) : SenderId → Option Owner := fun q => (s.queues q).owner

theorem owners_setQueue {s : RxState} {tx : SenderId} {q : Queue}
    (h : q.owner = (s.queues tx).owner) : (s.setQueue tx q).owners = s.owners := by
  funext t
  simp only [owners, setQueue, Function.update_apply]
  split_ifs with ht
  · rw [ht, h]
  · rfl

/-- Registrations point at the queue created for them, and every frame on its way or handed
over obeys the routing table. -/
structure Routing (s : RxState) : Prop where
  fresh : s.chan.Fresh
  uncreated : ∀ q, s.chan.senders ≤ q → s.owners q = none
  connOwner : ∀ (k : UInt32) (q : SenderId),
    s.chan.conns[k]? = some q → s.owners q = some (.conn k)
  bindOwner : ∀ (k : UInt32) (q : SenderId),
    s.chan.binds[k]? = some q → s.owners q = some (.bind k)
  pc : s.pc.Routed s.owners
  delivered : ∀ d ∈ s.delivered, d.2.Routed s.owners d.1

theorem routing_new : Routing new :=
  ⟨ChannelState.fresh_new, fun _ _ => rfl, by simp [new, ChannelState.new],
    by simp [new, ChannelState.new], trivial, by simp [new]⟩

@[simp] theorem accessStep_chan (s : RxState) (a : Access) :
    (s.accessStep a).chan = s.chan.access a := by
  cases a <;> rfl

@[simp] theorem accessStep_pc (s : RxState) (a : Access) : (s.accessStep a).pc = s.pc := by
  cases a <;> rfl

@[simp] theorem accessStep_delivered (s : RxState) (a : Access) :
    (s.accessStep a).delivered = s.delivered := by
  cases a <;> rfl

@[simp] theorem accessStep_inbound (s : RxState) (a : Access) :
    (s.accessStep a).inbound = s.inbound := by
  cases a <;> rfl

theorem accessStep_queues {s : RxState} {a : Access} {q : SenderId} (h : q ≠ s.chan.senders) :
    (s.accessStep a).queues q = s.queues q := by
  cases a <;> simp [accessStep, setQueue, h]

theorem accessStep_queues_of_le {s : RxState} {a : Access} {q : SenderId}
    (h : (s.chan.access a).senders ≤ q) : (s.accessStep a).queues q = s.queues q := by
  have hne (h' : s.chan.senders + 1 ≤ q) : q ≠ s.chan.senders := Nat.ne_of_gt h'
  cases a with
  | registerConn connId | registerBind connId =>
    exact accessStep_queues (hne (by simpa [ChannelState.access, ChannelState.newSender] using h))
  | _ => rfl

theorem Routing.access {s : RxState} (h : s.Routing) (a : Access) : (s.accessStep a).Routing := by
  have hmono : ∀ q o, s.owners q = some o → (s.accessStep a).owners q = some o := by
    intro q o hq
    have hlt : q ≠ s.chan.senders := by
      rintro rfl
      rw [h.uncreated _ le_rfl] at hq
      cases hq
    simpa only [owners, accessStep_queues hlt] using hq
  refine ⟨?_, fun q hq => ?_, fun k q hq => ?_, fun k q hq => ?_, ?_, ?_⟩
  · rw [accessStep_chan]
    exact ChannelState.fresh_access h.fresh a
  · rw [accessStep_chan] at hq
    rw [owners, accessStep_queues_of_le hq]
    exact h.uncreated q (ChannelState.senders_le_access.trans hq)
  · rw [accessStep_chan] at hq
    rcases ChannelState.access_conns hq with hold | ⟨rfl, rfl⟩
    · exact hmono q _ (h.connOwner k q hold)
    · simp [owners, accessStep, setQueue]
  · rw [accessStep_chan] at hq
    rcases ChannelState.access_binds hq with hold | ⟨rfl, rfl⟩
    · exact hmono q _ (h.bindOwner k q hold)
    · simp [owners, accessStep, setQueue]
  · rw [accessStep_pc]
    exact h.pc.mono hmono
  · rw [accessStep_delivered]
    exact fun d hd => (h.delivered d hd).mono hmono

theorem Routing.setPc {s : RxState} (h : s.Routing) {pc : Pc} (hp : pc.Routed s.owners) :
    Routing { s with pc := pc } :=
  ⟨h.fresh, h.uncreated, h.connOwner, h.bindOwner, hp, h.delivered⟩

theorem Routing.deliver {s : RxState} (h : s.Routing) {f : Frame} {d : Dest}
    (hd : d.Routed s.owners f) : (s.deliver f d).Routing := by
  refine ⟨h.fresh, h.uncreated, h.connOwner, h.bindOwner, trivial, fun e he => ?_⟩
  rcases List.mem_append.mp he with hold | hnew
  · exact h.delivered e hold
  · rw [List.mem_singleton] at hnew
    subst hnew
    exact hd

theorem Routing.setQueue {s : RxState} (h : s.Routing) {tx : SenderId} {q : Queue}
    (ho : q.owner = (s.queues tx).owner) : (s.setQueue tx q).Routing := by
  have howners := owners_setQueue ho
  refine ⟨h.fresh, ?_, ?_, ?_, ?_, ?_⟩ <;> rw [howners]
  · exact h.uncreated
  · exact h.connOwner
  · exact h.bindOwner
  · exact h.pc
  · exact h.delivered

theorem Routing.rx {s s' : RxState} (h : s.Routing) (hr : Rx s s') : s'.Routing := by
  have hpcR := h.pc
  cases hr with
  | @correlated f k tx hpc hw =>
    rw [hpc] at hpcR
    have hd := h.deliver (d := .waiter tx) ⟨k, hpcR⟩
    exact ⟨ChannelState.fresh_access h.fresh (.removeWaiter k), hd.uncreated, hd.connOwner,
      hd.bindOwner, hd.pc, hd.delivered⟩
  | uncorrelated hpc hw => exact h.setPc (routeFrame_routed _ _)
  | inspected hpc =>
    rcases hpc with hpc | hpc <;> rw [hpc] at hpcR <;> exact h.deliver hpcR
  | inspectNext hpc | checkedOpen hpc => rw [hpc] at hpcR; exact h.setPc hpcR
  | foundConn hpc hc =>
    rw [hpc] at hpcR
    have ho := h.connOwner _ _ hc
    refine h.setPc ⟨_, hpcR.1, ?_⟩
    rcases hpcR.2 with hct | hct
    · exact .inl ⟨hct, ho⟩
    · exact .inr (.inr ⟨hct, .inl ho⟩)
  | missedConn hpc hc hct => rw [hpc] at hpcR; exact h.setPc ⟨hpcR.1, .inr hct⟩
  | unknownConn | unknownBind | checkedClosed | woken | lost => exact h.setPc trivial
  | foundBind hpc hb =>
    rw [hpc] at hpcR
    have ho := h.bindOwner _ _ hb
    refine h.setPc ⟨_, hpcR.1, ?_⟩
    rcases hpcR.2 with hct | hct
    · exact .inr (.inl ⟨hct, ho⟩)
    · exact .inr (.inr ⟨hct, .inr ho⟩)
  | sent hpc =>
    rw [hpc] at hpcR
    exact (h.deliver (d := .queue _) hpcR).setQueue rfl

theorem Routing.step {s s' : RxState} {a : RxAction} (hs : s.step a = some s') (h : s.Routing) :
    s'.Routing := by
  cases step_cases hs with
  | read msg => exact ⟨h.fresh, h.uncreated, h.connOwner, h.bindOwner, startFrame_routed _ _,
      h.delivered⟩
  | readFailed => exact h.setPc trivial
  | loop hr => exact h.rx hr
  | access a => exact h.access a
  | notify => exact ⟨h.fresh, h.uncreated, h.connOwner, h.bindOwner, h.pc, h.delivered⟩
  | recv | dropReceiver => exact h.setQueue rfl

/-- Frames are numbered in arrival order, at most the last one is in the loop's hands, and no
number was handed over twice or is both handed over and held. -/
structure Once (s : RxState) : Prop where
  numbered : ∀ (i : Nat) (f : Frame), s.inbound[i]? = some f → f.index = i
  held : ∀ f, s.pc.frame? = some f → s.inbound.getLast? = some f
  arrived : ∀ d ∈ s.delivered, d.1 ∈ s.inbound
  heldNew : ∀ f, s.pc.frame? = some f → ∀ d ∈ s.delivered, d.1.index ≠ f.index
  nodup : (s.delivered.map fun d => d.1.index).Nodup

theorem once_new : Once new :=
  ⟨by simp [new], by simp [new, Pc.frame?], by simp [new], by simp [new], by simp [new]⟩

theorem Once.setPc {s : RxState} (h : s.Once) {pc : Pc}
    (hp : ∀ f, pc.frame? = some f → s.pc.frame? = some f) : Once { s with pc := pc } :=
  ⟨h.numbered, fun f hf => h.held f (hp f hf), h.arrived, fun f hf => h.heldNew f (hp f hf),
    h.nodup⟩

theorem Once.deliver {s : RxState} (h : s.Once) {f : Frame} (hf : s.pc.frame? = some f)
    (d : Dest) : (s.deliver f d).Once := by
  have hmem : f ∈ s.inbound := List.mem_of_getLast? (h.held f hf)
  refine ⟨h.numbered, by simp [RxState.deliver, Pc.frame?], ?_, by simp [RxState.deliver, Pc.frame?], ?_⟩
  · intro e he
    rcases List.mem_append.mp he with hold | hnew
    · exact h.arrived e hold
    · rw [List.mem_singleton] at hnew
      subst hnew
      exact hmem
  · have hnew : ∀ x ∈ s.delivered.map (fun e => e.1.index), x ≠ f.index := by
      intro x hx
      obtain ⟨e, he, rfl⟩ := List.mem_map.mp hx
      exact h.heldNew f hf e he
    simp only [RxState.deliver, List.map_append, List.map_cons, List.map_nil]
    exact List.nodup_append.mpr ⟨h.nodup, by simp, by simpa using hnew⟩

theorem Once.index_lt {s : RxState} (h : s.Once) {f : Frame} (hf : f ∈ s.inbound) :
    f.index < s.inbound.length := by
  obtain ⟨i, hi, rfl⟩ := List.getElem_of_mem hf
  rw [h.numbered i _ (List.getElem?_eq_getElem hi)]
  exact hi

theorem Once.read {s : RxState} (h : s.Once) (msg : Message) :
    Once { s with
      inbound := s.inbound ++ [⟨s.inbound.length, msg⟩]
      pc := startFrame ⟨s.inbound.length, msg⟩ } := by
  refine ⟨fun i f hi => ?_, fun f hf => ?_, fun d hd => ?_, fun f hf d hd => ?_, h.nodup⟩
  · rw [List.getElem?_append] at hi
    split_ifs at hi with hlt
    · exact h.numbered i f hi
    · obtain ⟨hlen, rfl⟩ : i - s.inbound.length = 0 ∧ (⟨s.inbound.length, msg⟩ : Frame) = f := by
        rcases hk : i - s.inbound.length with _ | k
        · rw [hk] at hi
          exact ⟨rfl, by simpa using hi⟩
        · rw [hk] at hi
          simp at hi
      change s.inbound.length = i
      omega
  · rw [frame?_startFrame hf]
    simp
  · exact List.mem_append_left _ (h.arrived d hd)
  · rw [frame?_startFrame hf]
    exact (h.index_lt (h.arrived d hd)).ne

theorem Once.rx {s s' : RxState} (h : s.Once) (hr : Rx s s') : s'.Once := by
  cases hr with
  | @correlated f k tx hpc hw =>
    have hd := h.deliver (f := f) (by rw [hpc]; rfl) (.waiter tx)
    exact ⟨hd.numbered, hd.held, hd.arrived, hd.heldNew, hd.nodup⟩
  | uncorrelated hpc => exact h.setPc fun g hg => by rw [hpc, frame?_routeFrame hg]; rfl
  | inspected hpc => exact h.deliver (by rcases hpc with hpc | hpc <;> rw [hpc] <;> rfl) _
  | @sent f tx hpc =>
    have hd := h.deliver (f := f) (by rw [hpc]; rfl) (.queue tx)
    exact ⟨hd.numbered, hd.held, hd.arrived, hd.heldNew, hd.nodup⟩
  | inspectNext hpc | foundConn hpc | missedConn hpc | foundBind hpc | checkedOpen hpc =>
    exact h.setPc fun g hg => by rw [hpc]; exact hg
  | unknownConn | unknownBind | checkedClosed | woken | lost =>
    exact h.setPc fun g hg => by cases hg

theorem Once.step {s s' : RxState} {a : RxAction} (hs : s.step a = some s') (h : s.Once) :
    s'.Once := by
  cases step_cases hs with
  | read msg => exact h.read msg
  | readFailed => exact h.setPc fun g hg => by cases hg
  | loop hr => exact h.rx hr
  | access a => exact ⟨by simpa using h.numbered, by simpa using h.held, by simpa using h.arrived,
      by simpa using h.heldNew, by simpa using h.nodup⟩
  | notify | recv | dropReceiver => exact ⟨h.numbered, h.held, h.arrived, h.heldNew, h.nodup⟩

/-- A pending waiter got nothing yet, and no waiter gets two frames. -/
structure Waiting (s : RxState) : Prop where
  pending : ∀ (k : Int32) (w : SenderId), s.chan.waiters[k]? = some w →
    ∀ f, (f, Dest.waiter w) ∉ s.delivered
  created : ∀ f w, (f, Dest.waiter w) ∈ s.delivered → w < s.chan.senders
  once : ∀ f g w, (f, Dest.waiter w) ∈ s.delivered → (g, Dest.waiter w) ∈ s.delivered → f = g
  notified : s.notified = true → s.chan.closed = true

theorem waiting_new : Waiting new :=
  ⟨by simp [new], by simp [new], by simp [new], by simp [new]⟩

theorem Waiting.deliver {s : RxState} (h : s.Waiting) {f : Frame} {d : Dest}
    (hd : ∀ w, d ≠ .waiter w) : (s.deliver f d).Waiting := by
  have hmem (g : Frame) (w : SenderId) :
      (g, Dest.waiter w) ∈ (s.deliver f d).delivered ↔ (g, Dest.waiter w) ∈ s.delivered := by
    simp only [RxState.deliver, List.mem_append, List.mem_singleton, Prod.mk.injEq, or_iff_left_iff_imp]
    exact fun he => absurd he.2.symm (hd w)
  refine ⟨?_, ?_, ?_, h.notified⟩ <;> simp only [hmem]
  · exact h.pending
  · exact h.created
  · exact h.once

theorem Waiting.correlated {s : RxState} (h : s.Waiting) (hf : s.chan.Fresh) {f : Frame}
    {k : Int32} {tx : SenderId} (hw : s.chan.waiters[k]? = some tx) :
    Waiting { s.deliver f (.waiter tx) with chan := s.chan.removeWaiter k } := by
  have hmem (g : Frame) (w : SenderId) : (g, Dest.waiter w) ∈ s.delivered ++ [(f, .waiter tx)] ↔
      (g, Dest.waiter w) ∈ s.delivered ∨ (g = f ∧ w = tx) := by
    simp
  refine ⟨?_, ?_, ?_, h.notified⟩ <;> simp only [RxState.deliver, hmem]
  · intro k' w hk' g
    simp only [ChannelState.removeWaiter, lookup_erase] at hk'
    split_ifs at hk' with hne
    rintro (hold | ⟨-, rfl⟩)
    · exact h.pending k' w hk' g hold
    · exact hne (hf.waiters_inj _ _ _ hw hk')
  · rintro g w (hold | ⟨-, rfl⟩)
    · exact h.created g w hold
    · exact hf.waiters_lt k w hw
  · rintro g g' w (hold | ⟨rfl, rfl⟩) (hold' | ⟨rfl, hw'⟩)
    · exact h.once g g' w hold hold'
    · exact absurd hold (hw' ▸ h.pending k tx hw g)
    · exact absurd hold' (h.pending k w hw g')
    · rfl

theorem Waiting.access {s : RxState} (h : s.Waiting) (a : Access) : (s.accessStep a).Waiting := by
  have hclosed : s.chan.closed = true → (s.chan.access a).closed = true := by
    intro hc
    by_contra hn
    rw [ChannelState.closed_of_access (by simpa using hn)] at hc
    cases hc
  have hnotified : (s.accessStep a).notified = s.notified := by cases a <;> rfl
  refine ⟨?_, ?_, ?_, ?_⟩ <;>
    simp only [accessStep_delivered, accessStep_chan, hnotified]
  · intro k w hk f hf
    rcases ChannelState.access_waiters hk with hold | ⟨-, rfl⟩
    · exact h.pending k w hold f hf
    · exact (h.created f _ hf).false
  · exact fun f w hf => (h.created f w hf).trans_le ChannelState.senders_le_access
  · exact h.once
  · exact fun hn => hclosed (h.notified hn)

theorem Waiting.step {s s' : RxState} {a : RxAction} (hs : s.step a = some s') (hf : s.chan.Fresh)
    (h : s.Waiting) : s'.Waiting := by
  cases step_cases hs with
  | loop hr =>
    cases hr with
    | correlated hpc hw => exact h.correlated hf hw
    | inspected => exact h.deliver (by simp)
    | @sent f tx =>
      have hd := h.deliver (f := f) (d := .queue tx) (by simp)
      exact ⟨hd.pending, hd.created, hd.once, hd.notified⟩
    | _ => exact ⟨h.pending, h.created, h.once, h.notified⟩
  | access a => exact h.access a
  | notify hcl => exact ⟨h.pending, h.created, h.once, fun _ => hcl⟩
  | _ => exact ⟨h.pending, h.created, h.once, h.notified⟩

/-- The invariants of every reachable state. -/
structure Inv (s : RxState) : Prop where
  routing : s.Routing
  once : s.Once
  waiting : s.Waiting

theorem inv_new : Inv new := ⟨routing_new, once_new, waiting_new⟩

theorem Inv.step {s s' : RxState} {a : RxAction} (hs : s.step a = some s') (h : s.Inv) : s'.Inv :=
  ⟨h.routing.step hs, h.once.step hs, h.waiting.step hs h.routing.fresh⟩

end RxState

end Noa.Edge.Data
