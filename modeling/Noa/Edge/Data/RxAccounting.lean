import Noa.Edge.Data.RxRouting

namespace Noa.Edge.Data
open Noa.Framework Noa.Channel

def Frame.isData (f : Frame) : Bool := f.msg.contentType = ctData

/-- A `Data` frame carrying the connection id. -/
def Frame.dataFor (connId : UInt32) (f : Frame) : Bool :=
  f.isData && (headerU32 f.msg hdrConnId = some connId : Bool)

def Dest.isWaiter : Dest → Bool
  | .waiter _ => true
  | _ => false

/-- The loop has not looked a `Data` frame's connection up yet. -/
def Pc.undecided : Pc → Bool
  | .correlate _ _ => true
  | .lookupConns _ _ => true
  | _ => false

namespace RxState

def takenByWaiter (s : RxState) (f : Frame) : Bool :=
  s.delivered.any fun d => (d.1 = f : Bool) && d.2.isWaiter

/-- The inbound frames whose connection has been looked up, if they have one. -/
def decidedFrames (s : RxState) : List Frame :=
  if s.pc.undecided then s.inbound.dropLast else s.inbound

/-- The `Data` frame on its way to the queue. -/
def inFlight (s : RxState) (tx : SenderId) : List Frame :=
  match s.pc with
  | .checkClosed f t => if t = tx ∧ f.isData then [f] else []
  | .sending f t => if t = tx ∧ f.isData then [f] else []
  | _ => []

/-- The `Data` frames the queue's receiver took, those buffered, and the one on its way. -/
def acceptedData (s : RxState) (tx : SenderId) : List Frame :=
  ((s.queues tx).received ++ (s.queues tx).buffer).filter Frame.isData ++ s.inFlight tx

/-- The `Data` frames for the connection among those decided after the first `n`, except those
a pending waiter took. -/
def expectedData (s : RxState) (n : Nat) (connId : UInt32) : List Frame :=
  (s.decidedFrames.drop n).filter fun f => f.dataFor connId && !s.takenByWaiter f

/-- While the connection stays registered on an open channel and its receiver lives, what its
queue accepted is what was addressed to it. -/
structure Accounted (n : Nat) (connId : UInt32) (tx : SenderId) (s : RxState) : Prop where
  created : tx < s.chan.senders
  le : n ≤ s.decidedFrames.length
  eq : s.chan.conns[connId]? = some tx → s.chan.closed = false →
    (s.queues tx).receiverAlive = true → s.acceptedData tx = s.expectedData n connId

/-- The loop decides the frame it holds: the expected frames grow by it or stay. -/
theorem decidedFrames_of_held {s : RxState} (h : s.Once) {f : Frame}
    (hf : s.pc.frame? = some f) (hu : s.pc.undecided = true) :
    s.inbound = s.decidedFrames ++ [f] := by
  have hlast := h.held f hf
  rw [decidedFrames, if_pos hu]
  exact (List.dropLast_append_getLast? f hlast).symm

theorem takenByWaiter_held {s : RxState} (h : s.Once) {f : Frame} (hf : s.pc.frame? = some f) :
    s.takenByWaiter f = false := by
  rw [takenByWaiter, List.any_eq_false]
  intro d hd
  have hne : d.1 ≠ f := fun he => h.heldNew f hf d hd (by rw [he])
  simp [hne]

theorem takenByWaiter_deliver {s : RxState} {f g : Frame} {d : Dest} (hd : d.isWaiter = false) :
    (s.deliver f d).takenByWaiter g = s.takenByWaiter g := by
  simp [takenByWaiter, deliver, hd]

theorem not_dataFor_of_route {f : Frame} (h : (routeFrame f).undecided = false) (connId : UInt32) :
    f.dataFor connId = false := by
  unfold routeFrame at h
  by_contra hd
  simp only [Frame.dataFor, Frame.isData, Bool.and_eq_true, decide_eq_true_eq,
    Bool.not_eq_false] at hd
  obtain ⟨hct, hid⟩ := hd
  rw [hid] at h
  simp [hct, ctData, ctConnInspectRequest, ctDial, Pc.undecided] at h

section Steps

variable {n : Nat} {connId : UInt32} {tx : SenderId} {s s' : RxState}

/-- The shape of every step: it decides the frames `gs` (none or one), and the queue accepts
exactly those of them it should. -/
theorem Accounted.advance (h : Accounted n connId tx s) (gs : List Frame)
    (hsenders : s.chan.senders ≤ s'.chan.senders)
    (hconn : s'.chan.conns[connId]? = some tx → s.chan.conns[connId]? = some tx)
    (hclosed : s'.chan.closed = false → s.chan.closed = false)
    (halive : (s'.queues tx).receiverAlive = true → (s.queues tx).receiverAlive = true)
    (hdec : s'.decidedFrames = s.decidedFrames ++ gs)
    (htaken : ∀ g ∈ s.decidedFrames, s'.takenByWaiter g = s.takenByWaiter g)
    (hacc : s.chan.conns[connId]? = some tx → s.chan.closed = false →
      (s'.queues tx).receiverAlive = true →
      s'.acceptedData tx =
        s.acceptedData tx ++ gs.filter fun f => f.dataFor connId && !s'.takenByWaiter f) :
    Accounted n connId tx s' := by
  refine ⟨h.created.trans_le hsenders, ?_, fun hc hcl hal => ?_⟩
  · rw [hdec, List.length_append]
    exact h.le.trans (Nat.le_add_right _ _)
  · rw [hacc (hconn hc) (hclosed hcl) hal, h.eq (hconn hc) (hclosed hcl) (halive hal)]
    simp only [expectedData]
    rw [hdec, List.drop_append_of_le_length h.le, List.filter_append]
    congr 1
    refine List.filter_congr fun g hg => ?_
    rw [htaken g (List.mem_of_mem_drop hg)]

theorem Accounted.setPc (h : Accounted n connId tx s) (pc : Pc) (gs : List Frame)
    (hdec : decidedFrames { s with pc := pc } = s.decidedFrames ++ gs)
    (hfl : s.chan.conns[connId]? = some tx → s.chan.closed = false →
      (s.queues tx).receiverAlive = true → inFlight { s with pc := pc } tx =
        s.inFlight tx ++ gs.filter fun f => f.dataFor connId && !s.takenByWaiter f) :
    Accounted n connId tx { s with pc := pc } := by
  refine h.advance gs le_rfl id id id hdec (fun g _ => rfl) fun hc hcl hal => ?_
  simp only [acceptedData]
  rw [hfl hc hcl hal, List.append_assoc]
  rfl

theorem Accounted.movePc (h : Accounted n connId tx s) (pc : Pc)
    (hu : pc.undecided = s.pc.undecided)
    (hfl : s.chan.closed = false → (s.queues tx).receiverAlive = true →
      inFlight { s with pc := pc } tx = s.inFlight tx) :
    Accounted n connId tx { s with pc := pc } := by
  refine h.setPc pc [] ?_ fun _ hcl hal => ?_
  · rw [List.append_nil, decidedFrames, decidedFrames, hu]
  · rw [hfl hcl hal, List.filter_nil, List.append_nil]

theorem Accounted.skip (h : Accounted n connId tx s) (ho : s.Once) {f : Frame} (pc : Pc)
    (hf : s.pc.frame? = some f) (hu : s.pc.undecided = true) (hu' : pc.undecided = false)
    (hfl : inFlight { s with pc := pc } tx = [])
    (hd : s.chan.conns[connId]? = some tx → f.dataFor connId = false) :
    Accounted n connId tx { s with pc := pc } := by
  have hpc : s.inFlight tx = [] := by
    unfold inFlight
    split <;> simp_all [Pc.undecided]
  refine h.setPc pc [f] ?_ fun hc _ _ => ?_
  · rw [decidedFrames, if_neg (by simp [hu'])]
    exact decidedFrames_of_held ho hf hu
  · rw [hfl, hpc, List.filter_singleton, hd hc]
    rfl

theorem Accounted.uncorrelated (h : Accounted n connId tx s) (ho : s.Once) {f : Frame} {k : Int32}
    (hpc : s.pc = .correlate f k) : Accounted n connId tx { s with pc := routeFrame f } := by
  have hfl : inFlight { s with pc := routeFrame f } tx = [] := by
    unfold inFlight routeFrame
    grind
  cases hu : (routeFrame f).undecided with
  | true =>
    exact h.movePc _ (by rw [hu, hpc]; rfl) fun _ _ => by rw [hfl, inFlight, hpc]
  | false =>
    exact h.skip ho _ (f := f) (by rw [hpc]; rfl) (by rw [hpc]; rfl) hu hfl
      fun _ => not_dataFor_of_route hu connId

theorem Accounted.foundConn (h : Accounted n connId tx s) (hi : s.Inv) {f : Frame} {id : UInt32}
    {t : SenderId} (hpc : s.pc = .lookupConns f id) (hc : s.chan.conns[id]? = some t) :
    Accounted n connId tx { s with pc := .checkClosed f t } := by
  have hf : s.pc.frame? = some f := by rw [hpc]; rfl
  have hid : headerU32 f.msg hdrConnId = some id := by
    have := hi.routing.pc
    rw [hpc] at this
    exact this.1
  refine h.setPc _ [f] ?_ fun hreg _ _ => ?_
  · exact decidedFrames_of_held hi.once hf (by rw [hpc]; rfl)
  · -- the looked-up queue is the connection's own exactly if the ids agree
    have hiff : t = tx ↔ id = connId := by
      constructor
      · rintro rfl
        have h1 := hi.routing.connOwner _ _ hc
        have h2 := hi.routing.connOwner _ _ hreg
        rw [h1] at h2
        cases h2
        rfl
      · rintro rfl
        rw [hc] at hreg
        cases hreg
        rfl
    have hempty : s.inFlight tx = [] := by rw [inFlight, hpc]
    rw [hempty, List.nil_append, List.filter_singleton, takenByWaiter_held hi.once hf]
    simp only [inFlight, Frame.dataFor, hid, hiff, Option.some.injEq]
    by_cases hfd : f.isData <;> by_cases he : id = connId <;> simp [hfd, he]

theorem Accounted.correlated (h : Accounted n connId tx s) (ho : s.Once) {f : Frame} {k : Int32}
    {w : SenderId} (hpc : s.pc = .correlate f k) :
    Accounted n connId tx { s.deliver f (.waiter w) with chan := s.chan.removeWaiter k } := by
  have hin := decidedFrames_of_held ho (f := f) (by rw [hpc]; rfl) (by rw [hpc]; rfl)
  refine h.advance [f] le_rfl id id id hin (fun g hg => ?_) fun _ _ _ => ?_
  · -- a frame decided before is another one, by its number
    have hne : f ≠ g := by
      rintro rfl
      obtain ⟨i, hi, heq⟩ := List.getElem_of_mem hg
      have h1 := ho.numbered i f (by rw [hin, List.getElem?_append_left hi, List.getElem?_eq_getElem hi, heq])
      have h2 := ho.numbered s.decidedFrames.length f (by rw [hin]; simp)
      omega
    simp [takenByWaiter, deliver, hne]
  · have htaken : takenByWaiter { s.deliver f (.waiter w) with chan := s.chan.removeWaiter k } f
        = true := by
      simp [takenByWaiter, deliver, Dest.isWaiter]
    rw [List.filter_singleton, htaken]
    simp [acceptedData, inFlight, deliver, hpc]

theorem Accounted.sent (h : Accounted n connId tx s) {f : Frame} {t : SenderId}
    (hpc : s.pc = .sending f t) :
    Accounted n connId tx ((s.deliver f (.queue t)).setQueue t ((s.queues t).push f)) := by
  refine h.advance [] le_rfl id id ?_ ?_ (fun g _ => ?_) fun _ _ _ => ?_
  · simp only [setQueue, deliver, Queue.push, Function.update_apply]
    split_ifs with ht
    · subst ht
      exact id
    · exact id
  · simp [decidedFrames, setQueue, deliver, hpc, Pc.undecided]
  · exact takenByWaiter_deliver rfl
  · have hfl : s.inFlight tx = if t = tx ∧ f.isData then [f] else [] := by rw [inFlight, hpc]
    rw [acceptedData, acceptedData, hfl]
    simp only [setQueue, deliver, Queue.push, inFlight, Function.update_apply, List.filter_nil,
      List.append_nil]
    by_cases ht : tx = t
    · subst ht
      cases hd : f.isData <;> simp [hd]
    · simp [ht, Ne.symm ht]

theorem Accounted.rx (h : Accounted n connId tx s) (hi : s.Inv) (hr : Rx s s') :
    Accounted n connId tx s' := by
  cases hr with
  | correlated hpc hw => exact h.correlated hi.once hpc
  | uncorrelated hpc => exact h.uncorrelated hi.once hpc
  | inspected hpc =>
    refine h.advance [] le_rfl id id id ?_ (fun g _ => takenByWaiter_deliver rfl) fun _ _ _ => ?_
    · rcases hpc with hpc | hpc <;> simp [decidedFrames, deliver, hpc, Pc.undecided]
    · rcases hpc with hpc | hpc <;> simp [acceptedData, inFlight, deliver, hpc]
  | inspectNext hpc | unknownBind hpc | checkedOpen hpc =>
    exact h.movePc _ (by rw [hpc]; rfl) fun _ _ => by rw [inFlight, inFlight, hpc]
  | foundConn hpc hc => exact h.foundConn hi hpc hc
  | @missedConn f id hpc hc hct =>
    refine h.skip hi.once _ (f := f) (by rw [hpc]; rfl) (by rw [hpc]; rfl) rfl rfl fun _ => ?_
    simp [Frame.dataFor, Frame.isData, hct, ctStateClosed, ctData]
  | @unknownConn f id hpc hc =>
    refine h.skip hi.once _ (f := f) (by rw [hpc]; rfl) (by rw [hpc]; rfl) rfl rfl fun hreg => ?_
    have hid := hi.routing.pc
    rw [hpc] at hid
    have hne : id ≠ connId := by
      rintro rfl
      rw [hc] at hreg
      cases hreg
    simp [Frame.dataFor, hid.1, hne]
  | @foundBind f id t hpc hb =>
    have hroute := hi.routing.pc
    rw [hpc] at hroute
    have hd : f.isData = false := by
      rcases hroute.2 with hct | hct <;> simp [Frame.isData, hct, ctDial, ctStateClosed, ctData]
    exact h.movePc _ (by rw [hpc]; rfl) fun _ _ => by simp [inFlight, hpc, hd]
  | checkedClosed hpc hcl =>
    exact h.movePc _ (by rw [hpc]; rfl) fun hopen _ => by rw [hcl] at hopen; cases hopen
  | woken hpc hn =>
    have hcl := hi.waiting.notified hn
    exact h.movePc _ (by rw [hpc]; rfl) fun hopen _ => by rw [hcl] at hopen; cases hopen
  | @lost f t hpc hdead =>
    refine h.movePc _ (by rw [hpc]; rfl) fun _ halive => ?_
    have hne : t ≠ tx := by
      rintro rfl
      rw [hdead] at halive
      cases halive
    simp [inFlight, hpc, hne]
  | sent hpc => exact h.sent hpc

theorem inFlight_startFrame (s : RxState) (f : Frame) (frames : List Frame) :
    inFlight { s with inbound := frames, pc := startFrame f } tx = [] := by
  unfold inFlight startFrame routeFrame
  grind

theorem Accounted.read (h : Accounted n connId tx s) (hpc : s.pc = .reading) (msg : Message) :
    Accounted n connId tx { s with
      inbound := s.inbound ++ [⟨s.inbound.length, msg⟩]
      pc := startFrame ⟨s.inbound.length, msg⟩ } := by
  have hdec : s.decidedFrames = s.inbound := by simp [decidedFrames, hpc, Pc.undecided]
  have hfl : s.inFlight tx = [] := by rw [inFlight, hpc]
  set f : Frame := ⟨s.inbound.length, msg⟩
  cases hu : (startFrame f).undecided with
  | true =>
    refine h.advance [] le_rfl id id id ?_ (fun _ _ => rfl) fun _ _ _ => ?_
    · rw [hdec]
      simp [decidedFrames, hu]
    · simp [acceptedData, inFlight_startFrame, hfl]
  | false =>
    have hroute : (routeFrame f).undecided = false := by
      unfold startFrame at hu
      split at hu
      · cases hu
      · exact hu
    refine h.advance [f] le_rfl id id id ?_ (fun _ _ => rfl) fun _ _ _ => ?_
    · rw [hdec]
      simp [decidedFrames, hu]
    · simp [acceptedData, inFlight_startFrame, hfl, not_dataFor_of_route hroute connId]

theorem Accounted.access (h : Accounted n connId tx s) (a : Access) :
    Accounted n connId tx (s.accessStep a) := by
  have hq : (s.accessStep a).queues tx = s.queues tx := accessStep_queues h.created.ne
  refine h.advance [] ?_ ?_ ?_ ?_ ?_ (fun _ _ => ?_) fun _ _ _ => ?_
  · rw [accessStep_chan]
    exact ChannelState.senders_le_access
  · rw [accessStep_chan]
    intro hc
    rcases ChannelState.access_conns hc with hold | ⟨-, htx⟩
    · exact hold
    · exact absurd htx h.created.ne
  · rw [accessStep_chan]
    exact ChannelState.closed_of_access
  · rw [hq]
    exact id
  · simp [decidedFrames]
  · simp [takenByWaiter]
  · simp [acceptedData, hq, inFlight]

theorem Accounted.recv (h : Accounted n connId tx s) {t : SenderId} {f : Frame}
    {rest : List Frame} (hb : (s.queues t).buffer = f :: rest) :
    Accounted n connId tx (s.setQueue t ((s.queues t).pop f rest)) := by
  have hq : ((s.setQueue t ((s.queues t).pop f rest)).queues tx).receiverAlive =
      (s.queues tx).receiverAlive := by
    simp only [setQueue, Queue.pop, Function.update_apply]
    split_ifs with ht
    · rw [ht]
    · rfl
  refine h.advance [] le_rfl id id (by rw [hq]; exact id) ?_ (fun _ _ => rfl) fun _ _ _ => ?_
  · rw [List.append_nil]
    rfl
  · simp only [acceptedData, setQueue, Queue.pop, inFlight, Function.update_apply, List.filter_nil,
      List.append_nil]
    split_ifs with ht
    · subst ht
      simp [hb]
    · rfl

theorem Accounted.dropReceiver (h : Accounted n connId tx s) (t : SenderId) :
    Accounted n connId tx (s.setQueue t (s.queues t).dropReceiver) := by
  by_cases ht : tx = t
  · subst ht
    exact ⟨h.created, h.le, fun _ _ hal => by simp [setQueue, Queue.dropReceiver] at hal⟩
  · have hq : (s.setQueue t (s.queues t).dropReceiver).queues tx = s.queues tx := by
      simp [setQueue, ht]
    refine h.advance [] le_rfl id id (by rw [hq]; exact id) ?_ (fun _ _ => rfl) fun _ _ _ => ?_
    · rw [List.append_nil]
      rfl
    · rw [acceptedData, acceptedData, hq]
      simp [inFlight, setQueue]

theorem Accounted.step {a : RxAction} (hs : s.step a = some s') (hi : s.Inv)
    (h : Accounted n connId tx s) : Accounted n connId tx s' := by
  cases step_cases hs with
  | read msg hpc => exact h.read hpc msg
  | readFailed hpc =>
    exact h.movePc _ (by rw [hpc]; rfl) fun _ _ => by rw [inFlight, inFlight, hpc]
  | loop hr => exact h.rx hi hr
  | access a => exact h.access a
  | notify => exact ⟨h.created, h.le, h.eq⟩
  | recv hb => exact h.recv hb
  | dropReceiver t => exact h.dropReceiver t

/-- A registration starts with an empty account: no frame on its way can know the new queue. -/
theorem accounted_register (hi : s.Inv) (connId : UInt32) :
    Accounted s.decidedFrames.length connId s.chan.senders
      (s.accessStep (.registerConn connId)) := by
  have hdec : (s.accessStep (.registerConn connId)).decidedFrames = s.decidedFrames := by
    simp [decidedFrames]
  have hroute (f : Frame) (t : SenderId) (hr : Routes (s.owners t) f.msg) :
      t ≠ s.chan.senders := by
    rintro rfl
    rw [hi.routing.uncreated _ le_rfl] at hr
    obtain ⟨_, -, h⟩ := hr
    simp at h
  have hfl : (s.accessStep (.registerConn connId)).inFlight s.chan.senders = [] := by
    have hr := hi.routing.pc
    unfold inFlight
    rw [accessStep_pc]
    split
    · next f t hpc =>
      rw [hpc] at hr
      rw [if_neg fun hc => hroute f t hr hc.1]
    · next f t hpc =>
      rw [hpc] at hr
      rw [if_neg fun hc => hroute f t hr hc.1]
    · rfl
  refine ⟨?_, ?_, fun _ _ _ => ?_⟩
  · simp [ChannelState.access, ChannelState.newSender]
  · rw [hdec]
  · rw [acceptedData, expectedData, hdec, hfl, List.drop_length]
    simp [accessStep, setQueue]

end Steps

theorem run_inv {as : List RxAction} {s : RxState} (h : run step new as = some s) : s.Inv :=
  run_invariant _ (fun _ _ _ hs hi => hi.step hs) h inv_new

theorem delivered_mono_step {s s' : RxState} {a : RxAction} (hs : s.step a = some s')
    {d : Frame × Dest} (hd : d ∈ s.delivered) : d ∈ s'.delivered := by
  cases step_cases hs with
  | loop hr =>
    cases hr with
    | correlated | inspected | sent => exact List.mem_append_left _ hd
    | _ => exact hd
  | access a => rwa [accessStep_delivered]
  | _ => exact hd

/-- The frame a pending waiter is correlated with goes to it, and to nothing else ever after. -/
theorem correlate_delivers {s t : RxState} (hi : s.Inv) {f : Frame} {k : Int32} {w : SenderId}
    (hpc : s.pc = .correlate f k) (hw : s.chan.waiters[k]? = some w) {bs : List RxAction}
    (hrun : run step s (.rx :: bs) = some t) :
    (f, Dest.waiter w) ∈ t.delivered ∧ ∀ d, (f, d) ∈ t.delivered → d = .waiter w := by
  obtain ⟨s', hs', hrest⟩ := run_cons_eq_some.mp hrun
  have hmem' : (f, Dest.waiter w) ∈ s'.delivered := by
    simp only [step, rxStep, hpc, hw, Option.some.injEq] at hs'
    rw [← hs']
    simp [deliver]
  have hmem : (f, Dest.waiter w) ∈ t.delivered :=
    run_invariant _ (fun _ _ _ hs hd => delivered_mono_step hs hd) hrest hmem'
  have hti : t.Inv := run_invariant _ (fun _ _ _ hs h => h.step hs) hrest (hi.step hs')
  refine ⟨hmem, fun d hd => ?_⟩
  have heq := List.inj_on_of_nodup_map hti.once.nodup hd hmem rfl
  exact congrArg Prod.snd heq

/-- The queue a frame is taken to is the one registered under its connection id. -/
theorem checkClosed_registered {s t : RxState} (hi : s.Inv) (hs : s.step .rx = some t) {f : Frame}
    {q : SenderId} (hpc : t.pc = .checkClosed f q) :
    ∃ connId, headerU32 f.msg hdrConnId = some connId ∧
      (s.chan.conns[connId]? = some q ∨
        (f.msg.contentType ≠ ctData ∧ s.chan.binds[connId]? = some q)) := by
  have hr := hi.routing.pc
  cases rxStep_rx hs with
  | foundConn hp hc =>
    rw [hp] at hr
    cases hpc
    exact ⟨_, hr.1, .inl hc⟩
  | foundBind hp hb =>
    rw [hp] at hr
    cases hpc
    refine ⟨_, hr.1, .inr ⟨?_, hb⟩⟩
    rcases hr.2 with hct | hct <;> simp [hct, ctDial, ctStateClosed, ctData]
  | uncorrelated hp =>
    unfold routeFrame at hpc
    grind
  | _ => cases hpc

/-- Where a `Data` or `StateClosed` frame can have gone. -/
theorem delivered_conn {s : RxState} (hi : s.Inv) {f : Frame} {d : Dest}
    (hd : (f, d) ∈ s.delivered)
    (hct : f.msg.contentType = ctData ∨ f.msg.contentType = ctStateClosed) :
    (∃ w k, d = .waiter w ∧ headerI32 f.msg hdrReplyFor = some k) ∨
    ∃ q connId, d = .queue q ∧ headerU32 f.msg hdrConnId = some connId ∧
      ((s.queues q).owner = some (.conn connId) ∨
        (f.msg.contentType = ctStateClosed ∧ (s.queues q).owner = some (.bind connId))) := by
  have hr := hi.routing.delivered _ hd
  cases d with
  | waiter w =>
    obtain ⟨k, hk⟩ := hr
    exact .inl ⟨w, k, rfl, hk⟩
  | inspect t =>
    have hr : f.msg.contentType = ctConnInspectRequest := hr
    rcases hct with h | h <;> rw [h] at hr <;> exact absurd hr (by decide)
  | queue q =>
    obtain ⟨connId, hid, hcase⟩ := hr
    refine .inr ⟨q, connId, rfl, hid, ?_⟩
    rcases hcase with ⟨-, ho⟩ | ⟨hdial, -⟩ | ⟨hcl, ho | ho⟩
    · exact .inl ho
    · rcases hct with h | h <;> rw [h] at hdial <;> exact absurd hdial (by decide)
    · exact .inl ho
    · exact .inr ⟨hcl, ho⟩

/-- A connection that stays registered on an open channel received the `Data` frames addressed
to it since its registration, up to those buffered or on their way. -/
theorem registered_accepts {s t : RxState} (hi : s.Inv) {connId : UInt32} {bs : List RxAction}
    (hrun : run step s (.access (.registerConn connId) :: bs) = some t)
    (hreg : t.chan.conns[connId]? = some s.chan.senders) (hopen : t.chan.closed = false)
    (halive : (t.queues s.chan.senders).receiverAlive = true) :
    t.acceptedData s.chan.senders = t.expectedData s.decidedFrames.length connId := by
  obtain ⟨s', hs', hrest⟩ := run_cons_eq_some.mp hrun
  have hi' := hi.step hs'
  cases hs'
  have hacc := run_invariant
    (fun u => u.Inv ∧ Accounted s.decidedFrames.length connId s.chan.senders u)
    (fun _ _ _ hs h => ⟨h.1.step hs, h.2.step hs h.1⟩) hrest ⟨hi', accounted_register hi connId⟩
  exact hacc.2.eq hreg hopen halive

/-- Routing over every run: no frame is handed over twice; a readable `ReplyFor` is tried first,
and a frame that meets its waiter there goes to it alone, at most one frame per waiter; any other
`Data` or `StateClosed` frame goes to the queue registered under its own connection id; and a
drained connection that stays registered on an open channel received exactly the `Data` frames
addressed to it since, in order, less those a pending waiter took. -/
theorem rxLoop_routing (as : List RxAction) (s : RxState) (hrun : run step new as = some s) :
    (s.delivered.map fun d => d.1.index).Nodup ∧
    (∀ msg k t, s.step (.read msg) = some t → headerI32 msg hdrReplyFor = some k →
      t.pc = .correlate ⟨s.inbound.length, msg⟩ k) ∧
    (∀ f k w bs t, s.pc = .correlate f k → s.chan.waiters[k]? = some w →
      run step s (.rx :: bs) = some t →
      (f, Dest.waiter w) ∈ t.delivered ∧ ∀ d, (f, d) ∈ t.delivered → d = .waiter w) ∧
    (∀ f g w, (f, Dest.waiter w) ∈ s.delivered → (g, Dest.waiter w) ∈ s.delivered → f = g) ∧
    (∀ f d, (f, d) ∈ s.delivered →
      f.msg.contentType = ctData ∨ f.msg.contentType = ctStateClosed →
      (∃ w k, d = .waiter w ∧ headerI32 f.msg hdrReplyFor = some k) ∨
      ∃ q connId, d = .queue q ∧ headerU32 f.msg hdrConnId = some connId ∧
        ((s.queues q).owner = some (.conn connId) ∨
          (f.msg.contentType = ctStateClosed ∧ (s.queues q).owner = some (.bind connId)))) ∧
    (∀ t f q, s.step .rx = some t → t.pc = .checkClosed f q →
      ∃ connId, headerU32 f.msg hdrConnId = some connId ∧
        (s.chan.conns[connId]? = some q ∨
          (f.msg.contentType ≠ ctData ∧ s.chan.binds[connId]? = some q))) ∧
    (∀ connId bs t, run step s (.access (.registerConn connId) :: bs) = some t →
      t.chan.conns[connId]? = some s.chan.senders → t.chan.closed = false →
      (t.queues s.chan.senders).receiverAlive = true →
      t.acceptedData s.chan.senders = t.expectedData s.decidedFrames.length connId ∧
      ((t.queues s.chan.senders).buffer = [] → t.inFlight s.chan.senders = [] →
        (t.queues s.chan.senders).received.filter Frame.isData =
          t.expectedData s.decidedFrames.length connId)) := by
  have hi : s.Inv := run_inv hrun
  refine ⟨hi.once.nodup, ?_, ?_, hi.waiting.once, ?_, ?_, ?_⟩
  · intro msg k t hs hk
    simp only [step] at hs
    split at hs
    · cases hs
      simp only [startFrame, hk]
    · cases hs
  · exact fun f k w bs t hpc hw hr => correlate_delivers hi hpc hw hr
  · exact fun f d hd hct => delivered_conn hi hd hct
  · exact fun t f q hs hpc => checkClosed_registered hi hs hpc
  · intro connId bs t hr hreg hopen halive
    have hacc := registered_accepts hi hr hreg hopen halive
    refine ⟨hacc, fun hbuf hfl => ?_⟩
    rw [← hacc, acceptedData, hbuf, hfl, List.append_nil, List.append_nil]

/-- One `Data` frame for connection 5 is read, routed and taken by the connection's reader. -/
theorem rxLoop_routing_delivers :
    ∃ t, run step new [.access (.registerConn 5), .read (buildData 5 [1] false), .rx, .rx, .rx,
        .recv 0] = some t ∧
      (t.queues 0).received.filter Frame.isData = [⟨0, buildData 5 [1] false⟩] := by
  refine ⟨_, rfl, ?_⟩
  exact ((rxLoop_routing [] new rfl).2.2.2.2.2.2 5 [.read (buildData 5 [1] false), .rx, .rx, .rx,
    .recv 0] _ rfl (by decide) (by decide) (by decide)).2 (by decide) (by decide)

/-- A `Data` frame for connection 5 whose `ReplyFor` names the pending waiter 1. -/
def replyingData : Message := withHeader (buildData 5 [1] false) hdrReplyFor (i32ToLe 1)

/-- The waiter takes that frame, so the registered and drained connection misses it. -/
theorem waiter_takes_data :
    ∃ t, run step new [.access (.registerConn 5), .access (.insertWaiter 1), .read replyingData,
        .rx] = some t ∧
      t.chan.conns[(5 : UInt32)]? = some 0 ∧ t.chan.closed = false ∧ t.pc = .reading ∧
      (t.queues 0).receiverAlive = true ∧ (t.queues 0).buffer = [] ∧
      (t.queues 0).received.filter Frame.isData ≠ t.inbound.filter (Frame.dataFor 5) := by
  refine ⟨_, rfl, ?_⟩
  decide

end RxState

end Noa.Edge.Data
