import Noa.Edge.Data.RxAccounting
import Noa.Edge.Data.Requests
import Noa.Framework.Loop

namespace Noa.Edge.Data
open Noa.Framework Noa.Channel

/-- The frame the receive loop handed to a waiter. -/
def RxState.replyTo (rx : RxState) (w : SenderId) : Option Frame :=
  (rx.delivered.find? fun d => d.2 = .waiter w).map (·.1)

/-- An accept being completed beside the receive loop: the frames it has written, what it read of the
flag, the waiter it registered, the frame handed to that waiter before the wait was over, and how the
wait ended. -/
structure AcceptState where
  rx : RxState
  wire : List Message
  closedBefore : Bool
  waiter : Option (Int32 × SenderId)
  reply : Option Frame
  outcome : Option (Option (Option Message))

namespace AcceptState

def start (rx : RxState) : AcceptState := ⟨rx, [], false, none, none, none⟩

def shared (s : AcceptState) : Shared :=
  ⟨s.rx.chan, fun w => (s.rx.replyTo w).map (·.msg), s.wire, false, false, false⟩

/-- The reply is the one that came while the wait went on. -/
def observe (s : AcceptState) : AcceptState :=
  match s.outcome with
  | none => { s with reply := s.waiter.bind fun kw => s.rx.replyTo kw.2 }
  | some _ => s

end AcceptState

/-- Other tasks wait under numbers of their own, and only the teardown clears the tables, after it
has set the flag. -/
def RxAction.foreign (own : Option Int32) (closed : Bool) : RxAction → Bool
  | .access (.insertWaiter k) => own ≠ some k
  | .access (.removeWaiter k) => own ≠ some k
  | .access .clearWaiters => closed
  | .access .clearConns => closed
  | .access .clearBinds => closed
  | _ => true

/-- The commands an observer of the accept takes note of. -/
def Cmd.note {β : Type} (c : Cmd β) (b : β) (s : AcceptState) : AcceptState :=
  match c with
  | .isClosed => { s with closedBefore := b }
  | .insertWaiter seq => { s with waiter := some (seq, b) }
  | .recvTimeout _ => { s with outcome := some b }
  | _ => s

/-- A write that fails. -/
def Cmd.refused {β : Type} : Cmd β → Choice → Bool
  | .write _, .failed _ => true
  | _, _ => false

/-- The completion of an accept on a channel whose writes succeed, beside the receive loop and the
other tasks of the channel. -/
def acceptRuntime : Runtime Cmd AcceptState RxAction Choice where
  exec := fun c x s =>
    if c.refused x then none
    else (c.exec x s.shared).map fun r =>
      (r.1, c.note r.1 { s with rx := { s.rx with chan := r.2.chan }, wire := r.2.wire })
  env := fun a s =>
    if a.foreign (s.waiter.map (·.1)) s.rx.chan.closed then
      (s.rx.step a).map fun rx => ({ s with rx }).observe
    else none
  droppable := fun _ => false

section Waiter

variable {rx rx' : RxState} {a : RxAction} {seq : Int32} {w : SenderId} {f : Frame}

theorem replyTo_eq_some (hrx : rx.Inv) :
    rx.replyTo w = some f ↔ (f, Dest.waiter w) ∈ rx.delivered := by
  unfold RxState.replyTo
  rw [Option.map_eq_some_iff]
  constructor
  · rintro ⟨⟨g, d⟩, hd, rfl⟩
    have hdest : d = .waiter w := by simpa using List.find?_some hd
    rw [← hdest]
    exact List.mem_of_find?_eq_some hd
  · intro hf
    have hsome : (rx.delivered.find? fun d => d.2 = Dest.waiter w).isSome :=
      List.find?_isSome.mpr ⟨(f, Dest.waiter w), hf, by simp⟩
    obtain ⟨⟨g, d⟩, hd⟩ := Option.isSome_iff_exists.mp hsome
    have hdest : d = .waiter w := by simpa using List.find?_some hd
    subst hdest
    exact ⟨_, hd, hrx.waiting.once g f w (List.mem_of_find?_eq_some hd) hf⟩

theorem replyTo_eq_none (hrx : rx.Inv) :
    rx.replyTo w = none ↔ ∀ f, (f, Dest.waiter w) ∉ rx.delivered := by
  simp only [Option.eq_none_iff_forall_ne_some, ne_eq, replyTo_eq_some hrx]

theorem replyTo_step (hrx : rx.Inv) (hs : rx.step a = some rx') (h : rx.replyTo w = some f) :
    rx'.replyTo w = some f := by
  rw [replyTo_eq_some hrx] at h
  rw [replyTo_eq_some (hrx.step hs)]
  exact RxState.delivered_mono_step hs h

/-- The sender `w` is the accept's own: it waits under `seq` only, and what it is handed answers
`seq`. -/
structure Own (seq : Int32) (w : SenderId) (rx : RxState) : Prop where
  created : w < rx.chan.senders
  only : ∀ k : Int32, rx.chan.waiters[k]? = some w → k = seq
  named : ∀ f, (f, Dest.waiter w) ∈ rx.delivered → headerI32 f.msg hdrReplyFor = some seq

/-- The waiter is registered until it is answered or the channel closes. -/
def Listens (seq : Int32) (w : SenderId) (rx : RxState) : Prop :=
  rx.chan.closed = false → rx.replyTo w = none → rx.chan.waiters[seq]? = some w

theorem Own.step (h : Own seq w rx) (hrx : rx.Inv) (hs : rx.step a = some rx') :
    Own seq w rx' := by
  cases RxState.step_cases hs with
  | loop hr =>
    cases hr with
    | @correlated f k tx hpc hw =>
      refine ⟨h.created, fun k' hk' => h.only k' ?_, fun g hg => ?_⟩
      · simp only [ChannelState.removeWaiter, lookup_erase] at hk'
        split_ifs at hk'
        exact hk'
      · obtain hold | hnew := List.mem_append.mp hg
        · exact h.named g hold
        · obtain ⟨rfl, hdest⟩ := Prod.mk.inj (List.mem_singleton.mp hnew)
          cases hdest
          have hroute := hrx.routing.pc
          rw [hpc] at hroute
          rw [show headerI32 g.msg hdrReplyFor = some k from hroute, h.only k hw]
    | inspected | sent =>
      refine ⟨h.created, h.only, fun g hg => ?_⟩
      obtain hold | hnew := List.mem_append.mp hg
      · exact h.named g hold
      · cases (Prod.mk.inj (List.mem_singleton.mp hnew)).2
    | _ => exact ⟨h.created, h.only, h.named⟩
  | access a =>
    refine ⟨?_, fun k hk => ?_, ?_⟩
    · rw [RxState.accessStep_chan]
      exact h.created.trans_le ChannelState.senders_le_access
    · rw [RxState.accessStep_chan] at hk
      obtain hold | ⟨-, hnew⟩ := ChannelState.access_waiters hk
      · exact h.only k hold
      · exact absurd hnew h.created.ne
    · rw [RxState.accessStep_delivered]
      exact h.named
  | _ => exact ⟨h.created, h.only, h.named⟩

theorem closed_of_step (hs : rx.step a = some rx') (h : rx'.chan.closed = false) :
    rx.chan.closed = false := by
  cases RxState.step_cases hs with
  | loop hr => cases hr <;> exact h
  | access a =>
    rw [RxState.accessStep_chan] at h
    exact ChannelState.closed_of_access h
  | _ => exact h

/-- Another task's access leaves the accept's waiter alone while the channel is open. -/
theorem access_foreign {b : Access} {st : ChannelState}
    (hb : (RxAction.access b).foreign (some seq) st.closed = true) (hopen : st.closed = false) :
    (st.access b).waiters[seq]? = st.waiters[seq]? := by
  cases b with
  | insertWaiter k =>
    have hne : k ≠ seq := by
      rintro rfl
      simp [RxAction.foreign] at hb
    simp only [ChannelState.access, ChannelState.newSender, ChannelState.insertWaiter, lookup_insert,
      if_neg hne]
  | removeWaiter k =>
    have hne : k ≠ seq := by
      rintro rfl
      simp [RxAction.foreign] at hb
    simp only [ChannelState.access, ChannelState.removeWaiter, lookup_erase, if_neg hne]
  | clearWaiters =>
    rw [RxAction.foreign, hopen] at hb
    cases hb
  | _ => simp [ChannelState.access, ChannelState.newSender, ChannelState.removeConn,
      ChannelState.removeBind, ChannelState.nextSeq]

theorem Listens.step (h : Listens seq w rx) (hrx : rx.Inv) (hs : rx.step a = some rx')
    (ha : a.foreign (some seq) rx.chan.closed = true) : Listens seq w rx' := by
  intro hopen' hnone'
  have hopen := closed_of_step hs hopen'
  have hnone : rx.replyTo w = none := by
    by_contra hsome
    obtain ⟨f, hf⟩ := Option.ne_none_iff_exists'.mp hsome
    rw [replyTo_step hrx hs hf] at hnone'
    cases hnone'
  have hold := h hopen hnone
  have hrx' := hrx.step hs
  cases a with
  | rx =>
    cases RxState.rxStep_rx hs with
    | @correlated f k tx hpc hw =>
      rw [replyTo_eq_none hrx'] at hnone'
      have hne : k ≠ seq := by
        rintro rfl
        obtain rfl : w = tx := Option.some.inj (hold.symm.trans hw)
        exact hnone' f (List.mem_append_right _ (List.mem_singleton_self _))
      simp only [ChannelState.removeWaiter, lookup_erase, if_neg hne]
      exact hold
    | _ => exact hold
  | access b =>
    cases hs
    rw [RxState.accessStep_chan, access_foreign ha hopen]
    exact hold
  | read msg =>
    simp only [RxState.step] at hs
    split at hs <;> cases hs
    exact hold
  | readFailed =>
    simp only [RxState.step] at hs
    split at hs <;> cases hs
    exact hold
  | notify =>
    simp only [RxState.step] at hs
    split_ifs at hs
    cases hs
    exact hold
  | recv tx =>
    simp only [RxState.step] at hs
    split at hs <;> cases hs
    exact hold
  | dropReceiver tx =>
    cases hs
    exact hold

end Waiter

/-- What the observer knows at any time. -/
structure Base (s : AcceptState) : Prop where
  rx : s.rx.Inv
  own : ∀ seq w, s.waiter = some (seq, w) → Own seq w s.rx
  listens : ∀ seq w, s.waiter = some (seq, w) → s.outcome = none → Listens seq w s.rx
  current : s.outcome = none → s.reply = s.waiter.bind fun kw => s.rx.replyTo kw.2
  timely : ∀ f, s.reply = some f → s.outcome = none ∨ s.outcome = some (some (some f.msg))
  answered : ∀ m, s.outcome = some (some (some m)) →
    ∃ seq w f, s.waiter = some (seq, w) ∧ (f, Dest.waiter w) ∈ s.rx.delivered ∧ f.msg = m
  hungUp : s.outcome = some (some none) → s.rx.chan.closed = true

/-- What the accept itself has done and read. -/
structure Done where
  wire : List Message
  closedBefore : Bool
  waiter : Option (Int32 × SenderId)
  outcome : Option (Option (Option Message))

def AcceptState.done (s : AcceptState) : Done := ⟨s.wire, s.closedBefore, s.waiter, s.outcome⟩

section Base

variable {s s' : AcceptState} {a : RxAction} {rx' : RxState}

@[simp] theorem observe_rx : s.observe.rx = s.rx := by
  unfold AcceptState.observe; split <;> rfl

@[simp] theorem observe_done : s.observe.done = s.done := by
  unfold AcceptState.observe; split <;> rfl

theorem base_start {rx : RxState} (hrx : rx.Inv) : Base (.start rx) :=
  ⟨hrx, nofun, nofun, fun _ => rfl, nofun, nofun, nofun⟩

theorem Base.step (h : Base s) (hs : s.rx.step a = some rx')
    (ha : s.outcome = none → a.foreign (s.waiter.map (·.1)) s.rx.chan.closed = true) :
    Base ({ s with rx := rx' } : AcceptState).observe := by
  obtain ⟨rx, wire, closedBefore, waiter, reply, outcome⟩ := s
  have hown (seq : Int32) (w : SenderId) (hw : waiter = some (seq, w)) : Own seq w rx' :=
    (h.own seq w hw).step h.rx hs
  cases outcome with
  | none =>
    refine ⟨h.rx.step hs, hown, fun seq w hw _ => ?_, fun _ => rfl, fun f _ => .inl rfl, nofun, nofun⟩
    refine (h.listens seq w hw rfl).step h.rx hs ?_
    rw [show waiter = some (seq, w) from hw] at ha
    exact ha rfl
  | some o =>
    refine ⟨h.rx.step hs, hown, fun _ _ _ => nofun, nofun, h.timely, fun m hm => ?_, fun hm => ?_⟩
    · obtain ⟨seq, w, f, hw, hf, hmsg⟩ := h.answered m hm
      exact ⟨seq, w, f, hw, RxState.delivered_mono_step hs hf, hmsg⟩
    · by_contra hopen
      have hclosed := closed_of_step hs (Bool.eq_false_of_not_eq_true hopen)
      rw [h.hungUp hm] at hclosed
      cases hclosed

theorem env_cases (h : acceptRuntime.env a s = some s') :
    ∃ rx, a.foreign (s.waiter.map (·.1)) s.rx.chan.closed = true ∧ s.rx.step a = some rx ∧
      s' = ({ s with rx } : AcceptState).observe := by
  simp only [acceptRuntime] at h
  split_ifs at h with ha
  obtain ⟨rx, hs, rfl⟩ := Option.map_eq_some_iff.mp h
  exact ⟨rx, ha, hs, rfl⟩

theorem stable_base : acceptRuntime.Stable Base := by
  intro a s s' he h
  obtain ⟨rx, ha, hs, rfl⟩ := env_cases he
  exact h.step hs fun _ => ha

theorem stable_done (P : Done → Prop) : acceptRuntime.Stable fun s => P s.done := by
  intro a s s' he h
  obtain ⟨rx, -, -, rfl⟩ := env_cases he
  rw [observe_done]
  exact h

theorem Base.access (h : Base s) {b : Access}
    (hb : s.outcome = none →
      (RxAction.access b).foreign (s.waiter.map (·.1)) s.rx.chan.closed = true) :
    Base { s with rx := s.rx.accessStep b } := by
  have hstep := h.step (a := .access b) rfl hb
  obtain ⟨rx, wire, closedBefore, waiter, reply, outcome⟩ := s
  cases outcome with
  | none =>
    have hreply : reply = waiter.bind fun kw => (rx.accessStep b).replyTo kw.2 := by
      simp only [RxState.replyTo, RxState.accessStep_delivered]
      exact h.current rfl
    rw [hreply]
    exact hstep
  | some o => exact hstep

theorem Base.note (h : Base s) (wire : List Message) (closedBefore : Bool) :
    Base { s with wire, closedBefore } :=
  ⟨h.rx, h.own, h.listens, h.current, h.timely, h.answered, h.hungUp⟩

theorem Base.insertWaiter (h : Base s) (hw : s.waiter = none) (ho : s.outcome = none)
    (seq : Int32) :
    Base { s with
      rx := s.rx.accessStep (.insertWaiter seq), waiter := some (seq, s.rx.chan.senders) } := by
  have hnone (f : Frame) : (f, Dest.waiter s.rx.chan.senders) ∉ s.rx.delivered :=
    fun hf => (h.rx.waiting.created f _ hf).false
  have hrx : (s.rx.accessStep (.insertWaiter seq)).Inv := h.rx.step (a := .access (.insertWaiter seq)) rfl
  have hreply : s.reply = none := by rw [h.current ho, hw, Option.bind_none]
  refine ⟨hrx, ?_, ?_, fun _ => ?_, fun f hf => ?_, fun m hm => ?_, fun hm => ?_⟩
  · rintro _ _ ⟨⟩
    refine ⟨Nat.lt_succ_self _, fun k hk => ?_, fun f hf => absurd hf (hnone f)⟩
    obtain hold | ⟨ha, -⟩ := ChannelState.access_waiters hk
    · exact absurd (h.rx.routing.fresh.waiters_lt k _ hold) (lt_irrefl _)
    · cases ha
      rfl
  · rintro _ _ ⟨⟩ - - -
    simp only [RxState.accessStep_chan, ChannelState.access, ChannelState.newSender,
      ChannelState.insertWaiter, lookup_insert, if_pos]
  · rw [hreply]
    exact ((replyTo_eq_none hrx).mpr hnone).symm
  · rw [show s.reply = some f from hf] at hreply
    cases hreply
  · rw [show s.outcome = _ from hm] at ho
    cases ho
  · rw [show s.outcome = _ from hm] at ho
    cases ho

theorem resolve_shared (w : SenderId) : s.shared.resolve w =
    match s.rx.replyTo w with
    | some f => some (some f.msg)
    | none => if s.rx.chan.holds w then none else some none := by
  simp only [Shared.resolve, AcceptState.shared]
  cases s.rx.replyTo w <;> rfl

/-- The end of the wait: with the reply if there is one, and else, unless the time is up, because the
channel closed. -/
theorem Base.recvTimeout (h : Base s) {seq : Int32} {w : SenderId} (hw : s.waiter = some (seq, w))
    (ho : s.outcome = none) {x : Choice} {r : Option (Option Message) × Shared}
    (hx : (Cmd.recvTimeout w).exec x s.shared = some r) :
    Base { s with outcome := some r.1 } ∧ r.2 = s.shared := by
  have hcurrent : s.reply = s.rx.replyTo w := by rw [h.current ho, hw, Option.bind_some]
  simp only [Cmd.exec, resolve_shared] at hx
  cases hreply : s.rx.replyTo w with
  | some f =>
    rw [hreply] at hx
    cases hx
    refine ⟨⟨h.rx, h.own, by rintro _ _ _ ⟨⟩, by rintro ⟨⟩, fun g hg => ?_, fun m hm => ?_,
      by rintro ⟨⟩⟩, rfl⟩
    · rw [show s.reply = some g from hg, hreply] at hcurrent
      cases hcurrent
      exact .inr rfl
    · cases hm
      exact ⟨seq, w, f, hw, (replyTo_eq_some h.rx).mp hreply, rfl⟩
  | none =>
    rw [hreply] at hx hcurrent
    have htimely (g : Frame) (hg : s.reply = some g) :
        some r.1 = none ∨ some r.1 = some (some (some g.msg)) := by
      rw [hg] at hcurrent
      cases hcurrent
    by_cases hholds : s.rx.chan.holds w = true
    · simp only [if_pos hholds] at hx
      cases x with
      | elapsed =>
        cases hx
        exact ⟨⟨h.rx, h.own, by rintro _ _ _ ⟨⟩, by rintro ⟨⟩, htimely, by rintro _ ⟨⟩, by rintro ⟨⟩⟩,
          rfl⟩
      | _ => cases hx
    · simp only [if_neg hholds] at hx
      cases hx
      refine ⟨⟨h.rx, h.own, by rintro _ _ _ ⟨⟩, by rintro ⟨⟩, htimely, by rintro _ ⟨⟩, fun _ => ?_⟩,
        rfl⟩
      by_contra hopen
      have hlisten := h.listens seq w hw ho (Bool.eq_false_of_not_eq_true hopen) hreply
      exact hholds ((ChannelState.holds_iff _ _).mpr ⟨seq, hlisten⟩)

end Base

section Frames

variable {C : Crypto} (p : PendingAccept C)

def dialSuccessFrame (seq : Int32) : Message :=
  { withHeader (buildDialSuccess p.bindConnId p.childId) hdrReplyFor (i32ToLe p.dialSeq) with
    sequence := seq }

def dialFailedFrame (connId : UInt32) (dialSeq : Int32) (reason : String) (seq : Int32) : Message :=
  { withHeader (buildDialFailed connId reason) hdrReplyFor (i32ToLe dialSeq) with sequence := seq }

def stateClosedFrame (connId : UInt32) (seq : Int32) : Message :=
  { buildStateClosed connId with sequence := seq }

def streamHeaderFrame (connId : UInt32) (header : Bytes) (seq : Int32) : Message :=
  { buildData connId header true with sequence := seq }

/-- The wait ended with the router's `StateConnected`. -/
def Connected (seq : Int32) (d : Done) : Prop :=
  ∃ w m, d.waiter = some (seq, w) ∧ d.outcome = some (some (some m)) ∧
    m.contentType = ctStateConnected

/-- The stream header comes after the `DialSuccess` and, under an id of our own, after the
`StateConnected` that answers it. -/
def Ordered (d : Done) : Prop :=
  ∀ pre h post, d.wire = pre ++ h :: post → h.contentType = ctData →
    ∃ seq, dialSuccessFrame p seq ∈ pre ∧ (p.routerProvided = false → Connected seq d)

/-- How a call completes an accept. -/
inductive Completion where
  | success
  | failed (reason : String)

def complete : Completion → Proc (Option (Except EdgeError (EdgeConn C)))
  | .success => do
    let r ← completeSuccess p
    pure (some r)
  | .failed reason => do
    completeFailed p reason
    pure none

/-- The frames of a completed accept, with what led to them. -/
inductive Frames (s : AcceptState) :
    Completion → Option (Except EdgeError (EdgeConn C)) → Prop
  | failed {reason seq seq'} :
      s.wire = [dialFailedFrame p.bindConnId p.dialSeq reason seq, stateClosedFrame p.childId seq'] →
      Frames s (.failed reason) none
  | plain {conn seq} : s.wire = [dialSuccessFrame p seq] → p.cryptoSetup = none →
      (p.routerProvided = false → Connected seq s.done) → Frames s .success (some (.ok conn))
  | encrypted {conn crypto header seq seq'} :
      s.wire = [dialSuccessFrame p seq, streamHeaderFrame p.childId header seq'] →
      p.cryptoSetup = some (crypto, header) →
      (p.routerProvided = false → Connected seq s.done) → Frames s .success (some (.ok conn))
  | refused {err seq seq' m} :
      s.wire = [dialSuccessFrame p seq, stateClosedFrame p.childId seq'] →
      p.routerProvided = false → s.outcome = some (some (some m)) →
      m.contentType ≠ ctStateConnected → Frames s .success (some (.error err))
  | unanswered {err seq seq'} :
      s.wire = [dialSuccessFrame p seq,
        dialFailedFrame p.childId p.dialSeq "start reply not received" seq'] →
      p.routerProvided = false →
      (s.outcome = some none ∨ s.outcome = some (some none) ∧ s.rx.chan.closed = true) →
      Frames s .success (some (.error err))
  | alreadyClosed {err seq} :
      s.wire = [dialFailedFrame p.childId p.dialSeq "start reply not received" seq] →
      p.routerProvided = false → s.closedBefore = true → s.waiter = none →
      Frames s .success (some (.error err))

end Frames

section Rules

variable {C : Crypto} {p : PendingAccept C} {α : Type} {post : α → AcceptState → Prop}
  {s : AcceptState} {d : Done}

/-- Where the accept is. -/
def At (d : Done) (s : AcceptState) : Prop := Base s ∧ s.done = d

/-- What holds at any time. -/
def Sound (p : PendingAccept C) (s : AcceptState) : Prop := Base s ∧ Ordered p s.done

theorem stable_at : acceptRuntime.Stable (At d) := stable_base.and (stable_done (· = d))

theorem stable_sound : acceptRuntime.Stable (Sound p) := stable_base.and (stable_done (Ordered p))

theorem At.sound (h : At d s) (hd : Ordered p d) : Sound p s := ⟨h.1, by rw [h.2]; exact hd⟩

theorem ordered_snoc {msg : Message} (h : Ordered p d) (hmsg : msg.contentType ≠ ctData) :
    Ordered p { d with wire := d.wire ++ [msg] } := by
  intro pre m post hwire hdata
  rcases List.eq_nil_or_concat post with rfl | ⟨post', last, rfl⟩
  · have hlast := List.append_inj_right' hwire rfl
    cases hlast
    exact absurd hdata hmsg
  · have hcut : d.wire ++ [msg] = (pre ++ m :: post') ++ [last] := by
      rw [show d.wire ++ [msg] = _ from hwire]
      simp
    exact h pre m post' (List.append_inj_left' hcut rfl) hdata

theorem guarded_isClosed {k : Bool → Proc α} (hs : At d s) (hd : Ordered p d)
    (h : ∀ b s', At { d with closedBefore := b } s' → Guarded acceptRuntime (Sound p) post (k b) s') :
    Guarded acceptRuntime (Sound p) post (.call .isClosed k) s := by
  refine Guarded.call stable_at hs fun s₁ h₁ x r hx => ?_
  cases hx
  have hat : At { d with closedBefore := s₁.rx.chan.closed }
      { s₁ with closedBefore := s₁.rx.chan.closed } :=
    ⟨h₁.1.note s₁.wire _, by rw [← h₁.2]; rfl⟩
  exact ⟨hat.sound hd, h _ _ hat⟩

theorem guarded_nextSeq {k : Int32 → Proc α} (hs : At d s) (hd : Ordered p d)
    (h : ∀ seq s', At d s' → Guarded acceptRuntime (Sound p) post (k seq) s') :
    Guarded acceptRuntime (Sound p) post (.call .nextSeq k) s := by
  refine Guarded.call stable_at hs fun s₁ h₁ x r hx => ?_
  cases hx
  have hat : At d { s₁ with rx := s₁.rx.accessStep .nextSeq } :=
    ⟨h₁.1.access fun _ => rfl, h₁.2⟩
  exact ⟨hat.sound hd, h _ _ hat⟩

theorem guarded_removeConn {id : UInt32} {k : Unit → Proc α} (hs : At d s) (hd : Ordered p d)
    (h : ∀ s', At d s' → Guarded acceptRuntime (Sound p) post (k ()) s') :
    Guarded acceptRuntime (Sound p) post (.call (.removeConn id) k) s := by
  refine Guarded.call stable_at hs fun s₁ h₁ x r hx => ?_
  cases hx
  have hat : At d { s₁ with rx := s₁.rx.accessStep (.removeConn id) } :=
    ⟨h₁.1.access fun _ => rfl, h₁.2⟩
  exact ⟨hat.sound hd, h _ hat⟩

theorem guarded_removeWaiter {seq : Int32} {k : Unit → Proc α} (hs : At d s) (hd : Ordered p d)
    (ho : d.outcome ≠ none)
    (h : ∀ s', At d s' → Guarded acceptRuntime (Sound p) post (k ()) s') :
    Guarded acceptRuntime (Sound p) post (.call (.removeWaiter seq) k) s := by
  refine Guarded.call stable_at hs fun s₁ h₁ x r hx => ?_
  cases hx
  have hat : At d { s₁ with rx := s₁.rx.accessStep (.removeWaiter seq) } := by
    refine ⟨h₁.1.access fun hnone => absurd ?_ ho, h₁.2⟩
    rw [← h₁.2]
    exact hnone
  exact ⟨hat.sound hd, h _ hat⟩

theorem guarded_write {msg : Message} {k : Except ChannelError Unit → Proc α} (hs : At d s)
    (hd : Ordered p { d with wire := d.wire ++ [msg] })
    (h : ∀ s', At { d with wire := d.wire ++ [msg] } s' →
      Guarded acceptRuntime (Sound p) post (k (.ok ())) s') :
    Guarded acceptRuntime (Sound p) post (.call (.write msg) k) s := by
  refine Guarded.call stable_at hs fun s₁ h₁ x r hx => ?_
  cases x with
  | done =>
    cases hx
    have hat : At { d with wire := d.wire ++ [msg] } { s₁ with wire := s₁.wire ++ [msg] } :=
      ⟨h₁.1.note _ s₁.closedBefore, by rw [← h₁.2]; rfl⟩
    exact ⟨hat.sound hd, h _ hat⟩
  | failed e => cases hx
  | elapsed => cases hx

theorem guarded_insertWaiter {seq : Int32} {k : SenderId → Proc α} (hs : At d s)
    (hwaiter : d.waiter = none) (ho : d.outcome = none) (hd : ∀ w, Ordered p { d with waiter := w })
    (h : ∀ w s', At { d with waiter := some (seq, w) } s' →
      Guarded acceptRuntime (Sound p) post (k w) s') :
    Guarded acceptRuntime (Sound p) post (.call (.insertWaiter seq) k) s := by
  refine Guarded.call stable_at hs fun s₁ h₁ x r hx => ?_
  cases hx
  have hat : At { d with waiter := some (seq, s₁.rx.chan.senders) }
      { s₁ with
        rx := s₁.rx.accessStep (.insertWaiter seq), waiter := some (seq, s₁.rx.chan.senders) } := by
    obtain ⟨hbase, rfl⟩ := h₁
    exact ⟨hbase.insertWaiter hwaiter ho seq, rfl⟩
  exact ⟨hat.sound (hd _), h _ _ hat⟩

theorem guarded_recvTimeout {seq : Int32} {w : SenderId} {k : Option (Option Message) → Proc α}
    (hs : At d s) (hwaiter : d.waiter = some (seq, w)) (ho : d.outcome = none)
    (hd : ∀ o, Ordered p { d with outcome := o })
    (h : ∀ o s', At { d with outcome := some o } s' →
      Guarded acceptRuntime (Sound p) post (k o) s') :
    Guarded acceptRuntime (Sound p) post (.call (.recvTimeout w) k) s := by
  refine Guarded.call stable_at hs fun s₁ h₁ x r hx => ?_
  obtain ⟨⟨o, sh⟩, hexec, rfl⟩ := Option.map_eq_some_iff.mp
    (show ((Cmd.recvTimeout w).exec x s₁.shared).map _ = some r from hx)
  obtain ⟨hbase, rfl⟩ := h₁
  obtain ⟨hbase', rfl⟩ := hbase.recvTimeout hwaiter ho hexec
  have hat : At { s₁.done with outcome := some o } { s₁ with outcome := some o } := ⟨hbase', rfl⟩
  exact ⟨hat.sound (hd _), h _ _ hat⟩

theorem ordered_nil (h : d.wire = []) : Ordered p d := by
  intro pre m post hwire
  rw [h] at hwire
  cases List.append_eq_nil_iff.mp hwire.symm |>.2

theorem ordered_dialSuccess {seq : Int32} (h : d.wire = [dialSuccessFrame p seq]) : Ordered p d := by
  have hsnoc := ordered_snoc (p := p) (ordered_nil (d := { d with wire := [] }) rfl)
    (show (dialSuccessFrame p seq).contentType ≠ ctData from by
      show ctDialSuccess ≠ ctData
      decide)
  intro pre m post hwire hdata
  rw [h] at hwire
  exact hsnoc pre m post hwire hdata

theorem guarded_sendDialFailed {connId : UInt32} {dialSeq : Int32} {reason : String} (hs : At d s)
    (hd : Ordered p d) :
    Guarded acceptRuntime (Sound p)
      (fun _ s' => ∃ seq,
        At { d with wire := d.wire ++ [dialFailedFrame connId dialSeq reason seq] } s')
      (Proc.sendDialFailed connId dialSeq reason) s := by
  simp only [Proc.sendDialFailed, Proc.nextSeq, Proc.write, Program.lift_bind]
  refine guarded_nextSeq hs hd fun seq s₁ h₁ => ?_
  refine guarded_write h₁ (ordered_snoc hd ?_) fun s₂ h₂ => ⟨seq, h₂⟩
  show ctDialFailed ≠ ctData
  decide

theorem guarded_finishAccept {seq : Int32} (hs : At d s) (hwire : d.wire = [dialSuccessFrame p seq])
    (hconn : p.routerProvided = false → Connected seq d) :
    Guarded acceptRuntime (Sound p) (fun r s' => Frames p s' .success (some r)) (finishAccept p) s := by
  unfold finishAccept
  split
  · next hplain =>
    obtain ⟨-, rfl⟩ := hs
    exact .plain hwire hplain hconn
  · next crypto header hcrypto =>
    simp only [Proc.nextSeq, Proc.write, Proc.removeConn, Program.lift_bind]
    refine guarded_nextSeq hs (ordered_dialSuccess hwire) fun seq' s₁ h₁ => ?_
    refine guarded_write h₁ ?_ fun s₂ h₂ => ?_
    · intro pre m post hsplit hdata
      rw [hwire] at hsplit
      obtain rfl | ⟨a, pre', rfl⟩ : pre = [] ∨ ∃ a pre', pre = a :: pre' := by
        cases pre <;> simp
      · cases hsplit
        exact absurd hdata (show ctDialSuccess ≠ ctData by decide)
      · obtain rfl : dialSuccessFrame p seq = a := (List.cons.inj hsplit).1
        exact ⟨seq, List.mem_cons_self, hconn⟩
    · obtain ⟨-, hdone⟩ := h₂
      have hframes : s₂.wire = [dialSuccessFrame p seq, streamHeaderFrame p.childId header seq'] := by
        rw [show s₂.wire = _ from congrArg Done.wire hdone, hwire]
        rfl
      refine .encrypted hframes hcrypto fun hrp => ?_
      obtain ⟨w, m, hwaiter, hout, hm⟩ := hconn hrp
      refine ⟨w, m, ?_, ?_, hm⟩
      · rw [hdone]
        exact hwaiter
      · rw [hdone]
        exact hout

/-- What the wait for the start comes to. -/
def Awaited (p : PendingAccept C) (seq : Int32) (r : Except EdgeError Unit) (s : AcceptState) : Prop :=
  match r with
  | .ok () => ∃ d, At d s ∧ d.wire = [dialSuccessFrame p seq] ∧ Connected seq d
  | .error err => Frames p s .success (some (.error err))

theorem guarded_awaitStartReply {seq : Int32} {w : SenderId} (hs : At d s)
    (hrp : p.routerProvided = false) (hwire : d.wire = [dialSuccessFrame p seq])
    (hwaiter : d.waiter = some (seq, w)) (ho : d.outcome = none) :
    Guarded acceptRuntime (Sound p) (Awaited p seq)
      (awaitStartReply p.childId p.dialSeq seq w) s := by
  have hord (o : Option (Option (Option Message))) : Ordered p { d with outcome := o } :=
    ordered_dialSuccess hwire
  simp only [awaitStartReply, Proc.recvTimeout, Program.lift_bind]
  refine guarded_recvTimeout hs hwaiter ho hord fun o s₁ h₁ => ?_
  have hfailed (hout : o = none ∨ o = some none) :
      Guarded acceptRuntime (Sound p) (Awaited p seq)
        (do Proc.removeWaiter seq
            Proc.removeConn p.childId
            Proc.sendDialFailed p.childId p.dialSeq "start reply not received"
            pure (.error (.acceptStartFailed "start reply not received"))) s₁ := by
    simp only [Proc.removeWaiter, Proc.removeConn, Program.lift_bind]
    refine guarded_removeWaiter h₁ (hord _) (Option.some_ne_none _) fun s₂ h₂ => ?_
    refine guarded_removeConn h₂ (hord _) fun s₃ h₃ => ?_
    refine Guarded.bind ((guarded_sendDialFailed h₃ (hord _)).mono ?_)
    rintro _ s₄ ⟨seq', hbase, hdone⟩
    have hframes : s₄.wire = [dialSuccessFrame p seq,
        dialFailedFrame p.childId p.dialSeq "start reply not received" seq'] := by
      rw [show s₄.wire = _ from congrArg Done.wire hdone]
      dsimp only
      rw [hwire]
      rfl
    have houtcome : s₄.outcome = some o := congrArg Done.outcome hdone
    refine .unanswered hframes hrp ?_
    obtain rfl | rfl := hout
    · exact .inl houtcome
    · exact .inr ⟨houtcome, hbase.hungUp houtcome⟩
  cases o with
  | none => exact hfailed (.inl rfl)
  | some reply =>
    cases reply with
    | none => exact hfailed (.inr rfl)
    | some start =>
      dsimp only
      split_ifs with hct
      · exact ⟨_, h₁, hwire, w, start, hwaiter, rfl, hct⟩
      · simp only [Proc.nextSeq, Proc.write, Proc.removeConn, Program.lift_bind]
        refine guarded_nextSeq h₁ (hord _) fun seq' s₂ h₂ => ?_
        refine guarded_write h₂ (ordered_snoc (hord _) ?_) fun s₃ h₃ => ?_
        · show ctStateClosed ≠ ctData
          decide
        refine guarded_removeConn h₃ (ordered_snoc (hord _) ?_) fun s₄ h₄ => ?_
        · show ctStateClosed ≠ ctData
          decide
        have hframes : s₄.wire = [dialSuccessFrame p seq, stateClosedFrame p.childId seq'] := by
          rw [show s₄.wire = _ from congrArg Done.wire h₄.2]
          dsimp only
          rw [hwire]
          rfl
        exact .refused hframes hrp (congrArg Done.outcome h₄.2) hct

/-- Nothing written, read or waited for yet. -/
def Done.start : Done := ⟨[], false, none, none⟩

theorem guarded_completeSuccess (hs : At .start s) :
    Guarded acceptRuntime (Sound p) (fun r s' => Frames p s' .success (some r))
      (completeSuccess p) s := by
  unfold completeSuccess
  cases hrp : p.routerProvided with
  | true =>
    simp only [if_true, Program.pure_eq, Program.ret_bind, Bool.false_eq_true, if_false,
      Proc.nextSeq, Proc.write, Program.lift_bind]
    refine guarded_nextSeq hs (ordered_nil rfl) fun seq s₁ h₁ => ?_
    refine guarded_write h₁ (ordered_dialSuccess rfl) fun s₂ h₂ => ?_
    refine guarded_finishAccept h₂ rfl fun hfalse => ?_
    rw [hrp] at hfalse
    cases hfalse
  | false =>
    simp only [Bool.false_eq_true, if_false, Proc.isClosed, Program.lift_bind]
    refine guarded_isClosed hs (ordered_nil rfl) fun closed s₁ h₁ => ?_
    cases closed with
    | true =>
      simp only [if_true, Proc.removeConn, Program.lift_bind]
      refine guarded_removeConn h₁ (ordered_nil rfl) fun s₂ h₂ => ?_
      refine Guarded.bind ((guarded_sendDialFailed h₂ (ordered_nil rfl)).mono ?_)
      rintro _ s₃ ⟨seq, -, hdone⟩
      exact .alreadyClosed (congrArg Done.wire hdone) hrp (congrArg Done.closedBefore hdone)
        (congrArg Done.waiter hdone)
    | false =>
      simp only [Bool.false_eq_true, if_false, Proc.nextSeq, Proc.insertWaiter, Proc.write,
        Program.lift_bind]
      refine guarded_nextSeq h₁ (ordered_nil rfl) fun seq s₂ h₂ => ?_
      refine guarded_insertWaiter h₂ rfl rfl (fun _ => ordered_nil rfl) fun w s₃ h₃ => ?_
      refine guarded_write h₃ (ordered_dialSuccess rfl) fun s₄ h₄ => ?_
      refine Guarded.bind ((guarded_awaitStartReply h₄ hrp rfl rfl rfl).mono ?_)
      intro r s₅ hr
      cases r with
      | error err => exact hr
      | ok _ =>
        obtain ⟨d, hat, hwire, hconn⟩ := hr
        exact guarded_finishAccept hat hwire fun _ => hconn

theorem guarded_completeFailed {reason : String} (hs : At .start s) :
    Guarded acceptRuntime (Sound p) (fun _ s' => Frames p s' (.failed reason) none)
      (completeFailed p reason) s := by
  have hclosed (seq : Int32) : (stateClosedFrame p.childId seq).contentType ≠ ctData := by
    show ctStateClosed ≠ ctData
    decide
  have hfailed (seq : Int32) :
      Ordered p { Done.start with
        wire := [] ++ [dialFailedFrame p.bindConnId p.dialSeq reason seq] } := by
    refine ordered_snoc (d := .start) (ordered_nil rfl) ?_
    show ctDialFailed ≠ ctData
    decide
  unfold completeFailed
  refine Guarded.bind ((guarded_sendDialFailed hs (ordered_nil rfl)).mono ?_)
  rintro _ s₁ ⟨seq, h₁⟩
  simp only [Proc.nextSeq, Proc.write, Proc.removeConn, Program.lift_bind]
  refine guarded_nextSeq h₁ (hfailed seq) fun seq' s₂ h₂ => ?_
  refine guarded_write h₂ (ordered_snoc (hfailed seq) (hclosed seq')) fun s₃ h₃ => ?_
  refine guarded_removeConn h₃ (ordered_snoc (hfailed seq) (hclosed seq')) fun s₄ h₄ => ?_
  exact .failed (congrArg Done.wire h₄.2)

theorem guarded_complete (how : Completion) (hs : At .start s) :
    Guarded acceptRuntime (Sound p) (fun r s' => Frames p s' how r) (complete p how) s := by
  cases how with
  | success => exact Guarded.bind (guarded_completeSuccess hs)
  | failed reason => exact Guarded.bind (guarded_completeFailed hs)

/-- The `DialSuccess` is out, and the wait for its answer is neither answered nor over, on an open
channel. -/
structure Awaits (p : PendingAccept C) (seq : Int32) (w : SenderId) (s : AcceptState) : Prop where
  waiter : s.waiter = some (seq, w)
  written : dialSuccessFrame p seq ∈ s.wire
  pending : s.outcome = none
  unanswered : s.reply = none
  opened : s.rx.chan.closed = false

theorem Awaits.heard {seq : Int32} {w : SenderId} (h : Awaits p seq w s) (hs : Base s) {f : Frame}
    (hpc : s.rx.pc = .correlate f seq) {s' : AcceptState} (henv : acceptRuntime.env .rx s = some s') :
    (f, Dest.waiter w) ∈ s'.rx.delivered ∧ s'.reply = some f := by
  have hnone : s.rx.replyTo w = none := by
    have hcurrent := hs.current h.pending
    rw [h.unanswered, h.waiter, Option.bind_some] at hcurrent
    exact hcurrent.symm
  have hreg := hs.listens seq w h.waiter h.pending h.opened hnone
  obtain ⟨rx, -, hstep, rfl⟩ := env_cases henv
  have hrx := hs.rx.step hstep
  have hmem : (f, Dest.waiter w) ∈ rx.delivered := by
    simp only [RxState.step, RxState.rxStep, hpc, hreg] at hstep
    cases hstep
    exact List.mem_append_right _ (List.mem_singleton_self _)
  refine ⟨by rw [observe_rx]; exact hmem, ?_⟩
  have hreply : rx.replyTo w = some f := (replyTo_eq_some hrx).mpr hmem
  rw [AcceptState.observe]
  dsimp only
  rw [h.pending]
  dsimp only
  rw [h.waiter, Option.bind_some, hreply]

theorem reply_env {f : Frame} {a : RxAction} {s' : AcceptState} (hs : Base s)
    (henv : acceptRuntime.env a s = some s') (h : s.reply = some f) : s'.reply = some f := by
  obtain ⟨rx, -, hstep, rfl⟩ := env_cases henv
  obtain ⟨rx₀, wire, closedBefore, waiter, reply, outcome⟩ := s
  cases outcome with
  | some o => exact h
  | none =>
    have hcurrent : waiter.bind (fun kw => rx₀.replyTo kw.2) = some f := (hs.current rfl).symm.trans h
    obtain ⟨kw, rfl, hreply⟩ := Option.bind_eq_some_iff.mp hcurrent
    exact replyTo_step hs.rx hstep hreply

theorem reply_exec {β : Type} {c : Cmd β} {x : Choice} {r : β × AcceptState}
    (hx : acceptRuntime.exec c x s = some r) : r.2.reply = s.reply := by
  simp only [acceptRuntime] at hx
  split_ifs at hx
  obtain ⟨_, -, rfl⟩ := Option.map_eq_some_iff.mp hx
  cases c <;> rfl

theorem reply_step {f : Frame} {a : SoloAct RxAction Choice} {t t' : Solo Cmd AcceptState α}
    (hstep : Solo.step acceptRuntime t a = some t') (hs : Base t.state)
    (h : t.state.reply = some f) : t'.state.reply = some f := by
  unfold Solo.step at hstep
  split at hstep
  · cases a with
    | env e =>
      obtain ⟨st', he, rfl⟩ := Option.map_eq_some_iff.mp hstep
      exact reply_env hs he h
    | go x =>
      obtain ⟨r, hx, rfl⟩ := Option.map_eq_some_iff.mp hstep
      exact (reply_exec hx).trans h
    | drop => cases hstep
  · cases hstep

/-- An accept that was handed a `StateConnected` in time succeeds. -/
theorem Frames.of_reply {r : Option (Except EdgeError (EdgeConn C))} {f : Frame}
    (h : Frames p s .success r) (hs : Base s) (hreply : s.reply = some f)
    (hf : f.msg.contentType = ctStateConnected) : ∃ conn, r = some (.ok conn) := by
  have htimely := hs.timely f hreply
  cases h with
  | plain => exact ⟨_, rfl⟩
  | encrypted => exact ⟨_, rfl⟩
  | refused _ _ hout hm =>
    rw [hout] at htimely
    obtain htimely | htimely := htimely <;> cases htimely
    exact absurd hf hm
  | unanswered _ _ hout =>
    obtain hout | ⟨hout, -⟩ := hout <;> rw [hout] at htimely <;>
      obtain htimely | htimely := htimely <;> cases htimely
  | alreadyClosed _ _ _ hwaiter =>
    obtain hout | hout := htimely
    · have hcurrent := hs.current hout
      rw [hreply, hwaiter] at hcurrent
      cases hcurrent
    · obtain ⟨_, _, _, hw, -⟩ := hs.answered _ hout
      rw [hwaiter] at hw
      cases hw

end Rules

/-- The frames of the accept, their order, and that no answer is missed. -/
structure Handshake {C : Crypto} (p : PendingAccept C) (how : Completion)
    (t : Solo Cmd AcceptState (Option (Except EdgeError (EdgeConn C)))) : Prop where
  frames : ∀ r, t.prog = .ret r → Frames p t.state how r
  ordered : ∀ before h after, t.state.wire = before ++ h :: after → h.contentType = ctData →
    ∃ seq, dialSuccessFrame p seq ∈ before ∧ (p.routerProvided = false →
      ∃ f ∈ t.state.rx.inbound, headerI32 f.msg hdrReplyFor = some seq ∧
        f.msg.contentType = ctStateConnected)
  heard : how = .success → ∀ seq w f, Awaits p seq w t.state → t.state.rx.pc = .correlate f seq →
    f.msg.contentType = ctStateConnected → ∀ t₁, Solo.step acceptRuntime t (.env .rx) = some t₁ →
      (f, Dest.waiter w) ∈ t₁.state.rx.delivered ∧
      ∀ bs u r, run (Solo.step acceptRuntime) t₁ bs = some u → u.prog = .ret r →
        ∃ conn, r = some (.ok conn)

/-- An admitted encrypted dial for the child 5, under an id of our own. -/
def sealedFive : PendingAccept padCrypto :=
  ⟨9, 5, false, 1, 0, none, none, none, some (⟨(), none, none⟩, List.replicate streamHeaderBytes 0)⟩

/-- The router's answer to the first frame of a channel. -/
def startReply : Message :=
  withHeader (.new ctStateConnected []) hdrReplyFor (i32ToLe 1)

end Noa.Edge.Data
