import Noa.Framework.Progress
import Noa.Tunnel.Udp.Vconn

namespace Noa.Tunnel.Udp
open Noa.Framework Noa.Channel Noa.Edge Noa.Edge.Data

/-- The writer waits for a write call. -/
def Writer.inCall : Writer → Bool
  | .writing | .draining _ => true
  | .select | .drain _ | .returned => false

/-- The datagrams the writer still means to send, once it has seen the signal. -/
def Writer.left : Writer → Option Nat
  | .drain n | .draining n => some n
  | .returned => some 0
  | .select | .writing => none

theorem Writer.Calls.inCall {w w' : Writer} (h : w.Calls w') : w.inCall = false := by
  cases h <;> rfl

theorem Writer.Calls.waits {w w' : Writer} (h : w.Calls w') : w'.inCall = true := by
  cases h <;> rfl

theorem Writer.Calls.left {w w' : Writer} (h : w.Calls w') {n : Nat} (hn : w'.left = some n) :
    w.left = some (n + 1) := by
  cases h <;> cases hn
  rfl

theorem Writer.Resumes.inCall {w w' : Writer} (h : w.Resumes w') : w'.inCall = false := by
  cases h <;> rfl

theorem Writer.Resumes.left {w w' : Writer} (h : w.Resumes w') : w'.left = w.left := by
  cases h <;> rfl

namespace Vconn

variable {K D : Type} {C : Crypto} {v v' : Vconn K D C} {p : Pumps C} {o : Overlay C}

/-- Every datagram that was accepted is in a write call already made or in the queue; a writer that
has seen the signal means to send the whole queue. -/
structure Balanced (v : Vconn K D C) (p : Pumps C) : Prop where
  carrying : p.overlay.Carrying
  accepted : v.accepted = p.overlay.calls ++ v.queue
  left : ∀ n, p.writer.left = some n → n = v.queue.length

/-- While the pumps run: the signal comes after the flag, and nothing is lost unless the flow is
killed or a write fails. -/
structure Pumping (v : Vconn K D C) (p : Pumps C) : Prop where
  closed : p.done = true → v.closed = true
  reader : p.reader = .returned → p.done = true
  writer : ∀ n, p.writer.left = some n → p.done = true
  flight : p.overlay.flight.isSome = p.writer.inCall
  keyed : p.overlay.halves.reader.Keyed
  balanced : v.kill = false → p.overlay.failed = false → v.Balanced p

/-- The close is the last frame, and the frames before it carry all that was accepted. -/
structure Settled (v : Vconn K D C) (o : Overlay C) : Prop where
  closed : v.closed = true
  frames : v.kill = false → o.failed = false → ∃ frames close s, o.begun = frames ++ [close] ∧
    isStateClosed close = true ∧ Carries o.opened frames v.accepted s ∧ o.Whole

/-- The books of a vconn, by where its task is. -/
inductive Books (v : Vconn K D C) : Prop
  | dialing (ht : v.task = .dialing) (hopen : v.closed = false) (hq : v.accepted = v.queue)
  | pumping {p : Pumps C} (ht : v.task = .pumping p) (hp : v.Pumping p)
  | closing {o : Overlay C} (ht : v.task = .closing o) (hflight : o.flight.isSome = true)
      (hs : v.Settled o)
  | failed (ht : v.task = .ended none) (hclosed : v.closed = true)
  | ended {o : Overlay C} (ht : v.task = .ended (some o)) (hidle : o.flight = none)
      (hs : v.Settled o)

theorem Books.pumps (h : v.Books) (ht : v.task = .pumping p) : v.Pumping p := by
  cases h with
  | pumping ht' hp =>
    cases ht.symm.trans ht'
    exact hp
  | dialing ht' | closing ht' | failed ht' | ended ht' => cases ht.symm.trans ht'

theorem Books.closes (h : v.Books) (ht : v.task = .closing o) :
    o.flight.isSome = true ∧ v.Settled o := by
  cases h with
  | closing ht' hflight hs =>
    cases ht.symm.trans ht'
    exact ⟨hflight, hs⟩
  | dialing ht' | pumping ht' | failed ht' | ended ht' => cases ht.symm.trans ht'

theorem Books.dials (h : v.Books) (ht : v.task = .dialing) :
    v.closed = false ∧ v.accepted = v.queue := by
  cases h with
  | dialing _ hopen hq => exact ⟨hopen, hq⟩
  | pumping ht' | closing ht' | failed ht' | ended ht' => cases ht.symm.trans ht'

theorem books_new (key : K) (dial : D) (first : Bytes) (now : Nat) :
    (new key dial first now : Vconn K D C).Books :=
  .dialing rfl rfl rfl

theorem Books.deliver (h : v.Books) (hopen : v.closed = false) (d : Bytes) : (v.deliver d).Books := by
  unfold Vconn.deliver
  split_ifs
  · cases h with
    | dialing ht hopen hq => exact .dialing ht hopen (by simp [hq])
    | pumping ht hp =>
      refine .pumping ht ⟨hp.closed, hp.reader, hp.writer, hp.flight, hp.keyed, fun hkill hfail => ?_⟩
      have hb := hp.balanced hkill hfail
      refine ⟨hb.carrying, by simp [hb.accepted], fun n hn => ?_⟩
      -- a writer that has seen the signal has seen the flag
      rw [hp.closed (hp.writer n hn)] at hopen
      cases hopen
    | closing _ _ hs | ended _ _ hs =>
      rw [hs.closed] at hopen
      cases hopen
    | failed _ hclosed =>
      rw [hclosed] at hopen
      cases hopen
  · exact h

theorem Books.evict (h : v.Books) : v.evict.Books := by
  cases h with
  | dialing ht hopen hq => exact .dialing ht hopen hq
  | pumping ht hp =>
    refine .pumping ht ⟨hp.closed, hp.reader, hp.writer, hp.flight, hp.keyed, fun hkill hfail => ?_⟩
    have hb := hp.balanced hkill hfail
    exact ⟨hb.carrying, hb.accepted, hb.left⟩
  | closing ht hflight hs => exact .closing ht hflight ⟨hs.closed, hs.frames⟩
  | failed ht hclosed => exact .failed ht hclosed
  | ended ht hidle hs => exact .ended ht hidle ⟨hs.closed, hs.frames⟩

theorem Pumping.dialed (hq : v.accepted = v.queue) (connId : UInt32)
    (keys : Option (C.Push × SessionKey)) :
    (v.pump ⟨.new connId keys, false, .select, .select⟩).Pumping
      ⟨.new connId keys, false, .select, .select⟩ where
  closed := nofun
  reader := nofun
  writer := nofun
  flight := rfl
  keyed := Overlay.keyed_new connId keys
  balanced _ _ := ⟨Overlay.carrying_new connId keys, hq, nofun⟩

theorem Pumping.heard (h : v.Pumping p) (ho : p.overlay.Heard o) {r : Reader}
    (hr : r = .returned → p.reader = .returned) (used : Nat) (replies : List Bytes) :
    ({ v with lastUse := used, replies := replies }.pump
      { p with overlay := o, reader := r }).Pumping { p with overlay := o, reader := r } := by
  obtain ⟨halves, rfl, -⟩ := ho.rest
  refine ⟨h.closed, fun he => h.reader (hr he), h.writer, h.flight, ho.keyed h.keyed,
    fun hkill hfail => ?_⟩
  have hb := h.balanced hkill hfail
  exact ⟨hb.carrying.heard ho, hb.accepted, hb.left⟩

theorem Pumping.readerReturns (h : v.Pumping p) (ho : p.overlay.Heard o) :
    (v.readerReturns { p with overlay := o }).Pumping
      { p with overlay := o, reader := .returned, done := true } := by
  obtain ⟨halves, rfl, -⟩ := ho.rest
  refine ⟨fun _ => rfl, fun _ => rfl, fun _ _ => rfl, h.flight, ho.keyed h.keyed,
    fun hkill hfail => ?_⟩
  have hb := h.balanced hkill hfail
  exact ⟨hb.carrying.heard ho, hb.accepted, hb.left⟩

theorem Pumping.writerReturns (h : v.Pumping p) (hs : v.Stops p) :
    (v.writerReturns p).Pumping { p with writer := .returned, done := true } := by
  have hidle : p.writer.inCall = false := by
    rcases hs with ⟨-, hw | ⟨left, hw⟩⟩ | ⟨hw⟩ | ⟨hw⟩ | ⟨hw⟩ <;> rw [hw] <;> rfl
  refine ⟨fun _ => rfl, fun _ => rfl, fun _ _ => rfl, h.flight.trans hidle, h.keyed,
    fun hkill hfail => ?_⟩
  have hb := h.balanced hkill hfail
  refine ⟨hb.carrying, hb.accepted, fun n hn => ?_⟩
  cases hn
  cases hs with
  | killed hk => cases hk.symm.trans hkill
  | evicted _ _ hq => exact (List.length_eq_zero_iff.mpr hq).symm
  | drained hw => exact hb.left 0 (by rw [hw]; rfl)
  | emptied _ hq => exact (List.length_eq_zero_iff.mpr hq).symm

theorem Pumping.drains (h : v.Pumping p) (hw : p.writer = .select) (hdone : p.done = true) :
    (v.pump { p with writer := .drain v.queue.length }).Pumping
      { p with writer := .drain v.queue.length } := by
  have hidle : p.overlay.flight.isSome = false := by rw [h.flight, hw]; rfl
  refine ⟨h.closed, h.reader, fun _ _ => hdone, hidle, h.keyed, fun hkill hfail => ?_⟩
  have hb := h.balanced hkill hfail
  refine ⟨hb.carrying, hb.accepted, fun n hn => ?_⟩
  cases hn
  rfl

theorem Pumping.idle (h : v.Pumping p) (hw : p.writer.inCall = false) : p.overlay.flight = none := by
  have hflight := h.flight
  rw [hw] at hflight
  exact Option.not_isSome_iff_eq_none.mp (Bool.eq_false_iff.mp hflight)

theorem Pumping.forwards (h : v.Pumping p) {d : Bytes} {rest : List Bytes} {w : Writer} {seq : Int32}
    (hq : v.queue = d :: rest) (hw : p.writer.Calls w) (ho : p.overlay.write d seq = (true, o))
    (now : Nat) :
    ({ v with queue := rest, lastUse := now }.pump { p with overlay := o, writer := w }).Pumping
      { p with overlay := o, writer := w } := by
  have hidle := h.idle hw.inCall
  have hcarry (hb : v.Balanced p) := hb.carrying.write hidle ho
  obtain ⟨msg, wh, rfl, -⟩ := Overlay.write_sent ho
  refine ⟨h.closed, h.reader, fun n hn => h.writer _ (hw.left hn), hw.waits.symm, h.keyed,
    fun hkill hfail => ?_⟩
  have hb := h.balanced hkill hfail
  refine ⟨hcarry hb, ?_, fun n hn => ?_⟩
  · simp [pump, Overlay.send, hb.accepted, hq]
  · have hlen := hb.left _ (hw.left hn)
    rw [hq, List.length_cons] at hlen
    exact Nat.succ.inj hlen

theorem pumping_gaveUp (v : Vconn K D C) (p : Pumps C) (hfail : o.failed = true)
    (hidle : o.flight = none) (hkeyed : o.halves.reader.Keyed) :
    (v.writerReturns { p with overlay := o }).Pumping
      { p with overlay := o, writer := .returned, done := true } where
  closed _ := rfl
  reader _ := rfl
  writer _ _ := rfl
  flight := by rw [hidle]; rfl
  keyed := hkeyed
  balanced _ hok := by cases hfail.symm.trans hok

theorem Pumping.wrote (h : v.Pumping p) {w : Writer} (hw : p.writer.Resumes w)
    (ho : p.overlay.finish true = some o) :
    (v.pump { p with overlay := o, writer := w }).Pumping { p with overlay := o, writer := w } := by
  have hcarry (hb : v.Balanced p) := hb.carrying.finish ho
  obtain ⟨msg, -, rfl⟩ := Option.map_eq_some_iff.mp ho
  refine ⟨h.closed, h.reader, fun n hn => h.writer n (hw.left ▸ hn), hw.inCall.symm, h.keyed,
    fun hkill hfail => ?_⟩
  have hb := h.balanced hkill hfail
  exact ⟨hcarry hb, hb.accepted, fun n hn => hb.left n (hw.left ▸ hn)⟩

theorem Pumping.joins (h : v.Pumping p) (hw : p.writer = .returned) (seq : Int32) :
    Settled { v with task := .closing (p.overlay.close seq) } (p.overlay.close seq) := by
  have hdone := h.writer 0 (by rw [hw]; rfl)
  have hidle := h.idle (by rw [hw]; rfl)
  obtain ⟨msg, heq, hclose⟩ := p.overlay.close_eq seq
  rw [heq]
  refine ⟨h.closed hdone, fun hkill hfail => ?_⟩
  have hb := h.balanced hkill hfail
  have hqueue : v.queue = [] :=
    List.length_eq_zero_iff.mp (hb.left 0 (by rw [hw]; rfl)).symm
  refine ⟨p.overlay.begun, msg, p.overlay.halves.writer.sender, rfl, hclose, ?_,
    Overlay.Whole.send (o := { p.overlay with halves := _ }) hb.carrying.whole hidle msg⟩
  rw [hb.accepted, hqueue, List.append_nil]
  exact hb.carrying.carries

theorem Settled.finish (h : v.Settled o) {ok : Bool} {o' : Overlay C} (ho : o.finish ok = some o') :
    Settled { v with task := .ended (some o') } o' ∧ o'.flight = none := by
  cases ok with
  | false =>
    obtain ⟨msg, -, rfl⟩ := Option.map_eq_some_iff.mp ho
    exact ⟨⟨h.closed, nofun⟩, rfl⟩
  | true =>
    have hwhole (hw : o.Whole) := hw.finish ho
    obtain ⟨msg, -, rfl⟩ := Option.map_eq_some_iff.mp ho
    refine ⟨⟨h.closed, fun hkill hfail => ?_⟩, rfl⟩
    obtain ⟨frames, close, s, hbegun, hclose, hcarries, hw⟩ := h.frames hkill hfail
    exact ⟨frames, close, s, hbegun, hclose, hcarries, (hwhole hw).1⟩

theorem Books.cancel (h : v.Books) : Books { v with kill := true } := by
  cases h with
  | dialing ht hopen hq => exact .dialing ht hopen hq
  | pumping ht hp => exact .pumping ht ⟨hp.closed, hp.reader, hp.writer, hp.flight, hp.keyed, nofun⟩
  | closing ht hflight hs => exact .closing ht hflight ⟨hs.closed, nofun⟩
  | failed ht hclosed => exact .failed ht hclosed
  | ended ht hidle hs => exact .ended ht hidle ⟨hs.closed, nofun⟩

theorem Books.turn (h : v.Books) {a : TaskAct C} (ha : v.turn a = some v') : v'.Books := by
  cases turn_cases ha with
  | @dialed connId keys ht => exact .pumping rfl (.dialed (h.dials ht).2 connId keys)
  | dialFailed ht => exact .failed rfl rfl
  | told ht _ ho => exact .pumping rfl ((h.pumps ht).heard ho id v.lastUse v.replies)
  | listens ht _ _ _ hr ho =>
    exact .pumping rfl ((h.pumps ht).heard ho (fun he => absurd he hr) _ _)
  | @readerLoops _ _ p ht hr =>
    exact .pumping rfl ((h.pumps ht).heard (r := .select) (.refl _) nofun v.lastUse v.replies)
  | readerReturns ht _ ho => exact .pumping rfl ((h.pumps ht).readerReturns ho)
  | panics ht _ hk => exact absurd (h.pumps ht).keyed hk
  | writerReturns ht hs => exact .pumping rfl ((h.pumps ht).writerReturns hs)
  | drains ht hw _ hdone => exact .pumping rfl ((h.pumps ht).drains hw hdone)
  | forwards ht _ hq hw ho => exact .pumping rfl ((h.pumps ht).forwards hq hw ho _)
  | refused ht _ _ hw ho =>
    have hp := h.pumps ht
    rw [Overlay.write_refused ho]
    exact .pumping rfl (pumping_gaveUp _ _ rfl (hp.idle hw.inCall) hp.keyed)
  | wrote ht hw ho => exact .pumping rfl ((h.pumps ht).wrote hw ho)
  | broke ht _ ho =>
    obtain ⟨msg, -, rfl⟩ := Option.map_eq_some_iff.mp ho
    exact .pumping rfl (pumping_gaveUp _ _ rfl rfl (h.pumps ht).keyed)
  | joins ht _ hw => exact .closing rfl rfl ((h.pumps ht).joins hw _)
  | closes ht ho =>
    obtain ⟨hs, hidle⟩ := (h.closes ht).2.finish ho
    exact .ended rfl hidle hs
  | cancelled => exact h.cancel

/-- If the flow is not killed and no write fails, what stands before the close on the wire carries
all that was accepted, one frame a datagram, and nothing comes after it. -/
def Delivered (v : Vconn K D C) : Prop :=
  ∀ o, v.task.overlay = some o → v.kill = false → o.failed = false →
    ∀ frames close rest, o.wire = frames ++ close :: rest → isStateClosed close = true →
      rest = [] ∧ ∃ s, Carries o.opened frames v.accepted s

theorem not_stateClosed_of_carries {s s' : Option C.Push} {fs : List Message} {ws : List Bytes}
    (h : Carries s fs ws s') {m : Message} (hm : m ∈ fs) : isStateClosed m = false := by
  have hends := h.not_endsStream m hm
  simp only [endsStream, Bool.or_eq_false_iff] at hends
  exact hends.2

theorem Settled.delivered (h : v.Settled o) (hkill : v.kill = false) (hfail : o.failed = false)
    {frames rest : List Message} {close : Message} (hwire : o.wire = frames ++ close :: rest)
    (hclose : isStateClosed close = true) : rest = [] ∧ ∃ s, Carries o.opened frames v.accepted s := by
  obtain ⟨fs, last, s, hbegun, -, hcarries, hwhole⟩ := h.frames hkill hfail
  rw [Overlay.Whole, hbegun, hwire, List.append_assoc, List.cons_append] at hwhole
  rcases List.append_eq_append_iff.mp hwhole with ⟨more, hframes, htail⟩ | ⟨more, hfs, htail⟩
  · -- the close cannot stand behind the last frame
    cases more with
    | nil =>
      simp only [List.nil_append, List.cons.injEq, List.nil_eq, List.append_eq_nil_iff] at htail
      rw [hframes, List.append_nil]
      exact ⟨htail.2.1, s, hcarries⟩
    | cons m more =>
      simp only [List.cons_append, List.cons.injEq, List.nil_eq, List.append_eq_nil_iff] at htail
      cases htail.2.2
  · cases more with
    | nil =>
      simp only [List.nil_append, List.cons.injEq, List.append_eq_nil_iff] at htail
      rw [List.append_nil] at hfs
      exact ⟨htail.2.1, s, hfs ▸ hcarries⟩
    | cons m more =>
      simp only [List.cons_append, List.cons.injEq] at htail
      have hmem : close ∈ fs := by simp [hfs, htail.1]
      rw [not_stateClosed_of_carries hcarries hmem] at hclose
      cases hclose

theorem Books.delivered (h : v.Books) : v.Delivered := by
  intro o ho hkill hfail frames close rest hwire hclose
  cases h with
  | dialing ht | failed ht =>
    rw [ht] at ho
    cases ho
  | closing ht _ hs | ended ht _ hs =>
    rw [ht] at ho
    cases ho
    exact hs.delivered hkill hfail hwire hclose
  | @pumping p ht hp =>
    rw [ht] at ho
    cases ho
    -- as long as the pumps run there is no close
    have hcarry := (hp.balanced hkill hfail).carrying
    have hmem : close ∈ p.overlay.begun := by
      have hwhole := hcarry.whole
      rw [Overlay.Whole, hwire] at hwhole
      simp [hwhole]
    rw [not_stateClosed_of_carries hcarry.carries hmem] at hclose
    cases hclose

end Vconn

/-! How a vconn comes to its end. -/

/-- A move a task makes by itself, with its writes going through. -/
def TaskAct.own {C : Crypto} : TaskAct C → Bool
  | .reader _ _ | .writer _ _ | .wrote true | .join _ => true
  | .dialed _ _ | .dialFailed | .inbound _ | .hangUp | .wrote false | .cancel => false

/-- Moves the writer has before it, with so many datagrams in the queue and no more to come. -/
def Writer.rank : Writer → Nat → Nat
  | .select, queued => 2 * queued + 2
  | .writing, queued => 2 * queued + 3
  | .drain left, _ => 2 * left + 1
  | .draining left, _ => 2 * left + 2
  | .returned, _ => 0

/-- Moves the reader has before it, once it is told to stop. -/
def Reader.rank : Reader → Nat
  | .select => 1
  | .sending _ => 2
  | .returned => 0

theorem Writer.Calls.rank {w w' : Writer} (h : w.Calls w') (n : Nat) :
    w'.rank n < w.rank (n + 1) := by
  cases h <;> simp only [Writer.rank] <;> omega

theorem Writer.Resumes.rank {w w' : Writer} (h : w.Resumes w') (n : Nat) :
    w'.rank n < w.rank n := by
  cases h <;> exact Nat.lt_succ_self _

namespace Vconn

variable {K D : Type} {C : Crypto} {v v' : Vconn K D C} {p : Pumps C} {o : Overlay C}

def rank (v : Vconn K D C) : Nat :=
  match v.task with
  | .pumping p => p.writer.rank v.queue.length + p.reader.rank + 2
  | .closing _ => 1
  | _ => 0

/-- The end of an established vconn has begun: its handle is gone, or a pump has returned. -/
inductive Ending (v : Vconn K D C) : Prop
  | pumping {p : Pumps C} (ht : v.task = .pumping p) (hend : v.sender = false ∨ p.done = true)
  | closing {o : Overlay C} (ht : v.task = .closing o)
  | ended {o : Overlay C} (ht : v.task = .ended (some o))

theorem rank_pumping (ht : v.task = .pumping p) :
    v.rank = p.writer.rank v.queue.length + p.reader.rank + 2 := by
  rw [rank, ht]

theorem Stops.rank_pos (h : v.Stops p) (n : Nat) : 0 < p.writer.rank n := by
  rcases h with ⟨-, hw | ⟨left, hw⟩⟩ | ⟨hw⟩ | ⟨hw⟩ | ⟨hw⟩ <;> rw [hw] <;> exact Nat.succ_pos _

theorem writer_lowers {now : Nat} {seq : Int32} (h : v.Turn (.writer now seq) v') :
    v'.rank < v.rank := by
  cases h with
  | told _ ha => rcases ha with ⟨_, ha⟩ | ha <;> cases ha
  | writerReturns ht hs =>
    have hpos := hs.rank_pos v.queue.length
    rw [rank_pumping ht, rank_pumping (v := v.writerReturns _) rfl, Writer.rank]
    exact Nat.add_lt_add_right (Nat.add_lt_add_right hpos _) 2
  | drains ht hw =>
    rw [rank_pumping ht, rank_pumping (v := v.pump _) rfl, hw]
    exact Nat.add_lt_add_right (Nat.add_lt_add_right (Nat.lt_succ_self _) _) 2
  | forwards ht _ hq hw =>
    rw [rank_pumping ht, rank_pumping (v := Vconn.pump _ _) rfl, hq]
    exact Nat.add_lt_add_right (Nat.add_lt_add_right (hw.rank _) _) 2
  | refused ht _ hq hw =>
    rw [rank_pumping ht, rank_pumping (v := Vconn.writerReturns _ _) rfl, hq]
    exact Nat.add_lt_add_right (Nat.add_lt_add_right (Nat.zero_lt_of_lt (hw.rank _)) _) 2

theorem wrote_lowers (h : v.Turn (.wrote true) v') : v'.rank < v.rank := by
  cases h with
  | told _ ha => rcases ha with ⟨_, ha⟩ | ha <;> cases ha
  | wrote ht hw =>
    rw [rank_pumping ht, rank_pumping (v := v.pump _) rfl]
    exact Nat.add_lt_add_right (Nat.add_lt_add_right (hw.rank _) _) 2
  | closes ht =>
    rw [rank, rank, ht]
    exact Nat.zero_lt_one

theorem reader_lowers {now : Nat} {sent : Bool} (hb : v.Books) (ht : v.task = .pumping p)
    (hdone : p.done = true) (h : v.Turn (.reader now sent) v') : v'.rank < v.rank := by
  cases h with
  | told _ ha => rcases ha with ⟨_, ha⟩ | ha <;> cases ha
  | listens ht' _ hd =>
    cases ht.symm.trans ht'
    cases hd.symm.trans hdone
  | readerLoops ht' hr =>
    rw [rank_pumping ht', rank_pumping (v := v.pump _) rfl, hr]
    exact Nat.add_lt_add_right (Nat.lt_succ_self _) 2
  | @readerReturns _ _ p _ ht' hp =>
    rw [rank_pumping ht', rank_pumping (v := v.readerReturns _) rfl]
    have hpos : 0 < p.reader.rank := by
      cases hr : p.reader <;> simp_all [Reader.rank]
    exact Nat.add_lt_add_right (Nat.add_lt_add_left hpos _) 2
  | panics ht' _ hk => exact absurd (hb.pumps ht').keyed hk

theorem join_lowers {seq : Int32} (h : v.Turn (.join seq) v') : v'.rank < v.rank := by
  cases h with
  | told _ ha => rcases ha with ⟨_, ha⟩ | ha <;> cases ha
  | joins ht =>
    rw [rank_pumping ht, rank]
    exact Nat.succ_lt_succ (Nat.succ_pos _)

theorem writer_enabled (ht : v.task = .pumping p)
    (hend : v.kill = true ∨ v.sender = false ∨ p.done = true)
    (hidle : p.writer.inCall = false) (hw : p.writer ≠ .returned) :
    (v.turn (.writer 0 0)).isSome = true := by
  have hturn : v.turn (.writer 0 0) = v.pumpUdpToZiti p 0 0 := by rw [turn, ht]
  rw [hturn, pumpUdpToZiti]
  cases hp : p.writer with
  | writing | draining left =>
    rw [hp] at hidle
    cases hidle
  | returned => exact absurd hp hw
  | drain left =>
    cases left with
    | zero => rfl
    | succ left =>
      dsimp only
      split_ifs
      · rfl
      · cases v.queue <;> rfl
  | select =>
    dsimp only
    by_cases hkill : v.kill = true
    · rw [if_pos hkill]
      rfl
    by_cases hdone : p.done = true
    · rw [if_neg hkill, if_pos hdone]
      rfl
    rw [if_neg hkill, if_neg hdone]
    cases v.queue with
    | cons d rest => rfl
    | nil =>
      rw [(hend.resolve_left hkill).resolve_right hdone]
      rfl

theorem wrote_enabled (hb : v.Books) (ht : v.task = .pumping p) (hcall : p.writer.inCall = true) :
    (v.turn (.wrote true)).isSome = true := by
  have hflight := (hb.pumps ht).flight.trans hcall
  obtain ⟨msg, hmsg⟩ := Option.isSome_iff_exists.mp hflight
  rw [turn, wrote, ht]
  cases hw : p.writer with
  | writing | draining left => simp [hw, Overlay.finish, hmsg]
  | select | drain left | returned =>
    rw [hw] at hcall
    cases hcall

theorem reader_enabled (ht : v.task = .pumping p) (hstop : v.kill = true ∨ p.done = true)
    (hr : p.reader ≠ .returned) : (v.turn (.reader 0 true)).isSome = true := by
  have hturn : v.turn (.reader 0 true) = v.pumpZitiToUdp p 0 true := by rw [turn, ht]
  have hor : (v.kill || p.done) = true := Bool.or_eq_true_iff.mpr hstop
  rw [hturn, pumpZitiToUdp]
  cases hp : p.reader with
  | returned => exact absurd hp hr
  | select => simp only [hor, if_true, Option.isSome_some]
  | sending pieces =>
    cases pieces with
    | nil => rfl
    | cons piece rest => simp only [hor, if_true, Option.isSome_some]

theorem Ending.turn (he : v.Ending) {a : TaskAct C} (ha : a.own = true) (hb : v.Books)
    (h : v.turn a = some v') : v'.Ending := by
  cases turn_cases h with
  | told _ hact => rcases hact with ⟨_, rfl⟩ | rfl <;> cases ha
  | broke | dialed | dialFailed | cancelled => cases ha
  | panics ht _ hk => exact absurd (hb.pumps ht).keyed hk
  | joins => exact .closing rfl
  | closes => exact .ended rfl
  | readerReturns | writerReturns | refused => exact .pumping rfl (.inr rfl)
  | listens ht | readerLoops ht | drains ht | forwards ht | wrote ht =>
    cases he with
    | pumping ht' hend =>
      cases ht.symm.trans ht'
      exact .pumping rfl hend
    | closing ht' | ended ht' => cases ht.symm.trans ht'

theorem Ending.step (he : v.Ending) (hb : v.Books) (hg : ¬∃ o, v.task = .ended (some o)) :
    ∃ a v', a.own = true ∧ v.turn a = some v' ∧ (v'.Ending ∧ v'.Books) ∧ v'.rank < v.rank := by
  have hgo {a : TaskAct C} (ha : a.own = true) (hsome : (v.turn a).isSome = true)
      (hlow : ∀ v', v.Turn a v' → v'.rank < v.rank) :
      ∃ a v', a.own = true ∧ v.turn a = some v' ∧ (v'.Ending ∧ v'.Books) ∧ v'.rank < v.rank := by
    obtain ⟨v', hv'⟩ := Option.isSome_iff_exists.mp hsome
    exact ⟨a, v', ha, hv', ⟨he.turn ha hb hv', hb.turn hv'⟩, hlow v' (turn_cases hv')⟩
  cases he with
  | ended ht => exact absurd ⟨_, ht⟩ hg
  | @closing o ht =>
    obtain ⟨msg, hmsg⟩ := Option.isSome_iff_exists.mp (hb.closes ht).1
    refine hgo (a := .wrote true) rfl ?_ fun _ => wrote_lowers
    simp [Vconn.turn, Vconn.wrote, ht, Overlay.finish, hmsg]
  | @pumping p ht hend =>
    cases hcall : p.writer.inCall with
    | true => exact hgo (a := .wrote true) rfl (wrote_enabled hb ht hcall) fun _ => wrote_lowers
    | false =>
      by_cases hw : p.writer = .returned
      · have hdone : p.done = true := (hb.pumps ht).writer 0 (by rw [hw]; rfl)
        by_cases hr : p.reader = .returned
        · refine hgo (a := .join 0) rfl ?_ fun _ => join_lowers
          simp [Vconn.turn, ht, hr, hw]
        · exact hgo (a := .reader 0 true) rfl (reader_enabled ht (.inr hdone) hr)
            fun _ => reader_lowers hb ht hdone
      · exact hgo (a := .writer 0 0) rfl (writer_enabled ht (.inr hend) hcall hw)
          fun _ => writer_lowers

/-- From the beginning of its end, the moves of a vconn's task close its connection. -/
theorem Ending.finishes (he : v.Ending) (hb : v.Books) : ∃ as v' o, (∀ a ∈ as, TaskAct.own a = true) ∧
    run Vconn.turn v as = some v' ∧ v'.task = .ended (some o) := by
  obtain ⟨as, v', has, hrun, -, o, ho⟩ := @run_reaches _ _ Vconn.turn
    (fun v : Vconn K D C => v.Ending ∧ v.Books) (fun v => ∃ o, v.task = .ended (some o))
    (TaskAct.own · = true) rank (fun v hv hg => hv.1.step hv.2 hg) v ⟨he, hb⟩
  exact ⟨as, v', o, has, hrun, ho⟩

end Vconn

end Noa.Tunnel.Udp
