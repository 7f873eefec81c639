import Noa.Tunnel.Overlay

namespace Noa.Tunnel.Udp
open Noa.Framework Noa.Channel Noa.Edge Noa.Edge.Data

/-- Datagrams that wait in the queue of a vconn. -/
def vconnQueueDepth : Nat := 16

/-- Nanoseconds. -/
def vconnIdleTimeout : Nat := 5 * 60 * 1000000000

def udpPieces (chunk : Bytes) (max : Nat) : List Bytes := chunk.toChunks max

/-- Where `pump_udp_to_ziti` is: at the select of its loop or in a write call it makes there, at the
head of `drain_queued_to_ziti` with so many turns left or in one of its write calls, or done. -/
inductive Writer where
  | select
  | writing
  | drain (left : Nat)
  | draining (left : Nat)
  | returned
  deriving DecidableEq

/-- Where `pump_ziti_to_udp` is: at the select of its loop, or with pieces of a chunk to send. -/
inductive Reader where
  | select
  | sending (pieces : List Bytes)
  | returned
  deriving DecidableEq

/-- What `drive_vconn` joins; `done` is what a pump that returns signals to the other. -/
structure Pumps (C : Crypto) where
  overlay : Overlay C
  done : Bool
  reader : Reader
  writer : Writer

/-- Where `run_vconn` is. It ends without a connection if the dial fails. -/
inductive Task (C : Crypto) where
  | dialing
  | pumping (p : Pumps C)
  | closing (o : Overlay C)
  | ended (o : Option (Overlay C))
  | panicked

/-- A vconn: the queue, the time stamp and the flag that its handle shares with its task, the token
of an intercepted flow, which a proxied one never has cancelled, and the task. `sender` tells
whether the handle, which has the queue's only sender, is still there; `accepted` has all that was
ever put into the queue. -/
structure Vconn (K D : Type) (C : Crypto) where
  key : K
  dial : D
  queue : List Bytes
  sender : Bool
  lastUse : Nat
  closed : Bool
  kill : Bool
  task : Task C
  replies : List Bytes
  accepted : List Bytes

/-- What moves the task of a vconn. `reader` and `writer` go on with one of the pumps, from where it
is up to its next await: the outcome of a datagram sent to the client and the number of a frame
are given. -/
inductive TaskAct (C : Crypto) where
  | dialed (connId : UInt32) (keys : Option (C.Push × SessionKey))
  | dialFailed
  | inbound (msg : Message)
  | hangUp
  | reader (now : Nat) (sent : Bool)
  | writer (now : Nat) (seq : Int32)
  | wrote (ok : Bool)
  | join (seq : Int32)
  | cancel

/-- The task has its end of the queue and its token. -/
def Task.alive {C : Crypto} : Task C → Bool
  | .ended _ | .panicked => false
  | _ => true

def Task.overlay {C : Crypto} : Task C → Option (Overlay C)
  | .pumping p => some p.overlay
  | .closing o => some o
  | .ended o => o
  | .dialing | .panicked => none

namespace Vconn

variable {K D : Type} {C : Crypto}

/-- The handle's and the task's ends, with the first datagram in the queue. -/
def new (key : K) (dial : D) (first : Bytes) (now : Nat) : Vconn K D C :=
  ⟨key, dial, [first], true, now, false, false, .dialing, [], [first]⟩

/-- `try_send`: a full queue, or one whose task is gone, drops the datagram. -/
def deliver (v : Vconn K D C) (datagram : Bytes) : Vconn K D C :=
  if v.task.alive && v.queue.length < vconnQueueDepth then
    { v with queue := v.queue ++ [datagram], accepted := v.accepted ++ [datagram] }
  else v

/-- The handle is dropped. -/
def evict (v : Vconn K D C) : Vconn K D C := { v with sender := false }

def pump (v : Vconn K D C) (p : Pumps C) : Vconn K D C := { v with task := .pumping p }

/-- What follows the return of a pump: the flag, then the signal. -/
def markClosed (v : Vconn K D C) (p : Pumps C) : Vconn K D C :=
  { v with closed := true }.pump { p with done := true }

def writerReturns (v : Vconn K D C) (p : Pumps C) : Vconn K D C :=
  v.markClosed { p with writer := .returned }

def readerReturns (v : Vconn K D C) (p : Pumps C) : Vconn K D C :=
  v.markClosed { p with reader := .returned }

/-- A datagram off the queue goes into a write call, which `next` waits for. -/
def forward (v : Vconn K D C) (p : Pumps C) (datagram : Bytes) (rest : List Bytes) (next : Writer)
    (now : Nat) (seq : Int32) : Vconn K D C :=
  let v := { v with queue := rest, lastUse := now }
  match p.overlay.write datagram seq with
  | (true, o) => v.pump { p with overlay := o, writer := next }
  | (false, o) => v.writerReturns { p with overlay := o }

/-- `pump_udp_to_ziti`; no step while the select waits or a write call runs. -/
def pumpUdpToZiti (v : Vconn K D C) (p : Pumps C) (now : Nat) (seq : Int32) :
    Option (Vconn K D C) :=
  match p.writer with
  | .select =>
    if v.kill then some (v.writerReturns p)
    else if p.done then some (v.pump { p with writer := .drain v.queue.length })
    else match v.queue with
      | d :: rest => some (v.forward p d rest .writing now seq)
      | [] => if v.sender then none else some (v.writerReturns p)
  | .drain 0 => some (v.writerReturns p)
  | .drain (left + 1) =>
    if v.kill then some (v.writerReturns p)
    else match v.queue with
      | d :: rest => some (v.forward p d rest (.draining left) now seq)
      | [] => some (v.writerReturns p)
  | .writing | .draining _ | .returned => none

/-- `pump_ziti_to_udp`. -/
def pumpZitiToUdp (v : Vconn K D C) (p : Pumps C) (now : Nat) (sent : Bool) :
    Option (Vconn K D C) :=
  match p.reader with
  | .select =>
    if v.kill || p.done then some (v.readerReturns p)
    else
      let (result, o) := p.overlay.read
      let p := { p with overlay := o }
      match result with
      | none => some (v.pump p)
      | some (.ok (some chunk)) =>
        some ({ v with lastUse := now }.pump { p with reader := .sending (udpPieces chunk proxyBuf) })
      | some (.ok none) | some (.error _) => some (v.readerReturns p)
      | some .panicked => some { v with task := .panicked }
  | .sending [] => some (v.pump { p with reader := .select })
  | .sending (piece :: rest) =>
    if v.kill || p.done then some (v.readerReturns p)
    else if sent then
      some ({ v with replies := v.replies ++ [piece] }.pump { p with reader := .sending rest })
    else some (v.readerReturns p)
  | .returned => none

/-- The write call of a pump, or of the close, returns. -/
def wrote (v : Vconn K D C) (ok : Bool) : Option (Vconn K D C) :=
  match v.task with
  | .pumping p =>
    match p.writer with
    | .writing => (p.overlay.finish ok).map fun o =>
      if ok then v.pump { p with overlay := o, writer := .select }
      else v.writerReturns { p with overlay := o }
    | .draining left => (p.overlay.finish ok).map fun o =>
      if ok then v.pump { p with overlay := o, writer := .drain left }
      else v.writerReturns { p with overlay := o }
    | _ => none
  | .closing o => (o.finish ok).map fun o => { v with task := .ended (some o) }
  | _ => none

/-- One move of the task, or the cancellation of its token. -/
def turn (v : Vconn K D C) : TaskAct C → Option (Vconn K D C)
  | .dialed connId keys =>
    match v.task with
    | .dialing => some (v.pump ⟨.new connId keys, false, .select, .select⟩)
    | _ => none
  | .dialFailed =>
    match v.task with
    | .dialing => some { v with closed := true, task := .ended none }
    | _ => none
  | .inbound msg =>
    match v.task with
    | .pumping p => some (v.pump { p with overlay := p.overlay.inbound msg })
    | _ => none
  | .hangUp =>
    match v.task with
    | .pumping p => some (v.pump { p with overlay := p.overlay.hangUp })
    | _ => none
  | .reader now sent =>
    match v.task with
    | .pumping p => v.pumpZitiToUdp p now sent
    | _ => none
  | .writer now seq =>
    match v.task with
    | .pumping p => v.pumpUdpToZiti p now seq
    | _ => none
  | .wrote ok => v.wrote ok
  | .join seq =>
    match v.task with
    | .pumping p =>
      if p.reader = .returned ∧ p.writer = .returned then
        some { v with task := .closing (p.overlay.close seq) }
      else none
    | _ => none
  | .cancel => if v.task.alive then some { v with kill := true } else none

end Vconn

/-- The pump takes a datagram: it waits for the write call in the second state. -/
inductive Writer.Calls : Writer → Writer → Prop
  | loop : Calls .select .writing
  | drain (left : Nat) : Calls (.drain (left + 1)) (.draining left)

/-- The pump goes on after a write call. -/
inductive Writer.Resumes : Writer → Writer → Prop
  | loop : Resumes .writing .select
  | drain (left : Nat) : Resumes (.draining left) (.drain left)

namespace Vconn

variable {K D : Type} {C : Crypto}

/-- Why the writer may return without having tried to write. -/
inductive Stops (v : Vconn K D C) (p : Pumps C) : Prop
  | killed (hkill : v.kill = true) (hw : p.writer = .select ∨ ∃ left, p.writer = .drain left)
  | evicted (hw : p.writer = .select) (hdone : p.done = false) (hq : v.queue = [])
      (hs : v.sender = false)
  | drained (hw : p.writer = .drain 0)
  | emptied {left : Nat} (hw : p.writer = .drain (left + 1)) (hq : v.queue = [])

/-- What a move of the task does. -/
inductive Turn (v : Vconn K D C) : TaskAct C → Vconn K D C → Prop
  | dialed {connId : UInt32} {keys : Option (C.Push × SessionKey)} (ht : v.task = .dialing) :
    Turn v (.dialed connId keys) (v.pump ⟨.new connId keys, false, .select, .select⟩)
  | dialFailed (ht : v.task = .dialing) :
    Turn v .dialFailed { v with closed := true, task := .ended none }
  | told {a : TaskAct C} {p : Pumps C} {o : Overlay C} (ht : v.task = .pumping p)
      (ha : (∃ msg, a = .inbound msg) ∨ a = .hangUp) (ho : p.overlay.Heard o) :
    Turn v a (v.pump { p with overlay := o })
  | listens {now : Nat} {sent : Bool} {p : Pumps C} {o : Overlay C} {r : Reader} {used : Nat}
      {replies : List Bytes} (ht : v.task = .pumping p) (hkill : v.kill = false)
      (hdone : p.done = false) (hp : p.reader ≠ .returned) (hr : r ≠ .returned)
      (ho : p.overlay.Heard o) :
    Turn v (.reader now sent)
      ({ v with lastUse := used, replies := replies }.pump { p with overlay := o, reader := r })
  | readerLoops {now : Nat} {sent : Bool} {p : Pumps C} (ht : v.task = .pumping p)
      (hr : p.reader = .sending []) :
    Turn v (.reader now sent) (v.pump { p with reader := .select })
  | readerReturns {now : Nat} {sent : Bool} {p : Pumps C} {o : Overlay C} (ht : v.task = .pumping p)
      (hp : p.reader ≠ .returned) (ho : p.overlay.Heard o) :
    Turn v (.reader now sent) (v.readerReturns { p with overlay := o })
  | panics {now : Nat} {sent : Bool} {p : Pumps C} (ht : v.task = .pumping p)
      (hkill : v.kill = false) (hk : ¬p.overlay.halves.reader.Keyed) :
    Turn v (.reader now sent) { v with task := .panicked }
  | writerReturns {now : Nat} {seq : Int32} {p : Pumps C} (ht : v.task = .pumping p)
      (hs : v.Stops p) :
    Turn v (.writer now seq) (v.writerReturns p)
  | drains {now : Nat} {seq : Int32} {p : Pumps C} (ht : v.task = .pumping p)
      (hw : p.writer = .select) (hkill : v.kill = false) (hdone : p.done = true) :
    Turn v (.writer now seq) (v.pump { p with writer := .drain v.queue.length })
  | forwards {now : Nat} {seq : Int32} {p : Pumps C} {d : Bytes} {rest : List Bytes} {w : Writer}
      {o : Overlay C} (ht : v.task = .pumping p) (hkill : v.kill = false) (hq : v.queue = d :: rest)
      (hw : p.writer.Calls w) (ho : p.overlay.write d seq = (true, o)) :
    Turn v (.writer now seq)
      ({ v with queue := rest, lastUse := now }.pump { p with overlay := o, writer := w })
  | refused {now : Nat} {seq : Int32} {p : Pumps C} {d : Bytes} {rest : List Bytes} {w : Writer}
      {o : Overlay C} (ht : v.task = .pumping p) (hkill : v.kill = false) (hq : v.queue = d :: rest)
      (hw : p.writer.Calls w) (ho : p.overlay.write d seq = (false, o)) :
    Turn v (.writer now seq)
      ({ v with queue := rest, lastUse := now }.writerReturns { p with overlay := o })
  | wrote {p : Pumps C} {w : Writer} {o : Overlay C} (ht : v.task = .pumping p)
      (hw : p.writer.Resumes w) (ho : p.overlay.finish true = some o) :
    Turn v (.wrote true) (v.pump { p with overlay := o, writer := w })
  | broke {p : Pumps C} {w : Writer} {o : Overlay C} (ht : v.task = .pumping p)
      (hw : p.writer.Resumes w) (ho : p.overlay.finish false = some o) :
    Turn v (.wrote false) (v.writerReturns { p with overlay := o })
  | joins {seq : Int32} {p : Pumps C} (ht : v.task = .pumping p) (hr : p.reader = .returned)
      (hw : p.writer = .returned) :
    Turn v (.join seq) { v with task := .closing (p.overlay.close seq) }
  | closes {ok : Bool} {o o' : Overlay C} (ht : v.task = .closing o) (ho : o.finish ok = some o') :
    Turn v (.wrote ok) { v with task := .ended (some o') }
  | cancelled (ht : v.task.alive = true) : Turn v .cancel { v with kill := true }

variable {v v' : Vconn K D C} {p : Pumps C} {now : Nat} {seq : Int32}

theorem forward_turn {d : Bytes} {rest : List Bytes} {w : Writer} (ht : v.task = .pumping p)
    (hkill : v.kill = false) (hq : v.queue = d :: rest) (hw : p.writer.Calls w) :
    v.Turn (.writer now seq) (v.forward p d rest w now seq) := by
  unfold forward
  rcases ho : p.overlay.write d seq with ⟨_ | _, o⟩
  · exact .refused ht hkill hq hw ho
  · exact .forwards ht hkill hq hw ho

theorem pumpUdpToZiti_turn (ht : v.task = .pumping p) (h : v.pumpUdpToZiti p now seq = some v') :
    v.Turn (.writer now seq) v' := by
  unfold pumpUdpToZiti at h
  split at h
  · next hw =>
    by_cases hkill : v.kill = true
    · rw [if_pos hkill] at h
      cases h
      exact .writerReturns ht (.killed hkill (.inl hw))
    rw [if_neg hkill] at h
    by_cases hdone : p.done = true
    · rw [if_pos hdone] at h
      cases h
      exact .drains ht hw (Bool.eq_false_iff.mpr hkill) hdone
    rw [if_neg hdone] at h
    split at h
    · next d rest hq =>
      cases h
      exact forward_turn ht (Bool.eq_false_iff.mpr hkill) hq (hw ▸ .loop)
    · next hq =>
      split_ifs at h with hs
      cases h
      exact .writerReturns ht
        (.evicted hw (Bool.eq_false_iff.mpr hdone) hq (Bool.eq_false_iff.mpr hs))
  · next hw =>
    cases h
    exact .writerReturns ht (.drained hw)
  · next left hw =>
    split_ifs at h with hkill
    · cases h
      exact .writerReturns ht (.killed hkill (.inr ⟨_, hw⟩))
    · split at h
      · next d rest hq =>
        cases h
        exact forward_turn ht (Bool.eq_false_iff.mpr hkill) hq (hw ▸ .drain left)
      · next hq =>
        cases h
        exact .writerReturns ht (.emptied hw hq)
  all_goals cases h

theorem pumpZitiToUdp_turn {sent : Bool} (ht : v.task = .pumping p)
    (h : v.pumpZitiToUdp p now sent = some v') : v.Turn (.reader now sent) v' := by
  have hsame := Overlay.Heard.refl p.overlay
  have hread := p.overlay.heard_read
  unfold pumpZitiToUdp at h
  split at h
  · next hr =>
    have hp : p.reader ≠ .returned := by simp [hr]
    split_ifs at h with hstop
    · cases h
      exact .readerReturns ht hp hsame
    · obtain ⟨hkill, hdone⟩ := Bool.or_eq_false_iff.mp (Bool.eq_false_iff.mpr hstop)
      have hpanic := fun hk => (Halves.keyed_read (h := p.overlay.halves) hk).2
      rcases hres : p.overlay.read with ⟨result, o⟩
      rw [hres] at h hread
      dsimp only at h
      split at h
      · cases h
        exact .listens ht hkill hdone hp hp hread
      · cases h
        exact .listens ht hkill hdone hp (by simp) hread
      · cases h
        exact .readerReturns ht hp hread
      · cases h
        exact .readerReturns ht hp hread
      · cases h
        exact .panics ht hkill fun hk => hpanic hk (congrArg Prod.fst hres)
  · next hr =>
    cases h
    exact .readerLoops ht hr
  · next piece rest hr =>
    have hp : p.reader ≠ .returned := by simp [hr]
    split_ifs at h with hstop hsent
    · cases h
      exact .readerReturns ht hp hsame
    · obtain ⟨hkill, hdone⟩ := Bool.or_eq_false_iff.mp (Bool.eq_false_iff.mpr hstop)
      cases h
      exact .listens ht hkill hdone hp (by simp) hsame
    · cases h
      exact .readerReturns ht hp hsame
  · cases h

theorem wrote_turn {ok : Bool} (h : v.wrote ok = some v') : v.Turn (.wrote ok) v' := by
  have hcall {p : Pumps C} {w : Writer} (ht : v.task = .pumping p) (hw : p.writer.Resumes w)
      (h : (p.overlay.finish ok).map (fun o =>
        if ok then v.pump { p with overlay := o, writer := w }
        else v.writerReturns { p with overlay := o }) = some v') : v.Turn (.wrote ok) v' := by
    obtain ⟨o, ho, rfl⟩ := Option.map_eq_some_iff.mp h
    cases ok with
    | true => exact .wrote ht hw ho
    | false => exact .broke ht hw ho
  unfold wrote at h
  split at h
  · next p ht =>
    split at h
    · next hw => exact hcall ht (hw ▸ .loop) h
    · next left hw => exact hcall ht (hw ▸ .drain left) h
    · cases h
  · next o ht =>
    obtain ⟨o', ho, rfl⟩ := Option.map_eq_some_iff.mp h
    exact .closes ht ho
  · cases h

theorem turn_cases {a : TaskAct C} (h : v.turn a = some v') : v.Turn a v' := by
  unfold turn at h
  cases a with
  | cancel =>
    dsimp only at h
    split_ifs at h with ht
    cases h
    exact .cancelled ht
  | wrote ok => exact wrote_turn h
  | dialed connId keys =>
    dsimp only at h
    split at h
    · next ht =>
      cases h
      exact .dialed ht
    · cases h
  | dialFailed =>
    dsimp only at h
    split at h
    · next ht =>
      cases h
      exact .dialFailed ht
    · cases h
  | inbound msg =>
    dsimp only at h
    split at h
    · next p ht =>
      cases h
      exact .told ht (.inl ⟨msg, rfl⟩) (p.overlay.heard_inbound msg)
    · cases h
  | hangUp =>
    dsimp only at h
    split at h
    · next p ht =>
      cases h
      exact .told ht (.inr rfl) p.overlay.heard_hangUp
    · cases h
  | reader now sent =>
    dsimp only at h
    split at h
    · next p ht => exact pumpZitiToUdp_turn ht h
    · cases h
  | writer now seq =>
    dsimp only at h
    split at h
    · next p ht => exact pumpUdpToZiti_turn ht h
    · cases h
  | join seq =>
    dsimp only at h
    split at h
    · next p ht =>
      split_ifs at h with hback
      cases h
      exact .joins ht hback.1 hback.2
    · cases h

end Vconn

end Noa.Tunnel.Udp
