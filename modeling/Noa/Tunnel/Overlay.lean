import Noa.Edge.Data.Stream

namespace Noa.Tunnel
open Noa.Framework Noa.Channel Noa.Edge Noa.Edge.Data

/-- The size of a copy: one read of a socket, one datagram to a client. -/
def proxyBuf : Nat := 0x4000 - 17

/-- A frame of the application's stream, the half-close included. -/
def isData (msg : Message) : Bool := msg.contentType == ctData

/-- An established connection as its flow uses it. The frame of a call that has been handed to the
channel is in flight until the call returns, and on the wire from then on. `calls` has the data of
every write call, `begun` every frame handed to the channel; `failed` tells whether a call failed,
`opened` is the sender's cipher as the dial left it. -/
structure Overlay (C : Crypto) where
  opened : Option C.Push
  halves : Halves C
  flight : Option Message
  wire : List Message
  calls : List Bytes
  begun : List Message
  failed : Bool

namespace Overlay

variable {C : Crypto}

/-- The connection a dial returns; the stream header of an encrypted one was sent by the dial, and
the peer's is still to come. -/
def new (connId : UInt32) (keys : Option (C.Push × SessionKey)) : Overlay C :=
  ⟨keys.map Prod.fst, .new connId (keys.map fun k => ⟨k.1, none, some k.2⟩), none, [], [], [], false⟩

def send (o : Overlay C) (msg : Message) : Overlay C :=
  { o with flight := some msg, begun := o.begun ++ [msg] }

/-- `zw.write` up to the channel, with whether it gets there. -/
def write (o : Overlay C) (data : Bytes) (seq : Int32) : Bool × Overlay C :=
  let o := { o with calls := o.calls ++ [data] }
  match o.halves.write data seq with
  | (.ok msg, halves) => (true, { o with halves := halves }.send msg)
  | (.error _, halves) => (false, { o with halves := halves, failed := true })

/-- `zw.close_write` up to the channel, with whether it has a frame to send. -/
def closeWrite (o : Overlay C) (seq : Int32) : Bool × Overlay C :=
  match o.halves.closeWrite seq with
  | (some msg, halves) => (true, { o with halves := halves }.send msg)
  | (none, halves) => (false, { o with halves := halves })

/-- `zw.close` up to the channel. -/
def close (o : Overlay C) (seq : Int32) : Overlay C :=
  let (msg, halves) := o.halves.close seq
  { o with halves := halves }.send msg

/-- The call that is under way returns: its frame was written whole, or the channel failed. -/
def finish (o : Overlay C) (ok : Bool) : Option (Overlay C) :=
  o.flight.map fun msg =>
    if ok then { o with flight := none, wire := o.wire ++ [msg] }
    else { o with flight := none, failed := true }

def read (o : Overlay C) : Option ReadResult × Overlay C :=
  let (result, halves) := o.halves.read
  (result, { o with halves := halves })

/-- The receive loop of the channel hands the connection a frame. -/
def inbound (o : Overlay C) (msg : Message) : Overlay C :=
  { o with halves := { o.halves with rx := o.halves.rx ++ [msg] } }

/-- The receive loop is gone. -/
def hangUp (o : Overlay C) : Overlay C := { o with halves := { o.halves with hungUp := true } }

/-- The frames a connection was given to send are on the wire, in order, but for the one in
flight. -/
def Whole (o : Overlay C) : Prop := o.begun = o.wire ++ o.flight.toList

theorem Whole.send {o : Overlay C} (h : o.Whole) (hidle : o.flight = none) (msg : Message) :
    (o.send msg).Whole := by
  unfold Whole at h ⊢
  rw [hidle, Option.toList_none, List.append_nil] at h
  simp [Overlay.send, h]

theorem Whole.finish {o o' : Overlay C} (h : o.Whole) (hf : o.finish true = some o') :
    o'.Whole ∧ o'.flight = none := by
  obtain ⟨msg, hmsg, rfl⟩ := Option.map_eq_some_iff.mp hf
  refine ⟨?_, rfl⟩
  simpa [Whole, hmsg] using h

theorem write_cases (o : Overlay C) (data : Bytes) (seq : Int32) :
    o.write data seq = (false, { o with calls := o.calls ++ [data], failed := true }) ∨
    ∃ msg w, o.write data seq = (true,
        { o with halves := { o.halves with writer := w }, calls := o.calls ++ [data] }.send msg) ∧
      isData msg = true ∧ hasFin msg = false ∧ Sealed o.halves.writer.sender data msg.body w.sender := by
  unfold write
  rcases o.halves.write_sealed data seq with ⟨e, heq⟩ | ⟨msg, w, heq, -, hdata, hfin, hbody⟩
  · refine .inl ?_
    simp only [heq]
  · refine .inr ⟨msg, w, ?_, beq_iff_eq.mpr hdata, hfin, hbody⟩
    simp only [heq]

theorem write_refused {o o' : Overlay C} {data : Bytes} {seq : Int32}
    (h : o.write data seq = (false, o')) :
    o' = { o with calls := o.calls ++ [data], failed := true } := by
  rcases o.write_cases data seq with heq | ⟨msg, w, heq, -⟩
  · exact congrArg Prod.snd (h.symm.trans heq)
  · cases heq.symm.trans h

theorem write_sent {o o' : Overlay C} {data : Bytes} {seq : Int32}
    (h : o.write data seq = (true, o')) : ∃ msg w,
      o' = { o with halves := { o.halves with writer := w }, calls := o.calls ++ [data] }.send msg ∧
        isData msg = true ∧ hasFin msg = false ∧
        Sealed o.halves.writer.sender data msg.body w.sender := by
  rcases o.write_cases data seq with heq | ⟨msg, w, heq, hrest⟩
  · cases heq.symm.trans h
  · exact ⟨msg, w, congrArg Prod.snd (h.symm.trans heq), hrest⟩

theorem closeWrite_cases (o : Overlay C) (seq : Int32) :
    o.closeWrite seq = (false, o) ∨
    ∃ msg, o.closeWrite seq = (true,
        { o with halves := { o.halves with sentFin := true } }.send msg) ∧ isFin msg = true := by
  unfold closeWrite Halves.closeWrite
  split_ifs with hf
  · exact .inl rfl
  · exact .inr ⟨_, rfl, isFin_closeWrite _ seq⟩

theorem close_eq (o : Overlay C) (seq : Int32) : ∃ msg,
    o.close seq = { o with halves := { o.halves with sentFin := true } }.send msg ∧
      isStateClosed msg = true :=
  ⟨_, rfl, rfl⟩

/-- Only the reading side has changed, and it still has what it decrypts with. -/
structure Heard (o o' : Overlay C) : Prop where
  rest : ∃ halves, o' = { o with halves := halves } ∧ halves.writer = o.halves.writer
  keyed : o.halves.reader.Keyed → o'.halves.reader.Keyed

theorem Heard.refl (o : Overlay C) : o.Heard o := ⟨⟨_, rfl, rfl⟩, id⟩

theorem heard_inbound (o : Overlay C) (msg : Message) : o.Heard (o.inbound msg) :=
  ⟨⟨_, rfl, rfl⟩, id⟩

theorem heard_hangUp (o : Overlay C) : o.Heard o.hangUp := ⟨⟨_, rfl, rfl⟩, id⟩

theorem heard_read (o : Overlay C) : o.Heard o.read.2 :=
  ⟨⟨_, rfl, o.halves.read_writer⟩, fun h => (Halves.keyed_read h).1⟩

theorem keyed_new (connId : UInt32) (keys : Option (C.Push × SessionKey)) :
    (new connId keys).halves.reader.Keyed := by
  refine Halves.keyed_new connId fun c hc => ?_
  obtain ⟨_, -, rfl⟩ := Option.map_eq_some_iff.mp hc
  rfl

theorem Whole.heard {o o' : Overlay C} (h : o.Whole) (hh : o.Heard o') : o'.Whole := by
  obtain ⟨halves, rfl, -⟩ := hh.rest
  exact h

theorem Whole.write {o o' : Overlay C} {data : Bytes} {seq : Int32} {sent : Bool} (h : o.Whole)
    (hidle : o.flight = none) (ho : o.write data seq = (sent, o')) : o'.Whole := by
  rcases o.write_cases data seq with heq | ⟨msg, w, heq, -⟩ <;> cases ho.symm.trans heq
  · exact h
  · exact Whole.send (o := { o with halves := _, calls := _ }) h hidle msg

theorem Whole.closeWrite {o o' : Overlay C} {seq : Int32} {sent : Bool} (h : o.Whole)
    (hidle : o.flight = none) (ho : o.closeWrite seq = (sent, o')) : o'.Whole := by
  rcases o.closeWrite_cases seq with heq | ⟨msg, heq, -⟩ <;> cases ho.symm.trans heq
  · exact h
  · exact Whole.send (o := { o with halves := _ }) h hidle msg

theorem Whole.close {o : Overlay C} (h : o.Whole) (hidle : o.flight = none) (seq : Int32) :
    (o.close seq).Whole := by
  obtain ⟨msg, heq, -⟩ := o.close_eq seq
  rw [heq]
  exact Whole.send (o := { o with halves := _ }) h hidle msg

/-- What is on the wire and in flight carries the data of the write calls. -/
structure Carrying (o : Overlay C) : Prop where
  whole : o.Whole
  carries : Carries o.opened o.begun o.calls o.halves.writer.sender

theorem carrying_new (connId : UInt32) (keys : Option (C.Push × SessionKey)) :
    (new connId keys).Carrying := by
  have hsender : (new connId keys).halves.writer.sender = keys.map Prod.fst := by
    cases keys <;> rfl
  refine ⟨rfl, ?_⟩
  rw [hsender]
  exact .nil _

theorem Carrying.heard {o o' : Overlay C} (h : o.Carrying) (hh : o.Heard o') : o'.Carrying := by
  obtain ⟨halves, rfl, hw⟩ := hh.rest
  exact ⟨h.whole, hw ▸ h.carries⟩

theorem Carrying.write {o o' : Overlay C} {data : Bytes} {seq : Int32} (h : o.Carrying)
    (hidle : o.flight = none) (hw : o.write data seq = (true, o')) : o'.Carrying := by
  obtain ⟨msg, w, rfl, hdata, hfin, hbody⟩ := write_sent hw
  refine ⟨Whole.send (o := { o with halves := _, calls := _ }) h.whole hidle msg, ?_⟩
  exact h.carries.snoc (beq_iff_eq.mp hdata) hfin hbody

theorem Carrying.finish {o o' : Overlay C} (h : o.Carrying) (hf : o.finish true = some o') :
    o'.Carrying := by
  obtain ⟨msg, -, rfl⟩ := Option.map_eq_some_iff.mp hf
  exact ⟨(h.whole.finish hf).1, h.carries⟩

/-! The frames by kind: data, then one close. -/

theorem isData_of_isFin {msg : Message} (h : isFin msg = true) : isData msg = true :=
  (Bool.and_eq_true_iff.mp h).1

theorem not_isData_of_stateClosed {msg : Message} (h : isStateClosed msg = true) :
    isData msg = false := by
  rw [isData, beq_iff_eq.mp h]
  rfl

/-- Only data has been handed to the channel. -/
def Open (o : Overlay C) : Prop := ∀ m ∈ o.begun, isData m = true

/-- The close is the last frame that was handed to the channel, and all before it is data. -/
def Shut (o : Overlay C) : Prop :=
  ∃ front close, o.begun = front ++ [close] ∧ isStateClosed close = true ∧
    ∀ m ∈ front, isData m = true

theorem Open.send {o : Overlay C} (h : o.Open) {msg : Message} (hmsg : isData msg = true) :
    (o.send msg).Open := by
  intro m hm
  rcases List.mem_append.mp hm with hm | hm
  · exact h m hm
  · rw [List.mem_singleton.mp hm, hmsg]

theorem Open.heard {o o' : Overlay C} (h : o.Open) (hh : o.Heard o') : o'.Open := by
  obtain ⟨halves, rfl, -⟩ := hh.rest
  exact h

theorem Open.write {o o' : Overlay C} {data : Bytes} {seq : Int32} {sent : Bool} (h : o.Open)
    (ho : o.write data seq = (sent, o')) : o'.Open := by
  rcases o.write_cases data seq with heq | ⟨msg, w, heq, hdata, -⟩ <;> cases ho.symm.trans heq
  · exact h
  · exact Open.send (o := { o with halves := _, calls := _ }) h hdata

theorem Open.closeWrite {o o' : Overlay C} {seq : Int32} {sent : Bool} (h : o.Open)
    (ho : o.closeWrite seq = (sent, o')) : o'.Open := by
  rcases o.closeWrite_cases seq with heq | ⟨msg, heq, hfin⟩ <;> cases ho.symm.trans heq
  · exact h
  · exact Open.send (o := { o with halves := _ }) h (isData_of_isFin hfin)

theorem Open.close {o : Overlay C} (h : o.Open) (seq : Int32) : (o.close seq).Shut := by
  obtain ⟨msg, heq, hclose⟩ := o.close_eq seq
  rw [heq]
  exact ⟨o.begun, msg, rfl, hclose, h⟩

theorem begun_finish {o o' : Overlay C} {ok : Bool} (h : o.finish ok = some o') :
    o'.begun = o.begun := by
  obtain ⟨msg, -, rfl⟩ := Option.map_eq_some_iff.mp h
  cases ok <;> rfl

theorem calls_finish {o o' : Overlay C} {ok : Bool} (h : o.finish ok = some o') :
    o'.calls = o.calls := by
  obtain ⟨msg, -, rfl⟩ := Option.map_eq_some_iff.mp h
  cases ok <;> rfl

theorem flight_finish {o o' : Overlay C} {ok : Bool} (h : o.finish ok = some o') :
    o'.flight = none := by
  obtain ⟨msg, -, rfl⟩ := Option.map_eq_some_iff.mp h
  cases ok <;> rfl

theorem wire_write {o o' : Overlay C} {data : Bytes} {seq : Int32} {sent : Bool}
    (ho : o.write data seq = (sent, o')) : o'.wire = o.wire := by
  rcases o.write_cases data seq with heq | ⟨msg, w, heq, -⟩ <;> cases ho.symm.trans heq <;> rfl

theorem wire_closeWrite {o o' : Overlay C} {seq : Int32} {sent : Bool}
    (ho : o.closeWrite seq = (sent, o')) : o'.wire = o.wire := by
  rcases o.closeWrite_cases seq with heq | ⟨msg, heq, -⟩ <;> cases ho.symm.trans heq <;> rfl

theorem Heard.wire {o o' : Overlay C} (h : o.Heard o') : o'.wire = o.wire := by
  obtain ⟨halves, rfl, -⟩ := h.rest
  rfl

theorem Heard.begun {o o' : Overlay C} (h : o.Heard o') : o'.begun = o.begun := by
  obtain ⟨halves, rfl, -⟩ := h.rest
  rfl

theorem Heard.calls {o o' : Overlay C} (h : o.Heard o') : o'.calls = o.calls := by
  obtain ⟨halves, rfl, -⟩ := h.rest
  rfl

theorem wire_finish {o o' : Overlay C} {ok : Bool} (h : o.finish ok = some o') :
    ∃ msg, o.flight = some msg ∧ o'.wire = o.wire ++ if ok then [msg] else [] := by
  obtain ⟨msg, hmsg, rfl⟩ := Option.map_eq_some_iff.mp h
  refine ⟨msg, hmsg, ?_⟩
  cases ok with
  | true => rfl
  | false => exact (List.append_nil _).symm

/-- What was handed to the channel is written whole and in order, data and then at most one close. -/
structure Orderly (o : Overlay C) : Prop where
  whole : o.Whole
  kinds : o.Open ∨ o.Shut

/-- The wire has data, then one close, and nothing after it. -/
def Closed (o : Overlay C) : Prop :=
  o.flight = none ∧ ∃ front close, o.wire = front ++ [close] ∧ isStateClosed close = true ∧
    ∀ m ∈ front, isData m = true

theorem Shut.closed {o : Overlay C} (h : o.Shut) (hwhole : o.Whole) (hidle : o.flight = none) :
    o.Closed := by
  refine ⟨hidle, ?_⟩
  rw [Whole, hidle, Option.toList_none, List.append_nil] at hwhole
  rw [← hwhole]
  exact h

end Overlay

end Noa.Tunnel
