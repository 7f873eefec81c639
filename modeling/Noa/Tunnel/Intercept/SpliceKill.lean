import Noa.Framework.Progress
import Noa.Tunnel.Overlay

namespace Noa.Tunnel.Intercept
open Noa.Framework Noa.Channel Noa.Edge Noa.Edge.Data

/-- How a pump ended: by itself, where its source ended or a copy failed, or by the token. -/
inductive PumpEnd where
  | natural
  | killed
  deriving DecidableEq

/-- What a copy can fail with; the error of a write call is not looked at. -/
inductive CopyError where
  | socket (text : String)
  | read (e : EdgeError)
  | write
  deriving DecidableEq

/-- Where the direction from the socket is: at the select of `pump_sock_to_ziti`, past the token there
and about to poll the socket, with what it has read, in the write call, or back from the pump. -/
inductive SockToZiti where
  | select
  | reading
  | got (data : Bytes)
  | writing
  | returned (res : Except CopyError Unit) (how : PumpEnd)
  | halfClosing (res : Except CopyError Unit)
  | done (res : Except CopyError Unit)
  deriving DecidableEq

/-- Where the direction to the socket is; `got` is the second select of `pump_ziti_to_sock`, and
`writing` is past the token there. -/
inductive ZitiToSock where
  | select
  | reading
  | got (rest : Bytes)
  | writing (rest : Bytes)
  | returned (res : Except CopyError Unit) (how : PumpEnd)
  | done (res : Except CopyError Unit)
  deriving DecidableEq

inductive SpliceStage where
  | piping
  | closing (res : Except CopyError Unit)
  | ended (res : Except CopyError Unit)
  | panicked
  deriving DecidableEq

/-- `splice_until_killed`: the token, the connection, the two directions it joins, and what the
socket was sent. -/
structure Splice (C : Crypto) where
  kill : Bool
  overlay : Overlay C
  s2z : SockToZiti
  z2s : ZitiToSock
  stage : SpliceStage
  sock : Bytes
  shut : Bool

/-- What moves a splice. It runs on a thread of its own, so that the token may be cancelled between
any two looks at it; `read` and `wrote` are what a poll of the socket gives, nothing as long as it is
pending. -/
inductive SpliceAct where
  | cancel
  | inbound (msg : Message)
  | hangUp
  | s2z (read : Option (Except String Bytes)) (seq : Int32)
  | z2s (wrote : Option (Except String Nat))
  | wrote (ok : Bool)
  | join (seq : Int32)

namespace Splice

variable {C : Crypto}

def new (connId : UInt32) (keys : Option (C.Push × SessionKey)) (kill : Bool) : Splice C :=
  ⟨kill, .new connId keys, .select, .select, .piping, [], false⟩

/-- `s2z`; no step while a frame is being written. -/
def sockToZiti (f : Splice C) (read : Option (Except String Bytes)) (seq : Int32) :
    Option (Splice C) :=
  match f.s2z with
  | .select => some { f with s2z := if f.kill then .returned (.ok ()) .killed else .reading }
  | .reading =>
    match read with
    | none => some { f with s2z := .select }
    | some (.ok []) => some { f with s2z := .returned (.ok ()) .natural }
    | some (.ok data) => some { f with s2z := .got (data.take proxyBuf) }
    | some (.error e) => some { f with s2z := .returned (.error (.socket e)) .natural }
  | .got data =>
    match f.overlay.write data seq with
    | (true, o) => some { f with overlay := o, s2z := .writing }
    | (false, o) => some { f with overlay := o, s2z := .returned (.error .write) .natural }
  | .returned res .natural =>
    match f.overlay.closeWrite seq with
    | (true, o) => some { f with overlay := o, s2z := .halfClosing res }
    | (false, o) => some { f with overlay := o, s2z := .done res }
  | .returned res .killed => some { f with s2z := .done res }
  | .writing | .halfClosing _ | .done _ => none

/-- `z2s`. A half-close of the socket does not wait for the peer. -/
def zitiToSock (f : Splice C) (wrote : Option (Except String Nat)) : Option (Splice C) :=
  match f.z2s with
  | .select => some { f with z2s := if f.kill then .returned (.ok ()) .killed else .reading }
  | .reading =>
    let (result, o) := f.overlay.read
    let f := { f with overlay := o }
    match result with
    | none => some { f with z2s := .select }
    | some (.ok (some chunk)) => some { f with z2s := .got chunk }
    | some (.ok none) => some { f with z2s := .returned (.ok ()) .natural }
    | some (.error e) => some { f with z2s := .returned (.error (.read e)) .natural }
    | some .panicked => some { f with stage := .panicked }
  | .got rest =>
    some { f with z2s := if f.kill then .returned (.ok ()) .killed else .writing rest }
  -- the loop of `write_all`
  | .writing [] => some { f with z2s := .select }
  | .writing (b :: rest) =>
    match wrote with
    | none => some { f with z2s := .got (b :: rest) }
    | some (.ok 0) =>
      some { f with z2s := .returned (.error (.socket "failed to write whole buffer")) .natural }
    | some (.ok (n + 1)) =>
      some { f with z2s := .writing (rest.drop n), sock := f.sock ++ b :: rest.take n }
    | some (.error e) => some { f with z2s := .returned (.error (.socket e)) .natural }
  | .returned res .natural => some { f with z2s := .done res, shut := true }
  | .returned res .killed => some { f with z2s := .done res }
  | .done _ => none

/-- The write call of the pump, of its half-close or of the close returns. -/
def wrote (f : Splice C) (ok : Bool) : Option (Splice C) :=
  match f.stage, f.s2z with
  | .piping, .writing => (f.overlay.finish ok).map fun o =>
    { f with overlay := o, s2z := if ok then .select else .returned (.error .write) .natural }
  | .piping, .halfClosing res => (f.overlay.finish ok).map fun o =>
    { f with overlay := o, s2z := .done res }
  | .closing res, _ => (f.overlay.finish ok).map fun o =>
    { f with overlay := o, stage := .ended res }
  | _, _ => none

def step (f : Splice C) : SpliceAct → Option (Splice C)
  | .cancel => some { f with kill := true }
  | .inbound msg => some { f with overlay := f.overlay.inbound msg }
  | .hangUp => some { f with overlay := f.overlay.hangUp }
  | .s2z read seq =>
    match f.stage with
    | .piping => f.sockToZiti read seq
    | _ => none
  | .z2s wrote =>
    match f.stage with
    | .piping => f.zitiToSock wrote
    | _ => none
  | .wrote ok => f.wrote ok
  | .join seq =>
    match f.stage, f.s2z, f.z2s with
    | .piping, .done rS2z, .done rZ2s =>
      some { f with overlay := f.overlay.close seq, stage := .closing (rS2z.bind fun _ => rZ2s) }
    | _, _, _ => none

end Splice

/-! What a step can do. -/

/-- A move of the direction from the socket that leaves the connection alone. -/
inductive SockToZiti.Goes : Bool → SockToZiti → SockToZiti → Prop
  | killed : Goes true .select (.returned (.ok ()) .killed)
  | polls : Goes false .select .reading
  | waits (kill : Bool) : Goes kill .reading .select
  | gets (kill : Bool) (data : Bytes) : Goes kill .reading (.got data)
  | stops (kill : Bool) (res : Except CopyError Unit) : Goes kill .reading (.returned res .natural)
  | ends (kill : Bool) (res : Except CopyError Unit) : Goes kill (.returned res .killed) (.done res)

/-- Its move when a write call returns, with or without success. -/
inductive SockToZiti.Resumes : Bool → SockToZiti → SockToZiti → Prop
  | loops : Resumes true .writing .select
  | fails : Resumes false .writing (.returned (.error .write) .natural)
  | halfClosed (ok : Bool) (res : Except CopyError Unit) : Resumes ok (.halfClosing res) (.done res)

/-- A move of the direction to the socket. -/
inductive ZitiToSock.Goes : Bool → ZitiToSock → ZitiToSock → Prop
  | killed : Goes true .select (.returned (.ok ()) .killed)
  | stopped (rest : Bytes) : Goes true (.got rest) (.returned (.ok ()) .killed)
  | polls : Goes false .select .reading
  | pushes (rest : Bytes) : Goes false (.got rest) (.writing rest)
  | waits (kill : Bool) : Goes kill .reading .select
  | gets (kill : Bool) (chunk : Bytes) : Goes kill .reading (.got chunk)
  | readEnds (kill : Bool) (res : Except CopyError Unit) :
    Goes kill .reading (.returned res .natural)
  | loops (kill : Bool) : Goes kill (.writing []) .select
  | pends (kill : Bool) (rest : Bytes) : Goes kill (.writing rest) (.got rest)
  | writes (kill : Bool) (b : UInt8) (rest : Bytes) (n : Nat) :
    Goes kill (.writing (b :: rest)) (.writing (rest.drop n))
  | writeFails (kill : Bool) (rest : Bytes) (res : Except CopyError Unit) :
    Goes kill (.writing rest) (.returned res .natural)
  | ends (kill : Bool) (res : Except CopyError Unit) (how : PumpEnd) :
    Goes kill (.returned res how) (.done res)

/-- A step the splice takes by itself, with its writes going through. -/
def SpliceAct.own : SpliceAct → Bool
  | .s2z _ _ | .z2s _ | .wrote true | .join _ => true
  | .cancel | .inbound _ | .hangUp | .wrote false => false

namespace Splice

variable {C : Crypto}

inductive Turn (f : Splice C) : SpliceAct → Splice C → Prop
  | cancelled : Turn f .cancel { f with kill := true }
  | told {a : SpliceAct} {o : Overlay C} (ha : a.own = false) (ho : f.overlay.Heard o) :
    Turn f a { f with overlay := o }
  | pumps {read : Option (Except String Bytes)} {seq : Int32} {w : SockToZiti}
      (hst : f.stage = .piping) (hw : f.s2z.Goes f.kill w) :
    Turn f (.s2z read seq) { f with s2z := w }
  | writes {read : Option (Except String Bytes)} {seq : Int32} {data : Bytes} {o : Overlay C}
      (hst : f.stage = .piping) (hw : f.s2z = .got data)
      (ho : f.overlay.write data seq = (true, o)) :
    Turn f (.s2z read seq) { f with overlay := o, s2z := .writing }
  | refused {read : Option (Except String Bytes)} {seq : Int32} {data : Bytes} {o : Overlay C}
      (hst : f.stage = .piping) (hw : f.s2z = .got data)
      (ho : f.overlay.write data seq = (false, o)) :
    Turn f (.s2z read seq) { f with overlay := o, s2z := .returned (.error .write) .natural }
  | halfCloses {read : Option (Except String Bytes)} {seq : Int32} {res : Except CopyError Unit}
      {o : Overlay C} (hst : f.stage = .piping) (hw : f.s2z = .returned res .natural)
      (ho : f.overlay.closeWrite seq = (true, o)) :
    Turn f (.s2z read seq) { f with overlay := o, s2z := .halfClosing res }
  | wasClosed {read : Option (Except String Bytes)} {seq : Int32} {res : Except CopyError Unit}
      {o : Overlay C} (hst : f.stage = .piping) (hw : f.s2z = .returned res .natural)
      (ho : f.overlay.closeWrite seq = (false, o)) :
    Turn f (.s2z read seq) { f with overlay := o, s2z := .done res }
  | listens {n : Option (Except String Nat)} {o : Overlay C} {w : ZitiToSock} {sock : Bytes}
      {shut : Bool} (hst : f.stage = .piping) (hw : f.z2s.Goes f.kill w) (ho : f.overlay.Heard o) :
    Turn f (.z2s n) { f with overlay := o, z2s := w, sock := sock, shut := shut }
  | panics {n : Option (Except String Nat)} {o : Overlay C} (hst : f.stage = .piping)
      (hk : ¬f.overlay.halves.reader.Keyed) :
    Turn f (.z2s n) { f with overlay := o, stage := .panicked }
  | wrote {ok : Bool} {w : SockToZiti} {o : Overlay C} (hst : f.stage = .piping)
      (hw : f.s2z.Resumes ok w) (ho : f.overlay.finish ok = some o) :
    Turn f (.wrote ok) { f with overlay := o, s2z := w }
  | joins {seq : Int32} {rS2z rZ2s : Except CopyError Unit} (hst : f.stage = .piping)
      (hs : f.s2z = .done rS2z) (hz : f.z2s = .done rZ2s) :
    Turn f (.join seq)
      { f with overlay := f.overlay.close seq, stage := .closing (rS2z.bind fun _ => rZ2s) }
  | closes {ok : Bool} {res : Except CopyError Unit} {o : Overlay C} (hst : f.stage = .closing res)
      (ho : f.overlay.finish ok = some o) :
    Turn f (.wrote ok) { f with overlay := o, stage := .ended res }

variable {f f' : Splice C}

theorem sockToZiti_turn {read : Option (Except String Bytes)} {seq : Int32}
    (hst : f.stage = .piping) (h : f.sockToZiti read seq = some f') :
    f.Turn (.s2z read seq) f' := by
  unfold sockToZiti at h
  split at h
  · next hw =>
    cases h
    refine .pumps hst ?_
    rw [hw]
    cases f.kill with
    | true => exact .killed
    | false => exact .polls
  · next hw =>
    split at h
    all_goals
      cases h
      refine .pumps hst ?_
      rw [hw]
    · exact .waits _
    · exact .stops _ _
    · exact .gets _ _
    · exact .stops _ _
  · next data hw =>
    rcases ho : f.overlay.write data seq with ⟨_ | _, o⟩
    all_goals
      rw [ho] at h
      cases h
    · exact .refused hst hw ho
    · exact .writes hst hw ho
  · next res hw =>
    rcases ho : f.overlay.closeWrite seq with ⟨_ | _, o⟩
    all_goals
      rw [ho] at h
      cases h
    · exact .wasClosed hst hw ho
    · exact .halfCloses hst hw ho
  · next res hw =>
    cases h
    refine .pumps hst ?_
    rw [hw]
    exact .ends _ _
  all_goals cases h

theorem zitiToSock_turn {n : Option (Except String Nat)} (hst : f.stage = .piping)
    (h : f.zitiToSock n = some f') : f.Turn (.z2s n) f' := by
  have hgo {w : ZitiToSock} {sock : Bytes} {shut : Bool} (hw : f.z2s.Goes f.kill w) :
      f.Turn (.z2s n) { f with z2s := w, sock := sock, shut := shut } :=
    .listens hst hw (.refl _)
  unfold zitiToSock at h
  split at h
  · next hw =>
    cases h
    refine hgo ?_
    rw [hw]
    cases f.kill with
    | true => exact .killed
    | false => exact .polls
  · next hw =>
    have hread := f.overlay.heard_read
    have hpanic := fun hk => (Halves.keyed_read (h := f.overlay.halves) hk).2
    rcases hres : f.overlay.read with ⟨result, o⟩
    rw [hres] at h hread
    dsimp only at h
    have hheard {w : ZitiToSock} (hw : f.z2s.Goes f.kill w) :
        f.Turn (.z2s n) { f with overlay := o, z2s := w } := .listens hst hw hread
    rw [hw] at hheard
    split at h
    · cases h
      exact hheard (.waits _)
    · cases h
      exact hheard (.gets _ _)
    · cases h
      exact hheard (.readEnds _ _)
    · cases h
      exact hheard (.readEnds _ _)
    · cases h
      exact .panics hst fun hk => hpanic hk (congrArg Prod.fst hres)
  · next rest hw =>
    cases h
    refine hgo ?_
    rw [hw]
    cases f.kill with
    | true => exact .stopped rest
    | false => exact .pushes rest
  · next hw =>
    cases h
    exact hgo (hw ▸ .loops _)
  · next b rest hw =>
    rw [hw] at hgo
    split at h
    · cases h
      exact hgo (.pends _ _)
    · cases h
      exact hgo (.writeFails _ _ _)
    · cases h
      exact hgo (.writes _ _ _ _)
    · cases h
      exact hgo (.writeFails _ _ _)
  · next res hw =>
    cases h
    exact hgo (hw ▸ .ends _ _ _)
  · next res hw =>
    cases h
    exact hgo (hw ▸ .ends _ _ _)
  · cases h

theorem wrote_turn {ok : Bool} (h : f.wrote ok = some f') : f.Turn (.wrote ok) f' := by
  unfold wrote at h
  split at h
  · next hst hw =>
    obtain ⟨o, ho, rfl⟩ := Option.map_eq_some_iff.mp h
    refine .wrote hst ?_ ho
    rw [hw]
    cases ok with
    | true => exact .loops
    | false => exact .fails
  · next res hst hw =>
    obtain ⟨o, ho, rfl⟩ := Option.map_eq_some_iff.mp h
    exact .wrote hst (hw ▸ .halfClosed ok res) ho
  · next res hst =>
    obtain ⟨o, ho, rfl⟩ := Option.map_eq_some_iff.mp h
    exact .closes hst ho
  · cases h

theorem step_turn {a : SpliceAct} (h : f.step a = some f') : f.Turn a f' := by
  unfold step at h
  cases a with
  | cancel =>
    cases h
    exact .cancelled
  | inbound msg =>
    cases h
    exact .told rfl (f.overlay.heard_inbound msg)
  | hangUp =>
    cases h
    exact .told rfl f.overlay.heard_hangUp
  | s2z read seq =>
    dsimp only at h
    split at h
    · next hst => exact sockToZiti_turn hst h
    · cases h
  | z2s n =>
    dsimp only at h
    split at h
    · next hst => exact zitiToSock_turn hst h
    · cases h
  | wrote ok => exact wrote_turn h
  | join seq =>
    dsimp only at h
    split at h
    · next hst hs hz =>
      cases h
      exact .joins hst hs hz
    · cases h

end Splice

/-! What a splice keeps. -/

/-- A frame of this direction is being written. -/
def SockToZiti.inCall : SockToZiti → Bool
  | .writing | .halfClosing _ => true
  | .select | .reading | .got _ | .returned _ _ | .done _ => false

theorem SockToZiti.Goes.inCall {kill : Bool} {w w' : SockToZiti} (h : w.Goes kill w') :
    w.inCall = false ∧ w'.inCall = false := by
  cases h <;> exact ⟨rfl, rfl⟩

theorem SockToZiti.Resumes.inCall {ok : Bool} {w w' : SockToZiti} (h : w.Resumes ok w') :
    w'.inCall = false := by
  cases h <;> rfl

namespace Splice

variable {C : Crypto} {f f' : Splice C} {a : SpliceAct}

/-- While the pumps run only data is sent, and a frame is in flight exactly while this direction
waits for it. -/
structure Piping (f : Splice C) : Prop where
  kinds : f.overlay.Open
  flight : f.overlay.flight.isSome = f.s2z.inCall
  keyed : f.overlay.halves.reader.Keyed

/-- The state of the connection, by how far the splice is. -/
inductive Sound (f : Splice C) : Prop
  | piping (hst : f.stage = .piping) (hp : f.Piping)
  | closing {res : Except CopyError Unit} {msg : Message} (hst : f.stage = .closing res)
      (hmsg : f.overlay.flight = some msg) (hclose : isStateClosed msg = true)
      (hshut : f.overlay.Shut)
  | ended {res : Except CopyError Unit} (hst : f.stage = .ended res)
      (hidle : f.overlay.flight = none) (hshut : f.overlay.Shut)

theorem sound_new (connId : UInt32) (keys : Option (C.Push × SessionKey)) (kill : Bool) :
    (new connId keys kill).Sound :=
  .piping rfl ⟨List.forall_mem_nil _, rfl, Overlay.keyed_new connId keys⟩

theorem Sound.pipes (h : f.Sound) (hst : f.stage = .piping) : f.Piping := by
  cases h with
  | piping _ hp => exact hp
  | closing hst' | ended hst' => cases hst.symm.trans hst'

theorem Piping.idle (h : f.Piping) (hw : f.s2z.inCall = false) : f.overlay.flight = none := by
  have hflight := h.flight
  rw [hw] at hflight
  exact Option.not_isSome_iff_eq_none.mp (Bool.eq_false_iff.mp hflight)

theorem Sound.heard (h : f.Sound) {o : Overlay C} (ho : f.overlay.Heard o) :
    Sound { f with overlay := o } := by
  cases h with
  | piping hst hp =>
    have hopen := hp.kinds.heard ho
    have hkeyed := ho.keyed hp.keyed
    obtain ⟨halves, rfl, -⟩ := ho.rest
    exact .piping hst ⟨hopen, hp.flight, hkeyed⟩
  | closing hst hmsg hclose hshut =>
    obtain ⟨halves, rfl, -⟩ := ho.rest
    exact .closing hst hmsg hclose hshut
  | ended hst hidle hshut =>
    obtain ⟨halves, rfl, -⟩ := ho.rest
    exact .ended hst hidle hshut

theorem Piping.write (h : f.Piping) {data : Bytes} {seq : Int32} {sent : Bool} {o : Overlay C}
    {w : SockToZiti} (hidle : f.s2z.inCall = false) (ho : f.overlay.write data seq = (sent, o))
    (hw : w.inCall = sent) : Piping { f with overlay := o, s2z := w } := by
  have hopen := h.kinds.write ho
  have hflight := h.idle hidle
  have hkeyed := h.keyed
  cases sent with
  | false =>
    cases Overlay.write_refused ho
    exact ⟨hopen, by rw [hw, hflight]; rfl, hkeyed⟩
  | true =>
    obtain ⟨msg, wh, rfl, -⟩ := Overlay.write_sent ho
    exact ⟨hopen, by rw [hw]; rfl, hkeyed⟩

theorem Piping.closeWrite (h : f.Piping) {seq : Int32} {sent : Bool} {o : Overlay C}
    {w : SockToZiti} (hidle : f.s2z.inCall = false) (ho : f.overlay.closeWrite seq = (sent, o))
    (hw : w.inCall = sent) : Piping { f with overlay := o, s2z := w } := by
  have hopen := h.kinds.closeWrite ho
  have hflight := h.idle hidle
  have hkeyed := h.keyed
  rcases f.overlay.closeWrite_cases seq with heq | ⟨msg, heq, -⟩
  · cases ho.symm.trans heq
    exact ⟨hopen, by rw [hw, hflight]; rfl, hkeyed⟩
  · cases ho.symm.trans heq
    exact ⟨hopen, by rw [hw]; rfl, hkeyed⟩

theorem Piping.wrote (h : f.Piping) {ok : Bool} {w : SockToZiti} {o : Overlay C}
    (hw : f.s2z.Resumes ok w) (ho : f.overlay.finish ok = some o) :
    Piping { f with overlay := o, s2z := w } where
  kinds := by
    have hbegun := Overlay.begun_finish ho
    intro m hm
    exact h.kinds m (hbegun ▸ hm)
  flight := by rw [Overlay.flight_finish ho, hw.inCall]; rfl
  keyed := by
    have hkeyed := h.keyed
    obtain ⟨msg, -, rfl⟩ := Option.map_eq_some_iff.mp ho
    cases ok <;> exact hkeyed

theorem Sound.turn (h : f.Sound) (ht : f.Turn a f') : f'.Sound := by
  cases ht with
  | cancelled =>
    cases h with
    | piping hst hp => exact .piping hst ⟨hp.kinds, hp.flight, hp.keyed⟩
    | closing hst hmsg hclose hshut => exact .closing hst hmsg hclose hshut
    | ended hst hidle hshut => exact .ended hst hidle hshut
  | told _ ho => exact h.heard ho
  | pumps hst hw =>
    have hp := h.pipes hst
    refine .piping hst ⟨hp.kinds, ?_, hp.keyed⟩
    rw [hp.flight, hw.inCall.1, hw.inCall.2]
  | writes hst hw ho | refused hst hw ho => exact .piping hst ((h.pipes hst).write (hw ▸ rfl) ho rfl)
  | halfCloses hst hw ho | wasClosed hst hw ho =>
    exact .piping hst ((h.pipes hst).closeWrite (hw ▸ rfl) ho rfl)
  | listens hst _ ho =>
    have hp := (h.heard ho).pipes hst
    exact .piping hst ⟨hp.kinds, hp.flight, hp.keyed⟩
  | panics hst hk => exact absurd (h.pipes hst).keyed hk
  | wrote hst hw ho => exact .piping hst ((h.pipes hst).wrote hw ho)
  | @joins seq _ _ hst =>
    obtain ⟨msg, heq, hclose⟩ := f.overlay.close_eq seq
    have hflight : (f.overlay.close seq).flight = some msg := by
      rw [heq]
      rfl
    exact .closing rfl hflight hclose ((h.pipes hst).kinds.close _)
  | closes hst ho =>
    cases h with
    | piping hst' | ended hst' => cases hst.symm.trans hst'
    | closing _ _ _ hshut =>
      refine .ended rfl (Overlay.flight_finish ho) ?_
      unfold Overlay.Shut at hshut ⊢
      rw [Overlay.begun_finish ho]
      exact hshut

theorem whole_turn (h : f.Sound) (hwhole : f.overlay.Whole) (ha : a ≠ .wrote false)
    (ht : f.Turn a f') : f'.overlay.Whole := by
  have hfinish {ok : Bool} {o : Overlay C} (hok : a = .wrote ok)
      (ho : f.overlay.finish ok = some o) : o.Whole := by
    cases ok with
    | true => exact (hwhole.finish ho).1
    | false => exact absurd hok ha
  cases ht with
  | cancelled | pumps => exact hwhole
  | told _ ho | listens _ _ ho => exact hwhole.heard ho
  | writes hst hw ho | refused hst hw ho =>
    exact hwhole.write ((h.pipes hst).idle (hw ▸ rfl)) ho
  | halfCloses hst hw ho | wasClosed hst hw ho =>
    exact hwhole.closeWrite ((h.pipes hst).idle (hw ▸ rfl)) ho
  | panics hst hk => exact absurd (h.pipes hst).keyed hk
  | wrote _ _ ho | closes _ ho => exact hfinish rfl ho
  | joins hst hs => exact hwhole.close ((h.pipes hst).idle (hs ▸ rfl)) _

theorem Sound.orderly (h : f.Sound) (hwhole : f.overlay.Whole) : f.overlay.Orderly := by
  refine ⟨hwhole, ?_⟩
  cases h with
  | piping _ hp => exact .inl hp.kinds
  | closing _ _ _ hshut | ended _ _ hshut => exact .inr hshut

def hasEnded (f : Splice C) : Prop := ∃ res, f.stage = .ended res

theorem Sound.closed (h : f.Sound) (hwhole : f.overlay.Whole) (hend : f.hasEnded) :
    f.overlay.Closed := by
  obtain ⟨res, hend⟩ := hend
  cases h with
  | ended _ hidle hshut => exact hshut.closed hwhole hidle
  | piping hst | closing hst => cases hst.symm.trans hend

end Splice

/-! After the kill. -/

/-- The frames this direction may still complete once the token is cancelled: one if it has passed
the token and not come back to it. -/
def SockToZiti.pending : SockToZiti → Nat
  | .reading | .got _ | .writing | .returned _ .natural | .halfClosing _ => 1
  | .select | .returned _ .killed | .done _ => 0

theorem SockToZiti.pending_le (w : SockToZiti) : w.pending ≤ 1 := by
  unfold pending
  split <;> decide

theorem SockToZiti.Goes.pending {w w' : SockToZiti} (h : w.Goes true w') :
    w'.pending ≤ w.pending := by
  cases h <;> simp [SockToZiti.pending]

theorem SockToZiti.Resumes.pending {ok : Bool} {w w' : SockToZiti} (h : w.Resumes ok w') :
    (if ok then 1 else 0) + w'.pending ≤ w.pending := by
  cases h with
  | loops | fails => exact Nat.le_refl 1
  | halfClosed ok => cases ok <;> simp [SockToZiti.pending]

/-- Steps this direction has before it, once the token is cancelled. -/
def SockToZiti.rank : SockToZiti → Nat
  | .reading => 5
  | .got _ => 4
  | .writing => 3
  | .select => 2
  | .returned _ .natural => 2
  | .returned _ .killed => 1
  | .halfClosing _ => 1
  | .done _ => 0

def ZitiToSock.rank : ZitiToSock → Nat
  | .writing rest => rest.length + 3
  | .reading => 3
  | .select => 2
  | .got _ => 2
  | .returned _ _ => 1
  | .done _ => 0

theorem SockToZiti.Goes.rank {w w' : SockToZiti} (h : w.Goes true w') : w'.rank < w.rank := by
  cases h <;> simp [SockToZiti.rank]

theorem SockToZiti.Resumes.rank {ok : Bool} {w w' : SockToZiti} (h : w.Resumes ok w') :
    w'.rank < w.rank := by
  cases h <;> simp [SockToZiti.rank]

theorem ZitiToSock.Goes.rank {w w' : ZitiToSock} (h : w.Goes true w') : w'.rank < w.rank := by
  cases h with
  | writes b rest n =>
    simp only [ZitiToSock.rank, List.length_drop, List.length_cons]
    omega
  | _ => simp [ZitiToSock.rank]

namespace Splice

variable {C : Crypto} {f f' : Splice C} {a : SpliceAct}

/-- The Data and FIN frames that are on the wire. -/
def sent (f : Splice C) : Nat := f.overlay.wire.countP isData

theorem kill_turn (ht : f.Turn a f') (hkill : f.kill = true) : f'.kill = true := by
  cases ht <;> first | rfl | exact hkill

theorem sent_turn (h : f.Sound) (ht : f.Turn a f') (hkill : f.kill = true) :
    f'.sent + f'.s2z.pending ≤ f.sent + f.s2z.pending := by
  unfold sent
  cases ht with
  | cancelled | joins => exact Nat.le_refl _
  | told _ ho | listens _ _ ho => exact Nat.le_of_eq (by rw [ho.wire])
  | pumps _ hw =>
    rw [hkill] at hw
    exact Nat.add_le_add_left hw.pending _
  | writes _ hw ho | refused _ hw ho =>
    rw [hw, Overlay.wire_write ho]
    exact Nat.le_refl _
  | halfCloses _ hw ho =>
    rw [hw, Overlay.wire_closeWrite ho]
    exact Nat.le_refl _
  | wasClosed _ hw ho =>
    rw [hw, Overlay.wire_closeWrite ho]
    exact Nat.le_succ _
  | panics hst hk => exact absurd (h.pipes hst).keyed hk
  | @wrote ok _ _ _ hw ho =>
    obtain ⟨msg, -, hwire⟩ := Overlay.wire_finish ho
    have hle : List.countP isData (if ok then [msg] else []) ≤ if ok then 1 else 0 := by
      cases ok <;> exact List.countP_le_length
    have hpending := hw.pending
    rw [hwire, List.countP_append]
    dsimp only
    omega
  | @closes ok _ _ hst ho =>
    -- the close is no data
    cases h with
    | piping hst' | ended hst' => cases hst.symm.trans hst'
    | @closing _ msg _ hmsg hclose =>
      obtain ⟨_, hmsg', hwire⟩ := Overlay.wire_finish ho
      cases hmsg.symm.trans hmsg'
      have hnone : List.countP isData (if ok then [msg] else []) = 0 := by
        cases ok <;> simp [Overlay.not_isData_of_stateClosed hclose]
      rw [hwire, List.countP_append, hnone]
      exact Nat.le_refl _

/-- The token was cancelled before anything was sent. -/
structure Silent (f : Splice C) : Prop where
  kill : f.kill = true
  pending : f.s2z.pending = 0
  silent : ∀ m ∈ f.overlay.begun, isData m = false

theorem Silent.turn (hs : f.Silent) (h : f.Sound) (ht : f.Turn a f') : f'.Silent := by
  have hpending := hs.pending
  cases ht with
  | cancelled => exact ⟨rfl, hpending, hs.silent⟩
  | told _ ho | listens _ _ ho => exact ⟨hs.kill, hpending, ho.begun ▸ hs.silent⟩
  | pumps _ hw =>
    rw [hs.kill] at hw
    exact ⟨hs.kill, Nat.le_zero.mp (hpending ▸ hw.pending), hs.silent⟩
  | writes _ hw | refused _ hw | halfCloses _ hw | wasClosed _ hw =>
    rw [hw] at hpending
    cases hpending
  | panics hst hk => exact absurd (h.pipes hst).keyed hk
  | wrote _ hw =>
    generalize f.s2z = w at hw hpending
    cases hw <;> cases hpending
  | joins =>
    refine ⟨hs.kill, hpending, ?_⟩
    obtain ⟨msg, heq, hclose⟩ := f.overlay.close_eq _
    rw [heq]
    exact List.forall_mem_append.mpr ⟨hs.silent,
      List.forall_mem_singleton.mpr (Overlay.not_isData_of_stateClosed hclose)⟩
  | closes _ ho => exact ⟨hs.kill, hpending, Overlay.begun_finish ho ▸ hs.silent⟩

def rank (f : Splice C) : Nat :=
  match f.stage with
  | .piping => f.s2z.rank + f.z2s.rank + 2
  | .closing _ => 1
  | .ended _ | .panicked => 0

theorem rank_piping (hst : f.stage = .piping) : f.rank = f.s2z.rank + f.z2s.rank + 2 := by
  rw [rank, hst]

/-- Once the token is cancelled, the splice's own steps lead to the end. -/
theorem rank_turn (h : f.Sound) (ht : f.Turn a f') (hkill : f.kill = true) :
    (if a.own then 1 else 0) + f'.rank ≤ f.rank := by
  have hs2z {o : Overlay C} {w : SockToZiti} (hst : f.stage = .piping)
      (hw : w.rank < f.s2z.rank) :
      (if a.own then 1 else 0) + rank { f with overlay := o, s2z := w } ≤ f.rank := by
    rw [rank_piping hst, rank_piping (f := { f with overlay := o, s2z := w }) hst]
    split_ifs <;> dsimp only <;> omega
  cases ht with
  | cancelled => exact Nat.le_of_eq (Nat.zero_add _)
  | told ha =>
    rw [ha]
    exact Nat.le_of_eq (Nat.zero_add _)
  | pumps hst hw =>
    rw [hkill] at hw
    exact hs2z hst hw.rank
  | writes hst hw | refused hst hw | halfCloses hst hw | wasClosed hst hw =>
    exact hs2z hst (by rw [hw]; simp [SockToZiti.rank])
  | @listens _ o w sock shut hst hw =>
    rw [hkill] at hw
    have hlt := hw.rank
    rw [rank_piping hst,
      rank_piping (f := { f with overlay := o, z2s := w, sock := sock, shut := shut }) hst]
    simp only [SpliceAct.own, if_true]
    omega
  | panics hst hk => exact absurd (h.pipes hst).keyed hk
  | wrote hst hw => exact hs2z hst hw.rank
  | joins hst =>
    rw [rank_piping hst]
    simp only [SpliceAct.own, if_true, rank]
    omega
  | @closes ok _ _ hst =>
    simp only [rank, hst]
    cases ok <;> decide

theorem sockToZiti_enabled (hcall : f.s2z.inCall = false) (hdone : ∀ res, f.s2z ≠ .done res) :
    (f.sockToZiti none 0).isSome = true := by
  cases hs : f.s2z with
  | select | reading => simp [sockToZiti, hs]
  | got data =>
    simp only [sockToZiti, hs]
    split <;> rfl
  | returned res how =>
    cases how with
    | killed => simp [sockToZiti, hs]
    | natural =>
      simp only [sockToZiti, hs]
      split <;> rfl
  | writing | halfClosing res =>
    rw [hs] at hcall
    cases hcall
  | done res => exact absurd hs (hdone res)

theorem zitiToSock_enabled (hdone : ∀ res, f.z2s ≠ .done res) :
    (f.zitiToSock none).isSome = true := by
  cases hz : f.z2s with
  | select | got rest => simp [zitiToSock, hz]
  | reading =>
    simp only [zitiToSock, hz]
    split <;> rfl
  | writing rest => cases rest <;> simp [zitiToSock, hz]
  | returned res how => cases how <;> simp [zitiToSock, hz]
  | done res => exact absurd hz (hdone res)

theorem Piping.wrote_enabled (h : f.Piping) (hst : f.stage = .piping)
    (hcall : f.s2z.inCall = true) : (f.step (.wrote true)).isSome = true := by
  obtain ⟨msg, hmsg⟩ := Option.isSome_iff_exists.mp (h.flight.trans hcall)
  cases hs : f.s2z with
  | writing | halfClosing res => simp [step, Splice.wrote, hst, hs, Overlay.finish, hmsg]
  | select | reading | got data | returned res how | done res =>
    rw [hs] at hcall
    cases hcall

theorem Sound.enabled (h : f.Sound) (hend : ¬f.hasEnded) :
    ∃ a f', a.own = true ∧ f.step a = some f' := by
  have hgo {a : SpliceAct} (ha : a.own = true) (hsome : (f.step a).isSome = true) :
      ∃ a f', a.own = true ∧ f.step a = some f' := by
    obtain ⟨f', hf'⟩ := Option.isSome_iff_exists.mp hsome
    exact ⟨a, f', ha, hf'⟩
  cases h with
  | ended hst => exact absurd ⟨_, hst⟩ hend
  | closing hst hmsg =>
    refine hgo (a := .wrote true) rfl ?_
    simp [step, wrote, hst, Overlay.finish, hmsg]
  | piping hst hp =>
    cases hcall : f.s2z.inCall with
    | true => exact hgo (a := .wrote true) rfl (hp.wrote_enabled hst hcall)
    | false =>
      by_cases hs : ∃ res, f.s2z = .done res
      · obtain ⟨rS2z, hs⟩ := hs
        by_cases hz : ∃ res, f.z2s = .done res
        · obtain ⟨rZ2s, hz⟩ := hz
          exact hgo (a := .join 0) rfl (by simp [step, hst, hs, hz])
        · refine hgo (a := .z2s none) rfl ?_
          rw [step, hst]
          exact zitiToSock_enabled (not_exists.mp hz)
      · refine hgo (a := .s2z none 0) rfl ?_
        rw [step, hst]
        exact sockToZiti_enabled hcall (not_exists.mp hs)

/-- A splice that was killed ends: whatever else happens, its own steps bring it to its close. -/
theorem Sound.ends (h : f.Sound) (hkill : f.kill = true) :
    Ends step SpliceAct.own hasEnded f := by
  refine ends_of_rank (fun f => f.Sound ∧ f.kill = true) rank ?_ ?_ ⟨h, hkill⟩
  · rintro f a f' hstep ⟨h, hkill⟩
    have ht := step_turn hstep
    exact ⟨⟨h.turn ht, kill_turn ht hkill⟩, rank_turn h ht hkill⟩
  · exact fun f hf hend => hf.1.enabled hend

/-- What was sent when it was killed, and one frame more. -/
theorem Sound.sent_le (h : f.Sound) (hkill : f.kill = true) {acts : List SpliceAct}
    (hrun : run step f acts = some f') : f'.sent ≤ f.sent + 1 := by
  have hinv := run_invariant
    (fun g : Splice C => g.Sound ∧ g.kill = true ∧
      g.sent + g.s2z.pending ≤ f.sent + f.s2z.pending) ?_ hrun ⟨h, hkill, Nat.le_refl _⟩
  · exact Nat.le_trans (Nat.le_of_add_right_le hinv.2.2)
      (Nat.add_le_add_left f.s2z.pending_le _)
  · rintro g a g' hstep ⟨hg, hgk, hle⟩
    have ht := step_turn hstep
    exact ⟨hg.turn ht, kill_turn ht hgk, Nat.le_trans (sent_turn hg ht hgk) hle⟩

end Splice

end Noa.Tunnel.Intercept
