import Noa.Edge.Data.Requests

namespace Noa.Edge.Data
open Noa.Framework Noa.Channel

/-- The read half's part of the crypto state. -/
structure ReadCrypto (C : Crypto) where
  decryptor : Option C.Pull
  rxKey : Option SessionKey

structure EdgeReadHalf (C : Crypto) where
  readEof : Bool
  crypto : Option (ReadCrypto C)

structure EdgeWriteHalf (C : Crypto) where
  connId : UInt32
  firstWrite : Bool
  sender : Option C.Push

/-- What a call of `read` comes to; the last is the `expect` on the decryptor. -/
inductive ReadResult where
  | ok (chunk : Option Bytes)
  | error (e : EdgeError)
  | panicked
  deriving DecidableEq

/-- One turn of the read loop: `result` is `none` where the loop goes round, `closed` tells
whether the turn sets the flag shared with the write half. -/
structure ReadTurn (C : Crypto) where
  result : Option ReadResult
  reader : EdgeReadHalf C
  closed : Bool

namespace EdgeReadHalf

variable {C : Crypto}

/-- A turn without data: it ends the call only at EOF. -/
def atEof (r : EdgeReadHalf C) : Option ReadResult := if r.readEof then some (.ok none) else none

/-- The body of a `Data` frame: plaintext, the stream header, or an encrypted chunk. -/
def onBody (r : EdgeReadHalf C) (body : Bytes) : Option ReadResult × EdgeReadHalf C :=
  match r.crypto with
  | none => if body ≠ [] then (some (.ok (some body)), r) else (r.atEof, r)
  | some ⟨_, some rxKey⟩ =>
    if body.length ≠ streamHeaderBytes then
      (some (.error (.crypto
        s!"stream header must be {streamHeaderBytes} bytes, got {body.length}")), r)
    else (r.atEof, { r with crypto := some ⟨some (C.initPull rxKey body), none⟩ })
  | some ⟨dec, none⟩ =>
    if body = [] then (r.atEof, r)
    else if body.length < aBytes then
      (some (.error (.crypto s!"encrypted frame too short: {body.length} < {aBytes}")), r)
    else match dec with
      | none => (some .panicked, r)
      | some dec =>
        match C.pull dec body with
        | .error e => (some (.error (streamFailed e)), r)
        | .ok (plain, dec) =>
          let r := { r with crypto := some ⟨some dec, none⟩ }
          if plain ≠ [] then (some (.ok (some plain)), r) else (r.atEof, r)

end EdgeReadHalf

/-- The `FIN` bit of a frame's flags; absent or malformed flags are zero. -/
def hasFin (msg : Message) : Bool := (headerU32 msg hdrFlags).getD 0 &&& flagFin != 0

namespace EdgeReadHalf

variable {C : Crypto}

def onMessage (r : EdgeReadHalf C) (msg : Message) : ReadTurn C :=
  if msg.contentType = ctData then
    let r := if hasFin msg then { r with readEof := true } else r
    let (result, r) := r.onBody msg.body
    ⟨result, r, false⟩
  else if msg.contentType = ctStateClosed then
    ⟨some (.ok none), { r with readEof := true }, true⟩
  else ⟨none, r, false⟩

end EdgeReadHalf

/-- Both halves of a connection with the flag they share, and the queue the receive loop fills;
`hungUp` once all its senders are gone. -/
structure Halves (C : Crypto) where
  reader : EdgeReadHalf C
  writer : EdgeWriteHalf C
  sentFin : Bool
  rx : List Message
  hungUp : Bool

namespace Halves

variable {C : Crypto}

/-- `EdgeConn::new`: an encrypted connection's stream header was its first write. -/
def new (connId : UInt32) (crypto : Option (ConnCrypto C)) : Halves C where
  reader := ⟨false, crypto.map fun cc => ⟨cc.decryptor, cc.rxKey⟩⟩
  writer := ⟨connId, crypto.isNone, crypto.map ConnCrypto.sender⟩
  sentFin := false
  rx := []
  hungUp := false

/-- The loop of `read` over what is queued; no result while it waits for the next frame. -/
def readLoop (h : Halves C) : List Message → Option ReadResult × Halves C
  | [] =>
    if h.hungUp then (some (.ok none), { h with reader := { h.reader with readEof := true }, rx := [] })
    else (none, { h with rx := [] })
  | msg :: rx =>
    let turn := h.reader.onMessage msg
    let h := { h with reader := turn.reader, sentFin := h.sentFin || turn.closed, rx := rx }
    match turn.result with
    | some result => (some result, h)
    | none => h.readLoop rx

def read (h : Halves C) : Option ReadResult × Halves C :=
  if h.reader.readEof then (some (.ok none), h) else h.readLoop h.rx

/-- `EdgeWriteHalf::write` up to the frame it hands to the channel. -/
def write (h : Halves C) (data : Bytes) (seq : Int32) : Except EdgeError Message × Halves C :=
  let frame (body : Bytes) : Message :=
    { buildData h.writer.connId body h.writer.firstWrite with sequence := seq }
  if h.sentFin then (.error .writeAfterClose, h)
  else match h.writer.sender with
    | none => (.ok (frame data), { h with writer := { h.writer with firstWrite := false } })
    | some enc =>
      match C.push enc data with
      | .error e => (.error (streamFailed e), h)
      | .ok (body, enc) =>
        (.ok (frame body), { h with writer := { h.writer with firstWrite := false, sender := some enc } })

/-- `EdgeWriteHalf::close_write`: only the first caller has a frame to send. -/
def closeWrite (h : Halves C) (seq : Int32) : Option Message × Halves C :=
  if h.sentFin then (none, h)
  else
    let msg := withHeader (buildData h.writer.connId [] false) hdrFlags (u32ToLe flagFin)
    (some { msg with sequence := seq }, { h with sentFin := true })

/-- `EdgeWriteHalf::close`, as far as the connection sees it. -/
def close (h : Halves C) (seq : Int32) : Message × Halves C :=
  ({ buildStateClosed h.writer.connId with sequence := seq }, { h with sentFin := true })

theorem write_writer (h : Halves C) (data : Bytes) (seq : Int32) :
    ∃ w, (h.write data seq).2 = { h with writer := w } := by
  unfold write
  repeat' split
  all_goals exact ⟨_, rfl⟩

theorem closeWrite_halves (h : Halves C) (seq : Int32) :
    (h.closeWrite seq).2 = { h with sentFin := true } := by
  unfold closeWrite
  split_ifs with hf
  · rw [← hf]
  · rfl

end Halves

/-- The calls on a connection, and what the receive loop does to its queue. -/
inductive ConnAct where
  | deliver (msg : Message)
  | hangUp
  | read
  | write (data : Bytes) (seq : Int32)
  | closeWrite (seq : Int32)
  | close (seq : Int32)

/-- A connection with its history: the frames it was delivered and what its reads returned, the
data of its successful writes and the frames it sent, and whether it closed its own write side. -/
structure ConnRun (C : Crypto) where
  halves : Halves C
  delivered : List Message
  reads : List ReadResult
  written : List Bytes
  sent : List Message
  closedHere : Bool

namespace ConnRun

variable {C : Crypto}

def new (connId : UInt32) (crypto : Option (ConnCrypto C)) : ConnRun C :=
  ⟨.new connId crypto, [], [], [], [], false⟩

def step (s : ConnRun C) : ConnAct → Option (ConnRun C)
  | .deliver msg =>
    if s.halves.hungUp then none
    else some { s with
      halves := { s.halves with rx := s.halves.rx ++ [msg] }, delivered := s.delivered ++ [msg] }
  | .hangUp => some { s with halves := { s.halves with hungUp := true } }
  | .read =>
    let (result, halves) := s.halves.read
    some { s with halves := halves, reads := s.reads ++ result.toList }
  | .write data seq =>
    match s.halves.write data seq with
    | (.ok msg, halves) =>
      some { s with halves := halves, written := s.written ++ [data], sent := s.sent ++ [msg] }
    | (.error _, halves) => some { s with halves := halves }
  | .closeWrite seq =>
    let (msg, halves) := s.halves.closeWrite seq
    some { s with halves := halves, sent := s.sent ++ msg.toList, closedHere := true }
  | .close seq =>
    let (msg, halves) := s.halves.close seq
    some { s with halves := halves, sent := s.sent ++ [msg], closedHere := true }

end ConnRun

def isStateClosed (msg : Message) : Bool := msg.contentType == ctStateClosed

/-- A half-close. -/
def isFin (msg : Message) : Bool := msg.contentType == ctData && hasFin msg

/-- The frames after which a reader reads no more. -/
def endsStream (msg : Message) : Bool := isFin msg || isStateClosed msg

namespace EdgeReadHalf

variable {C : Crypto} (r : EdgeReadHalf C)

theorem onBody_readEof (body : Bytes) : (r.onBody body).2.readEof = r.readEof := by
  unfold onBody
  repeat' split
  all_goals rfl

theorem onBody_isSome (body : Bytes) (h : r.readEof = true) : (r.onBody body).1.isSome := by
  unfold onBody atEof
  simp only [h, if_true]
  repeat' split
  all_goals rfl

theorem onBody_none (body : Bytes) (h : (r.onBody body).1 = some (.ok none)) :
    r.readEof = true := by
  by_contra hr
  simp only [onBody, atEof, hr, if_false] at h
  repeat' split at h
  all_goals cases h

theorem onMessage_readEof (msg : Message) :
    (r.onMessage msg).reader.readEof = (r.readEof || endsStream msg) := by
  unfold onMessage endsStream isFin isStateClosed
  split_ifs with hd hf hc
  · simp [onBody_readEof, hd, hf]
  · simp [onBody_readEof, hd, hf, ctData, ctStateClosed]
  · simp [hc]
  · simp [hd, hc]

theorem onMessage_closed (msg : Message) : (r.onMessage msg).closed = isStateClosed msg := by
  unfold onMessage isStateClosed
  split_ifs with hd hf hc
  · simp [hd, ctData, ctStateClosed]
  · simp [hd, ctData, ctStateClosed]
  · simp [hc]
  · simp [hc]

theorem onMessage_isSome {msg : Message} (h : endsStream msg = true) :
    (r.onMessage msg).result.isSome := by
  unfold onMessage
  unfold endsStream isFin isStateClosed at h
  split_ifs with hd hf hc
  · exact onBody_isSome _ _ rfl
  · simp [hd, hf, ctData, ctStateClosed] at h
  · rfl
  · simp [hd, hc] at h

theorem onMessage_none {msg : Message} (h : (r.onMessage msg).result = some (.ok none)) :
    (r.onMessage msg).reader.readEof = true := by
  unfold onMessage at h ⊢
  split_ifs at h ⊢ with hd hf hc
  · simp [onBody_readEof]
  · exact (onBody_readEof _ _).trans (onBody_none _ _ h)
  · rfl

/-- All that a reader makes of a list of frames, whatever calls of `read` consume them. -/
def drain (r : EdgeReadHalf C) : List Message → List ReadResult × EdgeReadHalf C
  | [] => ([], r)
  | msg :: msgs =>
    let turn := r.onMessage msg
    let rest := turn.reader.drain msgs
    (turn.result.toList ++ rest.1, rest.2)

theorem drain_append (ms ns : List Message) : r.drain (ms ++ ns) =
    ((r.drain ms).1 ++ ((r.drain ms).2.drain ns).1, ((r.drain ms).2.drain ns).2) := by
  induction ms generalizing r with
  | nil => simp [drain]
  | cons m ms ih => simp [drain, ih]

theorem drain_readEof (ms : List Message) :
    (r.drain ms).2.readEof = (r.readEof || ms.any endsStream) := by
  induction ms generalizing r with
  | nil => simp [drain]
  | cons m ms ih => simp [drain, ih, onMessage_readEof, Bool.or_assoc]

end EdgeReadHalf

/-- What the loop of `read` does to a queue: it takes `used` from it, and returns `k` results that
no frame gave. -/
structure Halves.Reads {C : Crypto} (h : Halves C) (rx : List Message) (used : List Message)
    (k : Nat) (out : Option ReadResult × Halves C) : Prop where
  queue : rx = used ++ out.2.rx
  result : out.1.toList = (h.reader.drain used).1 ++ List.replicate k (.ok none)
  crypto : out.2.reader.crypto = (h.reader.drain used).2.crypto
  eof : out.2.reader.readEof = true →
    (∃ m ∈ used, endsStream m = true) ∨ h.hungUp = true ∧ out.2.rx = []
  live : out.2.reader.readEof = false → k = 0 ∧ ∀ m ∈ used, endsStream m = false
  before : ∀ m ∈ used.dropLast, endsStream m = false
  sentFin : out.2.sentFin = (h.sentFin || used.any isStateClosed)
  writer : out.2.writer = h.writer
  hungUp : out.2.hungUp = h.hungUp
  none : out.1 = some (.ok none) → out.2.reader.readEof = true
  waits : out.1 = .none → ∀ m ∈ rx, endsStream m = false

theorem Halves.readLoop_spec {C : Crypto} (h : Halves C) (hlive : h.reader.readEof = false)
    (rx : List Message) : ∃ used k, h.Reads rx used k (h.readLoop rx) := by
  induction rx generalizing h with
  | nil =>
    unfold readLoop
    split_ifs with hh
    · refine ⟨[], 1, ?_⟩
      constructor <;> simp [EdgeReadHalf.drain, hh]
    · refine ⟨[], 0, ?_⟩
      constructor <;> simp [EdgeReadHalf.drain, hlive]
  | cons msg rx ih =>
    unfold readLoop
    have hclosed := h.reader.onMessage_closed msg
    have heof := h.reader.onMessage_readEof msg
    rw [hlive, Bool.false_or] at heof
    cases hres : (h.reader.onMessage msg).result with
    | some res =>
      refine ⟨[msg], 0, ?_⟩
      have hnone : res = .ok none → endsStream msg = true := by
        rintro rfl
        exact heof.symm.trans (h.reader.onMessage_none hres)
      constructor <;> simp [EdgeReadHalf.drain, hres, hclosed, heof]
      · exact Or.inl
      · exact hnone
    | none =>
      have hopen : endsStream msg = false := by
        refine Bool.eq_false_iff.mpr fun he => ?_
        have hsome := h.reader.onMessage_isSome he
        rw [hres] at hsome
        cases hsome
      obtain ⟨used, k, hr⟩ := ih
        { h with
          reader := (h.reader.onMessage msg).reader,
          sentFin := h.sentFin || (h.reader.onMessage msg).closed, rx := rx }
        (heof.trans hopen)
      refine ⟨msg :: used, k, ?_⟩
      simp only [hres, hclosed] at hr ⊢
      refine ⟨?_, ?_, ?_, ?_, ?_, ?_, ?_, hr.writer, hr.hungUp, hr.none, ?_⟩
      · rw [List.cons_append, ← hr.queue]
      · simpa [EdgeReadHalf.drain, hres] using hr.result
      · simpa [EdgeReadHalf.drain, hres] using hr.crypto
      · simpa [hopen] using hr.eof
      · simpa [hopen] using hr.live
      · cases used with
        | nil => simp
        | cons u used => simpa [hopen] using hr.before
      · simp [hr.sentFin, Bool.or_assoc]
      · simpa [hopen] using hr.waits

namespace EdgeReadHalf
variable {C : Crypto}

/-- The reader has its decryptor or waits for the stream header that makes it. -/
def Keyed (r : EdgeReadHalf C) : Prop :=
  ∀ c, r.crypto = some c → c.decryptor.isSome ∨ c.rxKey.isSome

theorem Keyed.onBody {r : EdgeReadHalf C} (h : r.Keyed) (body : Bytes) :
    (r.onBody body).2.Keyed ∧ (r.onBody body).1 ≠ some .panicked := by
  have hend : r.atEof ≠ some .panicked := by
    unfold atEof
    split_ifs <;> simp
  have hnew (d : C.Pull) : Keyed { r with crypto := some ⟨some d, none⟩ } := by
    rintro c ⟨⟩
    exact .inl rfl
  unfold EdgeReadHalf.onBody
  split
  · split_ifs
    exacts [⟨h, by simp⟩, ⟨h, hend⟩]
  · split_ifs
    exacts [⟨h, by simp⟩, ⟨hnew _, hend⟩]
  · next dec hc =>
    split_ifs
    · exact ⟨h, hend⟩
    · exact ⟨h, by simp⟩
    · cases dec with
      | none => simpa using h _ hc
      | some d =>
        dsimp only
        split
        · exact ⟨h, by simp⟩
        · split_ifs
          exacts [⟨hnew _, by simp⟩, ⟨hnew _, hend⟩]

theorem Keyed.onMessage {r : EdgeReadHalf C} (h : r.Keyed) (msg : Message) :
    (r.onMessage msg).reader.Keyed ∧ (r.onMessage msg).result ≠ some .panicked := by
  unfold EdgeReadHalf.onMessage
  split_ifs
  · exact Keyed.onBody (r := { r with readEof := true }) h msg.body
  · exact h.onBody msg.body
  · exact ⟨h, by simp⟩
  · exact ⟨h, by simp⟩

end EdgeReadHalf

namespace Halves

variable {C : Crypto}

theorem keyed_new (connId : UInt32) {crypto : Option (ConnCrypto C)}
    (h : ∀ c, crypto = some c → c.rxKey.isSome) : (new connId crypto).reader.Keyed := by
  rintro _ hc
  obtain ⟨c, hcrypto, rfl⟩ := Option.map_eq_some_iff.mp hc
  exact .inr (h c hcrypto)

theorem keyed_readLoop {h : Halves C} (hk : h.reader.Keyed) (rx : List Message) :
    (h.readLoop rx).2.reader.Keyed ∧ (h.readLoop rx).1 ≠ some .panicked := by
  induction rx generalizing h with
  | nil =>
    unfold readLoop
    split_ifs
    exacts [⟨hk, by simp⟩, ⟨hk, by simp⟩]
  | cons msg rx ih =>
    obtain ⟨hk', hres⟩ := hk.onMessage msg
    unfold readLoop
    dsimp only
    split
    · next heq => exact ⟨hk', fun he => hres (heq.trans he)⟩
    · exact ih hk'

/-- The `expect` on the decryptor cannot fail. -/
theorem keyed_read {h : Halves C} (hk : h.reader.Keyed) :
    h.read.2.reader.Keyed ∧ h.read.1 ≠ some .panicked := by
  unfold read
  split_ifs
  exacts [⟨hk, by simp⟩, keyed_readLoop hk h.rx]

end Halves

namespace ConnRun

variable {C : Crypto}

/-- How far a connection has read: `consumed` of what was delivered, and `k` results after it. -/
structure Reading (r₀ : EdgeReadHalf C) (s : ConnRun C) (consumed : List Message) (k : Nat) :
    Prop where
  queue : s.delivered = consumed ++ s.halves.rx
  reads : s.reads = (r₀.drain consumed).1 ++ List.replicate k (.ok none)
  crypto : s.halves.reader.crypto = (r₀.drain consumed).2.crypto
  eof : s.halves.reader.readEof = true →
    (∃ m ∈ consumed, endsStream m = true) ∨ s.halves.hungUp = true ∧ s.halves.rx = []
  live : s.halves.reader.readEof = false → k = 0 ∧ ∀ m ∈ consumed, endsStream m = false
  before : ∀ m ∈ consumed.dropLast, endsStream m = false
  sentFin : s.halves.sentFin = (s.closedHere || consumed.any isStateClosed)
  ended : .ok none ∈ s.reads → s.halves.reader.readEof = true

variable {r₀ : EdgeReadHalf C} {s s' : ConnRun C} {consumed : List Message} {k : Nat}

theorem Reading.reader_eq (h : Reading r₀ s consumed k) (hr : r₀.readEof = false)
    (hlive : s.halves.reader.readEof = false) : s.halves.reader = (r₀.drain consumed).2 := by
  have hends : consumed.any endsStream = false := by
    simpa using (h.live hlive).2
  have heof := r₀.drain_readEof consumed
  rw [hr, hends] at heof
  have hcrypto := h.crypto
  revert hlive heof hcrypto
  cases s.halves.reader
  cases (r₀.drain consumed).2
  simp +contextual

theorem Reading.read (h : Reading r₀ s consumed k) (hr : r₀.readEof = false)
    (hs : s.step .read = some s') : ∃ consumed k, Reading r₀ s' consumed k := by
  simp only [ConnRun.step, Option.some.injEq] at hs
  subst hs
  cases heof : s.halves.reader.readEof with
  | true =>
    -- a reader past its EOF answers without looking at the queue
    have hread : s.halves.read = (some (.ok none), s.halves) := by
      unfold Halves.read
      rw [if_pos heof]
    rw [hread]
    refine ⟨consumed, k + 1, h.queue, ?_, h.crypto, h.eof, ?_, h.before, h.sentFin, fun _ => heof⟩
    · simp only [h.reads, List.replicate_succ', Option.toList, List.append_assoc]
    · intro hf
      rw [heof] at hf
      cases hf
  | false =>
    have hreader := h.reader_eq hr heof
    obtain ⟨hk, hopen⟩ := h.live heof
    have hread : s.halves.read = s.halves.readLoop s.halves.rx := by
      unfold Halves.read
      rw [heof, if_neg Bool.false_ne_true]
    obtain ⟨used, k', hl⟩ := s.halves.readLoop_spec heof s.halves.rx
    rw [hread]
    generalize s.halves.readLoop s.halves.rx = out at hl ⊢
    refine ⟨consumed ++ used, k', ?_, ?_, ?_, ?_, ?_, ?_, ?_, ?_⟩
    · simp only [h.queue, List.append_assoc, ← hl.queue]
    · simp only [h.reads, hk, hl.result, hreader, EdgeReadHalf.drain_append, List.append_assoc,
        List.replicate_zero, List.nil_append]
    · simp only [hl.crypto, hreader, EdgeReadHalf.drain_append]
    · intro he
      rcases hl.eof he with ⟨m, hm, hme⟩ | ⟨hh, hrx⟩
      · exact .inl ⟨m, List.mem_append_right _ hm, hme⟩
      · exact .inr ⟨hl.hungUp.trans hh, hrx⟩
    · intro he
      refine ⟨(hl.live he).1, fun m hm => ?_⟩
      rcases List.mem_append.mp hm with hm | hm
      · exact hopen m hm
      · exact (hl.live he).2 m hm
    · intro m hm
      cases used with
      | nil => exact hopen m (by simpa using List.mem_of_mem_dropLast hm)
      | cons u used =>
        rw [List.dropLast_append_of_ne_nil (List.cons_ne_nil u used)] at hm
        rcases List.mem_append.mp hm with hm | hm
        · exact hopen m hm
        · exact hl.before m hm
    · simp only [hl.sentFin, h.sentFin, List.any_append, Bool.or_assoc]
    · intro hm
      rcases List.mem_append.mp hm with hm | hm
      · rw [h.ended hm] at heof
        cases heof
      · exact hl.none (Option.mem_toList.mp hm)

theorem Reading.step (h : Reading r₀ s consumed k) (hr : r₀.readEof = false) {a : ConnAct}
    (hs : s.step a = some s') : ∃ consumed k, Reading r₀ s' consumed k := by
  cases a with
  | read => exact h.read hr hs
  | deliver msg =>
    simp only [ConnRun.step] at hs
    split_ifs at hs with hh
    cases hs
    refine ⟨consumed, k, ?_, h.reads, h.crypto, ?_, h.live, h.before, h.sentFin, h.ended⟩
    · simp only [h.queue, List.append_assoc]
    · intro he
      rcases h.eof he with hm | ⟨hh', -⟩
      · exact .inl hm
      · exact absurd hh' hh
  | hangUp =>
    cases hs
    refine ⟨consumed, k, h.queue, h.reads, h.crypto, ?_, h.live, h.before, h.sentFin, h.ended⟩
    intro he
    exact (h.eof he).imp_right fun hrx => ⟨rfl, hrx.2⟩
  | write data seq =>
    simp only [ConnRun.step] at hs
    split at hs <;> next heq =>
      cases hs
      obtain ⟨w, hw⟩ := s.halves.write_writer data seq
      rw [heq] at hw
      cases hw
      exact ⟨consumed, k, h.queue, h.reads, h.crypto, h.eof, h.live, h.before, h.sentFin, h.ended⟩
  | closeWrite seq =>
    simp only [ConnRun.step, Option.some.injEq, Halves.closeWrite_halves] at hs
    subst hs
    exact ⟨consumed, k, h.queue, h.reads, h.crypto, h.eof, h.live, h.before, rfl, h.ended⟩
  | close seq =>
    cases hs
    exact ⟨consumed, k, h.queue, h.reads, h.crypto, h.eof, h.live, h.before, rfl, h.ended⟩

theorem reading_new (connId : UInt32) (crypto : Option (ConnCrypto C)) :
    Reading (Halves.new connId crypto).reader (new connId crypto) [] 0 := by
  constructor <;> simp [new, Halves.new, EdgeReadHalf.drain]

/-- Every run of a connection reads a part of what it was delivered, in order. -/
theorem run_reading {connId : UInt32} {crypto : Option (ConnCrypto C)} {as : List ConnAct}
    {t : ConnRun C} (hrun : run step (new connId crypto) as = some t) :
    ∃ consumed k, Reading (Halves.new connId crypto).reader t consumed k :=
  run_invariant
    (fun t => ∃ consumed k, Reading (Halves.new connId crypto).reader t consumed k)
    (fun _ _ _ hs ⟨_, _, h⟩ => h.step rfl hs) hrun ⟨[], 0, reading_new connId crypto⟩

/-- A reader that has come to its end consumed the first frame that ends the stream, if one was
delivered, and nothing after it. -/
theorem Reading.consumed_eq (h : Reading r₀ s consumed k)
    (heof : s.halves.reader.readEof = true) (hm : ∃ m ∈ s.delivered, endsStream m = true) :
    ∃ pre m, consumed = pre ++ [m] ∧ endsStream m = true ∧ ∀ x ∈ pre, endsStream x = false := by
  obtain ⟨e, he, hends⟩ : ∃ m ∈ consumed, endsStream m = true := by
    rcases h.eof heof with hc | ⟨-, hrx⟩
    · exact hc
    · rw [h.queue, hrx, List.append_nil] at hm
      exact hm
  rcases List.eq_nil_or_concat' consumed with rfl | ⟨pre, m, rfl⟩
  · cases he
  · have hpre : ∀ x ∈ pre, endsStream x = false := by simpa using h.before
    refine ⟨pre, m, rfl, ?_, hpre⟩
    rcases List.mem_append.mp he with he | he
    · rw [hpre e he] at hends
      cases hends
    · rwa [← List.mem_singleton.mp he]

theorem sentFin_step {a : ConnAct} (hs : s.step a = some s') (h : s.halves.sentFin = true) :
    s'.halves.sentFin = true := by
  cases a with
  | deliver msg =>
    simp only [ConnRun.step] at hs
    split_ifs at hs
    cases hs
    exact h
  | hangUp =>
    cases hs
    exact h
  | read =>
    simp only [ConnRun.step, Option.some.injEq] at hs
    subst hs
    unfold Halves.read
    split_ifs with heof
    · exact h
    · obtain ⟨_, _, hl⟩ := s.halves.readLoop_spec (Bool.eq_false_iff.mpr heof) s.halves.rx
      rw [hl.sentFin, h, Bool.true_or]
  | write data seq =>
    simp only [ConnRun.step, Halves.write, h, if_true] at hs
    cases hs
    exact h
  | closeWrite seq =>
    simp only [ConnRun.step, Option.some.injEq, Halves.closeWrite_halves] at hs
    subst hs
    rfl
  | close seq =>
    cases hs
    rfl

/-- The write fails and leaves the connection, and what it sent, as it was. -/
def RefusesWrites (s : ConnRun C) : Prop :=
  ∀ data seq, (s.halves.write data seq).1 = .error .writeAfterClose ∧ s.step (.write data seq) = some s

theorem refusesWrites_iff : s.RefusesWrites ↔ s.halves.sentFin = true := by
  refine ⟨fun h => ?_, fun h data seq => ?_⟩
  · by_contra hf
    have hw := (h [] 0).1
    simp only [Halves.write, hf, if_false] at hw
    repeat' split at hw
    all_goals cases hw
  · simp [Halves.write, ConnRun.step, h]

/-- Once a read has returned `None` on a connection that was delivered a `StateClosed`, all writes
from then on fail exactly if the connection closed its own write side or the first frame to end the
stream was a `StateClosed`: one behind a `FIN` is never looked at. -/
theorem refusesWrites_after_stateClosed_iff {connId : UInt32} {crypto : Option (ConnCrypto C)}
    {as : List ConnAct} {t : ConnRun C} (hrun : run step (new connId crypto) as = some t)
    (hnone : .ok none ∈ t.reads) (hclosed : ∃ m ∈ t.delivered, isStateClosed m = true) :
    (∀ bs u, run step t bs = some u → u.RefusesWrites) ↔
      t.closedHere = true ∨ (t.delivered.find? endsStream).any isStateClosed = true := by
  obtain ⟨consumed, k, h⟩ := run_reading hrun
  have hends : ∀ m, isStateClosed m = true → endsStream m = true := by
    intro m hm
    simp [endsStream, hm]
  obtain ⟨pre, m, rfl, hm, hpre⟩ := h.consumed_eq (h.ended hnone)
    (hclosed.imp fun m hm => ⟨hm.1, hends m hm.2⟩)
  have hfind : t.delivered.find? endsStream = some m := by
    rw [h.queue, List.append_assoc, List.find?_append, List.find?_eq_none.mpr (by simpa using hpre)]
    simp [hm]
  have hany : (pre ++ [m]).any isStateClosed = isStateClosed m := by
    have hno : pre.any isStateClosed = false := by
      refine List.any_eq_false.mpr fun x hx hc => ?_
      exact absurd (hends x hc) (by simp [hpre x hx])
    simp [hno]
  have hfin := h.sentFin
  rw [hany] at hfin
  have hlater : (∀ bs u, run step t bs = some u → u.RefusesWrites) ↔ t.halves.sentFin = true := by
    refine ⟨fun hall => refusesWrites_iff.mp (hall [] t rfl), fun hf bs u hu => ?_⟩
    exact refusesWrites_iff.mpr
      (run_invariant (fun s => s.halves.sentFin = true) (fun _ _ _ => sentFin_step) hu hf)
  rw [hlater, hfin, hfind, Option.any_some, Bool.or_eq_true]

end ConnRun

/-- A plaintext connection to evaluate on. -/
def plainRun : ConnRun padCrypto := .new 5 none

/-- The peer's half-close, as `close_write` builds it. -/
def finFrame : Message := withHeader (buildData 5 [] false) hdrFlags (u32ToLe flagFin)

/-- A peer that half-closes and then closes: both reads return `None`, and a write still puts its
frame on the channel. -/
theorem write_after_fin_and_stateClosed : ∃ t, run ConnRun.step plainRun
      [.deliver finFrame, .deliver (buildStateClosed 5), .read, .read] = some t ∧
    t.reads = [.ok none, .ok none] ∧ t.delivered = [finFrame, buildStateClosed 5] ∧
    ∃ u, t.step (.write [1] 1) = some u ∧ u.written = [[1]] ∧ u.sent.length = 1 := by
  refine ⟨_, rfl, by decide, rfl, _, rfl, rfl, rfl⟩

/-- Without the half-close the write is refused. -/
theorem refusesWrites_after_stateClosed_alone : ∃ t, run ConnRun.step plainRun
      [.deliver (buildStateClosed 5), .read, .read] = some t ∧ t.RefusesWrites := by
  have hrefuses (t : ConnRun padCrypto)
      (hrun : run ConnRun.step (.new 5 none) [.deliver (buildStateClosed 5), .read, .read] = some t)
      (hnone : .ok none ∈ t.reads) (hdel : t.delivered = [buildStateClosed 5]) :
      t.RefusesWrites := by
    refine (ConnRun.refusesWrites_after_stateClosed_iff hrun hnone ?_).mpr (.inr ?_) [] t rfl
    · exact ⟨buildStateClosed 5, by simp [hdel], rfl⟩
    · rw [hdel]
      rfl
  exact ⟨_, rfl, hrefuses _ rfl (by decide) rfl⟩

end Noa.Edge.Data
