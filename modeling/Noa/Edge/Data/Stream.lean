import Noa.Edge.Data.Conn

namespace Noa.Edge.Data
open Noa.Framework Noa.Channel

/-- What the routers between two peers keep of a frame; they give it ids and a sequence of their
own. -/
structure Relayed (sent got : Message) : Prop where
  contentType : got.contentType = sent.contentType
  flags : got.headers[hdrFlags]? = sent.headers[hdrFlags]?
  body : got.body = sent.body

theorem Relayed.hasFin {f d : Message} (h : Relayed f d) : Data.hasFin d = Data.hasFin f := by
  unfold Data.hasFin headerU32
  rw [h.flags]

theorem Relayed.endsStream {f d : Message} (h : Relayed f d) :
    Data.endsStream d = Data.endsStream f := by
  unfold Data.endsStream isFin isStateClosed
  rw [h.contentType, h.hasFin]

/-- The stream header as the first `Data` of an encrypted connection. -/
def openingFrame (connId : UInt32) (seq : Int32) (header : Bytes) : Message :=
  { buildData connId header true with sequence := seq }

/-- Two ends of one connection as their handshakes leave them: the sender, the stream headers it
has sent, and the receiver. -/
inductive Peers (C : Crypto) : Option (ConnCrypto C) → List Bytes → Option (ConnCrypto C) → Prop
  | plain : Peers C none [] none
  | dialer {kc ks reply dial ec es cc cs hc hs}
      (hreply : reply.headers[hdrPublicKey]? = some (C.publicKey ks))
      (hdial : dial.headers[hdrPublicKey]? = some (C.publicKey kc))
      (hclient : clientCryptoSetup C (some kc) reply ec = .ok (some (cc, hc)))
      (hserver : serverCryptoSetup C (some ks) dial es = .ok (some (cs, hs))) :
      Peers C (some cc) [hc] (some cs)
  | host {kc ks reply dial ec es cc cs hc hs}
      (hreply : reply.headers[hdrPublicKey]? = some (C.publicKey ks))
      (hdial : dial.headers[hdrPublicKey]? = some (C.publicKey kc))
      (hclient : clientCryptoSetup C (some kc) reply ec = .ok (some (cc, hc)))
      (hserver : serverCryptoSetup C (some ks) dial es = .ok (some (cs, hs))) :
      Peers C (some cs) [hs] (some cc)

section Crypto

variable {C : Crypto}

theorem cryptoSetup_eq_some {peer : String}
    {sessionKeys : C.KeyPair → Bytes → Except String (SessionKey × SessionKey)} {kp : C.KeyPair}
    {msg : Message} {e : C.Entropy} {pk header : Bytes} {cc : ConnCrypto C}
    (hpk : msg.headers[hdrPublicKey]? = some pk)
    (h : cryptoSetup C peer sessionKeys (some kp) msg e = .ok (some (cc, header))) :
    ∃ rx tx, sessionKeys kp pk = .ok (rx, tx) ∧ cc = ⟨(C.initPush tx e).1, none, some rx⟩ ∧
      header = (C.initPush tx e).2 := by
  unfold cryptoSetup at h
  rw [hpk] at h
  dsimp only at h
  split_ifs at h
  cases hk : sessionKeys kp pk with
  | error text =>
    rw [hk] at h
    cases h
  | ok keys =>
    rw [hk] at h
    cases h
    exact ⟨keys.1, keys.2, rfl, rfl, rfl⟩

theorem Peers.opened (L : C.Lawful) {s r : Option (ConnCrypto C)} {opening : List Bytes}
    (h : Peers C s opening r) :
    s = none ∧ opening = [] ∧ r = none ∨
    ∃ key e rx sender, s = some ⟨(C.initPush key e).1, none, some rx⟩ ∧
      opening = [(C.initPush key e).2] ∧ r = some ⟨sender, none, some key⟩ := by
  cases h with
  | plain => exact .inl ⟨rfl, rfl, rfl⟩
  | dialer hreply hdial hclient hserver | host hreply hdial hclient hserver =>
    obtain ⟨rx, tx, hk, rfl, rfl⟩ := cryptoSetup_eq_some hreply hclient
    obtain ⟨rx', tx', hk', rfl, rfl⟩ := cryptoSetup_eq_some hdial hserver
    rw [L.keys_match _ _ _ _ hk] at hk'
    cases hk'
    exact .inr ⟨_, _, _, _, rfl, rfl, rfl⟩

end Crypto

/-- A list has one way to be cut at its first element with a property. -/
theorem first_split {α : Type} {p : α → Bool} {as bs as' bs' : List α} {a b : α}
    (has : ∀ x ∈ as, p x = false) (ha : p a = true) (hbs : ∀ x ∈ bs, p x = false) (hb : p b = true)
    (h : as ++ a :: as' = bs ++ b :: bs') : as = bs ∧ a = b := by
  have hcut (l : List α) (c : α) (l' : List α) (hl : ∀ x ∈ l, p x = false) (hc : p c = true) :
      (l ++ c :: l').takeWhile (fun x => !p x) = l := by
    rw [List.takeWhile_append_of_pos (by simpa using hl), List.takeWhile_cons]
    simp [hc]
  have heq : as = bs := by
    rw [← hcut as a as' has ha, h, hcut bs b bs' hbs hb]
  subst heq
  exact ⟨rfl, (List.cons.inj (List.append_cancel_left h)).1⟩

section Frames

@[simp] theorem buildData_contentType (connId : UInt32) (body : Bytes) (first : Bool) :
    (buildData connId body first).contentType = ctData := by
  cases first <;> rfl

@[simp] theorem buildData_body (connId : UInt32) (body : Bytes) (first : Bool) :
    (buildData connId body first).body = body := by
  cases first <;> rfl

theorem hasFin_buildData (connId : UInt32) (body : Bytes) (first : Bool) (seq : Int32) :
    hasFin { buildData connId body first with sequence := seq } = false := by
  cases first
  · simp [hasFin, headerU32, buildData, withHeader, Message.new, hdrConnId, hdrFlags]
  · simp [hasFin, headerU32, buildData, withHeader, Message.new]
    rfl

theorem endsStream_openingFrame (connId : UInt32) (seq : Int32) (header : Bytes) :
    endsStream (openingFrame connId seq header) = false := by
  unfold openingFrame endsStream isFin
  rw [hasFin_buildData]
  rfl

theorem isFin_closeWrite (connId : UInt32) (seq : Int32) :
    isFin { withHeader (buildData connId [] false) hdrFlags (u32ToLe flagFin) with
      sequence := seq } = true := by
  simp only [isFin, hasFin, headerU32, withHeader, Std.ExtTreeMap.getElem?_insert_self]
  rfl

end Frames

section Carries

variable {C : Crypto}

/-- The body is the data as the sender's cipher, if it has one, seals it on its way to the next
state. -/
def Sealed : Option C.Push → Bytes → Bytes → Option C.Push → Prop
  | none, data, body, s' => body = data ∧ s' = none
  | some p, data, body, s' => ∃ p', C.push p data = .ok (body, p') ∧ s' = some p'

/-- The frames carry the data, one each, from one state of the cipher to another. -/
inductive Carries : Option C.Push → List Message → List Bytes → Option C.Push → Prop
  | nil (s : Option C.Push) : Carries s [] [] s
  | cons {s s' s'' : Option C.Push} {f : Message} {fs : List Message} {w : Bytes} {ws : List Bytes}
      (hdata : f.contentType = ctData) (hfin : hasFin f = false) (hbody : Sealed s w f.body s')
      (hrest : Carries s' fs ws s'') : Carries s (f :: fs) (w :: ws) s''

theorem Carries.snoc {s s' s'' : Option C.Push} {f : Message} {fs : List Message} {w : Bytes}
    {ws : List Bytes} (h : Carries s fs ws s') (hdata : f.contentType = ctData)
    (hfin : hasFin f = false) (hbody : Sealed s' w f.body s'') :
    Carries s (fs ++ [f]) (ws ++ [w]) s'' := by
  induction h with
  | nil s => exact .cons hdata hfin hbody (.nil s'')
  | cons hd hf hb _ ih => exact .cons hd hf hb (ih hbody)

theorem Carries.not_endsStream {s s' : Option C.Push} {fs : List Message} {ws : List Bytes}
    (h : Carries s fs ws s') : ∀ f ∈ fs, endsStream f = false := by
  induction h with
  | nil s => simp
  | cons hd hf hb _ ih =>
    refine List.forall_mem_cons.mpr ⟨?_, ih⟩
    simp [endsStream, isFin, isStateClosed, hd, hf, ctData, ctStateClosed]

/-- The reader is where the sender's cipher is. -/
def InStep (L : C.Lawful) : Option C.Push → EdgeReadHalf C → Prop
  | none, r => r.crypto = none
  | some p, r => ∃ d, r.crypto = some ⟨some d, none⟩ ∧ L.Synced p d

variable {L : C.Lawful} {s s' : Option C.Push} {r : EdgeReadHalf C}

theorem InStep.onMessage (hr : InStep L s r) (hlive : r.readEof = false) {f d : Message}
    {w : Bytes} (hd : Relayed f d) (hdata : f.contentType = ctData) (hfin : hasFin f = false)
    (hbody : Sealed s w f.body s') :
    (r.onMessage d).result = (if w = [] then none else some (.ok (some w))) ∧
      InStep L s' (r.onMessage d).reader := by
  have hct : d.contentType = ctData := hd.contentType.trans hdata
  have hnofin : hasFin d = false := hd.hasFin.trans hfin
  unfold EdgeReadHalf.onMessage
  simp only [hct, hnofin, if_true, Bool.false_eq_true, if_false, hd.body]
  cases s with
  | none =>
    obtain ⟨hw, rfl⟩ := hbody
    have hc : r.crypto = none := hr
    unfold EdgeReadHalf.onBody
    rw [hc, hw]
    by_cases he : w = []
    · simp [he, EdgeReadHalf.atEof, hlive, InStep, hc]
    · simp [he, InStep, hc]
  | some p =>
    obtain ⟨p', hpush, rfl⟩ := hbody
    obtain ⟨dec, hc, hsync⟩ := hr
    obtain ⟨hlen, dec', hpull, hsync'⟩ := L.synced_push p dec w f.body p' hsync hpush
    have hne : f.body ≠ [] := by
      intro he
      rw [he] at hlen
      simp [aBytes] at hlen
    have hlong : ¬ f.body.length < aBytes := by omega
    unfold EdgeReadHalf.onBody
    simp only [hc, hne, hlong, if_false, hpull]
    by_cases he : w = []
    · simp [he, EdgeReadHalf.atEof, hlive, InStep, hsync']
    · simp [he, InStep, hsync']

theorem InStep.drain {fs ds : List Message} {ws : List Bytes} (hc : Carries s fs ws s')
    (hd : List.Forall₂ Relayed fs ds) (hr : InStep L s r) (hlive : r.readEof = false) :
    (r.drain ds).1 = (ws.filter (· ≠ [])).map (fun w => .ok (some w)) ∧
      InStep L s' (r.drain ds).2 := by
  induction hc generalizing r ds with
  | nil s =>
    cases hd
    exact ⟨rfl, hr⟩
  | cons hdata hfin hbody _ ih =>
    cases hd with
    | @cons _ d _ _ hrel hrest =>
      obtain ⟨hres, hnext⟩ := hr.onMessage hlive hrel hdata hfin hbody
      have hopen : (r.onMessage d).reader.readEof = false := by
        rw [r.onMessage_readEof, hlive, hrel.endsStream]
        exact (Carries.cons hdata hfin hbody (.nil _)).not_endsStream _ (List.mem_singleton_self _)
      obtain ⟨hchunks, hlast⟩ := ih hrest hnext hopen
      refine ⟨?_, hlast⟩
      simp only [EdgeReadHalf.drain, hres, hchunks]
      split_ifs with hw <;> simp [hw]

theorem InStep.ends (hr : InStep L s r) {f : Message} (hf : endsStream f = true)
    (hbody : isFin f = true → f.body = []) : (r.onMessage f).result = some (.ok none) := by
  unfold EdgeReadHalf.onMessage
  unfold endsStream at hf
  split_ifs with hd hfin hc
  · have hempty : f.body = [] := hbody (by simp [isFin, hd, hfin])
    unfold EdgeReadHalf.onBody
    cases s with
    | none => simp [show r.crypto = none from hr, hempty, EdgeReadHalf.atEof]
    | some p =>
      obtain ⟨dec, hc, -⟩ := hr
      simp [hc, hempty, EdgeReadHalf.atEof]
  · simp [isFin, isStateClosed, hd, hfin, ctData, ctStateClosed] at hf
  · rfl
  · simp [isFin, isStateClosed, hd, hc] at hf

theorem Peers.drain_opening (L : C.Lawful) {sc rc : Option (ConnCrypto C)} {opening : List Bytes}
    (hp : Peers C sc opening rc) {connId : UInt32} (peerId : UInt32) {seq : Int32}
    {ds : List Message} (hd : List.Forall₂ Relayed (opening.map (openingFrame connId seq)) ds) :
    ((Halves.new peerId rc).reader.drain ds).1 = [] ∧
      InStep L (sc.map ConnCrypto.sender) ((Halves.new peerId rc).reader.drain ds).2 := by
  rcases hp.opened L with ⟨rfl, rfl, rfl⟩ | ⟨key, e, rx, sender, rfl, rfl, rfl⟩
  · cases hd
    exact ⟨rfl, rfl⟩
  · obtain ⟨d, hrel, rfl⟩ : ∃ d, Relayed (openingFrame connId seq (C.initPush key e).2) d ∧ ds = [d] := by
      cases hd with
      | cons hrel hrest =>
        cases hrest
        exact ⟨_, hrel, rfl⟩
    have hct : d.contentType = ctData := hrel.contentType
    have hfin : hasFin d = false := hrel.hasFin.trans (hasFin_buildData connId _ true seq)
    have hbody : d.body = (C.initPush key e).2 := hrel.body
    have hlen : d.body.length = streamHeaderBytes := by rw [hbody, L.header_length]
    simp only [EdgeReadHalf.drain, EdgeReadHalf.onMessage, EdgeReadHalf.onBody, Halves.new, hct,
      hfin, hlen, EdgeReadHalf.atEof, Option.map_some, if_true, if_false, ne_eq, not_true,
      Bool.false_eq_true]
    exact ⟨rfl, _, rfl, hbody ▸ L.synced_init key e⟩

end Carries

theorem Halves.write_sealed {C : Crypto} (h : Halves C) (data : Bytes) (seq : Int32) :
    (∃ e, h.write data seq = (.error e, h)) ∨
    ∃ msg w, h.write data seq = (.ok msg, { h with writer := w }) ∧ h.sentFin = false ∧
      msg.contentType = ctData ∧ hasFin msg = false ∧
      Sealed h.writer.sender data msg.body w.sender := by
  unfold Halves.write
  split_ifs with hf
  · exact .inl ⟨_, rfl⟩
  · have hopen : h.sentFin = false := Bool.eq_false_iff.mpr hf
    cases hw : h.writer.sender with
    | none =>
      exact .inr ⟨_, _, rfl, hopen, buildData_contentType _ _ _, hasFin_buildData _ _ _ _,
        buildData_body _ _ _, hw⟩
    | some enc =>
      dsimp only
      cases hp : C.push enc data with
      | error e => exact .inl ⟨_, rfl⟩
      | ok out =>
        refine .inr ⟨_, _, rfl, hopen, buildData_contentType _ _ _, hasFin_buildData _ _ _ _,
          out.2, ?_, rfl⟩
        rw [buildData_body]
        exact hp

theorem Halves.read_writer {C : Crypto} (h : Halves C) : h.read.2.writer = h.writer := by
  unfold Halves.read
  split_ifs with heof
  · rfl
  · obtain ⟨_, _, hl⟩ := h.readLoop_spec (Bool.eq_false_iff.mpr heof) h.rx
    exact hl.writer

namespace ConnRun

variable {C : Crypto}

/-- What a connection has sent: its data, then at most one half-close, then closes; nothing after
the data while its write side is open. -/
structure Sending (s₀ : Option C.Push) (s : ConnRun C) (frames fins closes : List Message) :
    Prop where
  sent : s.sent = frames ++ (fins ++ closes)
  carries : Carries s₀ frames s.written s.halves.writer.sender
  fins_length : fins.length ≤ 1
  fins_empty : ∀ m ∈ fins, isFin m = true ∧ m.body = []
  closes_closed : ∀ m ∈ closes, isStateClosed m = true
  writable : s.halves.sentFin = false → fins = [] ∧ closes = []

variable {s₀ : Option C.Push} {s s' : ConnRun C} {frames fins closes : List Message}

theorem Sending.step (h : Sending s₀ s frames fins closes) {a : ConnAct}
    (hs : s.step a = some s') : ∃ frames fins closes, Sending s₀ s' frames fins closes := by
  cases a with
  | deliver msg =>
    simp only [ConnRun.step] at hs
    split_ifs at hs
    cases hs
    exact ⟨frames, fins, closes, h.sent, h.carries, h.fins_length, h.fins_empty, h.closes_closed,
      h.writable⟩
  | hangUp =>
    cases hs
    exact ⟨frames, fins, closes, h.sent, h.carries, h.fins_length, h.fins_empty, h.closes_closed,
      h.writable⟩
  | read =>
    have hopen : s'.halves.sentFin = false → s.halves.sentFin = false := by
      intro hf
      refine Bool.eq_false_iff.mpr fun ht => ?_
      rw [sentFin_step hs ht] at hf
      cases hf
    simp only [ConnRun.step, Option.some.injEq] at hs
    subst hs
    refine ⟨frames, fins, closes, h.sent, ?_, h.fins_length, h.fins_empty, h.closes_closed,
      fun hf => h.writable (hopen hf)⟩
    rw [Halves.read_writer]
    exact h.carries
  | write data seq =>
    simp only [ConnRun.step] at hs
    rcases s.halves.write_sealed data seq with
      ⟨e, heq⟩ | ⟨msg, w, heq, hopen, hdata, hfin, hbody⟩ <;> rw [heq] at hs <;> cases hs
    · exact ⟨frames, fins, closes, h.sent, h.carries, h.fins_length, h.fins_empty,
        h.closes_closed, h.writable⟩
    · obtain ⟨rfl, rfl⟩ := h.writable hopen
      refine ⟨frames ++ [msg], [], [], ?_, h.carries.snoc hdata hfin hbody, h.fins_length,
        h.fins_empty, h.closes_closed, fun _ => ⟨rfl, rfl⟩⟩
      simp [h.sent]
  | closeWrite seq =>
    simp only [ConnRun.step, Option.some.injEq, Halves.closeWrite_halves] at hs
    subst hs
    unfold Halves.closeWrite
    split_ifs with hf
    · refine ⟨frames, fins, closes, ?_, h.carries, h.fins_length, h.fins_empty, h.closes_closed,
        by rintro ⟨⟩⟩
      simp [h.sent]
    · obtain ⟨rfl, rfl⟩ := h.writable (Bool.eq_false_iff.mpr hf)
      refine ⟨frames, [{ withHeader (buildData s.halves.writer.connId [] false) hdrFlags
          (u32ToLe flagFin) with sequence := seq }], [], ?_, h.carries, le_refl 1, ?_,
        h.closes_closed, by rintro ⟨⟩⟩
      · simp only [h.sent, Option.toList, List.append_nil]
      · exact List.forall_mem_singleton.mpr ⟨isFin_closeWrite _ seq, rfl⟩
  | close seq =>
    cases hs
    refine ⟨frames, fins, closes ++ [(s.halves.close seq).1], ?_, h.carries, h.fins_length,
      h.fins_empty, ?_, by rintro ⟨⟩⟩
    · simp only [h.sent, List.append_assoc, Halves.close]
    · refine List.forall_mem_append.mpr ⟨h.closes_closed, List.forall_mem_singleton.mpr rfl⟩

theorem run_sending {connId : UInt32} {crypto : Option (ConnCrypto C)} {as : List ConnAct}
    {t : ConnRun C} (hrun : run step (new connId crypto) as = some t) :
    ∃ frames fins closes, Sending (crypto.map ConnCrypto.sender) t frames fins closes := by
  refine run_invariant (fun t =>
    ∃ frames fins closes, Sending (crypto.map ConnCrypto.sender) t frames fins closes)
    (fun _ _ _ hs ⟨_, _, _, h⟩ => h.step hs) hrun ⟨[], [], [], ?_⟩
  exact ⟨rfl, .nil _, Nat.zero_le 1, by simp, by simp, fun _ => ⟨rfl, rfl⟩⟩

/-- However its calls are ordered, a connection sends at most one half-close. -/
theorem Sending.fins_le (h : Sending s₀ s frames fins closes) :
    (s.sent.filter isFin).length ≤ 1 := by
  have hframes : frames.filter isFin = [] := by
    refine List.filter_eq_nil_iff.mpr fun f hf hfin => ?_
    have hno := h.carries.not_endsStream f hf
    simp [endsStream, hfin] at hno
  have hcloses : closes.filter isFin = [] := by
    refine List.filter_eq_nil_iff.mpr fun f hf hfin => ?_
    have hc := h.closes_closed f hf
    simp only [isStateClosed, isFin, Bool.and_eq_true, beq_iff_eq] at hc hfin
    exact absurd (hc.symm.trans hfin.1) (by decide)
  rw [h.sent, List.filter_append, List.filter_append, hframes, hcloses, List.nil_append,
    List.append_nil]
  exact (List.length_filter_le _ _).trans h.fins_length

theorem Sending.tail (h : Sending s₀ s frames fins closes) :
    ∀ m ∈ fins ++ closes, endsStream m = true ∧ (isFin m = true → m.body = []) := by
  intro m hm
  rcases List.mem_append.mp hm with hm | hm
  · obtain ⟨hfin, hbody⟩ := h.fins_empty m hm
    exact ⟨by simp [endsStream, hfin], fun _ => hbody⟩
  · have hc := h.closes_closed m hm
    refine ⟨by simp [endsStream, hc], fun hfin => ?_⟩
    simp only [isStateClosed, isFin, Bool.and_eq_true, beq_iff_eq] at hc hfin
    exact absurd (hc.symm.trans hfin.1) (by decide)

/-- A reader of frames that give `chunks` up to the first one that ends the stream: it has returned
a part of the chunks, then `None`, and with the end in its queue it does not wait. -/
theorem Reading.reads_part {r₀ : EdgeReadHalf C} {consumed : List Message} {k : Nat}
    (h : Reading r₀ s consumed k) {ds rest : List Message} {e : Message}
    (hdel : s.delivered = ds ++ e :: rest) (hds : ∀ m ∈ ds, endsStream m = false)
    (he : endsStream e = true) (hend : ((r₀.drain ds).2.onMessage e).result = some (.ok none)) :
    (∃ n, s.reads <+: (r₀.drain ds).1 ++ List.replicate n (.ok none)) ∧
      s.halves.read.1.isSome := by
  have hsplit : consumed ++ s.halves.rx = ds ++ e :: rest := h.queue.symm.trans hdel
  cases heof : s.halves.reader.readEof with
  | true =>
    obtain ⟨pre, m, rfl, hm, hpre⟩ := h.consumed_eq heof ⟨e, by simp [hdel], he⟩
    obtain ⟨rfl, rfl⟩ : pre = ds ∧ m = e := by
      rw [List.append_assoc, List.singleton_append] at hsplit
      exact first_split hpre hm hds he hsplit
    refine ⟨⟨k + 1, ?_⟩, by simp [Halves.read, heof]⟩
    rw [h.reads, EdgeReadHalf.drain_append]
    simp [EdgeReadHalf.drain, hend, List.replicate_succ]
  | false =>
    obtain ⟨hk, hopen⟩ := h.live heof
    obtain ⟨more, rfl, hrx⟩ : ∃ more, ds = consumed ++ more ∧ s.halves.rx = more ++ e :: rest := by
      rcases List.append_eq_append_iff.mp hsplit with ⟨more, hds', hrx⟩ | ⟨more, hc, hrx⟩
      · exact ⟨more, hds', hrx⟩
      · cases more with
        | nil => exact ⟨[], by simpa using hc.symm, by simpa using hrx.symm⟩
        | cons x more =>
          cases hrx
          have hno := hopen e (by simp [hc])
          rw [he] at hno
          cases hno
    refine ⟨⟨0, ?_⟩, ?_⟩
    · rw [h.reads, hk, EdgeReadHalf.drain_append]
      simp
    · obtain ⟨used, k', hl⟩ := s.halves.readLoop_spec heof s.halves.rx
      unfold Halves.read
      rw [heof, if_neg Bool.false_ne_true]
      refine Option.isSome_iff_ne_none.mpr fun hwait => ?_
      have hno := hl.waits hwait e (by simp [hrx])
      rw [he] at hno
      cases hno

theorem relayed_append {as bs ds : List Message} (h : List.Forall₂ Relayed (as ++ bs) ds) :
    ∃ cs es, ds = cs ++ es ∧ List.Forall₂ Relayed as cs ∧ List.Forall₂ Relayed bs es := by
  refine ⟨ds.take as.length, ds.drop as.length, (List.take_append_drop _ _).symm, ?_, ?_⟩
  · simpa using List.forall₂_take as.length h
  · simpa using List.forall₂_drop as.length h

theorem relayed_not_endsStream {fs ds : List Message} (h : List.Forall₂ Relayed fs ds)
    (hfs : ∀ f ∈ fs, endsStream f = false) : ∀ d ∈ ds, endsStream d = false := by
  induction h with
  | nil => simp
  | cons hrel _ ih =>
    obtain ⟨hf, hfs⟩ := List.forall_mem_cons.mp hfs
    exact List.forall_mem_cons.mpr ⟨hrel.endsStream.trans hf, ih hfs⟩

/-- Everything a peer reads from a connection that has ended its stream, in whatever order its
calls and the deliveries come: the data written, then `None` for ever. -/
theorem Sending.delivered (L : C.Lawful) {sc rc : Option (ConnCrypto C)} {opening : List Bytes}
    (hp : Peers C sc opening rc) {connId peerId : UInt32} {seq : Int32}
    (h : Sending (sc.map ConnCrypto.sender) s frames fins closes) (hended : fins ++ closes ≠ [])
    {as : List ConnAct} {t : ConnRun C} (hrun : run ConnRun.step (new peerId rc) as = some t)
    (hrel : List.Forall₂ Relayed (opening.map (openingFrame connId seq) ++ s.sent) t.delivered) :
    (∃ n, t.reads <+: (s.written.filter (· ≠ [])).map (fun w => .ok (some w)) ++
      List.replicate n (.ok none)) ∧ t.halves.read.1.isSome := by
  obtain ⟨e, tail, htail⟩ := List.exists_cons_of_ne_nil hended
  obtain ⟨hends, hempty⟩ := h.tail e (by simp [htail])
  rw [h.sent, htail] at hrel
  obtain ⟨ods, rest, hds, hopening, hrest⟩ := relayed_append hrel
  obtain ⟨fds, rest, rfl, hframes, hrest⟩ := relayed_append hrest
  cases hrest with
  | @cons _ e' _ rest' hrel' hrest' =>
    obtain ⟨hnothing, hstep⟩ := hp.drain_opening L peerId hopening
    have hopenings : ∀ d ∈ ods, endsStream d = false := by
      refine relayed_not_endsStream hopening fun f hf => ?_
      obtain ⟨header, -, rfl⟩ := List.mem_map.mp hf
      exact endsStream_openingFrame connId seq header
    have hdatas := relayed_not_endsStream hframes h.carries.not_endsStream
    have hlive : ((Halves.new peerId rc).reader.drain ods).2.readEof = false := by
      rw [EdgeReadHalf.drain_readEof, List.any_eq_false.mpr (by simpa using hopenings)]
      rfl
    obtain ⟨hchunks, hlast⟩ := InStep.drain h.carries hframes hstep hlive
    obtain ⟨consumed, k, hreading⟩ := run_reading hrun
    have hdrain := (Halves.new peerId rc).reader.drain_append ods fds
    rw [hnothing, hchunks, List.nil_append] at hdrain
    have hdel : t.delivered = ods ++ fds ++ e' :: rest' := by rw [hds, List.append_assoc]
    have hpart := hreading.reads_part hdel (List.forall_mem_append.mpr ⟨hopenings, hdatas⟩)
      (hrel'.endsStream.trans hends)
    rw [hdrain] at hpart
    refine hpart (hlast.ends (hrel'.endsStream.trans hends) fun hfin => ?_)
    rw [hrel'.body]
    refine hempty ?_
    rwa [isFin, hrel'.contentType, hrel'.hasFin] at hfin

theorem sentFin_writes {ws : List (Bytes × Int32)} {t : ConnRun C}
    (hrun : run step s (ws.map fun w => .write w.1 w.2) = some t) :
    t.halves.sentFin = s.halves.sentFin := by
  induction ws generalizing s with
  | nil =>
    cases hrun
    rfl
  | cons w ws ih =>
    obtain ⟨s', hs, hrest⟩ := run_cons_eq_some.mp hrun
    refine (ih hrest).trans ?_
    simp only [ConnRun.step] at hs
    obtain ⟨w', hw⟩ := s.halves.write_writer w.1 w.2
    split at hs <;> next heq =>
      cases hs
      rw [heq] at hw
      cases hw
      rfl

theorem ended_of_closeWrite {connId : UInt32} {crypto : Option (ConnCrypto C)}
    {ws : List (Bytes × Int32)} {finSeq : Int32} {t : ConnRun C}
    (hrun : run step (new connId crypto)
      (ws.map (fun w => .write w.1 w.2) ++ [.closeWrite finSeq]) = some t) :
    ∃ m ∈ t.sent, endsStream m = true := by
  rw [run_append, Option.bind_eq_some_iff] at hrun
  obtain ⟨u, hu, hlast⟩ := hrun
  obtain ⟨t', hstep, ht⟩ := run_cons_eq_some.mp hlast
  cases ht
  have hopen : u.halves.sentFin = false := sentFin_writes hu
  simp only [ConnRun.step, Halves.closeWrite, hopen, Bool.false_eq_true, if_false,
    Option.some.injEq] at hstep
  subst hstep
  refine ⟨_, List.mem_append_right _ (Option.mem_toList.mpr rfl), ?_⟩
  rw [endsStream, isFin_closeWrite, Bool.true_or]

theorem run_reads {s t : ConnRun C} {as : List ConnAct} (hrun : run step s as = some t)
    (hsome : ∀ bs u, run step s bs = some u → u.delivered = t.delivered → u.halves.read.1.isSome)
    (m : Nat) : ∃ u, run step s (as ++ List.replicate m .read) = some u ∧
      u.delivered = t.delivered ∧ u.reads.length = t.reads.length + m := by
  induction m with
  | zero => exact ⟨t, by simpa using hrun, rfl, rfl⟩
  | succ m ih =>
    obtain ⟨u, hu, hdel, hlen⟩ := ih
    obtain ⟨result, hresult⟩ := Option.isSome_iff_exists.mp (hsome _ u hu hdel)
    refine ⟨{ u with halves := u.halves.read.2, reads := u.reads ++ [result] }, ?_, hdel, ?_⟩
    · rw [List.replicate_succ', ← List.append_assoc, run_append, hu]
      simp [run, ConnRun.step, hresult]
    · simp [hlen, Nat.add_assoc]

end ConnRun

/-- The handshake messages of an encrypted pair, as far as the key exchange reads them. -/
def keyedMessage (contentType : Int32) : Message :=
  withHeader (Message.new contentType []) hdrPublicKey (padCrypto.publicKey ())

def paddedConn (rxKey : SessionKey) : ConnCrypto padCrypto := ⟨(), none, some rxKey⟩

theorem padded_peers : Peers padCrypto (some (paddedConn [1])) [List.replicate 24 0]
    (some (paddedConn [2])) :=
  have hclient : clientCryptoSetup padCrypto (some ()) (keyedMessage ctStateConnected) () =
      .ok (some (paddedConn [1], List.replicate 24 0)) := rfl
  have hserver : serverCryptoSetup padCrypto (some ()) (keyedMessage ctDial) () =
      .ok (some (paddedConn [2], List.replicate 24 0)) := rfl
  .dialer rfl rfl hclient hserver

/-- What two writes, one of them empty, and the half-close put on the wire. -/
def helloFrames : List Message :=
  [openingFrame 5 1 (List.replicate 24 0),
    { buildData 5 ([104, 105] ++ List.replicate 17 0) false with sequence := 2 },
    { buildData 5 (List.replicate 17 0) false with sequence := 3 }, { finFrame with sequence := 4 }]

end Noa.Edge.Data
