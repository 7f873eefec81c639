import Noa.Edge.Crypto
import Noa.Edge.Data.ChannelState

namespace Noa.Edge.Data
open Noa.Framework Noa.Channel

/-- An inbound dial that was admitted and waits for the caller to complete it. -/
structure PendingAccept (C : Crypto) where
  bindConnId : UInt32
  childId : UInt32
  routerProvided : Bool
  dialSeq : Int32
  dataTx : SenderId
  circuitId : Option Bytes
  sourceIdentity : Option Bytes
  appData : Option Bytes
  cryptoSetup : Option (ConnCrypto C × Bytes)

/-- The bind an accept loop serves: its id, session token and key pair. -/
structure Listener (C : Crypto) where
  bindConnId : UInt32
  token : String
  keypair : Option C.KeyPair

/-- What one message of the bind queue leads to. `stuck` is the id allocation that never
returns. -/
inductive AcceptOutcome (C : Crypto) where
  | listenerClosed
  | ignored
  | rejected (reply : Message)
  | accepted (pending : PendingAccept C)
  | stuck

/-- The best-effort `DialFailed`, with the sequence it is sent under. -/
def ChannelState.dialFailed (st : ChannelState) (connId : UInt32) (dialSeq : Int32)
    (reason : String) : Message × ChannelState :=
  let msg := withHeader (buildDialFailed connId reason) hdrReplyFor (i32ToLe dialSeq)
  let (seq, st) := st.nextSeq
  ({ msg with sequence := seq }, st)

/-- The id of the child: the router's if the dial carries a readable one, else our own. -/
def ChannelState.childId (st : ChannelState) (msg : Message) :
    Option (UInt32 × Bool × ChannelState) :=
  match headerU32 msg hdrRouterProvidedConnId with
  | some id => some (id, true, st)
  | none => st.nextConnId.map fun r => (r.1, false, r.2)

section Accept

variable {C : Crypto} (l : Listener C)

/-- The dial carries the right token: register the child, then set its crypto up. -/
def admitDial (st : ChannelState) (msg : Message) (e : C.Entropy) :
    AcceptOutcome C × ChannelState :=
  match st.childId msg with
  | none => (.stuck, st)
  | some (childId, routerProvided, st) =>
    let (dataTx, st) := st.newSender
    let st := st.registerConn childId dataTx
    match serverCryptoSetup C l.keypair msg e with
    | .error _ =>
      let st := st.removeConn childId
      let (reply, st) := st.dialFailed l.bindConnId msg.sequence "failed to establish crypto session"
      (.rejected reply, st)
    | .ok cryptoSetup =>
      (.accepted
        { bindConnId := l.bindConnId
          childId
          routerProvided
          dialSeq := msg.sequence
          dataTx
          circuitId := msg.headers[hdrCircuitId]?
          sourceIdentity := msg.headers[hdrCallerId]?
          appData := msg.headers[hdrAppData]?
          cryptoSetup }, st)

/-- One turn of the accept loop. -/
def acceptMsg (st : ChannelState) (msg : Message) (e : C.Entropy) :
    AcceptOutcome C × ChannelState :=
  if msg.contentType = ctStateClosed then (.listenerClosed, st)
  else if msg.contentType ≠ ctDial then (.ignored, st)
  else if msg.body ≠ strBytes l.token then
    let (reply, st) := st.dialFailed l.bindConnId msg.sequence "invalid token"
    (.rejected reply, st)
  else admitDial l st msg e

/-- `accept_pending` on the messages its queue yields, each with what its crypto draws: the
result with the messages left, or `none` while the queue is empty or the loop is stuck. -/
def acceptPending (st : ChannelState) : List (Message × C.Entropy) →
    Option (Except EdgeError (PendingAccept C)) × List (Message × C.Entropy) × ChannelState
  | [] => (none, [], st)
  | (msg, e) :: rest =>
    match acceptMsg l st msg e with
    | (.listenerClosed, st) => (some (.error .listenerClosed), rest, st)
    | (.accepted p, st) => (some (.ok p), rest, st)
    | (.stuck, st) => (none, rest, st)
    | (.ignored, st) => acceptPending st rest
    | (.rejected _, st) => acceptPending st rest

/-- A message of the bind queue is handled, or another task acts on the channel. -/
inductive AcceptEvent (C : Crypto) where
  | recv (msg : Message) (e : C.Entropy)
  | access (a : Access)

def acceptStep (st : ChannelState) : AcceptEvent C → Option ChannelState
  | .recv msg e => some (acceptMsg l st msg e).2
  | .access a => some (st.access a)

/-- Handling the message keeps every connection entry, and all of `conns` if it rejects. -/
def Undisturbed (st : ChannelState) : AcceptEvent C → Prop
  | .recv msg e =>
    (∀ (k : UInt32) (q : SenderId), st.conns[k]? = some q →
      (acceptMsg l st msg e).2.conns[k]? = some q) ∧
    (∀ reply, (acceptMsg l st msg e).1 = .rejected reply →
      (acceptMsg l st msg e).2.conns = st.conns)
  | .access _ => True

/-- An admissible dial names, as router-provided id, one that is in use, and gets as far as
touching it: the channel is open, or the crypto setup fails. -/
def Collides (st : ChannelState) : AcceptEvent C → Prop
  | .recv msg e =>
    msg.contentType = ctDial ∧ msg.body = strBytes l.token ∧
    ∃ id, headerU32 msg hdrRouterProvidedConnId = some id ∧ id ∈ st.conns ∧
      (st.closed = false ∨ ∃ err, serverCryptoSetup C l.keypair msg e = .error err)
  | .access _ => False

/-- Choosing the child's id touches no table, and an id of our own is free. -/
theorem childId_spec {st st' : ChannelState} {msg : Message} {id : UInt32} {rp : Bool}
    (h : st.childId msg = some (id, rp, st')) :
    st'.conns = st.conns ∧ st'.closed = st.closed ∧ st'.senders = st.senders ∧
      (headerU32 msg hdrRouterProvidedConnId = some id ∨ id ∉ st.conns) := by
  unfold ChannelState.childId at h
  split at h
  · next hid =>
    cases h
    exact ⟨rfl, rfl, rfl, .inl hid⟩
  · obtain ⟨⟨i, st1⟩, hn, heq⟩ := Option.map_eq_some_iff.mp h
    cases heq
    obtain ⟨-, -, rfl⟩ := ChannelState.nextConnId_spec hn
    exact ⟨rfl, rfl, rfl, .inr (ChannelState.not_mem_conns_of_nextConnId hn)⟩

@[simp] theorem dialFailed_conns (st : ChannelState) (connId : UInt32) (dialSeq : Int32)
    (reason : String) : (st.dialFailed connId dialSeq reason).2.conns = st.conns := rfl

/-- What admitting a dial does to `conns`: the new queue is entered under the child's id unless
the channel is closing, and a crypto failure takes that id out again. -/
theorem admitDial_conns {st st' : ChannelState} {msg : Message} {e : C.Entropy} {id : UInt32}
    {rp : Bool} (h : st.childId msg = some (id, rp, st')) :
    (∃ err reply, serverCryptoSetup C l.keypair msg e = .error err ∧
      (admitDial l st msg e).1 = .rejected reply ∧
      (admitDial l st msg e).2.conns =
        (if st.closed then st.conns else st.conns.insert id st.senders).erase id) ∨
    (∃ setup p, serverCryptoSetup C l.keypair msg e = .ok setup ∧
      (admitDial l st msg e).1 = .accepted p ∧
      (admitDial l st msg e).2.conns =
        if st.closed then st.conns else st.conns.insert id st.senders) := by
  obtain ⟨hc, hcl, hs, -⟩ := childId_spec h
  unfold admitDial
  rw [h]
  simp only [ChannelState.newSender]
  cases hcr : serverCryptoSetup C l.keypair msg e with
  | error err =>
    refine .inl ⟨err, _, rfl, rfl, ?_⟩
    simp only [dialFailed_conns, ChannelState.removeConn, ChannelState.registerConn_conns, hc, hcl,
      hs]
  | ok setup =>
    refine .inr ⟨setup, _, rfl, rfl, ?_⟩
    simp only [ChannelState.registerConn_conns, hc, hcl, hs]

theorem acceptMsg_of_admissible (st : ChannelState) {msg : Message} (e : C.Entropy)
    (hct : msg.contentType = ctDial) (htok : msg.body = strBytes l.token) :
    acceptMsg l st msg e = admitDial l st msg e := by
  have hclosed : ¬ ctDial = ctStateClosed := by decide
  simp [acceptMsg, hct, htok, hclosed]

theorem acceptMsg_conns_of_inadmissible {st : ChannelState} {msg : Message} {e : C.Entropy}
    (h : ¬ (msg.contentType = ctDial ∧ msg.body = strBytes l.token)) :
    (acceptMsg l st msg e).2.conns = st.conns := by
  unfold acceptMsg
  split_ifs with hcl hd htok
  · rfl
  · rfl
  · rfl
  · exact absurd ⟨not_not.mp hd, not_not.mp htok⟩ h

theorem undisturbed_of_conns_eq {st : ChannelState} {msg : Message} {e : C.Entropy}
    (h : (acceptMsg l st msg e).2.conns = st.conns) : Undisturbed l st (.recv msg e) :=
  ⟨fun k q hk => by rw [h]; exact hk, fun _ _ => h⟩

/-- A child under a free id disturbs nothing: it is added, or added and taken out. -/
theorem undisturbed_of_free {st st' : ChannelState} {msg : Message} {e : C.Entropy} {id : UInt32}
    {rp : Bool} (heq : acceptMsg l st msg e = admitDial l st msg e)
    (h : st.childId msg = some (id, rp, st')) (hfree : id ∉ st.conns) :
    Undisturbed l st (.recv msg e) := by
  rcases admitDial_conns l (e := e) h with ⟨err, reply, -, hrej, hconns⟩ | ⟨setup, p, -, hacc, hconns⟩
  · refine undisturbed_of_conns_eq l ?_
    rw [heq, hconns]
    split_ifs
    · exact erase_of_not_mem hfree
    · exact erase_insert_of_not_mem hfree
  · refine ⟨fun k q hk => ?_, fun reply hr => ?_⟩
    · rw [heq, hconns]
      split_ifs
      · exact hk
      · rw [lookup_insert, if_neg]
        · exact hk
        · rintro rfl
          rw [Std.ExtTreeMap.getElem?_eq_none hfree] at hk
          cases hk
    · rw [heq, hacc] at hr
      cases hr

theorem undisturbed_iff {st : ChannelState} (hf : st.Fresh) (ev : AcceptEvent C) :
    Undisturbed l st ev ↔ ¬ Collides l st ev := by
  cases ev with
  | access a => simp [Undisturbed, Collides]
  | recv msg e =>
    by_cases hadm : msg.contentType = ctDial ∧ msg.body = strBytes l.token
    swap
    · refine iff_of_true (undisturbed_of_conns_eq l (acceptMsg_conns_of_inadmissible l hadm)) ?_
      exact fun hc => hadm ⟨hc.1, hc.2.1⟩
    have heq := acceptMsg_of_admissible l st e hadm.1 hadm.2
    cases hid : headerU32 msg hdrRouterProvidedConnId with
    | none =>
      refine iff_of_true ?_ (fun hc => by obtain ⟨_, hi, -⟩ := hc.2.2; rw [hid] at hi; cases hi)
      cases hch : st.childId msg with
      | none => exact undisturbed_of_conns_eq l (by rw [heq, admitDial, hch])
      | some r =>
        obtain ⟨id, rp, st'⟩ := r
        rcases (childId_spec hch).2.2.2 with hi | hfree
        · rw [hid] at hi
          cases hi
        · exact undisturbed_of_free l heq hch hfree
    | some id =>
      have hch : st.childId msg = some (id, true, st) := by rw [ChannelState.childId, hid]
      by_cases hmem : id ∈ st.conns
      swap
      · refine iff_of_true (undisturbed_of_free l heq hch hmem) (fun hc => ?_)
        obtain ⟨i, hi, hm, -⟩ := hc.2.2
        rw [hid] at hi
        cases hi
        exact hmem hm
      -- the id is in use: whatever the step writes or erases there is seen
      obtain ⟨q, hq⟩ : ∃ q, st.conns[id]? = some q := ⟨_, Std.ExtTreeMap.getElem?_eq_some_getElem hmem⟩
      have hlt := hf.conns_lt id q hq
      rcases admitDial_conns l (e := e) hch with ⟨err, reply, hcr, -, hconns⟩ | ⟨setup, p, hcr, hacc, hconns⟩
      · refine iff_of_false (fun hu => ?_) (not_not.mpr ⟨hadm.1, hadm.2, id, hid, hmem, .inr ⟨err, hcr⟩⟩)
        have := hu.1 id q hq
        rw [heq, hconns, lookup_erase, if_pos rfl] at this
        cases this
      · cases hcl : st.closed with
        | true =>
          refine iff_of_true (undisturbed_of_conns_eq l (by rw [heq, hconns, if_pos hcl])) ?_
          rintro ⟨-, -, -, -, -, hopen | ⟨err, herr⟩⟩
          · rw [hcl] at hopen
            cases hopen
          · rw [hcr] at herr
            cases herr
        | false =>
          refine iff_of_false (fun hu => ?_) (not_not.mpr ⟨hadm.1, hadm.2, id, hid, hmem, .inl hcl⟩)
          have := hu.1 id q hq
          rw [heq, hconns, hcl, if_neg Bool.false_ne_true, lookup_insert, if_pos rfl] at this
          exact hlt.ne (Option.some.inj this).symm

/-- Handling a message is a sequence of plain accesses to the shared state. -/
theorem acceptMsg_accesses (st : ChannelState) (msg : Message) (e : C.Entropy) :
    ∃ as : List Access, as.foldl ChannelState.access st = (acceptMsg l st msg e).2 := by
  unfold acceptMsg
  split_ifs
  · exact ⟨[], rfl⟩
  · exact ⟨[], rfl⟩
  · exact ⟨[.nextSeq], rfl⟩
  unfold admitDial
  cases hch : st.childId msg with
  | none => exact ⟨[], rfl⟩
  | some r =>
    obtain ⟨id, rp, st'⟩ := r
    obtain ⟨as, rfl⟩ : ∃ as : List Access, as.foldl ChannelState.access st = st' := by
      unfold ChannelState.childId at hch
      split at hch
      · cases hch
        exact ⟨[], rfl⟩
      · obtain ⟨⟨i, st1⟩, hn, heq⟩ := Option.map_eq_some_iff.mp hch
        cases heq
        obtain ⟨-, -, rfl⟩ := ChannelState.nextConnId_spec hn
        exact ⟨[.storeCounter i], rfl⟩
    cases hcr : serverCryptoSetup C l.keypair msg e with
    | error err =>
      refine ⟨as ++ [.registerConn id, .removeConn id, .nextSeq], ?_⟩
      rw [List.foldl_append]
      rfl
    | ok setup =>
      refine ⟨as ++ [.registerConn id], ?_⟩
      rw [List.foldl_append]
      rfl

theorem fresh_acceptStep (st : ChannelState) (ev : AcceptEvent C) (st' : ChannelState)
    (h : acceptStep l st ev = some st') (hf : st.Fresh) : st'.Fresh := by
  cases ev with
  | access a =>
    cases h
    exact ChannelState.fresh_access hf a
  | recv msg e =>
    cases h
    obtain ⟨as, has⟩ := acceptMsg_accesses l st msg e
    rw [← has]
    exact ChannelState.fresh_accesses hf as

/-- A call of `accept_pending` is a run of its loop over the messages it consumed. -/
theorem acceptPending_run (st : ChannelState) (msgs : List (Message × C.Entropy)) :
    ∃ used, msgs = used ++ (acceptPending l st msgs).2.1 ∧
      run (acceptStep l) st (used.map fun m => .recv m.1 m.2) =
        some (acceptPending l st msgs).2.2 := by
  induction msgs generalizing st with
  | nil => exact ⟨[], rfl, rfl⟩
  | cons m rest ih =>
    obtain ⟨msg, e⟩ := m
    have hgo (st' : ChannelState) (hst : (acceptMsg l st msg e).2 = st')
        (hp : acceptPending l st ((msg, e) :: rest) = acceptPending l st' rest) :
        ∃ used, (msg, e) :: rest = used ++ (acceptPending l st ((msg, e) :: rest)).2.1 ∧
          run (acceptStep l) st (used.map fun m => .recv m.1 m.2) =
            some (acceptPending l st ((msg, e) :: rest)).2.2 := by
      obtain ⟨used, hsplit, hrun⟩ := ih st'
      refine ⟨(msg, e) :: used, by rw [hp, List.cons_append, ← hsplit], ?_⟩
      rw [hp, ← hrun, List.map_cons, run, acceptStep, hst]
      rfl
    have hstop (hp : (acceptPending l st ((msg, e) :: rest)).2 = (rest, (acceptMsg l st msg e).2)) :
        ∃ used, (msg, e) :: rest = used ++ (acceptPending l st ((msg, e) :: rest)).2.1 ∧
          run (acceptStep l) st (used.map fun m => .recv m.1 m.2) =
            some (acceptPending l st ((msg, e) :: rest)).2.2 :=
      ⟨[(msg, e)], by rw [hp]; rfl, by rw [hp]; rfl⟩
    rcases hm : acceptMsg l st msg e with ⟨o, st'⟩
    cases o with
    | listenerClosed | stuck => exact hstop (by rw [acceptPending, hm])
    | accepted p => exact hstop (by rw [acceptPending, hm])
    | ignored => exact hgo st' (by rw [hm]) (by rw [acceptPending, hm])
    | rejected reply => exact hgo st' (by rw [hm]) (by rw [acceptPending, hm])

/-- Along any run of the accept loop, interleaved with other tasks' accesses, every handled
message leaves the connections undisturbed exactly if none collides; a call of `accept_pending`
is such a run. -/
theorem acceptPending_undisturbed_iff {st : ChannelState} (hst : st.Reachable) :
    (∀ evs, RunAll (acceptStep l) (Undisturbed l) st evs ↔
      RunAll (acceptStep l) (fun st ev => ¬ Collides l st ev) st evs) ∧
    ∀ msgs, ∃ used, msgs = used ++ (acceptPending l st msgs).2.1 ∧
      run (acceptStep l) st (used.map fun m => .recv m.1 m.2) =
        some (acceptPending l st msgs).2.2 :=
  ⟨fun evs => runAll_congr _ (fresh_acceptStep l) (fun _ ev hf => undisturbed_iff l hf ev) hst.fresh
    evs, acceptPending_run l st⟩

end Accept

/-- A plaintext and an encrypted bind with id 9. -/
def plainListener : Listener padCrypto := ⟨9, "t", none⟩

def sealedListener : Listener padCrypto := ⟨9, "t", some ()⟩

/-- A channel on which connection 5 is live. -/
def liveConn : ChannelState := ChannelState.new.access (.registerConn 5)

/-- A dial with the right token that proposes a child id. -/
def dialFor (id : UInt32) : Message :=
  withHeader (Message.new ctDial (strBytes "t")) hdrRouterProvidedConnId (u32ToLe id)

/-- The same with a public key of one byte. -/
def badKeyDial (id : UInt32) : Message := withHeader (dialFor id) hdrPublicKey [7]

/-- A dial under a free id and one with a bad key leave connection 5 alone. -/
theorem acceptPending_undisturbed_free :
    RunAll (acceptStep sealedListener) (Undisturbed sealedListener) liveConn
      [.recv (dialFor 6) (), .recv (badKeyDial 7) ()] := by
  have hreach : liveConn.Reachable := ⟨[.registerConn 5], rfl⟩
  refine ((acceptPending_undisturbed_iff sealedListener hreach).1 _).mpr
    ⟨?_, fun st h => ⟨?_, fun _ _ => trivial⟩⟩
  · rintro ⟨-, -, id, hid, hmem, -⟩
    have h6 : headerU32 (dialFor 6) hdrRouterProvidedConnId = some 6 := by decide
    rw [h6] at hid
    cases hid
    exact absurd hmem (by decide)
  · cases h
    rintro ⟨-, -, id, hid, hmem, -⟩
    have h7 : headerU32 (badKeyDial 7) hdrRouterProvidedConnId = some 7 := by decide
    rw [h7] at hid
    cases hid
    exact absurd hmem (by decide)

/-- A dial that names the live connection 5 replaces its queue; with a bad key it removes it. -/
theorem acceptPending_replaces_conn :
    liveConn.Reachable ∧ liveConn.conns[(5 : UInt32)]? = some 0 ∧
    (acceptPending plainListener liveConn [(dialFor 5, ())]).2.2.conns[(5 : UInt32)]? = some 1 ∧
    (acceptPending sealedListener liveConn [(badKeyDial 5, ())]).2.2.conns[(5 : UInt32)]? = none :=
  ⟨⟨[.registerConn 5], rfl⟩, by decide, by decide, by decide⟩

end Noa.Edge.Data
