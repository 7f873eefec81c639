import Noa.Edge.Data.Requests

namespace Noa.Edge.Data
open Noa.Framework Noa.Channel

/-- The calls that run on one channel at the same time. -/
inductive ChannelOp (C : Crypto) where
  | dial (a : DialArgs C)
  | sendBind (token listenerId : String) (pubkey : Option Bytes)
  | updateToken (token : String)
  | sendLatencyProbe (nowNanos : UInt64)
  | completeSuccess (p : PendingAccept C)
  | completeFailed (p : PendingAccept C) (reason : String)
  | closeConn (connId : UInt32)
  | registerConn (connId : UInt32)
  | registerBind (connId : UInt32)
  | markClosed

/-- A call for its effect on the channel; its result goes to its own caller. -/
def Proc.ignore {α : Type} (p : Proc α) : Proc Unit := do
  let _ ← p
  pure ()

def ChannelOp.program {C : Crypto} : ChannelOp C → Proc Unit
  | .dial a => (Data.dial a).ignore
  | .sendBind token listenerId pubkey => (Data.sendBind token listenerId pubkey).ignore
  | .updateToken token => (Data.updateToken token).ignore
  | .sendLatencyProbe nowNanos => (Data.sendLatencyProbe nowNanos).ignore
  | .completeSuccess p => (Data.completeSuccess p).ignore
  | .completeFailed p reason => Data.completeFailed p reason
  | .closeConn connId => (Data.closeConn connId).ignore
  | .registerConn connId => (Proc.registerConn connId).ignore
  | .registerBind connId => (Proc.registerBind connId).ignore
  | .markClosed => Proc.markClosed

/-- The channel's tasks, any of which its caller may give up; the environment is the receive
loop handing out replies. -/
def channelRuntime : Runtime Cmd Shared (Int32 × Message) Choice where
  exec := Cmd.exec
  env := fun e s => s.deliver e.1 e.2
  droppable := Cmd.isAwait

abbrev ChannelPool := Pool Cmd Shared

def ChannelPool.new : ChannelPool := ⟨[], Shared.new⟩

def channelStep (C : Crypto) : ChannelPool → PoolAct (ChannelOp C) (Int32 × Message) Choice →
    Option ChannelPool :=
  Pool.step channelRuntime ChannelOp.program

/-- How far into the teardown a task must be to issue the command. -/
def Cmd.needs {β : Type} : Cmd β → Nat
  | .clearWaiters => 1
  | .clearConns => 2
  | .clearBinds => 3
  | _ => 0

/-- How far the command's answer gets it. -/
def Cmd.level {β : Type} (n : Nat) : Cmd β → β → Nat
  | .closeCas, won => if won then 1 else n
  | .clearWaiters, _ => 2
  | .clearConns, _ => 3
  | _, _ => n

/-- The clears come in order, after the flag was won. -/
def tidyClears : Discipline Cmd Nat where
  may := fun n c => c.needs ≤ n
  next := fun n c b => c.level n b

abbrev Tidy {α : Type} (n : Nat) (p : Proc α) : Prop := p.Obeys tidyClears n

/-- The command draws a sequence number. -/
def Cmd.draws {β : Type} : Cmd β → Bool
  | .nextSeq => true
  | _ => false

/-- The waiter the command enters. -/
def Cmd.enters {β : Type} : Cmd β → Option Int32
  | .insertWaiter seq => some seq
  | _ => none

/-- A waiter enters under the number drawn last, and no second one under the same draw. -/
def usesDrawn : Discipline Cmd (Option Int32) where
  may := fun held c => ∀ seq, c.enters = some seq → held = some seq
  next := fun held c b =>
    match c, b with
    | .nextSeq, seq => some seq
    | .insertWaiter _, _ => none
    | _, _ => held

abbrev Uses {α : Type} (held : Option Int32) (p : Proc α) : Prop := p.Obeys usesDrawn held

/-- Both, wherever the program is started. -/
abbrev Orderly {α : Type} (p : Proc α) : Prop := p.Anywhere (tidyClears.prod usesDrawn)

section Operations

variable {α β : Type}

theorem orderly_call {c : Cmd β} {k : β → Proc α} (hn : c.needs = 0) (he : c.enters = none)
    (hk : ∀ b, Orderly (k b)) : Orderly (.call c k) := by
  intro st
  refine ⟨⟨?_, fun seq h => ?_⟩, fun b => hk b _⟩
  · exact hn.trans_le (Nat.zero_le _)
  · rw [he] at h
    cases h

/-- The number drawn is held until its waiter enters. -/
theorem orderly_draw {k : Int32 → Proc α}
    (hk : ∀ seq n, (k seq).Obeys (tidyClears.prod usesDrawn) (n, some seq)) :
    Orderly (.call .nextSeq k) :=
  fun st => ⟨⟨Nat.zero_le _, fun _ h => by cases h⟩, fun seq => hk seq st.1⟩

theorem orderly_keep {c : Cmd β} {k : β → Proc α} {held : Option Int32} (hn : c.needs = 0)
    (he : c.enters = none) (hd : c.draws = false)
    (hk : ∀ b n, (k b).Obeys (tidyClears.prod usesDrawn) (n, held)) (n : Nat) :
    Program.Obeys (tidyClears.prod usesDrawn) (n, held) (.call c k) := by
  refine ⟨⟨?_, fun seq h => ?_⟩, fun b => ?_⟩
  · exact hn.trans_le (Nat.zero_le _)
  · rw [he] at h
    cases h
  · cases c with
    | nextSeq => cases hd
    | insertWaiter seq => cases he
    | _ => exact hk b _

theorem orderly_enter {seq : Int32} {k : SenderId → Proc α} (hk : ∀ rx, Orderly (k rx)) (n : Nat) :
    Program.Obeys (tidyClears.prod usesDrawn) (n, some seq) (.call (.insertWaiter seq) k) :=
  ⟨⟨Nat.zero_le _, fun _ h => h⟩, fun rx => hk rx _⟩

theorem orderly_ret (a : α) : Orderly (.ret a) := fun _ => ⟨trivial, trivial⟩

theorem orderly_ignore {p : Proc α} (hp : Orderly p) : Orderly p.ignore :=
  hp.bind fun _ => orderly_ret ()

theorem orderly_markClosed : Orderly Proc.markClosed := by
  refine fun st => ⟨⟨Nat.zero_le _, fun _ h => by cases h⟩, fun won => ?_⟩
  cases won with
  | false => exact orderly_ret () _
  | true =>
    refine ⟨⟨Nat.zero_le _, fun _ h => by cases h⟩, fun _ => ?_⟩
    refine ⟨⟨le_refl 1, fun _ h => by cases h⟩, fun _ => ?_⟩
    refine ⟨⟨le_refl 2, fun _ h => by cases h⟩, fun _ => ?_⟩
    exact ⟨⟨le_refl 3, fun _ h => by cases h⟩, fun _ => orderly_ret () _⟩

theorem orderly_sendDialFailed {connId : UInt32} {dialSeq : Int32} {reason : String} :
    Orderly (Proc.sendDialFailed connId dialSeq reason) :=
  orderly_call rfl rfl fun _ => orderly_call rfl rfl fun _ => orderly_ret ()

variable {C : Crypto}

theorem orderly_establishClientCrypto {connId : UInt32} {keypair : Option C.KeyPair}
    {reply : Message} {e : C.Entropy} : Orderly (establishClientCrypto connId keypair reply e) := by
  unfold establishClientCrypto
  split
  · exact orderly_ret _
  · exact orderly_ret _
  · refine orderly_call rfl rfl fun _ => orderly_call rfl rfl fun b => ?_
    cases b <;> exact orderly_ret _

theorem orderly_dial (a : DialArgs C) : Orderly (dial a) := by
  simp only [dial, Proc.nextConnId, Proc.nextSeq, Proc.isClosed, Proc.registerConn,
    Proc.insertWaiter, Proc.write, Proc.recv, Proc.removeConn, Program.lift_bind]
  refine orderly_call rfl rfl fun _ => orderly_draw fun seq => orderly_keep rfl rfl rfl fun closed => ?_
  cases closed with
  | true => exact fun _ => orderly_ret _ _
  | false =>
    refine orderly_keep rfl rfl rfl fun _ => orderly_enter fun _ => orderly_call rfl rfl fun b => ?_
    cases b with
    | error err => exact orderly_markClosed.bind fun _ => orderly_ret _
    | ok =>
      refine orderly_call rfl rfl fun reply => ?_
      cases reply with
      | none => exact orderly_call rfl rfl fun _ => orderly_ret _
      | some reply =>
        dsimp only
        cases classifyDialReply reply with
        | error err => exact orderly_call rfl rfl fun _ => orderly_ret _
        | ok connected =>
          refine orderly_establishClientCrypto.bind fun r => ?_
          cases r with
          | error err => exact orderly_call rfl rfl fun _ => orderly_ret _
          | ok crypto => exact orderly_ret _

theorem orderly_sendBind {token listenerId : String} {pubkey : Option Bytes} :
    Orderly (sendBind token listenerId pubkey) := by
  simp only [sendBind, Proc.nextConnId, Proc.nextSeq, Proc.registerBind, Proc.insertWaiter,
    Proc.write, Proc.recv, Proc.removeWaiter, Proc.removeBind, Program.lift_bind]
  refine orderly_call rfl rfl fun _ => orderly_draw fun _ => orderly_enter fun _ =>
    orderly_call rfl rfl fun _ => orderly_call rfl rfl fun b => ?_
  cases b with
  | error err => exact orderly_call rfl rfl fun _ => orderly_call rfl rfl fun _ => orderly_ret _
  | ok =>
    refine orderly_call rfl rfl fun reply => ?_
    cases reply with
    | none => exact orderly_call rfl rfl fun _ => orderly_ret _
    | some reply =>
      dsimp only
      cases classifyBindReply reply with
      | error err => exact orderly_call rfl rfl fun _ => orderly_ret _
      | ok => exact orderly_ret _

theorem orderly_updateToken {token : String} : Orderly (updateToken token) := by
  simp only [updateToken, Proc.nextSeq, Proc.insertWaiter, Proc.write, Proc.recvTimeout,
    Proc.removeWaiter, Program.lift_bind]
  refine orderly_draw fun _ => orderly_enter fun _ => orderly_call rfl rfl fun b => ?_
  cases b with
  | error err => exact orderly_call rfl rfl fun _ => orderly_ret _
  | ok =>
    refine orderly_call rfl rfl fun r => ?_
    rcases r with _ | _ | reply
    · exact orderly_call rfl rfl fun _ => orderly_ret _
    · exact orderly_ret _
    · exact orderly_ret _

theorem orderly_sendLatencyProbe {nowNanos : UInt64} : Orderly (sendLatencyProbe nowNanos) := by
  simp only [sendLatencyProbe, Proc.nextSeq, Proc.insertWaiter, Proc.recvTimeout,
    Proc.removeWaiter, Program.lift_bind]
  refine orderly_draw fun _ => orderly_enter fun _ => orderly_call rfl rfl fun b => ?_
  rcases b with _ | _ | _
  · exact orderly_call rfl rfl fun _ => orderly_ret _
  · exact orderly_call rfl rfl fun _ => orderly_ret _
  · refine orderly_call rfl rfl fun r => ?_
    rcases r with _ | _ | reply
    · exact orderly_call rfl rfl fun _ => orderly_ret _
    · exact orderly_ret _
    · exact orderly_ret _

theorem orderly_awaitStartReply {childId : UInt32} {dialSeq replySeq : Int32} {startRx : SenderId} :
    Orderly (awaitStartReply childId dialSeq replySeq startRx) := by
  simp only [awaitStartReply, Proc.recvTimeout, Proc.nextSeq, Proc.write, Proc.removeWaiter,
    Proc.removeConn, Program.lift_bind]
  have hgone : Orderly (.call (.removeWaiter replySeq) fun _ =>
      .call (.removeConn childId) fun _ => do
        Proc.sendDialFailed childId dialSeq "start reply not received"
        pure (.error (.acceptStartFailed "start reply not received")) : Proc (Except EdgeError Unit)) :=
    orderly_call rfl rfl fun _ => orderly_call rfl rfl fun _ =>
      orderly_sendDialFailed.bind fun _ => orderly_ret _
  refine orderly_call rfl rfl fun r => ?_
  rcases r with _ | _ | start
  · exact hgone
  · exact hgone
  · dsimp only
    split_ifs
    · exact orderly_ret _
    · exact orderly_call rfl rfl fun _ => orderly_call rfl rfl fun _ =>
        orderly_call rfl rfl fun _ => orderly_ret _

theorem orderly_finishAccept (p : PendingAccept C) : Orderly (finishAccept p) := by
  unfold finishAccept
  split
  · exact orderly_ret _
  · simp only [Proc.nextSeq, Proc.write, Proc.removeConn, Program.lift_bind]
    refine orderly_call rfl rfl fun _ => orderly_call rfl rfl fun b => ?_
    cases b with
    | error err => exact orderly_call rfl rfl fun _ => orderly_ret _
    | ok => exact orderly_ret _

theorem orderly_completeSuccess (p : PendingAccept C) : Orderly (completeSuccess p) := by
  unfold completeSuccess
  cases p.routerProvided with
  | true =>
    simp only [if_true, Program.pure_eq, Program.ret_bind, Bool.false_eq_true, if_false,
      Proc.nextSeq, Proc.write, Proc.removeConn, Program.lift_bind]
    refine orderly_call rfl rfl fun _ => orderly_call rfl rfl fun b => ?_
    cases b with
    | error err => exact orderly_call rfl rfl fun _ => orderly_ret _
    | ok => exact orderly_finishAccept p
  | false =>
    simp only [Bool.false_eq_true, if_false, Proc.isClosed, Proc.nextSeq, Proc.insertWaiter,
      Proc.write, Proc.removeWaiter, Proc.removeConn, Program.lift_bind]
    refine orderly_call rfl rfl fun closed => ?_
    cases closed with
    | true =>
      exact orderly_call rfl rfl fun _ => orderly_sendDialFailed.bind fun _ => orderly_ret _
    | false =>
      refine orderly_draw fun _ => orderly_enter fun _ => orderly_call rfl rfl fun b => ?_
      cases b with
      | error err => exact orderly_call rfl rfl fun _ => orderly_call rfl rfl fun _ => orderly_ret _
      | ok =>
        refine orderly_awaitStartReply.bind fun r => ?_
        cases r with
        | error err => exact orderly_ret _
        | ok => exact orderly_finishAccept p

theorem orderly_completeFailed (p : PendingAccept C) (reason : String) :
    Orderly (completeFailed p reason) := by
  unfold completeFailed
  refine orderly_sendDialFailed.bind fun _ => ?_
  exact orderly_call rfl rfl fun _ => orderly_call rfl rfl fun _ =>
    orderly_call rfl rfl fun _ => orderly_ret _

theorem orderly_closeConn (connId : UInt32) : Orderly (closeConn connId) := by
  simp only [closeConn, Proc.nextSeq, Proc.write, Proc.removeConn, Program.lift_bind]
  refine orderly_call rfl rfl fun _ => orderly_call rfl rfl fun b => ?_
  cases b with
  | error err => exact orderly_ret _
  | ok => exact orderly_call rfl rfl fun _ => orderly_ret _

/-- Every call leaves the clears to the teardown it may run, and enters its waiter under a number it
drew for it. -/
theorem orderly_program (op : ChannelOp C) : Orderly op.program := by
  cases op with
  | dial a => exact orderly_ignore (orderly_dial a)
  | sendBind => exact orderly_ignore orderly_sendBind
  | updateToken => exact orderly_ignore orderly_updateToken
  | sendLatencyProbe => exact orderly_ignore orderly_sendLatencyProbe
  | completeSuccess p => exact orderly_ignore (orderly_completeSuccess p)
  | completeFailed p reason => exact orderly_completeFailed p reason
  | closeConn connId => exact orderly_ignore (orderly_closeConn connId)
  | registerConn | registerBind => exact orderly_call rfl rfl fun _ => orderly_ret ()
  | markClosed => exact orderly_markClosed

theorem tidy_program (op : ChannelOp C) (n : Nat) : Tidy n op.program :=
  (orderly_program op (n, none)).of_prod.1

end Operations

/-- The tables cleared so far are empty for good, except that a request may still enter its
waiter, and the teardown is in order. -/
structure Shared.Torn (s : Shared) : Prop where
  waiters : s.waitersCleared = true → s.chan.closed = true
  conns : s.connsCleared = true → s.chan.closed = true ∧ s.chan.conns = ∅
  binds : s.bindsCleared = true → s.chan.closed = true ∧ s.chan.binds = ∅
  order : s.bindsCleared = true → s.waitersCleared = true ∧ s.connsCleared = true

/-- How far the teardown has come is enough for a task at level `n`. -/
structure Shared.Level (s : Shared) (n : Nat) : Prop where
  closed : 1 ≤ n → s.chan.closed = true
  waiters : 2 ≤ n → s.waitersCleared = true
  conns : 3 ≤ n → s.connsCleared = true

/-- The teardown never goes back. -/
structure Shared.Later (s t : Shared) : Prop where
  closed : s.chan.closed = true → t.chan.closed = true
  waiters : s.waitersCleared = true → t.waitersCleared = true
  conns : s.connsCleared = true → t.connsCleared = true

theorem Shared.Level.later {s t : Shared} {n : Nat} (h : s.Level n) (hl : s.Later t) : t.Level n :=
  ⟨fun hn => hl.closed (h.closed hn), fun hn => hl.waiters (h.waiters hn),
    fun hn => hl.conns (h.conns hn)⟩

def Shared.TaskOk (s : Shared) (p : Proc Unit) : Prop := ∃ n, s.Level n ∧ Tidy n p

theorem Shared.TaskOk.later {s t : Shared} {p : Proc Unit} (h : s.TaskOk p) (hl : s.Later t) :
    t.TaskOk p := by
  obtain ⟨n, hn, hp⟩ := h
  exact ⟨n, hn.later hl, hp⟩

namespace ChannelState

variable {st : ChannelState} {a : Access}

theorem closed_access (h : st.closed = true) : (st.access a).closed = true := by
  by_contra hn
  rw [closed_of_access (by simpa using hn)] at h
  cases h

theorem conns_access_of_closed (hc : st.closed = true) (h : st.conns = ∅) :
    (st.access a).conns = ∅ := by
  cases a with
  | registerConn connId => simp [access, newSender, registerConn, hc, h]
  | registerBind connId => simp [access, newSender, h]
  | removeConn connId => simp [access, removeConn, h]
  | clearConns => rfl
  | _ => exact h

theorem binds_access_of_closed (hc : st.closed = true) (h : st.binds = ∅) :
    (st.access a).binds = ∅ := by
  cases a with
  | registerBind connId => simp [access, newSender, registerBind, hc, h]
  | registerConn connId => simp [access, newSender, h]
  | removeBind connId => simp [access, removeBind, h]
  | clearBinds => rfl
  | _ => exact h

end ChannelState

theorem exec_flags {β : Type} {c : Cmd β} {x : Choice} {s : Shared} {r : β × Shared}
    (h : c.exec x s = some r) (hc : c.needs = 0) :
    r.2.waitersCleared = s.waitersCleared ∧ r.2.connsCleared = s.connsCleared ∧
      r.2.bindsCleared = s.bindsCleared := by
  cases c with
  | nextConnId =>
    obtain ⟨_, -, rfl⟩ := Option.map_eq_some_iff.mp h
    exact ⟨rfl, rfl, rfl⟩
  | clearWaiters => cases hc
  | clearConns => cases hc
  | clearBinds => cases hc
  | write | writeTimeout | recv | recvTimeout =>
    obtain ⟨wire, hr⟩ := Cmd.exec_await rfl h
    rw [hr]
    exact ⟨rfl, rfl, rfl⟩
  | _ =>
    cases h
    exact ⟨rfl, rfl, rfl⟩

theorem exec_closed {β : Type} {c : Cmd β} {x : Choice} {s : Shared} {r : β × Shared}
    (h : c.exec x s = some r) (hc : s.chan.closed = true) :
    r.2.chan.closed = true ∧ (s.chan.conns = ∅ → r.2.chan.conns = ∅) ∧
      (s.chan.binds = ∅ → r.2.chan.binds = ∅) := by
  rcases (Cmd.exec_access h).1 with heq | ⟨a, heq⟩ <;> rw [heq]
  · exact ⟨hc, id, id⟩
  · exact ⟨ChannelState.closed_access hc, ChannelState.conns_access_of_closed hc,
      ChannelState.binds_access_of_closed hc⟩

theorem Shared.Torn.exec {β : Type} {c : Cmd β} {x : Choice} {s : Shared} {r : β × Shared}
    (h : s.Torn) (hx : c.exec x s = some r) {n : Nat} (hn : s.Level n) (hneeds : c.needs ≤ n) :
    r.2.Torn ∧ s.Later r.2 ∧ r.2.Level (c.level n r.1) := by
  by_cases hc : c.needs = 0
  · obtain ⟨hw, hcn, hb⟩ := exec_flags hx hc
    have hlater : s.Later r.2 :=
      ⟨fun hcl => (exec_closed hx hcl).1, fun hf => hw.trans hf, fun hf => hcn.trans hf⟩
    refine ⟨⟨fun hf => ?_, fun hf => ?_, fun hf => ?_, fun hf => ?_⟩, hlater, ?_⟩
    · exact (exec_closed hx (h.waiters (hw.symm.trans hf))).1
    · obtain ⟨hcl, hempty⟩ := h.conns (hcn.symm.trans hf)
      exact ⟨(exec_closed hx hcl).1, (exec_closed hx hcl).2.1 hempty⟩
    · obtain ⟨hcl, hempty⟩ := h.binds (hb.symm.trans hf)
      exact ⟨(exec_closed hx hcl).1, (exec_closed hx hcl).2.2 hempty⟩
    · rw [hw, hcn]
      exact h.order (hb.symm.trans hf)
    · cases c with
      | closeCas =>
        cases hx
        simp only [Cmd.level]
        split_ifs
        · exact ⟨fun _ => rfl, fun h => by omega, fun h => by omega⟩
        · exact hn.later hlater
      | clearWaiters => cases hc
      | clearConns => cases hc
      | _ => exact hn.later hlater
  · -- a clear: the flag is already set, so the cleared table stays empty
    have hcl : s.chan.closed = true := hn.closed (by omega)
    cases c with
    | clearWaiters =>
      cases hx
      refine ⟨⟨fun _ => hcl, h.conns, h.binds, fun hf => ⟨hcl, (h.order hf).2⟩⟩,
        ⟨id, fun _ => hcl, id⟩, ⟨fun _ => hcl, fun _ => hcl, fun h => ?_⟩⟩
      simp [Cmd.level] at h
    | clearConns =>
      cases hx
      have hw := hn.waiters hneeds
      exact ⟨⟨h.waiters, fun _ => ⟨hcl, rfl⟩, h.binds, fun hf => ⟨(h.order hf).1, hcl⟩⟩,
        ⟨id, id, fun _ => hcl⟩, ⟨fun _ => hcl, fun _ => hw, fun _ => hcl⟩⟩
    | clearBinds =>
      cases hx
      have hw := hn.waiters (le_trans (by decide) hneeds)
      have hcn := hn.conns hneeds
      exact ⟨⟨h.waiters, h.conns, fun _ => ⟨hcl, rfl⟩, fun _ => ⟨hw, hcn⟩⟩, ⟨id, id, id⟩,
        ⟨fun _ => hcl, fun _ => hw, fun _ => hcn⟩⟩
    | _ => exact absurd rfl hc

/-- A request enters its waiter only before the waiters are cleared. -/
def Timely {γ : Type} (c : Cmd γ) (s : Shared) : Prop :=
  match c with
  | .insertWaiter _ => s.waitersCleared = false
  | _ => True

/-- The waiters stay empty after they were cleared. -/
def Shared.NoLateWaiter (s : Shared) : Prop := s.waitersCleared = true → s.chan.waiters = ∅

theorem Shared.NoLateWaiter.exec {β : Type} {c : Cmd β} {x : Choice} {s : Shared} {r : β × Shared}
    (h : s.NoLateWaiter) (hx : c.exec x s = some r) (hgood : Timely c s) : r.2.NoLateWaiter := by
  cases c with
  | insertWaiter seq =>
    cases hx
    intro hf
    rw [show s.waitersCleared = false from hgood] at hf
    cases hf
  | clearWaiters =>
    cases hx
    exact fun _ => rfl
  | removeWaiter seq =>
    cases hx
    intro hf
    simp [ChannelState.removeWaiter, h hf]
  | nextConnId =>
    obtain ⟨⟨id, st⟩, hn, rfl⟩ := Option.map_eq_some_iff.mp hx
    obtain ⟨-, -, rfl⟩ := ChannelState.nextConnId_spec hn
    exact h
  | registerConn connId =>
    cases hx
    intro hf
    simp only [ChannelState.access, ChannelState.newSender, ChannelState.registerConn_waiters]
    exact h hf
  | registerBind connId =>
    cases hx
    intro hf
    simp only [ChannelState.access, ChannelState.newSender, ChannelState.registerBind_waiters]
    exact h hf
  | write msg | writeTimeout msg => cases x <;> cases hx <;> exact h
  | recv rx =>
    obtain ⟨_, -, rfl⟩ := Option.map_eq_some_iff.mp hx
    exact h
  | recvTimeout rx =>
    simp only [Cmd.exec] at hx
    split at hx
    · cases hx
      exact h
    · split at hx
      · cases hx
        exact h
      · cases hx
  | _ =>
    cases hx
    exact h

section Runs

variable {C : Crypto}

theorem deliver_keeps {e : Int32 × Message} {s s' : Shared}
    (h : channelRuntime.env e s = some s') :
    (s.Torn → s'.Torn) ∧ s.Later s' ∧ (s.NoLateWaiter → s'.NoLateWaiter) := by
  obtain ⟨tx, -, rfl⟩ := Option.map_eq_some_iff.mp h
  refine ⟨fun ht => ⟨ht.waiters, ht.conns, ht.binds, ht.order⟩, ⟨id, id, id⟩, fun hw hf => ?_⟩
  simp [ChannelState.removeWaiter, hw hf]

theorem keeps_torn : Pool.Keeps channelRuntime (ChannelOp.program (C := C)) (fun _ _ => True)
    Shared.Torn Shared.TaskOk where
  spawn := fun s op _ => ⟨0, ⟨fun h => by omega, fun h => by omega, fun h => by omega⟩,
    tidy_program op 0⟩
  ret := fun s => ⟨0, ⟨fun h => by omega, fun h => by omega, fun h => by omega⟩, trivial⟩
  exec := by
    intro γ c k x s r hinv htask _ hx
    obtain ⟨n, hn, hneeds, hk⟩ := htask
    obtain ⟨ht, hlater, hlevel⟩ := hinv.exec hx hn hneeds
    exact ⟨ht, ⟨_, hlevel, hk r.1⟩, fun p hp => hp.later hlater⟩
  env := by
    intro e s s' he hinv
    obtain ⟨ht, hlater, -⟩ := deliver_keeps he
    exact ⟨ht hinv, fun p hp => hp.later hlater⟩

theorem keeps_noLateWaiter : Pool.Keeps channelRuntime (ChannelOp.program (C := C)) Timely
    Shared.NoLateWaiter (fun _ _ => True) where
  spawn := fun _ _ _ => trivial
  ret := fun _ => trivial
  exec := fun _ _ _ _ _ hinv _ hgood hx => ⟨hinv.exec hx hgood, trivial, fun _ _ => trivial⟩
  env := fun _ _ _ he hinv => ⟨(deliver_keeps he).2.2 hinv, fun _ _ => trivial⟩

theorem torn_new : Shared.new.Torn :=
  ⟨nofun, nofun, nofun, by decide⟩

theorem torn_run {as : List (PoolAct (ChannelOp C) (Int32 × Message) Choice)} {t : ChannelPool}
    (hrun : run (channelStep C) ChannelPool.new as = some t) : t.state.Torn :=
  (keeps_torn.run hrun (Pool.runAll_meets _ _) ⟨torn_new, by simp [ChannelPool.new]⟩).1

theorem keeps_bindsCleared : Pool.Keeps channelRuntime (ChannelOp.program (C := C))
    (fun _ _ => True) (fun s => s.chan.closed = true ∧ s.bindsCleared = true)
    (fun _ _ => True) where
  spawn := fun _ _ _ => trivial
  ret := fun _ => trivial
  exec := by
    intro γ c k x s r hinv _ _ hx
    refine ⟨⟨(exec_closed hx hinv.1).1, ?_⟩, trivial, fun _ _ => trivial⟩
    by_cases hc : c.needs = 0
    · rw [(exec_flags hx hc).2.2]
      exact hinv.2
    · cases c with
      | clearWaiters | clearConns => cases hx; exact hinv.2
      | clearBinds => cases hx; exact hinv.1
      | _ => exact absurd rfl hc
  env := by
    intro e s s' he hinv
    obtain ⟨tx, -, rfl⟩ := Option.map_eq_some_iff.mp he
    exact ⟨hinv, fun _ _ => trivial⟩

/-- A waiter that enters after the clear stays: nothing takes it out but its own request. -/
theorem timely_iff {p p' : ChannelPool} {a : PoolAct (ChannelOp C) (Int32 × Message) Choice}
    (hstep : channelStep C p a = some p') (hp : p.state.NoLateWaiter) :
    Pool.Meets Timely p a ↔ p'.state.NoLateWaiter := by
  refine ⟨fun h => (keeps_noLateWaiter.step hstep h ⟨hp, fun _ _ => trivial⟩).1, fun h => ?_⟩
  cases a with
  | go i x =>
    obtain ⟨γ, c, k, r, hk, hx, rfl⟩ := Pool.step_go hstep
    rw [Pool.meets_go hk]
    cases c with
    | insertWaiter seq =>
      cases hx
      refine Bool.eq_false_iff.mpr fun hf => ?_
      have hempty : p.state.chan.waiters.insert seq p.state.chan.senders = ∅ := h hf
      exact Std.ExtTreeMap.insert_ne_empty hempty
    | _ => trivial
  | _ => trivial

theorem resolve_isSome {s : Shared} (h : s.chan.waiters = ∅) (rx : SenderId) :
    (s.resolve rx).isSome := by
  unfold Shared.resolve
  split
  · rfl
  · simp [ChannelState.holds, h]

/-- After the teardown the queues of connections and binds are gone for good, whatever else runs;
the waiters are gone, and every reply resolves, exactly in the runs in which no request enters its
waiter after they were cleared. -/
theorem markClosed_wakes_iff {as bs : List (PoolAct (ChannelOp C) (Int32 × Message) Choice)}
    {u t : ChannelPool} (hu : run (channelStep C) ChannelPool.new as = some u)
    (hdone : u.state.bindsCleared = true) (ht : run (channelStep C) u bs = some t) :
    t.state.chan.conns = ∅ ∧ t.state.chan.binds = ∅ ∧
    ((∀ cs v, cs <+: as ++ bs → run (channelStep C) ChannelPool.new cs = some v →
        v.state.waitersCleared = true →
        v.state.chan.waiters = ∅ ∧ ∀ rx, (v.state.resolve rx).isSome) ↔
      RunAll (channelStep C) (Pool.Meets Timely) ChannelPool.new (as ++ bs)) := by
  have hrun : run (channelStep C) ChannelPool.new (as ++ bs) = some t := by
    rw [run_append, hu]
    exact ht
  have htorn : t.state.Torn := torn_run hrun
  have hkept : t.state.bindsCleared = true :=
    (keeps_bindsCleared.run ht (Pool.runAll_meets _ _)
      ⟨⟨((torn_run hu).binds hdone).1, hdone⟩, fun _ _ => trivial⟩).1.2
  refine ⟨(htorn.conns (htorn.order hkept).2).2, (htorn.binds hkept).2, ?_⟩
  rw [runAll_iff_prefixes (fun p : ChannelPool => p.state.NoLateWaiter)
    (fun p a p' h hp => timely_iff h hp) hrun nofun]
  refine forall_congr' fun cs => forall_congr' fun v => forall_congr' fun _ =>
    forall_congr' fun _ => forall_congr' fun _ => ?_
  exact ⟨fun h => h.1, fun h => ⟨h, resolve_isSome h⟩⟩

end Runs

/-- A whole teardown by the task at `i`. -/
def teardownBy (i : Nat) : List (PoolAct (ChannelOp padCrypto) (Int32 × Message) Choice) :=
  .spawn .markClosed :: List.replicate 5 (.go i .done)

/-- A bind on a closed channel: its request is written and its waiter left behind. -/
def lateBind : List (PoolAct (ChannelOp padCrypto) (Int32 × Message) Choice) :=
  .spawn (.sendBind "token" "listener" none) :: List.replicate 5 (.go 1 .done)

/-- A dial that saw the channel open and registers after the teardown. -/
def overtakenDial : List (PoolAct (ChannelOp padCrypto) (Int32 × Message) Choice) :=
  .spawn (.dial ⟨"token", "marker", none, none, none, ()⟩) :: List.replicate 3 (.go 0 .done) ++
    teardownBy 1 ++ List.replicate 3 (.go 0 .done)

/-- A waiter that enters after the clear is held for ever: the bind and the dial above wait for a
reply that nothing but a timeout of the caller ends. -/
theorem late_waiter_never_woken :
    (∃ t, run (channelStep padCrypto) ChannelPool.new (teardownBy 0 ++ lateBind) = some t ∧
      t.state.bindsCleared = true ∧ t.state.chan.waiters.toList = [(1, 0)] ∧
      ∀ x, channelStep padCrypto t (.go 1 x) = none) ∧
    ∃ t, run (channelStep padCrypto) ChannelPool.new overtakenDial = some t ∧
      t.state.bindsCleared = true ∧ t.state.chan.waiters.toList = [(1, 1)] ∧
      ∀ x, channelStep padCrypto t (.go 0 x) = none := by
  refine ⟨⟨_, rfl, rfl, by decide, fun x => ?_⟩, ⟨_, rfl, rfl, by decide, fun x => ?_⟩⟩ <;>
    cases x <;> rfl

/-- A token update, torn down while it waits for its reply. -/
def overtakenUpdate : List (PoolAct (ChannelOp padCrypto) (Int32 × Message) Choice) :=
  .spawn (.updateToken "token") :: List.replicate 3 (.go 0 .done) ++ teardownBy 1

/-- An update that entered its waiter in time is woken by the teardown. -/
theorem markClosed_wakes_iff_update : ∃ u t,
    run (channelStep padCrypto) ChannelPool.new overtakenUpdate = some u ∧
    u.state.bindsCleared = true ∧ run (channelStep padCrypto) u [.go 0 .done] = some t ∧
    t.state.chan.conns = ∅ ∧ t.state.chan.binds = ∅ ∧
    RunAll (channelStep padCrypto) (Pool.Meets Timely) ChannelPool.new
      (overtakenUpdate ++ [.go 0 .done]) ∧
    t.state.chan.waiters = ∅ ∧ ∀ rx, (t.state.resolve rx).isSome := by
  have htimely : RunAll (channelStep padCrypto) (Pool.Meets Timely) ChannelPool.new
      (overtakenUpdate ++ [.go 0 .done]) := by
    iterate 11
      refine ⟨by first | exact trivial | exact rfl, ?_⟩
      rintro _ ⟨⟩
    trivial
  have hwoken (u t : ChannelPool)
      (hu : run (channelStep padCrypto) ChannelPool.new overtakenUpdate = some u)
      (hdone : u.state.bindsCleared = true)
      (ht : run (channelStep padCrypto) u [.go 0 .done] = some t)
      (hcleared : t.state.waitersCleared = true) :
      t.state.chan.conns = ∅ ∧ t.state.chan.binds = ∅ ∧
        t.state.chan.waiters = ∅ ∧ ∀ rx, (t.state.resolve rx).isSome := by
    obtain ⟨hconns, hbinds, hiff⟩ := markClosed_wakes_iff hu hdone ht
    refine ⟨hconns, hbinds, hiff.mpr htimely _ t (List.prefix_refl _) ?_ hcleared⟩
    rw [run_append, hu]
    exact ht
  obtain ⟨hconns, hbinds, hwaiters, hresolve⟩ := hwoken _ _ rfl rfl rfl rfl
  exact ⟨_, _, rfl, rfl, rfl, hconns, hbinds, htimely, hwaiters, hresolve⟩

end Noa.Edge.Data
