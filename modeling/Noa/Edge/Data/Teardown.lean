import Noa.Edge.Data.Requests

namespace Noa.Edge.Data
open Noa.Framework Noa.Channel

/-- The shared state as one operation sees it: `connId` is the connection it is about and
`waited` the sequence it registered a waiter under. -/
structure Tracked where
  shared : Shared
  connId : Option UInt32
  waited : Option Int32

namespace Tracked

def conns (s : Tracked) : Std.ExtTreeMap UInt32 SenderId := s.shared.chan.conns

def waiters (s : Tracked) : Std.ExtTreeMap Int32 SenderId := s.shared.chan.waiters

/-- The connection is not registered. -/
def NoConn (s : Tracked) : Prop := ∀ id, s.connId = some id → id ∉ s.conns

/-- The waiter is not registered. -/
def NoWaiter (s : Tracked) : Prop := ∀ k, s.waited = some k → k ∉ s.waiters

/-- No registration of the connection is left. -/
def Clean (s : Tracked) : Prop := s.NoConn ∧ s.NoWaiter

end Tracked

/-- What happens around an operation: other tasks act on the channel (its teardown included),
and the receive loop hands out replies. -/
inductive LifeEnv where
  | access (a : Access)
  | deliver (seq : Int32) (msg : Message)

/-- Other tasks do not register under the operation's own id or sequence. -/
def LifeEnv.foreign (s : Tracked) : LifeEnv → Bool
  | .access (.registerConn connId) => s.connId ≠ some connId
  | .access (.insertWaiter seq) => s.waited ≠ some seq
  | _ => true

def LifeEnv.apply (s : Tracked) : LifeEnv → Option Tracked
  | .access a => some { s with shared := { s.shared with chan := s.shared.chan.access a } }
  | .deliver seq msg => (s.shared.deliver seq msg).map fun sh => { s with shared := sh }

/-- The two commands that fix what the operation is about. -/
def Cmd.track {β : Type} (c : Cmd β) (b : β) (s : Tracked) : Tracked :=
  match c with
  | .nextConnId => { s with connId := some b }
  | .insertWaiter seq => { s with waited := some seq }
  | _ => s

def Cmd.isCloseCas {β : Type} : Cmd β → Bool
  | .closeCas => true
  | _ => false

def Cmd.isWrite {β : Type} : Cmd β → Bool
  | .write _ => true
  | _ => false

/-- One operation on a channel in use; `cancellable` if its caller may give up on it. -/
def lifeRuntime (cancellable : Bool) : Runtime Cmd Tracked LifeEnv Choice where
  exec := fun c x s => (c.exec x s.shared).map fun r => (r.1, c.track r.1 { s with shared := r.2 })
  env := fun e s => if e.foreign s then e.apply s else none
  droppable := fun c => cancellable && c.isAwait

/-- The operations that end a connection's life, told apart by how they can go wrong. -/
inductive LifeOp where
  | dial
  | complete
  | close
  deriving DecidableEq

/-- The three steps that can leave a registration behind do not: a dial is not given up while
registered, its own teardown does not find the channel already closed while it is registered,
and the `StateClosed` of a close is not refused while the connection is registered. -/
def Harmless (op : LifeOp) {γ : Type} (c : Cmd γ) (s : Tracked) (act : SoloAct LifeEnv Choice) :
    Prop :=
  match op, act, c with
  | .dial, .drop, _ => s.Clean
  | .dial, .go _, .closeCas => s.shared.chan.closed = true → s.Clean
  | .close, .go (.failed _), .write _ => s.Clean
  | _, _, _ => True

abbrev LifeWP (cancellable : Bool) (op : LifeOp) {α : Type} (post bad : α → Tracked → Prop) :
    Proc α → Tracked → Prop :=
  WP (lifeRuntime cancellable) (Harmless op) post bad

/-- Only a lost teardown and a refused write can do harm. -/
theorem harmless_go {op : LifeOp} {γ : Type} {c : Cmd γ} {s : Tracked} {x : Choice}
    (hcas : op = .dial → c.isCloseCas = false) (hwrite : op = .close → c.isWrite = false) :
    Harmless op c s (.go x) := by
  cases op with
  | dial =>
    cases c <;> trivial
  | complete => cases x <;> trivial
  | close =>
    cases x <;> first | trivial | (cases c <;> first | trivial | cases hwrite rfl)

def Cmd.registers {β : Type} : Cmd β → Bool
  | .nextConnId => true
  | .registerConn _ => true
  | .registerBind _ => true
  | .insertWaiter _ => true
  | _ => false

/-- No table grows from `s` to `t`. -/
def Shared.Shrinks (s t : Shared) : Prop :=
  (∀ k, k ∈ t.chan.conns → k ∈ s.chan.conns) ∧ ∀ k, k ∈ t.chan.waiters → k ∈ s.chan.waiters

theorem Shared.Shrinks.rfl (s : Shared) : s.Shrinks s := ⟨fun _ h => h, fun _ h => h⟩

theorem exec_shrinks {β : Type} {c : Cmd β} (hc : c.registers = false) {x : Choice} {s : Shared}
    {r : β × Shared} (h : c.exec x s = some r) : s.Shrinks r.2 := by
  cases c with
  | nextConnId => cases hc
  | registerConn => cases hc
  | registerBind => cases hc
  | insertWaiter => cases hc
  | removeWaiter seq =>
    cases h
    exact ⟨fun _ h => h, fun _ h => Std.ExtTreeMap.mem_of_mem_erase h⟩
  | removeConn connId =>
    cases h
    exact ⟨fun _ h => Std.ExtTreeMap.mem_of_mem_erase h, fun _ h => h⟩
  | clearWaiters =>
    cases h
    exact ⟨fun _ h => h, fun _ h => by simp [ChannelState.access] at h⟩
  | clearConns =>
    cases h
    exact ⟨fun _ h => by simp [ChannelState.access] at h, fun _ h => h⟩
  | write | writeTimeout | recv | recvTimeout =>
    obtain ⟨wire, hr⟩ := Cmd.exec_await rfl h
    rw [hr]
    exact .rfl _
  | _ =>
    cases h
    exact .rfl _

section Rules

variable {cancellable : Bool}

theorem life_exec {β : Type} {c : Cmd β} (hc : c.registers = false) {x : Choice} {s : Tracked}
    {r : β × Tracked} (h : (lifeRuntime cancellable).exec c x s = some r) :
    r.2.connId = s.connId ∧ r.2.waited = s.waited ∧ (s.NoConn → r.2.NoConn) ∧
      (s.NoWaiter → r.2.NoWaiter) := by
  obtain ⟨⟨b, sh⟩, hx, rfl⟩ := Option.map_eq_some_iff.mp h
  have htrack : c.track b { s with shared := sh } = { s with shared := sh } := by
    cases c <;> first | rfl | cases hc
  obtain ⟨hconns, hwaiters⟩ := exec_shrinks hc hx
  rw [htrack]
  exact ⟨rfl, rfl, fun hn id hid hm => hn id hid (hconns id hm),
    fun hn k hk hm => hn k hk (hwaiters k hm)⟩

/-- Everything the environment can do. -/
inductive LifeStep (s : Tracked) : Tracked → Prop
  | access (a : Access) : (∀ id, a = .registerConn id → s.connId ≠ some id) →
      (∀ k, a = .insertWaiter k → s.waited ≠ some k) →
      LifeStep s { s with shared := { s.shared with chan := s.shared.chan.access a } }
  | deliver {seq msg tx} : s.waiters[seq]? = some tx →
      LifeStep s { s with shared := { s.shared with
        chan := s.shared.chan.removeWaiter seq
        replies := Function.update s.shared.replies tx (some msg) } }

theorem life_env_cases {e : LifeEnv} {s s' : Tracked}
    (h : (lifeRuntime cancellable).env e s = some s') : LifeStep s s' := by
  simp only [lifeRuntime] at h
  split_ifs at h with hf
  cases e with
  | access a =>
    cases h
    refine .access a ?_ ?_
    · rintro id rfl
      simpa [LifeEnv.foreign] using hf
    · rintro k rfl
      simpa [LifeEnv.foreign] using hf
  | deliver seq msg =>
    obtain ⟨sh, hsh, rfl⟩ := Option.map_eq_some_iff.mp h
    obtain ⟨tx, htx, rfl⟩ := Option.map_eq_some_iff.mp hsh
    exact .deliver htx

theorem stable_connId (id : UInt32) :
    (lifeRuntime cancellable).Stable fun s => s.connId = some id := by
  intro e s s' he h
  cases life_env_cases he with
  | access => exact h
  | deliver => exact h

theorem stable_waited (k : Option Int32) :
    (lifeRuntime cancellable).Stable fun s => s.waited = k := by
  intro e s s' he h
  cases life_env_cases he with
  | access => exact h
  | deliver => exact h

theorem stable_noConn : (lifeRuntime cancellable).Stable Tracked.NoConn := by
  intro e s s' he h
  cases life_env_cases he with
  | access a hconn =>
    intro id hid hm
    obtain ⟨q, hq⟩ := mem_iff_lookup.mp hm
    rcases ChannelState.access_conns hq with hold | ⟨ha, -⟩
    · exact h id hid (mem_iff_lookup.mpr ⟨q, hold⟩)
    · exact hconn id ha hid
  | deliver => exact h

theorem stable_noWaiter : (lifeRuntime cancellable).Stable Tracked.NoWaiter := by
  intro e s s' he h
  cases life_env_cases he with
  | access a _ hwait =>
    intro k hk hm
    obtain ⟨w, hw⟩ := mem_iff_lookup.mp hm
    rcases ChannelState.access_waiters hw with hold | ⟨ha, -⟩
    · exact h k hk (mem_iff_lookup.mpr ⟨w, hold⟩)
    · exact hwait k ha hk
  | deliver => exact fun k hk hm => h k hk (Std.ExtTreeMap.mem_of_mem_erase hm)

/-- Registered senders were created, and only created ones were sent to. -/
structure Tracked.Wf (s : Tracked) : Prop where
  fresh : s.shared.chan.Fresh
  unsent : ∀ w, s.shared.chan.senders ≤ w → s.shared.replies w = none

theorem stable_wf : (lifeRuntime cancellable).Stable Tracked.Wf := by
  intro e s s' he h
  cases life_env_cases he with
  | access a =>
    exact ⟨ChannelState.fresh_access h.fresh a,
      fun w hw => h.unsent w (ChannelState.senders_le_access.trans hw)⟩
  | @deliver seq msg tx htx =>
    refine ⟨ChannelState.fresh_access h.fresh (.removeWaiter seq), fun w hw => ?_⟩
    have hne : w ≠ tx := by
      rintro rfl
      exact absurd (h.fresh.waiters_lt seq w htx) (Nat.not_lt.mpr hw)
    change Function.update s.shared.replies tx (some msg) w = none
    rw [Function.update_of_ne hne]
    exact h.unsent w hw

theorem life_exec_wf {β : Type} {c : Cmd β} {x : Choice} {s : Tracked} {r : β × Tracked}
    (h : (lifeRuntime cancellable).exec c x s = some r) (hwf : s.Wf) : r.2.Wf := by
  obtain ⟨⟨b, sh⟩, hx, rfl⟩ := Option.map_eq_some_iff.mp h
  have htrack : (c.track b { s with shared := sh }).shared = sh := by cases c <;> rfl
  obtain ⟨hchan, hreplies⟩ := Cmd.exec_access hx
  have hw : Tracked.Wf { s with shared := sh } := by
    rcases hchan with hchan | ⟨a, hchan⟩
    · exact ⟨by rw [hchan]; exact hwf.fresh, fun w hw => by
        rw [hreplies]; exact hwf.unsent w (by rwa [hchan] at hw)⟩
    · refine ⟨by rw [hchan]; exact ChannelState.fresh_access hwf.fresh a, fun w hw => ?_⟩
      rw [hreplies]
      rw [hchan] at hw
      exact hwf.unsent w (ChannelState.senders_le_access.trans hw)
  exact ⟨by rw [htrack]; exact hw.fresh, by rw [htrack]; exact hw.unsent⟩

/-- The waiter `w` registered under `seq` is the operation's own, and has a reply only once it
is out of the table. -/
structure Tracked.Mine (seq : Int32) (w : SenderId) (s : Tracked) : Prop where
  waited : s.waited = some seq
  only : ∀ k : Int32, s.waiters[k]? = some w → k = seq
  same : ∀ w', s.waiters[seq]? = some w' → w' = w
  replied : s.shared.replies w ≠ none → seq ∉ s.waiters
  created : w < s.shared.chan.senders

theorem stable_mine (seq : Int32) (w : SenderId) :
    (lifeRuntime cancellable).Stable (Tracked.Mine seq w) := by
  intro e s s' he h
  cases life_env_cases he with
  | access a _ hwait =>
    have hback (k : Int32) (v : SenderId) (hv : v ≤ w ∨ k = seq)
        (hk : (s.shared.chan.access a).waiters[k]? = some v) : s.waiters[k]? = some v := by
      rcases ChannelState.access_waiters hk with hold | ⟨rfl, rfl⟩
      · exact hold
      · rcases hv with hv | rfl
        · exact absurd h.created (Nat.not_lt.mpr hv)
        · exact absurd h.waited (hwait k rfl)
    refine ⟨h.waited, fun k hk => h.only k (hback k w (.inl le_rfl) hk),
      fun w' hw' => h.same w' (hback seq w' (.inr rfl) hw'), fun hr hm => ?_,
      h.created.trans_le ChannelState.senders_le_access⟩
    obtain ⟨v, hv⟩ := mem_iff_lookup.mp hm
    exact h.replied hr (mem_iff_lookup.mpr ⟨v, hback seq v (.inr rfl) hv⟩)
  | @deliver k msg tx htx =>
    have hback (j : Int32) (v : SenderId)
        (hj : (s.shared.chan.removeWaiter k).waiters[j]? = some v) : k ≠ j ∧ s.waiters[j]? = some v := by
      simp only [ChannelState.removeWaiter, lookup_erase] at hj
      split_ifs at hj with hne
      exact ⟨hne, hj⟩
    refine ⟨h.waited, fun j hj => h.only j (hback j w hj).2, fun w' hw' => h.same w' (hback seq w' hw').2,
      fun hr hm => ?_, h.created⟩
    obtain ⟨v, hv⟩ := mem_iff_lookup.mp hm
    obtain ⟨hne, hold⟩ := hback seq v hv
    have htw : w ≠ tx := by
      rintro rfl
      exact hne (h.only k htx)
    refine h.replied ?_ (mem_iff_lookup.mpr ⟨v, hold⟩)
    change Function.update s.shared.replies tx (some msg) w ≠ none at hr
    rwa [Function.update_of_ne htw] at hr

/-- At most the connection is still registered. -/
def Tracked.Left (id : UInt32) (s : Tracked) : Prop := s.connId = some id ∧ s.NoWaiter

/-- The connection and its waiter may both be registered. -/
def Tracked.Own (id : UInt32) (seq : Int32) (w : SenderId) (s : Tracked) : Prop :=
  s.connId = some id ∧ s.Mine seq w

theorem stable_left (id : UInt32) : (lifeRuntime cancellable).Stable (Tracked.Left id) :=
  (stable_connId id).and stable_noWaiter

theorem stable_own (id : UInt32) (seq : Int32) (w : SenderId) :
    (lifeRuntime cancellable).Stable (Tracked.Own id seq w) :=
  (stable_connId id).and (stable_mine seq w)

theorem stable_clean : (lifeRuntime cancellable).Stable Tracked.Clean :=
  stable_noConn.and stable_noWaiter

variable {op : LifeOp} {α β : Type} {post bad : α → Tracked → Prop} {s : Tracked} {c : Cmd β}
  {k : β → Proc α} {id : UInt32} {seq : Int32} {w : SenderId}

theorem wp_good {A : Tracked → Prop} (hgood : ∀ s x, Harmless op c s (.go x))
    (hA : (lifeRuntime cancellable).Stable A) (hs : A s)
    (h : ∀ s₁, A s₁ → ∀ x r, (lifeRuntime cancellable).exec c x s₁ = some r →
      LifeWP cancellable op post bad (k r.1) r.2) :
    LifeWP cancellable op post bad (.call c k) s :=
  .call hA hs fun s₁ h₁ x r hx => ⟨fun _ => h s₁ h₁ x r hx, fun hn => absurd (hgood s₁ x) hn⟩

theorem wp_left (hgood : ∀ s x, Harmless op c s (.go x)) (hc : c.registers = false)
    (hs : s.Left id)
    (h : ∀ b s', s'.Left id → LifeWP cancellable op post bad (k b) s') :
    LifeWP cancellable op post bad (.call c k) s := by
  refine wp_good hgood (stable_left id) hs fun s₁ h₁ x r hx => ?_
  obtain ⟨hid, -, -, hw⟩ := life_exec hc hx
  exact h r.1 r.2 ⟨hid.trans h₁.1, hw h₁.2⟩

/-- Before its waiter exists, an operation only needs the senders to be well numbered. -/
theorem wp_left_wf (hgood : ∀ s x, Harmless op c s (.go x)) (hc : c.registers = false)
    (hs : s.Left id ∧ s.Wf)
    (h : ∀ b s', s'.Left id ∧ s'.Wf → LifeWP cancellable op post bad (k b) s') :
    LifeWP cancellable op post bad (.call c k) s := by
  refine wp_good hgood ((stable_left id).and stable_wf) hs fun s₁ h₁ x r hx => ?_
  obtain ⟨hid, -, -, hw⟩ := life_exec hc hx
  exact h r.1 r.2 ⟨⟨hid.trans h₁.1.1, hw h₁.1.2⟩, life_exec_wf hx h₁.2⟩

theorem wp_clean (hgood : ∀ s x, Harmless op c s (.go x)) (hc : c.registers = false)
    (hs : s.Clean)
    (h : ∀ b s', s'.Clean → LifeWP cancellable op post bad (k b) s') :
    LifeWP cancellable op post bad (.call c k) s := by
  refine wp_good hgood stable_clean hs fun s₁ h₁ x r hx => ?_
  obtain ⟨-, -, hconn, hw⟩ := life_exec hc hx
  exact h r.1 r.2 ⟨hconn h₁.1, hw h₁.2⟩

theorem wp_removeConn {k : Unit → Proc α} (hs : s.Left id)
    (h : ∀ s', s'.Clean → LifeWP cancellable op post bad (k ()) s') :
    LifeWP cancellable op post bad (.call (.removeConn id) k) s := by
  refine wp_good (fun _ _ => harmless_go (fun _ => rfl) (fun _ => rfl)) (stable_left id) hs
    fun s₁ h₁ x r hx => ?_
  cases hx
  refine h _ ⟨fun i hi => ?_, h₁.2⟩
  obtain rfl : id = i := Option.some.inj (h₁.1.symm.trans hi)
  simp [Tracked.conns, Cmd.track, ChannelState.removeConn]

theorem wp_write_own {msg : Message} {k : Except ChannelError Unit → Proc α}
    (hgood : ∀ s x, Harmless op (.write msg) s (.go x)) (hs : s.Own id seq w)
    (h : ∀ b s', s'.Own id seq w → LifeWP cancellable op post bad (k b) s') :
    LifeWP cancellable op post bad (.call (.write msg) k) s := by
  refine wp_good hgood (stable_own id seq w) hs fun s₁ h₁ x r hx => ?_
  obtain ⟨⟨b, sh⟩, hb, rfl⟩ := Option.map_eq_some_iff.mp hx
  obtain ⟨wire, rfl⟩ : ∃ wire, sh = { s₁.shared with wire := wire } := Cmd.exec_await rfl hb
  exact h _ _ ⟨h₁.1, h₁.2.waited, h₁.2.only, h₁.2.same, h₁.2.replied, h₁.2.created⟩

theorem wp_removeWaiter {k : Unit → Proc α} (hs : s.Own id seq w)
    (h : ∀ s', s'.Left id → LifeWP cancellable op post bad (k ()) s') :
    LifeWP cancellable op post bad (.call (.removeWaiter seq) k) s := by
  refine wp_good (fun _ _ => harmless_go (fun _ => rfl) (fun _ => rfl)) (stable_own id seq w) hs
    fun s₁ h₁ x r hx => ?_
  cases hx
  refine h _ ⟨h₁.1, fun j hj => ?_⟩
  obtain rfl : seq = j := Option.some.inj (h₁.2.waited.symm.trans hj)
  simp [Tracked.waiters, Cmd.track, ChannelState.removeWaiter]

/-- Whatever the operation's own receiver resolves to, its waiter is out of the table. -/
theorem noWaiter_of_resolve (h : s.Mine seq w) {r : Option Message}
    (hr : s.shared.resolve w = some r) : s.NoWaiter := by
  intro k hk hm
  obtain rfl : seq = k := Option.some.inj (h.waited.symm.trans hk)
  obtain ⟨w', hw'⟩ := mem_iff_lookup.mp hm
  unfold Shared.resolve at hr
  cases hrep : s.shared.replies w with
  | some msg => exact h.replied (by rw [hrep]; exact Option.some_ne_none _) hm
  | none =>
    have hheld : s.shared.chan.holds w = true :=
      (ChannelState.holds_iff _ _).mpr ⟨seq, by rw [← h.same w' hw']; exact hw'⟩
    rw [hrep, if_pos hheld] at hr
    cases hr

theorem wp_recv {k : Option Message → Proc α} (hs : s.Own id seq w)
    (h : ∀ b s', s'.Left id → LifeWP cancellable op post bad (k b) s') :
    LifeWP cancellable op post bad (.call (.recv w) k) s := by
  refine wp_good (fun _ _ => harmless_go (fun _ => rfl) (fun _ => rfl)) (stable_own id seq w) hs
    fun s₁ h₁ x r hx => ?_
  obtain ⟨⟨b, sh⟩, hb, rfl⟩ := Option.map_eq_some_iff.mp hx
  obtain ⟨o, ho, heq⟩ := Option.map_eq_some_iff.mp hb
  cases heq
  exact h _ _ ⟨h₁.1, noWaiter_of_resolve h₁.2 ho⟩

theorem wp_recvTimeout {k : Option (Option Message) → Proc α} (hs : s.Own id seq w)
    (h : ∀ b s', s'.Left id → LifeWP cancellable op post bad (k (some b)) s')
    (helapsed : ∀ s', s'.Own id seq w → LifeWP cancellable op post bad (k none) s') :
    LifeWP cancellable op post bad (.call (.recvTimeout w) k) s := by
  refine wp_good (fun _ _ => harmless_go (fun _ => rfl) (fun _ => rfl)) (stable_own id seq w) hs
    fun s₁ h₁ x r hx => ?_
  obtain ⟨⟨b, sh⟩, hb, rfl⟩ := Option.map_eq_some_iff.mp hx
  simp only [Cmd.exec] at hb
  split at hb
  · next o ho =>
    cases hb
    exact h _ _ ⟨h₁.1, noWaiter_of_resolve h₁.2 ho⟩
  · split at hb
    · cases hb
      exact helapsed _ h₁
    · cases hb

theorem wp_insertWaiter {k : SenderId → Proc α} (hs : s.connId = some id ∧ s.Wf)
    (h : ∀ w s', s'.Own id seq w → LifeWP cancellable op post bad (k w) s') :
    LifeWP cancellable op post bad (.call (.insertWaiter seq) k) s := by
  refine wp_good (fun _ _ => harmless_go (fun _ => rfl) (fun _ => rfl))
    ((stable_connId id).and stable_wf) hs fun s₁ h₁ x r hx => ?_
  cases hx
  obtain ⟨hid, hfresh, hunsent⟩ := h₁
  refine h _ _ ⟨hid, rfl, fun j hj => ?_, fun w' hw' => ?_, fun hr => ?_, ?_⟩
  · rcases ChannelState.access_waiters hj with hold | ⟨ha, -⟩
    · exact absurd (hfresh.waiters_lt j _ hold) (lt_irrefl _)
    · cases ha
      rfl
  · simp only [Tracked.waiters, Cmd.track, ChannelState.access, ChannelState.newSender,
      ChannelState.insertWaiter, lookup_insert, if_pos] at hw'
    exact (Option.some.inj hw').symm
  · exact absurd (hunsent _ le_rfl) hr
  · simp [Cmd.track, ChannelState.access, ChannelState.newSender, ChannelState.insertWaiter]

end Rules

/-- A failed operation leaves no registration. -/
def FailsClean {β : Type} (r : Except EdgeError β) (s : Tracked) : Prop :=
  ∀ err, r = .error err → s.Clean

section Operations

variable {C : Crypto} {cancellable : Bool} {s : Tracked}

theorem harmless_complete {γ : Type} {c : Cmd γ} {s : Tracked} {x : Choice} :
    Harmless .complete c s (.go x) :=
  harmless_go (fun h => by cases h) (fun h => by cases h)

theorem wp_sendDialFailed {id : UInt32} {connId : UInt32} {dialSeq : Int32} {reason : String}
    (hs : s.Left id) :
    LifeWP cancellable .complete (fun _ s' => s'.Left id)
      (fun _ _ => False) (Proc.sendDialFailed connId dialSeq reason) s := by
  simp only [Proc.sendDialFailed, Proc.nextSeq, Proc.write, Program.lift_bind]
  refine wp_left (fun _ _ => harmless_complete) rfl hs fun seq s₁ h₁ => ?_
  exact wp_left (fun _ _ => harmless_complete) rfl h₁ fun _ s₂ h₂ => h₂

theorem wp_sendDialFailed_clean {connId : UInt32} {dialSeq : Int32} {reason : String}
    (hs : s.Clean) :
    LifeWP cancellable .complete (fun _ s' => s'.Clean)
      (fun _ _ => False) (Proc.sendDialFailed connId dialSeq reason) s := by
  simp only [Proc.sendDialFailed, Proc.nextSeq, Proc.write, Program.lift_bind]
  refine wp_clean (fun _ _ => harmless_complete) rfl hs fun seq s₁ h₁ => ?_
  exact wp_clean (fun _ _ => harmless_complete) rfl h₁ fun _ s₂ h₂ => h₂

theorem wp_finishAccept (p : PendingAccept C) (hs : s.Left p.childId) :
    LifeWP cancellable .complete FailsClean (fun _ _ => False)
      (finishAccept p) s := by
  unfold finishAccept
  split
  · intro err herr
    cases herr
  · simp only [Proc.nextSeq, Proc.write, Proc.removeConn, Program.lift_bind]
    refine wp_left (fun _ _ => harmless_complete) rfl hs fun seq s₁ h₁ => ?_
    refine wp_left (fun _ _ => harmless_complete) rfl h₁ fun b s₂ h₂ => ?_
    cases b with
    | error err => exact wp_removeConn h₂ fun s₃ h₃ _ _ => h₃
    | ok => exact fun err herr => by cases herr

theorem wp_abort {β : Type} {post : Except EdgeError β → Tracked → Prop} {id connId : UInt32}
    {dialSeq : Int32} {reason : String} (err : EdgeError) (hs : s.Left id)
    (hpost : ∀ s', s'.Clean → post (.error err) s') :
    LifeWP cancellable .complete post (fun _ _ => False)
      (do Proc.removeConn id
          Proc.sendDialFailed connId dialSeq reason
          pure (.error err)) s := by
  simp only [Proc.removeConn, Program.lift_bind]
  refine wp_removeConn hs fun s₁ h₁ => ?_
  exact .bind ((wp_sendDialFailed_clean h₁).mono fun _ s' h' => hpost s' h') fun _ _ h => h.elim

/-- After the wait for the start reply the waiter is gone, and on failure so is the connection. -/
def Started (childId : UInt32) (r : Except EdgeError Unit) (s : Tracked) : Prop :=
  match r with
  | .ok () => s.Left childId
  | .error _ => s.Clean

theorem wp_awaitStartReply {childId : UInt32} {dialSeq seq : Int32} {w : SenderId}
    (hs : s.Own childId seq w) :
    LifeWP cancellable .complete (Started childId) (fun _ _ => False)
      (awaitStartReply childId dialSeq seq w) s := by
  simp only [awaitStartReply, Proc.recvTimeout, Proc.removeWaiter, Program.lift_bind]
  refine wp_recvTimeout hs (fun b s₁ h₁ => ?_) fun s₁ h₁ => ?_
  · cases b with
    | none =>
      refine wp_left (fun _ _ => harmless_complete) rfl h₁ fun _ s₂ h₂ => ?_
      exact wp_abort _ h₂ fun _ h => h
    | some start =>
      dsimp only
      split_ifs
      · exact h₁
      · simp only [Proc.nextSeq, Proc.write, Proc.removeConn, Program.lift_bind]
        refine wp_left (fun _ _ => harmless_complete) rfl h₁ fun _ s₂ h₂ => ?_
        refine wp_left (fun _ _ => harmless_complete) rfl h₂ fun _ s₃ h₃ => ?_
        exact wp_removeConn h₃ fun s₄ h₄ => h₄
  · refine wp_removeWaiter h₁ fun s₂ h₂ => ?_
    exact wp_abort _ h₂ fun _ h => h

theorem left_of_unwaited {id : UInt32} (hid : s.connId = some id) (hw : s.waited = none) :
    s.Left id :=
  ⟨hid, fun k hk => by rw [hw] at hk; cases hk⟩

theorem wp_completeSuccess (p : PendingAccept C) (hid : s.connId = some p.childId)
    (hw : s.waited = none) (hwf : s.Wf) :
    LifeWP cancellable .complete FailsClean (fun _ _ => False)
      (completeSuccess p) s := by
  have hs := left_of_unwaited hid hw
  unfold completeSuccess
  cases hrp : p.routerProvided with
  | true =>
    simp only [if_true, Program.pure_eq, Program.ret_bind, Bool.false_eq_true, if_false,
      Proc.nextSeq, Proc.write, Proc.removeConn, Program.lift_bind]
    refine wp_left (fun _ _ => harmless_complete) rfl hs fun seq s₁ h₁ => ?_
    refine wp_left (fun _ _ => harmless_complete) rfl h₁ fun b s₂ h₂ => ?_
    cases b with
    | error err => exact wp_removeConn h₂ fun s₃ h₃ _ _ => h₃
    | ok => exact wp_finishAccept p h₂
  | false =>
    simp only [Bool.false_eq_true, if_false, Proc.isClosed, Proc.nextSeq, Proc.insertWaiter,
      Proc.write, Proc.removeWaiter, Program.lift_bind]
    refine wp_left_wf (fun _ _ => harmless_complete) rfl ⟨hs, hwf⟩ fun closed s₁ h₁ => ?_
    cases closed with
    | true => exact wp_abort _ h₁.1 fun s' h' _ _ => h'
    | false =>
      refine wp_left_wf (fun _ _ => harmless_complete) rfl h₁ fun seq s₂ h₂ => ?_
      refine wp_insertWaiter ⟨h₂.1.1, h₂.2⟩ fun w s₃ h₃ => ?_
      refine wp_write_own (fun _ _ => harmless_complete) h₃ fun b s₄ h₄ => ?_
      cases b with
      | error err =>
        refine wp_removeWaiter h₄ fun s₅ h₅ => ?_
        exact wp_removeConn h₅ fun s₆ h₆ _ _ => h₆
      | ok =>
        refine .bind ((wp_awaitStartReply h₄).mono fun r s₅ h₅ => ?_) fun _ _ h => h.elim
        cases r with
        | error err => exact fun _ _ => h₅
        | ok => exact wp_finishAccept p h₅

theorem wp_completeFailed (p : PendingAccept C) (reason : String)
    (hid : s.connId = some p.childId) (hw : s.waited = none) :
    LifeWP cancellable .complete (fun _ s' => s'.Clean) (fun _ _ => False)
      (completeFailed p reason) s := by
  unfold completeFailed
  refine .bind ((wp_sendDialFailed (left_of_unwaited hid hw)).mono fun _ s₁ h₁ => ?_)
    fun _ _ h => h.elim
  simp only [Proc.nextSeq, Proc.write, Proc.removeConn, Program.lift, Program.call_bind,
    Program.ret_bind]
  refine wp_left (fun _ _ => harmless_complete) rfl h₁ fun seq s₂ h₂ => ?_
  refine wp_left (fun _ _ => harmless_complete) rfl h₂ fun _ s₃ h₃ => ?_
  exact wp_removeConn h₃ fun s₄ h₄ => h₄

/-- A refused `StateClosed` ends the close with the entry in place; anything else takes it out. -/
theorem wp_closeConn {id : UInt32} (hid : s.connId = some id) (hw : s.waited = none) :
    LifeWP cancellable .close (fun _ s' => s'.Clean)
      (fun _ s' => ¬ s'.Clean) (closeConn id) s := by
  simp only [closeConn, Proc.nextSeq, Proc.write, Proc.removeConn, Program.lift_bind]
  refine wp_left (fun _ _ => harmless_go (fun _ => rfl) (fun _ => rfl)) rfl
    (left_of_unwaited hid hw) fun seq s₁ h₁ => ?_
  refine .call (stable_left id) h₁ fun s₂ h₂ x r hx => ?_
  cases x with
  | done =>
    cases hx
    exact ⟨fun _ => wp_removeConn h₂ fun s₃ h₃ => h₃, fun hn => absurd trivial hn⟩
  | failed e =>
    cases hx
    exact ⟨fun hgood => hgood, fun hn => ⟨_, rfl, hn⟩⟩
  | elapsed => cases hx

theorem harmless_dial {γ : Type} {c : Cmd γ} {s : Tracked} {x : Choice}
    (hc : c.isCloseCas = false) : Harmless .dial c s (.go x) :=
  harmless_go (fun _ => hc) (fun h => by cases h)

/-- A dial's teardown of the channel: it wins and clears everything, or it finds the channel
closed and returns as things are. -/
theorem wp_dial_markClosed {β : Type} {id : UInt32} {seq : Int32} {w : SenderId}
    (err : EdgeError) (hs : s.Own id seq w) :
    LifeWP cancellable .dial FailsClean
      (fun (r : Except EdgeError β) s' => (∃ err, r = .error err) ∧ ¬ s'.Clean)
      (do Proc.markClosed
          pure (.error err)) s := by
  simp only [Proc.markClosed, Program.lift_bind, Program.call_bind]
  refine .call (stable_own id seq w) hs fun s₁ h₁ x r hx => ?_
  cases hx
  cases hcl : s₁.shared.chan.closed with
  | true =>
    simp only [Bool.not_true, Bool.false_eq_true, if_false, Program.pure_eq, Program.ret_bind]
    refine ⟨fun hgood _ _ => hgood hcl, fun hn => ⟨_, rfl, ⟨err, rfl⟩, fun hclean => hn ?_⟩⟩
    exact fun _ => hclean
  | false =>
    refine ⟨fun _ => ?_, fun hn => absurd (fun h => ?_) hn⟩
    · simp only [Bool.not_false, if_true, Program.lift_bind, Program.call_bind]
      have hset : Tracked.Own id seq w { s₁ with shared := { s₁.shared with
          chan := s₁.shared.chan.access .setClosed } } :=
        ⟨h₁.1, h₁.2.waited, h₁.2.only, h₁.2.same, h₁.2.replied, h₁.2.created⟩
      refine wp_good (fun _ _ => harmless_dial rfl) (stable_own id seq w) hset fun s₂ h₂ x r hx => ?_
      cases hx
      refine wp_good (fun _ _ => harmless_dial rfl) (stable_own id seq w) h₂ fun s₃ h₃ x r hx => ?_
      cases hx
      have hleft : Tracked.Left id { s₃ with shared := { s₃.shared with
          chan := s₃.shared.chan.access .clearWaiters
          waitersCleared := s₃.shared.chan.closed } } :=
        ⟨h₃.1, fun k _ hm => by simp [Tracked.waiters, ChannelState.access] at hm⟩
      refine wp_good (fun _ _ => harmless_dial rfl) (stable_left id) hleft fun s₄ h₄ x r hx => ?_
      cases hx
      have hclean : Tracked.Clean { s₄ with shared := { s₄.shared with
          chan := s₄.shared.chan.access .clearConns
          connsCleared := s₄.shared.chan.closed } } :=
        ⟨fun k _ hm => by simp [Tracked.conns, ChannelState.access] at hm, h₄.2⟩
      exact wp_clean (fun _ _ => harmless_dial rfl) rfl hclean fun _ s₅ h₅ _ _ => h₅
    · rw [hcl] at h
      cases h

theorem wp_establishClientCrypto {id : UInt32} {keypair : Option C.KeyPair} {reply : Message}
    {e : C.Entropy} (hs : s.Left id) :
    LifeWP cancellable .dial (fun _ s' => s'.Left id) (fun _ _ => False)
      (establishClientCrypto id keypair reply e) s := by
  unfold establishClientCrypto
  split
  · exact hs
  · exact hs
  · simp only [Proc.nextSeq, Proc.write, Program.lift_bind]
    refine wp_left (fun _ _ => harmless_dial rfl) rfl hs fun seq s₁ h₁ => ?_
    refine wp_left (fun _ _ => harmless_dial rfl) rfl h₁ fun b s₂ h₂ => ?_
    cases b <;> exact h₂

theorem wp_nextConnId {α : Type} {op : LifeOp} {post bad : α → Tracked → Prop}
    {k : UInt32 → Proc α} (hs : s.waited = none ∧ s.Wf)
    (h : ∀ id s', s'.connId = some id → s'.Clean → s'.waited = none → s'.Wf →
      LifeWP cancellable op post bad (k id) s') :
    LifeWP cancellable op post bad (.call .nextConnId k) s := by
  refine wp_good (fun _ _ => harmless_go (fun _ => rfl) (fun _ => rfl))
    ((stable_waited none).and stable_wf) hs fun s₁ h₁ x r hx => ?_
  have hwf := life_exec_wf hx h₁.2
  obtain ⟨⟨id, sh⟩, hb, rfl⟩ := Option.map_eq_some_iff.mp hx
  obtain ⟨⟨id', st⟩, hn, heq⟩ := Option.map_eq_some_iff.mp hb
  cases heq
  refine h _ _ rfl ⟨fun i hi => ?_, fun j hj => ?_⟩ h₁.1 hwf
  · obtain rfl : id' = i := Option.some.inj hi
    have hfree := ChannelState.not_mem_conns_of_nextConnId hn
    obtain ⟨-, -, rfl⟩ := ChannelState.nextConnId_spec hn
    exact hfree
  · have hnone : s₁.waited = none := h₁.1
    exact absurd (hnone.symm.trans hj) (by simp)

theorem wp_dial (a : DialArgs C) (hw : s.waited = none) (hwf : s.Wf) :
    LifeWP cancellable .dial FailsClean
      (fun r s' => (∃ err, r = .error err) ∧ ¬ s'.Clean) (dial a) s := by
  simp only [dial, Proc.nextConnId, Proc.nextSeq, Proc.isClosed, Proc.registerConn,
    Proc.insertWaiter, Proc.write, Proc.recv, Proc.removeConn, Program.lift_bind]
  refine wp_nextConnId ⟨hw, hwf⟩ fun id s₁ hid₁ hclean₁ hw₁ hwf₁ => ?_
  -- nothing is registered until the closed check has passed
  have hid : (lifeRuntime cancellable).Stable fun s => s.connId = some id := stable_connId id
  have hstable := hid.and (stable_clean.and stable_wf)
  refine wp_good (fun _ _ => harmless_dial rfl) hstable ⟨hid₁, hclean₁, hwf₁⟩
    fun s₂ h₂ x r₂ hx₂ => ?_
  have hwf₂ := life_exec_wf hx₂ h₂.2.2
  obtain ⟨hid₂, -, hconn₂, hwait₂⟩ := life_exec rfl hx₂
  refine wp_good (fun _ _ => harmless_dial rfl) hstable
    ⟨hid₂.trans h₂.1, ⟨hconn₂ h₂.2.1.1, hwait₂ h₂.2.1.2⟩, hwf₂⟩ fun s₃ h₃ x r₃ hx₃ => ?_
  have hwf₃ := life_exec_wf hx₃ h₃.2.2
  obtain ⟨hid₃, -, hconn₃, hwait₃⟩ := life_exec rfl hx₃
  cases hclosed : r₃.1 with
  | true => exact fun _ _ => ⟨hconn₃ h₃.2.1.1, hwait₃ h₃.2.1.2⟩
  | false =>
    refine wp_good (fun _ _ => harmless_dial rfl) ((stable_connId id).and stable_wf)
      ⟨hid₃.trans h₃.1, hwf₃⟩ fun s₄ h₄ x r₄ hx₄ => ?_
    have hwf₄ := life_exec_wf hx₄ h₄.2
    have hid₄ : r₄.2.connId = some id := by
      cases hx₄
      exact h₄.1
    refine wp_insertWaiter ⟨hid₄, hwf₄⟩ fun w s₅ h₅ => ?_
    refine wp_write_own (fun _ _ => harmless_dial rfl) h₅ fun b s₆ h₆ => ?_
    cases b with
    | error err => exact wp_dial_markClosed _ h₆
    | ok =>
      refine wp_recv h₆ fun reply s₇ h₇ => ?_
      cases reply with
      | none => exact wp_removeConn h₇ fun s₈ h₈ _ _ => h₈
      | some reply =>
        dsimp only
        cases classifyDialReply reply with
        | error err => exact wp_removeConn h₇ fun s₈ h₈ _ _ => h₈
        | ok connected =>
          refine .bind ((wp_establishClientCrypto h₇).mono fun r s₈ h₈ => ?_) fun _ _ h => h.elim
          cases r with
          | error err => exact wp_removeConn h₈ fun s₉ h₉ _ _ => h₉
          | ok crypto => exact fun err herr => by cases herr

end Operations

/-- The operation with the given program, before its first step. -/
def Tracked.start {α : Type} (s : Tracked) (p : Proc α) : Solo Cmd Tracked α := ⟨p, s, false⟩

/-- The two entries that a dial makes, and how far it is when it has made them. -/
inductive Entry where
  | conn
  | waiter

def Entry.made : Entry → Nat
  | .conn => 2
  | .waiter => 3

def Tracked.Registered (s : Tracked) : Entry → Prop
  | .conn => ∃ id, s.connId = some id ∧ id ∈ s.conns
  | .waiter => ∃ seq, s.waited = some seq ∧ seq ∈ s.waiters

/-- The environment does not take the entry out, nor close the channel to a connection. -/
def Spares {α : Type} (e : Entry) (u : Solo Cmd Tracked α) : SoloAct LifeEnv Choice → Prop
  | .env ev => ∀ s', ev.apply u.state = some s' → (u.state.Registered e → s'.Registered e) ∧
      (e = .conn → u.state.shared.chan.closed = false → s'.shared.chan.closed = false)
  | _ => True

/-- A dial registers its own id once it has seen the channel open, then its waiter, and it waits, or
tears the channel down, only after both. -/
def registersFirst : Discipline Cmd (Option UInt32 × Nat) where
  may := fun st c =>
    match c with
    | .registerConn connId => st = (some connId, 1)
    | .insertWaiter _ => st.2 = 2
    | .write _ | .writeTimeout _ | .recv _ | .recvTimeout _ | .closeCas => st.2 = 3
    | _ => True
  next := fun st c b =>
    match c, b with
    | .nextConnId, connId => (some connId, 0)
    | .isClosed, closed => (st.1, if closed then 0 else 1)
    | .registerConn _, _ => (st.1, 2)
    | .insertWaiter _, _ => (st.1, 3)
    | .nextSeq, _ | .write _, _ | .writeTimeout _, _ | .recv _, _ | .recvTimeout _, _ => st
    | _, _ => (st.1, 0)

/-- The entry stands if the dial is far enough to have made it. -/
structure Stands (st : Option UInt32 × Nat) (e : Entry) (s : Tracked) : Prop where
  own : s.connId = st.1
  opened : e = .conn → st.2 = 1 → s.shared.chan.closed = false
  registered : e.made ≤ st.2 → s.Registered e

section Registered

variable {C : Crypto} {cancellable : Bool} {s : Tracked} {st : Option UInt32 × Nat} {e : Entry}

theorem stands_zero {connId : Option UInt32} (h : s.connId = connId) : Stands (connId, 0) e s where
  own := h
  opened _ h := by cases h
  registered h := by cases e <;> cases h

theorem obeys_dial (a : DialArgs C) (st : Option UInt32 × Nat) : (dial a).Obeys registersFirst st := by
  simp only [dial, establishClientCrypto, Proc.nextConnId, Proc.nextSeq, Proc.isClosed,
    Proc.registerConn, Proc.insertWaiter, Proc.write, Proc.recv, Proc.removeConn, Program.lift_bind]
  refine ⟨trivial, fun _ => ⟨trivial, fun _ => ⟨trivial, fun closed => ?_⟩⟩⟩
  cases closed with
  | true => trivial
  | false =>
    refine ⟨rfl, fun _ => ⟨rfl, fun _ => ⟨rfl, fun b => ?_⟩⟩⟩
    cases b with
    | error err =>
      refine ⟨rfl, fun won => ?_⟩
      cases won with
      | false => trivial
      | true => exact ⟨trivial, fun _ => ⟨trivial, fun _ => ⟨trivial, fun _ => ⟨trivial, fun _ => trivial⟩⟩⟩⟩
    | ok =>
      refine ⟨rfl, fun reply => ?_⟩
      have hgone {β : Type} (id : UInt32) (err : EdgeError) (st : Option UInt32 × Nat) :
          (Program.call (.removeConn id) fun _ => .ret (.error err) : Proc (Except EdgeError β)).Obeys
            registersFirst st := ⟨trivial, fun _ => trivial⟩
      cases reply with
      | none => exact hgone ..
      | some reply =>
        dsimp only
        cases classifyDialReply reply with
        | error err => exact hgone ..
        | ok connected =>
          refine Program.Obeys.bind ?_ fun r st' => ?_
          · split
            · trivial
            · trivial
            · refine ⟨trivial, fun _ => ⟨rfl, fun b => ?_⟩⟩
              cases b <;> trivial
          · cases r with
            | error err => exact hgone ..
            | ok crypto => trivial

theorem Stands.exec {β : Type} {c : Cmd β} {x : Choice} {r : β × Tracked} (h : Stands st e s)
    (hmay : registersFirst.may st c) (hx : (lifeRuntime cancellable).exec c x s = some r) :
    Stands (registersFirst.next st c r.1) e r.2 := by
  obtain ⟨⟨b, sh⟩, hb, rfl⟩ := Option.map_eq_some_iff.mp hx
  cases c with
  | nextConnId => exact stands_zero rfl
  | isClosed =>
    cases hb
    refine ⟨h.own, fun _ h => ?_, fun hm => ?_⟩
    · simpa [registersFirst, Cmd.track] using h
    · cases e <;> simp only [registersFirst, Entry.made] at hm <;> split at hm <;> omega
  | registerConn connId =>
    cases hb
    cases (show st = (some connId, 1) from hmay)
    refine ⟨h.own, fun _ ho => (by cases ho), fun hm => ?_⟩
    cases e with
    | conn =>
      refine ⟨connId, h.own, ?_⟩
      simp [Tracked.conns, Cmd.track, ChannelState.access, ChannelState.newSender,
        ChannelState.registerConn_conns, h.opened rfl rfl]
    | waiter => exact absurd (show 3 ≤ 2 from hm) (by decide)
  | insertWaiter seq =>
    cases hb
    refine ⟨h.own, fun _ ho => (by cases ho), fun hm => ?_⟩
    cases e with
    | conn => exact h.registered (le_of_eq (show st.2 = 2 from hmay).symm)
    | waiter => exact ⟨seq, rfl, Std.ExtTreeMap.mem_insert_self⟩
  | write | writeTimeout | recv | recvTimeout =>
    obtain ⟨wire, rfl⟩ : ∃ wire, sh = { s.shared with wire := wire } := Cmd.exec_await rfl hb
    exact ⟨h.own, h.opened, fun hm => by cases e <;> exact h.registered hm⟩
  | nextSeq =>
    cases hb
    exact ⟨h.own, h.opened, fun hm => by cases e <;> exact h.registered hm⟩
  | _ =>
    cases hb
    exact stands_zero h.own

theorem may_await {β : Type} {c : Cmd β} (hc : c.isAwait = true) (h : registersFirst.may st c) :
    st.2 = 3 := by
  cases c <;> first | exact h | cases hc

/-- The entry stands, or the dial has not come so far. -/
def Kept {α : Type} (e : Entry) (u : Solo Cmd Tracked α) : Prop :=
  if u.dropped then u.state.Registered e
  else ∃ st, u.prog.Obeys registersFirst st ∧ Stands st e u.state

theorem made_le (e : Entry) {n : Nat} (h : n = 3) : e.made ≤ n := by
  cases e <;> simp [Entry.made, h]

theorem Kept.step {α : Type} {u u' : Solo Cmd Tracked α} {act : SoloAct LifeEnv Choice} (h : Kept e u)
    (hu : Solo.step (lifeRuntime cancellable) u act = some u') (hs : Spares e u act) : Kept e u' := by
  obtain ⟨prog, v, dropped⟩ := u
  unfold Solo.step at hu
  split at hu
  · next c k hd hp =>
    cases hd
    cases hp
    obtain ⟨st, hobeys, hst⟩ := h
    cases act with
    | env ev =>
      obtain ⟨v', hv, rfl⟩ := Option.map_eq_some_iff.mp hu
      have hown : v'.connId = v.connId := by cases life_env_cases hv <;> rfl
      obtain ⟨hkeep, hclosed⟩ := hs v' (Option.ite_none_right_eq_some.mp hv).2
      exact ⟨st, hobeys, hown.trans hst.own, fun he ho => hclosed he (hst.opened he ho),
        fun hm => hkeep (hst.registered hm)⟩
    | go x =>
      obtain ⟨r, hx, rfl⟩ := Option.map_eq_some_iff.mp hu
      exact ⟨_, hobeys.2 r.1, hst.exec hobeys.1 hx⟩
    | drop =>
      -- a dial is dropped where it waits, with both entries made
      obtain ⟨hdrop, hu⟩ := Option.ite_none_right_eq_some.mp hu
      cases hu
      exact hst.registered (made_le e (may_await (Bool.and_eq_true_iff.mp hdrop).2 hobeys.1))
  · cases hu

/-- An entry that the environment spares stands where the dial can be dropped and where it tears the
channel down. -/
theorem registered_run {a : DialArgs C} {as : List (SoloAct LifeEnv Choice)}
    {u : Solo Cmd Tracked (Except EdgeError (EdgeConn C))}
    (hrun : run (Solo.step (lifeRuntime cancellable)) (s.start (dial a)) as = some u)
    (hspares : RunAll (Solo.step (lifeRuntime cancellable)) (Spares e) (s.start (dial a)) as)
    (hend : u.dropped = true ∨ ∃ k, u.prog = .call .closeCas k) : u.state.Registered e := by
  have hkept : Kept e u := run_invariant_when (Kept e) (fun _ _ _ hu hs h => h.step hu hs) hrun hspares
    ⟨_, obeys_dial a (s.connId, 0), stands_zero rfl⟩
  unfold Kept at hkept
  split_ifs at hkept with hd
  · exact hkept
  · obtain ⟨k, hk⟩ := hend.resolve_left hd
    obtain ⟨st, hobeys, hst⟩ := hkept
    rw [hk] at hobeys
    exact hst.registered (made_le e hobeys.1)

end Registered

/-- Which runs of an operation that ends a connection's life leave a registration behind: of a
dial that fails or is given up and of a close exactly those with a harmful step, of the two
completions of an accept none. Where a dial is given up, or its teardown finds the channel closed,
each of its two entries is registered unless a step of the environment took it out before. -/
theorem registration_left_iff {C : Crypto} (s : Tracked) (hw : s.waited = none) (hwf : s.Wf) :
    (∀ (a : DialArgs C) as t, run (Solo.step (lifeRuntime true)) (s.start (dial a)) as = some t →
      (t.dropped = true ∨ (t.dropped = false ∧ ∃ err, t.prog = .ret (.error err))) →
      (t.state.Clean ↔
        RunAll (Solo.step (lifeRuntime true)) (Solo.Meets (Harmless .dial)) (s.start (dial a)) as)) ∧
    (∀ p : PendingAccept C, s.connId = some p.childId → ∀ as t err,
      run (Solo.step (lifeRuntime false)) (s.start (completeSuccess p)) as = some t →
      t.prog = .ret (.error err) → t.state.Clean) ∧
    (∀ (p : PendingAccept C) reason, s.connId = some p.childId → ∀ as t,
      run (Solo.step (lifeRuntime false)) (s.start (completeFailed p reason)) as = some t →
      t.prog = .ret () → t.state.Clean) ∧
    (∀ id, s.connId = some id → ∀ as t r,
      run (Solo.step (lifeRuntime false)) (s.start (closeConn id)) as = some t →
      t.prog = .ret r →
      (t.state.Clean ↔
        RunAll (Solo.step (lifeRuntime false)) (Solo.Meets (Harmless .close))
          (s.start (closeConn id)) as)) ∧
    (∀ (a : DialArgs C) as t e,
      run (Solo.step (lifeRuntime true)) (s.start (dial a)) as = some t →
      RunAll (Solo.step (lifeRuntime true)) (Spares e) (s.start (dial a)) as →
      (t.dropped = true ∨ ∃ k, t.prog = .call .closeCas k) → t.state.Registered e) := by
  refine ⟨fun a as t hrun hend => ?_, fun p hid as t err hrun hret => ?_,
    fun p reason hid as t hrun hret => ?_, fun id hid as t r hrun hret => ?_,
    fun _ _ _ _ hrun hspares hend => registered_run hrun hspares hend⟩
  · have hends := Solo.run_wp hrun rfl (wp_dial a hw hwf)
    rcases hend with hd | ⟨hd, err, hret⟩
    · obtain ⟨γ, c, hiff⟩ := hends.dropped hd
      exact hiff.symm
    · refine ⟨fun hclean => ?_, fun hall => ?_⟩
      · by_contra hall
        obtain ⟨_, -, -, hdirty⟩ := hends.failed hd hall
        exact hdirty hclean
      · have hpost := hends.returned hd hall
        rw [hret] at hpost
        exact hpost err rfl
  · exact Solo.run_post (fun _ => rfl) hrun rfl (wp_completeSuccess p hid hw hwf) hret err rfl
  · exact Solo.run_post (fun _ => rfl) hrun rfl (wp_completeFailed p reason hid hw) hret
  · have hends := Solo.run_wp hrun rfl (wp_closeConn hid hw)
    have hd := Solo.not_dropped (fun _ => rfl) hrun rfl
    refine ⟨fun hclean => ?_, fun hall => ?_⟩
    · by_contra hall
      obtain ⟨_, -, hdirty⟩ := hends.failed hd hall
      exact hdirty hclean
    · have hpost := hends.returned hd hall
      rw [hret] at hpost
      exact hpost

/-- A plaintext dial. -/
def plainDial : DialArgs padCrypto := ⟨"t", "m", none, none, none, ()⟩

/-- An admitted dial for the child 5. -/
def pendingFive : PendingAccept padCrypto := ⟨9, 5, true, 1, 0, none, none, none, none⟩

/-- An operation about connection 5, registered on a new channel. -/
def trackedFive : Tracked := ⟨{ Shared.new with chan := liveConn }, some 5, none⟩

theorem wf_trackedFive : trackedFive.Wf :=
  ⟨ChannelState.fresh_access ChannelState.fresh_new (.registerConn 5), fun _ _ => rfl⟩

/-- Connection 5 is gone once its accept was completed as failed, or it was closed; a dial dropped on
an untouched channel leaves both its entries. -/
theorem registration_left_iff_five :
    (∃ t, run (Solo.step (lifeRuntime false)) (trackedFive.start (completeFailed pendingFive "no"))
        [.go .done, .go .done, .go .done, .go .done, .go .done] = some t ∧ t.state.Clean) ∧
    (∃ t, run (Solo.step (lifeRuntime false)) (trackedFive.start (closeConn 5))
        [.go .done, .go .done, .go .done] = some t ∧ t.state.Clean) ∧
    ∃ t, run (Solo.step (lifeRuntime true)) (trackedFive.start (dial plainDial))
        (List.replicate 6 (.go .done) ++ [.drop]) = some t ∧ ∀ e, t.state.Registered e := by
  obtain ⟨-, -, hfailed, hclose, hdial⟩ :=
    registration_left_iff (C := padCrypto) trackedFive rfl wf_trackedFive
  refine ⟨⟨_, rfl, hfailed pendingFive "no" rfl
    [.go .done, .go .done, .go .done, .go .done, .go .done] _ rfl rfl⟩, ⟨_, rfl, ?_⟩, ⟨_, rfl, fun e => ?_⟩⟩
  · refine (hclose 5 rfl [.go .done, .go .done, .go .done] _ _ rfl rfl).mpr ?_
    iterate 3
      refine ⟨trivial, ?_⟩
      rintro _ ⟨⟩
    trivial
  · refine hdial plainDial (List.replicate 6 (.go .done) ++ [.drop]) _ e rfl ?_ (.inl rfl)
    iterate 7
      refine ⟨trivial, ?_⟩
      rintro _ ⟨⟩
    trivial

/-- Given up while it waits for its reply on an open channel, a dial leaves its connection and
its waiter registered; a close whose `StateClosed` is refused leaves its connection; and a dial
whose channel is torn down between its check and its registration, and whose write then fails,
leaves its waiter. -/
theorem dial_and_close_leave_registrations :
    (∃ t, run (Solo.step (lifeRuntime true)) (Tracked.start ⟨.new, none, none⟩ (dial plainDial))
        [.go .done, .go .done, .go .done, .go .done, .go .done, .go .done, .drop] = some t ∧
      t.dropped = true ∧ t.state.shared.chan.closed = false ∧
      t.state.connId = some 1 ∧ (1 : UInt32) ∈ t.state.conns ∧
      t.state.waited = some 1 ∧ (1 : Int32) ∈ t.state.waiters) ∧
    (∃ t, run (Solo.step (lifeRuntime false)) (trackedFive.start (closeConn 5))
        [.go .done, .go (.failed (.io "broken pipe"))] = some t ∧
      t.prog = .ret (.error (.channel (.io "broken pipe"))) ∧
      t.state.connId = some 5 ∧ (5 : UInt32) ∈ t.state.conns) ∧
    ∃ t, run (Solo.step (lifeRuntime true)) (Tracked.start ⟨.new, none, none⟩ (dial plainDial))
        [.go .done, .go .done, .go .done, .env (.access .setClosed), .env (.access .clearWaiters),
          .env (.access .clearConns), .env (.access .clearBinds), .go .done, .go .done,
          .go (.failed (.io "broken pipe")), .go .done] = some t ∧
      t.prog = .ret (.error (.channel (.io "broken pipe"))) ∧
      t.state.waited = some 1 ∧ (1 : Int32) ∈ t.state.waiters := by
  refine ⟨⟨_, rfl, rfl, rfl, rfl, by decide, rfl, by decide⟩, ⟨_, rfl, rfl, rfl, by decide⟩,
    ⟨_, rfl, rfl, rfl, by decide⟩⟩

end Noa.Edge.Data
