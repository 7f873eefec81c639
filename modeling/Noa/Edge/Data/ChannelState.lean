import Noa.Edge.Wire
import Noa.Framework.Machine
import Noa.Framework.Map

namespace Noa.Edge.Data
open Noa.Framework Noa.Channel

/-- The identity of a `oneshot` or `mpsc` sender: senders are numbered as they are created,
so a replaced registration is told apart from a kept one. -/
abbrev SenderId := Nat

/-- The state the tasks of one channel share. The three tables hold senders; `senders` counts
the ones created so far. -/
structure ChannelState where
  waiters : Std.ExtTreeMap Int32 SenderId
  conns : Std.ExtTreeMap UInt32 SenderId
  binds : Std.ExtTreeMap UInt32 SenderId
  seq : Int32
  connIdCounter : UInt32
  closed : Bool
  senders : Nat

namespace ChannelState

def new : ChannelState := ⟨∅, ∅, ∅, 0, 0, false, 0⟩

/-- A registration under the table's lock: no-op once the channel is closing. -/
def registerConn (st : ChannelState) (connId : UInt32) (tx : SenderId) : ChannelState :=
  if st.closed then st else { st with conns := st.conns.insert connId tx }

def registerBind (st : ChannelState) (connId : UInt32) (tx : SenderId) : ChannelState :=
  if st.closed then st else { st with binds := st.binds.insert connId tx }

def insertWaiter (st : ChannelState) (seq : Int32) (tx : SenderId) : ChannelState :=
  { st with waiters := st.waiters.insert seq tx }

def removeWaiter (st : ChannelState) (seq : Int32) : ChannelState :=
  { st with waiters := st.waiters.erase seq }

def removeConn (st : ChannelState) (connId : UInt32) : ChannelState :=
  { st with conns := st.conns.erase connId }

def removeBind (st : ChannelState) (connId : UInt32) : ChannelState :=
  { st with binds := st.binds.erase connId }

/-- `oneshot::channel()` and `mpsc::channel(4)`: the next sender. -/
def newSender (st : ChannelState) : SenderId × ChannelState :=
  (st.senders, { st with senders := st.senders + 1 })

/-- `fetch_add(1) + 1` on the wrapping counter. -/
def nextSeq (st : ChannelState) : Int32 × ChannelState :=
  (st.seq + 1, { st with seq := st.seq + 1 })

def connIdInUse (st : ChannelState) (id : UInt32) : Bool :=
  st.conns.contains id || st.binds.contains id

variable (st : ChannelState) (connId : UInt32) (tx : SenderId)

@[simp] theorem registerConn_waiters : (st.registerConn connId tx).waiters = st.waiters := by
  unfold registerConn; split <;> rfl

@[simp] theorem registerConn_binds : (st.registerConn connId tx).binds = st.binds := by
  unfold registerConn; split <;> rfl

@[simp] theorem registerConn_senders : (st.registerConn connId tx).senders = st.senders := by
  unfold registerConn; split <;> rfl

@[simp] theorem registerConn_closed : (st.registerConn connId tx).closed = st.closed := by
  unfold registerConn; split <;> rfl

@[simp] theorem registerConn_seq : (st.registerConn connId tx).seq = st.seq := by
  unfold registerConn; split <;> rfl

theorem registerConn_conns :
    (st.registerConn connId tx).conns =
      if st.closed then st.conns else st.conns.insert connId tx := by
  unfold registerConn; split <;> rfl

@[simp] theorem registerBind_waiters : (st.registerBind connId tx).waiters = st.waiters := by
  unfold registerBind; split <;> rfl

@[simp] theorem registerBind_conns : (st.registerBind connId tx).conns = st.conns := by
  unfold registerBind; split <;> rfl

@[simp] theorem registerBind_senders : (st.registerBind connId tx).senders = st.senders := by
  unfold registerBind; split <;> rfl

@[simp] theorem registerBind_closed : (st.registerBind connId tx).closed = st.closed := by
  unfold registerBind; split <;> rfl

@[simp] theorem registerBind_seq : (st.registerBind connId tx).seq = st.seq := by
  unfold registerBind; split <;> rfl

theorem registerBind_binds :
    (st.registerBind connId tx).binds =
      if st.closed then st.binds else st.binds.insert connId tx := by
  unfold registerBind; split <;> rfl

end ChannelState

def minConnId : UInt32 := 0
def maxConnId : UInt32 := 0xffffffff / 2 - 1

/-- The allocation loop on the wrapping counter: the candidate is always the counter plus one,
and a free candidate out of range rewinds the counter to `minId`. -/
def allocConnIdLoop (minId maxId : UInt32) (inUse : UInt32 → Bool) : Nat → UInt32 →
    Option (UInt32 × UInt32)
  | 0, _ => none
  | fuel + 1, counter =>
    let nextId := counter + 1
    if inUse nextId then allocConnIdLoop minId maxId inUse fuel nextId
    else if nextId < minId ∨ maxId ≤ nextId then allocConnIdLoop minId maxId inUse fuel minId
    else some (nextId, nextId)

/-- The allocated id with the counter it leaves behind. The loop's next turn depends on the
counter alone, so one that has not returned after `2 ^ 32` turns repeats a counter and never
returns; that is `none`. -/
def allocConnId (counter minId maxId : UInt32) (inUse : UInt32 → Bool) :
    Option (UInt32 × UInt32) :=
  allocConnIdLoop minId maxId inUse (2 ^ 32 + 1) counter

def ChannelState.nextConnId (st : ChannelState) : Option (UInt32 × ChannelState) :=
  (allocConnId st.connIdCounter minConnId maxConnId st.connIdInUse).map fun r =>
    (r.1, { st with connIdCounter := r.2 })

theorem allocConnIdLoop_spec (minId maxId : UInt32) (inUse : UInt32 → Bool) (fuel : Nat)
    (counter : UInt32) {r : UInt32 × UInt32}
    (h : allocConnIdLoop minId maxId inUse fuel counter = some r) :
    inUse r.1 = false ∧ minId ≤ r.1 ∧ r.1 < maxId ∧ r.2 = r.1 := by
  induction fuel generalizing counter with
  | zero => cases h
  | succ fuel ih =>
    simp only [allocConnIdLoop] at h
    split_ifs at h with huse hrange
    · exact ih _ h
    · exact ih _ h
    · cases h
      rw [not_or, UInt32.not_lt, UInt32.not_le] at hrange
      exact ⟨by simpa using huse, hrange.1, hrange.2, rfl⟩

/-- An allocated id is registered neither as a connection nor as a bind, and allocation
touches the counter only. -/
theorem ChannelState.nextConnId_spec {st st' : ChannelState} {id : UInt32}
    (h : st.nextConnId = some (id, st')) :
    st.connIdInUse id = false ∧ id < maxConnId ∧ st' = { st with connIdCounter := id } := by
  obtain ⟨r, hr, heq⟩ := Option.map_eq_some_iff.mp h
  have hspec := allocConnIdLoop_spec _ _ _ _ _ hr
  cases heq
  refine ⟨hspec.1, hspec.2.2.1, ?_⟩
  rw [hspec.2.2.2]

theorem ChannelState.not_mem_conns_of_nextConnId {st st' : ChannelState} {id : UInt32}
    (h : st.nextConnId = some (id, st')) : id ∉ st.conns := by
  have hfree := (nextConnId_spec h).1
  simp only [connIdInUse, Bool.or_eq_false_iff] at hfree
  rw [Std.ExtTreeMap.mem_iff_contains, hfree.1]
  exact Bool.false_ne_true

/-- One atomic access another task makes to the shared state. A registration creates its
sender in the same step, since nothing else can see it before. -/
inductive Access where
  | insertWaiter (seq : Int32)
  | removeWaiter (seq : Int32)
  | registerConn (connId : UInt32)
  | removeConn (connId : UInt32)
  | registerBind (connId : UInt32)
  | removeBind (connId : UInt32)
  | nextSeq
  | storeCounter (connId : UInt32)
  | setClosed
  | clearWaiters
  | clearConns
  | clearBinds
  deriving DecidableEq

namespace ChannelState

def access (st : ChannelState) : Access → ChannelState
  | .insertWaiter seq => let (tx, st) := st.newSender; st.insertWaiter seq tx
  | .removeWaiter seq => st.removeWaiter seq
  | .registerConn connId => let (tx, st) := st.newSender; st.registerConn connId tx
  | .removeConn connId => st.removeConn connId
  | .registerBind connId => let (tx, st) := st.newSender; st.registerBind connId tx
  | .removeBind connId => st.removeBind connId
  | .nextSeq => st.nextSeq.2
  | .storeCounter connId => { st with connIdCounter := connId }
  | .setClosed => { st with closed := true }
  | .clearWaiters => { st with waiters := ∅ }
  | .clearConns => { st with conns := ∅ }
  | .clearBinds => { st with binds := ∅ }

variable {st : ChannelState} {a : Access}

theorem senders_le_access : st.senders ≤ (st.access a).senders := by
  cases a <;> simp [access, newSender, insertWaiter, removeWaiter, removeConn, removeBind, nextSeq]

theorem access_conns {k : UInt32} {q : SenderId} (h : (st.access a).conns[k]? = some q) :
    st.conns[k]? = some q ∨ (a = .registerConn k ∧ q = st.senders) := by
  cases a with
  | registerConn connId =>
    simp only [access, newSender, registerConn_conns] at h
    grind [lookup_insert]
  | removeConn connId =>
    simp only [access, removeConn, lookup_erase] at h
    grind
  | clearConns => simp [access] at h
  | _ => exact .inl (by simpa [access, newSender, insertWaiter, removeWaiter, removeBind, nextSeq]
      using h)

theorem access_binds {k : UInt32} {q : SenderId} (h : (st.access a).binds[k]? = some q) :
    st.binds[k]? = some q ∨ (a = .registerBind k ∧ q = st.senders) := by
  cases a with
  | registerBind connId =>
    simp only [access, newSender, registerBind_binds] at h
    grind [lookup_insert]
  | removeBind connId =>
    simp only [access, removeBind, lookup_erase] at h
    grind
  | clearBinds => simp [access] at h
  | _ => exact .inl (by simpa [access, newSender, insertWaiter, removeWaiter, removeConn, nextSeq]
      using h)

theorem access_waiters {k : Int32} {w : SenderId} (h : (st.access a).waiters[k]? = some w) :
    st.waiters[k]? = some w ∨ (a = .insertWaiter k ∧ w = st.senders) := by
  cases a with
  | insertWaiter seq =>
    simp only [access, newSender, insertWaiter, lookup_insert] at h
    grind
  | removeWaiter seq =>
    simp only [access, removeWaiter, lookup_erase] at h
    grind
  | clearWaiters => simp [access] at h
  | _ => exact .inl (by simpa [access, newSender, removeConn, removeBind, nextSeq] using h)

theorem closed_of_access (h : (st.access a).closed = false) : st.closed = false := by
  cases a <;> simp_all [access, newSender, insertWaiter, removeWaiter, removeConn, removeBind, nextSeq]

/-- What the accesses of any number of tasks, in any order, can lead to. -/
def Reachable (st : ChannelState) : Prop := ∃ as : List Access, as.foldl access new = st

/-- Every registered sender has been created, and no two request waiters share one. -/
structure Fresh (st : ChannelState) : Prop where
  waiters_lt : ∀ (k : Int32) (w : SenderId), st.waiters[k]? = some w → w < st.senders
  conns_lt : ∀ (k : UInt32) (q : SenderId), st.conns[k]? = some q → q < st.senders
  binds_lt : ∀ (k : UInt32) (q : SenderId), st.binds[k]? = some q → q < st.senders
  waiters_inj : ∀ (k k' : Int32) (w : SenderId),
    st.waiters[k]? = some w → st.waiters[k']? = some w → k = k'

theorem fresh_new : Fresh new := by
  constructor <;> simp [new]

theorem fresh_access (h : st.Fresh) (a : Access) : (st.access a).Fresh := by
  have hle : st.senders ≤ (st.access a).senders := senders_le_access
  refine ⟨fun k w hk => ?_, fun k q hk => ?_, fun k q hk => ?_, fun k k' w hk hk' => ?_⟩
  · rcases access_waiters hk with hold | ⟨rfl, rfl⟩
    · exact (h.waiters_lt k w hold).trans_le hle
    · simp [access, newSender, insertWaiter]
  · rcases access_conns hk with hold | ⟨rfl, rfl⟩
    · exact (h.conns_lt k q hold).trans_le hle
    · simp [access, newSender]
  · rcases access_binds hk with hold | ⟨rfl, rfl⟩
    · exact (h.binds_lt k q hold).trans_le hle
    · simp [access, newSender]
  · rcases access_waiters hk with hold | ⟨ha, hw⟩ <;>
      rcases access_waiters hk' with hold' | ⟨ha', hw'⟩
    · exact h.waiters_inj k k' w hold hold'
    · exact absurd hw' (h.waiters_lt k w hold).ne
    · exact absurd hw (h.waiters_lt k' w hold').ne
    · rw [ha] at ha'
      cases ha'
      rfl

theorem fresh_accesses (h : st.Fresh) (as : List Access) : (as.foldl access st).Fresh := by
  induction as generalizing st with
  | nil => exact h
  | cons a as ih => exact ih (fresh_access h a)

theorem Reachable.fresh (h : st.Reachable) : st.Fresh := by
  obtain ⟨as, rfl⟩ := h
  exact fresh_accesses fresh_new as

end ChannelState

end Noa.Edge.Data
