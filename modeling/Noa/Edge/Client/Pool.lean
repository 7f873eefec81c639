import Noa.Framework.Crew
import Noa.Framework.Map
import Noa.Framework.Text
import Noa.Framework.Tickets

namespace Noa.Edge.Client
open Noa.Framework
open Noa.Framework.Program (lift)

/-- A channel as the pool sees it; `rxTask` is the receive task, if it is there, and whether it has
finished. -/
structure EdgeChannel where
  closed : Bool
  rxTask : Option Bool
  latencySumNanos : UInt64
  latencyCount : UInt64
  deriving DecidableEq

namespace EdgeChannel

def isAlive (c : EdgeChannel) : Bool := !c.closed && c.rxTask.any (!·)

def recordLatency (c : EdgeChannel) (nanos : UInt64) : EdgeChannel :=
  { c with
    latencySumNanos := c.latencySumNanos + nanos
    latencyCount := c.latencyCount + 1 }

/-- The greatest value if there is no sample. -/
def meanLatencyNanos (c : EdgeChannel) : UInt64 :=
  if c.latencyCount = 0 then 0xFFFFFFFFFFFFFFFF else c.latencySumNanos / c.latencyCount

/-- A channel right after its handshake, seeded with the time that took. -/
def opened (connectNanos : UInt64) : EdgeChannel :=
  recordLatency ⟨false, some false, 0, 0⟩ connectNanos

end EdgeChannel

/-- The pool, the channels opened so far (a channel is its number there) and the registry of live
channels. `pooled` and `registered` are the records of an observer: what was ever put into each. -/
structure Routers where
  pool : Std.ExtTreeMap String Nat
  channels : List EdgeChannel
  live : List Nat
  pooled : List Nat
  registered : List Nat

namespace Routers

def empty : Routers := ⟨∅, [], [], [], []⟩

variable (s : Routers)

def alive (c : Nat) : Bool := (s.channels[c]?).any (·.isAlive)

def mean (c : Nat) : Nat := ((s.channels[c]?).map (·.meanLatencyNanos.toNat)).getD 0

/-- An alive channel pooled for the address. -/
def aliveAt (addr : String) : Option Nat := (s.pool[addr]?).filter s.alive

/-- A dead channel is pooled for the address. -/
def deadAt (addr : String) : Bool := (s.pool[addr]?).any fun c => !s.alive c

def poolGetAliveOne (addr : String) : Option Nat × Routers :=
  match s.pool[addr]? with
  | some c => if s.alive c then (some c, s) else (none, { s with pool := s.pool.erase addr })
  | none => (none, s)

/-- The dead addresses and the candidates with their latencies, as the scan has them so far. -/
def scan (acc : List String × List (Nat × Nat)) (addr : String) :
    List String × List (Nat × Nat) :=
  match s.pool[addr]? with
  | some c => if s.alive c then (acc.1, acc.2 ++ [(s.mean c, c)]) else (acc.1 ++ [addr], acc.2)
  | none => acc

def poolGetAlive (addrs : List String) : Option Nat × Routers :=
  let (dead, candidates) := addrs.foldl s.scan ([], [])
  let pool := dead.foldl (fun m addr => m.erase addr) s.pool
  ((candidates.argmin (·.1)).map (·.2), { s with pool })

/-- The lock section of `pool_store_or_reuse_into`: the channel to reuse, or the new one goes in. -/
def storeOrReuse (addr : String) (channel : Nat) : Option Nat × Routers :=
  match (s.pool[addr]?).filter s.alive with
  | some existing => (some existing, s)
  | none => (none, { s with pool := s.pool.insert addr channel, pooled := channel :: s.pooled })

/-- The entries of channels that are gone leave the registry; none that the pool holds is gone. -/
def prune (gone : List Nat) : Option Routers :=
  if gone.any fun c => s.pool.toList.any fun entry => entry.2 == c then none
  else some { s with live := s.live.filter fun c => !gone.contains c }

def modifyChannel (c : Nat) (f : EdgeChannel → EdgeChannel) : Routers :=
  { s with channels := s.channels.modify c f }

end Routers

section Address

def rsplitOnce (sep : Char) (s : Text) : Option (Text × Text) :=
  (splitOnce sep s.reverse).map fun r => (r.2.reverse, r.1.reverse)

def splitHostPort : Text → Option (Text × Text)
  | '[' :: rest =>
    match splitOnce ']' rest with
    | some (host, ':' :: port) => some (host, port)
    | _ => none
  | hp => rsplitOnce ':' hp

inductive OpenError where
  | addressParse (message : String)
  | dial (message : String)
  deriving DecidableEq

def parseTlsAddress (s : String) : Except OpenError (Text × Nat) :=
  match s.toList.dropPrefix? "tls:".toList with
  | none => .error (.addressParse ("not a tls address: " ++ s))
  | some hostPort =>
    match splitHostPort hostPort with
    | none => .error (.addressParse ("invalid host:port in " ++ s))
    | some (host, port) =>
      match parseUnsigned 65536 port with
      | none => .error (.addressParse ("invalid port in " ++ s))
      | some port => .ok (host, port)

end Address

/-- The lock sections of the pool and of the registry, the dial, and the end of a channel. -/
inductive PoolCmd : Type → Type
  | getAliveOne (addr : String) : PoolCmd (Option Nat)
  | dialHandshake (host : Text) (port : Nat) : PoolCmd (Except OpenError Nat)
  | storeOrReuse (addr : String) (channel : Nat) : PoolCmd (Option Nat)
  | dropChannel (channel : Nat) : PoolCmd Unit
  | registerLive (channel : Nat) : PoolCmd Unit
  | getAlive (addrs : List String) : PoolCmd (Option Nat)

/-- How a dial ends, and which registered channels are gone. -/
inductive PoolChoice where
  | done
  | failed (message : String)
  | opened (connectNanos : UInt64)
  | gone (channels : List Nat)

/-- What happens to channels meanwhile. -/
inductive ChannelEvent where
  | close (channel : Nat)
  | rxExit (channel : Nat)
  | sample (channel : Nat) (nanos : UInt64)
  | prune (gone : List Nat)

namespace PoolCmd

variable {β : Type}

def exec (c : PoolCmd β) (x : PoolChoice) (s : Routers) : Option (β × Routers) :=
  match c with
  | .getAliveOne addr => some (s.poolGetAliveOne addr)
  | .dialHandshake _ _ =>
    match x with
    | .failed message => some (.error (.dial message), s)
    | .opened connectNanos =>
      some (.ok s.channels.length, { s with channels := s.channels ++ [.opened connectNanos] })
    | _ => none
  | .storeOrReuse addr channel => some (s.storeOrReuse addr channel)
  | .dropChannel channel =>
    some ((), s.modifyChannel channel fun c => { c with closed := true, rxTask := none })
  | .registerLive channel =>
    match x with
    | .gone gone => (s.prune gone).map fun s => ((), { s with
        live := s.live ++ [channel]
        registered := channel :: s.registered })
    | _ => none
  | .getAlive addrs => some (s.poolGetAlive addrs)

def isAwait : PoolCmd β → Bool
  | .dialHandshake _ _ => true
  | _ => false

end PoolCmd

def ChannelEvent.apply (s : Routers) : ChannelEvent → Option Routers
  | .close c => some (s.modifyChannel c fun ch => { ch with closed := true })
  | .rxExit c => some (s.modifyChannel c fun ch => { ch with rxTask := ch.rxTask.map fun _ => true })
  | .sample c nanos => some (s.modifyChannel c (·.recordLatency nanos))
  | .prune gone => s.prune gone

def poolEffects : Effects PoolCmd Routers Unit ChannelEvent PoolChoice where
  exec := fun c x _ s => (c.exec x s).map fun r => (r.1, (), r.2)
  env := fun e s => e.apply s
  idle := ()
  release := fun _ s => s
  droppable := PoolCmd.isAwait

abbrev PoolProc := Program PoolCmd

def poolStoreOrReuseInto (addr : String) (channel : Nat) : PoolProc Nat := do
  match ← lift (.storeOrReuse addr channel) with
  | some existing =>
    lift (.dropChannel channel)
    pure existing
  | none =>
    lift (.registerLive channel)
    pure channel

def openAndPoolRouter (addr : String) : PoolProc (Except OpenError Nat) := do
  match ← lift (.getAliveOne addr) with
  | some existing => pure (.ok existing)
  | none =>
    match parseTlsAddress addr with
    | .error e => pure (.error e)
    | .ok (host, port) =>
      match ← lift (.dialHandshake host port) with
      | .error e => pure (.error e)
      | .ok channel =>
        let pooled ← poolStoreOrReuseInto addr channel
        pure (.ok pooled)

/-- The users of the pool; a direct store comes with a channel its caller has opened. -/
inductive PoolOp where
  | openAndPoolRouter (addr : String)
  | poolGetAlive (addrs : List String)
  | poolStoreOrReuseInto (addr : String) (host : Text) (port : Nat)

def PoolOp.prog : PoolOp → PoolProc Unit
  | .openAndPoolRouter addr => do
    let _ ← Client.openAndPoolRouter addr
  | .poolGetAlive addrs => do
    let _ ← lift (.getAlive addrs)
  | .poolStoreOrReuseInto addr host port => do
    match ← lift (.dialHandshake host port) with
    | .error _ => pure ()
    | .ok channel =>
      let _ ← Client.poolStoreOrReuseInto addr channel

abbrev PoolTasks := Crew PoolCmd Routers Unit

abbrev PoolTaskAct := PoolAct PoolOp ChannelEvent PoolChoice

def poolStep (s : PoolTasks) (a : PoolTaskAct) : Option PoolTasks := s.step poolEffects PoolOp.prog a

def PoolTasks.start : PoolTasks := ⟨[], .empty⟩

section Select

theorem argmin_split {α β : Type*} [LinearOrder β] {f : α → β} {l : List α} {m : α}
    (h : l.argmin f = some m) :
    ∃ before after, l = before ++ m :: after ∧ (∀ a ∈ before, f m < f a) ∧ ∀ a ∈ l, f m ≤ f a := by
  have hle : ∀ a ∈ l, f m ≤ f a := fun a ha => List.le_of_mem_argmin ha h
  induction l with
  | nil => cases h
  | cons a l ih =>
    rw [List.argmin_cons] at h
    rcases hl : l.argmin f with _ | c
    · rw [hl] at h
      cases h
      exact ⟨[], l, rfl, nofun, hle⟩
    · rw [hl] at h
      dsimp only at h
      split_ifs at h with hlt
      · cases h
        obtain ⟨before, after, rfl, hbefore, -⟩ := ih hl fun b hb => hle b (List.mem_cons_of_mem a hb)
        refine ⟨a :: before, after, rfl, ?_, hle⟩
        intro b hb
        obtain rfl | hb := List.mem_cons.mp hb
        · exact hlt
        · exact hbefore b hb
      · cases h
        exact ⟨[], l, rfl, nofun, hle⟩

namespace Routers

variable {s : Routers} {addr : String} {c : Nat}

theorem aliveAt_eq_some : s.aliveAt addr = some c ↔ s.pool[addr]? = some c ∧ s.alive c = true := by
  rw [aliveAt, Option.filter_eq_some_iff]

theorem deadAt_iff : s.deadAt addr = true ↔ ∃ c, s.pool[addr]? = some c ∧ s.alive c = false := by
  simp [deadAt, Option.any_eq_true]

/-- The entry of an address that gives a candidate. -/
def candidate (s : Routers) (addr : String) : Option (Nat × Nat) :=
  (s.aliveAt addr).map fun c => (s.mean c, c)

theorem foldl_scan (addrs : List String) (acc : List String × List (Nat × Nat)) :
    addrs.foldl s.scan acc =
      (acc.1 ++ addrs.filter s.deadAt, acc.2 ++ addrs.filterMap s.candidate) := by
  induction addrs generalizing acc with
  | nil => simp
  | cons addr addrs ih =>
    rw [List.foldl_cons, ih, List.filter_cons, List.filterMap_cons]
    rcases hp : s.pool[addr]? with _ | c
    · simp [scan, deadAt, candidate, aliveAt, hp]
    · cases ha : s.alive c <;> simp [scan, deadAt, candidate, aliveAt, hp, ha, Option.filter]

/-- The first alive channel of the least latency among those pooled for the addresses. -/
def Best (s : Routers) (addrs : List String) (c : Nat) : Prop :=
  ∃ before addr after, addrs = before ++ addr :: after ∧ s.aliveAt addr = some c ∧
    (∀ a ∈ addrs, ∀ c', s.aliveAt a = some c' → s.mean c ≤ s.mean c') ∧
    ∀ a ∈ before, ∀ c', s.aliveAt a = some c' → s.mean c < s.mean c'

theorem poolGetAlive_none (addrs : List String) :
    (s.poolGetAlive addrs).1 = none ↔ ∀ addr ∈ addrs, s.aliveAt addr = none := by
  simp only [poolGetAlive, foldl_scan, List.nil_append, Option.map_eq_none_iff,
    List.argmin_eq_none, List.filterMap_eq_nil_iff, candidate]

theorem poolGetAlive_best {addrs : List String} (h : (s.poolGetAlive addrs).1 = some c) :
    s.Best addrs c := by
  simp only [poolGetAlive, foldl_scan, List.nil_append] at h
  obtain ⟨⟨m, c'⟩, hmin, rfl⟩ := Option.map_eq_some_iff.mp h
  obtain ⟨before, after, hl, hbefore, hle⟩ := argmin_split hmin
  obtain ⟨l₁, l₂, rfl, rfl, hafter⟩ := List.filterMap_eq_append_iff.mp hl
  obtain ⟨none₁, addr, rest, rfl, hnone, haddr, -⟩ := List.filterMap_eq_cons_iff.mp hafter
  obtain ⟨c, hc, hmc⟩ := Option.map_eq_some_iff.mp haddr
  cases hmc
  have hcandidate {a : String} {c' : Nat} (hc' : s.aliveAt a = some c') :
      s.candidate a = some (s.mean c', c') := by rw [candidate, hc']; rfl
  refine ⟨l₁ ++ none₁, addr, rest, by simp, hc, ?_, ?_⟩
  · intro a ha c' hc'
    exact hle (s.mean c', c') (List.mem_filterMap.mpr ⟨a, ha, hcandidate hc'⟩)
  · intro a ha c' hc'
    obtain ha | ha := List.mem_append.mp ha
    · exact hbefore (s.mean c', c') (List.mem_filterMap.mpr ⟨a, ha, hcandidate hc'⟩)
    · cases (hcandidate hc').symm.trans (hnone a ha)

theorem poolGetAlive_pool (addrs : List String) (addr : String) :
    (s.poolGetAlive addrs).2.pool[addr]? =
      if addr ∈ addrs ∧ s.deadAt addr = true then none else s.pool[addr]? := by
  simp only [poolGetAlive, foldl_scan, List.nil_append]
  rw [lookup_foldl_erase fun a => a]
  simp only [List.map_id_fun', id, List.mem_filter]

end Routers

end Select

/-- Where a task is with its channel: opened and not yet offered to the pool, or in the pool and not
yet registered. -/
structure OpenUse where
  opened : Option Nat
  entered : Option Nat

def OpenUse.idle : OpenUse := ⟨none, none⟩

/-- A channel is offered to the pool by the task that opened it, and one that went in is registered
before anything else. -/
def opening : Discipline PoolCmd OpenUse where
  may := fun st c =>
    match c with
    | .storeOrReuse _ channel => st.entered = none ∧ st.opened = some channel
    | .registerLive channel => st.entered = some channel
    | _ => st.entered = none
  next := fun st c =>
    match c with
    | .dialHandshake _ _ => fun
      | .ok channel => ⟨some channel, none⟩
      | .error _ => .idle
    | .storeOrReuse _ channel => fun
      | some _ => .idle
      | none => ⟨none, some channel⟩
    | .registerLive _ => fun _ => .idle
    | _ => fun _ => st
  done := fun st => st.entered = none

namespace OpenUse

theorem ensures_poolStoreOrReuseInto (addr : String) (channel : Nat) :
    (poolStoreOrReuseInto addr channel).Ensures opening (fun _ st' => st'.entered = none)
      ⟨some channel, none⟩ := by
  simp only [poolStoreOrReuseInto, Program.lift_bind]
  refine .call ⟨rfl, rfl⟩ fun r => ?_
  cases r with
  | some existing => exact ⟨rfl, fun _ => rfl⟩
  | none => exact ⟨rfl, fun _ => rfl⟩

theorem obeys_prog (op : PoolOp) {st : OpenUse} (hst : st.entered = none) :
    op.prog.Obeys opening st := by
  cases op with
  | openAndPoolRouter addr =>
    simp only [PoolOp.prog, openAndPoolRouter, Program.lift_bind, Program.call_bind]
    refine .call hst fun r => ?_
    split
    · exact hst
    · split
      · exact hst
      · refine .call hst fun r => ?_
        cases r with
        | error e => exact rfl
        | ok channel =>
          have hopen : (poolStoreOrReuseInto addr channel >>= fun pooled =>
              pure (Except.ok (ε := OpenError) pooled)).Ensures opening
              (fun _ st' => st'.entered = none) ⟨some channel, none⟩ :=
            (ensures_poolStoreOrReuseInto addr channel).bind fun _ _ h => h
          exact hopen.bind fun _ _ h => h
  | poolGetAlive addrs => exact ⟨hst, fun _ => hst⟩
  | poolStoreOrReuseInto addr host port =>
    simp only [PoolOp.prog, Program.lift_bind]
    refine .call hst fun r => ?_
    cases r with
    | error e => exact rfl
    | ok channel =>
      exact (ensures_poolStoreOrReuseInto addr channel).bind fun _ _ h => h

end OpenUse

/-- Every channel is offered to the pool once and, once in, is registered once; the registry keeps
the ones the pool holds. -/
structure Pooling (g : Nat → Unit × OpenUse) (s : Routers) : Prop where
  opened : Tickets (fun c => c < s.channels.length) (fun c => c ∈ s.pooled) fun i => (g i).2.opened
  entered : Tickets (fun c => c ∈ s.pooled) (fun c => c ∈ s.registered) fun i => (g i).2.entered
  settled : ∀ c ∈ s.pooled, c ∈ s.registered ∨ ∃ i, (g i).2.entered = some c
  registered : s.registered.Nodup
  live : s.live.Nodup ∧ s.live ⊆ s.registered
  pool : ∀ (addr : String) c, s.pool[addr]? = some c → c ∈ s.pooled
  kept : ∀ (addr : String) c, s.pool[addr]? = some c → c ∈ s.registered → c ∈ s.live
  one : ∀ (a b : String) c, s.pool[a]? = some c → s.pool[b]? = some c → a = b

section Pooling

variable {g : Nat → Unit × OpenUse} {s s' : Routers} {i : Nat} {u : OpenUse}

theorem Pooling.start : Pooling (fun _ => ((), OpenUse.idle)) .empty := by
  constructor
  · exact tickets_none nofun
  · exact tickets_none nofun
  · intro c hc
    cases hc
  · exact List.nodup_nil
  · exact ⟨List.nodup_nil, List.Subset.refl _⟩
  all_goals
    intro a
    simp [Routers.empty]

theorem Pooling.keep (h : Pooling g s) (hpooled : s'.pooled = s.pooled)
    (hregistered : s'.registered = s.registered)
    (hpool : ∀ (addr : String) c, s'.pool[addr]? = some c → s.pool[addr]? = some c)
    (hlive : s'.live.Sublist s.live)
    (hkept : ∀ (addr : String) c, s'.pool[addr]? = some c → c ∈ s.live → c ∈ s'.live)
    (hopened : TicketStep (fun c => c < s.channels.length) (fun c => c < s'.channels.length)
      (fun c => c ∈ s.pooled) (fun c => c ∈ s'.pooled) (g i).2.opened u.opened)
    (hentered : u.entered = (g i).2.entered) :
    Pooling (Function.update g i ((), u)) s' := by
  constructor
  · exact h.opened.step (f := fun p : Unit × OpenUse => p.2.opened) (x := ((), u)) hopened
  · refine h.entered.step (f := fun p : Unit × OpenUse => p.2.entered) (x := ((), u)) ?_
    rw [hpooled, hregistered]
    exact .keep (fun _ h => h) (fun _ h => h) (.inr hentered)
  · intro c hc
    rw [hpooled] at hc
    rw [hregistered]
    refine (h.settled c hc).imp_right ?_
    rintro ⟨j, hj⟩
    refine ⟨j, ?_⟩
    rw [Function.update_apply]
    split_ifs with hji
    · rw [hentered, ← hji]
      exact hj
    · exact hj
  · rw [hregistered]
    exact h.registered
  · rw [hregistered]
    exact ⟨h.live.1.sublist hlive, List.Subset.trans hlive.subset h.live.2⟩
  · intro addr c hc
    rw [hpooled]
    exact h.pool addr c (hpool addr c hc)
  · intro addr c hc hreg
    rw [hregistered] at hreg
    exact hkept addr c hc (h.kept addr c (hpool addr c hc) hreg)
  · intro a b c ha hb
    exact h.one a b c (hpool a c ha) (hpool b c hb)

theorem Pooling.store (h : Pooling g s) {addr : String} {channel : Nat}
    (hentered : (g i).2.entered = none) (hopened : (g i).2.opened = some channel) :
    Pooling (Function.update g i ((), ⟨none, some channel⟩))
      { s with pool := s.pool.insert addr channel, pooled := channel :: s.pooled } := by
  have hnew : channel ∉ s.pooled := h.opened.unspent i channel hopened
  have hpool (a : String) (c : Nat) (hc : (s.pool.insert addr channel)[a]? = some c) :
      c = channel ∧ a = addr ∨ s.pool[a]? = some c := by
    rw [lookup_insert] at hc
    split_ifs at hc with heq
    · exact .inl ⟨(Option.some.inj hc).symm, heq.symm⟩
    · exact .inr hc
  have hunregistered : channel ∉ s.registered := fun hr => hnew (h.entered.spentKnown channel hr)
  constructor
  · refine h.opened.step (f := fun p : Unit × OpenUse => p.2.opened) (x := ((), _))
      (.spend channel hopened (fun _ h => h) (fun _ hc => List.mem_cons.mp hc) rfl)
  · refine h.entered.step (f := fun p : Unit × OpenUse => p.2.entered) (x := ((), _))
      (.issue channel hnew (fun _ => List.mem_cons_of_mem channel) List.mem_cons_self
        (fun _ h => h) rfl)
  · intro c hc
    obtain rfl | hc := List.mem_cons.mp hc
    · refine .inr ⟨i, ?_⟩
      rw [Function.update_self]
    · refine (h.settled c hc).imp_right ?_
      rintro ⟨j, hj⟩
      refine ⟨j, ?_⟩
      rw [Function.update_of_ne]
      · exact hj
      · rintro rfl
        rw [hentered] at hj
        cases hj
  · exact h.registered
  · exact h.live
  · intro a c hc
    obtain ⟨rfl, -⟩ | hc := hpool a c hc
    · exact List.mem_cons_self
    · exact List.mem_cons_of_mem channel (h.pool a c hc)
  · intro a c hc hreg
    obtain ⟨rfl, -⟩ | hc := hpool a c hc
    · exact absurd hreg hunregistered
    · exact h.kept a c hc hreg
  · intro a b c ha hb
    obtain ⟨hc, ha⟩ | ha' := hpool a c ha <;> obtain ⟨hc', hb'⟩ | hb' := hpool b c hb
    · exact ha.trans hb'.symm
    · exact absurd (hc ▸ h.pool b c hb') hnew
    · exact absurd (hc' ▸ h.pool a c ha') hnew
    · exact h.one a b c ha' hb'

end Pooling

section Exec

variable {g : Nat → Unit × OpenUse} {s s' : Routers} {i : Nat} {β : Type} {c : PoolCmd β}
  {x : PoolChoice} {r : β × Routers}

theorem prune_spec {gone : List Nat} (h : s.prune gone = some s') :
    (∀ c ∈ gone, ∀ addr : String, s.pool[addr]? ≠ some c) ∧
      s' = { s with live := s.live.filter fun c => !gone.contains c } := by
  unfold Routers.prune at h
  split_ifs at h with hgone
  refine ⟨fun c hc addr hin => hgone ?_, (Option.some.inj h).symm⟩
  refine List.any_eq_true.mpr ⟨c, hc, List.any_eq_true.mpr ⟨(addr, c), ?_, beq_self_eq_true c⟩⟩
  exact Std.ExtTreeMap.mem_toList_iff_getElem?_eq_some.mpr hin

theorem prune_kept {gone : List Nat} (h : s.prune gone = some s') {addr : String} {c : Nat}
    (hc : s.pool[addr]? = some c) (hlive : c ∈ s.live) : c ∈ s'.live := by
  obtain ⟨hgone, rfl⟩ := prune_spec h
  refine List.mem_filter.mpr ⟨hlive, ?_⟩
  rw [Bool.not_eq_true', ← Bool.not_eq_true, List.contains_iff_mem]
  exact fun hin => hgone c hin addr hc

theorem Pooling.register (h : Pooling g s) {channel : Nat} {gone : List Nat}
    (hentered : (g i).2.entered = some channel) (hs : s.prune gone = some s') :
    Pooling (Function.update g i ((), .idle)) { s' with
      live := s'.live ++ [channel]
      registered := channel :: s'.registered } := by
  have hkept := @prune_kept s s' gone hs
  obtain ⟨-, rfl⟩ := prune_spec hs
  have hnew : channel ∉ s.registered := h.entered.unspent i channel hentered
  constructor
  · exact h.opened.step (f := fun p : Unit × OpenUse => p.2.opened) (x := ((), .idle))
      (.keep (fun _ h => h) (fun _ h => h) (.inl rfl))
  · exact h.entered.step (f := fun p : Unit × OpenUse => p.2.entered) (x := ((), .idle))
      (.spend channel hentered (fun _ h => h) (fun _ hc => List.mem_cons.mp hc) rfl)
  · intro c hc
    obtain hreg | ⟨j, hj⟩ := h.settled c hc
    · exact .inl (List.mem_cons_of_mem channel hreg)
    · by_cases hji : j = i
      · subst hji
        obtain rfl := Option.some.inj (hentered.symm.trans hj)
        exact .inl List.mem_cons_self
      · refine .inr ⟨j, ?_⟩
        rw [Function.update_of_ne hji]
        exact hj
  · exact List.nodup_cons.mpr ⟨hnew, h.registered⟩
  · have hsub : s.live.filter (fun c => !gone.contains c) ⊆ s.registered :=
      List.Subset.trans (List.filter_sublist.subset) h.live.2
    constructor
    · refine List.nodup_append.mpr ⟨h.live.1.filter _, List.nodup_singleton _, ?_⟩
      rintro a ha b hb rfl
      obtain rfl := List.mem_singleton.mp hb
      exact hnew (hsub ha)
    · intro c hc
      obtain hc | hc := List.mem_append.mp hc
      · exact List.mem_cons_of_mem channel (hsub hc)
      · exact List.mem_cons.mpr (.inl (List.mem_singleton.mp hc))
  · exact h.pool
  · intro addr c hc hreg
    obtain rfl | hreg := List.mem_cons.mp hreg
    · exact List.mem_append_right _ (List.mem_singleton_self c)
    · exact List.mem_append_left _ (hkept hc (h.kept addr c hc hreg))
  · exact h.one

theorem poolGetAliveOne_spec (s : Routers) (addr : String) :
    ∃ pool, (s.poolGetAliveOne addr).2 = { s with pool } ∧ ∀ a : String,
      pool[a]? = if a = addr ∧ s.deadAt addr = true then none else s.pool[a]? := by
  unfold Routers.poolGetAliveOne Routers.deadAt
  rcases hp : s.pool[addr]? with _ | c
  · exact ⟨s.pool, rfl, by simp⟩
  · cases ha : s.alive c with
    | true => exact ⟨s.pool, by simp [ha], by simp [ha]⟩
    | false =>
      refine ⟨s.pool.erase addr, by simp [ha], fun a => ?_⟩
      rw [lookup_erase]
      simp [ha, eq_comm]

theorem poolGetAlive_spec (s : Routers) (addrs : List String) :
    ∃ pool, (s.poolGetAlive addrs).2 = { s with pool } ∧ ∀ a : String,
      pool[a]? = if a ∈ addrs ∧ s.deadAt a = true then none else s.pool[a]? :=
  ⟨_, rfl, Routers.poolGetAlive_pool addrs⟩

theorem storeOrReuse_spec (s : Routers) (addr : String) (channel : Nat) :
    (∃ c, s.aliveAt addr = some c ∧ s.storeOrReuse addr channel = (some c, s)) ∨
      s.aliveAt addr = none ∧ s.storeOrReuse addr channel = (none, { s with
        pool := s.pool.insert addr channel, pooled := channel :: s.pooled }) := by
  rcases h : s.aliveAt addr with _ | c
  · refine .inr ⟨rfl, ?_⟩
    unfold Routers.aliveAt at h
    rw [Routers.storeOrReuse, h]
  · refine .inl ⟨c, rfl, ?_⟩
    unfold Routers.aliveAt at h
    rw [Routers.storeOrReuse, h]

theorem Pooling.forget (h : Pooling g s) {pool : Std.ExtTreeMap String Nat}
    {gone : String → Prop} [DecidablePred gone]
    (hpool : ∀ a : String, pool[a]? = if gone a then none else s.pool[a]?) (v : Unit) :
    Pooling (Function.update g i (v, (g i).2)) { s with pool } := by
  refine h.keep rfl rfl ?_ (List.Sublist.refl _) (fun _ _ _ hlive => hlive)
    (.keep (fun _ h => h) (fun _ h => h) (.inr rfl)) rfl
  intro addr c hc
  change pool[addr]? = some c at hc
  rw [hpool] at hc
  split_ifs at hc
  exact hc

theorem Pooling.modify (h : Pooling g s) (c : Nat) (f : EdgeChannel → EdgeChannel) {u : OpenUse}
    (hu : u.opened = none ∨ u.opened = (g i).2.opened) (hentered : u.entered = (g i).2.entered) :
    Pooling (Function.update g i ((), u)) (s.modifyChannel c f) := by
  refine h.keep rfl rfl (fun _ _ hc => hc) (List.Sublist.refl _) (fun _ _ _ hlive => hlive)
    (.keep (fun c hc => ?_) (fun _ h => h) hu) hentered
  rw [Routers.modifyChannel, List.length_modify]
  exact hc

theorem Pooling.exec (h : Pooling g s) (hmay : opening.may (g i).2 c) (hx : c.exec x s = some r) :
    Pooling (Function.update g i ((), opening.next (g i).2 c r.1)) r.2 := by
  cases c with
  | getAliveOne addr =>
    cases hx
    obtain ⟨pool, heq, hpool⟩ := poolGetAliveOne_spec s addr
    rw [heq]
    exact h.forget hpool ()
  | getAlive addrs =>
    cases hx
    obtain ⟨pool, heq, hpool⟩ := poolGetAlive_spec s addrs
    rw [heq]
    exact h.forget hpool ()
  | dialHandshake host port =>
    cases x with
    | failed message =>
      cases hx
      exact h.keep rfl rfl (fun _ _ hc => hc) (List.Sublist.refl _) (fun _ _ _ hlive => hlive)
        (.keep (fun _ h => h) (fun _ h => h) (.inl rfl)) hmay.symm
    | opened connectNanos =>
      cases hx
      refine h.keep rfl rfl (fun _ _ hc => hc) (List.Sublist.refl _) (fun _ _ _ hlive => hlive)
        (.issue s.channels.length (lt_irrefl _) (fun c hc => ?_) ?_ (fun _ h => h) rfl) hmay.symm
      · rw [List.length_append, List.length_singleton]
        omega
      · rw [List.length_append, List.length_singleton]
        omega
    | _ => cases hx
  | storeOrReuse addr channel =>
    cases hx
    obtain ⟨hentered, hopened⟩ := hmay
    obtain ⟨c, -, heq⟩ | ⟨-, heq⟩ := storeOrReuse_spec s addr channel
    · rw [heq]
      exact h.keep rfl rfl (fun _ _ hc => hc) (List.Sublist.refl _) (fun _ _ _ hlive => hlive)
        (.keep (fun _ h => h) (fun _ h => h) (.inl rfl)) hentered.symm
    · rw [heq]
      exact h.store hentered hopened
  | dropChannel channel =>
    cases hx
    exact h.modify channel _ (.inr rfl) rfl
  | registerLive channel =>
    cases x with
    | gone gone =>
      obtain ⟨s', hs, hr⟩ := Option.map_eq_some_iff.mp hx
      cases hr
      exact h.register hmay hs
    | _ => cases hx

theorem Pooling.event (h : Pooling g s) {e : ChannelEvent} (he : e.apply s = some s') :
    Pooling g s' := by
  rw [← Function.update_eq_self 0 g]
  cases e with
  | close c | rxExit c =>
    cases he
    exact h.modify c _ (.inr rfl) rfl
  | sample c nanos =>
    cases he
    exact h.modify c _ (.inr rfl) rfl
  | prune gone =>
    have hkept (addr : String) (c : Nat) := @prune_kept s s' gone he addr c
    obtain ⟨-, rfl⟩ := prune_spec he
    exact h.keep rfl rfl (fun _ _ hc => hc) List.filter_sublist hkept
      (.keep (fun _ h => h) (fun _ h => h) (.inr rfl)) rfl

theorem pooling_tracks :
    Crew.Tracks poolEffects PoolOp.prog (fun _ _ _ => True) opening .idle Pooling where
  spawn := fun op => OpenUse.obeys_prog op rfl
  lost := rfl
  exec := by
    intro γ c x g i s r h hmay _ hx
    obtain ⟨r, hexec, rfl⟩ := Option.map_eq_some_iff.mp hx
    exact h.exec hmay hexec
  drop := by
    intro γ c g i s h hmay hawait
    cases c with
    | dialHandshake host port =>
      exact h.keep rfl rfl (fun _ _ hc => hc) (List.Sublist.refl _) (fun _ _ _ hlive => hlive)
        (.keep (fun _ h => h) (fun _ h => h) (.inl rfl)) hmay.symm
    | _ => cases hawait
  env := fun _ _ _ _ he h => h.event he

theorem exec_aliveAt (hx : c.exec x s = some r) {addr : String} {ch : Nat}
    (h : s.aliveAt addr = some ch) : r.2.pool[addr]? = some ch := by
  have hpooled := (Routers.aliveAt_eq_some.mp h).1
  have hdead : s.deadAt addr = false := by
    rw [← Bool.not_eq_true, Routers.deadAt_iff]
    rintro ⟨ch', hch', hdead⟩
    obtain rfl := Option.some.inj (hpooled.symm.trans hch')
    rw [(Routers.aliveAt_eq_some.mp h).2] at hdead
    cases hdead
  cases c with
  | getAliveOne a =>
    cases hx
    obtain ⟨pool, heq, hpool⟩ := poolGetAliveOne_spec s a
    rw [heq]
    refine (hpool addr).trans ((if_neg ?_).trans hpooled)
    rintro ⟨rfl, hd⟩
    rw [hdead] at hd
    cases hd
  | getAlive addrs =>
    cases hx
    rw [Routers.poolGetAlive_pool, if_neg, hpooled]
    rintro ⟨-, hd⟩
    rw [hdead] at hd
    cases hd
  | dialHandshake host port =>
    cases x <;> cases hx <;> exact hpooled
  | storeOrReuse a channel =>
    cases hx
    obtain ⟨c, -, heq⟩ | ⟨hnone, heq⟩ := storeOrReuse_spec s a channel
    · rw [heq]
      exact hpooled
    · rw [heq]
      change (s.pool.insert a channel)[addr]? = some ch
      rw [lookup_insert, if_neg, hpooled]
      rintro rfl
      rw [h] at hnone
      cases hnone
  | dropChannel channel =>
    cases hx
    exact hpooled
  | registerLive channel =>
    cases x with
    | gone gone =>
      obtain ⟨s', hs, hr⟩ := Option.map_eq_some_iff.mp hx
      cases hr
      obtain ⟨-, rfl⟩ := prune_spec hs
      exact hpooled
    | _ => cases hx

end Exec

section Runs

/-- The channel the task is about to register. -/
def aboutToRegister (w : Worker PoolCmd Unit) : Option Nat :=
  match w.prog with
  | .call (.registerLive channel) _ => some channel
  | _ => none

theorem aboutToRegister_eq {w : Worker PoolCmd Unit} {u : OpenUse} (h : w.prog.Obeys opening u) :
    aboutToRegister w = u.entered := by
  obtain ⟨prog, own⟩ := w
  cases prog with
  | ret a => exact (show u.entered = none from h).symm
  | call c k =>
    have hmay := h.1
    cases c with
    | registerLive channel => exact (show u.entered = some channel from hmay).symm
    | storeOrReuse addr channel => exact hmay.1.symm
    | _ => exact (show u.entered = none from hmay).symm

/-- A store is never anything but a call of `poolStoreOrReuseInto`. -/
def StoresWhole : PoolProc Unit → Prop
  | .ret _ => True
  | .call c k =>
    (match c, k with
    | .storeOrReuse addr channel, k =>
      ∃ f, Program.call (.storeOrReuse addr channel) k = poolStoreOrReuseInto addr channel >>= f
    | _, _ => True) ∧ ∀ b, StoresWhole (k b)

theorem storesWhole_prog (op : PoolOp) : StoresWhole op.prog := by
  have hstore (addr : String) (channel : Nat) {f : Nat → PoolProc Unit}
      (hf : ∀ c, StoresWhole (f c)) : StoresWhole (poolStoreOrReuseInto addr channel >>= f) := by
    refine ⟨⟨f, rfl⟩, fun r => ?_⟩
    cases r with
    | some existing => exact ⟨trivial, fun _ => hf existing⟩
    | none => exact ⟨trivial, fun _ => hf channel⟩
  cases op with
  | openAndPoolRouter addr =>
    simp only [PoolOp.prog, openAndPoolRouter, Program.lift_bind, Program.call_bind]
    refine ⟨trivial, fun r => ?_⟩
    cases r with
    | some existing => trivial
    | none =>
      change StoresWhole ((match parseTlsAddress addr with
        | .error e => pure (.error e)
        | .ok (host, port) => _ : PoolProc (Except OpenError Nat)) >>= fun _ => pure ())
      split
      · trivial
      · refine ⟨trivial, fun r => ?_⟩
        cases r with
        | error e => trivial
        | ok channel =>
          change StoresWhole (poolStoreOrReuseInto addr channel >>= (fun pooled =>
            pure (Except.ok (ε := OpenError) pooled)) >>= fun _ => pure ())
          rw [Program.bind_assoc]
          exact hstore addr channel fun _ => trivial
  | poolGetAlive addrs => exact ⟨trivial, fun _ => trivial⟩
  | poolStoreOrReuseInto addr host port =>
    simp only [PoolOp.prog, Program.lift_bind]
    refine ⟨trivial, fun r => ?_⟩
    cases r with
    | error e => trivial
    | ok channel => exact hstore addr channel fun _ => trivial

variable {as : List PoolTaskAct} {s t : PoolTasks}

theorem run_pooling (hrun : run poolStep .start as = some s) :
    ∃ g, Crew.Tracked poolEffects opening .idle Pooling g s :=
  pooling_tracks.run hrun (Crew.runAll_meets _ _) ⟨_, Crew.tracked_new Pooling.start⟩

theorem run_storesWhole (hrun : run poolStep .start as = some s) :
    ∀ w ∈ s.workers, StoresWhole w.prog :=
  Crew.run_progs storesWhole_prog trivial (fun _ _ b h => h.2 b) hrun nofun

theorem alive_stays_pooled {a : PoolTaskAct} (hs : poolStep s a = some t) {addr : String} {c : Nat}
    (h : s.state.aliveAt addr = some c) : t.state.pool[addr]? = some c := by
  have hpooled := (Routers.aliveAt_eq_some.mp h).1
  cases a with
  | spawn op =>
    cases hs
    exact hpooled
  | go i x =>
    obtain ⟨γ, cmd, k, own, r, -, hx, rfl⟩ := Crew.step_go hs
    obtain ⟨r, hexec, rfl⟩ := Option.map_eq_some_iff.mp hx
    exact exec_aliveAt hexec h
  | drop i =>
    obtain ⟨γ, cmd, k, own, -, -, rfl⟩ := Crew.step_drop hs
    exact hpooled
  | env e =>
    obtain ⟨st, he, rfl⟩ := Option.map_eq_some_iff.mp hs
    cases e with
    | prune gone =>
      obtain ⟨-, rfl⟩ := prune_spec he
      exact hpooled
    | _ =>
      cases he
      exact hpooled

/-- A store at an address with an alive channel hands that one to its caller. -/
theorem store_loses {i : Nat} {x : PoolChoice} {addr : String} {channel c : Nat}
    {f : Nat → PoolProc Unit}
    (hk : s.workers[i]? = some ⟨poolStoreOrReuseInto addr channel >>= f, ()⟩)
    (hs : poolStep s (.go i x) = some t) (h : s.state.aliveAt addr = some c) :
    t.state = s.state ∧
      t.workers[i]? = some ⟨lift (.dropChannel channel) >>= fun _ => f c, ()⟩ := by
  obtain ⟨γ, cmd, k, own, r, hk', hx, rfl⟩ := Crew.step_go hs
  have hlt := (List.getElem?_eq_some_iff.mp hk).1
  rw [hk] at hk'
  cases hk'
  cases hx
  obtain ⟨c', hc', heq⟩ | ⟨hnone, -⟩ := storeOrReuse_spec s.state addr channel
  · obtain rfl := Option.some.inj (h.symm.trans hc')
    refine ⟨congrArg Prod.snd heq, ?_⟩
    simp only [heq]
    exact List.getElem?_set_self hlt
  · rw [h] at hnone
    cases hnone

/-- Each channel ever pooled is registered once, as soon as the task that pooled it has got to it. -/
theorem registered_once (hrun : run poolStep .start as = some s) {c : Nat}
    (hc : c ∈ s.state.pooled) :
    s.state.registered.count c =
      if ∃ w ∈ s.workers, aboutToRegister w = some c then 0 else 1 := by
  obtain ⟨g, hg⟩ := run_pooling hrun
  split_ifs with h
  · obtain ⟨w, hw, habout⟩ := h
    obtain ⟨i, hi⟩ := List.mem_iff_getElem?.mp hw
    rw [aboutToRegister_eq (hg.obeys i w hi)] at habout
    exact List.count_eq_zero.mpr (hg.inv.entered.unspent i c habout)
  · refine List.count_eq_one_of_mem hg.inv.registered ((hg.inv.settled c hc).resolve_right ?_)
    rintro ⟨i, hi⟩
    obtain hlt | hge := lt_or_ge i s.workers.length
    · have hw : s.workers[i]? = some s.workers[i] := List.getElem?_eq_getElem hlt
      refine h ⟨s.workers[i], List.getElem_mem hlt, ?_⟩
      rw [aboutToRegister_eq (hg.obeys i _ hw), hi]
    · rw [hg.absent i hge] at hi
      cases hi

/-- A pooled channel is in the registry once, from its registration on. -/
theorem pooled_live_once (hrun : run poolStep .start as = some s) {addr : String} {c : Nat}
    (hc : s.state.pool[addr]? = some c) :
    s.state.live.count c = if ∃ w ∈ s.workers, aboutToRegister w = some c then 0 else 1 := by
  obtain ⟨g, hg⟩ := run_pooling hrun
  have hcount := registered_once hrun (hg.inv.pool addr c hc)
  split_ifs at hcount ⊢
  · exact List.count_eq_zero.mpr fun hin => List.count_eq_zero.mp hcount (hg.inv.live.2 hin)
  · have hreg : c ∈ s.state.registered := List.count_pos_iff.mp (by omega)
    exact List.count_eq_one_of_mem hg.inv.live.1 (hg.inv.kept addr c hc hreg)

/-- What a lookup over several addresses answers and what it leaves of the pool. -/
theorem getAlive_step {i : Nat} {x : PoolChoice} {addrs : List String}
    {k : Option Nat → PoolProc Unit}
    (hk : s.workers[i]? = some ⟨.call (.getAlive addrs) k, ()⟩)
    (hs : poolStep s (.go i x) = some t) :
    ∃ r, t.workers[i]? = some ⟨k r, ()⟩ ∧
      (r = none ↔ ∀ addr ∈ addrs, s.state.aliveAt addr = none) ∧
      (∀ c, r = some c → s.state.Best addrs c) ∧
      ∀ addr : String, t.state.pool[addr]? =
        if addr ∈ addrs ∧ s.state.deadAt addr = true then none else s.state.pool[addr]? := by
  obtain ⟨γ, cmd, k', own, r, hk', hx, rfl⟩ := Crew.step_go hs
  have hlt := (List.getElem?_eq_some_iff.mp hk).1
  rw [hk] at hk'
  cases hk'
  cases hx
  exact ⟨(s.state.poolGetAlive addrs).1, List.getElem?_set_self hlt,
    Routers.poolGetAlive_none addrs, fun _ => Routers.poolGetAlive_best,
    Routers.poolGetAlive_pool addrs⟩

/-- Two openers of one router have both dialled it; the first has pooled its channel. -/
def raceActs : List PoolTaskAct :=
  [.spawn (.openAndPoolRouter "tls:r:1"), .spawn (.openAndPoolRouter "tls:r:1"), .go 0 .done,
    .go 1 .done, .go 0 (.opened 5), .go 1 (.opened 3), .go 0 .done, .go 0 (.gone [])]

end Runs

end Noa.Edge.Client
