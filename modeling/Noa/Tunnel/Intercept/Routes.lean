import Noa.Tunnel.Intercept.Dispatch

namespace Noa.Tunnel.Intercept
open Noa.Framework Noa.Tunnel.Resolve

inductive RouteOp where
  | add
  | delete
  deriving DecidableEq

/-- One call to the operating system and whether it succeeded. -/
structure RouteCall where
  op : RouteOp
  cidr : IpNet
  ok : Bool

/-- The networks that may be routed to the device: of IPv4, not on-link, and with no address of the
control plane. -/
def routeAllowed (cidr onLink : IpNet) (controlPlane : List IpAddr) : Bool :=
  match cidr with
  | .v6 _ => false
  | .v4 _ =>
    if onLink.containsNet cidr then false
    else if controlPlane.any fun cp => cidr.contains cp then false
    else true

/-- The routes with the number of references to each; `calls` is an observer's record of the calls
made. -/
structure RouteLifecycle where
  counts : AList fun _ : IpNet => Nat
  onLink : IpNet
  controlPlane : List IpAddr
  calls : List RouteCall

namespace RouteLifecycle

def new (utunAddr : BitVec 32) (utunPrefix : UInt8) (controlPlane : List IpAddr) :
    Option RouteLifecycle :=
  if h : utunPrefix.toNat ≤ 32 then
    some ⟨∅, .v4 (Net.trunc ⟨utunAddr, utunPrefix.toNat, h⟩), controlPlane, []⟩
  else none

/-- `ops` answers the calls, in the order they are made. -/
def call (ops : Nat → Bool) (op : RouteOp) (r : RouteLifecycle) (cidr : IpNet) : RouteLifecycle :=
  { r with calls := r.calls ++ [⟨op, cidr, ops r.calls.length⟩] }

def allowed (r : RouteLifecycle) (cidr : IpNet) : Bool := routeAllowed cidr r.onLink r.controlPlane

/-- One more reference, whether or not the call of the first succeeds. -/
def add (ops : Nat → Bool) (r : RouteLifecycle) (cidr : IpNet) : RouteLifecycle :=
  if ¬ r.allowed cidr then r
  else
    let count := (r.counts.lookup cidr).getD 0 + 1
    let r := { r with counts := r.counts.insert cidr count }
    if count = 1 then r.call ops .add cidr else r

/-- One reference less; a count of zero would underflow. -/
def delete (ops : Nat → Bool) (r : RouteLifecycle) (cidr : IpNet) : Option RouteLifecycle :=
  if ¬ r.allowed cidr then some r
  else match r.counts.lookup cidr with
    | none => some r
    | some 0 => none
    | some (count + 1) =>
      if count = 0 then some ({ r with counts := r.counts.erase cidr }.call ops .delete cidr)
      else some { r with counts := r.counts.insert cidr count }

/-- What is removed goes first. -/
def applyDelta (ops : Nat → Bool) (r : RouteLifecycle) (delta : RouteDelta) :
    Option RouteLifecycle := do
  let r ← delta.removed.foldlM (RouteLifecycle.delete ops) r
  return delta.added.foldl (RouteLifecycle.add ops) r

/-- `Drop`: each route once, in the order the map yields its keys. -/
def drop (ops : Nat → Bool) (r : RouteLifecycle) (keys : List IpNet) : RouteLifecycle :=
  keys.foldl (RouteLifecycle.call ops .delete) r

/-- The references to a network. -/
def count (r : RouteLifecycle) (cidr : IpNet) : Nat := (r.counts.lookup cidr).getD 0

/-- The calls about a network, in order. -/
def callsOf (r : RouteLifecycle) (cidr : IpNet) : List RouteOp :=
  (r.calls.filter fun c => c.cidr = cidr).map (·.op)

end RouteLifecycle

/-- The table with the routes that follow it. -/
structure RoutedTable (V : Type) where
  resolver : InterceptResolver V
  routes : RouteLifecycle

namespace RoutedTable

variable {V : Type} [DecidableEq V] (fromValue : V → Except String InterceptV1Config)

def step (ops : Nat → Bool) (s : RoutedTable V) : ResolverAct V → Option (RoutedTable V)
  | .event ev =>
    let (applied, resolver) := s.resolver.applyEvent fromValue ev
    (s.routes.applyDelta ops applied.routes).map (⟨resolver, ·⟩)
  | .query name =>
    some { s with resolver := { s.resolver with dns := (s.resolver.dns.lookup name).2 } }
  | .seedPool net =>
    some { s with resolver := { s.resolver with dns := (s.resolver.dns.seedPool net).2 } }
  | .reserve ip => some { s with resolver := { s.resolver with dns := s.resolver.dns.reserve ip } }

end RoutedTable

/-- The literal addresses of a raw configuration. -/
def literalRouteAddrs {V : Type} (fromValue : V → Except String InterceptV1Config) (raw : V) :
    List IpNet :=
  match fromValue raw with
  | .ok cfg => literalAddrs cfg
  | .error _ => []

/-- How often a network is among the literal addresses of all installed configurations. -/
def occurrences {V : Type} (fromValue : V → Except String InterceptV1Config)
    (configs : Std.ExtTreeMap Text V) (cidr : IpNet) : Nat :=
  (configs.toList.map fun kv => (literalRouteAddrs fromValue kv.2).count cidr).sum

section Occurrences

variable {V : Type} {fromValue : V → Except String InterceptV1Config}
  {configs : Std.ExtTreeMap Text V} {name : Text} {raw : V}

theorem occurrences_insert (h : configs[name]? = none) (raw : V) (cidr : IpNet) :
    occurrences fromValue (configs.insert name raw) cidr =
      (literalRouteAddrs fromValue raw).count cidr + occurrences fromValue configs cidr := by
  unfold occurrences
  rw [((toList_insert_perm h raw).map _).sum_eq, List.map_cons, List.sum_cons]

theorem occurrences_erase (h : configs[name]? = some raw) (cidr : IpNet) :
    occurrences fromValue configs cidr = (literalRouteAddrs fromValue raw).count cidr +
      occurrences fromValue (configs.erase name) cidr := by
  unfold occurrences
  rw [((toList_erase_perm h).map _).sum_eq, List.map_cons, List.sum_cons]

theorem occurrences_removeService (fromValue : V → Except String InterceptV1Config)
    (r : InterceptResolver V) (name : Text) (cidr : IpNet) :
    occurrences fromValue r.installedConfigs cidr =
      (r.removeService fromValue name).1.count cidr +
        occurrences fromValue (r.removeService fromValue name).2.installedConfigs cidr := by
  simp only [InterceptResolver.removeService]
  cases hraw : r.installedConfigs[name]? with
  | none =>
    have hmem : name ∉ r.installedConfigs := fun hmem => by
      obtain ⟨raw, h⟩ := mem_iff_lookup.mp hmem
      cases hraw.symm.trans h
    rw [erase_of_not_mem hmem]
    simp
  | some raw => exact occurrences_erase hraw cidr

end Occurrences

section Balanced

variable {n m : Nat} {ops : List RouteOp}

/-- Calls that alternate, beginning with an addition, of which the last is to be undone exactly while
there are references. -/
structure Balanced (n : Nat) (ops : List RouteOp) : Prop where
  alternates : ∀ (i : Nat) op, ops[i]? = some op → op = if i % 2 = 0 then .add else .delete
  balance : ops.count .add = ops.count .delete + if n = 0 then 0 else 1

theorem length_eq_counts (ops : List RouteOp) :
    ops.length = ops.count .add + ops.count .delete := by
  induction ops with
  | nil => rfl
  | cons op ops ih => cases op <;> simp [ih] <;> omega

theorem Balanced.pos (h : Balanced n ops) (hn : n ≠ 0) (hm : m ≠ 0) : Balanced m ops :=
  ⟨h.alternates, by rw [h.balance, if_neg hn, if_neg hm]⟩

theorem Balanced.append {op : RouteOp} (h : Balanced n ops)
    (hop : op = if ops.length % 2 = 0 then .add else .delete)
    (hbalance : (ops ++ [op]).count .add = (ops ++ [op]).count .delete + if m = 0 then 0 else 1) :
    Balanced m (ops ++ [op]) := by
  refine ⟨fun i op' hi => ?_, hbalance⟩
  rw [List.getElem?_append] at hi
  split_ifs at hi with hlt
  · exact h.alternates i op' hi
  · obtain ⟨hi, rfl⟩ : i - ops.length = 0 ∧ op = op' := by
      cases hsub : i - ops.length with
      | zero => simpa [hsub] using hi
      | succ k => simp [hsub] at hi
    rw [hop, show i = ops.length by omega]

theorem Balanced.first (h : Balanced 0 ops) (hm : m ≠ 0) : Balanced m (ops ++ [.add]) := by
  have hbalance : ops.count .add = ops.count .delete := h.balance
  have hlen := length_eq_counts ops
  refine h.append (if_pos (by omega)).symm ?_
  simp [hm, hbalance]

theorem Balanced.last (h : Balanced n ops) (hn : n ≠ 0) : Balanced 0 (ops ++ [.delete]) := by
  have hbalance := h.balance
  rw [if_neg hn] at hbalance
  have hlen := length_eq_counts ops
  refine h.append (if_neg (by omega)).symm ?_
  simp [hbalance]

end Balanced

namespace RouteLifecycle

variable {r r' : RouteLifecycle} {ops : Nat → Bool} {cidr c : IpNet}

theorem callsOf_call (op : RouteOp) :
    (r.call ops op cidr).callsOf c = r.callsOf c ++ if cidr = c then [op] else [] := by
  simp only [callsOf, call, List.filter_append, List.map_append]
  split_ifs with heq <;> simp [heq]

/-- Entries are positive and of networks that are allowed, as are the calls, which match the
counts. -/
structure Wf (r : RouteLifecycle) : Prop where
  positive : ∀ c, r.counts.lookup c ≠ some 0
  refused : ∀ c, r.allowed c = false → r.counts.lookup c = none
  balanced : ∀ c, Balanced (r.count c) (r.callsOf c)
  permitted : ∀ call ∈ r.calls, r.allowed call.cidr = true

/-- The policy does not change. -/
def SamePolicy (r r' : RouteLifecycle) : Prop :=
  r'.onLink = r.onLink ∧ r'.controlPlane = r.controlPlane

theorem SamePolicy.allowed (h : r.SamePolicy r') (c : IpNet) : r'.allowed c = r.allowed c := by
  rw [RouteLifecycle.allowed, RouteLifecycle.allowed, h.1, h.2]

theorem Wf.update (h : r.Wf) (cidr : IpNet) (hpolicy : r.SamePolicy r') (hallowed : r.allowed cidr = true)
    (hothers : ∀ c, cidr ≠ c → r'.counts.lookup c = r.counts.lookup c ∧ r'.callsOf c = r.callsOf c)
    (hpositive : r'.counts.lookup cidr ≠ some 0)
    (hbalanced : Balanced (r'.count cidr) (r'.callsOf cidr))
    (hcalls : ∀ call ∈ r'.calls, call ∈ r.calls ∨ call.cidr = cidr) : r'.Wf := by
  refine ⟨fun c => ?_, fun c hc => ?_, fun c => ?_, fun call hcall => ?_⟩
  · by_cases heq : cidr = c
    · exact heq ▸ hpositive
    · exact (hothers c heq).1 ▸ h.positive c
  · rw [hpolicy.allowed] at hc
    have hne : cidr ≠ c := by
      rintro rfl
      rw [hallowed] at hc
      cases hc
    exact (hothers c hne).1.trans (h.refused c hc)
  · by_cases heq : cidr = c
    · exact heq ▸ hbalanced
    · rw [count, (hothers c heq).1, (hothers c heq).2]
      exact h.balanced c
  · rw [hpolicy.allowed]
    obtain hold | rfl := hcalls call hcall
    · exact h.permitted call hold
    · exact hallowed

theorem lookup_insert_counts (counts : AList fun _ : IpNet => Nat) (cidr c : IpNet) (n : Nat) :
    (counts.insert cidr n).lookup c = if cidr = c then some n else counts.lookup c := by
  split_ifs with heq
  · subst heq
    exact AList.lookup_insert counts
  · exact AList.lookup_insert_ne (Ne.symm heq)

theorem lookup_erase_counts (counts : AList fun _ : IpNet => Nat) (cidr c : IpNet) :
    (counts.erase cidr).lookup c = if cidr = c then none else counts.lookup c := by
  split_ifs with heq
  · subst heq
    exact AList.lookup_erase cidr counts
  · exact AList.lookup_erase_ne (Ne.symm heq)

theorem Wf.insert (h : r.Wf) (hallowed : r.allowed cidr = true) (hcount : r.count cidr ≠ 0) {n : Nat}
    (hn : n ≠ 0) : Wf { r with counts := r.counts.insert cidr n } := by
  have hlookup := lookup_insert_counts r.counts cidr (n := n)
  refine h.update cidr ⟨rfl, rfl⟩ hallowed (fun c hne => ⟨?_, rfl⟩) ?_ ?_ fun _ => .inl
  · rw [hlookup, if_neg hne]
  · rw [hlookup, if_pos rfl]
    simpa using hn
  · rw [count, hlookup, if_pos rfl]
    exact (h.balanced cidr).pos hcount hn

theorem Wf.called (h : r.Wf) (hallowed : r.allowed cidr = true) (op : RouteOp)
    {counts : AList fun _ : IpNet => Nat} {n : Option Nat}
    (hlookup : ∀ c, counts.lookup c = if cidr = c then n else r.counts.lookup c) (hn : n ≠ some 0)
    (hbalanced : Balanced (n.getD 0) (r.callsOf cidr ++ [op])) :
    Wf ({ r with counts := counts }.call ops op cidr) := by
  have hcounts : ({ r with counts := counts }.call ops op cidr).counts = counts := rfl
  refine h.update cidr ⟨rfl, rfl⟩ hallowed (fun c hne => ⟨?_, ?_⟩) ?_ ?_ fun call hcall => ?_
  · rw [hcounts, hlookup, if_neg hne]
  · rw [callsOf_call, if_neg hne, List.append_nil]
    rfl
  · rwa [hcounts, hlookup, if_pos rfl]
  · rw [count, hcounts, hlookup, if_pos rfl, callsOf_call, if_pos rfl]
    exact hbalanced
  · obtain hold | hnew := List.mem_append.mp hcall
    · exact .inl hold
    · rw [List.mem_singleton.mp hnew]
      exact .inr rfl

theorem Wf.first (h : r.Wf) (hallowed : r.allowed cidr = true) (hcount : r.count cidr = 0) :
    Wf ({ r with counts := r.counts.insert cidr 1 }.call ops .add cidr) := by
  have hbalanced := h.balanced cidr
  rw [hcount] at hbalanced
  exact h.called hallowed .add (fun c => lookup_insert_counts r.counts cidr c 1)
    (fun heq => by cases heq) (hbalanced.first one_ne_zero)

theorem Wf.last (h : r.Wf) (hallowed : r.allowed cidr = true) (hcount : r.count cidr ≠ 0) :
    Wf ({ r with counts := r.counts.erase cidr }.call ops .delete cidr) :=
  h.called hallowed .delete (fun c => lookup_erase_counts r.counts cidr c) (fun heq => by cases heq)
    ((h.balanced cidr).last hcount)

theorem add_spec (h : r.Wf) (ops : Nat → Bool) (cidr : IpNet) :
    (r.add ops cidr).Wf ∧ r.SamePolicy (r.add ops cidr) ∧
      ∀ c, (r.add ops cidr).count c = r.count c + if cidr = c ∧ r.allowed c = true then 1 else 0 := by
  unfold add
  by_cases hallowed : r.allowed cidr = true
  · rw [if_neg (not_not.mpr hallowed)]
    have hcount (c : IpNet) : ((r.counts.insert cidr (r.count cidr + 1)).lookup c).getD 0 =
        r.count c + if cidr = c ∧ r.allowed c = true then 1 else 0 := by
      rw [lookup_insert_counts]
      split_ifs with heq hboth hboth
      · subst heq
        rfl
      · exact absurd ⟨heq, heq ▸ hallowed⟩ hboth
      · exact absurd hboth.1 heq
      · rfl
    dsimp only
    split_ifs with hone
    · have hzero : r.count cidr = 0 := Nat.succ.inj hone
      refine ⟨?_, ⟨rfl, rfl⟩, hcount⟩
      rw [hone]
      exact h.first hallowed hzero
    · have hpos : r.count cidr ≠ 0 := fun hzero => hone (congrArg (· + 1) hzero)
      exact ⟨h.insert hallowed hpos (Nat.succ_ne_zero _), ⟨rfl, rfl⟩, hcount⟩
  · rw [if_pos hallowed]
    refine ⟨h, ⟨rfl, rfl⟩, fun c => ?_⟩
    rw [if_neg, Nat.add_zero]
    rintro ⟨rfl, hc⟩
    exact hallowed hc

theorem delete_spec (h : r.Wf) (ops : Nat → Bool) (cidr : IpNet) :
    ∃ r', r.delete ops cidr = some r' ∧ r'.Wf ∧ r.SamePolicy r' ∧
      ∀ c, r'.count c = r.count c - if cidr = c then 1 else 0 := by
  have hnone (hno : r.counts.lookup cidr = none) (c : IpNet) :
      r.count c = r.count c - if cidr = c then 1 else 0 := by
    split_ifs with heq
    · rw [← heq, count, hno]
      rfl
    · rfl
  unfold delete
  by_cases hallowed : r.allowed cidr = true
  · rw [if_neg (not_not.mpr hallowed)]
    cases hlookup : r.counts.lookup cidr with
    | none => exact ⟨r, rfl, h, ⟨rfl, rfl⟩, hnone hlookup⟩
    | some n =>
      cases n with
      | zero => exact absurd hlookup (h.positive cidr)
      | succ n =>
        have hcount : r.count cidr = n + 1 := by rw [count, hlookup, Option.getD_some]
        have hpos : r.count cidr ≠ 0 := by omega
        dsimp only
        split_ifs with hzero
        · refine ⟨_, rfl, h.last hallowed hpos, ⟨rfl, rfl⟩, fun c => ?_⟩
          change ((r.counts.erase cidr).lookup c).getD 0 = _
          rw [lookup_erase_counts]
          split_ifs with heq
          · rw [← heq, hcount, hzero]
            rfl
          · rfl
        · refine ⟨_, rfl, h.insert hallowed hpos hzero, ⟨rfl, rfl⟩, fun c => ?_⟩
          change ((r.counts.insert cidr n).lookup c).getD 0 = _
          rw [lookup_insert_counts]
          split_ifs with heq
          · rw [← heq, hcount]
            rfl
          · rfl
  · rw [if_pos hallowed]
    exact ⟨r, rfl, h, ⟨rfl, rfl⟩, hnone (h.refused cidr (Bool.eq_false_iff.mpr hallowed))⟩

theorem SamePolicy.trans {r'' : RouteLifecycle} (h : r.SamePolicy r') (h' : r'.SamePolicy r'') :
    r.SamePolicy r'' := ⟨h'.1.trans h.1, h'.2.trans h.2⟩

theorem foldl_add_spec (h : r.Wf) (ops : Nat → Bool) (added : List IpNet) :
    (added.foldl (add ops) r).Wf ∧ r.SamePolicy (added.foldl (add ops) r) ∧
      ∀ c, (added.foldl (add ops) r).count c =
        r.count c + if r.allowed c = true then added.count c else 0 := by
  induction added generalizing r with
  | nil => exact ⟨h, ⟨rfl, rfl⟩, fun c => by simp⟩
  | cons cidr added ih =>
    obtain ⟨hwf, hpolicy, hcount⟩ := add_spec h ops cidr
    obtain ⟨hwf', hpolicy', hcount'⟩ := ih hwf
    refine ⟨hwf', hpolicy.trans hpolicy', fun c => ?_⟩
    rw [List.foldl_cons, hcount', hcount, hpolicy.allowed, List.count_cons]
    by_cases heq : cidr = c <;> cases r.allowed c <;> simp [heq, Nat.add_assoc, Nat.add_comm]

theorem foldlM_delete_spec (h : r.Wf) (ops : Nat → Bool) (removed : List IpNet) :
    ∃ r', removed.foldlM (delete ops) r = some r' ∧ r'.Wf ∧ r.SamePolicy r' ∧
      ∀ c, r'.count c = r.count c - removed.count c := by
  induction removed generalizing r with
  | nil => exact ⟨r, rfl, h, ⟨rfl, rfl⟩, fun c => rfl⟩
  | cons cidr removed ih =>
    obtain ⟨r₁, hdelete, hwf, hpolicy, hcount⟩ := delete_spec h ops cidr
    obtain ⟨r₂, hrest, hwf', hpolicy', hcount'⟩ := ih hwf
    refine ⟨r₂, ?_, hwf', hpolicy.trans hpolicy', fun c => ?_⟩
    · rw [List.foldlM_cons, hdelete]
      exact hrest
    · rw [hcount', hcount, List.count_cons, Nat.sub_sub, Nat.add_comm]
      simp

theorem applyDelta_spec (h : r.Wf) (ops : Nat → Bool) (delta : RouteDelta) :
    ∃ r', r.applyDelta ops delta = some r' ∧ r'.Wf ∧ r.SamePolicy r' ∧
      ∀ c, r'.count c = r.count c - delta.removed.count c +
        if r.allowed c = true then delta.added.count c else 0 := by
  obtain ⟨r₁, hremoved, hwf, hpolicy, hcount⟩ := foldlM_delete_spec h ops delta.removed
  obtain ⟨hwf', hpolicy', hcount'⟩ := foldl_add_spec hwf ops delta.added
  refine ⟨_, ?_, hwf', hpolicy.trans hpolicy', fun c => ?_⟩
  · rw [applyDelta, hremoved]
    rfl
  · rw [hcount', hcount, hpolicy.allowed]

theorem callsOf_drop {keys : List IpNet} (hnodup : keys.Nodup) :
    (r.drop ops keys).callsOf c = r.callsOf c ++ if c ∈ keys then [.delete] else [] := by
  induction keys generalizing r with
  | nil => simp [drop]
  | cons key keys ih =>
    obtain ⟨hnew, hrest⟩ := List.nodup_cons.mp hnodup
    rw [drop, List.foldl_cons, ← drop, ih hrest, callsOf_call]
    by_cases heq : key = c
    · subst heq
      simp [hnew]
    · simp [heq, Ne.symm heq]

theorem Wf.drop (h : r.Wf) {keys : List IpNet} (hkeys : keys.Perm r.counts.keys) :
    Balanced 0 ((r.drop ops keys).callsOf c) := by
  have hmem : c ∈ keys ↔ r.count c ≠ 0 := by
    rw [hkeys.mem_iff, ← AList.mem_keys, ← AList.lookup_isSome, count]
    cases hc : r.counts.lookup c with
    | none => simp
    | some n =>
      have hpos : n ≠ 0 := fun hzero => h.positive c (hzero ▸ hc)
      simpa using hpos
  rw [callsOf_drop (hkeys.nodup_iff.mpr r.counts.keys_nodup)]
  have hbalanced := h.balanced c
  split_ifs with hc
  · exact hbalanced.last (hmem.mp hc)
  · rw [List.append_nil]
    have hzero : r.count c = 0 := not_not.mp (mt hmem.mpr hc)
    exact hzero ▸ hbalanced

/-- What may be routed is of IPv4, has an address outside the on-link network and none of the control
plane. -/
theorem allowed_spec (h : r.allowed cidr = true) :
    (∃ net, cidr = .v4 net) ∧ (∃ ip, cidr.contains ip = true ∧ r.onLink.contains ip = false) ∧
      ∀ cp ∈ r.controlPlane, cidr.contains cp = false := by
  unfold allowed routeAllowed at h
  cases cidr with
  | v6 net => cases h
  | v4 net =>
    dsimp only at h
    split_ifs at h with honLink hplane
    refine ⟨⟨net, rfl⟩, ?_, by simpa using hplane⟩
    cases hon : r.onLink with
    | v4 on =>
      rw [hon, IpNet.containsNet, Net.containsNet_iff] at honLink
      push Not at honLink
      obtain ⟨x, hx, hout⟩ := honLink
      exact ⟨.v4 x, hx, Bool.eq_false_iff.mpr hout⟩
    | v6 on =>
      refine ⟨.v4 net.network, ?_, rfl⟩
      exact (net.contains_iff _).mpr ⟨BitVec.le_refl _, net.network_le_broadcast⟩

theorem wf_new {utunAddr : BitVec 32} {utunPrefix : UInt8} {controlPlane : List IpAddr}
    (h : RouteLifecycle.new utunAddr utunPrefix controlPlane = some r) :
    r.Wf ∧ r.controlPlane = controlPlane ∧ ∀ c, r.count c = 0 := by
  unfold RouteLifecycle.new at h
  split_ifs at h
  cases h
  refine ⟨⟨?_, fun _ _ => rfl, fun _ => ⟨?_, rfl⟩, ?_⟩, rfl, fun _ => rfl⟩
  · rintro c ⟨⟩
  · rintro i op ⟨⟩
  · rintro call ⟨⟩

end RouteLifecycle

section Delta

variable {V : Type} {fromValue : V → Except String InterceptV1Config}

/-- The delta is the difference of the occurrences. -/
def Shifts (fromValue : V → Except String InterceptV1Config) (delta : RouteDelta)
    (configs configs' : Std.ExtTreeMap Text V) : Prop :=
  ∀ cidr, occurrences fromValue configs' cidr =
    occurrences fromValue configs cidr - delta.removed.count cidr + delta.added.count cidr

theorem shifts_removeService (r : InterceptResolver V) (name : Text) :
    Shifts fromValue ⟨(r.removeService fromValue name).1, []⟩ r.installedConfigs
      (r.removeService fromValue name).2.installedConfigs := by
  intro cidr
  rw [occurrences_removeService fromValue r name cidr]
  simp

theorem shifts_replaced (r : InterceptResolver V) (name : Text) {raw : V} {cfg : InterceptV1Config}
    (hraw : fromValue raw = .ok cfg) :
    Shifts fromValue ⟨(r.removeService fromValue name).1, literalAddrs cfg⟩ r.installedConfigs
      (replaced fromValue r name raw).installedConfigs := by
  intro cidr
  have hgone : (r.removeService fromValue name).2.installedConfigs[name]? = none := by
    rw [InterceptResolver.removeService, lookup_erase, if_pos rfl]
  have hliteral : literalRouteAddrs fromValue raw = literalAddrs cfg := by
    rw [literalRouteAddrs, hraw]
  have hremoved := occurrences_removeService fromValue r name cidr
  rw [replaced, occurrences_insert hgone, hliteral]
  dsimp only
  omega

theorem installedConfigs_installAll {service : Text} {rs : List InterceptRule} (addrs : List Text)
    (r : InterceptResolver V) :
    (addrs.foldl (InterceptResolver.installAddress service rs) r).installedConfigs =
      r.installedConfigs := by
  induction addrs generalizing r with
  | nil => rfl
  | cons addr addrs ih =>
    rw [List.foldl_cons, ih, (installAddress_installs service rs r addr).installedConfigs]

variable [DecidableEq V]

theorem applyEvent_shifts (r : InterceptResolver V) (ev : ServiceEvent V) :
    Shifts fromValue (r.applyEvent fromValue ev).1.routes r.installedConfigs
      (r.applyEvent fromValue ev).2.installedConfigs := by
  have hadd (svc : Service V) : Shifts fromValue (r.addService fromValue svc).1.routes
      r.installedConfigs (r.addService fromValue svc).2.installedConfigs := by
    have hadds := addService_adds fromValue r svc
    generalize r.addService fromValue svc = out at hadds ⊢
    cases hadds with
    | stops => exact shifts_removeService r svc.name
    | keeps => exact fun cidr => by simp [AppliedEvent.default]
    | replaces _ raw cfg _ hraw =>
      rw [installedConfigs_installAll]
      exact shifts_replaced r svc.name hraw
  cases ev with
  | added svc => exact hadd svc
  | changed svc => exact hadd svc
  | removed svc => exact shifts_removeService r svc.name

end Delta

namespace RoutedTable

variable {V : Type} {fromValue : V → Except String InterceptV1Config} {s s' : RoutedTable V}

/-- The counts are those of the installed configurations. -/
structure Counted (fromValue : V → Except String InterceptV1Config) (s : RoutedTable V) : Prop where
  wf : s.routes.Wf
  counts : ∀ cidr, s.routes.count cidr = if s.routes.allowed cidr = true then
    occurrences fromValue s.resolver.installedConfigs cidr else 0

variable [DecidableEq V]

/-- No step fails: there is always a reference to take back. -/
theorem Counted.step (h : Counted fromValue s) (ops : Nat → Bool) (act : ResolverAct V) :
    ∃ s', s.step fromValue ops act = some s' ∧ Counted fromValue s' ∧
      s.routes.SamePolicy s'.routes := by
  cases act with
  | event ev =>
    obtain ⟨routes, hdelta, hwf, hpolicy, hcount⟩ := RouteLifecycle.applyDelta_spec h.wf ops
      (s.resolver.applyEvent fromValue ev).1.routes
    refine ⟨⟨(s.resolver.applyEvent fromValue ev).2, routes⟩, ?_, ⟨hwf, fun cidr => ?_⟩, hpolicy⟩
    · simp only [RoutedTable.step, hdelta, Option.map_some]
    · rw [hcount, h.counts, hpolicy.allowed, applyEvent_shifts s.resolver ev cidr]
      split_ifs <;> simp
  | query name => exact ⟨_, rfl, ⟨h.wf, h.counts⟩, ⟨rfl, rfl⟩⟩
  | seedPool net => exact ⟨_, rfl, ⟨h.wf, h.counts⟩, ⟨rfl, rfl⟩⟩
  | reserve ip => exact ⟨_, rfl, ⟨h.wf, h.counts⟩, ⟨rfl, rfl⟩⟩

theorem Counted.run (h : Counted fromValue s) (ops : Nat → Bool) (acts : List (ResolverAct V)) :
    ∃ s', Framework.run (RoutedTable.step fromValue ops) s acts = some s' ∧ Counted fromValue s' ∧
      s.routes.SamePolicy s'.routes := by
  induction acts generalizing s with
  | nil => exact ⟨s, rfl, h, ⟨rfl, rfl⟩⟩
  | cons act acts ih =>
    obtain ⟨s₁, hstep, hcounted, hpolicy⟩ := h.step ops act
    obtain ⟨s₂, hrun, hcounted', hpolicy'⟩ := ih hcounted
    exact ⟨s₂, run_cons_eq_some.mpr ⟨s₁, hstep, hrun⟩, hcounted', hpolicy.trans hpolicy'⟩

/-- Route reference counts: after any events no count has underflowed, the counts are the
occurrences in the installed configurations of the networks that may be routed, the calls about each
network alternate and the last addition is outstanding exactly while there are references, only what
may be routed was ever added, and dropping the routes leaves as many deletions as additions. -/
theorem route_refcounts (fromValue : V → Except String InterceptV1Config) (ops : Nat → Bool)
    {utunAddr : BitVec 32} {utunPrefix : UInt8} {controlPlane : List IpAddr} {routes : RouteLifecycle}
    (hnew : RouteLifecycle.new utunAddr utunPrefix controlPlane = some routes)
    (acts : List (ResolverAct V)) :
    ∃ s, run (RoutedTable.step fromValue ops) ⟨.new, routes⟩ acts = some s ∧
      (∀ cidr, s.routes.counts.lookup cidr =
        if routes.allowed cidr = true ∧ occurrences fromValue s.resolver.installedConfigs cidr ≠ 0 then
          some (occurrences fromValue s.resolver.installedConfigs cidr) else none) ∧
      (∀ cidr, Balanced (s.routes.count cidr) (s.routes.callsOf cidr)) ∧
      (∀ call ∈ s.routes.calls, (∃ net, call.cidr = .v4 net) ∧
        (∃ ip, call.cidr.contains ip = true ∧ routes.onLink.contains ip = false) ∧
        ∀ cp ∈ controlPlane, call.cidr.contains cp = false) ∧
      ∀ keys : List IpNet, keys.Perm s.routes.counts.keys → ∀ cidr,
        ((s.routes.drop ops keys).callsOf cidr).count .add =
          ((s.routes.drop ops keys).callsOf cidr).count .delete := by
  obtain ⟨hwf, hplane, hzero⟩ := RouteLifecycle.wf_new hnew
  have hstart : Counted fromValue (⟨.new, routes⟩ : RoutedTable V) := by
    refine ⟨hwf, fun cidr => (hzero cidr).trans ?_⟩
    split_ifs <;> rfl
  obtain ⟨s, hrun, hcounted, hpolicy⟩ := hstart.run ops acts
  refine ⟨s, hrun, fun cidr => ?_, hcounted.wf.balanced, fun call hcall => ?_, fun keys hkeys cidr => ?_⟩
  · have hcount := hcounted.counts cidr
    rw [hpolicy.allowed, RouteLifecycle.count] at hcount
    cases hlookup : s.routes.counts.lookup cidr with
    | none =>
      rw [hlookup, Option.getD_none] at hcount
      refine (if_neg fun ⟨hallowed, hne⟩ => hne ?_).symm
      rw [hcount, if_pos hallowed]
    | some n =>
      have hpos : n ≠ 0 := fun hn => hcounted.wf.positive cidr (hn ▸ hlookup)
      rw [hlookup, Option.getD_some] at hcount
      split_ifs at hcount with hallowed
      · rw [← hcount, if_pos ⟨hallowed, hpos⟩]
      · exact absurd hcount hpos
  · have hallowed := hcounted.wf.permitted call hcall
    rw [hpolicy.allowed] at hallowed
    exact hplane ▸ RouteLifecycle.allowed_spec hallowed
  · exact (hcounted.wf.drop hkeys).balance

/-- A service of one literal network, listed twice. -/
def lanConfig : InterceptV1Config :=
  { protocols := ["tcp".toList]
    addresses := ["10.1.0.0/16".toList, "10.1.0.0/16".toList]
    portRanges := [⟨22, 22⟩]
    connectTimeoutSeconds := none
    allowedSourceAddresses := [] }

/-- It comes and goes. -/
def lanEvents : List (ResolverAct Unit) :=
  [.event (.added ⟨"lan".toList, ["Dial".toList], some ()⟩),
    .event (.removed ⟨"lan".toList, ["Dial".toList], some ()⟩)]

theorem route_refcounts_lan : ∃ routes s,
    RouteLifecycle.new 0x64400001#32 10 [.v4 0x0a020001#32] = some routes ∧
    run (RoutedTable.step (fun _ => .ok lanConfig) fun _ => false) ⟨.new, routes⟩ lanEvents = some s ∧
    s.routes.callsOf (.v4 ⟨0x0a010000#32, 16, by decide⟩) = [.add, .delete] ∧
    ∀ cidr, Balanced (s.routes.count cidr) (s.routes.callsOf cidr) := by
  obtain ⟨routes, hnew, hcalls⟩ := Option.map_eq_some_iff.mp
    (show (RouteLifecycle.new 0x64400001#32 10 [.v4 0x0a020001#32]).map (fun routes =>
        (run (RoutedTable.step (fun _ => .ok lanConfig) fun _ => false) ⟨.new, routes⟩ lanEvents).map
          fun s => s.routes.callsOf (.v4 ⟨0x0a010000#32, 16, by decide⟩)) =
      some (some [.add, .delete]) by decide +kernel)
  obtain ⟨s, hrun, -, hbalanced, -⟩ :=
    route_refcounts (fun _ => .ok lanConfig) (fun _ => false) hnew lanEvents
  rw [hrun] at hcalls
  exact ⟨routes, s, hnew, hrun, Option.some.inj hcalls, hbalanced⟩

end RoutedTable

end Noa.Tunnel.Intercept
