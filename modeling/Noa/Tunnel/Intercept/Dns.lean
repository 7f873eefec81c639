import Noa.Framework.Ip
import Noa.Framework.Map

namespace Noa.Tunnel.Intercept
open Noa.Framework

def maxDnsName : Nat := 256

/-- `str::to_ascii_lowercase`. -/
def lowerAscii (s : Text) : Text := s.map asciiLower

/-- The normal form of a name and whether it is wildcard-shaped; too long a name has none. -/
def checkName (name : Text) : Option (Text × Bool) :=
  match name with
  | '*' :: '.' :: rest =>
    if maxDnsName ≤ utf8Len ['*', '.'] + utf8Len rest then none
    else some ('*' :: '.' :: lowerAscii rest, true)
  | _ => if maxDnsName ≤ utf8Len name then none else some (lowerAscii name, false)

/-- Sets of service names: the owners of a domain or of a hostname. -/
abbrev Owners := Std.ExtTreeSet Text

/-- The parts of a name behind its dots, longest first. -/
def findParent (domains : Std.ExtTreeMap Text Owners) : Text → Option Text
  | [] => none
  | c :: rest =>
    if c = '.' ∧ rest ∈ domains then some rest else findParent domains rest

/-- The longest registered domain a name is, or is under. -/
def findDomain (hostname : Text) (domains : Std.ExtTreeMap Text Owners) : Option Text :=
  if hostname ∈ domains then some hostname else findParent domains hostname

/-- The addresses of a network that are handed out for names. -/
structure IpPool where
  base : BitVec 32
  counter : BitVec 32
  counterMask : BitVec 32
  capacity : Nat

/-- `100.64.0.0/10`, the address space that carriers share. -/
def sharedSpace : Net 32 := ⟨0x64400000, 10, by decide⟩

namespace IpPool

def seed (net : Net 32) : Option IpPool :=
  if 1 ≤ net.prefixLen ∧ net.prefixLen ≤ 31 then
    let hostBits := 32 - net.prefixLen
    let counterMask := BitVec.allOnes 32 >>> (32 - hostBits)
    some ⟨net.addr &&& ~~~ counterMask, 1, counterMask, 2 ^ hostBits - 2⟩
  else none

/-- The next candidate, with the counter moved on; it skips the all-ones host. -/
def next (p : IpPool) : BitVec 32 × IpPool :=
  let counter := p.counter + 1
  (p.base ||| (p.counter &&& p.counterMask),
    { p with counter := if counter = p.counterMask then 1 else counter })

def allocateLoop (isOccupied : BitVec 32 → Bool) : Nat → IpPool → Option (BitVec 32) × IpPool
  | 0, p => (none, p)
  | n + 1, p =>
    let (candidate, p) := p.next
    if isOccupied candidate then allocateLoop isOccupied n p else (some candidate, p)

def allocate (p : IpPool) (occupiedCount : Nat) (isOccupied : BitVec 32 → Bool) :
    Option (BitVec 32) × IpPool :=
  if p.capacity ≤ min occupiedCount (2 ^ 32 - 1) then (none, p)
  else allocateLoop isOccupied p.capacity p

/-- The candidates an allocation looks at. -/
def inspected (isOccupied : BitVec 32 → Bool) : Nat → IpPool → List (BitVec 32)
  | 0, _ => []
  | n + 1, p =>
    p.next.1 :: if isOccupied p.next.1 then inspected isOccupied n p.next.2 else []

end IpPool

/-- A name with a synthetic address: the domain it was first looked up under, if it was, and the
services that intercept it by name. -/
structure DnsEntry where
  ip : BitVec 32
  domain : Option Text
  intercepts : Owners

structure DnsMatcher where
  hostnames : Std.ExtTreeMap Text DnsEntry
  domains : Std.ExtTreeMap Text Owners
  ipAddresses : Std.ExtTreeMap (BitVec 32) Text
  pool : Option IpPool

inductive RegisterOutcome where
  | rejected
  | domain
  | hostname (ip : BitVec 32)
  | ipUnavailable
  deriving DecidableEq

inductive DnsMatchKind where
  | hostname
  | domain
  deriving DecidableEq

structure DnsMatch where
  kind : DnsMatchKind
  ip : BitVec 32
  deriving DecidableEq

namespace DnsMatcher

def new : DnsMatcher := ⟨∅, ∅, ∅, none⟩

/-- `seed_pool`, from the network its argument is parsed to. -/
def seedPool (d : DnsMatcher) (net : Option (Net 32)) : Bool × DnsMatcher :=
  match net.bind IpPool.seed with
  | some pool => (true, { d with pool := some pool })
  | none => (false, d)

/-- Keep an address from being handed out. -/
def reserve (d : DnsMatcher) (ip : BitVec 32) : DnsMatcher :=
  { d with ipAddresses := d.ipAddresses.insertIfNew ip [] }

def allocateIp (d : DnsMatcher) : Option (BitVec 32) × DnsMatcher :=
  match d.pool with
  | none => (none, d)
  | some pool =>
    let (ip, pool) := pool.allocate d.ipAddresses.size fun ip => d.ipAddresses.contains ip
    (ip, { d with pool := some pool })

/-- The candidates `allocate_ip` looks at: none where the count of addresses in use tells already. -/
def inspected (d : DnsMatcher) : List (BitVec 32) :=
  match d.pool with
  | none => []
  | some p =>
    if p.capacity ≤ min d.ipAddresses.size (2 ^ 32 - 1) then []
    else p.inspected (fun ip => d.ipAddresses.contains ip) p.capacity

def insertHostname (d : DnsMatcher) (name : Text) (entry : DnsEntry) : DnsMatcher :=
  { d with
    hostnames := d.hostnames.insert name entry
    ipAddresses := d.ipAddresses.insert entry.ip name }

def register (d : DnsMatcher) (address intercept : Text) : RegisterOutcome × DnsMatcher :=
  match checkName address with
  | none => (.rejected, d)
  | some (clean, true) =>
    let suffix := clean.drop 2
    let owners := d.domains[suffix]?.getD ∅
    (.domain, { d with domains := d.domains.insert suffix (owners.insert intercept) })
  | some (clean, false) =>
    match d.hostnames[clean]? with
    | some entry =>
      let entry := { entry with intercepts := entry.intercepts.insert intercept }
      (.hostname entry.ip, { d with hostnames := d.hostnames.insert clean entry })
    | none =>
      match d.allocateIp with
      | (some ip, d) =>
        (.hostname ip, d.insertHostname clean ⟨ip, none, (∅ : Owners).insert intercept⟩)
      | (none, d) => (.ipUnavailable, d)

/-- Whether a name stays once its owners are what they are. -/
def keepsEntry (domains : Std.ExtTreeMap Text Owners) (entry : DnsEntry) : Bool :=
  !entry.intercepts.isEmpty ||
    entry.domain.any fun suffix => domains[suffix]?.any fun owners => !owners.isEmpty

/-- Take a service out of all owner sets, then drop the names and the domains left without. -/
def deregisterIntercept (d : DnsMatcher) (intercept : Text) : DnsMatcher :=
  let domains := d.domains.map fun _ owners => owners.erase intercept
  let hostnames := d.hostnames.map fun _ entry =>
    { entry with intercepts := entry.intercepts.erase intercept }
  let dropped := hostnames.toList.filter fun kv => !keepsEntry domains kv.2
  { d with
    domains := domains.filter fun _ owners => !owners.isEmpty
    hostnames := hostnames.filter fun _ entry => keepsEntry domains entry
    ipAddresses := dropped.foldl (fun ips kv => ips.erase kv.2.ip) d.ipAddresses }

/-- Answer a query, handing out an address for a new name under a registered domain. -/
def lookup (d : DnsMatcher) (query : Text) : Option DnsMatch × DnsMatcher :=
  match checkName query with
  | none => (none, d)
  | some (_, true) => (none, d)
  | some (clean, false) =>
    match d.hostnames[clean]? with
    | some entry =>
      let kind := if entry.domain.isSome then DnsMatchKind.domain else .hostname
      (some ⟨kind, entry.ip⟩, d)
    | none =>
      match findDomain clean d.domains with
      | none => (none, d)
      | some matched =>
        match d.allocateIp with
        | (none, d) => (none, d)
        | (some ip, d) => (some ⟨.domain, ip⟩, d.insertHostname clean ⟨ip, some matched, ∅⟩)

def reverseLookup (d : DnsMatcher) (ip : BitVec 32) : Option Text := d.ipAddresses[ip]?

/-- The domain an address was handed out under. -/
def reverseLookupDomain (d : DnsMatcher) (ip : BitVec 32) : Option Text := do
  let hostname ← d.ipAddresses[ip]?
  let entry ← d.hostnames[hostname]?
  if entry.ip ≠ ip then none else entry.domain

def wildcardSuffix (address : Text) : Option Text :=
  match checkName address with
  | some (clean, true) => some (clean.drop 2)
  | _ => none

end DnsMatcher

section Names

/-- A wildcard's suffix, in the form it is registered and matched in. -/
def suffixOf (address : Text) : Text := lowerAscii (address.drop 2)

/-- Addresses that register a domain. -/
def IsWildcard (address : Text) : Prop := ∃ rest, address = '*' :: '.' :: rest

instance (address : Text) : Decidable (IsWildcard address) :=
  decidable_of_iff (address.take 2 = ['*', '.']) <| by
    constructor
    · intro h
      refine ⟨address.drop 2, ?_⟩
      have happ := List.take_append_drop 2 address
      rw [h] at happ
      exact happ.symm
    · rintro ⟨rest, rfl⟩
      rfl

theorem checkName_wildcard {address : Text} (h : IsWildcard address) : checkName address =
    if utf8Len (suffixOf address) < 254 then some ('*' :: '.' :: suffixOf address, true)
    else none := by
  obtain ⟨rest, rfl⟩ := h
  have htwo : utf8Len ['*', '.'] = 2 := by decide
  have hlen : utf8Len (suffixOf ('*' :: '.' :: rest)) = utf8Len rest := utf8Len_map_asciiLower rest
  rw [hlen]
  simp only [checkName, htwo, maxDnsName, suffixOf, List.drop_succ_cons, List.drop_zero]
  split_ifs <;> first | rfl | omega

theorem checkName_hostname {address : Text} (h : ¬ IsWildcard address) : checkName address =
    if utf8Len (lowerAscii address) < 256 then some (lowerAscii address, false) else none := by
  unfold checkName
  split
  · next rest => exact absurd ⟨rest, rfl⟩ h
  · have hlen : utf8Len (lowerAscii address) = utf8Len address := utf8Len_map_asciiLower address
    rw [hlen, maxDnsName]
    by_cases hl : utf8Len address < 256
    · rw [if_pos hl, if_neg (Nat.not_le.mpr hl)]
    · rw [if_neg hl, if_pos (Nat.not_lt.mp hl)]

theorem findParent_mem {domains : Std.ExtTreeMap Text Owners} {name d : Text}
    (h : findParent domains name = some d) : d ∈ domains := by
  induction name with
  | nil => cases h
  | cons c rest ih =>
    unfold findParent at h
    split_ifs at h with hc
    · cases h
      exact hc.2
    · exact ih h

theorem findDomain_mem {domains : Std.ExtTreeMap Text Owners} {name d : Text}
    (h : findDomain name domains = some d) : d ∈ domains := by
  unfold findDomain at h
  split_ifs at h with hm
  · cases h
    exact hm
  · exact findParent_mem h

end Names

/-- What the candidates of a pool keep, its allocation keeps, and what is handed out is a candidate that
is not in use. -/
theorem IpPool.allocate_induction {inv : IpPool → Prop} {good : BitVec 32 → Prop}
    (hnext : ∀ p, inv p → p.capacity ≠ 0 → inv p.next.2 ∧ good p.next.1) {p : IpPool} (h : inv p)
    (count : Nat) (isOccupied : BitVec 32 → Bool) :
    inv (p.allocate count isOccupied).2 ∧
      ∀ ip, (p.allocate count isOccupied).1 = some ip → good ip ∧ isOccupied ip = false := by
  have hloop (n : Nat) {p : IpPool} (h : inv p) (hcap : p.capacity ≠ 0) :
      inv (allocateLoop isOccupied n p).2 ∧
        ∀ ip, (allocateLoop isOccupied n p).1 = some ip → good ip ∧ isOccupied ip = false := by
    induction n generalizing p with
    | zero => exact ⟨h, nofun⟩
    | succ n ih =>
      obtain ⟨hinv, hgood⟩ := hnext p h hcap
      simp only [allocateLoop]
      split_ifs with hocc
      · exact ih hinv hcap
      · refine ⟨hinv, fun ip hip => ?_⟩
        obtain rfl := Option.some.inj hip
        exact ⟨hgood, Bool.eq_false_iff.mpr hocc⟩
  unfold allocate
  split_ifs with hfull
  · exact ⟨h, nofun⟩
  · exact hloop p.capacity h (by omega)

/-- A pool never hands out an address in use. -/
theorem IpPool.allocate_fresh {p p' : IpPool} {count : Nat} {isOccupied : BitVec 32 → Bool}
    {ip : BitVec 32} (h : p.allocate count isOccupied = (some ip, p')) : isOccupied ip = false := by
  have hspec := @allocate_induction (fun _ => True) (fun _ => True) (fun _ _ _ => ⟨trivial, trivial⟩) p
    trivial count isOccupied
  exact (hspec.2 ip (congrArg Prod.fst h)).2

namespace DnsMatcher

/-- What all operations keep: an address in use leads back to its name, and the names and domains
are short enough to have come through `checkName`. -/
structure Wf (d : DnsMatcher) : Prop where
  reverse : ∀ (name : Text) (e : DnsEntry), d.hostnames[name]? = some e →
    d.ipAddresses[e.ip]? = some name
  names : ∀ (name : Text) (e : DnsEntry), d.hostnames[name]? = some e → utf8Len name < 256
  assigned : ∀ (name : Text) (e : DnsEntry) (dom : Text), d.hostnames[name]? = some e →
    e.domain = some dom → utf8Len dom < 254
  domains : ∀ dom ∈ d.domains, utf8Len dom < 254

/-- The service intercepts the name, which has the address. -/
def Owned (d : DnsMatcher) (service name : Text) (ip : BitVec 32) : Prop :=
  ∃ e, d.hostnames[name]? = some e ∧ e.ip = ip ∧ service ∈ e.intercepts

/-- Names keep their address, the domain they were assigned under and their owners. -/
def Grows (d d' : DnsMatcher) : Prop :=
  ∀ (name : Text) (e : DnsEntry), d.hostnames[name]? = some e →
    ∃ e', d'.hostnames[name]? = some e' ∧ e'.ip = e.ip ∧ ∀ s ∈ e.intercepts, s ∈ e'.intercepts

theorem Grows.refl (d : DnsMatcher) : d.Grows d := fun _ e h => ⟨e, h, rfl, fun _ hs => hs⟩

theorem Grows.trans {d d' d'' : DnsMatcher} (h : d.Grows d') (h' : d'.Grows d'') : d.Grows d'' := by
  intro name e he
  obtain ⟨e', he', hip, hs⟩ := h name e he
  obtain ⟨e'', he'', hip', hs'⟩ := h' name e' he'
  exact ⟨e'', he'', hip'.trans hip, fun s hm => hs' s (hs s hm)⟩

theorem Grows.of_hostnames {d d' : DnsMatcher} (h : d'.hostnames = d.hostnames) : d.Grows d' := by
  unfold Grows
  rw [h]
  exact Grows.refl d

theorem grows_insertHostname {d : DnsMatcher} {name : Text} (hnew : d.hostnames[name]? = none)
    (e : DnsEntry) : d.Grows (d.insertHostname name e) := by
  intro n x hx
  refine ⟨x, ?_, rfl, fun s hs => hs⟩
  have hne : ¬ name = n := by
    rintro rfl
    rw [hnew] at hx
    cases hx
  rw [insertHostname, lookup_insert, if_neg hne]
  exact hx

theorem grows_addOwner {d : DnsMatcher} {name : Text} {e : DnsEntry}
    (he : d.hostnames[name]? = some e) (service : Text) :
    d.Grows { d with
      hostnames := d.hostnames.insert name { e with intercepts := e.intercepts.insert service } } := by
  intro n x hx
  rw [lookup_insert]
  split_ifs with hn
  · rw [← hn, he] at hx
    cases hx
    exact ⟨_, rfl, rfl, fun s hs => Std.ExtTreeSet.mem_insert.mpr (.inr hs)⟩
  · exact ⟨x, hx, rfl, fun s hs => hs⟩

theorem Owned.grows {d d' : DnsMatcher} {service name : Text} {ip : BitVec 32}
    (h : d.Owned service name ip) (hg : d.Grows d') : d'.Owned service name ip := by
  obtain ⟨e, he, hip, hs⟩ := h
  obtain ⟨e', he', hip', hs'⟩ := hg name e he
  exact ⟨e', he', hip'.trans hip, hs' service hs⟩

theorem wf_new : new.Wf := by
  constructor <;> simp [new]

theorem allocateIp_spec (d : DnsMatcher) : (d.allocateIp.2.hostnames = d.hostnames ∧
    d.allocateIp.2.domains = d.domains ∧ d.allocateIp.2.ipAddresses = d.ipAddresses) ∧
    ∀ ip, d.allocateIp.1 = some ip → d.ipAddresses[ip]? = none := by
  unfold allocateIp
  cases d.pool with
  | none => exact ⟨⟨rfl, rfl, rfl⟩, nofun⟩
  | some pool =>
    refine ⟨⟨rfl, rfl, rfl⟩, fun ip hip => ?_⟩
    have hfree := IpPool.allocate_fresh (Prod.ext hip rfl)
    exact Std.ExtTreeMap.getElem?_eq_none_of_contains_eq_false hfree

theorem grows_allocateIp (d : DnsMatcher) : d.Grows d.allocateIp.2 :=
  .of_hostnames d.allocateIp_spec.1.1

theorem wf_allocateIp {d : DnsMatcher} (h : d.Wf) : d.allocateIp.2.Wf := by
  obtain ⟨⟨hh, hd, hi⟩, -⟩ := d.allocateIp_spec
  constructor
  · simpa only [hh, hi] using h.reverse
  · simpa only [hh] using h.names
  · simpa only [hh] using h.assigned
  · simpa only [hd] using h.domains

theorem insertHostname_spec {d : DnsMatcher} (h : d.Wf) {name : Text} {e : DnsEntry}
    (hname : d.hostnames[name]? = none) (hip : d.ipAddresses[e.ip]? = none)
    (hlen : utf8Len name < 256) (hdom : ∀ dom, e.domain = some dom → utf8Len dom < 254) :
    (d.insertHostname name e).Wf ∧ d.Grows (d.insertHostname name e) := by
  have hother : ∀ (n : Text) (x : DnsEntry), d.hostnames[n]? = some x → ¬ e.ip = x.ip := by
    intro n x hx heq
    rw [heq, h.reverse n x hx] at hip
    cases hip
  refine ⟨⟨?_, ?_, ?_, h.domains⟩, grows_insertHostname hname e⟩
  · intro n x hx
    simp only [insertHostname, lookup_insert] at hx ⊢
    split_ifs at hx with hn
    · cases hx
      rw [if_pos rfl, hn]
    · rw [if_neg (hother n x hx)]
      exact h.reverse n x hx
  · intro n x hx
    simp only [insertHostname, lookup_insert] at hx
    split_ifs at hx with hn
    · rwa [← hn]
    · exact h.names n x hx
  · intro n x dom hx hd
    simp only [insertHostname, lookup_insert] at hx
    split_ifs at hx with hn
    · cases hx
      exact hdom dom hd
    · exact h.assigned n x dom hx hd

theorem assign_spec {d : DnsMatcher} (h : d.Wf) {name : Text} {e : DnsEntry}
    (hname : d.hostnames[name]? = none) (hip : d.allocateIp.1 = some e.ip)
    (hlen : utf8Len name < 256) (hdom : ∀ dom, e.domain = some dom → utf8Len dom < 254) :
    (d.allocateIp.2.insertHostname name e).Wf ∧ d.Grows (d.allocateIp.2.insertHostname name e) := by
  obtain ⟨⟨hh, -, hi⟩, hfree⟩ := d.allocateIp_spec
  have hname' : d.allocateIp.2.hostnames[name]? = none := by rw [hh, hname]
  have hip' : d.allocateIp.2.ipAddresses[e.ip]? = none := by rw [hi, hfree e.ip hip]
  obtain ⟨hwf, hgrows⟩ := insertHostname_spec (wf_allocateIp h) hname' hip' hlen hdom
  exact ⟨hwf, d.grows_allocateIp.trans hgrows⟩

theorem addOwner_spec {d : DnsMatcher} (h : d.Wf) {name : Text} (service : Text) {e : DnsEntry}
    (he : d.hostnames[name]? = some e) :
    let e' := { e with intercepts := e.intercepts.insert service }
    let d' := { d with hostnames := d.hostnames.insert name e' }
    d'.Wf ∧ d.Grows d' := by
  intro e' d'
  refine ⟨⟨?_, ?_, ?_, h.domains⟩, grows_addOwner he service⟩
  · intro n x hx
    simp only [d', lookup_insert] at hx
    split_ifs at hx with hn
    · cases hx
      rw [← hn]
      exact h.reverse name e he
    · exact h.reverse n x hx
  · intro n x hx
    simp only [d', lookup_insert] at hx
    split_ifs at hx with hn
    · rw [← hn]
      exact h.names name e he
    · exact h.names n x hx
  · intro n x dom hx hd
    simp only [d', lookup_insert] at hx
    split_ifs at hx with hn
    · cases hx
      exact h.assigned name e dom he hd
    · exact h.assigned n x dom hx hd

/-- What the outcome of a registration tells about the name's address. -/
def Registered (d : DnsMatcher) (name service : Text) : RegisterOutcome → Prop
  | .hostname ip => d.Owned service name ip
  | .domain => False
  | _ => d.hostnames[name]? = none

theorem register_wildcard_spec {d : DnsMatcher} (h : d.Wf) {address : Text}
    (ha : IsWildcard address) (service : Text) :
    (d.register address service).2.Wf ∧ d.Grows (d.register address service).2 := by
  unfold register
  rw [checkName_wildcard ha]
  split_ifs with hlen
  · refine ⟨⟨h.reverse, h.names, h.assigned, fun dom hdom => ?_⟩, .refl d⟩
    rcases Std.ExtTreeMap.mem_insert.mp hdom with heq | hold
    · rw [← Std.compare_eq_iff_eq.mp heq]
      exact hlen
    · exact h.domains dom hold
  · exact ⟨h, .refl d⟩

theorem register_hostname_spec {d : DnsMatcher} (h : d.Wf) {address : Text}
    (ha : ¬ IsWildcard address) (service : Text) :
    (d.register address service).2.Wf ∧ d.Grows (d.register address service).2 ∧
      (d.register address service).2.Registered (lowerAscii address) service
        (d.register address service).1 := by
  unfold register
  rw [checkName_hostname ha]
  split_ifs with hlen
  · dsimp only
    cases he : d.hostnames[lowerAscii address]? with
    | some e =>
      obtain ⟨hwf, hgrows⟩ := addOwner_spec h service he
      refine ⟨hwf, hgrows, { e with intercepts := e.intercepts.insert service }, ?_, rfl, ?_⟩
      · exact Std.ExtTreeMap.getElem?_insert_self
      · exact Std.ExtTreeSet.mem_insert_self
    | none =>
      have hh := d.allocateIp_spec.1.1
      have hassign (ip : BitVec 32) (hip : d.allocateIp.1 = some ip) := assign_spec h
        (e := ⟨ip, none, (∅ : Owners).insert service⟩) he hip hlen nofun
      rcases hall : d.allocateIp with ⟨_ | ip, d'⟩ <;>
        obtain rfl : d.allocateIp.2 = d' := by rw [hall]
      · refine ⟨wf_allocateIp h, d.grows_allocateIp, ?_⟩
        change d.allocateIp.2.hostnames[lowerAscii address]? = none
        rw [hh]
        exact he
      · obtain ⟨hwf, hgrows⟩ := hassign ip (by rw [hall])
        refine ⟨hwf, hgrows, ⟨ip, none, (∅ : Owners).insert service⟩, ?_, rfl, ?_⟩
        · exact Std.ExtTreeMap.getElem?_insert_self
        · exact Std.ExtTreeSet.mem_insert_self
  · refine ⟨h, .refl d, ?_⟩
    change d.hostnames[lowerAscii address]? = none
    refine Option.eq_none_iff_forall_ne_some.mpr fun e he => ?_
    exact hlen (h.names _ e he)

theorem register_none {d : DnsMatcher} (h : d.Wf) {address service : Text}
    (ha : ¬ IsWildcard address) (hreg : ∀ ip, (d.register address service).1 ≠ .hostname ip) :
    (d.register address service).2.hostnames[lowerAscii address]? = none := by
  have hspec := (register_hostname_spec h ha service).2.2
  cases hout : (d.register address service).1 with
  | hostname ip => exact absurd hout (hreg ip)
  | domain =>
    rw [hout] at hspec
    exact hspec.elim
  | _ =>
    rw [hout] at hspec
    exact hspec

theorem register_wildcard_hostnames (d : DnsMatcher) {address : Text} (ha : IsWildcard address)
    (service : Text) : (d.register address service).2.hostnames = d.hostnames := by
  unfold register
  rw [checkName_wildcard ha]
  split_ifs <;> rfl

theorem register_other (d : DnsMatcher) {address name : Text} (ha : ¬ IsWildcard address)
    (hn : lowerAscii address ≠ name) (service : Text) :
    (d.register address service).2.hostnames[name]? = d.hostnames[name]? := by
  unfold register
  rw [checkName_hostname ha]
  split_ifs with hlen
  swap
  · rfl
  dsimp only
  cases d.hostnames[lowerAscii address]? with
  | some e => simp only [lookup_insert, if_neg hn]
  | none =>
    have hh := d.allocateIp_spec.1.1
    rcases hall : d.allocateIp with ⟨_ | ip, d'⟩ <;> rw [hall] at hh
    · exact congrArg (·[name]?) hh
    · simp only [insertHostname, lookup_insert, if_neg hn]
      exact congrArg (·[name]?) hh

theorem lookup_spec {d : DnsMatcher} (h : d.Wf) (query : Text) :
    (d.lookup query).2.Wf ∧ d.Grows (d.lookup query).2 := by
  unfold lookup
  by_cases hq : IsWildcard query
  · rw [checkName_wildcard hq]
    split_ifs <;> exact ⟨h, .refl d⟩
  rw [checkName_hostname hq]
  split_ifs with hlen
  swap
  · exact ⟨h, .refl d⟩
  dsimp only
  cases he : d.hostnames[lowerAscii query]? with
  | some e => exact ⟨h, .refl d⟩
  | none =>
    dsimp only
    cases hdom : findDomain (lowerAscii query) d.domains with
    | none => exact ⟨h, .refl d⟩
    | some matched =>
      have hassign (ip : BitVec 32) (hip : d.allocateIp.1 = some ip) := assign_spec h
        (e := ⟨ip, some matched, ∅⟩) he hip hlen fun dom hd => by
          cases hd
          exact h.domains matched (findDomain_mem hdom)
      rcases hall : d.allocateIp with ⟨_ | ip, d'⟩ <;>
        obtain rfl : d.allocateIp.2 = d' := by rw [hall]
      · exact ⟨wf_allocateIp h, d.grows_allocateIp⟩
      · exact hassign ip (by rw [hall])

theorem seedPool_spec {d : DnsMatcher} (h : d.Wf) (net : Option (Net 32)) :
    (d.seedPool net).2.Wf ∧ d.Grows (d.seedPool net).2 := by
  unfold seedPool
  cases net.bind IpPool.seed with
  | none => exact ⟨h, .refl d⟩
  | some pool => exact ⟨⟨h.reverse, h.names, h.assigned, h.domains⟩, .refl d⟩

theorem reserve_spec {d : DnsMatcher} (h : d.Wf) (ip : BitVec 32) :
    (d.reserve ip).Wf ∧ d.Grows (d.reserve ip) := by
  refine ⟨⟨fun name e he => ?_, h.names, h.assigned, h.domains⟩, .refl d⟩
  have hold := h.reverse name e he
  simp only [reserve, Std.ExtTreeMap.getElem?_insertIfNew]
  split_ifs with hnew
  · rw [Std.compare_eq_iff_eq.mp hnew.1] at hnew
    exact absurd (mem_iff_lookup.mpr ⟨name, hold⟩) hnew.2
  · exact hold

theorem deregisterIntercept_hostnames (d : DnsMatcher) (service name : Text) :
    (d.deregisterIntercept service).hostnames[name]? =
      (d.hostnames[name]?.map fun e => { e with intercepts := e.intercepts.erase service }).filter
        (keepsEntry (d.domains.map fun _ owners => owners.erase service)) := by
  simp only [deregisterIntercept, Std.ExtTreeMap.getElem?_filter', Std.ExtTreeMap.getElem?_map]

theorem deregisterIntercept_kept {d : DnsMatcher} {service name : Text} {x : DnsEntry}
    (hx : (d.deregisterIntercept service).hostnames[name]? = some x) :
    ∃ e, d.hostnames[name]? = some e ∧ x = { e with intercepts := e.intercepts.erase service } := by
  rw [deregisterIntercept_hostnames] at hx
  obtain ⟨hmap, -⟩ := Option.filter_eq_some_iff.mp hx
  obtain ⟨e, he, rfl⟩ := Option.map_eq_some_iff.mp hmap
  exact ⟨e, he, rfl⟩

theorem wf_deregisterIntercept {d : DnsMatcher} (h : d.Wf) (service : Text) :
    (d.deregisterIntercept service).Wf := by
  refine ⟨fun name x hx => ?_, fun name x hx => ?_, fun name x dom hx hd => ?_, fun dom hdom => ?_⟩
  · obtain ⟨e, he, hxe⟩ := deregisterIntercept_kept hx
    have hrev := h.reverse name e he
    subst hxe
    simp only [deregisterIntercept]
    rw [lookup_foldl_erase (fun kv : Text × DnsEntry => kv.2.ip), if_neg]
    · exact hrev
    -- a dropped entry with this address would lead back to the same, kept name
    intro hdrop
    obtain ⟨⟨n, y⟩, hmem, hip⟩ := List.mem_map.mp hdrop
    obtain ⟨hlist, hgone⟩ := List.mem_filter.mp hmem
    rw [Std.ExtTreeMap.mem_toList_iff_getElem?_eq_some, Std.ExtTreeMap.getElem?_map,
      Option.map_eq_some_iff] at hlist
    obtain ⟨e', he', rfl⟩ := hlist
    have hrev' := h.reverse n e' he'
    rw [show e'.ip = e.ip from hip, hrev] at hrev'
    cases hrev'
    rw [he] at he'
    cases he'
    rw [deregisterIntercept_hostnames, he] at hx
    have hkeep := (Option.filter_eq_some_iff.mp hx).2
    rw [hkeep] at hgone
    cases hgone
  · obtain ⟨e, he, -⟩ := deregisterIntercept_kept hx
    exact h.names name e he
  · obtain ⟨e, he, rfl⟩ := deregisterIntercept_kept hx
    exact h.assigned name e dom he hd
  · refine h.domains dom ?_
    obtain ⟨owners, ho⟩ := mem_iff_lookup.mp hdom
    simp only [deregisterIntercept, Std.ExtTreeMap.getElem?_filter', Std.ExtTreeMap.getElem?_map] at ho
    obtain ⟨hmap, -⟩ := Option.filter_eq_some_iff.mp ho
    obtain ⟨owners', ho', -⟩ := Option.map_eq_some_iff.mp hmap
    exact mem_iff_lookup.mpr ⟨owners', ho'⟩

/-- A service that goes takes no name away from another. -/
theorem Owned.deregisterIntercept {d : DnsMatcher} {service other name : Text} {ip : BitVec 32}
    (h : d.Owned other name ip) (hne : service ≠ other) :
    (d.deregisterIntercept service).Owned other name ip := by
  obtain ⟨e, he, hip, hs⟩ := h
  have hmem : other ∈ e.intercepts.erase service := by
    refine Std.ExtTreeSet.mem_erase.mpr ⟨?_, hs⟩
    exact fun heq => hne (Std.compare_eq_iff_eq.mp heq)
  refine ⟨{ e with intercepts := e.intercepts.erase service }, ?_, hip, hmem⟩
  rw [deregisterIntercept_hostnames, he]
  refine Option.filter_eq_some_iff.mpr ⟨rfl, ?_⟩
  have hne : (e.intercepts.erase service).isEmpty = false := by
    refine Bool.eq_false_iff.mpr fun hempty => ?_
    rw [Std.ExtTreeSet.isEmpty_iff.mp hempty] at hmem
    exact Std.ExtTreeSet.not_mem_empty hmem
  simp [keepsEntry, hne]

theorem reverseLookupDomain_eq_some {d : DnsMatcher} (h : d.Wf) {ip : BitVec 32} {dom : Text} :
    d.reverseLookupDomain ip = some dom ↔
      ∃ (name : Text) (e : DnsEntry), d.hostnames[name]? = some e ∧ e.ip = ip ∧
        e.domain = some dom := by
  simp only [reverseLookupDomain, Option.bind_eq_bind, Option.bind_eq_some_iff]
  constructor
  · rintro ⟨name, -, e, he, hdom⟩
    split_ifs at hdom with hip
    exact ⟨name, e, he, not_not.mp hip, hdom⟩
  · rintro ⟨name, e, he, rfl, hdom⟩
    exact ⟨name, h.reverse name e he, e, he, by simpa using hdom⟩

end DnsMatcher

end Noa.Tunnel.Intercept
