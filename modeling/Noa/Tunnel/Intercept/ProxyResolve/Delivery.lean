import Noa.Framework.Machine
import Noa.Tunnel.Intercept.ProxyResolve.Wiring

namespace Noa.Tunnel.Intercept.ProxyResolve
open Noa.Framework Noa.Channel Noa.Tunnel.Resolve

/-- A query as it was registered. -/
structure Query where
  domain : Text
  service : Text
  id : UInt16
  json : Bytes
  pending : ProxyPending

/-- A response formatted from a chunk: the number of the query it completed, the task that read the
chunk, and what was sent. -/
structure Delivery where
  query : Option Nat
  task : Nat
  chunk : Bytes
  recursionAvailable : Bool
  response : Bytes × SocketAddr × SocketAddr

/-- A chunk a task has read, and how many queries had been registered by then. -/
structure Heard where
  task : Nat
  chunk : Bytes
  registered : Nat

/-- A manager with its history: the queries in the order they were registered and the number of
each pending one, the domains and services connections were asked for, the jobs its tasks have
written and the chunks they have read, and the responses made of these. -/
structure ProxyRun where
  dns : ProxyDns
  queries : List Query
  asked : Std.ExtTreeMap UInt16 Nat
  asks : List (Text × Text)
  written : List (Nat × ProxyJob)
  heard : List Heard
  deliveries : List Delivery

inductive ProxyAct where
  | forward (service : Option (Text × Nat)) (q : ProxyQuery) (packet : Bytes)
      (serverAddr clientAddr : SocketAddr) (recursionAvailable : Bool) (now : Nat)
  | ensureConn (service : Text) (timeout : Nat) (domain : Text)
  | task (n : Nat) (turn : TaskTurn)
  | event (recursionAvailable : Bool)
  | evict (now : Nat)

namespace ProxyRun

variable (fromSlice : Bytes → Option WireMsg)

def new : ProxyRun := ⟨.new, [], ∅, [], [], [], []⟩

/-- The history after the manager has changed to a state with fewer pending queries. -/
def settle (r : ProxyRun) (dns : ProxyDns) : ProxyRun :=
  { r with dns := dns, asked := r.asked.filter fun id _ => dns.pending.contains id }

/-- The history after the turn of a task. -/
def turned (r : ProxyRun) (n : Nat) (turn : TaskTurn) (dns : ProxyDns) : ProxyRun :=
  let after := { r with dns := dns }
  match turn, (r.dns.tasks[n]?).map ProxyTask.state with
  | .chunk data, _ => { after with heard := ⟨n, data, r.queries.length⟩ :: r.heard }
  | .wrote true, some (.writing job) => { after with written := (n, job) :: r.written }
  | _, _ => after

def step (r : ProxyRun) : ProxyAct → Option ProxyRun
  | .forward service q packet serverAddr clientAddr recursionAvailable now =>
    let dns := (r.dns.handleForward service q packet serverAddr clientAddr recursionAvailable now).2
    match service with
    | none => some { r with dns := dns }
    | some (service, _) =>
      if q.id ∈ r.dns.pending then some { r with dns := dns }
      else
        let pending := ⟨packet, q.nameStrlen, serverAddr, clientAddr, now⟩
        some { r with
          dns := dns
          queries := r.queries ++ [⟨q.domain, service, q.id, q.json, pending⟩]
          asked := r.asked.insert q.id r.queries.length
          asks := (q.domain, service) :: r.asks }
  | .ensureConn service timeout domain =>
    some { r with
      dns := r.dns.ensureConn service timeout domain
      asks := (domain, service) :: r.asks }
  | .task n turn => (r.dns.taskTurn n turn).map (r.turned n turn)
  | .event recursionAvailable =>
    match r.dns.events with
    | [] => none
    | (n, ev) :: rest =>
      let (out, dns) := { r.dns with events := rest }.onEvent fromSlice ev recursionAvailable
      let made := match ev, out with
        | .data chunk, some response =>
          let query := (parsePeerResponse fromSlice chunk).bind fun resp => r.asked[resp.id]?
          [⟨query, n, chunk, recursionAvailable, response⟩]
        | _, _ => []
      some { r.settle dns with deliveries := r.deliveries ++ made }
  | .evict now => some (r.settle (r.dns.evictExpired now))

end ProxyRun

section Accounts

variable {fromSlice : Bytes → Option WireMsg} {r r' : ProxyRun}

/-- One of the queries is the job's, and was forwarded for the domain to the service. -/
def Asked (queries : List Query) (domain service : Text) (job : ProxyJob) : Prop :=
  ∃ q ∈ queries, q.domain = domain ∧ q.service = service ∧ q.id = job.id ∧ q.json = job.json

/-- The response of a delivery goes to the client of its query and has the answers of its chunk,
which a task has read and which carries the identifier of the query. -/
def Answers (fromSlice : Bytes → Option WireMsg) (r : ProxyRun) (d : Delivery) : Prop :=
  ∃ n q resp, d.query = some n ∧ r.queries[n]? = some q ∧
    (∃ x ∈ r.heard, x.task = d.task ∧ x.chunk = d.chunk) ∧
    parsePeerResponse fromSlice d.chunk = some resp ∧ resp.id = q.id ∧
    d.response = (formatRespAnswers q.pending.packet q.pending.nameStrlen dnsNoError resp.answers 0
      d.recursionAvailable, q.pending.serverAddr, q.pending.clientAddr)

/-- The history accounts for what the manager has pending and has answered. -/
structure Accounts (fromSlice : Bytes → Option WireMsg) (r : ProxyRun) : Prop where
  wired : r.dns.Wired r.asks (Asked r.queries)
  registered : ∀ (id : UInt16) (p : ProxyPending), r.dns.pending[id]? = some p →
    ∃ (n : Nat) (q : Query), r.asked[id]? = some n ∧ r.queries[n]? = some q ∧ q.pending = p
  numbered : ∀ (id : UInt16) (n : Nat), r.asked[id]? = some n →
    ∃ q : Query, r.queries[n]? = some q ∧ q.id = id
  unanswered : ∀ (id : UInt16) (n : Nat), r.asked[id]? = some n →
    ∀ d ∈ r.deliveries, d.query ≠ some n
  once : (r.deliveries.map (·.query)).Nodup
  sent : ∀ n chunk, (n, .data chunk) ∈ r.dns.events → ∃ x ∈ r.heard, x.task = n ∧ x.chunk = chunk
  heard : ∀ x ∈ r.heard, ∃ t, r.dns.tasks[x.task]? = some t
  written : ∀ n job, (n, job) ∈ r.written →
    ∃ t, r.dns.tasks[n]? = some t ∧ Asked r.queries t.domain t.dial.service job
  delivered : ∀ d ∈ r.deliveries, Answers fromSlice r d

/-- What has happened stays so. -/
structure ProxyRun.Evolves (r r' : ProxyRun) : Prop where
  queries : r.queries <+: r'.queries
  heard : r.heard ⊆ r'.heard
  keeps : r.dns.Keeps r'.dns

theorem ProxyRun.Evolves.query (h : r.Evolves r') {n : Nat} {q : Query}
    (hq : r.queries[n]? = some q) : r'.queries[n]? = some q := by
  obtain ⟨later, hlater⟩ := h.queries
  rw [← hlater, List.getElem?_append_left (List.getElem?_eq_some_iff.mp hq).1]
  exact hq

theorem Asked.evolves {domain service : Text} {job : ProxyJob}
    (h : Asked r.queries domain service job) (he : r.Evolves r') :
    Asked r'.queries domain service job := by
  obtain ⟨q, hq, hrest⟩ := h
  exact ⟨q, he.queries.subset hq, hrest⟩

theorem Answers.evolves {d : Delivery} (h : Answers fromSlice r d) (he : r.Evolves r') :
    Answers fromSlice r' d := by
  obtain ⟨n, q, resp, hn, hq, ⟨x, hx, hheard⟩, hrest⟩ := h
  exact ⟨n, q, resp, hn, he.query hq, ⟨x, he.heard hx, hheard⟩, hrest⟩

theorem Accounts.heard_evolves (h : Accounts fromSlice r) (he : r.Evolves r') :
    ∀ x ∈ r.heard, ∃ t, r'.dns.tasks[x.task]? = some t := by
  intro x hx
  obtain ⟨t, ht⟩ := h.heard x hx
  obtain ⟨t', ht', -⟩ := he.keeps x.task t ht
  exact ⟨t', ht'⟩

theorem Accounts.written_evolves (h : Accounts fromSlice r) (he : r.Evolves r') :
    ∀ n job, (n, job) ∈ r.written →
      ∃ t, r'.dns.tasks[n]? = some t ∧ Asked r'.queries t.domain t.dial.service job := by
  intro n job hmem
  obtain ⟨t, ht, hasked⟩ := h.written n job hmem
  obtain ⟨t', ht', hd, hdial⟩ := he.keeps n t ht
  refine ⟨t', ht', ?_⟩
  rw [hd, hdial]
  exact hasked.evolves he

theorem accounts_new : Accounts fromSlice ProxyRun.new := by
  constructor <;> simp [ProxyRun.new, ProxyDns.new]
  exact ⟨by simp, by simp⟩

theorem Accounts.frames (h : Accounts fromSlice r) {dns : ProxyDns} {asks : List (Text × Text)}
    (hw : dns.Wired asks (Asked r.queries)) (hf : r.dns.Frames dns) :
    Accounts fromSlice { r with dns := dns, asks := asks } ∧
      r.Evolves { r with dns := dns, asks := asks } := by
  have he : r.Evolves { r with dns := dns, asks := asks } :=
    ⟨List.prefix_refl _, List.Subset.refl _, hf.keeps⟩
  refine ⟨⟨hw, ?_, h.numbered, h.unanswered, h.once, ?_, h.heard_evolves he, h.written_evolves he,
    fun d hd => (h.delivered d hd).evolves he⟩, he⟩
  · rw [hf.pending]
    exact h.registered
  · rw [hf.events]
    exact h.sent

theorem ProxyRun.settle_asked (r : ProxyRun) (dns : ProxyDns) (id : UInt16) (n : Nat) :
    (r.settle dns).asked[id]? = some n ↔ r.asked[id]? = some n ∧ id ∈ dns.pending := by
  simp only [ProxyRun.settle, Std.ExtTreeMap.getElem?_filter', Option.filter_eq_some_iff,
    Std.ExtTreeMap.contains_iff_mem]

theorem ProxyRun.Evolves.of_same (hq : r'.queries = r.queries) (hh : r'.heard = r.heard)
    (ht : r'.dns.tasks = r.dns.tasks) : r.Evolves r' := by
  refine ⟨?_, ?_, fun n t hn => ⟨t, ?_, rfl, rfl⟩⟩
  · rw [hq]
  · rw [hh]
    exact List.Subset.refl _
  · rw [ht]
    exact hn

theorem Accounts.settle (h : Accounts fromSlice r) {dns : ProxyDns}
    (hw : dns.Wired r.asks (Asked r.queries)) (htasks : dns.tasks = r.dns.tasks)
    (hevents : dns.events ⊆ r.dns.events)
    (hp : ∀ (id : UInt16) (p : ProxyPending), dns.pending[id]? = some p →
      r.dns.pending[id]? = some p) : Accounts fromSlice (r.settle dns) := by
  have he : r.Evolves (r.settle dns) := .of_same rfl rfl htasks
  have hasked := r.settle_asked dns
  refine ⟨hw, fun id p hid => ?_, fun id n hn => ?_, fun id n hn => ?_, h.once,
    fun n chunk hmem => h.sent n chunk (hevents hmem), h.heard_evolves he, h.written_evolves he,
    fun d hd => (h.delivered d hd).evolves he⟩
  · obtain ⟨n, q, hn, hq, hpend⟩ := h.registered id p (hp id p hid)
    have hmem : id ∈ dns.pending := by
      rw [Std.ExtTreeMap.mem_iff_isSome_getElem?]
      exact Option.isSome_of_eq_some hid
    exact ⟨n, q, (hasked id n).mpr ⟨hn, hmem⟩, hq, hpend⟩
  · exact h.numbered id n ((hasked id n).mp hn).1
  · exact h.unanswered id n ((hasked id n).mp hn).1

theorem Accounts.deliver (h : Accounts fromSlice r) {d : Delivery}
    (hd : Answers fromSlice r d) (hgone : ∀ (id : UInt16) (n : Nat), r.asked[id]? = some n →
      d.query ≠ some n) (hnew : ∀ d' ∈ r.deliveries, d'.query ≠ d.query) :
    Accounts fromSlice { r with deliveries := r.deliveries ++ [d] } := by
  refine ⟨h.wired, h.registered, h.numbered, fun id n hn d' hd' => ?_, ?_, h.sent, h.heard,
    h.written, fun d' hd' => ?_⟩
  · rcases List.mem_append.mp hd' with hd' | hd'
    · exact h.unanswered id n hn d' hd'
    · rw [List.mem_singleton.mp hd']
      exact hgone id n hn
  · rw [List.map_append, List.nodup_append]
    refine ⟨h.once, by simp, ?_⟩
    simp only [List.mem_map, List.map_cons, List.map_nil, List.mem_singleton]
    rintro _ ⟨d', hd', rfl⟩ _ rfl
    exact hnew d' hd'
  · rcases List.mem_append.mp hd' with hd' | hd'
    · exact h.delivered d' hd'
    · rw [List.mem_singleton.mp hd']
      exact hd

/-- The history after a query was handed to the connection of its domain and registered. -/
def ProxyRun.forwarded (r : ProxyRun) (q : ProxyQuery) (service : Text) (timeout : Nat)
    (pending : ProxyPending) : ProxyRun :=
  let sent := r.dns.sendJob service timeout q.domain ⟨q.id, q.json⟩
  { r with
    dns := { sent with pending := sent.pending.insert q.id pending }
    queries := r.queries ++ [⟨q.domain, service, q.id, q.json, pending⟩]
    asked := r.asked.insert q.id r.queries.length
    asks := (q.domain, service) :: r.asks }

theorem Accounts.forward (h : Accounts fromSlice r) (q : ProxyQuery) (service : Text)
    (timeout : Nat) (pending : ProxyPending) :
    Accounts fromSlice (r.forwarded q service timeout pending) ∧
      r.Evolves (r.forwarded q service timeout pending) := by
  have hwired : r.dns.Wired ((q.domain, service) :: r.asks)
      (Asked (r.queries ++ [⟨q.domain, service, q.id, q.json, pending⟩])) := by
    refine h.wired.mono (List.subset_cons_self _ _) fun domain service job hjob => ?_
    obtain ⟨x, hx, hrest⟩ := hjob
    exact ⟨x, List.mem_append_left _ hx, hrest⟩
  have hasked : Asked (r.queries ++ [⟨q.domain, service, q.id, q.json, pending⟩]) q.domain service
      ⟨q.id, q.json⟩ :=
    ⟨_, List.mem_append_right _ List.mem_cons_self, rfl, rfl, rfl, rfl⟩
  obtain ⟨hw, hf⟩ := hwired.sendJob List.mem_cons_self hasked timeout
  have he : r.Evolves (r.forwarded q service timeout pending) :=
    ⟨List.prefix_append _ _, List.Subset.refl _, hf.keeps⟩
  refine ⟨⟨⟨hw.tasks, hw.conns⟩, fun id p hid => ?_, fun id n hn => ?_, fun id n hn => ?_, h.once,
    ?_, h.heard_evolves he, h.written_evolves he, fun d hd => (h.delivered d hd).evolves he⟩, he⟩
  · simp only [ProxyRun.forwarded, Std.ExtTreeMap.getElem?_insert] at hid ⊢
    split_ifs at hid ⊢ with heq
    · cases hid
      exact ⟨_, _, rfl, List.getElem?_concat_length, rfl⟩
    · rw [hf.pending] at hid
      obtain ⟨n, x, hn, hx, hp⟩ := h.registered id p hid
      exact ⟨n, x, hn, he.query hx, hp⟩
  · simp only [ProxyRun.forwarded, Std.ExtTreeMap.getElem?_insert] at hn
    split_ifs at hn with heq
    · cases hn
      exact ⟨_, List.getElem?_concat_length, Std.compare_eq_iff_eq.mp heq⟩
    · obtain ⟨x, hx, hid⟩ := h.numbered id n hn
      exact ⟨x, he.query hx, hid⟩
  · simp only [ProxyRun.forwarded, Std.ExtTreeMap.getElem?_insert] at hn
    split_ifs at hn with heq
    · -- the number is new, and what has been answered was registered before
      cases hn
      intro d hd hq
      obtain ⟨m, x, -, hm, hx, -⟩ := h.delivered d hd
      have hlt : m < r.queries.length := (List.getElem?_eq_some_iff.mp hx).1
      cases hm.symm.trans hq
      exact Nat.lt_irrefl _ hlt
    · exact h.unanswered id n hn
  · simp only [ProxyRun.forwarded]
    rw [hf.events]
    exact h.sent

theorem ProxyRun.turned_cases (r : ProxyRun) (n : Nat) (turn : TaskTurn) (dns : ProxyDns) :
    (∃ data, turn = .chunk data ∧ r.turned n turn dns =
      { r with dns := dns, heard := ⟨n, data, r.queries.length⟩ :: r.heard }) ∨
    (∀ data, turn ≠ .chunk data) ∧ ((∃ t job, r.dns.tasks[n]? = some t ∧ t.Holds job ∧
      r.turned n turn dns = { r with dns := dns, written := (n, job) :: r.written }) ∨
      r.turned n turn dns = { r with dns := dns }) := by
  unfold ProxyRun.turned
  split
  next _ data => exact .inl ⟨data, rfl, rfl⟩
  next job hstate =>
    obtain ⟨t, ht, hst⟩ := Option.map_eq_some_iff.mp hstate
    exact .inr ⟨by simp, .inl ⟨t, job, ht, .inr hst, rfl⟩⟩
  next hchunk hwrote =>
    refine .inr ⟨fun data hd => ?_, .inr rfl⟩
    exact hchunk data hd

theorem Accounts.turned (h : Accounts fromSlice r) {n : Nat} {turn : TaskTurn} {dns : ProxyDns}
    (hs : r.dns.taskTurn n turn = some dns) :
    Accounts fromSlice (r.turned n turn dns) ∧ r.Evolves (r.turned n turn dns) := by
  obtain ⟨hw, hpending, hkeeps, ⟨t, ht⟩, hevents⟩ := h.wired.taskTurn hs
  obtain ⟨t', ht', hd, hdial⟩ := hkeeps n t ht
  have hreg := h.registered
  rw [← hpending] at hreg
  rcases r.turned_cases n turn dns with ⟨data, hturn, heq⟩ | ⟨hno, ⟨x, job, hx, hjob, heq⟩ | heq⟩
  · rw [heq]
    have he : r.Evolves { r with dns := dns, heard := ⟨n, data, r.queries.length⟩ :: r.heard } :=
      ⟨List.prefix_refl _, List.subset_cons_self _ _, hkeeps⟩
    refine ⟨⟨hw, hreg, h.numbered, h.unanswered, h.once, fun k chunk hmem => ?_, ?_,
      h.written_evolves he, fun d hd => (h.delivered d hd).evolves he⟩, he⟩
    · rcases hevents k chunk hmem with hmem | ⟨rfl, hchunk⟩
      · obtain ⟨y, hy, hrest⟩ := h.sent k chunk hmem
        exact ⟨y, List.mem_cons_of_mem _ hy, hrest⟩
      · cases hturn.symm.trans hchunk
        exact ⟨_, List.mem_cons_self, rfl, rfl⟩
    · intro y hy
      rcases List.mem_cons.mp hy with rfl | hy
      · exact ⟨t', ht'⟩
      · exact h.heard_evolves he y hy
  all_goals
    have hsent : ∀ k chunk, (k, .data chunk) ∈ dns.events →
        ∃ y ∈ r.heard, y.task = k ∧ y.chunk = chunk := fun k chunk hmem =>
      (hevents k chunk hmem).elim (h.sent k chunk) fun hnew => absurd hnew.2 (hno chunk)
    rw [heq]
  · have he : r.Evolves { r with dns := dns, written := (n, job) :: r.written } :=
      ⟨List.prefix_refl _, List.Subset.refl _, hkeeps⟩
    refine ⟨⟨hw, hreg, h.numbered, h.unanswered, h.once, hsent, h.heard_evolves he, ?_,
      fun d hd => (h.delivered d hd).evolves he⟩, he⟩
    intro k j hmem
    rcases List.mem_cons.mp hmem with heq | hmem
    · cases heq
      obtain rfl : t = x := Option.some.inj (ht.symm.trans hx)
      refine ⟨t', ht', ?_⟩
      rw [hd, hdial]
      exact (h.wired.tasks n t ht).jobs job hjob
    · exact h.written_evolves he k j hmem
  · have he : r.Evolves { r with dns := dns } := ⟨List.prefix_refl _, List.Subset.refl _, hkeeps⟩
    exact ⟨⟨hw, hreg, h.numbered, h.unanswered, h.once, hsent, h.heard_evolves he,
      h.written_evolves he, fun d hd => (h.delivered d hd).evolves he⟩, he⟩

theorem ProxyDns.complete_cases (s : ProxyDns) (id : UInt16) (status : UInt8)
    (answers : Option (List RespAnswer)) (ra : Bool) :
    s.pending[id]? = none ∧ s.complete id status answers ra = (none, s) ∨
    ∃ p, s.pending[id]? = some p ∧ s.complete id status answers ra =
      (some (formatRespAnswers p.packet p.nameStrlen status answers 0 ra, p.serverAddr,
        p.clientAddr), { s with pending := s.pending.erase id }) := by
  unfold ProxyDns.complete
  cases hp : s.pending[id]? with
  | none => exact .inl ⟨rfl, rfl⟩
  | some p => exact .inr ⟨p, rfl, rfl⟩

theorem erase_pending {pending : Std.ExtTreeMap UInt16 ProxyPending} {id x : UInt16}
    {p : ProxyPending} (hx : (pending.erase id)[x]? = some p) : x ≠ id ∧ pending[x]? = some p := by
  rw [Std.ExtTreeMap.getElem?_erase] at hx
  split_ifs at hx with hne
  exact ⟨fun heq => hne (heq ▸ Std.compare_self), hx⟩

theorem Accounts.taken (h : Accounts fromSlice r) {rest : List (Nat × ProxyEvent)}
    (hrest : rest ⊆ r.dns.events) (pending : Std.ExtTreeMap UInt16 ProxyPending)
    (hp : ∀ (id : UInt16) (p : ProxyPending), pending[id]? = some p →
      r.dns.pending[id]? = some p) :
    Accounts fromSlice (r.settle { r.dns with events := rest, pending := pending }) ∧
      r.Evolves (r.settle { r.dns with events := rest, pending := pending }) :=
  ⟨h.settle ⟨h.wired.tasks, h.wired.conns⟩ rfl hrest hp, .of_same rfl rfl rfl⟩

theorem Accounts.answered (h : Accounts fromSlice r) {n : Nat} {chunk : Bytes}
    {rest : List (Nat × ProxyEvent)} (hev : r.dns.events = (n, .data chunk) :: rest)
    {resp : PeerResponse} (hparse : parsePeerResponse fromSlice chunk = some resp)
    {p : ProxyPending} (hp : r.dns.pending[resp.id]? = some p) (ra : Bool) :
    Accounts fromSlice { r.settle { r.dns with
        events := rest, pending := r.dns.pending.erase resp.id } with
      deliveries := r.deliveries ++ [⟨r.asked[resp.id]?, n, chunk, ra,
        formatRespAnswers p.packet p.nameStrlen dnsNoError resp.answers 0 ra, p.serverAddr,
        p.clientAddr⟩] } := by
  have hrest : rest ⊆ r.dns.events := by
    rw [hev]
    exact List.subset_cons_self _ _
  obtain ⟨htaken, -⟩ := h.taken hrest (r.dns.pending.erase resp.id)
    fun _ _ hp => (erase_pending hp).2
  obtain ⟨m, q, hm, hq, hpend⟩ := h.registered resp.id p hp
  obtain ⟨q', hq', hid⟩ := h.numbered resp.id m hm
  obtain rfl : q = q' := Option.some.inj (hq.symm.trans hq')
  rw [hm]
  refine htaken.deliver ?_ (fun id k hk hmk => ?_) (h.unanswered resp.id m hm)
  · have hheard := h.sent n chunk (by rw [hev]; exact List.mem_cons_self)
    exact ⟨m, q, resp, rfl, hq, hheard, hparse, hid.symm, by rw [hpend]⟩
  · -- no other identifier is pending under the number of this query
    obtain ⟨hk, hmem⟩ := (r.settle_asked _ id k).mp hk
    cases hmk
    obtain ⟨q', hq', hid'⟩ := h.numbered id m hk
    obtain rfl : q = q' := Option.some.inj (hq.symm.trans hq')
    rw [Std.ExtTreeMap.mem_iff_isSome_getElem?, Option.isSome_iff_exists] at hmem
    obtain ⟨p', hp'⟩ := hmem
    exact (erase_pending hp').1 (hid'.symm.trans hid)

theorem Accounts.event (h : Accounts fromSlice r) {ra : Bool}
    (hs : r.step fromSlice (.event ra) = some r') : Accounts fromSlice r' ∧ r.Evolves r' := by
  unfold ProxyRun.step at hs
  cases hev : r.dns.events with
  | nil => simp [hev] at hs
  | cons e rest =>
    obtain ⟨n, ev⟩ := e
    have hrest : rest ⊆ r.dns.events := by
      rw [hev]
      exact List.subset_cons_self _ _
    have hsame := h.taken hrest r.dns.pending fun _ _ hp => hp
    simp only [hev, Option.some.injEq] at hs
    subst hs
    cases ev with
    | writeFailed id =>
      simp only [ProxyDns.onEvent, List.append_nil]
      rcases ProxyDns.complete_cases { r.dns with events := rest } id dnsServfail none ra with
        ⟨-, heq⟩ | ⟨p, -, heq⟩
      · rw [heq]
        exact hsame
      · rw [heq]
        exact h.taken hrest (r.dns.pending.erase id) fun _ _ hp => (erase_pending hp).2
    | data chunk =>
      cases hparse : parsePeerResponse fromSlice chunk with
      | none =>
        simp only [ProxyDns.onEvent, hparse, List.append_nil]
        exact hsame
      | some resp =>
        simp only [ProxyDns.onEvent, hparse]
        rcases ProxyDns.complete_cases { r.dns with events := rest } resp.id dnsNoError
          resp.answers ra with ⟨-, heq⟩ | ⟨p, hp, heq⟩
        · rw [heq]
          simp only [List.append_nil]
          exact hsame
        · rw [heq]
          simp only [hparse, Option.bind_some]
          exact ⟨h.answered hev hparse hp ra, .of_same rfl rfl rfl⟩

theorem Accounts.step (h : Accounts fromSlice r) {act : ProxyAct}
    (hs : r.step fromSlice act = some r') : Accounts fromSlice r' ∧ r.Evolves r' := by
  have hsame : Accounts fromSlice r ∧ r.Evolves r :=
    ⟨h, .of_same rfl rfl rfl⟩
  cases act with
  | forward service q packet serverAddr clientAddr ra now =>
    simp only [ProxyRun.step, ProxyDns.handleForward] at hs
    by_cases hdup : q.id ∈ r.dns.pending
    · cases service with
      | none =>
        simp only [hdup, if_true, Option.some.injEq] at hs
        subst hs
        exact hsame
      | some target =>
        simp only [hdup, if_true, Option.some.injEq] at hs
        subst hs
        exact hsame
    · cases service with
      | none =>
        simp only [hdup, if_false, Option.some.injEq] at hs
        subst hs
        exact hsame
      | some target =>
        simp only [hdup, if_false, Option.some.injEq] at hs
        subst hs
        exact h.forward q target.1 target.2 _
  | ensureConn service timeout domain =>
    cases hs
    have hw : r.dns.Wired ((domain, service) :: r.asks) (Asked r.queries) :=
      h.wired.mono (List.subset_cons_self _ _) fun _ _ _ hjob => hjob
    obtain ⟨hw', -, hf⟩ := hw.liveHandle List.mem_cons_self timeout
    exact h.frames hw' hf
  | task n turn =>
    obtain ⟨dns, hturn, rfl⟩ := Option.map_eq_some_iff.mp hs
    exact h.turned hturn
  | event ra => exact h.event hs
  | evict now =>
    cases hs
    refine ⟨h.settle (h.wired.evictExpired now) rfl (List.Subset.refl _) fun id p hp => ?_,
      .of_same rfl rfl rfl⟩
    simp only [ProxyDns.evictExpired, Std.ExtTreeMap.getElem?_filter'] at hp
    exact (Option.filter_eq_some_iff.mp hp).1

theorem run_accounts {as : List ProxyAct}
    (hrun : run (ProxyRun.step fromSlice) ProxyRun.new as = some r) : Accounts fromSlice r :=
  run_invariant (Accounts fromSlice) (fun _ _ _ hs h => (h.step hs).1) hrun accounts_new

end Accounts

section Isolation

variable {fromSlice : Bytes → Option WireMsg} {r r' : ProxyRun}

/-- The delivery was read on a connection for its query's domain to its query's service, after the
query was registered. -/
def InDomain (r : ProxyRun) (d : Delivery) : Prop :=
  ∃ n q t, d.query = some n ∧ r.queries[n]? = some q ∧ r.dns.tasks[d.task]? = some t ∧
    t.domain = q.domain ∧ t.dial.service = q.service ∧
    ∃ x ∈ r.heard, x.task = d.task ∧ x.chunk = d.chunk ∧ n < x.registered

/-- A peer answers only the identifiers of jobs that were written to it. -/
def Honest (fromSlice : Bytes → Option WireMsg) (r : ProxyRun) : ProxyAct → Prop
  | .task n (.chunk data) => ∀ resp, parsePeerResponse fromSlice data = some resp →
    ∃ job, (n, job) ∈ r.written ∧ job.id = resp.id
  | _ => True

/-- Each chunk has the identifier of a query that was registered before it was read and forwarded
for the domain to the service of its connection. -/
def Grounded (fromSlice : Bytes → Option WireMsg) (r : ProxyRun) : Prop :=
  ∀ x ∈ r.heard, ∀ resp, parsePeerResponse fromSlice x.chunk = some resp →
    ∃ m q t, m < x.registered ∧ r.queries[m]? = some q ∧ q.id = resp.id ∧
      r.dns.tasks[x.task]? = some t ∧ t.domain = q.domain ∧ t.dial.service = q.service

theorem step_heard {act : ProxyAct} (hs : r.step fromSlice act = some r') {x : Heard}
    (hx : x ∈ r'.heard) : x ∈ r.heard ∨
      ∃ n data, act = .task n (.chunk data) ∧ x = ⟨n, data, r.queries.length⟩ := by
  cases act with
  | forward service q packet serverAddr clientAddr ra now =>
    simp only [ProxyRun.step] at hs
    split at hs
    next =>
      cases hs
      exact .inl hx
    next =>
      split_ifs at hs <;> cases hs <;> exact .inl hx
  | ensureConn service timeout domain =>
    cases hs
    exact .inl hx
  | task n turn =>
    obtain ⟨dns, -, rfl⟩ := Option.map_eq_some_iff.mp hs
    rcases r.turned_cases n turn dns with ⟨data, rfl, heq⟩ | ⟨-, ⟨t, job, -, -, heq⟩ | heq⟩
    · rw [heq] at hx
      rcases List.mem_cons.mp hx with rfl | hx
      · exact .inr ⟨n, data, rfl, rfl⟩
      · exact .inl hx
    · rw [heq] at hx
      exact .inl hx
    · rw [heq] at hx
      exact .inl hx
  | event ra =>
    simp only [ProxyRun.step] at hs
    split at hs
    next => cases hs
    next =>
      cases hs
      exact .inl hx
  | evict now =>
    cases hs
    exact .inl hx

theorem Grounded.step (hg : Grounded fromSlice r) (h : Accounts fromSlice r) {act : ProxyAct}
    (hs : r.step fromSlice act = some r') (hc : Honest fromSlice r act) :
    Grounded fromSlice r' := by
  obtain ⟨-, he⟩ := h.step hs
  -- what held of a query and a task before the step holds after it
  have hkept (k m : Nat) (q : Query) (t : ProxyTask) (hq : r.queries[m]? = some q)
      (ht : r.dns.tasks[k]? = some t) (hd : t.domain = q.domain) (hsv : t.dial.service = q.service) :
      ∃ t', r'.queries[m]? = some q ∧ r'.dns.tasks[k]? = some t' ∧ t'.domain = q.domain ∧
        t'.dial.service = q.service := by
    obtain ⟨t', ht', hd', hdial⟩ := he.keeps k t ht
    exact ⟨t', he.query hq, ht', hd'.trans hd, by rw [hdial]; exact hsv⟩
  intro x hx resp hresp
  rcases step_heard hs hx with hx | ⟨n, data, rfl, rfl⟩
  · obtain ⟨m, q, t, hlt, hq, hid, ht, hd, hsv⟩ := hg x hx resp hresp
    obtain ⟨t', hq', ht', hd', hsv'⟩ := hkept x.task m q t hq ht hd hsv
    exact ⟨m, q, t', hlt, hq', hid, ht', hd', hsv'⟩
  · obtain ⟨job, hjob, hjid⟩ := hc resp hresp
    obtain ⟨t, ht, q, hmem, hd, hsv, hid, -⟩ := h.written n job hjob
    obtain ⟨m, hm⟩ := List.mem_iff_getElem?.mp hmem
    have hlt : m < r.queries.length := (List.getElem?_eq_some_iff.mp hm).1
    obtain ⟨t', hq', ht', hd', hsv'⟩ := hkept n m q t hm ht hd.symm hsv.symm
    exact ⟨m, q, t', hlt, hq', hid.trans hjid, ht', hd', hsv'⟩

theorem run_grounded {as : List ProxyAct}
    (hrun : run (ProxyRun.step fromSlice) ProxyRun.new as = some r)
    (hc : RunAll (ProxyRun.step fromSlice) (Honest fromSlice) ProxyRun.new as) :
    Grounded fromSlice r := by
  refine (run_invariant_when (fun r => Accounts fromSlice r ∧ Grounded fromSlice r)
    (fun s a s' hs hca h => ⟨(h.1.step hs).1, h.2.step h.1 hs hca⟩) hrun hc ?_).2
  exact ⟨accounts_new, fun x hx => absurd hx List.not_mem_nil⟩

/-- No other query was registered under the identifier of this one. -/
def SoleUse (queries : List Query) (n : Nat) : Prop :=
  ∀ (q : Query) (m : Nat) (q' : Query), queries[n]? = some q → queries[m]? = some q' →
    q'.id = q.id → m = n

/-- Where peers answer what they were asked, the answer to a query with an identifier of its own
stays in its domain. -/
theorem Grounded.inDomain (hg : Grounded fromSlice r) (h : Accounts fromSlice r) {d : Delivery}
    (hd : d ∈ r.deliveries) (hsole : ∀ n, d.query = some n → SoleUse r.queries n) :
    InDomain r d := by
  obtain ⟨n, q, resp, hn, hq, ⟨x, hx, htask, hchunk⟩, hparse, hid, -⟩ := h.delivered d hd
  rw [← hchunk] at hparse
  obtain ⟨m, q', t, hlt, hq', hid', ht, hdom, hsv⟩ := hg x hx resp hparse
  obtain rfl : m = n := hsole n hn q m q' hq hq' (hid'.trans hid)
  obtain rfl : q = q' := Option.some.inj (hq.symm.trans hq')
  rw [htask] at ht
  exact ⟨m, q, t, hn, hq, ht, hdom, hsv, x, hx, htask, hchunk, hlt⟩

theorem ProxyDns.onEvent_idle (s : ProxyDns) {chunk : Bytes} (ra : Bool)
    (h : ∀ resp, parsePeerResponse fromSlice chunk = some resp → resp.id ∉ s.pending) :
    s.onEvent fromSlice (.data chunk) ra = (none, s) := by
  cases hparse : parsePeerResponse fromSlice chunk with
  | none => simp only [ProxyDns.onEvent, hparse]
  | some resp =>
    have hnone : s.pending[resp.id]? = none := Std.ExtTreeMap.getElem?_eq_none (h resp hparse)
    simp only [ProxyDns.onEvent, hparse, ProxyDns.complete, hnone]

theorem ProxyDns.onEvent_other (s : ProxyDns) {chunk : Bytes} (ra : Bool) {id : UInt16}
    (h : ∀ resp, parsePeerResponse fromSlice chunk = some resp → resp.id ≠ id) :
    (s.onEvent fromSlice (.data chunk) ra).2.pending[id]? = s.pending[id]? := by
  cases hparse : parsePeerResponse fromSlice chunk with
  | none => simp only [ProxyDns.onEvent, hparse]
  | some resp =>
    simp only [ProxyDns.onEvent, hparse]
    rcases s.complete_cases resp.id dnsNoError resp.answers ra with ⟨-, heq⟩ | ⟨p, -, heq⟩
    · rw [heq]
    · rw [heq]
      simp [Std.ExtTreeMap.getElem?_erase, h resp hparse]

/-- Questions stay within their domain, and answers are matched by identifier alone: a response goes
to the client of the query that was pending under the chunk's identifier, once, and a chunk without
such a query changes nothing. If peers answer only what they were asked, the connection it came from
is the query's own wherever the identifier was not used for another query. -/
theorem answers_by_identifier {as : List ProxyAct}
    (hrun : run (ProxyRun.step fromSlice) ProxyRun.new as = some r) :
    (∀ d ∈ r.deliveries, Answers fromSlice r d ∧
      ∃ t, r.dns.tasks[d.task]? = some t ∧ (t.domain, t.dial.service) ∈ r.asks) ∧
    (r.deliveries.map (·.query)).Nodup ∧
    (∀ (n : Nat) (t : ProxyTask) (job : ProxyJob), r.dns.tasks[n]? = some t → t.Holds job →
      Asked r.queries t.domain t.dial.service job) ∧
    (∀ n job, (n, job) ∈ r.written →
      ∃ t, r.dns.tasks[n]? = some t ∧ Asked r.queries t.domain t.dial.service job) ∧
    (∀ chunk ra, (∀ resp, parsePeerResponse fromSlice chunk = some resp →
      resp.id ∉ r.dns.pending) → r.dns.onEvent fromSlice (.data chunk) ra = (none, r.dns)) ∧
    (∀ (chunk : Bytes) (ra : Bool) (id : UInt16),
      (∀ resp, parsePeerResponse fromSlice chunk = some resp → resp.id ≠ id) →
        (r.dns.onEvent fromSlice (.data chunk) ra).2.pending[id]? = r.dns.pending[id]?) ∧
    (RunAll (ProxyRun.step fromSlice) (Honest fromSlice) ProxyRun.new as →
      ∀ d ∈ r.deliveries, (∀ n, d.query = some n → SoleUse r.queries n) → InDomain r d) := by
  have h := run_accounts hrun
  refine ⟨fun d hd => ⟨h.delivered d hd, ?_⟩, h.once,
    fun n t job ht hjob => (h.wired.tasks n t ht).jobs job hjob, h.written,
    fun chunk ra hno => r.dns.onEvent_idle ra hno,
    fun chunk ra id hno => r.dns.onEvent_other ra hno,
    fun hc d hd hsole => (run_grounded hrun hc).inDomain h hd hsole⟩
  obtain ⟨-, -, -, -, -, ⟨x, hx, htask, -⟩, -⟩ := h.delivered d hd
  obtain ⟨t, ht⟩ := h.heard x hx
  rw [htask] at ht
  exact ⟨t, ht, (h.wired.tasks d.task t ht).asked⟩

end Isolation

/-- A TXT answer under the identifier 8. -/
def txtChunk : Bytes :=
  Edge.strBytes "\x7b\"id\":8,\"answer\":[\x7b\"type\":16,\"ttl\":60,\"data\":\"x\"\x7d]\x7d"

def readTxt (chunk : Bytes) : Option WireMsg :=
  if chunk = txtChunk then some ⟨8, some [⟨16, 60, 0, 0, 0, some ['x']⟩]⟩ else none

def clientAt (port : UInt16) : SocketAddr := ⟨.v4 0x0a000001#32, port⟩

/-- Forward a query under an identifier for a domain to a service, for a client. -/
def ask (domain service : String) (id port : UInt16) : ProxyAct :=
  .forward (some (service.toList, 5)) ⟨domain.toList, id, 6, []⟩ [] (clientAt 53) (clientAt port)
    false 0

/-- The connection of one query answers it. -/
def ownActs : List ProxyAct :=
  [ask "b.test" "svcB" 8 4001, .task 0 (.dialed true), .task 0 .takeJob, .task 0 (.wrote true),
    .task 0 (.chunk txtChunk), .event false]

/-- Who asked under which identifier, who was dialed, which task read a chunk after how many
queries, and which query was answered by which task to whom, with the answer count sent. -/
structure Outline where
  queries : List (Text × Text × UInt16)
  tasks : List (Text × Text)
  heard : List (Nat × Nat)
  deliveries : List (Option Nat × Nat × SocketAddr × Bytes)
  deriving DecidableEq

def ProxyRun.outline (r : ProxyRun) : Outline :=
  { queries := r.queries.map fun q => (q.domain, q.service, q.id)
    tasks := r.dns.tasks.map fun t => (t.domain, t.dial.service)
    heard := r.heard.map fun x => (x.task, x.registered)
    deliveries := r.deliveries.map fun d =>
      (d.query, d.task, d.response.2.2, (d.response.1.drop 6).take 2) }

theorem ownActs_honest :
    RunAll (ProxyRun.step readTxt) (Honest readTxt) ProxyRun.new ownActs := by
  refine ⟨trivial, fun _ h => ?_⟩
  cases h
  refine ⟨trivial, fun _ h => ?_⟩
  cases h
  refine ⟨trivial, fun _ h => ?_⟩
  cases h
  refine ⟨trivial, fun _ h => ?_⟩
  cases h
  refine ⟨fun resp hresp => ⟨⟨8, []⟩, ?_, ?_⟩, fun _ h => ⟨trivial, fun _ _ => trivial⟩⟩
  · exact List.mem_cons_self
  · have hread : parsePeerResponse readTxt txtChunk =
        some ⟨8, some [⟨16, 60, 0, 0, 0, ['x']⟩]⟩ := by decide +kernel
    cases hread.symm.trans hresp
    rfl

theorem answers_by_identifier_own : ∃ r, run (ProxyRun.step readTxt) ProxyRun.new ownActs = some r ∧
    r.outline.deliveries = [(some 0, 0, clientAt 4001, [0, 1])] ∧
    ∀ d ∈ r.deliveries, Answers readTxt r d ∧ InDomain r d := by
  have h (r : ProxyRun) (hrun : run (ProxyRun.step readTxt) ProxyRun.new ownActs = some r) :=
    answers_by_identifier hrun
  have hrun : (run (ProxyRun.step readTxt) ProxyRun.new ownActs).map ProxyRun.outline =
      some ⟨[("b.test".toList, "svcB".toList, 8)], [("b.test".toList, "svcB".toList)], [(0, 1)],
        [(some 0, 0, clientAt 4001, [0, 1])]⟩ := by
    decide +kernel
  obtain ⟨r, hr, hout⟩ := Option.map_eq_some_iff.mp hrun
  obtain ⟨q, hq, -⟩ := List.map_eq_singleton_iff.mp (congrArg Outline.queries hout)
  have hsole (n : Nat) : SoleUse r.queries n := by
    intro x m y hx hy _
    have hn := (List.getElem?_eq_some_iff.mp hx).1
    have hm := (List.getElem?_eq_some_iff.mp hy).1
    rw [hq, List.length_singleton] at hn hm
    omega
  obtain ⟨hall, -, -, -, -, -, hin⟩ := h r hr
  exact ⟨r, hr, congrArg Outline.deliveries hout,
    fun d hd => ⟨(hall d hd).1, hin ownActs_honest d hd fun n _ => hsole n⟩⟩

/-- The connection of another domain and service names an identifier that is not in use, and a query
takes it before the chunk is looked at. -/
def crossActs : List ProxyAct :=
  [ask "a.test" "svcA" 7 4000, .task 0 (.dialed true), .task 0 .takeJob, .task 0 (.wrote true),
    .task 0 (.chunk txtChunk), ask "b.test" "svcB" 8 4001, .event false]

def crossOutline : Outline :=
  { queries := [("a.test".toList, "svcA".toList, 7), ("b.test".toList, "svcB".toList, 8)]
    tasks := [("a.test".toList, "svcA".toList), ("b.test".toList, "svcB".toList)]
    heard := [(0, 1)]
    deliveries := [(some 1, 0, clientAt 4001, [0, 1])] }

theorem answer_from_other_domain : ∃ r, run (ProxyRun.step readTxt) ProxyRun.new crossActs = some r ∧
    r.outline = crossOutline ∧ ¬ ∀ d ∈ r.deliveries, InDomain r d := by
  have hrun : (run (ProxyRun.step readTxt) ProxyRun.new crossActs).map ProxyRun.outline =
      some crossOutline := by
    decide +kernel
  obtain ⟨r, hr, hout⟩ := Option.map_eq_some_iff.mp hrun
  refine ⟨r, hr, hout, fun hall => ?_⟩
  simp only [ProxyRun.outline, crossOutline, Outline.mk.injEq] at hout
  obtain ⟨hqueries, htasks, -, hdeliveries⟩ := hout
  obtain ⟨d, hd, heq⟩ := List.map_eq_singleton_iff.mp hdeliveries
  simp only [Prod.mk.injEq] at heq
  obtain ⟨n, q, t, hn, hq, ht, hdomain, -⟩ := hall d (by rw [hd]; exact List.mem_cons_self)
  obtain rfl : 1 = n := Option.some.inj (heq.1.symm.trans hn)
  rw [heq.2.1] at ht
  have hq' := congrArg (·[1]?) hqueries
  have ht' := congrArg (·[0]?) htasks
  simp only [List.getElem?_map, hq, ht, Option.map_some, List.getElem?_cons_succ,
    List.getElem?_cons_zero, Option.some.injEq, Prod.mk.injEq] at hq' ht'
  rw [hq'.1, ht'.1] at hdomain
  exact absurd hdomain (by decide)

end Noa.Tunnel.Intercept.ProxyResolve
