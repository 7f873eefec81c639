import Noa.Tunnel.Intercept.ProxyResolve.Delivery

namespace Noa.Tunnel.Intercept.ProxyResolve
open Noa.Framework Noa.Channel Noa.Tunnel.Resolve

/-- A job that was handed to `send_job` for a domain and a service, with the task whose handle is the
domain's from then on. -/
structure Handed where
  domain : Text
  service : Text
  job : ProxyJob
  task : Nat

/-- A manager with the jobs it was handed, and the jobs its tasks have written and the events they
have sent, each with the number of the task. -/
structure JobRun where
  dns : ProxyDns
  handed : List Handed
  written : List (Nat × ProxyJob)
  sent : List (Nat × ProxyEvent)

/-- The failures among events, by the identifiers of their jobs. -/
def failures (sent : List ProxyEvent) : List UInt16 :=
  sent.filterMap fun ev =>
    match ev with
    | .writeFailed id => some id
    | .data _ => none

/-- What a log has of one task. -/
def entriesOf {α : Type} (n : Nat) (log : List (Nat × α)) : List α :=
  (log.filter (·.1 == n)).map Prod.snd

/-- The job whose write call returns in a turn, if it succeeds. -/
def ProxyTask.writes (t : ProxyTask) (turn : TaskTurn) : Option ProxyJob :=
  match turn, t.state with
  | .wrote true, .writing job => some job
  | _, _ => none

namespace JobRun

def new : JobRun := ⟨.new, [], [], []⟩

def step (fromSlice : Bytes → Option WireMsg) (r : JobRun) : ProxyAct → Option JobRun
  | .forward service q packet serverAddr clientAddr recursionAvailable now =>
    let dns := (r.dns.handleForward service q packet serverAddr clientAddr recursionAvailable now).2
    match service with
    | none => some { r with dns := dns }
    | some (service, _) =>
      if q.id ∈ r.dns.pending then some { r with dns := dns }
      else
        let task := (dns.conns[q.domain]?.map ProxyConnHandle.task).getD dns.tasks.length
        some { r with dns := dns, handed := r.handed ++ [⟨q.domain, service, ⟨q.id, q.json⟩, task⟩] }
  | .ensureConn service timeout domain =>
    some { r with dns := r.dns.ensureConn service timeout domain }
  | .task n turn =>
    (r.dns.taskTurn n turn).map fun dns => { r with
      dns := dns
      written := r.written ++ ((r.dns.tasks[n]?.bind (·.writes turn)).map (n, ·)).toList
      sent := r.sent ++ dns.events.drop r.dns.events.length }
  | .event recursionAvailable =>
    match r.dns.events with
    | [] => none
    | (_, ev) :: rest =>
      some { r with
        dns := ({ r.dns with events := rest }.onEvent fromSlice ev recursionAvailable).2 }
  | .evict now => some { r with dns := r.dns.evictExpired now }

/-- The jobs that were handed to the connection of a task. -/
def handedTo (r : JobRun) (n : Nat) : List ProxyJob :=
  entriesOf n (r.handed.map fun e => (e.task, e.job))

def writtenBy (r : JobRun) (n : Nat) : List ProxyJob := entriesOf n r.written

/-- The identifiers of the jobs a task has reported as failed. -/
def reportedBy (r : JobRun) (n : Nat) : List UInt16 := failures (entriesOf n r.sent)

end JobRun

/-- The jobs a task still has: the one it writes, and those in its queue. -/
def ProxyTask.left (t : ProxyTask) : List ProxyJob :=
  match t.state with
  | .writing job => job :: t.jobs
  | .dialing | .serving | .ended => t.jobs

/-- What a turn does to the jobs of a task: it writes at most one and has the rest before it, or it
ends and reports them all. -/
inductive ProxyTask.Accounts (t : ProxyTask) (turn : TaskTurn) (sent : List ProxyEvent)
    (t' : ProxyTask) : Prop
  | goesOn (hstate : t.state ≠ .ended) (hstate' : t'.state ≠ .ended) (hclosed : t'.closed = t.closed)
      (hreceiving : t'.receiving = t.receiving) (hsent : failures sent = [])
      (hleft : t.left = (t.writes turn).toList ++ t'.left)
  | ends (hstate : t.state ≠ .ended) (hstate' : t'.state = .ended) (hclosed : t'.closed = true)
      (hreceiving : t'.receiving = false) (hwrites : t.writes turn = none) (hleft : t'.left = [])
      (hsent : failures sent = t.left.map ProxyJob.id)

theorem failures_jobs (jobs : List ProxyJob) :
    failures (jobs.map fun job => .writeFailed job.id) = jobs.map ProxyJob.id := by
  induction jobs with
  | nil => rfl
  | cons job jobs ih => exact congrArg (job.id :: ·) ih

theorem ProxyTask.turn_accounts {t t' : ProxyTask} {hasHandle : Bool} {turn : TaskTurn}
    {sent : List ProxyEvent} (hturn : turn ≠ .aborted)
    (h : t.turn hasHandle turn = some (sent, t')) : t.Accounts turn sent t' := by
  have hfinish (hstate : t.state = .dialing ∨ t.state = .serving) (hwrites : t.writes turn = none)
      (hfin : t.finish = (sent, t')) : t.Accounts turn sent t' := by
    cases hfin
    have hleft : t.left = t.jobs := by
      rcases hstate with hs | hs <;> rw [ProxyTask.left, hs]
    refine .ends ?_ rfl rfl rfl hwrites rfl ?_
    · rcases hstate with hs | hs <;> rw [hs] <;> simp
    · rw [hleft]
      exact failures_jobs t.jobs
  cases turn with
  | aborted => exact absurd rfl hturn
  | dialed ok =>
    simp only [ProxyTask.turn] at h
    split at h
    · next hs =>
      cases ok with
      | false => exact hfinish (.inl hs) rfl (Option.some.inj h)
      | true =>
        cases h
        refine .goesOn (by simp [hs]) (by simp) rfl rfl rfl ?_
        rw [ProxyTask.left, hs]
        rfl
    · cases h
  | takeJob =>
    simp only [ProxyTask.turn] at h
    split at h
    · next job rest hs hjobs =>
      cases h
      refine .goesOn (by simp [hs]) (by simp) rfl rfl rfl ?_
      rw [ProxyTask.left, hs]
      exact hjobs
    · cases h
  | wrote ok =>
    simp only [ProxyTask.turn] at h
    split at h
    · next job hs =>
      cases ok with
      | true =>
        cases h
        refine .goesOn (by simp [hs]) (by simp) rfl rfl rfl ?_
        simp [ProxyTask.left, ProxyTask.writes, hs]
      | false =>
        cases h
        refine .ends (by simp [hs]) rfl rfl rfl rfl rfl ?_
        rw [ProxyTask.left, hs]
        exact congrArg (job.id :: ·) (failures_jobs t.jobs)
    · cases h
  | chunk data =>
    simp only [ProxyTask.turn] at h
    split at h
    · next hs =>
      cases h
      exact .goesOn (by simp [hs]) (by simp [hs]) rfl rfl rfl rfl
    · cases h
  | readEnded =>
    simp only [ProxyTask.turn] at h
    split at h
    · next hs => exact hfinish (.inr hs) rfl (Option.some.inj h)
    · cases h
  | handleDropped =>
    simp only [ProxyTask.turn] at h
    split at h
    · next hs hjobs =>
      split_ifs at h
      exact hfinish (.inr hs) rfl (Option.some.inj h)
    · cases h

section Logs

variable {α : Type}

theorem entriesOf_append (n : Nat) (l l' : List (Nat × α)) :
    entriesOf n (l ++ l') = entriesOf n l ++ entriesOf n l' := by
  simp [entriesOf]

theorem entriesOf_map (n k : Nat) (xs : List α) :
    entriesOf k (xs.map (n, ·)) = if n = k then xs else [] := by
  induction xs with
  | nil => simp [entriesOf]
  | cons x xs ih => by_cases hk : n = k <;> simp_all [entriesOf]

theorem failures_append (l l' : List ProxyEvent) : failures (l ++ l') = failures l ++ failures l' :=
  List.filterMap_append

end Logs

theorem ProxyTask.left_push (t : ProxyTask) (job : ProxyJob) :
    { t with jobs := t.jobs ++ [job] }.left = t.left ++ [job] := by
  unfold ProxyTask.left
  cases t.state <;> rfl

theorem ProxyDns.liveHandle_conns (s : ProxyDns) (service : Text) (timeout : Nat) (domain : Text) :
    (s.liveHandle service timeout domain).2.conns[domain]? =
      some (s.liveHandle service timeout domain).1 := by
  rcases s.liveHandle_cases service timeout domain with ⟨h, hconn, -, -, heq⟩ | ⟨conns, -, heq⟩
  · rw [heq]
    exact hconn
  · rw [heq]
    exact Std.ExtTreeMap.getElem?_insert_self

theorem ProxyDns.send_fresh {s : ProxyDns} {domain : Text} (hnone : s.conns[domain]? = none)
    (service : Text) (timeout : Nat) (job : ProxyJob) :
    ∃ s', (s.liveHandle service timeout domain).2.send (s.liveHandle service timeout domain).1 job =
      some s' := by
  rcases s.liveHandle_cases service timeout domain with ⟨h, hconn, -⟩ | ⟨conns, -, heq⟩
  · rw [hnone] at hconn
    cases hconn
  · rw [heq]
    exact ⟨_, if_pos (by simp [ProxyTask.spawn])⟩

theorem ProxyDns.send_conns {s s' : ProxyDns} {h : ProxyConnHandle} {job : ProxyJob}
    (hs : s.send h job = some s') : s'.conns = s.conns := by
  unfold ProxyDns.send at hs
  split_ifs at hs
  cases hs
  rfl

theorem ProxyDns.onEvent_frame (s : ProxyDns) (fromSlice : Bytes → Option WireMsg) (ev : ProxyEvent)
    (recursionAvailable : Bool) :
    (s.onEvent fromSlice ev recursionAvailable).2.tasks = s.tasks ∧
      (s.onEvent fromSlice ev recursionAvailable).2.conns = s.conns := by
  have hcomplete (id : UInt16) (status : UInt8) (answers : Option (List RespAnswer)) :
      (s.complete id status answers recursionAvailable).2.tasks = s.tasks ∧
        (s.complete id status answers recursionAvailable).2.conns = s.conns := by
    unfold ProxyDns.complete
    split <;> exact ⟨rfl, rfl⟩
  unfold ProxyDns.onEvent
  split
  · exact hcomplete _ _ _
  · split
    · exact ⟨rfl, rfl⟩
    · exact hcomplete _ _ _

namespace JobRun

variable {fromSlice : Bytes → Option WireMsg} {spared : Nat → Prop} {r r' : JobRun}

/-- The books of a task: what was handed to its connection was written, then reported as failed, or
is before it still, in this order. It reports nothing before it ends, and has nothing left then. -/
structure Books (r : JobRun) (n : Nat) (t : ProxyTask) : Prop where
  receiving : t.receiving = !t.closed
  ended : t.state = .ended ↔ t.closed = true
  jobs : ∃ failed : List ProxyJob, r.handedTo n = r.writtenBy n ++ (failed ++ t.left) ∧
    r.reportedBy n = failed.map ProxyJob.id ∧ (t.closed = false → failed = [])
  left : t.closed = true → t.left = []

/-- The books of the tasks that are spared an abort are kept. -/
structure Kept (spared : Nat → Prop) (r : JobRun) : Prop where
  wired : ∃ asks, r.dns.Wired asks fun _ _ _ => True
  handed : ∀ e ∈ r.handed, r.dns.Reaches ⟨e.task, e.service⟩ e.domain e.service
  books : ∀ (n : Nat) (t : ProxyTask), spared n → r.dns.tasks[n]? = some t → r.Books n t
  unknown : ∀ n, r.dns.tasks.length ≤ n →
    r.handedTo n = [] ∧ r.writtenBy n = [] ∧ r.reportedBy n = []

theorem kept_new (spared : Nat → Prop) : Kept spared new :=
  ⟨⟨[], by simp [new, ProxyDns.new], by simp [new, ProxyDns.new]⟩, List.forall_mem_nil _,
    by simp [new, ProxyDns.new], fun _ _ => ⟨rfl, rfl, rfl⟩⟩

theorem Books.withDns {n : Nat} {t : ProxyTask} (h : r.Books n t) (dns : ProxyDns) :
    Books { r with dns := dns } n t :=
  ⟨h.receiving, h.ended, h.jobs, h.left⟩

theorem Kept.sameTasks (h : r.Kept spared) {dns : ProxyDns} (htasks : dns.tasks = r.dns.tasks)
    (hconns : ∀ (d : Text) (x : ProxyConnHandle), dns.conns[d]? = some x →
      r.dns.conns[d]? = some x) : Kept spared { r with dns := dns } := by
  obtain ⟨asks, hw⟩ := h.wired
  refine ⟨⟨asks, ?_, fun d x hx => ?_⟩, ?_, ?_, ?_⟩ <;>
    simp only [ProxyDns.Reaches, htasks]
  · exact hw.tasks
  · exact hw.conns d x (hconns d x hx)
  · exact h.handed
  · exact fun n t hn ht => (h.books n t hn ht).withDns dns
  · exact h.unknown

theorem Kept.liveHandle (h : r.Kept spared) (service : Text) (timeout : Nat) (domain : Text) :
    Kept spared { r with dns := (r.dns.liveHandle service timeout domain).2 } ∧
      (r.dns.liveHandle service timeout domain).2.Reaches
        (r.dns.liveHandle service timeout domain).1 domain service := by
  obtain ⟨asks, hw⟩ := h.wired
  obtain ⟨hwired, hreaches, hframes⟩ :=
    (hw.mono (List.subset_cons_self (domain, service) asks) fun _ _ _ => id).liveHandle
      List.mem_cons_self timeout
  refine ⟨?_, hreaches⟩
  rcases r.dns.liveHandle_cases service timeout domain with ⟨x, -, -, -, heq⟩ | ⟨conns, -, heq⟩
  · rw [heq]
    exact h
  · rw [heq] at hwired hframes ⊢
    refine ⟨⟨_, hwired⟩, fun e he => (h.handed e he).kept hframes.keeps, fun n t hn ht => ?_,
      fun n hn => ?_⟩
    · rcases Nat.lt_trichotomy n r.dns.tasks.length with hlt | rfl | hgt
      · have hold : r.dns.tasks[n]? = some t := by
          rwa [List.getElem?_append_left hlt] at ht
        exact (h.books n t hn hold).withDns _
      · -- nothing was handed to the new task yet
        obtain ⟨hhanded, hwritten, hreported⟩ := h.unknown _ (Nat.le_refl _)
        obtain rfl : ProxyTask.spawn service timeout domain = t := by simpa using ht
        refine ⟨rfl, by simp [ProxyTask.spawn], ⟨[], ?_, hreported, fun _ => rfl⟩, nofun⟩
        change r.handedTo _ = r.writtenBy _ ++ _
        rw [hhanded, hwritten]
        rfl
      · rw [List.getElem?_eq_none (by simp; omega)] at ht
        cases ht
    · simp only [List.length_append, List.length_singleton] at hn
      exact h.unknown n (by omega)

theorem handedTo_append (r : JobRun) (e : Handed) (n : Nat) :
    handedTo { r with handed := r.handed ++ [e] } n =
      r.handedTo n ++ if e.task = n then [e.job] else [] := by
  unfold handedTo
  rw [List.map_append, entriesOf_append]
  exact congrArg (_ ++ ·) (entriesOf_map e.task n [e.job])

theorem Kept.send (h : r.Kept spared) {x : ProxyConnHandle} {domain service : Text} {job : ProxyJob}
    {dns : ProxyDns} (hr : r.dns.Reaches x domain service) (hs : r.dns.send x job = some dns) :
    Kept spared { r with dns := dns, handed := r.handed ++ [⟨domain, service, job, x.task⟩] } := by
  obtain ⟨asks, hw⟩ := h.wired
  obtain ⟨hwired, hframes⟩ := hw.send hr trivial hs
  obtain ⟨t, ht, hd, hsv⟩ := hr
  have hreceiving : t.receiving = true := by
    by_contra hno
    simp [ProxyDns.send, ht, hno] at hs
  obtain rfl : { r.dns with
      tasks := r.dns.tasks.modify x.task fun t => { t with jobs := t.jobs ++ [job] } } = dns := by
    simpa [ProxyDns.send, ht, hreceiving] using hs
  have hlt : x.task < r.dns.tasks.length := (List.getElem?_eq_some_iff.mp ht).1
  refine ⟨⟨asks, hwired⟩, fun e he => ?_, fun n u hn hu => ?_, fun n hn => ?_⟩
  · rcases List.mem_append.mp he with he | he
    · exact (h.handed e he).kept hframes.keeps
    · cases List.mem_singleton.mp he
      exact ProxyDns.Reaches.kept ⟨t, ht, hd, hsv⟩ hframes.keeps
  · simp only [List.getElem?_modify] at hu
    split_ifs at hu with hx
    · subst hx
      rw [ht] at hu
      cases hu
      have hb := h.books x.task t hn ht
      have hopen : t.closed = false := by simpa [hreceiving] using hb.receiving
      obtain ⟨failed, hhanded, hreported, hnone⟩ := hb.jobs
      refine ⟨hb.receiving, hb.ended, ⟨failed, ?_, hreported, hnone⟩, fun hc => ?_⟩
      · refine (handedTo_append r _ x.task).trans ?_
        rw [hhanded, if_pos rfl, ProxyTask.left_push]
        simp only [List.append_assoc]
        rfl
      · exact absurd (hopen.symm.trans hc) Bool.false_ne_true
    · rw [id_map'] at hu
      have hb := h.books n u hn hu
      refine ⟨hb.receiving, hb.ended, ?_, hb.left⟩
      obtain ⟨failed, hhanded, hreported, hnone⟩ := hb.jobs
      refine ⟨failed, (handedTo_append r _ n).trans ?_, hreported, hnone⟩
      rw [if_neg hx, List.append_nil]
      exact hhanded
  · rw [List.length_modify] at hn
    obtain ⟨hhanded, hwritten, hreported⟩ := h.unknown n hn
    refine ⟨(handedTo_append r _ n).trans ?_, hwritten, hreported⟩
    rw [hhanded, if_neg (by dsimp only; omega)]
    rfl

/-- A job is on the books of the task whose handle the domain has then. The handle of a task that
was aborted is replaced, and the new task is there to take the job. -/
theorem Kept.sendJob (h : r.Kept spared) (service : Text) (timeout : Nat) (domain : Text)
    (job : ProxyJob) :
    ∃ x, (r.dns.sendJob service timeout domain job).conns[domain]? = some x ∧
      Kept spared { r with
        dns := r.dns.sendJob service timeout domain job
        handed := r.handed ++ [⟨domain, service, job, x.task⟩] } := by
  unfold ProxyDns.sendJob
  obtain ⟨h₁, hr₁⟩ := h.liveHandle service timeout domain
  have hc₁ := r.dns.liveHandle_conns service timeout domain
  generalize r.dns.liveHandle service timeout domain = made at *
  obtain ⟨x, s₁⟩ := made
  dsimp only at *
  cases hsend : s₁.send x job with
  | some s₂ =>
    refine ⟨x, ?_, h₁.send hr₁ hsend⟩
    rw [ProxyDns.send_conns hsend]
    exact hc₁
  | none =>
    have he : Kept spared { r with dns := { s₁ with conns := s₁.conns.erase domain } } :=
      h₁.sameTasks rfl (erase_fewer domain)
    obtain ⟨h₂, hr₂⟩ := he.liveHandle service timeout domain
    have hc₂ := ProxyDns.liveHandle_conns { s₁ with conns := s₁.conns.erase domain } service timeout
      domain
    obtain ⟨s₃, hsend₂⟩ := ProxyDns.send_fresh
      (s := { s₁ with conns := s₁.conns.erase domain }) Std.ExtTreeMap.getElem?_erase_self service
      timeout job
    dsimp only at *
    generalize ProxyDns.liveHandle _ service timeout domain = fresh at *
    obtain ⟨y, s₂⟩ := fresh
    dsimp only at *
    rw [hsend₂]
    refine ⟨y, ?_, h₂.send hr₂ hsend₂⟩
    rw [Option.getD_some, ProxyDns.send_conns hsend₂]
    exact hc₂

theorem Kept.forward (h : r.Kept spared) (service : Option (Text × Nat)) (q : ProxyQuery)
    (packet : Bytes) (serverAddr clientAddr : SocketAddr) (recursionAvailable : Bool) (now : Nat)
    (hs : r.step fromSlice
      (.forward service q packet serverAddr clientAddr recursionAvailable now) = some r') :
    r'.Kept spared := by
  unfold step ProxyDns.handleForward at hs
  by_cases hid : q.id ∈ r.dns.pending
  · simp only [if_pos hid] at hs
    split at hs <;> cases hs <;> exact h
  · simp only [if_neg hid] at hs
    cases service with
    | none =>
      cases hs
      exact h
    | some service =>
      obtain ⟨x, hx, hk⟩ := h.sendJob service.1 service.2 q.domain ⟨q.id, q.json⟩
      simp only [hx, Option.map_some, Option.getD_some] at hs
      cases hs
      exact hk.sameTasks rfl fun _ _ hd => hd

theorem Books.turn {n : Nat} {t t' : ProxyTask} {turn : TaskTurn} {sent : List ProxyEvent}
    (h : r.Books n t) (hturn : t.Accounts turn sent t') (hhanded : r'.handedTo n = r.handedTo n)
    (hwritten : r'.writtenBy n = r.writtenBy n ++ (t.writes turn).toList)
    (hreported : r'.reportedBy n = r.reportedBy n ++ failures sent) : r'.Books n t' := by
  obtain ⟨failed, hbooks, hfailed, hnone⟩ := h.jobs
  cases hturn with
  | goesOn hstate hstate' hclosed hreceiving hsent hleft =>
    have hopen : t.closed = false := by simpa using mt h.ended.mpr hstate
    obtain rfl := hnone hopen
    refine ⟨by rw [hreceiving, hclosed]; exact h.receiving, by simp [hstate', hclosed, hopen],
      ⟨[], ?_, ?_, fun _ => rfl⟩, by simp [hclosed, hopen]⟩
    · rw [hhanded, hwritten, hbooks, hleft]
      simp
    · rw [hreported, hsent, hfailed]
      rfl
  | ends hstate hstate' hclosed hreceiving hwrites hleft hsent =>
    have hopen : t.closed = false := by simpa using mt h.ended.mpr hstate
    obtain rfl := hnone hopen
    refine ⟨by rw [hreceiving, hclosed]; rfl, by simp [hstate', hclosed],
      ⟨t.left, ?_, ?_, by simp [hclosed]⟩, fun _ => hleft⟩
    · rw [hhanded, hwritten, hbooks, hwrites, hleft]
      simp
    · rw [hreported, hsent, hfailed]
      rfl

theorem Kept.task (h : r.Kept spared) {n : Nat} {turn : TaskTurn}
    (hspared : spared n → turn ≠ .aborted) (hs : r.step fromSlice (.task n turn) = some r') :
    r'.Kept spared := by
  obtain ⟨asks, hw⟩ := h.wired
  obtain ⟨dns, hdns, rfl⟩ := Option.map_eq_some_iff.mp hs
  obtain ⟨hwired, -, hkeeps, -⟩ := hw.taskTurn hdns
  obtain ⟨t, sent, t', ht, hturn, rfl⟩ := ProxyDns.taskTurn_eq_some hdns
  have hlt : n < r.dns.tasks.length := (List.getElem?_eq_some_iff.mp ht).1
  have hwritten (k : Nat) : entriesOf k (r.written ++
      ((r.dns.tasks[n]?.bind (·.writes turn)).map (n, ·)).toList) =
      r.writtenBy k ++ if n = k then (t.writes turn).toList else [] := by
    rw [ht, Option.bind_some, entriesOf_append, ← entriesOf_map, Option.toList_map]
    rfl
  have hreported (k : Nat) : failures (entriesOf k (r.sent ++
      (r.dns.events ++ sent.map fun ev => (n, ev)).drop r.dns.events.length)) =
      r.reportedBy k ++ if n = k then failures sent else [] := by
    rw [List.drop_left, entriesOf_append, failures_append, entriesOf_map]
    split_ifs <;> rfl
  refine ⟨⟨asks, hwired⟩, fun e he => (h.handed e he).kept hkeeps, fun k u hk hu => ?_,
    fun k hk => ?_⟩
  · rw [List.getElem?_set] at hu
    split_ifs at hu with hnk
    · subst hnk
      cases hu
      refine (h.books n t hk ht).turn (ProxyTask.turn_accounts (hspared hk) hturn) rfl ?_ ?_
      · exact (hwritten n).trans (by rw [if_pos rfl])
      · exact (hreported n).trans (by rw [if_pos rfl])
    · obtain ⟨failed, hbooks, hfailed, hnone⟩ := (h.books k u hk hu).jobs
      refine ⟨(h.books k u hk hu).receiving, (h.books k u hk hu).ended, ⟨failed, ?_, ?_, hnone⟩,
        (h.books k u hk hu).left⟩
      · refine hbooks.trans (congrArg (· ++ _) ?_)
        exact ((hwritten k).trans (by rw [if_neg hnk, List.append_nil])).symm
      · exact ((hreported k).trans (by rw [if_neg hnk, List.append_nil])).trans hfailed
  · rw [List.length_set] at hk
    obtain ⟨hhanded, hwrote, hrep⟩ := h.unknown k hk
    refine ⟨hhanded, (hwritten k).trans ?_, (hreported k).trans ?_⟩
    · rw [hwrote, if_neg (by omega)]
      rfl
    · rw [hrep, if_neg (by omega)]
      rfl

theorem Kept.step (h : r.Kept spared) {act : ProxyAct}
    (hact : ∀ n, spared n → act ≠ .task n .aborted) (hs : r.step fromSlice act = some r') :
    r'.Kept spared := by
  cases act with
  | forward service q packet serverAddr clientAddr recursionAvailable now =>
    exact h.forward service q packet serverAddr clientAddr recursionAvailable now hs
  | ensureConn service timeout domain =>
    cases hs
    exact (h.liveHandle service timeout domain).1
  | task n turn => exact h.task (fun hn heq => hact n hn (heq ▸ rfl)) hs
  | event recursionAvailable =>
    simp only [JobRun.step] at hs
    split at hs
    · cases hs
    · next ev rest hev =>
      cases hs
      obtain ⟨htasks, hconns⟩ := ProxyDns.onEvent_frame { r.dns with events := rest } fromSlice ev
        recursionAvailable
      exact h.sameTasks htasks fun d x hx => by rwa [hconns] at hx
  | evict now =>
    cases hs
    refine h.sameTasks rfl fun d x hx => ?_
    simp only [ProxyDns.evictExpired, Std.ExtTreeMap.getElem?_filter'] at hx
    exact (Option.filter_eq_some_iff.mp hx).1

theorem run_kept {acts : List ProxyAct} (hrun : run (JobRun.step fromSlice) new acts = some r) :
    r.Kept fun n => .task n .aborted ∉ acts := by
  refine run_invariant_when (c := fun _ act => act ∈ acts) _ (fun _ act _ hs hmem h => ?_) hrun
    (runAll_of_forall (fun _ hmem => hmem) _) (kept_new _)
  exact h.step (fun n hn heq => hn (heq ▸ hmem)) hs

end JobRun

/-- What was handed to a task that was not aborted has been written on its connection, or was reported
by one failure each when it ended, or is before it still. The connection of a job is dialed for its
domain to its service, and no domain has two handles. -/
theorem jobs_written_or_reported {fromSlice : Bytes → Option WireMsg} {acts : List ProxyAct}
    {r : JobRun} (hrun : run (JobRun.step fromSlice) JobRun.new acts = some r) :
    (∀ (n : Nat) (t : ProxyTask), r.dns.tasks[n]? = some t → ProxyAct.task n .aborted ∉ acts →
      ∃ rest, r.handedTo n = r.writtenBy n ++ rest ∧
        (t.state = .ended → r.reportedBy n = rest.map ProxyJob.id) ∧
        (t.state ≠ .ended → r.reportedBy n = [] ∧ rest = t.left)) ∧
    (∀ n, r.dns.tasks[n]? = none → r.handedTo n = [] ∧ r.writtenBy n = [] ∧ r.reportedBy n = []) ∧
    (∀ e ∈ r.handed, ∃ t, r.dns.tasks[e.task]? = some t ∧ t.domain = e.domain ∧
      t.dial.service = e.service ∧ t.dial.appData = resolveAppData) ∧
    ∀ (d d' : Text) (x x' : ProxyConnHandle) (t t' : ProxyTask), r.dns.conns[d]? = some x →
      r.dns.conns[d']? = some x' → r.dns.tasks[x.task]? = some t →
      r.dns.tasks[x'.task]? = some t' → t.domain = t'.domain → d = d' ∧ x = x' := by
  have h := JobRun.run_kept hrun
  obtain ⟨asks, hw⟩ := h.wired
  refine ⟨fun n t ht hn => ?_, fun n hn => h.unknown n (List.getElem?_eq_none_iff.mp hn),
    fun e he => ?_, fun d d' x x' t t' hx hx' ht ht' hdomain => ?_⟩
  · have hb := h.books n t hn ht
    obtain ⟨failed, hhanded, hreported, hnone⟩ := hb.jobs
    refine ⟨failed ++ t.left, hhanded, fun hended => ?_, fun hended => ?_⟩
    · rw [hb.left (hb.ended.mp hended), List.append_nil]
      exact hreported
    · have hopen : t.closed = false := by simpa using mt hb.ended.mpr hended
      obtain rfl := hnone hopen
      exact ⟨hreported, rfl⟩
  · obtain ⟨t, ht, hd, hs⟩ := h.handed e he
    exact ⟨t, ht, hd, hs, (hw.tasks e.task t ht).dial⟩
  · obtain ⟨u, hu, hd, -⟩ := hw.conns d x hx
    obtain ⟨u', hu', hd', -⟩ := hw.conns d' x' hx'
    cases ht.symm.trans hu
    cases ht'.symm.trans hu'
    obtain rfl : d = d' := hd.symm.trans (hdomain.trans hd')
    exact ⟨rfl, Option.some.inj (hx.symm.trans hx')⟩

instance : DecidablePred (· = TaskState.ended) := fun state =>
  match state with
  | .dialing | .serving | .writing _ => .isFalse fun h => TaskState.noConfusion h
  | .ended => .isTrue rfl

/-- Two jobs wait while a connection is dialed; the first is written, and the peer closes. The domain
then has another owner, whose dial fails. -/
def ownerActs : List ProxyAct :=
  [ask "a.test" "svcA" 7 4000, ask "a.test" "svcA" 8 4000, .task 0 (.dialed true), .task 0 .takeJob,
    .task 0 (.wrote true), ask "a.test" "svcB" 9 4000, .task 0 .readEnded, .task 1 (.dialed false)]

theorem jobs_written_or_reported_owner :
    ∃ r, run (JobRun.step readTxt) JobRun.new ownerActs = some r ∧
      (r.writtenBy 0 = [⟨7, []⟩] ∧ r.reportedBy 0 = [8]) ∧
      (r.writtenBy 1 = [] ∧ r.reportedBy 1 = [9]) ∧
      ∃ rest : List ProxyJob, r.handedTo 0 = r.writtenBy 0 ++ rest ∧
        r.reportedBy 0 = rest.map ProxyJob.id := by
  have hrun : (run (JobRun.step readTxt) JobRun.new ownerActs).map (fun r =>
      (r.writtenBy 0, r.reportedBy 0, r.writtenBy 1, r.reportedBy 1,
        r.dns.tasks.map fun t => decide (t.state = .ended))) =
      some ([⟨7, []⟩], [8], [], [9], [true, true]) := by
    decide +kernel
  obtain ⟨r, hr, hout⟩ := Option.map_eq_some_iff.mp hrun
  simp only [Prod.mk.injEq] at hout
  obtain ⟨hwritten, hreported, hwritten', hreported', hended⟩ := hout
  obtain ⟨t, ts, htasks, hstate, -⟩ := List.map_eq_cons_iff.mp hended
  obtain ⟨rest, hhanded, hrest, -⟩ := (jobs_written_or_reported hr).1 0 t (by rw [htasks]; rfl)
    (by simp [ownerActs, ask])
  exact ⟨r, hr, ⟨hwritten, hreported⟩, ⟨hwritten', hreported'⟩, rest, hhanded,
    hrest (of_decide_eq_true hstate)⟩

end Noa.Tunnel.Intercept.ProxyResolve
