import Noa.Tunnel.Intercept.ProxyResolve.Manager

namespace Noa.Tunnel.Intercept.ProxyResolve
open Noa.Framework Noa.Channel

/-! Jobs reach only connections of their own domain and service. -/

variable {asks : List (Text × Text)} {owns : Text → Text → ProxyJob → Prop} {s s' : ProxyDns}
  {service domain : Text} {timeout : Nat} {job : ProxyJob} {h : ProxyConnHandle}

/-- A job that waits for the task or is being written by it. -/
def ProxyTask.Holds (t : ProxyTask) (job : ProxyJob) : Prop :=
  job ∈ t.jobs ∨ t.state = .writing job

/-- The task was asked for and has jobs of its own domain and service only. -/
structure ProxyTask.Wired (asks : List (Text × Text)) (owns : Text → Text → ProxyJob → Prop)
    (t : ProxyTask) : Prop where
  dial : t.dial.appData = resolveAppData
  asked : (t.domain, t.dial.service) ∈ asks
  jobs : ∀ job, t.Holds job → owns t.domain t.dial.service job

/-- The handle is one of a task for the domain, dialed to the service. -/
def ProxyDns.Reaches (s : ProxyDns) (h : ProxyConnHandle) (domain service : Text) : Prop :=
  ∃ t, s.tasks[h.task]? = some t ∧ t.domain = domain ∧ t.dial.service = service

structure ProxyDns.Wired (asks : List (Text × Text)) (owns : Text → Text → ProxyJob → Prop)
    (s : ProxyDns) : Prop where
  tasks : ∀ (n : Nat) (t : ProxyTask), s.tasks[n]? = some t → t.Wired asks owns
  conns : ∀ (domain : Text) (h : ProxyConnHandle), s.conns[domain]? = some h →
    s.Reaches h domain h.service

/-- Tasks stay, with their domain and what they dial. -/
def ProxyDns.Keeps (s s' : ProxyDns) : Prop :=
  ∀ (n : Nat) (t : ProxyTask), s.tasks[n]? = some t →
    ∃ t', s'.tasks[n]? = some t' ∧ t'.domain = t.domain ∧ t'.dial = t.dial

/-- What a call that hands out jobs leaves alone. -/
structure ProxyDns.Frames (s s' : ProxyDns) : Prop where
  pending : s'.pending = s.pending
  events : s'.events = s.events
  keeps : s.Keeps s'

theorem ProxyDns.Keeps.refl (s : ProxyDns) : s.Keeps s := fun _ t ht => ⟨t, ht, rfl, rfl⟩

theorem ProxyDns.Keeps.trans {s'' : ProxyDns} (h : s.Keeps s') (h' : s'.Keeps s'') :
    s.Keeps s'' := by
  intro n t ht
  obtain ⟨t', ht', hd, hdial⟩ := h n t ht
  obtain ⟨t'', ht'', hd', hdial'⟩ := h' n t' ht'
  exact ⟨t'', ht'', hd'.trans hd, hdial'.trans hdial⟩

theorem ProxyDns.Reaches.kept (hr : s.Reaches h domain service) (hk : s.Keeps s') :
    s'.Reaches h domain service := by
  obtain ⟨t, ht, hd, hs⟩ := hr
  obtain ⟨t', ht', hd', hdial⟩ := hk h.task t ht
  exact ⟨t', ht', hd'.trans hd, by rw [hdial]; exact hs⟩

theorem ProxyDns.Frames.refl (s : ProxyDns) : s.Frames s := ⟨rfl, rfl, .refl s⟩

theorem ProxyDns.Frames.trans {s'' : ProxyDns} (h : s.Frames s') (h' : s'.Frames s'') :
    s.Frames s'' :=
  ⟨h'.pending.trans h.pending, h'.events.trans h.events, h.keeps.trans h'.keeps⟩

theorem ProxyTask.Wired.mono {asks' : List (Text × Text)} {owns' : Text → Text → ProxyJob → Prop}
    {t : ProxyTask} (h : t.Wired asks owns) (hasks : asks ⊆ asks')
    (howns : ∀ domain service job, owns domain service job → owns' domain service job) :
    t.Wired asks' owns' :=
  ⟨h.dial, hasks h.asked, fun job hjob => howns _ _ job (h.jobs job hjob)⟩

theorem ProxyDns.Wired.mono {asks' : List (Text × Text)} {owns' : Text → Text → ProxyJob → Prop}
    (h : s.Wired asks owns) (hasks : asks ⊆ asks')
    (howns : ∀ domain service job, owns domain service job → owns' domain service job) :
    s.Wired asks' owns' :=
  ⟨fun n t ht => (h.tasks n t ht).mono hasks howns, h.conns⟩

theorem ProxyDns.Wired.fewer (h : s.Wired asks owns) {conns : Std.ExtTreeMap Text ProxyConnHandle}
    (hsub : ∀ (d : Text) (x : ProxyConnHandle), conns[d]? = some x → s.conns[d]? = some x) :
    { s with conns := conns }.Wired asks owns :=
  ⟨h.tasks, fun d x hx => h.conns d x (hsub d x hx)⟩

theorem erase_fewer {conns : Std.ExtTreeMap Text ProxyConnHandle} (domain d : Text)
    (x : ProxyConnHandle) (hx : (conns.erase domain)[d]? = some x) : conns[d]? = some x := by
  rw [Std.ExtTreeMap.getElem?_erase] at hx
  split_ifs at hx
  exact hx

theorem ProxyDns.liveHandle_cases (s : ProxyDns) (service : Text) (timeout : Nat) (domain : Text) :
    (∃ h, s.conns[domain]? = some h ∧ s.isClosed h = false ∧ h.service = service ∧
      s.liveHandle service timeout domain = (h, s)) ∨
    ∃ conns : Std.ExtTreeMap Text ProxyConnHandle,
      (∀ (d : Text) (x : ProxyConnHandle), conns[d]? = some x → s.conns[d]? = some x) ∧
      s.liveHandle service timeout domain = (⟨s.tasks.length, service⟩, { s with
        conns := conns.insert domain ⟨s.tasks.length, service⟩
        tasks := s.tasks ++ [.spawn service timeout domain] }) := by
  unfold ProxyDns.liveHandle
  cases hconn : s.conns[domain]? with
  | none => exact .inr ⟨s.conns, fun _ _ hx => hx, by simp [hconn]⟩
  | some h =>
    by_cases hev : (s.isClosed h || h.service != service) = true
    · refine .inr ⟨s.conns.erase domain, erase_fewer domain, ?_⟩
      simp [hev]
    · have hopen := hev
      simp only [Bool.or_eq_true, bne_iff_ne, not_or, not_not, Bool.not_eq_true] at hopen
      exact .inl ⟨h, rfl, hopen.1, hopen.2, by simp [hev, hconn]⟩

theorem ProxyTask.wired_spawn (hask : (domain, service) ∈ asks) (timeout : Nat) :
    (ProxyTask.spawn service timeout domain).Wired asks owns := by
  refine ⟨rfl, hask, fun job hjob => ?_⟩
  rcases hjob with hjob | hjob <;> cases hjob

theorem ProxyDns.Wired.liveHandle (hw : s.Wired asks owns) (hask : (domain, service) ∈ asks)
    (timeout : Nat) :
    (s.liveHandle service timeout domain).2.Wired asks owns ∧
      (s.liveHandle service timeout domain).2.Reaches (s.liveHandle service timeout domain).1
        domain service ∧
      s.Frames (s.liveHandle service timeout domain).2 := by
  rcases s.liveHandle_cases service timeout domain with ⟨h, hconn, -, hs, heq⟩ | ⟨conns, hsub, heq⟩
  · rw [heq]
    exact ⟨hw, hs ▸ hw.conns domain h hconn, .refl s⟩
  · rw [heq]
    have hnew : { s with
        conns := conns.insert domain ⟨s.tasks.length, service⟩
        tasks := s.tasks ++ [ProxyTask.spawn service timeout domain] }.Reaches
          ⟨s.tasks.length, service⟩ domain service :=
      ⟨.spawn service timeout domain, by simp, rfl, rfl⟩
    have hkeeps : s.Keeps { s with
        conns := conns.insert domain ⟨s.tasks.length, service⟩
        tasks := s.tasks ++ [ProxyTask.spawn service timeout domain] } := by
      intro n t ht
      refine ⟨t, ?_, rfl, rfl⟩
      rw [List.getElem?_append_left (List.getElem?_eq_some_iff.mp ht).1]
      exact ht
    refine ⟨⟨fun n t ht => ?_, fun d x hx => ?_⟩, hnew, rfl, rfl, hkeeps⟩
    · rcases List.mem_append.mp (List.mem_of_getElem? ht) with hmem | hmem
      · obtain ⟨k, hk⟩ := List.mem_iff_getElem?.mp hmem
        exact hw.tasks k t hk
      · rw [List.mem_singleton.mp hmem]
        exact ProxyTask.wired_spawn hask timeout
    · rw [Std.ExtTreeMap.getElem?_insert] at hx
      split_ifs at hx with hd
      · obtain rfl : domain = d := Std.compare_eq_iff_eq.mp hd
        cases hx
        exact hnew
      · exact (hw.conns d x (hsub d x hx)).kept hkeeps

theorem ProxyDns.Wired.send (hw : s.Wired asks owns) (hr : s.Reaches h domain service)
    (hown : owns domain service job) (hs : s.send h job = some s') :
    s'.Wired asks owns ∧ s.Frames s' := by
  unfold ProxyDns.send at hs
  split_ifs at hs
  cases hs
  obtain ⟨x, hx, hd, hsv⟩ := hr
  have hkeeps : s.Keeps { s with
      tasks := s.tasks.modify h.task fun t => { t with jobs := t.jobs ++ [job] } } := by
    intro n t ht
    simp only [List.getElem?_modify, ht]
    split_ifs
    · exact ⟨_, rfl, rfl, rfl⟩
    · exact ⟨t, rfl, rfl, rfl⟩
  refine ⟨⟨fun n t ht => ?_, fun d c hc => (hw.conns d c hc).kept hkeeps⟩, rfl, rfl, hkeeps⟩
  rw [List.getElem?_modify] at ht
  split_ifs at ht with hn
  · subst hn
    rw [hx] at ht
    cases ht
    have hwx := hw.tasks h.task x hx
    refine ⟨hwx.dial, hwx.asked, fun j hj => ?_⟩
    rcases hj with hj | hj
    · rcases List.mem_append.mp hj with hj | hj
      · exact hwx.jobs j (.inl hj)
      · rw [List.mem_singleton.mp hj]
        subst hd hsv
        exact hown
    · exact hwx.jobs j (.inr hj)
  · rw [id_map'] at ht
    exact hw.tasks n t ht

theorem ProxyDns.Wired.sendJob (hw : s.Wired asks owns) (hask : (domain, service) ∈ asks)
    (hown : owns domain service job) (timeout : Nat) :
    (s.sendJob service timeout domain job).Wired asks owns ∧
      s.Frames (s.sendJob service timeout domain job) := by
  unfold ProxyDns.sendJob
  obtain ⟨hw₁, hr₁, hf₁⟩ := hw.liveHandle hask timeout
  generalize s.liveHandle service timeout domain = made at *
  obtain ⟨handle, s₁⟩ := made
  dsimp only at *
  cases hsend : s₁.send handle job with
  | some s₂ =>
    obtain ⟨hw₂, hf₂⟩ := hw₁.send hr₁ hown hsend
    exact ⟨hw₂, hf₁.trans hf₂⟩
  | none =>
    -- the task went away without setting its flag: its handle is replaced
    have hwe := hw₁.fewer (erase_fewer domain)
    obtain ⟨hw₂, hr₂, hf₂⟩ := hwe.liveHandle hask timeout
    dsimp only
    generalize ProxyDns.liveHandle _ service timeout domain = fresh at *
    obtain ⟨handle₂, s₂⟩ := fresh
    have hf : s.Frames s₂ := hf₁.trans ⟨hf₂.pending, hf₂.events, hf₂.keeps⟩
    dsimp only at *
    cases hsend₂ : s₂.send handle₂ job with
    | none => exact ⟨hw₂, hf⟩
    | some s₃ =>
      obtain ⟨hw₃, hf₃⟩ := hw₂.send hr₂ hown hsend₂
      exact ⟨hw₃, hf.trans hf₃⟩

theorem ProxyDns.Wired.evictExpired (hw : s.Wired asks owns) (now : Nat) :
    (s.evictExpired now).Wired asks owns := by
  refine ⟨hw.tasks, fun d x hx => hw.conns d x ?_⟩
  simp only [ProxyDns.evictExpired, Std.ExtTreeMap.getElem?_filter'] at hx
  obtain ⟨hx, -⟩ := Option.filter_eq_some_iff.mp hx
  exact hx

/-- A turn takes no job on, and sends as data only the chunk it read. -/
structure ProxyTask.Turns (t : ProxyTask) (turn : TaskTurn) (sent : List ProxyEvent)
    (t' : ProxyTask) : Prop where
  domain : t'.domain = t.domain
  dial : t'.dial = t.dial
  holds : ∀ job, t'.Holds job → t.Holds job
  data : ∀ chunk, .data chunk ∈ sent → turn = .chunk chunk

theorem ProxyTask.finish_turns (t : ProxyTask) (turn : TaskTurn) :
    t.Turns turn t.finish.1 t.finish.2 := by
  refine ⟨rfl, rfl, fun job hjob => ?_, fun chunk hmem => ?_⟩
  · rcases hjob with hjob | hjob <;> cases hjob
  · obtain ⟨job, -, hev⟩ := List.mem_map.mp hmem
    cases hev

theorem ProxyTask.turn_turns {t t' : ProxyTask} {hasHandle : Bool} {turn : TaskTurn}
    {sent : List ProxyEvent} (h : t.turn hasHandle turn = some (sent, t')) :
    t.Turns turn sent t' := by
  have hend (turn : TaskTurn) (hfin : t.finish = (sent, t')) : t.Turns turn sent t' := by
    have := t.finish_turns turn
    rwa [hfin] at this
  have hnone (turn : TaskTurn) (chunk : Bytes) (hmem : ProxyEvent.data chunk ∈ []) :
      turn = .chunk chunk := absurd hmem List.not_mem_nil
  cases turn with
  | dialed ok =>
    simp only [ProxyTask.turn] at h
    split at h <;> cases ok <;> try contradiction
    · exact hend _ (Option.some.inj h)
    · cases h
      refine ⟨rfl, rfl, fun job hjob => ?_, hnone _⟩
      rcases hjob with hjob | hjob
      · exact .inl hjob
      · cases hjob
  | takeJob =>
    simp only [ProxyTask.turn] at h
    split at h
    next job rest hstate hjobs =>
      cases h
      refine ⟨rfl, rfl, fun j hj => ?_, hnone _⟩
      rcases hj with hj | hj
      · exact .inl (by rw [hjobs]; exact List.mem_cons_of_mem _ hj)
      · cases hj
        exact .inl (by rw [hjobs]; exact List.mem_cons_self)
    next => cases h
  | wrote ok =>
    simp only [ProxyTask.turn] at h
    split at h
    next job hstate =>
      split_ifs at h
      · cases h
        refine ⟨rfl, rfl, fun j hj => ?_, hnone _⟩
        rcases hj with hj | hj
        · exact .inl hj
        · cases hj
      · cases h
        have hfin := t.finish_turns (.wrote ok)
        refine ⟨hfin.domain, hfin.dial, hfin.holds, fun chunk hmem => ?_⟩
        rcases List.mem_cons.mp hmem with heq | hmem
        · cases heq
        · exact hfin.data chunk hmem
    next => cases h
  | chunk data =>
    simp only [ProxyTask.turn] at h
    split at h
    next =>
      cases h
      refine ⟨rfl, rfl, fun _ hj => hj, fun chunk hmem => ?_⟩
      cases List.mem_singleton.mp hmem
      rfl
    next => cases h
  | readEnded =>
    simp only [ProxyTask.turn] at h
    split at h
    next => exact hend _ (Option.some.inj h)
    next => cases h
  | handleDropped =>
    simp only [ProxyTask.turn] at h
    split at h
    next =>
      split_ifs at h
      exact hend _ (Option.some.inj h)
    next => cases h
  | aborted =>
    simp only [ProxyTask.turn] at h
    split at h
    next => cases h
    next =>
      cases h
      refine ⟨rfl, rfl, fun j hj => ?_, hnone _⟩
      rcases hj with hj | hj <;> cases hj

theorem ProxyDns.taskTurn_eq_some {n : Nat} {turn : TaskTurn} (h : s.taskTurn n turn = some s') :
    ∃ t sent t', s.tasks[n]? = some t ∧
      t.turn (s.conns.values.any (·.task == n)) turn = some (sent, t') ∧
      s' = { s with
        tasks := s.tasks.set n t', events := s.events ++ sent.map fun ev => (n, ev) } := by
  simp only [ProxyDns.taskTurn, Option.bind_eq_bind, Option.bind_eq_some_iff] at h
  obtain ⟨t, ht, ⟨sent, t'⟩, hturn, heq⟩ := h
  cases heq
  exact ⟨t, sent, t', ht, hturn, rfl⟩

theorem ProxyDns.Wired.taskTurn {n : Nat} {turn : TaskTurn} (hw : s.Wired asks owns)
    (hs : s.taskTurn n turn = some s') :
    s'.Wired asks owns ∧ s'.pending = s.pending ∧ s.Keeps s' ∧
      (∃ t, s.tasks[n]? = some t) ∧
      ∀ k chunk, (k, .data chunk) ∈ s'.events →
        (k, .data chunk) ∈ s.events ∨ k = n ∧ turn = .chunk chunk := by
  obtain ⟨t, sent, t', ht, hturn, rfl⟩ := ProxyDns.taskTurn_eq_some hs
  have hspec := ProxyTask.turn_turns hturn
  have hn : n < s.tasks.length := (List.getElem?_eq_some_iff.mp ht).1
  have hkeeps : s.Keeps { s with
      tasks := s.tasks.set n t', events := s.events ++ sent.map fun ev => (n, ev) } := by
    intro k x hx
    by_cases hk : n = k
    · subst hk
      obtain rfl : t = x := Option.some.inj (ht.symm.trans hx)
      exact ⟨t', List.getElem?_set_self hn, hspec.domain, hspec.dial⟩
    · exact ⟨x, by rw [List.getElem?_set_ne hk]; exact hx, rfl, rfl⟩
  refine ⟨⟨fun k x hx => ?_, fun d c hc => (hw.conns d c hc).kept hkeeps⟩, rfl, hkeeps, ⟨t, ht⟩,
    fun k chunk hmem => ?_⟩
  · rw [List.getElem?_set] at hx
    split_ifs at hx with hk
    · cases hx
      have hwt := hw.tasks n t ht
      refine ⟨?_, ?_, fun job hjob => ?_⟩
      · rw [hspec.dial]
        exact hwt.dial
      · rw [hspec.domain, hspec.dial]
        exact hwt.asked
      · rw [hspec.domain, hspec.dial]
        exact hwt.jobs job (hspec.holds job hjob)
    · exact hw.tasks k x hx
  · rcases List.mem_append.mp hmem with hmem | hmem
    · exact .inl hmem
    · obtain ⟨ev, hev, heq⟩ := List.mem_map.mp hmem
      cases heq
      exact .inr ⟨rfl, hspec.data chunk hev⟩

end Noa.Tunnel.Intercept.ProxyResolve
