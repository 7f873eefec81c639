import Noa.Edge.Client.Effects
import Noa.Edge.Client.Footprint

namespace Noa.Edge.Client
open Noa.Framework
open Noa.Framework.Program (lift)

/-- Where a task is with its poll: the instant its check answered, the pages it has fetched since,
where the next one starts, whether they are all, and whether they are about to be processed. -/
structure PollUse (V : Type) where
  checked : Option Int
  pages : List (Service V)
  offset : Nat
  complete : Bool
  due : Bool

def PollUse.idle {V : Type} : PollUse V := ⟨none, [], 0, false, false⟩

/-- A poll that has its pages still to fetch. -/
def PollUse.restart {V : Type} (st : PollUse V) : PollUse V := ⟨st.checked, [], 0, false, false⟩

/-- A page is appended to those before it, the first one to none. -/
def PollUse.append {V : Type} (st : PollUse V) (offset : Nat) (page : List (Service V))
    (total : Nat) : PollUse V :=
  ⟨st.checked, (if offset = 0 then [] else st.pages) ++ page, offset + pageLimit,
    total ≤ offset + pageLimit, false⟩

/-- A poll asks for the pages in their order, stores no instant but that of its check, once it has
all of the list, and then processes that list before anything else. -/
def polling (V : Type) : Discipline (Cmd V) (PollUse V) where
  may := fun st c =>
    match c with
    | .getServices _ offset _ => st.due = false ∧ (offset = 0 ∨ offset = st.offset)
    | .storeServiceUpdate instant =>
      st.due = false ∧ st.complete = true ∧ (instant = none ∨ instant = st.checked)
    | .processServices fetched => st.due = true ∧ fetched = st.pages
    | _ => st.due = false
  next := fun st c =>
    match c with
    | .getServiceUpdates _ => fun
      | .ok instant => { PollUse.idle with checked := some instant }
      | .error _ => .idle
    | .getServices _ offset _ => fun
      | .ok (page, total) => st.append offset page total
      | .error _ => st.restart
    | .storeServiceUpdate _ => fun _ => { st with due := true }
    | .processServices _ => fun _ => .idle
    | _ => fun _ => st
  done := fun st => st.due = false

variable {V : Type}

namespace PollUse

variable {α β : Type} (cfg : ClientConfig) {st : PollUse V}

theorem ensures_of_within {p : Proc V α} (hp : Proc.Within (· ≠ .service) p) (hst : st.due = false) :
    p.Ensures (polling V) (fun _ st' => st' = st) st := by
  induction p with
  | ret a => rfl
  | call c k ih =>
    have hc := hp.1
    have hplain : (polling V).may st c ∧ ∀ b, (polling V).next st c b = st := by
      cases c <;> first | exact ⟨hst, fun _ => rfl⟩ | exact absurd rfl hc
    refine ⟨hplain.1, fun b => ?_⟩
    rw [hplain.2 b]
    exact ih b (hp.2 b)

theorem obeys_of_within {p : Proc V α} (hp : Proc.Within (· ≠ .service) p) (hst : st.due = false) :
    p.Obeys (polling V) st := by
  apply (ensures_of_within hp hst).mono
  rintro _ _ rfl
  exact hst

/-- A list that was fetched is the one the task has got, all of it. -/
structure Listed (checked : Option Int) (r : Except RestError (List (Service V)))
    (st : PollUse V) : Prop where
  due : st.due = false
  checked_eq : st.checked = checked
  list : ∀ fetched, r = .ok fetched → st.complete = true ∧ st.pages = fetched

theorem listed_error {e : RestError} (hst : st.due = false) : Listed st.checked (.error e) st :=
  ⟨hst, rfl, nofun⟩

theorem ensures_listPages (token : AuthToken) (configTypes : List String) (pages offset : Nat)
    {out : List (Service V)} (hst : st.due = false) (hoffset : offset = 0 ∨ offset = st.offset)
    (hout : out = if offset = 0 then [] else st.pages) :
    (listPages token configTypes pages offset out).Ensures (polling V) (Listed st.checked) st := by
  induction pages generalizing offset out st with
  | zero => exact listed_error hst
  | succ pages ih =>
    simp only [listPages, Program.lift_bind]
    refine .call ⟨hst, hoffset⟩ fun r => ?_
    split
    · exact ⟨rfl, rfl, by rintro _ ⟨⟩⟩
    · next page total =>
      change Program.Ensures _ (Listed (st.append offset page total).checked) _ _
      split_ifs with hlast
      · refine ⟨rfl, rfl, ?_⟩
        rintro fetched ⟨⟩
        exact ⟨decide_eq_true hlast, by rw [hout]; rfl⟩
      · have hnext : out ++ page = (st.append offset page total).pages := by
          rw [hout]
          rfl
        apply ih (offset + pageLimit) rfl (.inr rfl)
        exact hnext.trans (if_neg (by rw [pageLimit]; omega)).symm

theorem ensures_doListServices (pages : Nat) (token : AuthToken) (configTypes : List String)
    (hst : st.due = false) :
    (doListServices pages token configTypes).Ensures (polling V) (Listed st.checked) st :=
  ensures_listPages token configTypes pages 0 hst (.inl rfl) rfl

theorem ensures_listServicesWithConfigTypes (pages : Nat) (configTypes : List String)
    (hst : st.due = false) :
    (listServicesWithConfigTypes cfg pages configTypes).Ensures (polling V) (Listed st.checked)
      st := by
  simp only [listServicesWithConfigTypes, withReauthRetry, Program.lift_bind]
  refine .call hst fun token => ?_
  change Program.Ensures _ _ st _
  split
  · exact listed_error hst
  · apply (ensures_doListServices pages _ configTypes hst).bind
    intro r st' hr
    split
    · exact hr
    · split
      · next token _ _ _ =>
        have hrenew := ensures_of_within (V := V) (within_renew (by decide) (by decide) cfg token)
          hr.due
        apply hrenew.bind
        rintro renewed _ rfl
        rw [← hr.checked_eq]
        split
        · exact listed_error hr.due
        · refine .call hr.due fun fresh => ?_
          split
          · exact listed_error hr.due
          · exact ensures_doListServices pages _ configTypes hr.due
      · exact hr

/-- A check hands on the instant it was answered. -/
structure Checked (r : Except RestError (Bool × Option Int)) (st : PollUse V) : Prop where
  due : st.due = false
  instant : ∀ needed newTs, r = .ok (needed, newTs) → newTs = st.checked

theorem ensures_checkServiceListUpdateFree (token : AuthToken) (hst : st.due = false) :
    (checkServiceListUpdateFree token).Ensures (polling V) Checked st := by
  simp only [checkServiceListUpdateFree, Program.lift_bind]
  refine .call hst fun r => ?_
  cases r with
  | error f => exact ⟨rfl, by rintro _ _ ⟨⟩⟩
  | ok newTs =>
    refine .call rfl fun stored => ⟨rfl, ?_⟩
    rintro needed _ ⟨⟩
    rfl

theorem ensures_checkServiceListUpdate (hst : st.due = false) :
    (checkServiceListUpdate (V := V)).Ensures (polling V) Checked st := by
  simp only [checkServiceListUpdate, Program.lift_bind]
  refine .call hst fun token => ?_
  split
  · exact ⟨hst, by rintro _ _ ⟨⟩⟩
  · exact ensures_checkServiceListUpdateFree _ hst

theorem ensures_storeAndProcess {fetched : List (Service V)} {newTs : Option Int}
    (hst : st.due = false) (hcomplete : st.complete = true) (hpages : st.pages = fetched)
    (hts : newTs = none ∨ newTs = st.checked) :
    (storeAndProcess fetched newTs).Ensures (polling V) (fun _ st' => st'.due = false) st := by
  simp only [storeAndProcess, Program.lift_bind]
  refine .call ⟨hst, hcomplete, hts⟩ fun _ => .call ⟨rfl, hpages.symm⟩ fun events => ?_
  split
  · exact ⟨rfl, fun _ => rfl⟩
  · exact rfl

theorem ensures_fetch {list : Proc V (Except RestError (List (Service V)))} {newTs : Option Int}
    (hlist : list.Ensures (polling V) (Listed st.checked) st)
    (hts : newTs = none ∨ newTs = st.checked) :
    (list.andThen fun fetched => do
      let events ← storeAndProcess fetched newTs
      pure (Except.ok (ε := RestError) events)).Ensures (polling V)
      (fun _ st' => st'.due = false) st := by
  apply hlist.bind
  intro r st' hr
  cases r with
  | error e => exact hr.due
  | ok fetched =>
    obtain ⟨hcomplete, hpages⟩ := hr.list fetched rfl
    apply (ensures_storeAndProcess hr.due hcomplete hpages (hr.checked_eq ▸ hts)).bind
    intro events st'' hst''
    exact hst''

theorem checkOutcome_spec {r : Except RestError (Bool × Option Int)} {needed : Bool}
    {newTs : Option Int} (h : checkOutcome r = .ok (needed, newTs)) :
    r = .ok (needed, newTs) ∨ newTs = none := by
  unfold checkOutcome at h
  split at h
  · exact .inl h
  · cases h
  · cases h
  · cases h
    exact .inr rfl

theorem ensures_fetchIfChanged {check : Proc V (Except RestError (Bool × Option Int))}
    {list : Proc V (Except RestError (List (Service V)))}
    (hcheck : check.Ensures (polling V) Checked st)
    (hlist : ∀ st : PollUse V, st.due = false →
      list.Ensures (polling V) (Listed st.checked) st) :
    (fetchIfChanged check list).Ensures (polling V) (fun _ st' => st'.due = false) st := by
  apply hcheck.bind
  intro r st' hr
  split
  · exact hr.due
  · exact hr.due
  · next newTs hout =>
    apply ensures_fetch (hlist st' hr.due)
    exact (checkOutcome_spec hout).symm.imp_right fun h => hr.instant true newTs h

theorem obeys_prog (op : ClientOp) (hst : st.due = false) :
    (op.prog (V := V) cfg).Obeys (polling V) st := by
  have htoken : Role.token ≠ .service := by decide
  have hrotation : Role.rotation ≠ .service := by decide
  have hsession : Role.session ≠ .service := by decide
  have hwait : Role.wait ≠ .service := by decide
  have hdiscard {α : Type} {p : Proc V α}
      (hp : p.Ensures (polling V) (fun _ st' => st'.due = false) st) :
      (p >>= fun _ => pure ()).Obeys (polling V) st := hp.bind fun _ _ h => h
  cases op with
  | getOrCreateDialSession serviceId retries =>
    exact hdiscard (obeys_of_within
      (within_getOrCreateDialSession htoken hrotation hwait cfg hsession serviceId retries) hst)
  | refreshSession session =>
    exact hdiscard (obeys_of_within (within_refreshSession htoken hsession session) hst)
  | evictDialSession serviceId => exact ⟨hst, fun _ => hst⟩
  | sessionRefreshTick => exact obeys_of_within (within_sessionRefreshTick htoken hsession) hst
  | pollServices pages configTypes =>
    exact hdiscard (ensures_fetch
      (ensures_listServicesWithConfigTypes cfg pages configTypes hst) (.inl rfl))
  | pollServicesIfChanged pages configTypes =>
    exact hdiscard (ensures_fetchIfChanged (ensures_checkServiceListUpdate hst)
      fun _ => ensures_listServicesWithConfigTypes cfg pages configTypes)
  | serviceRefreshTick pages configTypes =>
    apply hdiscard
    simp only [serviceRefreshTick, Program.lift_bind]
    refine .call hst fun token => ?_
    split
    · exact hst
    · exact ensures_fetchIfChanged (ensures_checkServiceListUpdateFree _ hst)
        fun _ => ensures_doListServices pages _ configTypes
  | reauthenticate tokenUsed =>
    exact hdiscard (obeys_of_within (within_doReauthenticate htoken hrotation cfg tokenUsed) hst)
  | oidcSessionRefresh tokenUsed =>
    exact hdiscard (obeys_of_within (within_oidcSessionRefresh htoken hrotation tokenUsed) hst)
  | runRefreshes =>
    exact obeys_of_within (within_runRefreshes htoken hrotation hwait cfg) hst

end PollUse

/-- What the watcher holds: what processing the controller's list of now leaves, fetched since its
last change. -/
structure Reflects (s : ClientState V) [DecidableEq V] : Prop where
  since : s.journal.processedAt = some s.controller.lastChangeAt
  cache : ∃ iter old, iter.Perm ((old : ServiceCache V).toList.map (·.2)) ∧
    s.services = (Edge.processServices iter old s.controller.services).2

/-- What is true of one task: its pages are no older than the change before its check, and those of
a list fetched since the last change are the controller's. -/
structure Polled (s : ClientState V) (l : TaskLog) (u : PollUse V) : Prop where
  checked : ∀ c, u.checked = some c → c ≤ s.controller.lastChangeAt
  started : u.complete = true → u.offset ≠ 0
  due : u.due = true → u.complete = true
  listed : u.offset ≠ 0 → ∃ f, l.listedAt = some f ∧ f ≤ s.controller.lastChangeAt ∧
    (∀ c, u.checked = some c → c ≤ f) ∧
    (f = s.controller.lastChangeAt → u.pages = s.controller.services.take u.offset ∧
      (u.complete = true → s.controller.services.length ≤ u.offset))

/-- No instant in the client's records is later than the controller's last change. -/
structure Polls [DecidableEq V] (g : Nat → TaskLog × PollUse V) (s : ClientState V) : Prop where
  polled : ∀ i, Polled s (g i).1 (g i).2
  stored : ∀ ts, s.lastServiceUpdate = some ts → ts ≤ s.controller.lastChangeAt
  processedAt : ∀ f, s.journal.processedAt = some f → f ≤ s.controller.lastChangeAt
  reflects : s.journal.processedAt = some s.controller.lastChangeAt → Reflects s

section Polled

variable {s s' : ClientState V} {l l' : TaskLog} {u : PollUse V}

theorem Polled.idle (s : ClientState V) (l : TaskLog) : Polled s l .idle := by
  constructor <;> simp [PollUse.idle]

theorem Polled.restart (h : Polled s l u) (l' : TaskLog) : Polled s l' u.restart := by
  refine ⟨h.checked, ?_, ?_, ?_⟩ <;> simp [PollUse.restart]

theorem Polled.congr (h : Polled s l u) (hlisted : l'.listedAt = l.listedAt)
    (hoffered : s'.controller.services = s.controller.services ∧
      s'.controller.lastChangeAt = s.controller.lastChangeAt) : Polled s' l' u := by
  obtain ⟨hservices, hat⟩ := hoffered
  constructor
  · rw [hat]
    exact h.checked
  · exact h.started
  · exact h.due
  · rw [hlisted, hat, hservices]
    exact h.listed

theorem Polled.change (h : Polled s l u)
    (hlater : s.controller.lastChangeAt < s'.controller.lastChangeAt) : Polled s' l u := by
  constructor
  · intro c hc
    have := h.checked c hc
    omega
  · exact h.started
  · exact h.due
  · intro hoffset
    obtain ⟨f, hf, hle, hchecked, -⟩ := h.listed hoffset
    exact ⟨f, hf, by omega, hchecked, fun heq => by omega⟩

theorem Polled.append (h : Polled s l u) {offset : Nat} (hoffset : offset = 0 ∨ offset = u.offset) :
    Polled s (l.page offset s.controller.lastChangeAt).contact
      (u.append offset ((s.controller.services.drop offset).take pageLimit)
        s.controller.services.length) := by
  refine ⟨h.checked, fun _ => ?_, nofun, fun _ => ?_⟩
  · change offset + pageLimit ≠ 0
    rw [pageLimit]
    omega
  · by_cases hzero : offset = 0
    · refine ⟨s.controller.lastChangeAt, ?_, le_refl _, h.checked, fun _ => ?_⟩
      · rw [TaskLog.page, if_pos hzero]
        rfl
      · subst hzero
        simp [PollUse.append]
    · obtain ⟨f, hf, hle, hchecked, hcurrent⟩ := h.listed (by omega)
      refine ⟨f, ?_, hle, hchecked, fun heq => ?_⟩
      · rw [TaskLog.page, if_neg hzero]
        exact hf
      · have hpages := (hcurrent heq).1
        have hoffset : offset = u.offset := by omega
        simp only [PollUse.append, if_neg hzero, decide_eq_true_eq, imp_self, and_true]
        rw [hpages, ← hoffset, ← List.take_add]

end Polled

theorem Polled.current {s : ClientState V} {l : TaskLog} {u : PollUse V} (h : Polled s l u)
    (hdue : u.due = true) (hl : l.listedAt = some s.controller.lastChangeAt) :
    u.pages = s.controller.services := by
  have hcomplete := h.due hdue
  obtain ⟨f, hf, -, -, hcurrent⟩ := h.listed (h.started hcomplete)
  obtain ⟨hpages, hlength⟩ := hcurrent (Option.some.inj (hf.symm.trans hl))
  rw [hpages, List.take_of_length_le (hlength hcomplete)]

section Exec

variable [DecidableEq V] {β : Type} {c : Cmd V β} {x : Reply V} {l : TaskLog} {s : ClientState V}
  {u : PollUse V} {r : β × TaskLog × ClientState V}

theorem exec_polled (h : Polled s l u) (hmay : (polling V).may u c) (hx : c.exec x l s = some r) :
    Polled r.2.2 r.2.1 ((polling V).next u c r.1) := by
  have hf := Cmd.exec_frame hx
  cases c with
  | getServiceUpdates token =>
    obtain ⟨f, rfl⟩ | rfl := Cmd.exec_getServiceUpdates hx
    · exact Polled.idle _ _
    · refine ⟨?_, nofun, nofun, fun h => absurd rfl h⟩
      rintro c ⟨⟩
      exact le_refl _
  | getServices token offset configTypes =>
    obtain ⟨b, l', s'⟩ := r
    obtain ⟨hr, ⟨f, rfl⟩ | rfl⟩ := Cmd.exec_getServices hx
    · cases hr
      exact h.restart _
    · cases hr
      exact h.append hmay.2
  | storeServiceUpdate instant =>
    have hold := h.congr (hf.listedAt nofun) hf.offered
    exact ⟨hold.checked, hold.started, fun _ => hmay.2.1, hold.listed⟩
  | processServices fetched => exact Polled.idle _ _
  | _ => exact h.congr (hf.listedAt nofun) hf.offered

theorem exec_stored_le (h : Polled s l u)
    (hstored : ∀ ts, s.lastServiceUpdate = some ts → ts ≤ s.controller.lastChangeAt)
    (hmay : (polling V).may u c) (hx : c.exec x l s = some r) (ts : Int)
    (hts : r.2.2.lastServiceUpdate = some ts) : ts ≤ r.2.2.controller.lastChangeAt := by
  have hf := Cmd.exec_frame hx
  rw [hf.offered.2]
  cases c with
  | storeServiceUpdate instant =>
    cases hx
    obtain rfl : instant = some ts := hts
    exact h.checked ts (hmay.2.2.resolve_left nofun).symm
  | _ =>
    rw [hf.lastServiceUpdate nofun] at hts
    exact hstored ts hts

omit [DecidableEq V] in
theorem Polled.update {g : Nat → TaskLog × PollUse V} {i : Nat} {s' : ClientState V}
    (h : ∀ j, Polled s (g j).1 (g j).2) (hi : Polled s' l u)
    (hoffered : s'.controller.services = s.controller.services ∧
      s'.controller.lastChangeAt = s.controller.lastChangeAt) (j : Nat) :
    Polled s' (Function.update g i (l, u) j).1 (Function.update g i (l, u) j).2 := by
  rw [Function.update_apply]
  split_ifs
  · exact hi
  · exact (h j).congr rfl hoffered

theorem Polls.keep {g : Nat → TaskLog × PollUse V} {i : Nat} {p : Part} {l' : TaskLog}
    {s' : ClientState V} (h : Polls g s) (hf : Cmd.Frame p l l' s s') (hprocess : p ≠ .services)
    (hstored : ∀ ts, s'.lastServiceUpdate = some ts → ts ≤ s'.controller.lastChangeAt)
    {l'' : TaskLog} (hi : Polled s' l'' u) : Polls (Function.update g i (l'', u)) s' := by
  obtain ⟨hservices, hat⟩ := hf.services hprocess
  refine ⟨Polled.update h.polled hi hf.offered, hstored, ?_, ?_⟩
  · rw [hat, hf.offered.2]
    exact h.processedAt
  · rw [hat, hf.offered.2]
    intro hp
    obtain ⟨-, hcache⟩ := h.reflects hp
    constructor
    · rw [hat, hf.offered.2]
      exact hp
    · rw [hservices, hf.offered.1]
      exact hcache

theorem Polls.exec {g : Nat → TaskLog × PollUse V} {i : Nat} (h : Polls g s)
    (hmay : (polling V).may (g i).2 c) (hx : c.exec x (g i).1 s = some r) :
    Polls (Function.update g i (r.2.1, (polling V).next (g i).2 c r.1)) r.2.2 := by
  have hf := Cmd.exec_frame hx
  have hi := exec_polled (h.polled i) hmay hx
  have hstored := exec_stored_le (h.polled i) h.stored hmay hx
  by_cases hprocess : c.part = .services
  · cases c with
    | processServices fetched =>
      obtain ⟨hdue, rfl⟩ := hmay
      refine ⟨Polled.update h.polled hi hf.offered, hstored, ?_, ?_⟩
      all_goals
        obtain ⟨iter, hperm, hr⟩ := Cmd.exec_processServices hx
        rw [hr]
      · intro f hl
        obtain ⟨f', hf', hle, -⟩ :=
          (h.polled i).listed ((h.polled i).started ((h.polled i).due hdue))
        obtain rfl := Option.some.inj (hf'.symm.trans hl)
        exact hle
      · intro hl
        have hpages := (h.polled i).current hdue hl
        exact ⟨hl, iter, s.services, hperm, by rw [← hpages]⟩
    | _ => cases hprocess
  · exact h.keep hf hprocess hstored hi

theorem polls_tracks (cfg : ClientConfig) :
    Crew.Tracks (clientEffects V) (ClientOp.prog cfg) (fun _ _ _ => True) (polling V) .idle
      Polls where
  spawn := fun op => PollUse.obeys_prog cfg op rfl
  lost := rfl
  exec := fun _ _ _ _ _ _ h hmay _ hx => h.exec hmay hx
  drop := by
    intro γ c g i s h _ _
    have hf := release_frame (g i).1 s
    apply h.keep hf nofun _ (Polled.idle _ _)
    intro ts hts
    change (s.release (g i).1).lastServiceUpdate = some ts at hts
    rw [hf.lastServiceUpdate nofun] at hts
    exact (h.stored ts hts).trans_eq hf.offered.2.symm
  env := by
    intro e g s s' he h
    obtain ⟨hlater, rfl⟩ := changeServices_spec he
    refine ⟨fun i => (h.polled i).change hlater, ?_, ?_, ?_⟩
    · intro ts hts
      exact (h.stored ts hts).trans (le_of_lt hlater)
    · intro f hf
      exact (h.processedAt f hf).trans (le_of_lt hlater)
    · intro hf
      have := h.processedAt _ hf
      dsimp only at this hlater
      omega

end Exec

/-- The task is between the store of its instant and the update of the watcher. -/
def aboutToProcess (w : Worker (Cmd V) TaskLog) : Bool :=
  match w.prog with
  | .call (.processServices _) _ => true
  | _ => false

/-- A list fetched since the last change is about to be processed. -/
def FreshPending (s : ClientTasks V) : Prop :=
  ∃ w ∈ s.workers, aboutToProcess w = true ∧
    w.own.listedAt = some s.state.controller.lastChangeAt

/-- A stored instant that is the controller's comes with a list fetched since. -/
def Covered (s : ClientTasks V) : Prop :=
  s.state.lastServiceUpdate = some s.state.controller.lastChangeAt →
    s.state.journal.processedAt = some s.state.controller.lastChangeAt ∨ FreshPending s

/-- While the stored instant is the controller's, a list is processed only if it, or another one
about to be processed, was fetched since the last change. -/
def ProcessesFresh (s : ClientTasks V) : ClientAct V → Prop
  | .go i _ => (s.workers[i]?).any aboutToProcess = true →
      s.state.lastServiceUpdate = some s.state.controller.lastChangeAt → FreshPending s
  | _ => True

instance (s : ClientTasks V) : Decidable (FreshPending s) :=
  inferInstanceAs (Decidable (∃ w ∈ s.workers, _))

instance (s : ClientTasks V) (a : ClientAct V) : Decidable (ProcessesFresh s a) :=
  match a with
  | .go _ _ => inferInstanceAs (Decidable (_ → _ → _))
  | .spawn _ => .isTrue trivial
  | .drop _ => .isTrue trivial
  | .env _ => .isTrue trivial

section Covered

variable {s : ClientTasks V} {i : Nat} {w w' : Worker (Cmd V) TaskLog} {st : ClientState V}

theorem aboutToProcess_eq_due {u : PollUse V} (h : w.prog.Obeys (polling V) u) :
    aboutToProcess w = u.due := by
  obtain ⟨prog, own⟩ := w
  cases prog with
  | ret a => exact (show u.due = false from h).symm
  | call c k =>
    have hmay := h.1
    cases c with
    | processServices fetched => exact hmay.1.symm
    | getServices | storeServiceUpdate => exact hmay.1.symm
    | _ => exact (show u.due = false from hmay).symm

/-- Who is about to process a fresh list, after one task has moved on. -/
theorem freshPending_set (hw : s.workers[i]? = some w)
    (hat : st.controller.lastChangeAt = s.state.controller.lastChangeAt) (h : FreshPending s) :
    FreshPending ⟨s.workers.set i w', st⟩ ∨
      aboutToProcess w = true ∧ w.own.listedAt = some s.state.controller.lastChangeAt := by
  obtain ⟨v, hv, habout, hlisted⟩ := h
  obtain ⟨j, hj⟩ := List.mem_iff_getElem?.mp hv
  by_cases hij : i = j
  · subst hij
    obtain rfl := Option.some.inj (hw.symm.trans hj)
    exact .inr ⟨habout, hlisted⟩
  · refine .inl ⟨v, List.mem_iff_getElem?.mpr ⟨j, ?_⟩, habout, hat ▸ hlisted⟩
    rw [List.getElem?_set_ne hij]
    exact hj

theorem freshPending_of_set (hnot : aboutToProcess w' = false)
    (hat : st.controller.lastChangeAt = s.state.controller.lastChangeAt)
    (h : FreshPending ⟨s.workers.set i w', st⟩) : FreshPending s := by
  obtain ⟨v, hv, habout, hlisted⟩ := h
  obtain hv | rfl := List.mem_or_eq_of_mem_set hv
  · exact ⟨v, hv, habout, hat ▸ hlisted⟩
  · rw [hnot] at habout
    cases habout

theorem Covered.set (h : Covered s) (hw : s.workers[i]? = some w) (hnot : aboutToProcess w = false)
    (hat : st.controller.lastChangeAt = s.state.controller.lastChangeAt)
    (hupdate : st.lastServiceUpdate = s.state.lastServiceUpdate)
    (hprocessed : st.journal.processedAt = s.state.journal.processedAt) :
    Covered ⟨s.workers.set i w', st⟩ := by
  intro hstored
  change st.lastServiceUpdate = some st.controller.lastChangeAt at hstored
  rw [hupdate, hat] at hstored
  obtain hp | hp := h hstored
  · refine .inl ?_
    change st.journal.processedAt = some st.controller.lastChangeAt
    rw [hprocessed, hat]
    exact hp
  · obtain hp | ⟨hp, -⟩ := freshPending_set hw hat hp
    · exact .inr hp
    · rw [hnot] at hp
      cases hp

theorem processesFresh_of_not (hw : s.workers[i]? = some w) (hnot : aboutToProcess w = false)
    (x : Reply V) : ProcessesFresh s (.go i x) := by
  intro habout
  rw [hw, Option.any_some, hnot] at habout
  cases habout

variable [DecidableEq V] {cfg : ClientConfig} {g : Nat → TaskLog × PollUse V} {s' : ClientTasks V}

theorem covered_go (hg : Crew.Tracked (clientEffects V) (polling V) .idle Polls g s) {x : Reply V}
    (hs : clientStep cfg s (.go i x) = some s') (h : Covered s) :
    ProcessesFresh s (.go i x) ↔ Covered s' := by
  obtain ⟨γ, c, k, own, r, hk, hx, rfl⟩ := Crew.step_go hs
  obtain ⟨hown, hmay⟩ := hg.may hk
  change c.exec x own s.state = some r at hx
  have hlt := (List.getElem?_eq_some_iff.mp hk).1
  have hf := Cmd.exec_frame hx
  have hdue : aboutToProcess ⟨.call c k, own⟩ = (g i).2.due :=
    aboutToProcess_eq_due (hg.obeys i _ hk)
  have hdue' : aboutToProcess ⟨k r.1, r.2.1⟩ = ((polling V).next (g i).2 c r.1).due :=
    aboutToProcess_eq_due ((hg.obeys i _ hk).2 r.1)
  cases c with
  | processServices fetched =>
    obtain ⟨iter, -, hr⟩ := Cmd.exec_processServices hx
    have hat : r.2.2.journal.processedAt = own.listedAt := by rw [hr]
    constructor
    · intro hfresh hstored
      change r.2.2.lastServiceUpdate = some r.2.2.controller.lastChangeAt at hstored
      rw [hf.lastServiceUpdate nofun, hf.offered.2] at hstored
      have habout : (s.workers[i]?).any aboutToProcess = true := by
        rw [hk]
        rfl
      obtain hp | ⟨-, hp⟩ := freshPending_set hk hf.offered.2 (hfresh habout hstored)
      · exact .inr hp
      · refine .inl ?_
        change r.2.2.journal.processedAt = some r.2.2.controller.lastChangeAt
        rw [hat, hf.offered.2]
        exact hp
    · intro hcovered _ hstored
      have hstored' : r.2.2.lastServiceUpdate = some r.2.2.controller.lastChangeAt := by
        rw [hf.lastServiceUpdate nofun, hf.offered.2]
        exact hstored
      obtain hp | hp := hcovered hstored'
      · change r.2.2.journal.processedAt = some r.2.2.controller.lastChangeAt at hp
        rw [hat, hf.offered.2] at hp
        exact ⟨_, List.mem_of_getElem? hk, rfl, hp⟩
      · exact freshPending_of_set hdue' hf.offered.2 hp
  | storeServiceUpdate instant =>
    refine iff_of_true (processesFresh_of_not hk rfl x) fun hstored => ?_
    cases hx
    -- the instant of a check made before the list was fetched
    obtain ⟨-, hcomplete, hinstant⟩ := hmay
    obtain rfl : instant = some s.state.controller.lastChangeAt := hstored
    have hpolled := hg.inv.polled i
    obtain ⟨f, hlisted, hle, hchecked, -⟩ := hpolled.listed (hpolled.started hcomplete)
    have hge := hchecked _ (hinstant.resolve_left nofun).symm
    refine .inr ⟨⟨k (), own⟩, List.mem_set hlt _, hdue', ?_⟩
    rw [← hown, hlisted]
    exact congrArg some (le_antisymm hle hge)
  | _ =>
    have hnot := hdue.trans (show (g i).2.due = false from by first | exact hmay | exact hmay.1)
    exact iff_of_true (processesFresh_of_not hk hnot x)
      (h.set hk hnot hf.offered.2 (hf.lastServiceUpdate nofun) (hf.services nofun).2)

theorem covered_step (hg : Crew.Tracked (clientEffects V) (polling V) .idle Polls g s)
    {a : ClientAct V} (hs : clientStep cfg s a = some s') (h : Covered s) :
    ProcessesFresh s a ↔ Covered s' := by
  cases a with
  | spawn op =>
    cases hs
    refine iff_of_true trivial fun hstored => ?_
    obtain hp | ⟨w, hw, hp⟩ := h hstored
    · exact .inl hp
    · exact .inr ⟨w, List.mem_append_left _ hw, hp⟩
  | go i x => exact covered_go hg hs h
  | drop i =>
    obtain ⟨γ, c, k, own, hk, hawait, rfl⟩ := Crew.step_drop hs
    have hf := release_frame own s.state
    refine iff_of_true trivial (h.set hk ?_ hf.offered.2 (hf.lastServiceUpdate nofun)
      (hf.services nofun).2)
    cases c <;> first | rfl | cases hawait
  | env e =>
    obtain ⟨st, he, rfl⟩ := Option.map_eq_some_iff.mp hs
    obtain ⟨hlater, rfl⟩ := changeServices_spec he
    refine iff_of_true trivial fun hstored => ?_
    have hle := hg.inv.stored _ hstored
    dsimp only at hle
    omega

end Covered

section Runs

variable [DecidableEq V] {cfg : ClientConfig} {token : AuthToken} {services : List (Service V)}
  {lastChangeAt : Int} {as : List (ClientAct V)} {s : ClientTasks V}

theorem polls_start : ∃ g, Crew.Tracked (clientEffects V) (polling V) .idle Polls g
    (ClientTasks.start token services lastChangeAt) :=
  ⟨_, Crew.tracked_new ⟨fun _ => Polled.idle _ _, nofun, nofun, nofun⟩⟩

theorem run_polls (hrun : run (clientStep cfg) (.start token services lastChangeAt) as = some s) :
    ∃ g, Crew.Tracked (clientEffects V) (polling V) .idle Polls g s :=
  (polls_tracks cfg).run hrun (Crew.runAll_meets _ _) polls_start

/-- The stored instant hides no change, exactly in the runs in which no list fetched before the last
change is processed after the instant of that change was stored and the lists fetched since were
processed. In those runs, wherever no poll is under way and the stored instant is the controller's,
the watcher holds what the controller's list of now leaves. -/
theorem service_gate_iff
    (hrun : run (clientStep cfg) (.start token services lastChangeAt) as = some s) :
    (RunAll (clientStep cfg) ProcessesFresh (.start token services lastChangeAt) as ↔
      ∀ bs u, bs <+: as → run (clientStep cfg) (.start token services lastChangeAt) bs = some u →
        Covered u) ∧
    (RunAll (clientStep cfg) ProcessesFresh (.start token services lastChangeAt) as →
      ∀ bs u, bs <+: as → run (clientStep cfg) (.start token services lastChangeAt) bs = some u →
        (∀ w ∈ u.workers, aboutToProcess w = false) →
        u.state.lastServiceUpdate = some u.state.controller.lastChangeAt → Reflects u.state) := by
  have hiff : RunAll (clientStep cfg) ProcessesFresh (.start token services lastChangeAt) as ↔
      ∀ bs u, bs <+: as → run (clientStep cfg) (.start token services lastChangeAt) bs = some u →
        Covered u := by
    rw [runAll_iff_prefixes (fun u => (∃ g, Crew.Tracked (clientEffects V) (polling V) .idle Polls
      g u) ∧ Covered u) _ hrun ⟨polls_start, nofun⟩]
    · exact forall₄_congr fun bs u _ hu => and_iff_right (run_polls hu)
    · rintro u a u' hu ⟨⟨g, hg⟩, hcovered⟩
      rw [and_iff_right ((polls_tracks cfg).step hu (Crew.meets_true u a) ⟨g, hg⟩)]
      exact covered_step hg hu hcovered
  refine ⟨hiff, fun hall bs u hbs hu hidle hstored => ?_⟩
  obtain ⟨g, hg⟩ := run_polls hu
  obtain hp | ⟨w, hw, habout, -⟩ := hiff.mp hall bs u hbs hu hstored
  · exact hg.inv.reflects hp
  · rw [hidle w hw] at habout
    cases habout

/-- A service of this name. -/
def svcNamed (name : String) : Service Unit := ⟨name, name, false, [], (), []⟩

/-- A tick of the timer, up to the store of its instant. -/
def tickFetched (i : Nat) : List (ClientAct Unit) :=
  [.spawn (.serviceRefreshTick 1 []), .go i .done, .go i .done, .go i .done, .go i .done]

theorem service_gate_iff_tick :
    ∃ s : ClientTasks Unit,
      run (clientStep ⟨.cert, false, false⟩) (.start (.legacy "a") [svcNamed "x"] 0)
        (tickFetched 0 ++ [.go 0 .done, .go 0 (.order [])]) = some s ∧
      s.state.lastServiceUpdate = some 0 ∧ Reflects s.state := by
  obtain ⟨s, hs, h⟩ := Option.map_eq_some_iff.mp (show
    (run (clientStep ⟨.cert, false, false⟩) (.start (.legacy "a") [svcNamed "x"] 0)
      (tickFetched 0 ++ [.go 0 .done, .go 0 (.order [])])).map
      (fun s => (s.state.lastServiceUpdate, s.state.controller.lastChangeAt,
        s.workers.any aboutToProcess)) = some (some 0, 0, false) by decide +kernel)
  obtain ⟨hstored, h⟩ := Prod.mk.inj h
  obtain ⟨hat, hidle⟩ := Prod.mk.inj h
  have hall := (service_gate_iff hs).2 (by decide +kernel) _ s (List.prefix_refl _) hs
  refine ⟨s, hs, hstored, hall (fun w hw => ?_) (hstored.trans (congrArg some hat.symm))⟩
  rw [List.any_eq_false] at hidle
  exact Bool.not_eq_true _ ▸ hidle w hw

/-- A forced poll has fetched the list when it changes; a tick fetches the new one, stores its
instant over the reset of the forced poll and processes it, and then the forced poll processes the
old one. -/
theorem stale_list_processed :
    ∃ s : ClientTasks Unit,
      run (clientStep ⟨.cert, false, false⟩) (.start (.legacy "a") [svcNamed "x"] 0)
        ([.spawn (.pollServices 1 []), .go 0 .done, .go 0 .done, .env ([svcNamed "y"], 1)] ++
          (tickFetched 1 ++ [.go 0 .done, .go 1 .done, .go 1 (.order []),
            .go 0 (.order [svcNamed "y"]), .go 0 .done])) = some s ∧
      (∀ w ∈ s.workers, w.returned = true) ∧
      s.state.lastServiceUpdate = some s.state.controller.lastChangeAt ∧
      s.state.controller.services = [svcNamed "y"] ∧
      s.state.services["x"]? = some (svcNamed "x") ∧ s.state.services["y"]? = none ∧
      ¬ Reflects s.state := by
  obtain ⟨s, hs, h⟩ := Option.map_eq_some_iff.mp (show
    (run (clientStep ⟨.cert, false, false⟩) (.start (.legacy "a") [svcNamed "x"] 0)
      ([.spawn (.pollServices 1 []), .go 0 .done, .go 0 .done, .env ([svcNamed "y"], 1)] ++
        (tickFetched 1 ++ [.go 0 .done, .go 1 .done, .go 1 (.order []),
          .go 0 (.order [svcNamed "y"]), .go 0 .done]))).map
      (fun s => decide (s.workers.all (·.returned) = true ∧ s.state.lastServiceUpdate = some 1 ∧
        s.state.controller.lastChangeAt = 1 ∧ s.state.controller.services = [svcNamed "y"] ∧
        s.state.services["x"]? = some (svcNamed "x") ∧ s.state.services["y"]? = none ∧
        s.state.journal.processedAt = some 0)) = some true by decide +kernel)
  obtain ⟨hreturned, hstored, hat, hservices, hx, hy, hprocessed⟩ := of_decide_eq_true h
  refine ⟨s, hs, List.all_eq_true.mp hreturned, hstored.trans (congrArg some hat.symm), hservices,
    hx, hy, fun hreflects => ?_⟩
  have hsince := hreflects.since
  rw [hprocessed, hat] at hsince
  cases hsince

end Runs

end Noa.Edge.Client
