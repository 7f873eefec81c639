import Noa.Edge.Client.Pool
import Noa.Framework.Locks
import Noa.Framework.Progress

namespace Noa.Edge.Client
open Noa.Framework

/-- `timedOut d` is `ChannelTls` with the text `router dial timed out after d`. -/
inductive FanOutError where
  | noTlsEdgeRouter
  | timedOut (dialTimeout : Nat)
  | opener (e : OpenError)

/-- A detached task: its dial runs, then it reports, then it is gone. -/
inductive Opener (T : Type) where
  | running
  | reporting (r : Except FanOutError T)
  | ended (r : Except FanOutError T)

inductive FanOutCaller (T : Type) where
  | receiving (lastErr : Option FanOutError)
  | returned (r : Except FanOutError T)
  /-- The timeout of the connect has dropped it. -/
  | dropped

def FanOutCaller.rank {T : Type} : FanOutCaller T → Nat
  | .receiving _ => 1
  | _ => 0

/-- `fan_out_first_ok` under way, `elapsed` since it spawned its tasks. -/
structure FanOut (T : Type) where
  openers : List (Opener T)
  queue : List (Except FanOutError T)
  caller : FanOutCaller T
  elapsed : Nat

inductive FanOutAct (T : Type) where
  | ends (i : Nat) (r : Except FanOutError T)
  | timeout (i : Nat)
  | send (i : Nat)
  | recv
  | drop
  | elapse (nanos : Nat)

/-- The steps that neither a router nor the clock has to take. -/
def FanOutAct.own {T : Type} : FanOutAct T → Bool
  | .timeout _ | .send _ | .recv => true
  | _ => false

namespace Opener

variable {T : Type}

def result : Opener T → Option (Except FanOutError T)
  | .ended r => some r
  | _ => none

/-- How many of its steps and of those its report causes are to come. -/
def rank : Opener T → Nat
  | .running => 3
  | .reporting _ => 2
  | .ended _ => 0

end Opener

namespace FanOut

variable {T : Type}

def start (n : Nat) : FanOut T where
  openers := List.replicate n .running
  queue := []
  caller := if n = 0 then .returned (.error .noTlsEdgeRouter) else .receiving none
  elapsed := 0

def setOpener (s : FanOut T) (i : Nat) (o : Opener T) : FanOut T :=
  { s with openers := s.openers.set i o }

/-- The channel holds a report of every task; it closes when every task has reported. -/
def step (dialTimeout : Nat) (s : FanOut T) : FanOutAct T → Option (FanOut T)
  | .ends i r =>
    match s.openers[i]? with
    | some .running => some (s.setOpener i (.reporting r))
    | _ => none
  | .timeout i =>
    match s.openers[i]? with
    | some .running =>
      if dialTimeout ≤ s.elapsed then some (s.setOpener i (.reporting (.error (.timedOut dialTimeout))))
      else none
    | _ => none
  | .send i =>
    match s.openers[i]? with
    | some (.reporting r) =>
      match s.caller with
      | .receiving _ =>
        if s.queue.length < s.openers.length then
          some { s.setOpener i (.ended r) with queue := s.queue ++ [r] }
        else none
      | _ => some (s.setOpener i (.ended r))
    | _ => none
  | .recv =>
    match s.caller, s.queue with
    | .receiving _, .ok v :: queue => some { s with queue, caller := .returned (.ok v) }
    | .receiving _, .error e :: queue => some { s with queue, caller := .receiving (some e) }
    | .receiving lastErr, [] =>
      if s.openers.all (·.result.isSome) then
        some { s with caller := .returned (.error (lastErr.getD .noTlsEdgeRouter)) }
      else none
    | _, _ => none
  | .drop =>
    match s.caller with
    | .receiving _ => some { s with caller := .dropped }
    | _ => none
  | .elapse nanos => some { s with elapsed := s.elapsed + nanos }

/-- What the tasks have ended with. -/
def results (s : FanOut T) : List (Except FanOutError T) := s.openers.filterMap Opener.result

def Settled (s : FanOut T) : Prop :=
  (∀ o ∈ s.openers, o.result.isSome = true) ∧ ∀ lastErr, s.caller ≠ .receiving lastErr

/-- While the caller receives, it has had or will have what every task has ended with, and so far
errors; what it returns is what a task has ended with. -/
def Sound (s : FanOut T) : Prop :=
  match s.caller with
  | .receiving lastErr => ∃ errs : List FanOutError,
      lastErr = errs.getLast? ∧ s.results.Perm (errs.map .error ++ s.queue)
  | .returned (.ok v) => .ok v ∈ s.results
  | .returned (.error e) =>
    (s.openers = [] ∧ e = .noTlsEdgeRouter ∨ .error e ∈ s.results) ∧
      ∀ o ∈ s.openers, ∃ e', o = .ended (.error e')
  | .dropped => True

theorem sound_start (n : Nat) : Sound (start n : FanOut T) := by
  by_cases hn : n = 0
  · subst hn
    exact ⟨.inl ⟨rfl, rfl⟩, by simp [start]⟩
  · simp only [Sound, start, if_neg hn]
    exact ⟨[], rfl, by simp [results, List.filterMap_replicate, Opener.result]⟩

section Steps

variable {s s' : FanOut T} {i : Nat} {o o' : Opener T} {queue : List (Except FanOutError T)}

theorem set_append_perm (hi : s.openers[i]? = some o) (o' : Opener T) :
    (s.openers.set i o' ++ [o]).Perm (s.openers ++ [o']) :=
  Multiset.coe_eq_coe.mp (Crew.set_add_getElem hi)

theorem results_setOpener (hi : s.openers[i]? = some o) (ho : o.result = none) (o' : Opener T) :
    (s.setOpener i o').results.Perm (s.results ++ o'.result.toList) := by
  have h := (set_append_perm hi o').filterMap Opener.result
  rw [List.filterMap_append, List.filterMap_append] at h
  cases hr : o'.result <;> simpa [results, FanOut.setOpener, hr, ho] using h

theorem Sound.setOpener (hs : Sound s) (hi : s.openers[i]? = some o) (ho : o.result = none)
    (hqueue : ∀ lastErr, s.caller = .receiving lastErr → queue = s.queue ++ o'.result.toList) :
    Sound { s.setOpener i o' with queue := queue } := by
  have hresults := results_setOpener hi ho o'
  cases hcaller : s.caller with
  | receiving lastErr =>
    simp only [Sound, FanOut.setOpener, hcaller] at hs ⊢
    obtain ⟨errs, hlast, hperm⟩ := hs
    refine ⟨errs, hlast, hresults.trans ?_⟩
    rw [hqueue lastErr hcaller, ← List.append_assoc]
    exact hperm.append_right _
  | returned r =>
    cases r with
    | ok v =>
      simp only [Sound, FanOut.setOpener, hcaller] at hs ⊢
      exact hresults.mem_iff.mpr (List.mem_append_left _ hs)
    | error e =>
      simp only [Sound, hcaller] at hs
      obtain ⟨e', rfl⟩ := hs.2 o (List.mem_of_getElem? hi)
      cases ho
  | dropped =>
    simp only [Sound, FanOut.setOpener, hcaller]

theorem Sound.closed (hs : Sound s) {lastErr : Option FanOutError}
    (hcaller : s.caller = .receiving lastErr) (hqueue : s.queue = [])
    (hall : ∀ o ∈ s.openers, o.result.isSome = true) :
    Sound { s with caller := .returned (.error (lastErr.getD .noTlsEdgeRouter)) } := by
  simp only [Sound, hcaller, hqueue, List.append_nil] at hs
  obtain ⟨errs, rfl, hperm⟩ := hs
  have hended (o : Opener T) (ho : o ∈ s.openers) : ∃ e' ∈ errs, o = .ended (.error e') := by
    cases o with
    | ended r =>
      have hr : r ∈ s.results := List.mem_filterMap.mpr ⟨_, ho, rfl⟩
      obtain ⟨e', he', rfl⟩ := List.mem_map.mp (hperm.mem_iff.mp hr)
      exact ⟨e', he', rfl⟩
    | _ => cases hall _ ho
  refine ⟨?_, fun o ho => (hended o ho).imp fun e' he' => he'.2⟩
  cases hlast : errs.getLast? with
  | none =>
    rw [List.getLast?_eq_none_iff] at hlast
    subst hlast
    refine .inl ⟨List.eq_nil_iff_forall_not_mem.mpr fun o ho => ?_, rfl⟩
    obtain ⟨e', he', -⟩ := hended o ho
    cases he'
  | some e => exact .inr (hperm.mem_iff.mpr (List.mem_map_of_mem (List.mem_of_getLast? hlast)))

/-- What a step does, and whether it is one of the caller's and the tasks' own. -/
inductive Moves (s : FanOut T) : Bool → FanOut T → Prop
  | reports {own : Bool} {i : Nat} (r : Except FanOutError T) (hi : s.openers[i]? = some .running) :
      Moves s own (s.setOpener i (.reporting r))
  | ends {i : Nat} {r : Except FanOutError T} {queue : List (Except FanOutError T)}
      (hi : s.openers[i]? = some (.reporting r))
      (hqueue : ∀ lastErr, s.caller = .receiving lastErr → queue = s.queue ++ [r])
      (hle : queue.length ≤ s.queue.length + 1) :
      Moves s true { s.setOpener i (.ended r) with queue := queue }
  | ok {lastErr : Option FanOutError} {v : T} {queue : List (Except FanOutError T)}
      (hcaller : s.caller = .receiving lastErr) (hqueue : s.queue = .ok v :: queue) :
      Moves s true { s with queue, caller := .returned (.ok v) }
  | error {lastErr : Option FanOutError} {e : FanOutError} {queue : List (Except FanOutError T)}
      (hcaller : s.caller = .receiving lastErr) (hqueue : s.queue = .error e :: queue) :
      Moves s true { s with queue, caller := .receiving (some e) }
  | closed {lastErr : Option FanOutError} (hcaller : s.caller = .receiving lastErr)
      (hqueue : s.queue = []) (hall : ∀ o ∈ s.openers, o.result.isSome = true) :
      Moves s true { s with caller := .returned (.error (lastErr.getD .noTlsEdgeRouter)) }
  | dropped {lastErr : Option FanOutError} (hcaller : s.caller = .receiving lastErr) :
      Moves s false { s with caller := .dropped }
  | elapses (nanos : Nat) : Moves s false { s with elapsed := s.elapsed + nanos }

theorem moves_of_step {dialTimeout : Nat} {a : FanOutAct T} (h : s.step dialTimeout a = some s') :
    Moves s a.own s' := by
  cases a with
  | ends i r =>
    simp only [step] at h
    split at h
    · next hi =>
      cases h
      exact .reports r hi
    · cases h
  | timeout i =>
    simp only [step] at h
    split at h
    · next hi =>
      split_ifs at h
      cases h
      exact .reports _ hi
    · cases h
  | send i =>
    simp only [step] at h
    split at h
    · next r hi =>
      split at h
      · split_ifs at h
        cases h
        exact .ends hi (fun _ _ => rfl) (by simp)
      · next hcaller =>
        cases h
        exact .ends hi (fun lastErr hrec => absurd hrec (hcaller lastErr)) (Nat.le_succ _)
    · cases h
  | recv =>
    simp only [step] at h
    split at h
    · next hcaller hqueue =>
      cases h
      exact .ok hcaller hqueue
    · next hcaller hqueue =>
      cases h
      exact .error hcaller hqueue
    · next hcaller hqueue =>
      split_ifs at h with hall
      cases h
      exact .closed hcaller hqueue (List.all_eq_true.mp hall)
    · cases h
  | drop =>
    simp only [step] at h
    split at h
    · next hcaller =>
      cases h
      exact .dropped hcaller
    · cases h
  | elapse nanos =>
    cases h
    exact .elapses nanos

theorem Sound.moves {own : Bool} (hs : Sound s) (h : Moves s own s') : Sound s' := by
  cases h with
  | reports r hi => exact hs.setOpener hi rfl fun _ _ => (List.append_nil _).symm
  | ends hi hqueue hle => exact hs.setOpener hi rfl hqueue
  | ok hcaller hqueue =>
    simp only [Sound, hcaller, hqueue] at hs
    obtain ⟨errs, -, hperm⟩ := hs
    exact hperm.mem_iff.mpr (List.mem_append_right _ List.mem_cons_self)
  | @error _ e _ hcaller hqueue =>
    simp only [Sound, hcaller, hqueue] at hs
    obtain ⟨errs, -, hperm⟩ := hs
    exact ⟨errs ++ [e], by simp, by simpa [results] using hperm⟩
  | closed hcaller hqueue hall => exact hs.closed hcaller hqueue hall
  | dropped hcaller => trivial
  | elapses nanos => exact hs

theorem Moves.elapsed {own : Bool} (h : Moves s own s') : s.elapsed ≤ s'.elapsed := by
  cases h with
  | elapses nanos => exact Nat.le_add_right _ _
  | _ => exact Nat.le_refl _

def rank (s : FanOut T) : Nat :=
  (s.openers.map Opener.rank).sum + s.queue.length + s.caller.rank

theorem rank_setOpener (hi : s.openers[i]? = some o) (o' : Opener T) :
    ((s.setOpener i o').openers.map Opener.rank).sum + o.rank =
      (s.openers.map Opener.rank).sum + o'.rank := by
  have h := ((set_append_perm hi o').map Opener.rank).sum_eq
  simpa [FanOut.setOpener] using h

theorem Moves.rank {own : Bool} (h : Moves s own s') :
    (if own then 1 else 0) + s'.rank ≤ s.rank := by
  cases h with
  | @reports own i r hi =>
    have hsum := rank_setOpener hi (.reporting r)
    simp only [FanOut.rank, FanOut.setOpener, Opener.rank] at hsum ⊢
    split <;> omega
  | @ends i r queue hi hqueue hle =>
    have hsum := rank_setOpener hi (.ended r)
    simp only [FanOut.rank, FanOut.setOpener, Opener.rank, ↓reduceIte] at hsum ⊢
    omega
  | ok hcaller hqueue | error hcaller hqueue =>
    simp only [FanOut.rank, FanOutCaller.rank, hcaller, hqueue, List.length_cons, ↓reduceIte]
    omega
  | closed hcaller hqueue hall =>
    simp only [FanOut.rank, FanOutCaller.rank, hcaller, ↓reduceIte]
    omega
  | dropped hcaller =>
    simp only [FanOut.rank, FanOutCaller.rank, hcaller, Bool.false_eq_true, ↓reduceIte]
    omega
  | elapses nanos => exact Nat.le_of_eq (Nat.zero_add _)

theorem Sound.send_isSome (hs : Sound s) {r : Except FanOutError T}
    (hi : s.openers[i]? = some (.reporting r)) (dialTimeout : Nat) :
    (s.step dialTimeout (.send i)).isSome = true := by
  simp only [step, hi]
  split
  · next lastErr hcaller =>
    simp only [Sound, hcaller] at hs
    obtain ⟨errs, -, hperm⟩ := hs
    have hlt : s.results.length < s.openers.length :=
      List.length_filterMap_lt_length_iff_exists.mpr ⟨_, List.mem_of_getElem? hi, rfl⟩
    have hlen := hperm.length_eq
    rw [List.length_append] at hlen
    rw [if_pos (by omega)]
    rfl
  · rfl

theorem Sound.enabled (hs : Sound s) {dialTimeout : Nat} (htime : dialTimeout ≤ s.elapsed)
    (hsettled : ¬s.Settled) : ∃ a s', a.own = true ∧ s.step dialTimeout a = some s' := by
  by_cases hall : ∀ o ∈ s.openers, o.result.isSome = true
  · -- Every task is gone, so the caller has the rest of the reports or the end of them to take.
    obtain ⟨lastErr, hcaller⟩ : ∃ lastErr, s.caller = .receiving lastErr := by
      by_contra hno
      exact hsettled ⟨hall, fun lastErr h => hno ⟨lastErr, h⟩⟩
    obtain ⟨s', hs'⟩ : ∃ s', s.step dialTimeout .recv = some s' := by
      simp only [step, hcaller]
      cases s.queue with
      | nil => exact ⟨_, if_pos (List.all_eq_true.mpr hall)⟩
      | cons r queue => cases r <;> exact ⟨_, rfl⟩
    exact ⟨.recv, s', rfl, hs'⟩
  · push Not at hall
    obtain ⟨o, ho, hended⟩ := hall
    obtain ⟨i, hi⟩ := List.mem_iff_getElem?.mp ho
    cases o with
    | running =>
      refine ⟨.timeout i, s.setOpener i (.reporting (.error (.timedOut dialTimeout))), rfl, ?_⟩
      simp only [step, hi, if_pos htime]
    | reporting r =>
      obtain ⟨s', hs'⟩ := Option.isSome_iff_exists.mp (hs.send_isSome hi dialTimeout)
      exact ⟨.send i, s', rfl, hs'⟩
    | ended r => exact absurd rfl hended

end Steps

/-- Whatever the routers do, in any order: the caller gets a channel only from a task that has one, and
an error only if every task has failed, one of their errors unless there is none; no task waits for the
caller to report, also once the caller is gone; and from the timeout of the dials on all of it ends,
however it goes on. -/
theorem first_ok_returned {n dialTimeout : Nat} {as : List (FanOutAct T)} {s : FanOut T}
    (hrun : run (step dialTimeout) (start n) as = some s) :
    (∀ v, s.caller = .returned (.ok v) → .ok v ∈ s.results) ∧
    (∀ e, s.caller = .returned (.error e) →
      (s.openers = [] ∧ e = .noTlsEdgeRouter ∨ .error e ∈ s.results) ∧
      ∀ o ∈ s.openers, ∃ e', o = .ended (.error e')) ∧
    (∀ i r, s.openers[i]? = some (.reporting r) → (s.step dialTimeout (.send i)).isSome = true) ∧
    (dialTimeout ≤ s.elapsed → Ends (step dialTimeout) FanOutAct.own Settled s) := by
  have hs : Sound s := run_invariant Sound (fun s a s' h hs => hs.moves (moves_of_step h)) hrun
    (sound_start n)
  refine ⟨fun v h => ?_, fun e h => ?_, fun i r hi => hs.send_isSome hi _, fun htime => ?_⟩
  · simpa only [Sound, h] using hs
  · simpa only [Sound, h] using hs
  · refine ends_of_rank (fun s => Sound s ∧ dialTimeout ≤ s.elapsed) rank ?_ ?_ ⟨hs, htime⟩
    · intro s a s' h hs
      have hmoves := moves_of_step h
      exact ⟨⟨hs.1.moves hmoves, Nat.le_trans hs.2 hmoves.elapsed⟩, hmoves.rank⟩
    · exact fun s hs hsettled => hs.1.enabled hs.2 hsettled

/-- A router refuses, the next answers, and a third one withholds its answer. -/
def secondWins : List (FanOutAct Nat) :=
  [.ends 0 (.error (.opener (.dial "refused"))), .ends 1 (.ok 7), .send 0, .recv, .send 1, .recv,
    .elapse 15, .timeout 2]

theorem first_ok_returned_second : ∃ s, run (step 15) (start 3) secondWins = some s ∧
    s.caller = .returned (.ok 7) ∧ .ok 7 ∈ s.results ∧
    Ends (step 15) FanOutAct.own Settled s := by
  have hrun : run (step 15) (start 3) secondWins = some ⟨[.ended (.error (.opener (.dial "refused"))),
      .ended (.ok 7), .reporting (.error (.timedOut 15))], [], .returned (.ok 7), 15⟩ := rfl
  obtain ⟨hok, -, -, hends⟩ := first_ok_returned hrun
  exact ⟨_, hrun, rfl, hok 7 rfl, hends (Nat.le_refl _)⟩

end FanOut

end Noa.Edge.Client
