import Noa.Framework.Program

namespace Noa.Framework

/-- How commands act on a shared state and on the record their own worker keeps. `release` gives
back what a dropped worker was holding. -/
structure Effects (Cmd : Type → Type) (S L E X : Type) where
  exec : {β : Type} → Cmd β → X → L → S → Option (β × L × S)
  env : E → S → Option S
  idle : L
  release : L → S → S
  droppable : {β : Type} → Cmd β → Bool

structure Worker (Cmd : Type → Type) (L : Type) where
  prog : Program Cmd Unit
  own : L

def Worker.returned {Cmd : Type → Type} {L : Type} (w : Worker Cmd L) : Bool :=
  match w.prog with
  | .ret _ => true
  | .call _ _ => false

/-- Any number of workers over one shared state. -/
structure Crew (Cmd : Type → Type) (S L : Type) where
  workers : List (Worker Cmd L)
  state : S

namespace Crew

variable {Cmd : Type → Type} {S L O E X σ : Type} (R : Effects Cmd S L E X)
  (progOf : O → Program Cmd Unit)

/-- One command of one worker, the start or the loss of a worker, or an environment step. -/
def step (s : Crew Cmd S L) : PoolAct O E X → Option (Crew Cmd S L)
  | .spawn o => some { s with workers := s.workers ++ [⟨progOf o, R.idle⟩] }
  | .go i x =>
    match s.workers[i]? with
    | some ⟨.call c k, own⟩ =>
      (R.exec c x own s.state).map fun r => ⟨s.workers.set i ⟨k r.1, r.2.1⟩, r.2.2⟩
    | _ => none
  | .drop i =>
    match s.workers[i]? with
    | some ⟨.call c _, own⟩ =>
      if R.droppable c then
        some ⟨s.workers.set i ⟨.ret (), R.idle⟩, R.release own s.state⟩
      else none
    | _ => none
  | .env e => (R.env e s.state).map fun st => { s with state := st }

/-- A condition on the commands resolved along a run. -/
def Meets (good : {γ : Type} → Cmd γ → L → S → Prop) (s : Crew Cmd S L) : PoolAct O E X → Prop
  | .go i _ =>
    match s.workers[i]? with
    | some ⟨.call c _, own⟩ => good c own s.state
    | _ => True
  | _ => True

instance decidableMeets {good : {γ : Type} → Cmd γ → L → S → Prop}
    [∀ (γ : Type) (c : Cmd γ) (l : L) (s : S), Decidable (good c l s)] (s : Crew Cmd S L)
    (a : PoolAct O E X) : Decidable (Meets good s a) :=
  match a with
  | .go i _ =>
    match h : s.workers[i]? with
    | some ⟨.call c _, own⟩ => decidable_of_iff (good c own s.state) (by rw [Meets, h])
    | some ⟨.ret _, _⟩ => .isTrue (by rw [Meets, h]; trivial)
    | none => .isTrue (by rw [Meets, h]; trivial)
  | .spawn _ => .isTrue trivial
  | .drop _ => .isTrue trivial
  | .env _ => .isTrue trivial

variable {R progOf} {s s' : Crew Cmd S L} {i : Nat} {x : X}

theorem step_go (h : step R progOf s (.go i x) = some s') :
    ∃ (γ : Type) (c : Cmd γ) (k : γ → Program Cmd Unit) (own : L) (r : γ × L × S),
      s.workers[i]? = some ⟨.call c k, own⟩ ∧ R.exec c x own s.state = some r ∧
        s' = ⟨s.workers.set i ⟨k r.1, r.2.1⟩, r.2.2⟩ := by
  simp only [step] at h
  split at h
  · next γ c k own hk =>
    obtain ⟨r, hx, hr⟩ := Option.map_eq_some_iff.mp h
    exact ⟨γ, c, k, own, r, hk, hx, hr.symm⟩
  · cases h

theorem step_drop (h : step R progOf s (.drop i) = some s') :
    ∃ (γ : Type) (c : Cmd γ) (k : γ → Program Cmd Unit) (own : L),
      s.workers[i]? = some ⟨.call c k, own⟩ ∧ R.droppable c = true ∧
        s' = ⟨s.workers.set i ⟨.ret (), R.idle⟩, R.release own s.state⟩ := by
  simp only [step] at h
  split at h
  · next γ c k own hk =>
    split_ifs at h with hd
    exact ⟨γ, c, k, own, hk, hd, (Option.some.inj h).symm⟩
  · cases h

/-- What is true of the programs workers start with, and of what is left of such a program after
each of its commands, is true of what is left of every worker's program. -/
theorem run_progs {P : Program Cmd Unit → Prop} (hop : ∀ o, P (progOf o)) (hret : P (.ret ()))
    (hcall : ∀ {γ : Type} (c : Cmd γ) k b, P (.call c k) → P (k b))
    {as : List (PoolAct O E X)} (hrun : run (step R progOf) s as = some s')
    (hs : ∀ w ∈ s.workers, P w.prog) : ∀ w ∈ s'.workers, P w.prog := by
  refine run_invariant (fun u => ∀ w ∈ u.workers, P w.prog) ?_ hrun hs
  intro u a u' hu hall w hw
  cases a with
  | spawn o =>
    cases hu
    obtain hw | hw := List.mem_append.mp hw
    · exact hall w hw
    · rw [List.mem_singleton.mp hw]
      exact hop o
  | go i x =>
    obtain ⟨γ, c, k, own, r, hk, -, rfl⟩ := step_go hu
    obtain hw | rfl := List.mem_or_eq_of_mem_set hw
    · exact hall w hw
    · exact hcall c k r.1 (hall _ (List.mem_of_getElem? hk))
  | drop i =>
    obtain ⟨γ, c, k, own, -, -, rfl⟩ := step_drop hu
    obtain hw | rfl := List.mem_or_eq_of_mem_set hw
    · exact hall w hw
    · exact hret
  | env e =>
    obtain ⟨st, -, rfl⟩ := Option.map_eq_some_iff.mp hu
    exact hall w hw

theorem meets_go {good : {γ : Type} → Cmd γ → L → S → Prop} {γ : Type} {c : Cmd γ}
    {k : γ → Program Cmd Unit} {own : L} (hk : s.workers[i]? = some ⟨.call c k, own⟩) :
    Meets (O := O) (E := E) good s (.go i x) ↔ good c own s.state := by
  rw [Meets, hk]

/-- What is known of the shared state and of where each worker is in its discipline, kept by every
command the discipline allows. -/
structure Tracks (R : Effects Cmd S L E X) (progOf : O → Program Cmd Unit)
    (good : {γ : Type} → Cmd γ → L → S → Prop) (D : Discipline Cmd σ) (init : σ)
    (inv : (Nat → L × σ) → S → Prop) : Prop where
  spawn : ∀ o, (progOf o).Obeys D init
  lost : D.done init
  exec : ∀ {γ : Type} (c : Cmd γ) x g i s r, inv g s → D.may (g i).2 c → good c (g i).1 s →
    R.exec c x (g i).1 s = some r →
    inv (Function.update g i (r.2.1, D.next (g i).2 c r.1)) r.2.2
  drop : ∀ {γ : Type} (c : Cmd γ) g i s, inv g s → D.may (g i).2 c → R.droppable c = true →
    inv (Function.update g i (R.idle, init)) (R.release (g i).1 s)
  env : ∀ e g s s', R.env e s = some s' → inv g s → inv g s'

/-- A further invariant, kept where the first one holds. -/
theorem Tracks.extend {good good' : {γ : Type} → Cmd γ → L → S → Prop} {D : Discipline Cmd σ}
    {init : σ} {inv inv' : (Nat → L × σ) → S → Prop} (h : Tracks R progOf good D init inv)
    (hgood : ∀ {γ : Type} (c : Cmd γ) l s, good' c l s → good c l s)
    (exec : ∀ {γ : Type} (c : Cmd γ) x g i s r, inv g s → inv' g s → D.may (g i).2 c →
      good' c (g i).1 s → R.exec c x (g i).1 s = some r →
      inv' (Function.update g i (r.2.1, D.next (g i).2 c r.1)) r.2.2)
    (drop : ∀ {γ : Type} (c : Cmd γ) g i s, inv g s → inv' g s → D.may (g i).2 c →
      R.droppable c = true → inv' (Function.update g i (R.idle, init)) (R.release (g i).1 s))
    (env : ∀ e g s s', R.env e s = some s' → inv g s → inv' g s → inv' g s') :
    Tracks R progOf good' D init fun g s => inv g s ∧ inv' g s where
  spawn := h.spawn
  lost := h.lost
  exec := fun c x g i s r hi hmay hg hx =>
    ⟨h.exec c x g i s r hi.1 hmay (hgood c _ _ hg) hx, exec c x g i s r hi.1 hi.2 hmay hg hx⟩
  drop := fun c g i s hi hmay hd => ⟨h.drop c g i s hi.1 hmay hd, drop c g i s hi.1 hi.2 hmay hd⟩
  env := fun e g s s' he hi => ⟨h.env e g s s' he hi.1, env e g s s' he hi.1 hi.2⟩

theorem update_map {τ : Type} (f : σ → τ) (g : Nat → L × σ) (i : Nat) (l : L) (st : σ) :
    (fun j => ((Function.update g i (l, st) j).1, f (Function.update g i (l, st) j).2)) =
      Function.update (fun j => ((g j).1, f (g j).2)) i (l, f st) := by
  funext j
  simp only [Function.update_apply]
  split_ifs <;> rfl

/-- Two invariants with disciplines of their own, side by side. -/
theorem Tracks.prod {τ : Type} {good : {γ : Type} → Cmd γ → L → S → Prop} {D : Discipline Cmd σ}
    {E : Discipline Cmd τ} {init : σ} {init' : τ} {inv : (Nat → L × σ) → S → Prop}
    {inv' : (Nat → L × τ) → S → Prop} (h : Tracks R progOf good D init inv)
    (h' : Tracks R progOf good E init' inv') :
    Tracks R progOf good (D.prod E) (init, init') fun g s =>
      inv (fun j => ((g j).1, (g j).2.1)) s ∧ inv' (fun j => ((g j).1, (g j).2.2)) s where
  spawn := fun o => (h.spawn o).prod (h'.spawn o)
  lost := ⟨h.lost, h'.lost⟩
  exec := by
    intro γ c x g i s r hi hmay hg hx
    rw [update_map Prod.fst, update_map Prod.snd]
    exact ⟨h.exec c x _ i s r hi.1 hmay.1 hg hx, h'.exec c x _ i s r hi.2 hmay.2 hg hx⟩
  drop := by
    intro γ c g i s hi hmay hd
    rw [update_map Prod.fst, update_map Prod.snd]
    exact ⟨h.drop c _ i s hi.1 hmay.1 hd, h'.drop c _ i s hi.2 hmay.2 hd⟩
  env := fun e g s s' he hi => ⟨h.env e _ s s' he hi.1, h'.env e _ s s' he hi.2⟩

/-- Each worker obeys the discipline from where it is; there is nobody beyond the last one. -/
structure Tracked (R : Effects Cmd S L E X) (D : Discipline Cmd σ) (init : σ)
    (inv : (Nat → L × σ) → S → Prop) (g : Nat → L × σ) (s : Crew Cmd S L) : Prop where
  own : ∀ i (w : Worker Cmd L), s.workers[i]? = some w → (g i).1 = w.own
  obeys : ∀ i (w : Worker Cmd L), s.workers[i]? = some w → w.prog.Obeys D (g i).2
  absent : ∀ i, s.workers.length ≤ i → g i = (R.idle, init)
  inv : inv g s.state

section Tracked

variable {good : {γ : Type} → Cmd γ → L → S → Prop} {D : Discipline Cmd σ} {init : σ}
  {inv : (Nat → L × σ) → S → Prop} {g : Nat → L × σ}

theorem tracked_new {st : S} (h : inv (fun _ => (R.idle, init)) st) :
    Tracked R D init inv (fun _ => (R.idle, init)) ⟨[], st⟩ := by
  constructor
  · intro i w hi
    simp at hi
  · intro i w hi
    simp at hi
  · intro i _
    rfl
  · exact h

theorem Tracked.mono {inv' : (Nat → L × σ) → S → Prop} (h : Tracked R D init inv g s)
    (hinv : inv g s.state → inv' g s.state) : Tracked R D init inv' g s :=
  ⟨h.own, h.obeys, h.absent, hinv h.inv⟩

theorem Tracked.set (h : Tracked R D init inv g s) {w : Worker Cmd L} {st : S} {q : σ}
    (hi : i < s.workers.length) (hw : w.prog.Obeys D q)
    (hinv : inv (Function.update g i (w.own, q)) st) :
    Tracked R D init inv (Function.update g i (w.own, q)) ⟨s.workers.set i w, st⟩ := by
  constructor
  · intro j w' hj
    rw [List.getElem?_set] at hj
    rw [Function.update_apply]
    split_ifs at hj with hij
    · rw [if_pos hij.symm, ← Option.some.inj hj]
    · rw [if_neg (Ne.symm hij)]
      exact h.own j w' hj
  · intro j w' hj
    rw [List.getElem?_set] at hj
    rw [Function.update_apply]
    split_ifs at hj with hij
    · rw [if_pos hij.symm, ← Option.some.inj hj]
      exact hw
    · rw [if_neg (Ne.symm hij)]
      exact h.obeys j w' hj
  · intro j hj
    rw [List.length_set] at hj
    rw [Function.update_of_ne (by omega)]
    exact h.absent j hj
  · exact hinv

theorem Tracked.spawn (h : Tracked R D init inv g s) {p : Program Cmd Unit} (hp : p.Obeys D init) :
    Tracked R D init inv g { s with workers := s.workers ++ [⟨p, R.idle⟩] } := by
  constructor
  · intro i w hi
    rw [List.getElem?_append] at hi
    split_ifs at hi with hlt
    · exact h.own i w hi
    · obtain ⟨-, rfl⟩ := List.getElem?_eq_some_iff.mp hi
      rw [h.absent i (by omega), List.getElem_singleton]
  · intro i w hi
    rw [List.getElem?_append] at hi
    split_ifs at hi with hlt
    · exact h.obeys i w hi
    · obtain ⟨-, rfl⟩ := List.getElem?_eq_some_iff.mp hi
      rw [h.absent i (by omega), List.getElem_singleton]
      exact hp
  · intro i hi
    rw [List.length_append, List.length_singleton] at hi
    exact h.absent i (by omega)
  · exact h.inv

theorem Tracked.may (h : Tracked R D init inv g s) {γ : Type} {c : Cmd γ}
    {k : γ → Program Cmd Unit} {own : L} (hk : s.workers[i]? = some ⟨.call c k, own⟩) :
    (g i).1 = own ∧ D.may (g i).2 c :=
  ⟨h.own i _ hk, (h.obeys i _ hk).1⟩

theorem Tracks.step (h : Tracks R progOf good D init inv) {a : PoolAct O E X}
    (hs : step R progOf s a = some s') (hgood : Meets good s a)
    (ht : ∃ g, Tracked R D init inv g s) : ∃ g, Tracked R D init inv g s' := by
  obtain ⟨g, ht⟩ := ht
  cases a with
  | spawn o =>
    cases hs
    exact ⟨g, ht.spawn (h.spawn o)⟩
  | go i x =>
    obtain ⟨γ, c, k, own, r, hk, hx, rfl⟩ := step_go hs
    obtain ⟨hown, hmay⟩ := ht.may hk
    rw [meets_go hk, ← hown] at hgood
    rw [← hown] at hx
    have hinv := h.exec c x g i s.state r ht.inv hmay hgood hx
    exact ⟨_, ht.set (w := ⟨k r.1, r.2.1⟩) (List.getElem?_eq_some_iff.mp hk).1
      ((ht.obeys i _ hk).2 r.1) hinv⟩
  | drop i =>
    obtain ⟨γ, c, k, own, hk, hd, rfl⟩ := step_drop hs
    obtain ⟨hown, hmay⟩ := ht.may hk
    have hinv := h.drop c g i s.state ht.inv hmay hd
    rw [hown] at hinv
    exact ⟨_, ht.set (w := ⟨.ret (), R.idle⟩) (List.getElem?_eq_some_iff.mp hk).1 h.lost hinv⟩
  | env e =>
    obtain ⟨st, he, rfl⟩ := Option.map_eq_some_iff.mp hs
    exact ⟨g, ht.own, ht.obeys, ht.absent, h.env e g s.state st he ht.inv⟩

theorem Tracks.run (h : Tracks R progOf good D init inv) {as : List (PoolAct O E X)}
    (hrun : run (Crew.step R progOf) s as = some s')
    (hgood : RunAll (Crew.step R progOf) (Meets good) s as)
    (ht : ∃ g, Tracked R D init inv g s) : ∃ g, Tracked R D init inv g s' :=
  run_invariant_when (fun u => ∃ g, Tracked R D init inv g u) (fun _ _ _ hs hg hi => h.step hs hg hi)
    hrun hgood ht

theorem meets_true (s : Crew Cmd S L) (a : PoolAct O E X) : Meets (fun _ _ _ => True) s a := by
  cases a with
  | go i x =>
    simp only [Meets]
    split <;> trivial
  | _ => trivial

theorem runAll_meets (s : Crew Cmd S L) (as : List (PoolAct O E X)) :
    RunAll (Crew.step R progOf) (Meets fun _ _ _ => True) s as :=
  (runAll_congr (fun _ => True) (d := fun _ _ => True) (fun _ _ _ _ _ => trivial)
    (fun s a _ => iff_of_true (meets_true s a) trivial) trivial as).mpr (runAll_true s as)

/-- A property that every step keeps but the commands that do not meet a condition: it holds in all
the states of a run exactly if all the commands of the run meet the condition. -/
theorem Tracks.runAll_iff {P : S → Prop} {as : List (PoolAct O E X)}
    (h : Tracks R progOf (fun _ _ _ => True) D init inv)
    (exec : ∀ {γ : Type} (c : Cmd γ) x g i s r, inv g s → D.may (g i).2 c →
      R.exec c x (g i).1 s = some r → P s → (good c (g i).1 s ↔ P r.2.2))
    (drop : ∀ l s, P s → P (R.release l s)) (env : ∀ e s s', R.env e s = some s' → P s → P s')
    (hrun : Framework.run (Crew.step R progOf) s as = some s') (ht : ∃ g, Tracked R D init inv g s)
    (hP : P s.state) :
    RunAll (Crew.step R progOf) (Meets good) s as ↔
      ∀ bs u, bs <+: as → Framework.run (Crew.step R progOf) s bs = some u → P u.state := by
  have hstep (s : Crew Cmd S L) (a : PoolAct O E X) (s' : Crew Cmd S L)
      (hs : Crew.step R progOf s a = some s')
      (hi : (∃ g, Tracked R D init inv g s) ∧ P s.state) :
      Meets good s a ↔ (∃ g, Tracked R D init inv g s') ∧ P s'.state := by
    obtain ⟨⟨g, ht⟩, hP⟩ := hi
    rw [and_iff_right (h.step hs (meets_true s a) ⟨g, ht⟩)]
    cases a with
    | spawn o =>
      cases hs
      exact iff_of_true trivial hP
    | go i x =>
      obtain ⟨γ, c, k, own, r, hk, hx, rfl⟩ := step_go hs
      obtain ⟨hown, hmay⟩ := ht.may hk
      rw [meets_go hk, ← hown]
      exact exec c x g i s.state r ht.inv hmay (hown ▸ hx) hP
    | drop i =>
      obtain ⟨γ, c, k, own, -, -, rfl⟩ := step_drop hs
      exact iff_of_true trivial (drop own s.state hP)
    | env e =>
      obtain ⟨st, he, rfl⟩ := Option.map_eq_some_iff.mp hs
      exact iff_of_true trivial (env e s.state st he hP)
  rw [runAll_iff_prefixes _ hstep hrun ⟨ht, hP⟩]
  refine forall₄_congr fun bs u _ hu => and_iff_right ?_
  exact h.run hu (runAll_meets s bs) ht

end Tracked

end Crew

end Noa.Framework
