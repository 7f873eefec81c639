import Mathlib
import Noa.Framework.Machine

namespace Noa.Framework

/-- A program as the tree of the commands it issues: each answer selects what follows. -/
inductive Program (Cmd : Type → Type) (α : Type) : Type 1
  | ret (a : α) : Program Cmd α
  | call {β : Type} (c : Cmd β) (k : β → Program Cmd α) : Program Cmd α

namespace Program

variable {Cmd : Type → Type} {α β : Type}

def bind : Program Cmd α → (α → Program Cmd β) → Program Cmd β
  | .ret a, f => f a
  | .call c k, f => .call c fun b => (k b).bind f

/-- The program of one command. -/
def lift (c : Cmd α) : Program Cmd α := .call c .ret

instance : Monad (Program Cmd) where
  pure := .ret
  bind := bind

@[simp] theorem pure_eq (a : α) : (pure a : Program Cmd α) = .ret a := rfl

@[simp] theorem ret_bind (a : α) (f : α → Program Cmd β) :
    (Program.ret a : Program Cmd α) >>= f = f a := rfl

@[simp] theorem call_bind {γ : Type} (c : Cmd γ) (k : γ → Program Cmd α) (f : α → Program Cmd β) :
    (Program.call c k : Program Cmd α) >>= f = .call c fun b => k b >>= f := rfl

@[simp] theorem lift_bind (c : Cmd α) (f : α → Program Cmd β) : lift c >>= f = .call c f := rfl

theorem bind_assoc {γ : Type} (p : Program Cmd α) (f : α → Program Cmd β)
    (g : β → Program Cmd γ) : p >>= f >>= g = p >>= fun a => f a >>= g := by
  induction p with
  | ret a => rfl
  | call c k ih =>
    simp only [call_bind]
    congr 1
    exact funext ih

/-- The `?` of a fallible program. -/
def andThen {ε : Type} (p : Program Cmd (Except ε α)) (f : α → Program Cmd (Except ε β)) :
    Program Cmd (Except ε β) :=
  p >>= fun
    | .ok a => f a
    | .error e => .ret (.error e)

end Program

/-- A discipline of commands: which ones a state allows, where their answers lead, and in which
states a program may return. -/
structure Discipline (Cmd : Type → Type) (σ : Type) where
  may : {β : Type} → σ → Cmd β → Prop
  next : {β : Type} → σ → Cmd β → β → σ
  done : σ → Prop := fun _ => True

/-- Two disciplines kept side by side. -/
def Discipline.prod {Cmd : Type → Type} {σ τ : Type} (D : Discipline Cmd σ) (E : Discipline Cmd τ) :
    Discipline Cmd (σ × τ) where
  may := fun st c => D.may st.1 c ∧ E.may st.2 c
  next := fun st c b => (D.next st.1 c b, E.next st.2 c b)
  done := fun st => D.done st.1 ∧ E.done st.2

namespace Program

variable {Cmd : Type → Type} {σ α β : Type} {D : Discipline Cmd σ}

/-- Every command the program issues is allowed, whatever the answers, and it returns with `Q`. -/
def Ensures (D : Discipline Cmd σ) (Q : α → σ → Prop) : σ → Program Cmd α → Prop
  | st, .ret a => Q a st
  | st, .call c k => D.may st c ∧ ∀ b, Ensures D Q (D.next st c b) (k b)

abbrev Obeys (D : Discipline Cmd σ) : σ → Program Cmd α → Prop := Ensures D fun _ => D.done

variable {Q Q' : α → σ → Prop}

@[simp] theorem ensures_ret {st : σ} {a : α} : Ensures D Q st (.ret a) ↔ Q a st := Iff.rfl

@[simp] theorem ensures_call {st : σ} {c : Cmd β} {k : β → Program Cmd α} :
    Ensures D Q st (.call c k) ↔ D.may st c ∧ ∀ b, Ensures D Q (D.next st c b) (k b) := Iff.rfl

theorem Ensures.call {st : σ} {c : Cmd β} {k : β → Program Cmd α} (hc : D.may st c)
    (hk : ∀ b, Ensures D Q (D.next st c b) (k b)) : Ensures D Q st (.call c k) := ⟨hc, hk⟩

theorem ensures_bind {p : Program Cmd β} {f : β → Program Cmd α} {st : σ} :
    Ensures D Q st (p >>= f) ↔ Ensures D (fun b st' => Ensures D Q st' (f b)) st p := by
  induction p generalizing st with
  | ret b => exact Iff.rfl
  | call c k ih => exact and_congr_right fun _ => forall_congr' fun b => ih b

theorem Ensures.mono {p : Program Cmd α} {st : σ} (h : Ensures D Q st p)
    (hQ : ∀ a st', Q a st' → Q' a st') : Ensures D Q' st p := by
  induction p generalizing st with
  | ret a => exact hQ a st h
  | call c k ih => exact ⟨h.1, fun b => ih b (h.2 b)⟩

theorem Ensures.bind {p : Program Cmd β} {f : β → Program Cmd α} {st : σ} {R : β → σ → Prop}
    (hp : Ensures D R st p) (hf : ∀ b st', R b st' → Ensures D Q st' (f b)) :
    Ensures D Q st (p >>= f) :=
  ensures_bind.mpr (hp.mono hf)

/-- The program of a `?`, with what holds after its first part when that does not fail. -/
theorem Ensures.andThen {ε : Type} {p : Program Cmd (Except ε β)} {f : β → Program Cmd (Except ε α)}
    {st : σ} {R : β → σ → Prop} (hp : Ensures D (fun r st' => ∀ b, r = .ok b → R b st') st p)
    (hf : ∀ b st', R b st' → Ensures D (fun r st'' => ∀ a, r = .ok a → Q a st'') st' (f b)) :
    Ensures D (fun r st'' => ∀ a, r = .ok a → Q a st'') st (p.andThen f) := by
  refine hp.bind fun r st' hr => ?_
  cases r with
  | ok b => exact hf b st' (hr b rfl)
  | error e => rintro _ ⟨⟩

theorem Obeys.bind {p : Program Cmd β} {f : β → Program Cmd α} {st : σ} (hp : Obeys D st p)
    (hf : ∀ b st', Obeys D st' (f b)) : Obeys D st (p >>= f) :=
  Ensures.bind hp fun b st' _ => hf b st'

/-- The program obeys from every state, as one does whose commands are always allowed. -/
def Anywhere (D : Discipline Cmd σ) (p : Program Cmd α) : Prop := ∀ st, Obeys D st p

theorem Anywhere.bind {p : Program Cmd β} {f : β → Program Cmd α} (hp : Anywhere D p)
    (hf : ∀ b, Anywhere D (f b)) : Anywhere D (p >>= f) :=
  fun st => (hp st).bind fun b st' => hf b st'

theorem Anywhere.andThen {ε : Type} {p : Program Cmd (Except ε β)}
    {f : β → Program Cmd (Except ε α)} (hp : Anywhere D p) (hf : ∀ b, Anywhere D (f b))
    (hdone : ∀ st, D.done st) : Anywhere D (p.andThen f) := by
  apply hp.bind
  intro r
  cases r with
  | ok b => exact hf b
  | error e => exact hdone

theorem Obeys.prod {τ : Type} {E : Discipline Cmd τ} {p : Program Cmd α} {st : σ} {st' : τ}
    (hd : Obeys D st p) (he : Obeys E st' p) : Obeys (D.prod E) (st, st') p := by
  induction p generalizing st st' with
  | ret a => exact ⟨hd, he⟩
  | call c k ih => exact ⟨⟨hd.1, he.1⟩, fun b => ih b (hd.2 b) (he.2 b)⟩

theorem Obeys.of_prod {τ : Type} {E : Discipline Cmd τ} {p : Program Cmd α} {st : σ × τ}
    (h : Obeys (D.prod E) st p) : Obeys D st.1 p ∧ Obeys E st.2 p := by
  induction p generalizing st with
  | ret a => exact h
  | call c k ih => exact ⟨⟨h.1.1, fun b => (ih b (h.2 b)).1⟩, h.1.2, fun b => (ih b (h.2 b)).2⟩

/-- Every command the program can issue meets `P`. -/
def Issues (P : (γ : Type) → Cmd γ → Prop) : Program Cmd α → Prop
  | .ret _ => True
  | .call c k => P _ c ∧ ∀ b, Issues P (k b)

@[simp] theorem issues_ret {P : (γ : Type) → Cmd γ → Prop} {a : α} :
    Issues P (.ret a : Program Cmd α) := trivial

@[simp] theorem issues_call {P : (γ : Type) → Cmd γ → Prop} {c : Cmd β}
    {k : β → Program Cmd α} : Issues P (.call c k) ↔ P _ c ∧ ∀ b, Issues P (k b) := Iff.rfl

theorem Issues.call {P : (γ : Type) → Cmd γ → Prop} {c : Cmd β} {k : β → Program Cmd α}
    (hc : P _ c) (hk : ∀ b, Issues P (k b)) : Issues P (.call c k) := ⟨hc, hk⟩

theorem Issues.bind {P : (γ : Type) → Cmd γ → Prop} {p : Program Cmd β}
    {f : β → Program Cmd α} (hp : Issues P p) (hf : ∀ b, Issues P (f b)) :
    Issues P (p >>= f) := by
  induction p with
  | ret b => exact hf b
  | call c k ih => exact ⟨hp.1, fun b => ih b (hp.2 b)⟩

theorem Issues.mono {P P' : (γ : Type) → Cmd γ → Prop} {p : Program Cmd α} (hp : Issues P p)
    (h : ∀ (γ : Type) (c : Cmd γ), P γ c → P' γ c) : Issues P' p := by
  induction p with
  | ret a => trivial
  | call c k ih => exact ⟨h _ c hp.1, fun b => ih b (hp.2 b)⟩

theorem Issues.ensures {P : (γ : Type) → Cmd γ → Prop} {p : Program Cmd α}
    (hP : ∀ {γ : Type} (c : Cmd γ), P γ c → ∀ st, D.may st c ∧ ∀ b, D.next st c b = st)
    (hp : Issues P p) (st : σ) : Ensures D (fun _ st' => st' = st) st p := by
  induction p with
  | ret a => rfl
  | call c k ih =>
    refine ⟨(hP c hp.1 st).1, fun b => ?_⟩
    rw [(hP c hp.1 st).2 b]
    exact ih b (hp.2 b)

end Program

/-- How commands act on a shared state. The environment (`env`) acts between any two of them,
`exec` resolves a command under a choice of outcome, and a program may be dropped while it waits
for a `droppable` one. -/
structure Runtime (Cmd : Type → Type) (S E X : Type) where
  exec : {β : Type} → Cmd β → X → S → Option (β × S)
  env : E → S → Option S
  droppable : {β : Type} → Cmd β → Bool

inductive SoloAct (E X : Type) where
  | env (e : E)
  | go (x : X)
  | drop

/-- One program and the state it shares with its environment. -/
structure Solo (Cmd : Type → Type) (S : Type) (α : Type) where
  prog : Program Cmd α
  state : S
  dropped : Bool

namespace Solo

variable {Cmd : Type → Type} {S E X α β : Type} (R : Runtime Cmd S E X)

/-- A step of a program that has neither returned nor been dropped. -/
def step (s : Solo Cmd S α) (act : SoloAct E X) : Option (Solo Cmd S α) :=
  match s.dropped, s.prog with
  | false, .call c k =>
    match act with
    | .env e => (R.env e s.state).map fun st => { s with state := st }
    | .go x => (R.exec c x s.state).map fun r => ⟨k r.1, r.2, false⟩
    | .drop => if R.droppable c then some { s with dropped := true } else none
  | _, _ => none

/-- A condition on the commands resolved and on being dropped, along a run. -/
def Meets (good : {γ : Type} → Cmd γ → S → SoloAct E X → Prop) (s : Solo Cmd S α)
    (act : SoloAct E X) : Prop :=
  match act, s.prog with
  | .env _, _ => True
  | _, .ret _ => True
  | act, .call c _ => good c s.state act

end Solo

section WP

variable {Cmd : Type → Type} {S E X α β : Type} (R : Runtime Cmd S E X)
  (good : {γ : Type} → Cmd γ → S → SoloAct E X → Prop)

/-- What any number of environment steps can lead to. -/
def Runtime.Env : S → S → Prop := Relation.ReflTransGen fun s s' => ∃ e, R.env e s = some s'

/-- Whatever the environment does, a program whose steps are all good returns with `post`, and
the first step that is not good makes it return at once with `bad`. -/
def WP (post bad : α → S → Prop) : Program Cmd α → S → Prop
  | .ret a, s => post a s
  | .call c k, s => ∀ s₁, R.Env s s₁ → ∀ x r, R.exec c x s₁ = some r →
      (good c s₁ (.go x) → WP post bad (k r.1) r.2) ∧
      (¬ good c s₁ (.go x) → ∃ a, k r.1 = .ret a ∧ bad a r.2)

/-- Kept by whatever the environment does. -/
def Runtime.Stable (A : S → Prop) : Prop := ∀ e s s', R.env e s = some s' → A s → A s'

variable {R good} {post bad : α → S → Prop}

theorem Runtime.Stable.and {A B : S → Prop} (hA : R.Stable A) (hB : R.Stable B) :
    R.Stable fun s => A s ∧ B s :=
  fun e s s' he h => ⟨hA e s s' he h.1, hB e s s' he h.2⟩

/-- The rule for a command: from a stable assertion, step to what its answers establish. -/
theorem WP.call {β : Type} {c : Cmd β} {k : β → Program Cmd α} {s : S} {A : S → Prop}
    (hA : R.Stable A) (hs : A s)
    (h : ∀ s₁, A s₁ → ∀ x r, R.exec c x s₁ = some r →
      (good c s₁ (.go x) → WP R good post bad (k r.1) r.2) ∧
      (¬ good c s₁ (.go x) → ∃ a, k r.1 = .ret a ∧ bad a r.2)) :
    WP R good post bad (.call c k) s := by
  intro s₁ he
  refine h s₁ ?_
  induction he with
  | refl => exact hs
  | tail _ hstep ih =>
    obtain ⟨e, hstep⟩ := hstep
    exact hA e _ _ hstep ih

theorem WP.env {β : Type} {c : Cmd β} {k : β → Program Cmd α} {s s' : S}
    (h : WP R good post bad (.call c k) s) (he : R.Env s s') :
    WP R good post bad (.call c k) s' :=
  fun s₁ hs₁ => h s₁ (he.trans hs₁)

/-- Programs in sequence; a step that is not good must still end the whole. -/
theorem WP.bind {f : β → Program Cmd α} {p : Program Cmd β} {s : S} {bad' : β → S → Prop}
    (h : WP R good (fun b st => WP R good post bad (f b) st) bad' p s)
    (hbad : ∀ b st, bad' b st → ∃ a, f b = .ret a ∧ bad a st) :
    WP R good post bad (p >>= f) s := by
  induction p generalizing s with
  | ret b => exact h
  | call c k ih =>
    intro s₁ he x r hx
    obtain ⟨hg, hb⟩ := h s₁ he x r hx
    refine ⟨fun hgood => ih r.1 (hg hgood), fun hngood => ?_⟩
    obtain ⟨b, hk, hb'⟩ := hb hngood
    obtain ⟨a, hf, ha⟩ := hbad b r.2 hb'
    refine ⟨a, ?_, ha⟩
    change k r.1 >>= f = _
    rw [hk, Program.ret_bind, hf]

theorem WP.mono {post' : α → S → Prop} {p : Program Cmd α} {s : S}
    (h : WP R good post bad p s) (hp : ∀ a st, post a st → post' a st) :
    WP R good post' bad p s := by
  induction p generalizing s with
  | ret a => exact hp a s h
  | call c k ih =>
    intro s₁ he x r hx
    obtain ⟨hg, hb⟩ := h s₁ he x r hx
    exact ⟨fun hgood => ih r.1 (hg hgood), hb⟩

/-- What a run of a verified program comes to. -/
structure Solo.Ends (R : Runtime Cmd S E X)
    (good : {γ : Type} → Cmd γ → S → SoloAct E X → Prop) (post bad : α → S → Prop)
    (s : Solo Cmd S α) (as : List (SoloAct E X)) (t : Solo Cmd S α) : Prop where
  returned : t.dropped = false → RunAll (Solo.step R) (Solo.Meets good) s as →
    WP R good post bad t.prog t.state
  failed : t.dropped = false → ¬ RunAll (Solo.step R) (Solo.Meets good) s as →
    ∃ a, t.prog = .ret a ∧ bad a t.state
  dropped : t.dropped = true → ∃ (γ : Type) (c : Cmd γ),
    RunAll (Solo.step R) (Solo.Meets good) s as ↔ good c t.state .drop

theorem Solo.run_ended {s t : Solo Cmd S α} {as : List (SoloAct E X)}
    (hrun : run (Solo.step R) s as = some t) (h : s.dropped = true ∨ ∃ a, s.prog = .ret a) :
    as = [] ∧ s = t := by
  cases as with
  | nil =>
    cases hrun
    exact ⟨rfl, rfl⟩
  | cons act as =>
    obtain ⟨s', hs', -⟩ := run_cons_eq_some.mp hrun
    unfold Solo.step at hs'
    split at hs'
    · next hd hp =>
      rcases h with h | ⟨a, h⟩
      · rw [hd] at h
        cases h
      · rw [hp] at h
        cases h
    · cases hs'

theorem Solo.run_wp {s t : Solo Cmd S α} {as : List (SoloAct E X)}
    (hrun : run (Solo.step R) s as = some t) (hd : s.dropped = false)
    (hwp : WP R good post bad s.prog s.state) : Solo.Ends R good post bad s as t := by
  induction as generalizing s with
  | nil =>
    cases hrun
    refine ⟨fun _ _ => hwp, fun _ h => absurd trivial h, fun h => ?_⟩
    rw [hd] at h
    cases h
  | cons act as ih =>
    obtain ⟨s', hs', hrest⟩ := run_cons_eq_some.mp hrun
    have hall (hm : Solo.Meets good s act) : RunAll (Solo.step R) (Solo.Meets good) s (act :: as) ↔
        RunAll (Solo.step R) (Solo.Meets good) s' as := by
      refine ⟨fun h => h.2 s' hs', fun h => ⟨hm, fun u hu => ?_⟩⟩
      rw [hs'] at hu
      cases hu
      exact h
    have hlift (hm : Solo.Meets good s act) (he : Solo.Ends R good post bad s' as t) :
        Solo.Ends R good post bad s (act :: as) t := by
      refine ⟨fun h => ?_, fun h => ?_, fun h => ?_⟩ <;> rw [hall hm]
      · exact he.returned h
      · exact he.failed h
      · exact he.dropped h
    obtain ⟨prog, st, dropped⟩ := s
    cases hd
    cases prog with
    | ret a => cases hs'
    | call c k =>
      cases act with
      | env e =>
        obtain ⟨st', he, rfl⟩ := Option.map_eq_some_iff.mp hs'
        exact hlift trivial (ih hrest rfl (hwp.env (.single ⟨e, he⟩)))
      | go x =>
        obtain ⟨r, hx, rfl⟩ := Option.map_eq_some_iff.mp hs'
        obtain ⟨hg, hb⟩ := hwp st .refl x r hx
        by_cases hgood : good c st (.go x)
        · exact hlift hgood (ih hrest rfl (hg hgood))
        · obtain ⟨a, hk, ha⟩ := hb hgood
          obtain ⟨rfl, rfl⟩ := Solo.run_ended hrest (.inr ⟨a, hk⟩)
          refine ⟨fun _ h => absurd h.1 hgood, fun _ _ => ⟨a, hk, ha⟩, fun h => ?_⟩
          cases h
      | drop =>
        simp only [Solo.step] at hs'
        split_ifs at hs'
        cases hs'
        obtain ⟨rfl, rfl⟩ := Solo.run_ended hrest (.inl rfl)
        refine ⟨fun h => (by cases h), fun h => (by cases h), fun _ => ⟨_, c, ?_⟩⟩
        exact ⟨fun h => h.1, fun h => ⟨h, fun _ _ => trivial⟩⟩

theorem Solo.not_dropped {s t : Solo Cmd S α} {as : List (SoloAct E X)}
    (hR : ∀ {γ : Type} (c : Cmd γ), R.droppable c = false)
    (hrun : run (Solo.step R) s as = some t) (hs : s.dropped = false) : t.dropped = false := by
  refine run_invariant (fun u => u.dropped = false) (fun u act u' hu hd => ?_) hrun hs
  unfold Solo.step at hu
  split at hu
  · next c k hd' hp =>
    cases act with
    | env e =>
      obtain ⟨_, -, rfl⟩ := Option.map_eq_some_iff.mp hu
      exact hd
    | go x =>
      obtain ⟨_, -, rfl⟩ := Option.map_eq_some_iff.mp hu
      rfl
    | drop => simp [hR] at hu
  · cases hu

/-- A program no step of which can go wrong returns with its postcondition. -/
theorem Solo.run_post {s t : Solo Cmd S α} {as : List (SoloAct E X)} {a : α}
    (hR : ∀ {γ : Type} (c : Cmd γ), R.droppable c = false)
    (hrun : run (Solo.step R) s as = some t) (hs : s.dropped = false)
    (hwp : WP R good post (fun _ _ => False) s.prog s.state) (ht : t.prog = .ret a) :
    post a t.state := by
  have hends := Solo.run_wp hrun hs hwp
  have hd := Solo.not_dropped hR hrun hs
  by_cases hall : RunAll (Solo.step R) (Solo.Meets good) s as
  · have hpost := hends.returned hd hall
    rwa [ht] at hpost
  · obtain ⟨_, -, h⟩ := hends.failed hd hall
    exact h.elim

end WP

/-- Any number of programs over one shared state. -/
structure Pool (Cmd : Type → Type) (S : Type) where
  tasks : List (Program Cmd Unit)
  state : S

inductive PoolAct (O E X : Type) where
  | spawn (o : O)
  | go (i : Nat) (x : X)
  | drop (i : Nat)
  | env (e : E)

namespace Pool

variable {Cmd : Type → Type} {S O E X : Type} (R : Runtime Cmd S E X)
  (progOf : O → Program Cmd Unit)

/-- One command of one task, the start or the abandonment of a task, or an environment step. -/
def step (s : Pool Cmd S) : PoolAct O E X → Option (Pool Cmd S)
  | .spawn o => some { s with tasks := s.tasks ++ [progOf o] }
  | .go i x =>
    match s.tasks[i]? with
    | some (.call c k) => (R.exec c x s.state).map fun r => ⟨s.tasks.set i (k r.1), r.2⟩
    | _ => none
  | .drop i =>
    match s.tasks[i]? with
    | some (.call c _) => if R.droppable c then some { s with tasks := s.tasks.set i (.ret ()) } else none
    | _ => none
  | .env e => (R.env e s.state).map fun st => { s with state := st }

/-- A condition on the commands resolved along a run. -/
def Meets (good : {γ : Type} → Cmd γ → S → Prop) (s : Pool Cmd S) : PoolAct O E X → Prop
  | .go i _ =>
    match s.tasks[i]? with
    | some (.call c _) => good c s.state
    | _ => True
  | _ => True

/-- What is known of the shared state and of each task, kept by every resolved command. -/
structure Keeps (good : {γ : Type} → Cmd γ → S → Prop) (inv : S → Prop)
    (task : S → Program Cmd Unit → Prop) : Prop where
  spawn : ∀ s o, inv s → task s (progOf o)
  ret : ∀ s, task s (.ret ())
  exec : ∀ {γ : Type} (c : Cmd γ) k x s r, inv s → task s (.call c k) → good c s →
    R.exec c x s = some r → inv r.2 ∧ task r.2 (k r.1) ∧ ∀ p, task s p → task r.2 p
  env : ∀ e s s', R.env e s = some s' → inv s → inv s' ∧ ∀ p, task s p → task s' p

variable {R progOf} {good : {γ : Type} → Cmd γ → S → Prop} {inv : S → Prop}
  {task : S → Program Cmd Unit → Prop}

theorem step_go {s s' : Pool Cmd S} {i : Nat} {x : X}
    (h : step R progOf s (.go i x) = some s') :
    ∃ (γ : Type) (c : Cmd γ) (k : γ → Program Cmd Unit) (r : γ × S),
      s.tasks[i]? = some (.call c k) ∧ R.exec c x s.state = some r ∧
        s' = ⟨s.tasks.set i (k r.1), r.2⟩ := by
  simp only [step] at h
  split at h
  · next γ c k hk =>
    obtain ⟨r, hx, hr⟩ := Option.map_eq_some_iff.mp h
    exact ⟨γ, c, k, r, hk, hx, hr.symm⟩
  · cases h

theorem step_drop {s s' : Pool Cmd S} {i : Nat} (h : step R progOf s (.drop i) = some s') :
    s' = { s with tasks := s.tasks.set i (.ret ()) } := by
  simp only [step] at h
  split at h
  · split_ifs at h
    exact (Option.some.inj h).symm
  · cases h

theorem meets_go {s : Pool Cmd S} {i : Nat} {x : X} {γ : Type} {c : Cmd γ}
    {k : γ → Program Cmd Unit} (hk : s.tasks[i]? = some (.call c k)) :
    Meets (O := O) (E := E) good s (.go i x) ↔ good c s.state := by
  rw [Meets, hk]

theorem runAll_meets (s : Pool Cmd S) (as : List (PoolAct O E X)) :
    RunAll (step R progOf) (Meets fun _ _ => True) s as := by
  refine (runAll_congr (fun _ => True) (d := fun _ _ => True) (fun _ _ _ _ _ => trivial)
    (fun s a _ => iff_of_true ?_ trivial) trivial as).mpr (runAll_true s as)
  cases a with
  | go i x =>
    simp only [Meets]
    split <;> trivial
  | _ => trivial

theorem Keeps.step (h : Keeps R progOf good inv task) {s s' : Pool Cmd S} {a : PoolAct O E X}
    (hs : step R progOf s a = some s') (hgood : Meets good s a)
    (hi : inv s.state ∧ ∀ p ∈ s.tasks, task s.state p) :
    inv s'.state ∧ ∀ p ∈ s'.tasks, task s'.state p := by
  obtain ⟨hinv, htask⟩ := hi
  cases a with
  | spawn o =>
    cases hs
    refine ⟨hinv, fun p hp => ?_⟩
    rcases List.mem_append.mp hp with hp | hp
    · exact htask p hp
    · rw [List.mem_singleton.mp hp]
      exact h.spawn s.state o hinv
  | go i x =>
    obtain ⟨γ, c, k, r, hget, hx, rfl⟩ := step_go hs
    have hcall : task s.state (.call c k) := htask _ (List.mem_of_getElem? hget)
    obtain ⟨hinv', hk, hkeep⟩ := h.exec c k x s.state r hinv hcall ((meets_go hget).mp hgood) hx
    refine ⟨hinv', fun p hp => ?_⟩
    rcases List.mem_or_eq_of_mem_set hp with hp | rfl
    · exact hkeep p (htask p hp)
    · exact hk
  | drop i =>
    obtain rfl := step_drop hs
    refine ⟨hinv, fun p hp => ?_⟩
    rcases List.mem_or_eq_of_mem_set hp with hp | rfl
    · exact htask p hp
    · exact h.ret s.state
  | env e =>
    obtain ⟨st, he, rfl⟩ := Option.map_eq_some_iff.mp hs
    obtain ⟨hinv', hkeep⟩ := h.env e s.state st he hinv
    exact ⟨hinv', fun p hp => hkeep p (htask p hp)⟩

theorem Keeps.run (h : Keeps R progOf good inv task) {s t : Pool Cmd S} {as : List (PoolAct O E X)}
    (hrun : run (Pool.step R progOf) s as = some t)
    (hgood : RunAll (Pool.step R progOf) (Meets good) s as)
    (hi : inv s.state ∧ ∀ p ∈ s.tasks, task s.state p) :
    inv t.state ∧ ∀ p ∈ t.tasks, task t.state p :=
  run_invariant_when (fun u : Pool Cmd S => inv u.state ∧ ∀ p ∈ u.tasks, task u.state p)
    (fun _ _ _ hs hg hi => h.step hs hg hi) hrun hgood hi

end Pool

end Noa.Framework
