import Noa.Framework.Program

namespace Noa.Framework

section Keeping

variable {Cmd : Type → Type} {S E X α β : Type} (R : Runtime Cmd S E X) (inv : S → Prop)

/-- The command leads to a state that has the invariant. -/
def Runtime.Keeping {γ : Type} (c : Cmd γ) (s : S) : SoloAct E X → Prop
  | .go x => ∀ r, R.exec c x s = some r → inv r.2
  | _ => True

/-- Whatever the environment does, every command of the program keeps the invariant, and the program
returns with `post`. -/
abbrev Guarded (post : α → S → Prop) : Program Cmd α → S → Prop :=
  WP R (R.Keeping inv) post fun _ _ => False

variable {R inv} {post : α → S → Prop}

/-- The rule for a command: what holds until it is resolved has to be stable. -/
theorem Guarded.call {c : Cmd β} {k : β → Program Cmd α} {s : S} {A : S → Prop}
    (hA : R.Stable A) (hs : A s)
    (h : ∀ s₁, A s₁ → ∀ x r, R.exec c x s₁ = some r → inv r.2 ∧ Guarded R inv post (k r.1) r.2) :
    Guarded R inv post (.call c k) s := by
  refine WP.call hA hs fun s₁ hs₁ x r hx => ⟨fun _ => (h s₁ hs₁ x r hx).2, fun hbad => ?_⟩
  exact absurd (fun r' hr' => (h s₁ hs₁ x r' hr').1) hbad

theorem Guarded.bind {f : β → Program Cmd α} {p : Program Cmd β} {s : S}
    (h : Guarded R inv (fun b st => Guarded R inv post (f b) st) p s) :
    Guarded R inv post (p >>= f) s :=
  WP.bind h fun _ _ hfalse => hfalse.elim

theorem Guarded.of_issues {P : (γ : Type) → Cmd γ → Prop} {A : S → Prop} (hA : R.Stable A)
    (hinv : ∀ s, A s → inv s)
    (hP : ∀ {γ : Type} (c : Cmd γ), P γ c → ∀ x s r, A s → R.exec c x s = some r → A r.2)
    {p : Program Cmd α} {s : S} (hp : p.Issues P) (hs : A s) :
    Guarded R inv (fun _ => A) p s := by
  induction p generalizing s with
  | ret a => exact hs
  | call c k ih =>
    refine Guarded.call hA hs fun s₁ hs₁ x r hx => ?_
    have hr := hP c hp.1 x s₁ r hs₁ hx
    exact ⟨hinv r.2 hr, ih r.1 (hp.2 r.1) hr⟩

theorem Guarded.step {c : Cmd β} {k : β → Program Cmd α} {s : S} {x : X} {r : β × S}
    (h : Guarded R inv post (.call c k) s) (hx : R.exec c x s = some r) :
    inv r.2 ∧ Guarded R inv post (k r.1) r.2 := by
  obtain ⟨hnext, hbad⟩ := h s .refl x r hx
  by_cases hkeep : R.Keeping inv c s (.go x)
  · exact ⟨hkeep r hx, hnext hkeep⟩
  · obtain ⟨_, -, hfalse⟩ := hbad hkeep
    exact hfalse.elim

theorem Solo.step_guarded (henv : R.Stable inv) {s t : Solo Cmd S α} {a : SoloAct E X}
    (hstep : Solo.step R s a = some t)
    (h : inv s.state ∧ Guarded R inv post s.prog s.state) :
    inv t.state ∧ Guarded R inv post t.prog t.state := by
  obtain ⟨prog, st, dropped⟩ := s
  obtain ⟨hinv, hprog⟩ := h
  unfold Solo.step at hstep
  split at hstep
  · next c k hd hp =>
    dsimp only at hp hprog
    subst hp
    cases a with
    | env e =>
      obtain ⟨st', he, rfl⟩ := Option.map_eq_some_iff.mp hstep
      exact ⟨henv e st st' he hinv, hprog.env (.single ⟨e, he⟩)⟩
    | go x =>
      obtain ⟨r, hx, rfl⟩ := Option.map_eq_some_iff.mp hstep
      exact hprog.step hx
    | drop =>
      dsimp only at hstep
      split_ifs at hstep
      cases hstep
      exact ⟨hinv, hprog⟩
  · cases hstep

/-- In every state of every run the invariant holds, and what is left of the program keeps it. -/
theorem Solo.run_guarded (henv : R.Stable inv) {s t : Solo Cmd S α} {as : List (SoloAct E X)}
    (hrun : run (Solo.step R) s as = some t) (hs : inv s.state)
    (h : Guarded R inv post s.prog s.state) :
    inv t.state ∧ Guarded R inv post t.prog t.state :=
  run_invariant (fun u : Solo Cmd S α => inv u.state ∧ Guarded R inv post u.prog u.state)
    (fun _ _ _ hstep h => Solo.step_guarded henv hstep h) hrun ⟨hs, h⟩

end Keeping

inductive LoopAct (O E X : Type) where
  | start (o : O)
  | go (x : X)
  | env (e : E)

/-- One task that makes passes, one after the other, and what is left of the pass in progress. -/
structure Loop (Cmd : Type → Type) (S : Type) where
  prog : Program Cmd Unit
  state : S

namespace Loop

variable {Cmd : Type → Type} {S O E X : Type} (R : Runtime Cmd S E X)
  (arrives : O → S → Option S) (progOf : O → Program Cmd Unit)

/-- A pass starts once the one before is over and what it is about has arrived; the environment acts
between any two commands. -/
def step (l : Loop Cmd S) : LoopAct O E X → Option (Loop Cmd S)
  | .start o =>
    match l.prog with
    | .ret _ => (arrives o l.state).map fun st => ⟨progOf o, st⟩
    | .call _ _ => none
  | .go x =>
    match l.prog with
    | .ret _ => none
    | .call c k => (R.exec c x l.state).map fun r => ⟨k r.1, r.2⟩
  | .env e => (R.env e l.state).map fun st => { l with state := st }

variable {R arrives progOf} {l l' : Loop Cmd S}

theorem step_start {o : O} (h : step R arrives progOf l (.start o) = some l') :
    ∃ st, arrives o l.state = some st ∧ l' = ⟨progOf o, st⟩ := by
  simp only [step] at h
  split at h
  · obtain ⟨st, harr, rfl⟩ := Option.map_eq_some_iff.mp h
    exact ⟨st, harr, rfl⟩
  · cases h

theorem step_go {x : X} (h : step R arrives progOf l (.go x) = some l') :
    ∃ (γ : Type) (c : Cmd γ) (k : γ → Program Cmd Unit) (r : γ × S),
      l.prog = .call c k ∧ R.exec c x l.state = some r ∧ l' = ⟨k r.1, r.2⟩ := by
  simp only [step] at h
  split at h
  · cases h
  · next γ c k hk =>
    obtain ⟨r, hx, rfl⟩ := Option.map_eq_some_iff.mp h
    exact ⟨γ, c, k, r, hk, hx, rfl⟩

/-- The invariant, and that what is left of the pass keeps it and comes to `rest`. -/
def Resting (R : Runtime Cmd S E X) (inv rest : S → Prop) (l : Loop Cmd S) : Prop :=
  inv l.state ∧ Guarded R inv (fun _ => rest) l.prog l.state

variable {inv rest : S → Prop}

theorem Resting.step (henv : R.Stable inv) (hrest : R.Stable rest)
    (hpass : ∀ o s s', inv s → rest s → arrives o s = some s' →
      inv s' ∧ Guarded R inv (fun _ => rest) (progOf o) s')
    {a : LoopAct O E X} (hs : step R arrives progOf l a = some l') (h : Resting R inv rest l) :
    Resting R inv rest l' := by
  obtain ⟨hinv, hprog⟩ := h
  obtain ⟨prog, state⟩ := l
  cases a with
  | start o =>
    cases prog with
    | ret _ =>
      obtain ⟨st, harr, rfl⟩ := step_start hs
      exact hpass o state st hinv hprog harr
    | call c k => cases hs
  | go x =>
    obtain ⟨γ, c, k, r, hk, hx, rfl⟩ := step_go hs
    cases hk
    exact hprog.step hx
  | env e =>
    obtain ⟨st, he, rfl⟩ := Option.map_eq_some_iff.mp hs
    refine ⟨henv e state st he hinv, ?_⟩
    cases prog with
    | ret a => exact hrest e state st he hprog
    | call c k => exact WP.env hprog (.single ⟨e, he⟩)

/-- What the environment and every pass keep holds in every state of every run; the passes may rely
on what holds between them. -/
theorem run_resting (henv : R.Stable inv) (hrest : R.Stable rest)
    (hpass : ∀ o s s', inv s → rest s → arrives o s = some s' →
      inv s' ∧ Guarded R inv (fun _ => rest) (progOf o) s')
    {st : S} {as : List (LoopAct O E X)} (hst : inv st) (hst' : rest st)
    (hrun : run (step R arrives progOf) ⟨.ret (), st⟩ as = some l) : Resting R inv rest l :=
  run_invariant (Resting R inv rest) (fun _ _ _ hs h => h.step henv hrest hpass hs) hrun
    ⟨hst, hst'⟩

theorem run_inv (henv : R.Stable inv)
    (hpass : ∀ o s s', inv s → arrives o s = some s' →
      inv s' ∧ Guarded R inv (fun _ _ => True) (progOf o) s')
    {st : S} {as : List (LoopAct O E X)} (hst : inv st)
    (hrun : run (step R arrives progOf) ⟨.ret (), st⟩ as = some l) : inv l.state :=
  (run_resting henv (fun _ _ _ _ _ => trivial) (fun o s s' hs _ harr => hpass o s s' hs harr) hst
    trivial hrun).1

end Loop

end Noa.Framework
