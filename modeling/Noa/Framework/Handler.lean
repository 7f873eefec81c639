import Noa.Framework.Loop

namespace Noa.Framework

namespace Program

variable {Cmd Cmd' : Type → Type} {α β σ : Type}

/-- Every command replaced by the program that stands for it. -/
def handle (h : {γ : Type} → Cmd γ → Program Cmd' γ) : Program Cmd α → Program Cmd' α
  | .ret a => .ret a
  | .call c k => h c >>= fun b => (k b).handle h

variable {h : {γ : Type} → Cmd γ → Program Cmd' γ}

@[simp] theorem handle_call (c : Cmd β) (k : β → Program Cmd α) :
    (Program.call c k).handle h = h c >>= fun b => (k b).handle h := rfl

@[simp] theorem handle_bind (p : Program Cmd β) (f : β → Program Cmd α) :
    (p >>= f).handle h = p.handle h >>= fun b => (f b).handle h := by
  induction p with
  | ret b => rfl
  | call c k ih =>
    simp only [call_bind, handle_call, bind_assoc]
    congr 1
    exact funext ih

/-- The same program over more commands. -/
def embed (inj : {γ : Type} → Cmd γ → Cmd' γ) : Program Cmd α → Program Cmd' α :=
  handle fun c => lift (inj c)

variable {inj : {γ : Type} → Cmd γ → Cmd' γ}

@[simp] theorem embed_call (c : Cmd β) (k : β → Program Cmd α) :
    (Program.call c k).embed inj = .call (inj c) fun b => (k b).embed inj := rfl

theorem handle_embed {back : {γ : Type} → Cmd' γ → Program Cmd γ}
    (hback : ∀ {γ : Type} (c : Cmd γ), back (inj c) = lift c) (p : Program Cmd α) :
    (p.embed inj).handle back = p := by
  induction p with
  | ret a => rfl
  | call c k ih =>
    rw [embed_call, handle_call, hback, lift_bind]
    congr 1
    exact funext ih

/-- Where the program that stands for a command goes as the command does, from the states of one
discipline to those of another, handling keeps a program within the other one. -/
theorem Ensures.handle {τ : Type} {D : Discipline Cmd σ} {D' : Discipline Cmd' τ} {f : σ → τ}
    {Q : α → σ → Prop} {Q' : α → τ → Prop} {p : Program Cmd α} {st : σ}
    (hp : p.Ensures D Q st)
    (hcmd : ∀ {γ : Type} (c : Cmd γ) st, D.may st c →
      (h c).Ensures D' (fun b st' => st' = f (D.next st c b)) (f st))
    (hQ : ∀ a st, Q a st → Q' a (f st)) : (p.handle h).Ensures D' Q' (f st) := by
  induction p generalizing st with
  | ret a => exact hQ a st hp
  | call c k ih =>
    refine (hcmd c st hp.1).bind ?_
    rintro b _ rfl
    exact ih b (hp.2 b)

end Program

/-- A discipline seen by the programs over fewer commands. -/
def Discipline.comap {Cmd Cmd' : Type → Type} {σ : Type} (inj : {γ : Type} → Cmd γ → Cmd' γ)
    (D : Discipline Cmd' σ) : Discipline Cmd σ where
  may := fun st c => D.may st (inj c)
  next := fun st c b => D.next st (inj c) b
  done := D.done

/-- A discipline of some commands among others, which are free. -/
def Discipline.left {Cmd Cmd' : Type → Type} {σ : Type} (D : Discipline Cmd σ) :
    Discipline (fun β => Cmd β ⊕ Cmd' β) σ where
  may := fun st c =>
    match c with
    | .inl c => D.may st c
    | .inr _ => True
  next := fun st c =>
    match c with
    | .inl c => D.next st c
    | .inr _ => fun _ => st
  done := D.done

theorem Program.Ensures.embed {Cmd Cmd' : Type → Type} {σ α : Type}
    {inj : {γ : Type} → Cmd γ → Cmd' γ} {D : Discipline Cmd' σ} {Q : α → σ → Prop}
    {p : Program Cmd α} {st : σ} (h : p.Ensures (D.comap inj) Q st) :
    (p.embed inj).Ensures D Q st := by
  induction p generalizing st with
  | ret a => exact h
  | call c k ih => exact ⟨h.1, fun b => ih b (h.2 b)⟩

section Ghost

variable {Cmd : Type → Type} {S E X α σ : Type} {R : Runtime Cmd S E X} {D : Discipline Cmd σ}
  {Q : α → σ → Prop} {inv : S → Prop} (ghost : S → σ)

/-- A program that keeps a discipline keeps what every command the discipline allows keeps, where the
state of the discipline is a part of the state that the environment does not touch. -/
theorem Guarded.of_ensures (henv : ∀ e s s', R.env e s = some s' → ghost s' = ghost s)
    (hexec : ∀ {γ : Type} (c : Cmd γ) x s r, R.exec c x s = some r →
      ghost r.2 = D.next (ghost s) c r.1)
    (hstable : R.Stable inv)
    (hinv : ∀ {γ : Type} (c : Cmd γ) x s r, inv s → D.may (ghost s) c → R.exec c x s = some r →
      inv r.2)
    {p : Program Cmd α} {s : S} (hs : inv s) (h : p.Ensures D Q (ghost s)) :
    Guarded R inv (fun a st => inv st ∧ Q a (ghost st)) p s := by
  induction p generalizing s with
  | ret a => exact ⟨hs, h⟩
  | call c k ih =>
    have hghost : R.Stable fun s' => ghost s' = ghost s := fun e s₁ s₂ he hs₁ =>
      (henv e s₁ s₂ he).trans hs₁
    refine Guarded.call (hstable.and hghost) ⟨hs, rfl⟩ fun s₁ hs₁ x r hx => ?_
    have hr := hinv c x s₁ r hs₁.1 (hs₁.2 ▸ h.1) hx
    refine ⟨hr, ih r.1 hr ?_⟩
    rw [hexec c x s₁ r hx, hs₁.2]
    exact h.2 r.1

end Ghost

end Noa.Framework
