import Noa.Framework.Machine

namespace Noa.Framework

variable {S A : Type*} {step : S → A → Option S}

/-- Where every state short of the goal has a step of a kind that lowers a rank, the goal is reached
by steps of that kind. -/
theorem run_reaches {inv goal : S → Prop} {own : A → Prop} (rank : S → Nat)
    (hstep : ∀ s, inv s → ¬goal s → ∃ a s', own a ∧ step s a = some s' ∧ inv s' ∧ rank s' < rank s)
    {s : S} (hs : inv s) : ∃ as t, (∀ a ∈ as, own a) ∧ run step s as = some t ∧ inv t ∧ goal t := by
  induction hn : rank s using Nat.strongRecOn generalizing s with
  | ind n ih =>
    by_cases hg : goal s
    · exact ⟨[], s, by simp, rfl, hs, hg⟩
    · obtain ⟨a, s', ha, hstep', hs', hlt⟩ := hstep s hs hg
      obtain ⟨as, t, has, hrun, ht⟩ := ih (rank s') (hn ▸ hlt) hs' rfl
      exact ⟨a :: as, t, List.forall_mem_cons.mpr ⟨ha, has⟩,
        run_cons_eq_some.mpr ⟨s', hstep', hrun⟩, ht⟩

/-- Where steps of a kind lower a rank and the others do not raise it, a run has no more of them than
the rank it starts from. -/
theorem countRun_le_rank (inv : S → Prop) (rank : S → Nat) (test : S → A → Bool)
    (hstep : ∀ s a s', step s a = some s' → inv s →
      inv s' ∧ (if test s a then 1 else 0) + rank s' ≤ rank s)
    {s t : S} {as : List A} (hrun : run step s as = some t) (hs : inv s) :
    countRun step test s as + rank t ≤ rank s := by
  induction as generalizing s with
  | nil =>
    cases hrun
    exact Nat.le_of_eq (Nat.zero_add _)
  | cons a as ih =>
    obtain ⟨s', ha, hrest⟩ := run_cons_eq_some.mp hrun
    obtain ⟨hs', hle⟩ := hstep s a s' ha hs
    have hrank := ih hrest hs'
    rw [countRun_cons ha]
    omega

/-- However a run goes on from `s`, it takes a bounded number of steps of a kind, and has one of them
to take until it is done. -/
structure Ends (step : S → A → Option S) (own : A → Bool) (done : S → Prop) (s : S) : Prop where
  bounded : ∃ n, ∀ as t, run step s as = some t → countRun step (fun _ => own) s as ≤ n
  enabled : ∀ as t, run step s as = some t → ¬done t → ∃ a t', own a = true ∧ step t a = some t'

/-- Where the steps of a kind lower a rank, the others do not raise it, and there is one of them
short of the end, every run ends. -/
theorem ends_of_rank (inv : S → Prop) (rank : S → Nat) {own : A → Bool} {done : S → Prop}
    (hstep : ∀ s a s', step s a = some s' → inv s →
      inv s' ∧ (if own a then 1 else 0) + rank s' ≤ rank s)
    (henabled : ∀ s, inv s → ¬done s → ∃ a s', own a = true ∧ step s a = some s')
    {s : S} (hs : inv s) : Ends step own done s where
  bounded := by
    refine ⟨rank s, fun as t hrun => ?_⟩
    have hle := countRun_le_rank inv rank (fun _ => own) hstep hrun hs
    exact Nat.le_trans (Nat.le_add_right _ _) hle
  enabled as t hrun hdone := by
    refine henabled t (run_invariant inv ?_ hrun hs) hdone
    exact fun s a s' ha hs => (hstep s a s' ha hs).1

end Noa.Framework
