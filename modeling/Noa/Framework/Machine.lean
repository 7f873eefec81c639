import Mathlib.Data.List.Basic

namespace Noa.Framework

variable {S A : Type*} {step : S → A → Option S}

/-- Take the actions one after the other; `none` where one of them is not enabled. -/
def run (step : S → A → Option S) : S → List A → Option S
  | s, [] => some s
  | s, a :: as => (step s a).bind fun s' => run step s' as

/-- Every step the actions take from `s` meets `c` in the state it starts from. -/
def RunAll (step : S → A → Option S) (c : S → A → Prop) : S → List A → Prop
  | _, [] => True
  | s, a :: as => c s a ∧ ∀ s', step s a = some s' → RunAll step c s' as

/-- How many of the steps the actions take from `s` meet a test. -/
def countRun (step : S → A → Option S) (test : S → A → Bool) : S → List A → Nat
  | _, [] => 0
  | s, a :: as =>
    match step s a with
    | none => 0
    | some s' => (if test s a then 1 else 0) + countRun step test s' as

theorem runAll_cons {c : S → A → Prop} {s s' : S} {a : A} (h : step s a = some s') (as : List A) :
    RunAll step c s (a :: as) ↔ c s a ∧ RunAll step c s' as := by
  rw [RunAll, h]
  exact and_congr_right fun _ => ⟨fun hall => hall s' rfl, fun hall _ hs => Option.some.inj hs ▸ hall⟩

instance decidableRunAll {c : S → A → Prop} [∀ s a, Decidable (c s a)] (s : S) (as : List A) :
    Decidable (RunAll step c s as) :=
  match as with
  | [] => .isTrue trivial
  | a :: as =>
    match h : step s a with
    | none => decidable_of_iff (c s a)
        ⟨fun hc => ⟨hc, fun _ hs => absurd (h.symm.trans hs) nofun⟩, fun hc => hc.1⟩
    | some s' =>
      have := decidableRunAll (c := c) s' as
      decidable_of_iff (c s a ∧ RunAll step c s' as) (runAll_cons h as).symm

theorem run_cons_eq_some {s t : S} {a : A} {as : List A} :
    run step s (a :: as) = some t ↔ ∃ s', step s a = some s' ∧ run step s' as = some t := by
  rw [run, Option.bind_eq_some_iff]

theorem run_append (s : S) (as bs : List A) :
    run step s (as ++ bs) = (run step s as).bind fun s' => run step s' bs := by
  induction as generalizing s with
  | nil => rfl
  | cons a as ih =>
    rw [List.cons_append, run, run, Option.bind_assoc]
    congr 1
    exact funext ih

theorem countRun_cons {test : S → A → Bool} {s s' : S} {a : A} (h : step s a = some s')
    (as : List A) :
    countRun step test s (a :: as) = (if test s a then 1 else 0) + countRun step test s' as := by
  rw [countRun, h]

/-- An invariant of the steps that meet `c` holds at the end of every run made of such steps. -/
theorem run_invariant_when {c : S → A → Prop} (inv : S → Prop)
    (hstep : ∀ s a s', step s a = some s' → c s a → inv s → inv s')
    {s t : S} {as : List A} (hrun : run step s as = some t) (hc : RunAll step c s as)
    (hs : inv s) : inv t := by
  induction as generalizing s with
  | nil =>
    cases hrun
    exact hs
  | cons a as ih =>
    obtain ⟨s', ha, hrest⟩ := run_cons_eq_some.mp hrun
    exact ih hrest (hc.2 s' ha) (hstep s a s' ha hc.1 hs)

theorem runAll_of_forall {c : A → Prop} {as : List A} (h : ∀ a ∈ as, c a) (s : S) :
    RunAll step (fun _ a => c a) s as := by
  induction as generalizing s with
  | nil => trivial
  | cons a as ih =>
    obtain ⟨ha, has⟩ := List.forall_mem_cons.mp h
    exact ⟨ha, fun s' _ => ih has s'⟩

theorem runAll_true (s : S) (as : List A) : RunAll step (fun _ _ => True) s as :=
  runAll_of_forall (fun _ _ => trivial) s

/-- What every step preserves holds at the end of every run. -/
theorem run_invariant (inv : S → Prop)
    (hstep : ∀ s a s', step s a = some s' → inv s → inv s')
    {s t : S} {as : List A} (hrun : run step s as = some t) (hs : inv s) : inv t :=
  run_invariant_when inv (fun s a s' h _ => hstep s a s' h) hrun (runAll_true s as) hs

/-- Conditions that agree in the states of an invariant agree along every run from it. -/
theorem runAll_congr (inv : S → Prop) {c d : S → A → Prop}
    (hstep : ∀ s a s', step s a = some s' → inv s → inv s')
    (hcd : ∀ s a, inv s → (c s a ↔ d s a)) {s : S} (hs : inv s) (as : List A) :
    RunAll step c s as ↔ RunAll step d s as := by
  induction as generalizing s with
  | nil => exact Iff.rfl
  | cons a as ih =>
    refine and_congr (hcd s a hs) (forall_congr' fun s' => ?_)
    exact imp_congr_right fun ha => ih (hstep s a s' ha hs)

/-- Where a step keeps the invariant exactly if it meets the condition, a run meets the condition
exactly if all the states it passes through have the invariant. -/
theorem runAll_iff_prefixes (inv : S → Prop) {c : S → A → Prop}
    (hstep : ∀ s a s', step s a = some s' → inv s → (c s a ↔ inv s'))
    {s t : S} {as : List A} (hrun : run step s as = some t) (hs : inv s) :
    RunAll step c s as ↔ ∀ bs u, bs <+: as → run step s bs = some u → inv u := by
  induction as generalizing s with
  | nil =>
    refine iff_of_true trivial fun bs u hbs hu => ?_
    obtain rfl := List.prefix_nil.mp hbs
    cases hu
    exact hs
  | cons a as ih =>
    obtain ⟨s', ha, hrest⟩ := run_cons_eq_some.mp hrun
    refine ⟨fun ⟨hc, hall⟩ bs u hbs hu => ?_, fun h => ?_⟩
    · cases bs with
      | nil =>
        cases hu
        exact hs
      | cons b bs =>
        obtain ⟨rfl, hbs'⟩ := List.cons_prefix_cons.mp hbs
        obtain ⟨s'', hb, hu⟩ := run_cons_eq_some.mp hu
        obtain rfl : s' = s'' := Option.some.inj (ha.symm.trans hb)
        exact (ih hrest ((hstep s b s' ha hs).mp hc)).mp (hall s' ha) bs u hbs' hu
    · have hs' : inv s' :=
        h [a] s' (List.prefix_append [a] as) (run_cons_eq_some.mpr ⟨s', ha, rfl⟩)
      refine ⟨(hstep s a s' ha hs).mpr hs', fun s'' hb => ?_⟩
      obtain rfl : s' = s'' := Option.some.inj (ha.symm.trans hb)
      refine (ih hrest hs').mpr fun bs u hbs hu => ?_
      exact h (a :: bs) u (List.cons_prefix_cons.mpr ⟨rfl, hbs⟩)
        (run_cons_eq_some.mpr ⟨s', ha, hu⟩)

end Noa.Framework
