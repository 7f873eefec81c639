import Noa.Framework.Crew

namespace Noa.Framework

/-- What a command does with a lock. -/
inductive LockUse (K : Type) where
  | take (k : K)
  | give (k : K)
  | other

/-- The locks out of a set of taken ones after a command. -/
def LockUse.after {K : Type} [DecidableEq K] (u : LockUse K) (taken : K → Bool) : K → Bool :=
  match u with
  | .take k => Function.update taken k true
  | .give k => Function.update taken k false
  | .other => taken

/-- Locks are taken in increasing order and given back by who holds them, all of them in the end. -/
def lockOrder {Cmd : Type → Type} {K : Type} [DecidableEq K] [LT K]
    (use : (β : Type) → Cmd β → LockUse K) : Discipline Cmd (K → Bool) where
  may := fun held c =>
    match use _ c with
    | .take k => ∀ k', held k' = true → k' < k
    | .give k => held k = true
    | .other => True
  next := fun held c _ => (use _ c).after held
  done := fun held => ∀ k, held k = false

section LockOrder

variable {Cmd : Type → Type} {K β : Type} [DecidableEq K] [LT K]
  {use : (β : Type) → Cmd β → LockUse K} {c : Cmd β} {held : K → Bool} {k : K}

theorem lockOrder_may_take (hc : use _ c = .take k) :
    (lockOrder use).may held c ↔ ∀ k', held k' = true → k' < k := by
  simp only [lockOrder, hc]

theorem lockOrder_may_give (hc : use _ c = .give k) :
    (lockOrder use).may held c ↔ held k = true := by
  simp only [lockOrder, hc]

theorem lockOrder_may_other (hc : use _ c = .other) : (lockOrder use).may held c := by
  simp only [lockOrder, hc]

theorem lockOrder_next (b : β) : (lockOrder use).next held c b = (use _ c).after held := rfl

end LockOrder

section Locks

variable {Cmd : Type → Type} {S L O E X K : Type} [DecidableEq K]

/-- Commands that wait for a lock they take and for nothing else; a lost worker gives back what it
held. -/
structure TakesLocks (R : Effects Cmd S L E X) (use : (β : Type) → Cmd β → LockUse K)
    (taken : S → K → Bool) (holds : L → K → Bool) : Prop where
  exec : ∀ {β : Type} (c : Cmd β) x l s r, R.exec c x l s = some r →
    taken r.2.2 = (use _ c).after (taken s) ∧ holds r.2.1 = (use _ c).after (holds l)
  waits : ∀ {β : Type} (c : Cmd β) x l s r, R.exec c x l s = some r →
    ∀ k, use _ c = .take k → taken s k = false
  ready : ∀ {β : Type} (c : Cmd β) l s, (∀ k, use _ c = .take k → taken s k = false) →
    ∃ x r, R.exec c x l s = some r
  idle : ∀ k, holds R.idle k = false
  release : ∀ l s k, taken (R.release l s) k = (taken s k && !holds l k)
  env : ∀ e s s', R.env e s = some s' → taken s' = taken s

/-- A lock is taken exactly while a worker holds it, and one worker at most does. -/
structure Exclusive (taken : S → K → Bool) (holds : L → K → Bool) (g : Nat → L × (K → Bool))
    (s : S) : Prop where
  own : ∀ i, (g i).2 = holds (g i).1
  taken : ∀ k, taken s k = true ↔ ∃ i, (g i).2 k = true
  alone : ∀ i j k, (g i).2 k = true → (g j).2 k = true → i = j

variable {taken : S → K → Bool} {holds : L → K → Bool} {g : Nat → L × (K → Bool)} {s s' : S}
  {l : L} {i : Nat}

omit [DecidableEq K] in
theorem Exclusive.new {idle : L} (hidle : ∀ k, holds idle k = false) (hs : ∀ k, taken s k = false) :
    Exclusive taken holds (fun _ => (idle, fun _ => false)) s := by
  constructor
  · intro _
    funext k
    exact (hidle k).symm
  · intro k
    rw [hs k]
    simp
  · intro _ _ _ h
    cases h

/-- One worker's locks and the taken ones change alike, in a lock that no other worker holds. -/
theorem Exclusive.set (h : Exclusive taken holds g s) {k : K} {b : Bool}
    (hother : ∀ j, j ≠ i → (g j).2 k = false)
    (htaken : taken s' = Function.update (taken s) k b)
    (hholds : holds l = Function.update (g i).2 k b) :
    Exclusive taken holds (Function.update g i (l, Function.update (g i).2 k b)) s' := by
  constructor
  · intro j
    rw [Function.update_apply]
    split_ifs
    · exact hholds.symm
    · exact h.own j
  · intro k'
    rw [htaken]
    by_cases hk : k' = k
    · subst hk
      rw [Function.update_self]
      constructor
      · rintro rfl
        refine ⟨i, ?_⟩
        rw [Function.update_self]
        exact Function.update_self ..
      · rintro ⟨j, hj⟩
        by_cases hji : j = i
        · subst hji
          rw [Function.update_self] at hj
          exact (Function.update_self ..).symm.trans hj
        · rw [Function.update_of_ne hji, hother j hji] at hj
          cases hj
    · rw [Function.update_of_ne hk, h.taken k']
      refine exists_congr fun j => ?_
      by_cases hji : j = i
      · subst hji
        rw [Function.update_self]
        dsimp only
        rw [Function.update_of_ne hk]
      · rw [Function.update_of_ne hji]
  · intro j j' k' hj hj'
    by_cases hk : k' = k
    · subst hk
      have halone (n : Nat) (hn : (Function.update g i (l, Function.update (g i).2 k' b) n).2 k' =
          true) : n = i := by
        by_contra hni
        rw [Function.update_of_ne hni, hother n hni] at hn
        cases hn
      rw [halone j hj, halone j' hj']
    · have hkeep (n : Nat) (hn : (Function.update g i (l, Function.update (g i).2 k b) n).2 k' =
          true) : (g n).2 k' = true := by
        by_cases hni : n = i
        · subst hni
          rw [Function.update_self] at hn
          exact (Function.update_of_ne hk ..).symm.trans hn
        · rwa [Function.update_of_ne hni] at hn
      exact h.alone j j' k' (hkeep j hj) (hkeep j' hj')

omit [DecidableEq K] in
theorem Exclusive.keep (h : Exclusive taken holds g s) (htaken : taken s' = taken s)
    (hholds : holds l = (g i).2) :
    Exclusive taken holds (Function.update g i (l, (g i).2)) s' := by
  have hsame (j : Nat) : (Function.update g i (l, (g i).2) j).2 = (g j).2 := by
    rw [Function.update_apply]
    split_ifs with hji
    · rw [hji]
    · rfl
  constructor
  · intro j
    rw [hsame, Function.update_apply]
    split_ifs with hji
    · rw [hji, hholds]
    · exact h.own j
  · intro k
    simp only [hsame, htaken, h.taken]
  · intro j j' k hj hj'
    rw [hsame] at hj hj'
    exact h.alone j j' k hj hj'

variable {R : Effects Cmd S L E X} {use : (β : Type) → Cmd β → LockUse K}
  {progOf : O → Program Cmd Unit}

theorem Exclusive.exec [LT K] (hR : TakesLocks R use taken holds)
    (h : Exclusive taken holds g s) {β : Type} {c : Cmd β} {x : X} {r : β × L × S}
    (hmay : (lockOrder use).may (g i).2 c) (hx : R.exec c x (g i).1 s = some r) :
    Exclusive taken holds (Function.update g i (r.2.1, (lockOrder use).next (g i).2 c r.1))
      r.2.2 := by
  obtain ⟨htaken, hholds⟩ := hR.exec c x _ s r hx
  rw [← h.own i] at hholds
  rw [lockOrder_next]
  cases hc : use _ c with
  | take k =>
    rw [hc] at htaken hholds
    refine h.set (fun j _ => ?_) htaken hholds
    have hfree := hR.waits c x _ s r hx k hc
    by_contra hj
    rw [(h.taken k).mpr ⟨j, eq_true_of_ne_false hj⟩] at hfree
    cases hfree
  | give k =>
    rw [hc] at htaken hholds
    refine h.set (fun j hji => ?_) htaken hholds
    have hi := (lockOrder_may_give hc).mp hmay
    by_contra hj
    exact hji (h.alone j i k (eq_true_of_ne_false hj) hi)
  | other =>
    rw [hc] at htaken hholds
    exact h.keep htaken hholds

theorem Exclusive.drop (hR : TakesLocks R use taken holds) (h : Exclusive taken holds g s) :
    Exclusive taken holds (Function.update g i (R.idle, fun _ => false)) (R.release (g i).1 s) := by
  have hheld (j : Nat) (k : K) :
      (Function.update g i (R.idle, fun _ => false) j).2 k = true ↔ j ≠ i ∧ (g j).2 k = true := by
    rw [Function.update_apply]
    split_ifs with hji
    · simp [hji]
    · simp [hji]
  constructor
  · intro j
    rw [Function.update_apply]
    split_ifs
    · funext k
      exact (hR.idle k).symm
    · exact h.own j
  · intro k
    simp only [hheld, hR.release, ← h.own i, Bool.and_eq_true, Bool.not_eq_true', h.taken]
    constructor
    · rintro ⟨⟨j, hj⟩, hi⟩
      refine ⟨j, ?_, hj⟩
      rintro rfl
      rw [hi] at hj
      cases hj
    · rintro ⟨j, hji, hj⟩
      refine ⟨⟨j, hj⟩, ?_⟩
      by_contra hi
      exact hji (h.alone j i k hj (eq_true_of_ne_false hi))
  · intro j j' k hj hj'
    exact h.alone j j' k ((hheld j k).mp hj).2 ((hheld j' k).mp hj').2

/-- Workers that obey the lock order keep every lock with one holder. -/
theorem Exclusive.tracks [LT K] (hR : TakesLocks R use taken holds)
    (hprog : ∀ o, (progOf o).Obeys (lockOrder use) fun _ => false) :
    Crew.Tracks R progOf (fun _ _ _ => True) (lockOrder use) (fun _ => false)
      (Exclusive taken holds) where
  spawn := hprog
  lost := fun _ => rfl
  exec := fun _ _ _ _ _ _ h hmay _ hx => h.exec hR hmay hx
  drop := fun _ _ _ _ h _ _ => h.drop hR
  env := fun e g s s' he h => ⟨h.own, by rw [hR.env e s s' he]; exact h.taken, h.alone⟩

end Locks

namespace Crew

variable {Cmd : Type → Type} {S L O E X K : Type} {R : Effects Cmd S L E X}
  {progOf : O → Program Cmd Unit}

theorem step_go_of_exec {γ : Type} {c : Cmd γ} {k : γ → Program Cmd Unit} {own : L} {i : Nat}
    {x : X} {r : γ × L × S} {s : Crew Cmd S L} (hi : s.workers[i]? = some ⟨.call c k, own⟩)
    (hx : R.exec c x own s.state = some r) :
    step R progOf s (.go i x) = some ⟨s.workers.set i ⟨k r.1, r.2.1⟩, r.2.2⟩ := by
  simp only [step, hi, hx, Option.map_some]

section Deadlock

variable [DecidableEq K] [LT K] [WellFoundedGT K] {use : (β : Type) → Cmd β → LockUse K}
  {taken : S → K → Bool} {holds : L → K → Bool} {g : Nat → L × (K → Bool)} {s : Crew Cmd S L}

/-- Where locks are taken in order and nothing else is waited for, no set of workers waits for each
other: as long as one has not returned, one can go on. -/
theorem Tracked.some_goes (hR : TakesLocks R use taken holds)
    (h : Tracked R (lockOrder use) (fun _ => false) (Exclusive taken holds) g s)
    {w : Worker Cmd L} (hw : w ∈ s.workers) (hret : w.returned = false) :
    ∃ i x s', step R progOf s (.go i x) = some s' := by
  have hgo {i : Nat} {γ : Type} {c : Cmd γ} {k : γ → Program Cmd Unit} {own : L}
      (hi : s.workers[i]? = some ⟨.call c k, own⟩)
      (hfree : ∀ k, use _ c = .take k → taken s.state k = false) :
      ∃ i x s', step R progOf s (.go i x) = some s' := by
    obtain ⟨x, r, hx⟩ := hR.ready c own s.state hfree
    exact ⟨i, x, _, step_go_of_exec hi hx⟩
  -- Whoever holds the lock waited for waits for a greater one, if at all.
  have hwait (n : K) : ∀ {i : Nat} {γ : Type} {c : Cmd γ} {k : γ → Program Cmd Unit} {own : L},
      s.workers[i]? = some ⟨.call c k, own⟩ → use _ c = .take n → taken s.state n = true →
      ∃ i x s', step R progOf s (.go i x) = some s' := by
    induction n using WellFoundedGT.induction with
    | ind n ih =>
      intro i γ c k own hi hc htaken
      obtain ⟨j, hj⟩ := (h.inv.taken n).mp htaken
      have hlt : j < s.workers.length := by
        by_contra hge
        rw [h.absent j (Nat.le_of_not_lt hge)] at hj
        cases hj
      obtain ⟨⟨p, own'⟩, hjw⟩ : ∃ w, s.workers[j]? = some w := ⟨_, List.getElem?_eq_getElem hlt⟩
      have hobeys := h.obeys j _ hjw
      cases p with
      | ret a =>
        rw [hobeys n] at hj
        cases hj
      | call c' k' =>
        by_cases hfree : ∀ k, use _ c' = .take k → taken s.state k = false
        · exact hgo hjw hfree
        · push Not at hfree
          obtain ⟨m, hm, hmt⟩ := hfree
          have hnm := (lockOrder_may_take hm).mp hobeys.1 n hj
          exact ih m hnm hjw hm (eq_true_of_ne_false hmt)
  obtain ⟨i, hi⟩ := List.mem_iff_getElem?.mp hw
  obtain ⟨p, own⟩ := w
  cases p with
  | ret a => cases hret
  | call c k =>
    by_cases hfree : ∀ k, use _ c = .take k → taken s.state k = false
    · exact hgo hi hfree
    · push Not at hfree
      obtain ⟨n, hn, hnt⟩ := hfree
      exact hwait n hi hn (eq_true_of_ne_false hnt)

end Deadlock

section Finishing

/-- What is left of a program after one of its commands. -/
inductive Left : Program Cmd Unit → Program Cmd Unit → Prop
  | call {γ : Type} (c : Cmd γ) (k : γ → Program Cmd Unit) (b : γ) : Left (k b) (.call c k)

theorem left_wellFounded : WellFounded (@Left Cmd) := by
  refine ⟨fun p => ?_⟩
  induction p with
  | ret a =>
    refine ⟨_, fun q hq => ?_⟩
    cases hq
  | call c k ih =>
    refine ⟨_, fun q hq => ?_⟩
    cases hq
    exact ih _

/-- A worker of the crew resolves a command. -/
def Goes (R : Effects Cmd S L E X) (progOf : O → Program Cmd Unit) (s' s : Crew Cmd S L) : Prop :=
  ∃ i x, step R progOf s (.go i x) = some s'

theorem set_add_getElem {α : Type*} {l : List α} {i : Nat} {a b : α} (hi : l[i]? = some a) :
    ((l.set i b : List α) : Multiset α) + {a} = (l : Multiset α) + {b} := by
  induction l generalizing i with
  | nil => cases hi
  | cons a' l ih =>
    cases i with
    | zero =>
      cases hi
      rw [List.set_cons_zero, ← Multiset.cons_coe, ← Multiset.cons_coe, Multiset.cons_add,
        Multiset.cons_add, add_comm, add_comm (l : Multiset α), ← Multiset.cons_add]
      exact Multiset.cons_swap b a l
    | succ i =>
      rw [List.set_cons_succ, ← Multiset.cons_coe, ← Multiset.cons_coe, Multiset.cons_add,
        Multiset.cons_add, ih hi]

theorem goes_wellFounded (R : Effects Cmd S L E X) (progOf : O → Program Cmd Unit) :
    WellFounded (Goes R progOf) := by
  let progs : Crew Cmd S L → Multiset (Program Cmd Unit) := fun s => (s.workers.map (·.prog) : List _)
  refine Subrelation.wf (r := InvImage (Relation.CutExpand Left) progs) ?_
    (InvImage.wf progs left_wellFounded.cutExpand)
  rintro s' s ⟨i, x, hs⟩
  obtain ⟨γ, c, k, own, r, hi, -, rfl⟩ := step_go hs
  refine ⟨{k r.1}, .call c k, fun q hq => ?_, ?_⟩
  · rw [Multiset.mem_singleton.mp hq]
    exact .call c k r.1
  · simp only [progs, List.map_set]
    apply set_add_getElem
    rw [List.getElem?_map, hi]
    rfl

variable [DecidableEq K] [LT K] [WellFoundedGT K] {use : (β : Type) → Cmd β → LockUse K}
  {taken : S → K → Bool} {holds : L → K → Bool} {s : Crew Cmd S L}

/-- Workers that take locks in order all return, if answered. -/
theorem Tracked.all_return (hR : TakesLocks R use taken holds)
    (hprog : ∀ o, (progOf o).Obeys (lockOrder use) fun _ => false)
    (h : ∃ g, Tracked R (lockOrder use) (fun _ => false) (Exclusive taken holds) g s) :
    ∃ (as : List (PoolAct O E X)) (t : Crew Cmd S L), (∀ a ∈ as, ∃ i x, a = .go i x) ∧
      Framework.run (step R progOf) s as = some t ∧ ∀ w ∈ t.workers, w.returned = true := by
  induction s using (goes_wellFounded R progOf).induction with
  | _ s ih =>
    by_cases hall : ∀ w ∈ s.workers, w.returned = true
    · exact ⟨[], s, by simp, rfl, hall⟩
    · push Not at hall
      obtain ⟨w, hw, hret⟩ := hall
      obtain ⟨g, hg⟩ := h
      obtain ⟨i, x, s', hs⟩ : ∃ i x s', step R progOf s (.go i x) = some s' :=
        hg.some_goes hR hw (eq_false_of_ne_true hret)
      obtain ⟨as, t, has, hrun, ht⟩ := ih s' ⟨i, x, hs⟩
        ((Exclusive.tracks hR hprog).step hs (meets_true s _) ⟨g, hg⟩)
      exact ⟨.go i x :: as, t, List.forall_mem_cons.mpr ⟨⟨i, x, rfl⟩, has⟩,
        run_cons_eq_some.mpr ⟨s', hs, hrun⟩, ht⟩

end Finishing

end Crew

end Noa.Framework
