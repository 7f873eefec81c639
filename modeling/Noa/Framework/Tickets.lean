import Mathlib

namespace Noa.Framework

/-- Tickets that are issued once and spent at most once: each held ticket has been issued, is not
spent, and has one holder. -/
structure Tickets {T : Type*} (issued spent : T → Prop) (held : Nat → Option T) : Prop where
  known : ∀ i t, held i = some t → issued t
  unspent : ∀ i t, held i = some t → ¬ spent t
  distinct : ∀ i j t, held i = some t → held j = some t → i = j
  spentKnown : ∀ t, spent t → issued t

/-- Issued before, and nobody holds it any more. -/
def Retired {T : Type*} (t : T) (issued : T → Prop) (held : Nat → Option T) : Prop :=
  issued t ∧ ∀ i, held i ≠ some t

/-- A step of one holder: it gets a new ticket, spends its own, or does neither; tickets can leave
the spent ones at any time. -/
inductive TicketStep {T : Type*} (issued issued' spent spent' : T → Prop) (h h' : Option T) : Prop
  | keep (hissued : ∀ t, issued t → issued' t) (hspent : ∀ t, spent' t → spent t)
      (hheld : h' = none ∨ h' = h)
  | issue (t : T) (hnew : ¬ issued t) (hissued : ∀ t, issued t → issued' t) (ht : issued' t)
      (hspent : ∀ t, spent' t → spent t) (hheld : h' = some t)
  | spend (t : T) (ht : h = some t) (hissued : ∀ t, issued t → issued' t)
      (hspent : ∀ t', spent' t' → t' = t ∨ spent t') (hheld : h' = none)

section Tickets

-- the holders are workers that are each somewhere in `σ`, with at most one ticket there
variable {T σ : Type*} {issued issued' spent spent' : T → Prop} {g : Nat → σ}
  {f : σ → Option T} {i : Nat} {x : σ} {h h' : Option T} {t : T}

theorem tickets_none (hspent : ∀ t, spent t → issued t) :
    Tickets issued spent fun _ => none := by
  constructor
  · intro i t h
    cases h
  · intro i t h
    cases h
  · intro i j t h
    cases h
  · exact hspent

theorem TicketStep.issued_mono (hs : TicketStep issued issued' spent spent' h h')
    (ht : issued t) : issued' t := by
  cases hs with
  | keep hissued | issue _ _ hissued | spend _ _ hissued => exact hissued t ht

theorem TicketStep.spent_cases (hs : TicketStep issued issued' spent spent' h h')
    (ht : spent' t) : spent t ∨ h = some t ∧ h' = none := by
  cases hs with
  | keep _ hspent => exact .inl (hspent t ht)
  | issue _ _ _ _ hspent => exact .inl (hspent t ht)
  | spend t' ht' _ hspent hheld =>
    obtain rfl | ht := hspent t ht
    · exact .inr ⟨ht', hheld⟩
    · exact .inl ht

theorem TicketStep.held_cases (hs : TicketStep issued issued' spent spent' (f (g i)) (f x))
    {j : Nat} (hj : f (Function.update g i x j) = some t) :
    f (g j) = some t ∧ (j = i → f x = some t) ∨
      j = i ∧ ¬ issued t ∧ issued' t ∧ ∀ t, spent' t → spent t := by
  rw [Function.update_apply] at hj
  split_ifs at hj with hij
  · subst hij
    cases hs with
    | keep _ _ hheld =>
      obtain hnone | hsame := hheld
      · rw [hnone] at hj
        cases hj
      · exact .inl ⟨hsame ▸ hj, fun _ => hj⟩
    | issue t' hnew _ ht' hspent hheld =>
      obtain rfl := Option.some.inj (hheld.symm.trans hj)
      exact .inr ⟨rfl, hnew, ht', hspent⟩
    | spend _ _ _ _ hheld =>
      rw [hheld] at hj
      cases hj
  · exact .inl ⟨hj, fun h => absurd h hij⟩

theorem Tickets.step (h : Tickets issued spent fun j => f (g j))
    (hs : TicketStep issued issued' spent spent' (f (g i)) (f x)) :
    Tickets issued' spent' fun j => f (Function.update g i x j) := by
  constructor
  · intro j t hj
    obtain ⟨hj, -⟩ | ⟨-, -, ht, -⟩ := hs.held_cases hj
    · exact hs.issued_mono (h.known j t hj)
    · exact ht
  · intro j t hj ht
    obtain ⟨hj, hown⟩ | ⟨-, hnew, -, hspent⟩ := hs.held_cases hj
    · obtain ht | ⟨hi, hnone⟩ := hs.spent_cases ht
      · exact h.unspent j t hj ht
      · have := hown (h.distinct j i t hj hi)
        rw [hnone] at this
        cases this
    · exact hnew (h.spentKnown t (hspent t ht))
  · intro j k t hj hk
    obtain ⟨hj, -⟩ | ⟨hji, hnew, -, -⟩ := hs.held_cases hj <;>
      obtain ⟨hk, -⟩ | ⟨hki, hnew', -, -⟩ := hs.held_cases hk
    · exact h.distinct j k t hj hk
    · exact absurd (h.known j t hj) hnew'
    · exact absurd (h.known k t hk) hnew
    · rw [hji, hki]
  · intro t ht
    obtain ht | ⟨hi, -⟩ := hs.spent_cases ht
    · exact hs.issued_mono (h.spentKnown t ht)
    · exact hs.issued_mono (h.known i t hi)

theorem Tickets.retired (h : Tickets issued spent fun j => f (g j)) (ht : spent t) :
    Retired t issued fun j => f (g j) :=
  ⟨h.spentKnown t ht, fun i hi => h.unspent i t hi ht⟩

theorem Retired.step (h : Retired t issued fun j => f (g j))
    (hs : TicketStep issued issued' spent spent' (f (g i)) (f x)) :
    Retired t issued' fun j => f (Function.update g i x j) := by
  refine ⟨hs.issued_mono h.1, fun j hj => ?_⟩
  obtain ⟨hj, -⟩ | ⟨-, hnew, -, -⟩ := hs.held_cases hj
  · exact h.2 j hj
  · exact hnew h.1

theorem Retired.not_spent (h : Retired t issued fun j => f (g j))
    (hs : TicketStep issued issued' spent spent' (f (g i)) h') (ht : ¬ spent t) : ¬ spent' t := by
  intro ht'
  obtain ht' | ⟨hi, -⟩ := hs.spent_cases ht'
  · exact ht ht'
  · exact h.2 i hi

end Tickets

end Noa.Framework
