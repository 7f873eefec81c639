import Mathlib

namespace Noa.Framework

/-- What arrives at a reader, in order and with its time: finitely much up to any time. -/
structure Arrivals (E : Type) where
  get : Nat → Option (Nat × E)
  ordered : ∀ i t e, get (i + 1) = some (t, e) → ∃ t' e', get i = some (t', e') ∧ t' ≤ t
  finite : ∀ t, ∃ i, ∀ t' e, get i = some (t', e) → t < t'

/-- A read under a timeout, from a time on: when it returns, and what was there by then. -/
def readTimeout {E : Type} (timeout now : Nat) : Option (Nat × E) → Nat × Option E
  | some (t, e) => if t ≤ now + timeout then (max now t, some e) else (now + timeout, none)
  | none => (now + timeout, none)

/-- Reads, each under the timeout, until one settles the wait: the result and its time. The fuel bounds
the number of reads. -/
def awaitEach {E R : Type} (settle : Option E → Option R) (timeout : Nat) (a : Arrivals E) :
    Nat → Nat → Nat → Option (R × Nat)
  | 0, _, _ => none
  | fuel + 1, i, now =>
    match settle (readTimeout timeout now (a.get i)).2 with
    | some r => some (r, (readTimeout timeout now (a.get i)).1)
    | none => awaitEach settle timeout a fuel (i + 1) (readTimeout timeout now (a.get i)).1

section Arrivals

variable {E : Type} {a : Arrivals E} {i j t : Nat} {e : E}

theorem Arrivals.earlier (hij : i ≤ j) (hj : a.get j = some (t, e)) :
    ∃ t' e', a.get i = some (t', e') ∧ t' ≤ t := by
  induction j, hij using Nat.le_induction generalizing t e with
  | base => exact ⟨t, e, hj, Nat.le_refl t⟩
  | succ j _ ih =>
    obtain ⟨t', e', hj', hle⟩ := a.ordered j t e hj
    obtain ⟨t'', e'', hi, hle'⟩ := ih hj'
    exact ⟨t'', e'', hi, Nat.le_trans hle' hle⟩

/-- The first arrival that is later than a time, if any is, comes after all that are not. -/
theorem Arrivals.exists_later (a : Arrivals E) (t : Nat) :
    ∃ n, (∀ t' e, a.get n = some (t', e) → t < t') ∧
      ∀ i < n, ∃ t' e, a.get i = some (t', e) ∧ t' ≤ t := by
  classical
  refine ⟨Nat.find (a.finite t), Nat.find_spec (a.finite t), fun i hi => ?_⟩
  have hno := Nat.find_min (a.finite t) hi
  push Not at hno
  exact hno

end Arrivals

section Read

variable {E : Type} {timeout now t : Nat} {e : E} {o : Option (Nat × E)}

theorem readTimeout_arrived (h : t ≤ now + timeout) :
    readTimeout timeout now (some (t, e)) = (max now t, some e) :=
  if_pos h

theorem readTimeout_late (h : ∀ t e, o = some (t, e) → now + timeout < t) :
    readTimeout timeout now o = (now + timeout, none) := by
  rcases o with _ | ⟨t, e⟩
  · rfl
  · exact if_neg (by have := h t e rfl; omega)

theorem readTimeout_cases (timeout now : Nat) (o : Option (Nat × E)) :
    (∃ t e, o = some (t, e) ∧ readTimeout timeout now o = (max now t, some e)) ∨
      readTimeout timeout now o = (now + timeout, none) := by
  rcases o with _ | ⟨t, e⟩
  · exact .inr rfl
  · by_cases h : t ≤ now + timeout
    · exact .inl ⟨t, e, rfl, readTimeout_arrived h⟩
    · exact .inr (if_neg h)

end Read

section Await

variable {E R : Type} {settle : Option E → Option R} {timeout : Nat} {a : Arrivals E}
  {fuel i now t start : Nat} {r : R}

theorem awaitEach_le (h : awaitEach settle timeout a fuel i now = some (r, t)) : now ≤ t := by
  induction fuel generalizing i now with
  | zero => cases h
  | succ fuel ih =>
    have hread : now ≤ (readTimeout timeout now (a.get i)).1 := by
      rcases readTimeout_cases timeout now (a.get i) with ⟨t', e, -, hread⟩ | hread <;> rw [hread]
      · exact Nat.le_max_left now t'
      · exact Nat.le_add_right now timeout
    unfold awaitEach at h
    split at h
    · cases h
      exact hread
    · exact hread.trans (ih h)

theorem awaitEach_settled (h : awaitEach settle timeout a fuel i now = some (r, t)) :
    settle none = some r ∨ ∃ j t' e, a.get j = some (t', e) ∧ settle (some e) = some r := by
  induction fuel generalizing i now with
  | zero => cases h
  | succ fuel ih =>
    unfold awaitEach at h
    split at h
    next hsettle =>
      cases h
      rcases readTimeout_cases timeout now (a.get i) with ⟨t', e, hget, hread⟩ | hread <;>
        rw [hread] at hsettle
      · exact .inr ⟨i, t', e, hget, hsettle⟩
      · exact .inl hsettle
    next => exact ih h

/-- The reader after the first `n` arrivals. -/
def clock (a : Arrivals E) (start : Nat) : Nat → Nat
  | 0 => start
  | n + 1 => max (clock a start n) (((a.get n).map Prod.fst).getD 0)

theorem le_clock (a : Arrivals E) (start n : Nat) : start ≤ clock a start n := by
  induction n with
  | zero => exact Nat.le_refl start
  | succ n ih => exact ih.trans (Nat.le_max_left _ _)

theorem clock_le {n limit : Nat} (hstart : start ≤ limit)
    (h : ∀ i < n, ∀ t e, a.get i = some (t, e) → t ≤ limit) : clock a start n ≤ limit := by
  induction n with
  | zero => exact hstart
  | succ n ih =>
    refine Nat.max_le.mpr ⟨ih fun i hi => h i (by omega), ?_⟩
    rcases hget : a.get n with _ | ⟨t, e⟩
    · exact Nat.zero_le limit
    · exact h n (by omega) t e hget

theorem arrival_le_clock {n : Nat} {e : E} (start : Nat) (hi : i < n) (hget : a.get i = some (t, e)) :
    t ≤ clock a start n := by
  induction n with
  | zero => omega
  | succ n ih =>
    rcases Nat.lt_succ_iff_lt_or_eq.mp hi with hlt | rfl
    · exact (ih hlt).trans (Nat.le_max_left _ _)
    · simp [clock, hget]

theorem awaitEach_skip {n : Nat} (h : ∀ i < n, ∃ t e, a.get i = some (t, e) ∧ t ≤ start + timeout ∧
      settle (some e) = none) (fuel : Nat) :
    awaitEach settle timeout a (n + fuel) 0 start =
      awaitEach settle timeout a fuel n (clock a start n) := by
  induction n generalizing fuel with
  | zero => rw [Nat.zero_add]; rfl
  | succ n ih =>
    obtain ⟨t, e, hget, ht, hsettle⟩ := h n (by omega)
    have hread : readTimeout timeout (clock a start n) (a.get n) =
        (clock a start (n + 1), some e) := by
      have := le_clock a start n
      rw [hget, readTimeout_arrived (by omega)]
      simp [clock, hget]
    rw [Nat.add_right_comm, Nat.add_assoc, ih (fun i hi => h i (by omega)) (fuel + 1), awaitEach, hread]
    simp only [hsettle]

/-- A wait that something settles in time is over in time. -/
theorem awaitEach_settles (h : ∃ i t e r, a.get i = some (t, e) ∧ settle (some e) = some r ∧
      t ≤ start + timeout) :
    ∃ fuel r t, awaitEach settle timeout a fuel 0 start = some (r, t) ∧ t ≤ start + timeout := by
  classical
  obtain ⟨t, e, r, hget, hsettle, ht⟩ := Nat.find_spec h
  have hskip : ∀ i < Nat.find h, ∃ t e, a.get i = some (t, e) ∧ t ≤ start + timeout ∧
      settle (some e) = none := by
    intro i hi
    obtain ⟨t', e', hget', hle⟩ := Arrivals.earlier (Nat.le_of_lt hi) hget
    refine ⟨t', e', hget', hle.trans ht, Option.eq_none_iff_forall_ne_some.mpr fun r' hr' => ?_⟩
    exact Nat.find_min h hi ⟨t', e', r', hget', hr', hle.trans ht⟩
  have hclock : clock a start (Nat.find h) ≤ start + timeout := by
    refine clock_le (Nat.le_add_right _ _) fun i hi t' e' hget' => ?_
    obtain ⟨t'', e'', hget'', hle, -⟩ := hskip i hi
    cases hget'.symm.trans hget''
    exact hle
  refine ⟨Nat.find h + 1, r, max (clock a start (Nat.find h)) t, ?_, Nat.max_le.mpr ⟨hclock, ht⟩⟩
  have := le_clock a start (Nat.find h)
  rw [awaitEach_skip hskip, awaitEach, hget, readTimeout_arrived (by omega)]
  simp only [hsettle]

/-- Where nothing in time settles the wait, it keeps to its time only if the reader has not waited
before it times out. -/
theorem awaitEach_within_iff_clock {n : Nat} (hout : settle none = some r)
    (hlate : ∀ t e, a.get n = some (t, e) → start + timeout < t)
    (hskip : ∀ i < n, ∃ t e, a.get i = some (t, e) ∧ t ≤ start + timeout ∧ settle (some e) = none) :
    (∃ fuel r t, awaitEach settle timeout a fuel 0 start = some (r, t) ∧ t ≤ start + timeout) ↔
      clock a start n = start := by
  constructor
  · rintro ⟨fuel, r', t, hrun, ht⟩
    by_contra hne
    have hlt : start < clock a start n := Nat.lt_of_le_of_ne (le_clock a start n) (Ne.symm hne)
    rcases Nat.lt_or_ge n fuel with hfuel | hfuel
    · obtain ⟨k, rfl⟩ := Nat.exists_eq_add_of_lt hfuel
      rw [Nat.add_assoc, awaitEach_skip hskip, awaitEach] at hrun
      have hread : start + timeout < (readTimeout timeout (clock a start n) (a.get n)).1 := by
        rcases readTimeout_cases timeout (clock a start n) (a.get n) with ⟨t', e, hget, hread⟩ | hread
        · rw [hread]
          exact lt_max_of_lt_right (hlate t' e hget)
        · rw [hread]
          exact Nat.add_lt_add_right hlt timeout
      split at hrun
      · cases hrun
        omega
      · have := awaitEach_le hrun
        omega
    · -- the fuel is spent on what comes in time
      have hspent := awaitEach_skip (a := a) (fun i hi => hskip i (Nat.lt_of_lt_of_le hi hfuel)) 0
      rw [Nat.add_zero, hrun] at hspent
      cases hspent
  · intro hclock
    refine ⟨n + 1, r, start + timeout, ?_, Nat.le_refl _⟩
    rw [awaitEach_skip hskip, hclock, awaitEach, readTimeout_late hlate]
    simp only [hout]

/-- Each read has the timeout to itself, so the whole wait keeps it if and only if something that comes
in the meantime and settles nothing is made up for by something in time that settles the wait. -/
theorem awaitEach_within_iff (hout : settle none = some r) (a : Arrivals E) (start : Nat) :
    (∃ fuel r t, awaitEach settle timeout a fuel 0 start = some (r, t) ∧ t ≤ start + timeout) ↔
      ((∃ i t e, a.get i = some (t, e) ∧ settle (some e) = none ∧ start < t ∧ t ≤ start + timeout) →
        ∃ i t e r, a.get i = some (t, e) ∧ settle (some e) = some r ∧ t ≤ start + timeout) := by
  by_cases hsettles : ∃ i t e r, a.get i = some (t, e) ∧ settle (some e) = some r ∧ t ≤ start + timeout
  · exact iff_of_true (awaitEach_settles hsettles) fun _ => hsettles
  -- everything that comes in time is read and settles nothing
  obtain ⟨n, hlate, hbefore⟩ := a.exists_later (start + timeout)
  have hskip : ∀ i < n, ∃ t e, a.get i = some (t, e) ∧ t ≤ start + timeout ∧
      settle (some e) = none := by
    intro i hi
    obtain ⟨t, e, hget, ht⟩ := hbefore i hi
    refine ⟨t, e, hget, ht, Option.eq_none_iff_forall_ne_some.mpr fun r hr => ?_⟩
    exact hsettles ⟨i, t, e, r, hget, hr, ht⟩
  rw [awaitEach_within_iff_clock hout hlate hskip]
  refine ⟨fun hclock => ?_, fun himp => ?_⟩
  · rintro ⟨i, t, e, hget, -, hstart, ht⟩
    have hi : i < n := by
      by_contra hge
      obtain ⟨t', e', hget', hle⟩ := Arrivals.earlier (Nat.le_of_not_lt hge) hget
      have := hlate t' e' hget'
      omega
    have := arrival_le_clock start hi hget
    omega
  · refine Nat.le_antisymm (clock_le (Nat.le_refl start) fun i hi t e hget => ?_) (le_clock a start n)
    obtain ⟨t', e', hget', ht, hnone⟩ := hskip i hi
    cases hget.symm.trans hget'
    by_contra hstart
    exact hsettles (himp ⟨i, t, e, hget, hnone, Nat.lt_of_not_le hstart, ht⟩)

end Await

end Noa.Framework
