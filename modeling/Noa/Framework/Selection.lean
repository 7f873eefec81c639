import Mathlib

namespace Noa.Framework

section Selection

variable {α κ : Type} [LinearOrder κ] (key : α → κ)

/-- The first of the elements with the largest key, of those that satisfy `p`. -/
structure Best (p : α → Bool) (l : List α) (a : α) : Prop where
  split : ∃ before after, l = before ++ a :: after ∧
    (∀ x ∈ before, p x = true → key x < key a) ∧ ∀ x ∈ after, p x = true → key x ≤ key a
  holds : p a = true

variable {key} {p : α → Bool}

theorem Best.head {l : List α} {a : α} (ha : p a = true)
    (hl : ∀ x ∈ l, p x = true → key x ≤ key a) : Best key p (a :: l) a :=
  ⟨⟨[], l, rfl, fun _ hx => absurd hx List.not_mem_nil, hl⟩, ha⟩

theorem Best.tail {l : List α} {a b : α} (h : Best key p l a) (hb : p b = true → key b < key a) :
    Best key p (b :: l) a := by
  obtain ⟨before, after, rfl, hbefore, hafter⟩ := h.split
  refine ⟨⟨b :: before, after, rfl, fun x hx hp => ?_, hafter⟩, h.holds⟩
  rcases List.mem_cons.mp hx with rfl | hx
  · exact hb hp
  · exact hbefore x hx hp

/-- Sorted stably, the largest keys first. -/
def sortDesc (key : α → κ) (l : List α) : List α := l.mergeSort fun a b => decide (key b ≤ key a)

theorem sortDesc_cons (key : α → κ) (a : α) (l : List α) : ∃ larger rest, sortDesc key (a :: l) = larger ++ a :: rest ∧
    sortDesc key l = larger ++ rest ∧ (∀ x ∈ larger, key a < key x) ∧ ∀ x ∈ rest, key x ≤ key a := by
  have htrans (x y z : α) (hxy : decide (key y ≤ key x) = true) (hyz : decide (key z ≤ key y) = true) :
      decide (key z ≤ key x) = true := by
    simp only [decide_eq_true_eq] at hxy hyz ⊢
    exact hyz.trans hxy
  have htotal (x y : α) : (decide (key y ≤ key x) || decide (key x ≤ key y)) = true := by
    simp [le_total]
  obtain ⟨larger, rest, hcons, htail, hlarger⟩ := List.mergeSort_cons htrans htotal a l
  have hsorted := List.pairwise_mergeSort htrans htotal (a :: l)
  rw [hcons] at hsorted
  refine ⟨larger, rest, hcons, htail, fun x hx => ?_, fun x hx => ?_⟩
  · simpa using hlarger x hx
  · have hrest := (List.pairwise_cons.mp (List.pairwise_append.mp hsorted).2.1).1 x hx
    exact of_decide_eq_true hrest

theorem mem_sortDesc (key : α → κ) {l : List α} {x : α} : x ∈ sortDesc key l ↔ x ∈ l := List.mem_mergeSort

theorem best_of_find?_sortDesc {l : List α} {a : α} (h : (sortDesc key l).find? p = some a) :
    Best key p l a := by
  induction l generalizing a with
  | nil => simp [sortDesc] at h
  | cons b l ih =>
    obtain ⟨larger, rest, hcons, htail, hlarger, hrest⟩ := sortDesc_cons key b l
    rw [hcons, List.find?_append] at h
    cases hfirst : larger.find? p with
    | some c =>
      rw [hfirst] at h
      cases h
      have hbest := ih (a := a) (by rw [htail, List.find?_append, hfirst]; rfl)
      exact hbest.tail fun _ => hlarger a (List.mem_of_find?_eq_some hfirst)
    | none =>
      rw [hfirst, Option.none_or] at h
      by_cases hb : p b = true
      · rw [List.find?_cons_of_pos hb] at h
        cases h
        refine .head hb fun x hx hp => ?_
        rw [← mem_sortDesc key, htail, List.mem_append] at hx
        rcases hx with hx | hx
        · exact absurd hp (by simpa using List.find?_eq_none.mp hfirst x hx)
        · exact hrest x hx
      · rw [List.find?_cons_of_neg hb] at h
        have hbest := ih (a := a) (by rw [htail, List.find?_append, hfirst, h]; rfl)
        exact hbest.tail fun hp => absurd hp hb

theorem find?_sortDesc_eq_none {l : List α} :
    (sortDesc key l).find? p = none ↔ ∀ x ∈ l, p x = false := by
  simp only [List.find?_eq_none, mem_sortDesc key, Bool.not_eq_true]

theorem findSome?_eq_bind {β : Type} (f : α → Option β) (l : List α) :
    l.findSome? f = (l.find? fun a => (f a).isSome).bind f := by
  induction l with
  | nil => rfl
  | cons a l ih => cases h : f a <;> simp [h, ih]

end Selection

end Noa.Framework
