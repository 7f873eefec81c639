import Mathlib

namespace Noa.Framework

variable {K V : Type*} [Ord K] [Std.TransOrd K]

theorem mem_iff_lookup {m : Std.ExtTreeMap K V} {k : K} : k ∈ m ↔ ∃ v, m[k]? = some v := by
  rw [Std.ExtTreeMap.mem_iff_isSome_getElem?, Option.isSome_iff_exists]

theorem nodup_toList (m : Std.ExtTreeMap K V) : m.toList.Nodup := by
  refine Std.ExtTreeMap.distinct_keys_toList.imp fun {a b} hne hab => hne ?_
  rw [hab]
  exact Std.ReflCmp.compare_self

variable [Std.LawfulEqOrd K] [DecidableEq K]

theorem lookup_insert (m : Std.ExtTreeMap K V) (k a : K) (v : V) :
    (m.insert k v)[a]? = if k = a then some v else m[a]? := by
  simp only [Std.ExtTreeMap.getElem?_insert, Std.compare_eq_iff_eq]

theorem lookup_erase (m : Std.ExtTreeMap K V) (k a : K) :
    (m.erase k)[a]? = if k = a then none else m[a]? := by
  simp only [Std.ExtTreeMap.getElem?_erase, Std.compare_eq_iff_eq]

theorem erase_of_not_mem {m : Std.ExtTreeMap K V} {k : K} (h : k ∉ m) : m.erase k = m := by
  ext a b
  rw [lookup_erase]
  split_ifs with ha
  · subst ha
    simp [h]
  · rfl

theorem erase_insert_of_not_mem {m : Std.ExtTreeMap K V} {k : K} {v : V} (h : k ∉ m) :
    (m.insert k v).erase k = m := by
  ext a b
  rw [lookup_erase, lookup_insert]
  split_ifs with ha
  · subst ha
    simp [h]
  · rfl

theorem lookup_foldl_erase {A : Type*} (f : A → K) (as : List A) (m : Std.ExtTreeMap K V) (a : K) :
    (as.foldl (fun m x => m.erase (f x)) m)[a]? = if a ∈ as.map f then none else m[a]? := by
  induction as generalizing m with
  | nil => simp
  | cons x as ih =>
    rw [List.foldl_cons, ih, lookup_erase, List.map_cons]
    by_cases hx : f x = a
    · simp [hx]
    · by_cases ha : a ∈ as.map f <;> simp [hx, ha, Ne.symm hx]

theorem lookup_foldl_insert (f : V → K) (vs : List V) (m : Std.ExtTreeMap K V) (a : K)
    (hnodup : (vs.map f).Nodup) :
    (vs.foldl (fun m v => m.insert (f v) v) m)[a]? = (vs.find? fun v => f v = a).or m[a]? := by
  induction vs generalizing m with
  | nil => simp
  | cons v vs ih =>
    rw [List.map_cons, List.nodup_cons] at hnodup
    rw [List.foldl_cons, ih _ hnodup.2, lookup_insert, List.find?_cons]
    by_cases hv : f v = a
    · have hnone : (vs.find? fun v => f v = a) = none := by
        rw [List.find?_eq_none]
        intro w hw hwa
        apply hnodup.1
        rw [hv, ← of_decide_eq_true hwa]
        exact List.mem_map_of_mem hw
      simp [hv, hnone]
    · simp [hv]

theorem foldl_insert_toList (m : Std.ExtTreeMap K V) :
    m.toList.foldl (fun t e => t.insert e.1 e.2) ∅ = m := by
  rw [← Std.ExtTreeMap.insertMany_list_eq_foldl]
  apply Std.ExtTreeMap.ext_getElem?
  intro k
  cases hk : m[k]? with
  | some v =>
    have hm := Std.ExtTreeMap.mem_toList_iff_getElem?_eq_some.mpr hk
    exact Std.ExtTreeMap.getElem?_insertMany_list_of_mem Std.ReflCmp.compare_self
      m.distinct_keys_toList hm
  | none =>
    have hc : (m.toList.map Prod.fst).contains k = false := by
      rw [Std.ExtTreeMap.map_fst_toList_eq_keys]
      simpa using hk
    rw [Std.ExtTreeMap.getElem?_insertMany_list_of_contains_eq_false hc]
    simp

theorem toList_insert_perm {m : Std.ExtTreeMap K V} {k : K} (h : m[k]? = none) (v : V) :
    (m.insert k v).toList.Perm ((k, v) :: m.toList) := by
  have hk (w : V) : (k, w) ∉ m.toList := by
    rw [Std.ExtTreeMap.mem_toList_iff_getElem?_eq_some, h]
    rintro ⟨⟩
  refine (List.perm_ext_iff_of_nodup (nodup_toList _) (List.nodup_cons.mpr
    ⟨hk v, nodup_toList m⟩)).mpr fun ⟨a, w⟩ => ?_
  rw [List.mem_cons, Std.ExtTreeMap.mem_toList_iff_getElem?_eq_some, lookup_insert,
    Prod.mk.injEq, Std.ExtTreeMap.mem_toList_iff_getElem?_eq_some]
  split_ifs with ha
  · subst ha
    simp [h, eq_comm]
  · simp [Ne.symm ha]

theorem toList_erase_perm {m : Std.ExtTreeMap K V} {k : K} {v : V} (h : m[k]? = some v) :
    m.toList.Perm ((k, v) :: (m.erase k).toList) := by
  have hk (w : V) : (k, w) ∉ (m.erase k).toList := by
    rw [Std.ExtTreeMap.mem_toList_iff_getElem?_eq_some, lookup_erase, if_pos rfl]
    rintro ⟨⟩
  refine (List.perm_ext_iff_of_nodup (nodup_toList _) (List.nodup_cons.mpr
    ⟨hk v, nodup_toList _⟩)).mpr fun ⟨a, w⟩ => ?_
  rw [List.mem_cons, Std.ExtTreeMap.mem_toList_iff_getElem?_eq_some, Prod.mk.injEq,
    Std.ExtTreeMap.mem_toList_iff_getElem?_eq_some, lookup_erase]
  split_ifs with ha
  · subst ha
    simp [h, eq_comm]
  · simp [Ne.symm ha]

theorem card_keys (m : Std.ExtTreeMap K V) : m.keys.toFinset.card = m.size := by
  have hnodup : m.keys.Nodup := by
    refine Std.ExtTreeMap.distinct_keys.imp fun {a b} hne hab => hne ?_
    rw [hab]
    exact Std.ReflCmp.compare_self
  rw [List.toFinset_card_of_nodup hnodup, Std.ExtTreeMap.length_keys]

theorem mem_keys_toFinset {m : Std.ExtTreeMap K V} {k : K} : k ∈ m.keys.toFinset ↔ k ∈ m := by
  rw [List.mem_toFinset, Std.ExtTreeMap.mem_keys]

theorem card_le_size {m : Std.ExtTreeMap K V} {s : Finset K} (hsub : ∀ k ∈ s, k ∈ m) :
    s.card ≤ m.size := by
  rw [← card_keys m]
  exact Finset.card_le_card fun k hk => mem_keys_toFinset.mpr (hsub k hk)

theorem mem_of_card_le_size {m : Std.ExtTreeMap K V} {s : Finset K} (hsub : ∀ k ∈ m, k ∈ s)
    (hcard : s.card ≤ m.size) {k : K} (hk : k ∈ s) : k ∈ m := by
  have hkeys : m.keys.toFinset ⊆ s := fun x hx => hsub x (mem_keys_toFinset.mp hx)
  have heq := Finset.eq_of_subset_of_card_le hkeys (by rwa [card_keys])
  rwa [← heq, mem_keys_toFinset] at hk

end Noa.Framework
