import Noa.Edge.Data.ChannelState

namespace Noa.Edge.Data

section Positions

/-- The id that many places above `minId`, around the end of the counter. -/
def place (minId : UInt32) (pos : Nat) : UInt32 := minId + UInt32.ofNat pos

variable {minId maxId : UInt32} {inUse : UInt32 → Bool} {pos : Nat}

theorem place_zero : place minId 0 = minId := UInt32.add_zero minId

theorem place_add_one : place minId pos + 1 = place minId (pos + 1) := by
  rw [place, place, UInt32.add_assoc, UInt32.ofNat_add]
  rfl

theorem place_around : place minId (pos + 2 ^ 32) = place minId pos := by
  have hzero : UInt32.ofNat (2 ^ 32) = 0 := rfl
  rw [place, place, UInt32.ofNat_add, hzero, UInt32.add_zero]

theorem place_sub (minId id : UInt32) : place minId (id - minId).toNat = id := by
  rw [place, UInt32.ofNat_toNat, UInt32.add_comm, UInt32.sub_add_cancel]

theorem sub_place (hpos : pos < 2 ^ 32) : (place minId pos - minId).toNat = pos := by
  rw [place, UInt32.add_comm, UInt32.add_sub_cancel, UInt32.toNat_ofNat', Nat.mod_eq_of_lt hpos]

theorem place_toNat : (place minId pos).toNat = (minId.toNat + pos) % 2 ^ 32 := by
  rw [place, UInt32.toNat_add, UInt32.toNat_ofNat', Nat.add_mod_mod]

theorem place_in_range (hlt : minId < maxId) (hpos : pos < 2 ^ 32) :
    (place minId pos < minId ∨ maxId ≤ place minId pos) ↔ maxId.toNat - minId.toNat ≤ pos := by
  have hmin := minId.toNat_lt
  have hmax := maxId.toNat_lt
  rw [UInt32.lt_iff_toNat_lt] at hlt
  rw [UInt32.lt_iff_toNat_lt, UInt32.le_iff_toNat_le, place_toNat]
  omega

theorem loop_in_use (huse : inUse (place minId (pos + 1)) = true) (fuel : Nat) :
    allocConnIdLoop minId maxId inUse (fuel + 1) (place minId pos) =
      allocConnIdLoop minId maxId inUse fuel (place minId (pos + 1)) := by
  rw [allocConnIdLoop, place_add_one, if_pos huse]

theorem loop_rewind (hfree : inUse (place minId (pos + 1)) = false)
    (hrange : place minId (pos + 1) < minId ∨ maxId ≤ place minId (pos + 1)) (fuel : Nat) :
    allocConnIdLoop minId maxId inUse (fuel + 1) (place minId pos) =
      allocConnIdLoop minId maxId inUse fuel (place minId 0) := by
  rw [allocConnIdLoop, place_add_one, if_neg (ne_true_of_eq_false hfree), if_pos hrange, place_zero]

theorem loop_return (hfree : inUse (place minId (pos + 1)) = false)
    (hrange : ¬ (place minId (pos + 1) < minId ∨ maxId ≤ place minId (pos + 1))) (fuel : Nat) :
    allocConnIdLoop minId maxId inUse (fuel + 1) (place minId pos) =
      some (place minId (pos + 1), place minId (pos + 1)) := by
  rw [allocConnIdLoop, place_add_one, if_neg (ne_true_of_eq_false hfree), if_neg hrange]

theorem loop_skip {n : Nat}
    (huse : ∀ i, pos < i → i ≤ pos + n → inUse (place minId i) = true) (fuel : Nat) :
    allocConnIdLoop minId maxId inUse (n + fuel) (place minId pos) =
      allocConnIdLoop minId maxId inUse fuel (place minId (pos + n)) := by
  induction n generalizing pos with
  | zero => rw [Nat.zero_add, Nat.add_zero]
  | succ n ih =>
    rw [Nat.succ_add, loop_in_use (huse (pos + 1) (by omega) (by omega)),
      ih fun i hi hle => huse i (by omega) (by omega), Nat.add_assoc, Nat.add_comm 1 n]

theorem loop_first {free : Nat} (hpos : pos < free)
    (huse : ∀ i, pos < i → i < free → inUse (place minId i) = true)
    (hfree : inUse (place minId free) = false)
    (hrange : ¬ (place minId free < minId ∨ maxId ≤ place minId free)) {fuel : Nat}
    (hfuel : free ≤ pos + fuel) :
    allocConnIdLoop minId maxId inUse fuel (place minId pos) =
      some (place minId free, place minId free) := by
  obtain ⟨n, rfl⟩ : ∃ n, free = pos + n + 1 := ⟨free - pos - 1, by omega⟩
  obtain ⟨more, rfl⟩ : ∃ more, fuel = n + (more + 1) := ⟨fuel - n - 1, by omega⟩
  rw [loop_skip fun i hi hle => huse i hi (by omega), loop_return hfree hrange]

theorem loop_first_rewind {free : Nat} (hpos : pos < free)
    (huse : ∀ i, pos < i → i < free → inUse (place minId i) = true)
    (hfree : inUse (place minId free) = false)
    (hrange : place minId free < minId ∨ maxId ≤ place minId free) (fuel : Nat) :
    allocConnIdLoop minId maxId inUse (free - pos + fuel) (place minId pos) =
      allocConnIdLoop minId maxId inUse fuel (place minId 0) := by
  obtain ⟨n, rfl⟩ : ∃ n, free = pos + n + 1 := ⟨free - pos - 1, by omega⟩
  have hturns : pos + n + 1 - pos + fuel = n + (fuel + 1) := by omega
  rw [hturns, loop_skip fun i hi hle => huse i hi (by omega), loop_rewind hfree hrange]

theorem exists_first_free {above : Nat} (hpos : pos < above)
    (hfree : inUse (place minId above) = false) :
    ∃ free, pos < free ∧ free ≤ above ∧ inUse (place minId free) = false ∧
      ∀ i, pos < i → i < free → inUse (place minId i) = true := by
  classical
  have hex : ∃ i, pos < i ∧ inUse (place minId i) = false := ⟨above, hpos, hfree⟩
  refine ⟨Nat.find hex, (Nat.find_spec hex).1, Nat.find_min' hex ⟨hpos, hfree⟩,
    (Nat.find_spec hex).2, fun i hi hlt => ?_⟩
  have hnot := Nat.find_min hex hlt
  exact Bool.of_not_eq_false fun hfalse => hnot ⟨hi, hfalse⟩

/-- A free id above `minId` is found, by the rewind if need be. The counter is rewound at most once,
and only from above the id. -/
theorem loop_interior (hlt : minId < maxId) (hpos : pos < 2 ^ 32) {id : Nat} (hid : 0 < id)
    (hmax : id < maxId.toNat - minId.toNat) (hfree : inUse (place minId id) = false) :
    ∃ r, allocConnIdLoop minId maxId inUse (2 ^ 32 + 1) (place minId pos) = some r := by
  have hsize := maxId.toNat_lt
  have around : inUse (place minId (id + 2 ^ 32)) = false := by rw [place_around, hfree]
  obtain ⟨low, hlow, hlow_le, hlow_free, hlow_use⟩ := exists_first_free hid hfree
  have hlow_range : ¬ (place minId low < minId ∨ maxId ≤ place minId low) := by
    rw [place_in_range hlt (by omega)]
    omega
  obtain ⟨free, hfree_pos, hfree_le, hfree_free, huse⟩ :=
    exists_first_free (show pos < id + 2 ^ 32 by omega) around
  by_cases hrange : place minId free < minId ∨ maxId ≤ place minId free
  · -- out of the range, so below the end of the counter and above `low`
    have hend : free < 2 ^ 32 := by
      by_contra hge
      obtain ⟨past, rfl⟩ : ∃ past, free = past + 2 ^ 32 := ⟨free - 2 ^ 32, by omega⟩
      rw [place_around, place_in_range hlt (by omega)] at hrange
      omega
    have habove : low ≤ pos := by
      by_contra hbelow
      have hfirst : free ≤ low := by
        by_contra hgt
        rw [huse low (by omega) (by omega)] at hlow_free
        cases hlow_free
      rw [place_in_range hlt hend] at hrange
      omega
    obtain ⟨fuel, hfuel⟩ : ∃ fuel, 2 ^ 32 + 1 = free - pos + fuel := ⟨2 ^ 32 + 1 - (free - pos), by omega⟩
    rw [hfuel, loop_first_rewind hfree_pos huse hfree_free hrange]
    exact ⟨_, loop_first hlow hlow_use hlow_free hlow_range (by omega)⟩
  · refine ⟨_, loop_first hfree_pos huse hfree_free hrange ?_⟩
    by_contra hfar
    -- past the whole counter: `id` itself was passed
    have hpassed := huse id (by omega) (by omega)
    rw [hfree] at hpassed
    cases hpassed

/-- With nothing free above `minId` the counter has to come around to it. -/
theorem loop_around (hlt : minId < maxId) (hpos : pos < 2 ^ 32) (hfree : inUse minId = false)
    (huse : ∀ i, pos < i → i < 2 ^ 32 → inUse (place minId i) = true) :
    ∃ r, allocConnIdLoop minId maxId inUse (2 ^ 32 + 1) (place minId pos) = some r := by
  have hend : place minId (2 ^ 32) = minId := by
    rw [← Nat.zero_add (2 ^ 32), place_around, place_zero]
  have hrange : ¬ (place minId (2 ^ 32) < minId ∨ maxId ≤ place minId (2 ^ 32)) := by
    rw [hend, not_or, UInt32.not_lt, UInt32.not_le]
    exact ⟨UInt32.le_refl _, hlt⟩
  exact ⟨_, loop_first hpos huse (by rw [hend, hfree]) hrange (by omega)⟩

/-- A free id out of the range, still ahead of the counter, keeps it from coming around. -/
theorem loop_forever (hlt : minId < maxId)
    (hinterior : ∀ i, 0 < i → i < maxId.toNat - minId.toNat → inUse (place minId i) = true)
    {ahead : Nat} (hend : ahead < 2 ^ 32) (hahead : inUse (place minId ahead) = false)
    (hpos : pos < ahead) (fuel : Nat) :
    allocConnIdLoop minId maxId inUse fuel (place minId pos) = none := by
  induction fuel generalizing pos with
  | zero => rfl
  | succ fuel ih =>
    cases huse : inUse (place minId (pos + 1)) with
    | true =>
      rw [loop_in_use huse]
      refine ih (Nat.lt_of_le_of_ne hpos ?_)
      rintro rfl
      rw [hahead] at huse
      cases huse
    | false =>
      have hrange : place minId (pos + 1) < minId ∨ maxId ≤ place minId (pos + 1) := by
        rw [place_in_range hlt (by omega)]
        by_contra hin
        rw [hinterior (pos + 1) (by omega) (by omega)] at huse
        cases huse
      rw [loop_rewind huse hrange]
      exact ih (by omega)

end Positions

/-- The allocation comes to an id: one above `minId` is free, which the rewind goes back to, or
everything the wrapping counter passes before it comes around to `minId` is in use. -/
def Reaches (counter minId maxId : UInt32) (inUse : UInt32 → Bool) : Prop :=
  (∃ id, minId < id ∧ id < maxId ∧ inUse id = false) ∨
    ∀ id, counter - minId < id - minId → inUse id = true

section Reaching

variable {counter minId maxId : UInt32} {inUse : UInt32 → Bool}

theorem returns_of_reaches (hlt : minId < maxId)
    (hsome : ∃ id, minId ≤ id ∧ id < maxId ∧ inUse id = false)
    (h : Reaches counter minId maxId inUse) :
    ∃ r, allocConnId counter minId maxId inUse = some r := by
  have hcounter : (counter - minId).toNat < 2 ^ 32 := UInt32.toNat_lt _
  rw [allocConnId, ← place_sub minId counter]
  by_cases hinterior : ∃ id, minId < id ∧ id < maxId ∧ inUse id = false
  · obtain ⟨id, hmin, hmax, hfree⟩ := hinterior
    have hid : (id - minId).toNat = id.toNat - minId.toNat := UInt32.toNat_sub_of_le _ _ (UInt32.le_of_lt hmin)
    rw [UInt32.lt_iff_toNat_lt] at hmin hmax
    refine loop_interior hlt hcounter ?_ ?_ (show inUse (place minId (id - minId).toNat) = false from ?_)
    · omega
    · omega
    · rw [place_sub, hfree]
  · obtain ⟨id, hmin, hmax, hfree⟩ := hsome
    obtain rfl : minId = id := by
      by_contra hne
      exact hinterior ⟨id, UInt32.lt_of_le_of_ne hmin hne, hmax, hfree⟩
    refine loop_around hlt hcounter hfree fun i hi hend => h.resolve_left hinterior _ ?_
    rw [UInt32.lt_iff_toNat_lt, sub_place hend]
    exact hi

theorem forever_of_not_reaches (hlt : minId < maxId) (h : ¬ Reaches counter minId maxId inUse)
    (fuel : Nat) : allocConnIdLoop minId maxId inUse fuel counter = none := by
  obtain ⟨hnone, hahead⟩ := not_or.mp h
  push Not at hnone hahead
  obtain ⟨id, hlater, hfree⟩ := hahead
  rw [UInt32.lt_iff_toNat_lt] at hlater
  rw [← place_sub minId counter]
  refine loop_forever hlt (fun i hi hlen => ?_) (UInt32.toNat_lt (id - minId))
    (by rw [place_sub]; exact Bool.eq_false_of_not_eq_true hfree) hlater fuel
  have hmax := maxId.toNat_lt
  refine Bool.of_not_eq_false (hnone (place minId i) ?_ ?_)
  · rw [UInt32.lt_iff_toNat_lt, place_toNat, Nat.mod_eq_of_lt (by omega)]
    omega
  · rw [UInt32.lt_iff_toNat_lt, place_toNat, Nat.mod_eq_of_lt (by omega)]
    omega

end Reaching

/-- Allocation terminates, with a free id of the range, exactly where it reaches one. -/
theorem allocConnId_reaches (counter minId maxId : UInt32) (inUse : UInt32 → Bool)
    (hlt : minId < maxId) (hsome : ∃ id, minId ≤ id ∧ id < maxId ∧ inUse id = false) :
    (Reaches counter minId maxId inUse → ∃ id,
      allocConnId counter minId maxId inUse = some (id, id) ∧ minId ≤ id ∧ id < maxId ∧
        inUse id = false) ∧
      (¬ Reaches counter minId maxId inUse →
        ∀ fuel, allocConnIdLoop minId maxId inUse fuel counter = none) := by
  refine ⟨fun h => ?_, forever_of_not_reaches hlt⟩
  obtain ⟨⟨id, left⟩, hr⟩ := returns_of_reaches hlt hsome h
  obtain ⟨hfree, hmin, hmax, heq⟩ := allocConnIdLoop_spec _ _ _ _ _ hr
  dsimp only at heq
  subst heq
  exact ⟨_, hr, hmin, hmax, hfree⟩

/-- The wrapped counter comes around to `0` with `1` in use. -/
theorem allocConnId_reaches_wrapped : ∃ id,
    allocConnId 0xffffffff 0 2 (· == 1) = some (id, id) ∧ 0 ≤ id ∧ id < 2 ∧ (id == 1) = false := by
  refine (allocConnId_reaches 0xffffffff 0 2 (· == 1) (by decide) ⟨0, by decide⟩).1 (.inr ?_)
  intro id hid
  rw [UInt32.lt_iff_toNat_lt] at hid
  have hmax := (id - 0).toNat_lt
  have hcounter : (0xffffffff - 0 : UInt32).toNat = 2 ^ 32 - 1 := by decide
  omega

/-- With `1` in use the rewind goes back to it for ever, though `0` is free. -/
theorem allocConnId_misses_minId : (0 : UInt32) ≤ 0 ∧ (0 : UInt32) < 2 ∧ ((0 : UInt32) == 1) = false ∧
    ∀ fuel, allocConnIdLoop 0 2 (· == 1) fuel 0 = none := by
  refine ⟨by decide, by decide, by decide, fun fuel => ?_⟩
  have hlt : (0 : UInt32) < 2 := by decide
  have hahead : (place 0 2 == 1) = false := by decide
  refine loop_forever hlt (fun i hi hlen => ?_) (show 2 < 2 ^ 32 by decide) hahead Nat.two_pos fuel
  obtain rfl : i = 1 := by
    have hsize : (2 : UInt32).toNat - (0 : UInt32).toNat = 2 := by decide
    omega
  decide

end Noa.Edge.Data
