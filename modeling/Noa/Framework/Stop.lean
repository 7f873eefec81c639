import Noa.Framework.Text

namespace Noa.Framework

/-- What ends a fallible function of the source before its last line: a `None` that is handed on, or
a panic. -/
inductive Stop where
  | none
  | overflow
  | boundary
  | range
  deriving DecidableEq

section Reads

variable {α : Type}

/-- The `?` of an `Option`. -/
def orNone : Option α → Except Stop α
  | some a => .ok a
  | none => .error .none

/-- `xs[i]`. -/
def indexAt (xs : List α) (i : Nat) : Except Stop α :=
  match xs[i]? with
  | some a => .ok a
  | none => .error .range

/-- `xs.get(start..stop)`. -/
def getRange (xs : List α) (start stop : Nat) : Option (List α) :=
  if start ≤ stop ∧ stop ≤ xs.length then some ((xs.drop start).take (stop - start)) else none

/-- `&xs[start..stop]`. -/
def indexRange (xs : List α) (start stop : Nat) : Except Stop (List α) :=
  match getRange xs start stop with
  | some ys => .ok ys
  | none => .error .range

/-- An update of `xs[i]`. -/
def modifyAt (xs : List α) (i : Nat) (f : α → α) : Except Stop (List α) :=
  if i < xs.length then .ok (xs.modify i f) else .error .range

theorem indexAt_eq_ok {xs : List α} {i : Nat} {a : α} (h : xs[i]? = some a) : indexAt xs i = .ok a := by
  rw [indexAt, h]

theorem getRange_eq_some {xs ys : List α} {start stop : Nat} :
    getRange xs start stop = some ys ↔
      start ≤ stop ∧ ∃ front back, xs = front ++ ys ++ back ∧ front.length = start ∧
        ys.length = stop - start := by
  unfold getRange
  constructor
  · intro h
    split_ifs at h with hbounds
    cases h
    refine ⟨hbounds.1, xs.take start, (xs.drop start).drop (stop - start), ?_, ?_, ?_⟩
    · rw [List.append_assoc, List.take_append_drop, List.take_append_drop]
    · rw [List.length_take]
      omega
    · rw [List.length_take, List.length_drop]
      omega
  · rintro ⟨hle, front, back, rfl, rfl, hlen⟩
    rw [if_pos ⟨hle, by simp only [List.length_append]; omega⟩, List.append_assoc, List.drop_left,
      ← hlen, List.take_left]

theorem indexRange_zero {xs : List α} {i : Nat} (h : i ≤ xs.length) :
    indexRange xs 0 i = .ok (xs.take i) := by
  rw [indexRange, getRange, if_pos ⟨Nat.zero_le i, h⟩, Nat.sub_zero, List.drop_zero]

theorem modifyAt_eq_ok {xs : List α} {i : Nat} (h : i < xs.length) (f : α → α) :
    modifyAt xs i f = .ok (xs.modify i f) := if_pos h

end Reads

section Decides

variable {α β : Type}

/-- A result that is all right exactly where `P` says so, and otherwise a plain `None`. -/
def Decides (r : Except Stop α) (P : α → Prop) : Prop :=
  (∀ a, r = .ok a ↔ P a) ∧ ∀ e, r = .error e → e = .none

theorem Decides.none {P : α → Prop} (h : ∀ a, ¬ P a) : Decides (.error .none) P := by
  refine ⟨fun a => iff_of_false (fun ha => by cases ha) (h a), fun e he => ?_⟩
  cases he
  rfl

theorem Decides.congr {r : Except Stop α} {P Q : α → Prop} (h : Decides r P)
    (hPQ : ∀ a, P a ↔ Q a) : Decides r Q :=
  ⟨fun a => (h.1 a).trans (hPQ a), h.2⟩

theorem Decides.ok {P : α → Prop} {a : α} (h : ∀ b, P b ↔ b = a) : Decides (.ok a) P := by
  refine ⟨fun b => ?_, fun e he => by cases he⟩
  rw [h b, Except.ok.injEq, eq_comm]

theorem Decides.bind {r : Except Stop α} {f : α → Except Stop β} {P : α → Prop}
    {Q : α → β → Prop} (h : Decides r P) (hf : ∀ a, P a → Decides (f a) (Q a)) :
    Decides (r.bind f) fun b => ∃ a, P a ∧ Q a b := by
  cases r with
  | error e =>
    obtain rfl := h.2 e rfl
    refine .none ?_
    rintro b ⟨a, ha, -⟩
    cases (h.1 a).mpr ha
  | ok a =>
    have ha := (h.1 a).mp rfl
    refine (hf a ha).congr fun b => ⟨fun hb => ⟨a, ha, hb⟩, ?_⟩
    rintro ⟨a', ha', hb⟩
    cases (h.1 a').mpr ha'
    exact hb

theorem orNone_decides (o : Option α) : Decides (orNone o) fun a => o = some a := by
  cases o with
  | none => exact .none fun a h => by cases h
  | some a => exact .ok fun b => by rw [Option.some.injEq, eq_comm]

end Decides

end Noa.Framework
