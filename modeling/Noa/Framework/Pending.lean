import Noa.Framework.Map

namespace Noa.Framework

section Lookup

variable {K V : Type} [Ord K] [Std.TransOrd K] [Std.LawfulEqOrd K] [DecidableEq K]

theorem lookup_insert_update (m : Std.ExtTreeMap K V) (k : K) (v : V) :
    ((m.insert k v)[·]?) = Function.update (m[·]?) k (some v) := by
  funext a
  rw [lookup_insert, Function.update_apply]
  exact if_congr eq_comm rfl rfl

theorem lookup_erase_update (m : Std.ExtTreeMap K V) (k : K) :
    ((m.erase k)[·]?) = Function.update (m[·]?) k none := by
  funext a
  rw [lookup_erase, Function.update_apply]
  exact if_congr eq_comm rfl rfl

end Lookup

/-- Something that was done about a request: the number of the request, the time, and what was
sent. -/
structure Note (A : Type) where
  request : Option Nat
  time : Nat
  sent : A
  deriving DecidableEq

/-- The history of a table of requests that wait under identifiers: the requests in the order they
were registered and the number of each that waits, what was answered, what was refused because a
request was in the way, and when the table was swept. -/
structure PendingLog (K P A : Type) [Ord K] where
  numbers : Std.ExtTreeMap K Nat
  requests : List (K × P)
  answered : List (Note A)
  refused : List (Note Unit)
  sweeps : List Nat

namespace PendingLog

variable {K P A : Type} [Ord K]

def empty : PendingLog K P A := ⟨∅, [], [], [], []⟩

section Operations

variable [Std.TransOrd K] (l : PendingLog K P A)

def register (id : K) (p : P) : PendingLog K P A :=
  { l with
    numbers := l.numbers.insert id l.requests.length
    requests := l.requests ++ [(id, p)] }

def answer (id : K) (now : Nat) (sent : A) : PendingLog K P A :=
  { l with
    numbers := l.numbers.erase id
    answered := l.answered ++ [⟨l.numbers[id]?, now, sent⟩] }

def refuse (id : K) (now : Nat) : PendingLog K P A :=
  { l with refused := l.refused ++ [⟨l.numbers[id]?, now, ()⟩] }

/-- Only the requests that are still looked up wait. -/
def sweep (now : Nat) (look : K → Option P) : PendingLog K P A :=
  { l with
    numbers := l.numbers.filter fun id _ => (look id).isSome
    sweeps := l.sweeps ++ [now] }

end Operations

/-- The number is that of a request with the property. -/
def Concerns (l : PendingLog K P A) (good : K → P → Prop) (request : Option Nat) : Prop :=
  ∃ n id p, request = some n ∧ l.requests[n]? = some (id, p) ∧ good id p

def Unanswered (l : PendingLog K P A) (n : Nat) : Prop := ∀ a ∈ l.answered, a.request ≠ some n

instance (l : PendingLog K P A) (n : Nat) : Decidable (l.Unanswered n) :=
  inferInstanceAs (Decidable (∀ a ∈ l.answered, _))

/-- The table was swept after the time. -/
def SweptAfter (l : PendingLog K P A) (time : Nat) : Prop := ∃ t ∈ l.sweeps, time < t

instance (l : PendingLog K P A) (time : Nat) : Decidable (l.SweptAfter time) :=
  inferInstanceAs (Decidable (∃ t ∈ l.sweeps, _))

/-- The requests that are looked up are those that were registered, were not answered, and saw no
sweep after their deadline. What was answered was registered before, and is answered once and well. -/
structure Tracks [Std.TransOrd K] (good : K → P → A → Prop) (deadline : P → Nat)
    (l : PendingLog K P A) (look : K → Option P) : Prop where
  waits : ∀ id p, look id = some p ↔ ∃ n, l.numbers[id]? = some n ∧ l.requests[n]? = some (id, p)
  numbered : ∀ (id : K) (n : Nat), l.numbers[id]? = some n ↔
    ∃ p, l.requests[n]? = some (id, p) ∧ l.Unanswered n ∧ ¬l.SweptAfter (deadline p)
  once : (l.answered.map Note.request).Nodup
  answered : ∀ a ∈ l.answered, l.Concerns (fun id p => good id p a.sent) a.request
  refused : ∀ a ∈ l.refused, l.Concerns (fun _ _ => True) a.request

/-- Nothing is done about a request after its deadline. -/
def OnTime (l : PendingLog K P A) (deadline : P → Nat) : Prop :=
  (∀ a ∈ l.answered, l.Concerns (fun _ p => a.time ≤ deadline p) a.request) ∧
    ∀ a ∈ l.refused, l.Concerns (fun _ p => a.time ≤ deadline p) a.request

section Lemmas

variable {l : PendingLog K P A} {good : K → P → A → Prop} {look look' : K → Option P} {id : K} {p : P}
  {deadline : P → Nat} {now : Nat} {sent : A}

theorem onTime_empty : (empty : PendingLog K P A).OnTime deadline :=
  ⟨List.forall_mem_nil _, List.forall_mem_nil _⟩

theorem Concerns.of_lookup {c : K → P → Prop} {n : Nat} {request : Option Nat}
    (h : l.Concerns c request) (hreq : request = some n) (hn : l.requests[n]? = some (id, p)) :
    c id p := by
  obtain ⟨m, k, q, hreq', hm, hc⟩ := h
  obtain rfl : n = m := Option.some.inj (hreq.symm.trans hreq')
  cases hn.symm.trans hm
  exact hc

variable [Std.TransOrd K]

theorem tracks_empty (good : K → P → A → Prop) (deadline : P → Nat) :
    (empty : PendingLog K P A).Tracks good deadline fun _ => none :=
  ⟨by simp [empty], by simp [empty], List.nodup_nil, List.forall_mem_nil _, List.forall_mem_nil _⟩

theorem Tracks.look_iff (h : l.Tracks good deadline look) : look id = some p ↔
    ∃ n, l.requests[n]? = some (id, p) ∧ l.Unanswered n ∧ ¬l.SweptAfter (deadline p) := by
  rw [h.waits]
  refine exists_congr fun n => ⟨?_, ?_⟩
  · rintro ⟨hn, hreq⟩
    obtain ⟨q, hreq', hopen⟩ := (h.numbered id n).mp hn
    cases hreq.symm.trans hreq'
    exact ⟨hreq, hopen⟩
  · rintro ⟨hreq, hopen⟩
    exact ⟨(h.numbered id n).mpr ⟨p, hreq, hopen⟩, hreq⟩

theorem lookup_register {n : Nat} {e : K × P} (h : l.requests[n]? = some e) (id : K) (p : P) :
    (l.register id p).requests[n]? = some e :=
  (List.getElem?_append_left (List.getElem?_eq_some_iff.mp h).1).trans h

theorem register_lookup {n : Nat} {e : K × P} (h : (l.register id p).requests[n]? = some e) :
    l.requests[n]? = some e ∨ n = l.requests.length ∧ e = (id, p) := by
  rw [PendingLog.register, List.getElem?_append, List.getElem?_singleton] at h
  split_ifs at h with hlt hlast
  · exact .inl h
  · exact .inr ⟨by omega, (Option.some.inj h).symm⟩

theorem Concerns.register {good : K → P → Prop} {request : Option Nat} (h : l.Concerns good request)
    (id : K) (p : P) : (l.register id p).Concerns good request := by
  obtain ⟨n, k, q, hreq, hn, hgood⟩ := h
  exact ⟨n, k, q, hreq, lookup_register hn id p, hgood⟩

theorem Tracks.onTime_register (h : l.Tracks good deadline look) (id : K) (p : P) :
    (l.register id p).OnTime deadline ↔ l.OnTime deadline := by
  have hback {good' good'' : K → P → Prop} {request : Option Nat} (hold : l.Concerns good' request)
      (hnew : (l.register id p).Concerns good'' request) : l.Concerns good'' request := by
    obtain ⟨n, k, q, hreq, hn, -⟩ := hold
    exact ⟨n, k, q, hreq, hn, hnew.of_lookup hreq (lookup_register hn id p)⟩
  constructor
  · exact fun ⟨ha, hr⟩ => ⟨fun a hmem => hback (h.answered a hmem) (ha a hmem),
      fun a hmem => hback (h.refused a hmem) (hr a hmem)⟩
  · exact fun ⟨ha, hr⟩ => ⟨fun a hmem => (ha a hmem).register id p,
      fun a hmem => (hr a hmem).register id p⟩

theorem Tracks.concerns_iff (h : l.Tracks good deadline look) (hp : look id = some p)
    (c : K → P → Prop) : l.Concerns c l.numbers[id]? ↔ c id p := by
  obtain ⟨n, hn, hreq⟩ := (h.waits id p).mp hp
  simp only [hn]
  exact ⟨fun hc => hc.of_lookup rfl hreq, fun hc => ⟨n, id, p, rfl, hreq, hc⟩⟩

theorem Tracks.onTime_answer (h : l.Tracks good deadline look) (hp : look id = some p) :
    (l.answer id now sent).OnTime deadline ↔ l.OnTime deadline ∧ now ≤ deadline p := by
  have hlast := h.concerns_iff hp fun _ p => now ≤ deadline p
  simp only [OnTime, answer, List.forall_mem_append, List.forall_mem_singleton]
  rw [← hlast]
  exact ⟨fun ⟨⟨ha, hl⟩, hr⟩ => ⟨⟨ha, hr⟩, hl⟩, fun ⟨⟨ha, hr⟩, hl⟩ => ⟨⟨ha, hl⟩, hr⟩⟩

theorem Tracks.onTime_refuse (h : l.Tracks good deadline look) (hp : look id = some p) :
    (l.refuse id now).OnTime deadline ↔ l.OnTime deadline ∧ now ≤ deadline p := by
  have hlast := h.concerns_iff hp fun _ p => now ≤ deadline p
  simp only [OnTime, refuse, List.forall_mem_append, List.forall_mem_singleton]
  rw [← hlast]
  exact ⟨fun ⟨ha, hr, hl⟩ => ⟨⟨ha, hr⟩, hl⟩, fun ⟨⟨ha, hr⟩, hl⟩ => ⟨ha, hr, hl⟩⟩

theorem Tracks.refuse (h : l.Tracks good deadline look) (hp : look id = some p) (now : Nat) :
    (l.refuse id now).Tracks good deadline look :=
  ⟨h.waits, h.numbered, h.once, h.answered,
    List.forall_mem_append.mpr ⟨h.refused, List.forall_mem_singleton.mpr
      ((h.concerns_iff hp _).mpr trivial)⟩⟩

variable [Std.LawfulEqOrd K]

theorem Tracks.sweep (h : l.Tracks good deadline look)
    (hlook : ∀ id, look' id = (look id).filter (now ≤ deadline ·)) :
    (l.sweep now look').Tracks good deadline look' := by
  have hkept (id : K) (p : P) : look' id = some p ↔ look id = some p ∧ now ≤ deadline p := by
    rw [hlook, Option.filter_eq_some_iff, decide_eq_true_iff]
  have hnumbers (id : K) (n : Nat) : (l.sweep now look').numbers[id]? = some n ↔
      l.numbers[id]? = some n ∧ ∃ p, look' id = some p := by
    simp only [PendingLog.sweep, Std.ExtTreeMap.getElem?_filter', Option.filter_eq_some_iff,
      Option.isSome_iff_exists]
  -- the request under the number is the one that is looked up
  have hone (id : K) (n : Nat) (p : P) (hreq : l.requests[n]? = some (id, p)) :
      (l.sweep now look').numbers[id]? = some n ↔ l.numbers[id]? = some n ∧ now ≤ deadline p := by
    rw [hnumbers]
    refine and_congr_right fun hn => ?_
    have hp := (h.waits id p).mpr ⟨n, hn, hreq⟩
    simp [hkept, hp]
  refine ⟨fun id p => ?_, fun id n => ?_, h.once, h.answered, h.refused⟩
  · rw [hkept, h.waits]
    constructor
    · rintro ⟨⟨n, hn, hreq⟩, hlate⟩
      exact ⟨n, (hone id n p hreq).mpr ⟨hn, hlate⟩, hreq⟩
    · rintro ⟨n, hn, hreq⟩
      obtain ⟨hn, hlate⟩ := (hone id n p hreq).mp hn
      exact ⟨⟨n, hn, hreq⟩, hlate⟩
  · have hswept (time : Nat) : (l.sweep now look').SweptAfter time ↔ l.SweptAfter time ∨ time < now := by
      simp [SweptAfter, PendingLog.sweep, or_and_right, exists_or]
    simp only [hswept, not_or, Nat.not_lt]
    constructor
    · intro hn
      obtain ⟨p, hreq, hopen, hswept⟩ := (h.numbered id n).mp ((hnumbers id n).mp hn).1
      exact ⟨p, hreq, hopen, hswept, ((hone id n p hreq).mp hn).2⟩
    · rintro ⟨p, hreq, hopen, hswept, hlate⟩
      exact (hone id n p hreq).mpr ⟨(h.numbered id n).mpr ⟨p, hreq, hopen, hswept⟩, hlate⟩

variable [DecidableEq K]

theorem Tracks.register (h : l.Tracks good deadline look) (hnone : look id = none)
    (hswept : ¬l.SweptAfter (deadline p)) :
    (l.register id p).Tracks good deadline (Function.update look id (some p)) := by
  have hnumbers (k : K) : (l.register id p).numbers[k]? =
      if id = k then some l.requests.length else l.numbers[k]? := lookup_insert _ _ _ _
  have hlast : (l.register id p).requests[l.requests.length]? = some (id, p) := by
    simp [PendingLog.register]
  refine ⟨fun k q => ?_, fun k n => ?_, h.once,
    fun a ha => (h.answered a ha).register id p, fun a ha => (h.refused a ha).register id p⟩
  · rw [hnumbers]
    by_cases hk : id = k
    · subst hk
      simp [hlast, eq_comm]
    · rw [Function.update_of_ne (Ne.symm hk), if_neg hk, h.waits]
      refine exists_congr fun n => and_congr_right fun hn => ?_
      refine ⟨fun hreq => lookup_register hreq id p, fun hreq => (register_lookup hreq).resolve_right ?_⟩
      rintro ⟨-, he⟩
      cases he
      exact hk rfl
  · rw [hnumbers]
    constructor
    · split_ifs with hk
      · rintro ⟨⟩
        subst hk
        -- what was answered was registered before
        refine ⟨p, hlast, fun a ha hreq => ?_, hswept⟩
        obtain ⟨m, _, _, hm, hlt, -⟩ := h.answered a ha
        cases hreq.symm.trans hm
        exact absurd (List.getElem?_eq_some_iff.mp hlt).1 (Nat.lt_irrefl _)
      · intro hn
        obtain ⟨q, hreq, hopen⟩ := (h.numbered k n).mp hn
        exact ⟨q, lookup_register hreq id p, hopen⟩
    · rintro ⟨q, hreq, hopen⟩
      rcases register_lookup hreq with hreq | ⟨rfl, he⟩
      · -- an older request with the identifier would still wait
        have hq := h.look_iff.mpr ⟨n, hreq, hopen⟩
        have hk : id ≠ k := fun hk => by simp [← hk, hnone] at hq
        rw [if_neg hk]
        exact (h.numbered k n).mpr ⟨q, hreq, hopen⟩
      · cases he
        exact if_pos rfl

theorem Tracks.answer (h : l.Tracks good deadline look) (hp : look id = some p)
    (hgood : good id p sent) (now : Nat) :
    (l.answer id now sent).Tracks good deadline (Function.update look id none) := by
  obtain ⟨n, hn, hreq⟩ := (h.waits id p).mp hp
  have hnumbers (k : K) : (l.answer id now sent).numbers[k]? =
      if id = k then none else l.numbers[k]? := lookup_erase _ _ _
  have hanswered : (l.answer id now sent).answered = l.answered ++ [⟨some n, now, sent⟩] := by
    rw [PendingLog.answer, hn]
  have hopen (m : Nat) : (l.answer id now sent).Unanswered m ↔ l.Unanswered m ∧ n ≠ m := by
    simp only [Unanswered, hanswered, List.forall_mem_append, List.forall_mem_singleton, ne_eq,
      Option.some.injEq]
  refine ⟨fun k q => ?_, fun k m => ?_, ?_, fun a ha => ?_, h.refused⟩
  · rw [hnumbers]
    by_cases hk : id = k
    · simp [hk]
    · rw [Function.update_of_ne (Ne.symm hk), if_neg hk]
      exact h.waits k q
  · rw [hnumbers]
    simp only [hopen]
    constructor
    · intro hm
      split_ifs at hm with hk
      obtain ⟨q, hreq', hopen', hswept⟩ := (h.numbered k m).mp hm
      refine ⟨q, hreq', ⟨hopen', ?_⟩, hswept⟩
      -- a request waits under one identifier only
      rintro rfl
      cases hreq.symm.trans hreq'
      exact hk rfl
    · rintro ⟨q, hreq', ⟨hopen', hne⟩, hswept⟩
      have hm := (h.numbered k m).mpr ⟨q, hreq', hopen', hswept⟩
      rw [if_neg, hm]
      rintro rfl
      exact hne (Option.some.inj (hn.symm.trans hm))
  · rw [hanswered, List.map_append, List.nodup_append]
    refine ⟨h.once, List.nodup_singleton _, fun x hx y hy hxy => ?_⟩
    obtain ⟨a, ha, rfl⟩ := List.mem_map.mp hx
    obtain ⟨_, -, hopen', -⟩ := (h.numbered id n).mp hn
    exact hopen' a ha (hxy.trans (List.mem_singleton.mp hy))
  · rw [hanswered] at ha
    rcases List.mem_append.mp ha with ha | ha
    · exact h.answered a ha
    · cases List.mem_singleton.mp ha
      exact ⟨n, id, p, rfl, hreq, hgood⟩

end Lemmas

end PendingLog

end Noa.Framework
