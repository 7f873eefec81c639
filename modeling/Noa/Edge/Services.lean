import Noa.Framework.Machine
import Noa.Framework.Map

namespace Noa.Edge
open Noa.Framework

/-- A service visible to the identity; `config` is its decoded configuration map. -/
structure Service (V : Type) where
  id : String
  name : String
  encryptionRequired : Bool
  permissions : List String
  config : V
  configs : List String
  deriving DecidableEq

inductive ServiceEvent (V : Type) where
  | added (svc : Service V)
  | changed (svc : Service V)
  | removed (svc : Service V)
  deriving DecidableEq

/-- The watcher's cache, keyed by name. -/
abbrev ServiceCache (V : Type) := Std.ExtTreeMap String (Service V)

variable {V : Type} [DecidableEq V]

def serviceDetailsEqual (a b : Service V) : Bool :=
  a.id == b.id && a.name == b.name && a.encryptionRequired == b.encryptionRequired &&
    a.permissions == b.permissions && a.configs == b.configs && a.config == b.config

/-- The event for one fetched service: a name is changed only if its entry survives the poll. -/
def diffFetched (fetchedIds : List String) (cache : ServiceCache V) (s : Service V) :
    Option (ServiceEvent V) :=
  match cache[s.name]? with
  | some existing =>
    if fetchedIds.contains existing.id then
      if serviceDetailsEqual existing s then none else some (.changed s)
    else some (.added s)
  | none => some (.added s)

/-- What a poll reports. Removal goes by id although the cache goes by name; `iter` are the values
of the cache in the order the map yields them. -/
def diffServices (iter : List (Service V)) (cache : ServiceCache V) (fetched : List (Service V)) :
    List (ServiceEvent V) :=
  let fetchedIds := fetched.map (·.id)
  (iter.filter fun svc => !fetchedIds.contains svc.id).map .removed ++
    fetched.filterMap (diffFetched fetchedIds cache)

/-- The removed names leave the cache, then every fetched service enters it. -/
def applyCacheUpdate (cache : ServiceCache V) (fetched : List (Service V))
    (events : List (ServiceEvent V)) : ServiceCache V :=
  let cache := events.foldl (fun c ev =>
    match ev with
    | .removed svc => c.erase svc.name
    | _ => c) cache
  fetched.foldl (fun c s => c.insert s.name s) cache

/-- `ServiceWatcher::process`, up to the calls of the listeners. -/
def processServices (iter : List (Service V)) (cache : ServiceCache V)
    (fetched : List (Service V)) : List (ServiceEvent V) × ServiceCache V :=
  let events := diffServices iter cache fetched
  (events, applyCacheUpdate cache fetched events)

theorem serviceDetailsEqual_iff (a b : Service V) : serviceDetailsEqual a b = true ↔ a = b := by
  cases a
  cases b
  simp [serviceDetailsEqual]
  tauto

section Diff

variable {iter : List (Service V)} {cache : ServiceCache V} {fetched : List (Service V)}

/-- The fetched services a poll announces, as added or changed: those the cache does not hold
under their name as they are. -/
def announced (cache : ServiceCache V) (fetched : List (Service V)) : List (Service V) :=
  fetched.filter fun s => cache[s.name]? ≠ some s

/-- The cached services whose id vanished. -/
def vanished (iter fetched : List (Service V)) : List (Service V) :=
  iter.filter fun svc => !(fetched.map (·.id)).contains svc.id

omit [DecidableEq V] in
theorem mem_vanished {svc : Service V} :
    svc ∈ vanished iter fetched ↔ svc ∈ iter ∧ svc.id ∉ fetched.map (·.id) := by
  simp [vanished]

/-- The table of a consumer, keyed by id. -/
abbrev ServiceTable (V : Type) := Std.ExtTreeMap String (Service V)

def replay (table : ServiceTable V) : ServiceEvent V → ServiceTable V
  | .added svc => table.insert svc.id svc
  | .changed svc => table.insert svc.id svc
  | .removed svc => table.erase svc.id

/-- A fetched service is announced unless the cache holds it as it is. -/
theorem diffFetched_spec (cache : ServiceCache V) {ids : List String} {s : Service V}
    (hs : s.id ∈ ids) :
    if cache[s.name]? = some s then diffFetched ids cache s = none
    else diffFetched ids cache s = some (.added s) ∨ diffFetched ids cache s = some (.changed s) := by
  unfold diffFetched
  rcases hc : cache[s.name]? with _ | existing
  · simp
  · by_cases heq : existing = s
    · subst heq
      have hsame : serviceDetailsEqual existing existing = true :=
        (serviceDetailsEqual_iff _ _).mpr rfl
      simp [hs, hsame]
    · have hdiff : serviceDetailsEqual existing s = false := by
        rw [Bool.eq_false_iff, ne_eq, serviceDetailsEqual_iff]
        exact heq
      rw [if_neg fun h => heq (Option.some.inj h)]
      simp only [hdiff, Bool.false_eq_true, if_false]
      split_ifs
      · exact .inr rfl
      · exact .inl rfl

theorem removed_mem_diffServices {svc : Service V} (hs : svc ∈ vanished iter fetched) :
    .removed svc ∈ diffServices iter cache fetched :=
  List.mem_append_left _ (List.mem_map_of_mem hs)

theorem reported_mem_diffServices {s : Service V} (hs : s ∈ fetched) (hc : cache[s.name]? ≠ some s) :
    .added s ∈ diffServices iter cache fetched ∨ .changed s ∈ diffServices iter cache fetched := by
  have hspec := diffFetched_spec cache (List.mem_map_of_mem (f := (·.id)) hs)
  rw [if_neg hc] at hspec
  exact hspec.imp (fun hev => List.mem_append_right _ (List.mem_filterMap.mpr ⟨s, hs, hev⟩))
    fun hev => List.mem_append_right _ (List.mem_filterMap.mpr ⟨s, hs, hev⟩)

theorem fetched_of_reported {s : Service V} {ev : ServiceEvent V}
    (hev : ev ∈ diffServices iter cache fetched) (hs : ev = .added s ∨ ev = .changed s) :
    s ∈ fetched := by
  obtain hev | hev := List.mem_append.mp hev
  · obtain ⟨svc, -, rfl⟩ := List.mem_map.mp hev
    obtain heq | heq := hs <;> cases heq
  · obtain ⟨s', hs', hdiff⟩ := List.mem_filterMap.mp hev
    have hspec := diffFetched_spec cache (List.mem_map_of_mem (f := (·.id)) hs')
    rw [hdiff] at hspec
    split_ifs at hspec
    obtain rfl | rfl := hs <;> obtain heq | heq := hspec <;> cases heq <;> exact hs'

theorem replay_reported {ids : List String} (l : List (Service V)) (hids : ∀ s ∈ l, s.id ∈ ids)
    (table : ServiceTable V) :
    (l.filterMap (diffFetched ids cache)).foldl replay table =
      (announced cache l).foldl (fun t s => t.insert s.id s) table := by
  induction l generalizing table with
  | nil => rfl
  | cons s l ih =>
    have hrest := ih fun s' hs' => hids s' (List.mem_cons_of_mem _ hs')
    have hspec := diffFetched_spec cache (hids s List.mem_cons_self)
    unfold announced at hrest ⊢
    rw [List.filterMap_cons, List.filter_cons]
    by_cases hc : cache[s.name]? = some s
    · rw [if_pos hc] at hspec
      simp only [hspec, hc, ne_eq, not_true_eq_false, decide_false, Bool.false_eq_true, if_false]
      exact hrest table
    · rw [if_neg hc] at hspec
      rcases hspec with hev | hev <;>
      · simp only [hev, hc, ne_eq, not_false_eq_true, decide_true, if_true, List.foldl_cons]
        exact hrest _

/-- What replaying a poll does to a table: the vanished ids leave it, the announced enter. -/
theorem replay_diffServices (table : ServiceTable V) :
    (diffServices iter cache fetched).foldl replay table =
      (announced cache fetched).foldl (fun t s => t.insert s.id s)
        ((vanished iter fetched).foldl (fun t s => t.erase s.id) table) := by
  have hids : ∀ s ∈ fetched, s.id ∈ fetched.map (·.id) := fun s hs => List.mem_map_of_mem hs
  rw [diffServices, List.foldl_append, List.foldl_map, replay_reported fetched hids]
  rfl

theorem lookup_replay (hids : (fetched.map (·.id)).Nodup) (table : ServiceTable V) (id : String) :
    ((diffServices iter cache fetched).foldl replay table)[id]? =
      ((announced cache fetched).find? fun s => s.id = id).or
        (if id ∈ (vanished iter fetched).map (·.id) then none else table[id]?) := by
  have hnodup : ((announced cache fetched).map (·.id)).Nodup :=
    hids.sublist (List.filter_sublist.map _)
  rw [replay_diffServices, lookup_foldl_insert (fun s : Service V => s.id) _ _ _ hnodup,
    lookup_foldl_erase]

theorem erase_removed (m : ServiceCache V) :
    (diffServices iter cache fetched).foldl (fun c ev =>
      match ev with
      | .removed svc => c.erase svc.name
      | _ => c) m = (vanished iter fetched).foldl (fun c s => c.erase s.name) m := by
  have hids : ∀ s ∈ fetched, s.id ∈ fetched.map (·.id) := fun s hs => List.mem_map_of_mem hs
  have hkeep : ∀ (l : List (Service V)) (c : ServiceCache V),
      (∀ s ∈ l, s.id ∈ fetched.map (·.id)) →
      (l.filterMap (diffFetched (fetched.map (·.id)) cache)).foldl (fun c ev =>
        match ev with
        | .removed svc => c.erase svc.name
        | _ => c) c = c := by
    intro l
    induction l with
    | nil => intros; rfl
    | cons s l ih =>
      intro c hl
      have hspec := diffFetched_spec cache (hl s List.mem_cons_self)
      have hrest := ih c fun s' hs' => hl s' (List.mem_cons_of_mem _ hs')
      rw [List.filterMap_cons]
      split_ifs at hspec
      · rw [hspec]
        exact hrest
      · rcases hspec with hev | hev <;>
        · rw [hev]
          exact hrest
  rw [diffServices, List.foldl_append, List.foldl_map, hkeep fetched _ hids]
  rfl

theorem lookup_applyCacheUpdate (hnames : (fetched.map (·.name)).Nodup) (name : String) :
    (processServices iter cache fetched).2[name]? =
      (fetched.find? fun s => s.name = name).or
        (if name ∈ (vanished iter fetched).map (·.name) then none else cache[name]?) := by
  rw [processServices, applyCacheUpdate, erase_removed,
    lookup_foldl_insert (fun s : Service V => s.name) _ _ _ hnames, lookup_foldl_erase]

/-- Entries are under the names of their services. -/
def Named (cache : ServiceCache V) : Prop :=
  ∀ (name : String) (s : Service V), cache[name]? = some s → s.name = name

/-- One poll of any list; `iter` is the order in which the cache map happens to yield its values. -/
def processStep (cache : ServiceCache V) (p : List (Service V) × List (Service V)) :
    Option (ServiceCache V) :=
  if p.1.Perm (cache.toList.map (·.2)) then some (processServices p.1 cache p.2).2 else none

omit [DecidableEq V] in
theorem mem_values (hiter : iter.Perm (cache.toList.map (·.2))) {s : Service V} :
    s ∈ iter ↔ ∃ name : String, cache[name]? = some s := by
  rw [hiter.mem_iff, List.mem_map]
  constructor
  · rintro ⟨⟨name, s'⟩, hmem, rfl⟩
    exact ⟨name, Std.ExtTreeMap.mem_toList_iff_getElem?_eq_some.mp hmem⟩
  · rintro ⟨name, h⟩
    exact ⟨(name, s), Std.ExtTreeMap.mem_toList_iff_getElem?_eq_some.mpr h, rfl⟩

omit [DecidableEq V] in
theorem Named.foldl_insert (h : Named cache) (l : List (Service V)) :
    Named (l.foldl (fun c s => c.insert s.name s) cache) := by
  induction l generalizing cache with
  | nil => exact h
  | cons s l ih =>
    refine ih fun name s' hs' => ?_
    rw [lookup_insert] at hs'
    split_ifs at hs' with hname
    · cases hs'
      exact hname
    · exact h name s' hs'

omit [DecidableEq V] in
theorem Named.foldl_erase (h : Named cache) (l : List (Service V)) :
    Named (l.foldl (fun c s => c.erase s.name) cache) := by
  intro name s hs
  rw [lookup_foldl_erase (fun s : Service V => s.name)] at hs
  split_ifs at hs
  exact h name s hs

theorem Named.process (h : Named cache) : Named (processServices iter cache fetched).2 := by
  rw [processServices, applyCacheUpdate, erase_removed]
  exact (h.foldl_erase _).foldl_insert _

theorem run_named {polls : List (List (Service V) × List (Service V))}
    (hrun : run processStep ∅ polls = some cache) : Named cache := by
  refine run_invariant Named (fun cache p cache' hstep h => ?_) hrun (by simp [Named])
  unfold processStep at hstep
  split_ifs at hstep
  cases hstep
  exact h.process

omit [DecidableEq V] in
theorem find?_eq_some_of_nodup {l : List (Service V)} {f : Service V → String}
    (hnodup : (l.map f).Nodup) {a : String} {s : Service V} :
    (l.find? fun s => f s = a) = some s ↔ s ∈ l ∧ f s = a := by
  constructor
  · intro h
    exact ⟨List.mem_of_find?_eq_some h, by simpa using List.find?_some h⟩
  · rintro ⟨hs, rfl⟩
    have hsome : (l.find? fun s' => f s' = f s).isSome :=
      List.find?_isSome.mpr ⟨s, hs, by simp⟩
    obtain ⟨s', hs'⟩ := Option.isSome_iff_exists.mp hsome
    have hf : f s' = f s := by simpa using List.find?_some hs'
    rw [hs', List.inj_on_of_nodup_map hnodup (List.mem_of_find?_eq_some hs') hs hf]

theorem mem_processed (hnames : (fetched.map (·.name)).Nodup) {s : Service V} (hs : s ∈ fetched) :
    (processServices iter cache fetched).2[s.name]? = some s := by
  rw [lookup_applyCacheUpdate hnames, (find?_eq_some_of_nodup hnames).mpr ⟨hs, rfl⟩, Option.some_or]

theorem processed_id (hnames : (fetched.map (·.name)).Nodup) (h : Named cache)
    (hiter : iter.Perm (cache.toList.map (·.2))) {name : String} {s : Service V}
    (hs : (processServices iter cache fetched).2[name]? = some s) : s.id ∈ fetched.map (·.id) := by
  rw [lookup_applyCacheUpdate hnames, Option.or_eq_some_iff] at hs
  obtain hfetched | ⟨-, hkept⟩ := hs
  · exact List.mem_map_of_mem (List.mem_of_find?_eq_some hfetched)
  · split_ifs at hkept with hgone
    by_contra hid
    refine hgone (List.mem_map.mpr ⟨s, mem_vanished.mpr ⟨?_, hid⟩, h name s hkept⟩)
    exact (mem_values hiter).mpr ⟨name, hkept⟩

theorem process_settled (hnames : (fetched.map (·.name)).Nodup)
    (hheld : ∀ s ∈ fetched, cache[s.name]? = some s) (hiter : iter.Perm (cache.toList.map (·.2)))
    (hids : ∀ (name : String) (s : Service V), cache[name]? = some s → s.id ∈ fetched.map (·.id)) :
    processServices iter cache fetched = ([], cache) := by
  have hvanished : vanished iter fetched = [] := by
    refine List.eq_nil_iff_forall_not_mem.mpr fun s hs => ?_
    obtain ⟨hmem, hid⟩ := mem_vanished.mp hs
    obtain ⟨name, hname⟩ := (mem_values hiter).mp hmem
    exact hid (hids name s hname)
  have hsilent : fetched.filterMap (diffFetched (fetched.map (·.id)) cache) = [] := by
    refine List.filterMap_eq_nil_iff.mpr fun s hs => ?_
    have hspec := diffFetched_spec cache (List.mem_map_of_mem (f := (·.id)) hs)
    rwa [if_pos (hheld s hs)] at hspec
  refine Prod.ext ?_ (Std.ExtTreeMap.ext_getElem? fun name => ?_)
  · change (vanished iter fetched).map ServiceEvent.removed ++ _ = _
    rw [hvanished, hsilent]
    rfl
  · rw [lookup_applyCacheUpdate hnames, hvanished]
    cases hfind : fetched.find? fun s => s.name = name with
    | none => rfl
    | some s =>
      have hname : s.name = name := by simpa using List.find?_some hfind
      rw [← hname, hheld s (List.mem_of_find?_eq_some hfind), Option.some_or]

end Diff

/-- From every cache that polls lead to, a poll of a list with unique names leaves the fetched
services under their names and nothing of an id that was not fetched, and the same list again
reports nothing and changes nothing. -/
theorem cache_exact {polls : List (List (Service V) × List (Service V))} {cache : ServiceCache V}
    {iter fetched : List (Service V)} (hrun : run processStep ∅ polls = some cache)
    (hiter : iter.Perm (cache.toList.map (·.2))) (hnames : (fetched.map (·.name)).Nodup) :
    let cache' := (processServices iter cache fetched).2
    (∀ s ∈ fetched, cache'[s.name]? = some s) ∧
    (∀ (name : String) (s : Service V), cache'[name]? = some s → ∃ s' ∈ fetched, s'.id = s.id) ∧
    ∀ iter' : List (Service V), iter'.Perm (cache'.toList.map (·.2)) →
      processServices iter' cache' fetched = ([], cache') := by
  intro cache'
  have hids (name : String) (s : Service V) (hs : cache'[name]? = some s) :=
    processed_id hnames (run_named hrun) hiter hs
  refine ⟨fun s hs => mem_processed hnames hs, fun name s hs => ?_, fun iter' hiter' => ?_⟩
  · exact List.mem_map.mp (hids name s hs)
  · exact process_settled hnames (fun s hs => mem_processed hnames hs) hiter' hids

/-- A fetched list; `iter` is the order in which the cache map happens to yield its values. -/
structure Poll (V : Type) where
  fetched : List (Service V)
  iter : List (Service V)
  ids_nodup : (fetched.map (·.id)).Nodup
  names_nodup : (fetched.map (·.name)).Nodup

/-- A watcher, the table of a consumer of its events, and the lists fetched so far, newest first. -/
structure Watch (V : Type) where
  cache : ServiceCache V
  table : ServiceTable V
  lists : List (List (Service V))

namespace Watch

def new : Watch V := ⟨∅, ∅, []⟩

/-- One poll, and the consumer that replays what it reports. -/
def poll (w : Watch V) (p : Poll V) : Option (Watch V) :=
  if p.iter.Perm (w.cache.toList.map (·.2)) then
    let (events, cache) := processServices p.iter w.cache p.fetched
    some ⟨cache, events.foldl replay w.table, p.fetched :: w.lists⟩
  else none

/-- The table holds exactly the services of the last fetched list. -/
def Exact (w : Watch V) : Prop :=
  ∀ id, w.table[id]? = (w.lists.headD []).find? fun s => s.id = id

/-- `s` was the last service fetched under its name, and its id was fetched ever since. -/
def Retained (s : Service V) : List (List (Service V)) → Prop
  | [] => False
  | l :: older =>
    s ∈ l ∨ (s.name ∉ l.map (·.name) ∧ s.id ∈ l.map (·.id) ∧ Retained s older)

instance decidableRetained (s : Service V) : ∀ lists, Decidable (Retained s lists)
  | [] => .isFalse id
  | l :: older =>
    have := decidableRetained s older
    inferInstanceAs (Decidable (s ∈ l ∨
      (s.name ∉ l.map (·.name) ∧ s.id ∈ l.map (·.id) ∧ Retained s older)))

/-- A service is fetched as it was when it last had its name, having had other names since. -/
def RenamedBack (lists : List (List (Service V))) (fetched : List (Service V)) : Prop :=
  ∃ s ∈ fetched, Retained s lists ∧ s ∉ lists.headD []

instance (lists : List (List (Service V))) (fetched : List (Service V)) :
    Decidable (RenamedBack lists fetched) :=
  inferInstanceAs (Decidable (∃ s ∈ fetched, Retained s lists ∧ s ∉ lists.headD []))

/-- The cache holds the last service of each name for as long as its id is fetched. -/
structure Caches (w : Watch V) : Prop where
  retained : ∀ name s, w.cache[name]? = some s ↔ s.name = name ∧ Retained s w.lists
  ids_nodup : ((w.lists.headD []).map (·.id)).Nodup

variable {w w' : Watch V} {p : Poll V}

omit [DecidableEq V] in
theorem mem_vanished_iff (h : w.Caches) (hiter : p.iter.Perm (w.cache.toList.map (·.2)))
    {s : Service V} :
    s ∈ vanished p.iter p.fetched ↔ Retained s w.lists ∧ s.id ∉ p.fetched.map (·.id) := by
  rw [mem_vanished, mem_values hiter]
  refine and_congr_left fun _ => ⟨?_, fun hs => ⟨s.name, (h.retained s.name s).mpr ⟨rfl, hs⟩⟩⟩
  rintro ⟨name, hname⟩
  exact ((h.retained name s).mp hname).2

theorem poll_eq_some (hpoll : w.poll p = some w') : p.iter.Perm (w.cache.toList.map (·.2)) ∧
    w'.cache = (processServices p.iter w.cache p.fetched).2 ∧ w'.lists = p.fetched :: w.lists := by
  unfold poll at hpoll
  split_ifs at hpoll with hiter
  cases hpoll
  exact ⟨hiter, rfl, rfl⟩

theorem poll_caches (h : w.Caches) (hpoll : w.poll p = some w') : w'.Caches := by
  unfold poll at hpoll
  split_ifs at hpoll with hiter
  cases hpoll
  refine ⟨fun name s => ?_, p.ids_nodup⟩
  change (processServices p.iter w.cache p.fetched).2[name]? = some s ↔ _
  rw [lookup_applyCacheUpdate p.names_nodup, Option.or_eq_some_iff,
    find?_eq_some_of_nodup p.names_nodup, Retained]
  have hfresh : (p.fetched.find? fun s => s.name = name) = none ↔
      name ∉ p.fetched.map (·.name) := by
    simp [List.find?_eq_none]
  have hkept : (if name ∈ (vanished p.iter p.fetched).map (·.name) then none
      else w.cache[name]?) = some s ↔
        s.name = name ∧ s.id ∈ p.fetched.map (·.id) ∧ Retained s w.lists := by
    constructor
    · intro hs
      split_ifs at hs with hgone
      obtain ⟨hname, hret⟩ := (h.retained name s).mp hs
      refine ⟨hname, ?_, hret⟩
      by_contra hid
      exact hgone (List.mem_map.mpr ⟨s, (mem_vanished_iff h hiter).mpr ⟨hret, hid⟩, hname⟩)
    · rintro ⟨hname, hid, hret⟩
      have hcached : w.cache[name]? = some s := (h.retained name s).mpr ⟨hname, hret⟩
      rw [if_neg, hcached]
      intro hgone
      obtain ⟨s', hs', hname'⟩ := List.mem_map.mp hgone
      obtain ⟨hret', hid'⟩ := (mem_vanished_iff h hiter).mp hs'
      have hcached' : w.cache[name]? = some s' := (h.retained name s').mpr ⟨hname', hret'⟩
      rw [hcached] at hcached'
      cases hcached'
      exact hid' hid
  rw [hfresh, hkept]
  constructor
  · rintro (⟨hs, rfl⟩ | ⟨hname, rfl, hid, hret⟩)
    · exact ⟨rfl, .inl hs⟩
    · exact ⟨rfl, .inr ⟨hname, hid, hret⟩⟩
  · rintro ⟨rfl, hs | ⟨hname, hid, hret⟩⟩
    · exact .inl ⟨hs, rfl⟩
    · exact .inr ⟨hname, rfl, hid, hret⟩

/-- What a consumer holds of a fetched service: it misses exactly the one renamed back. -/
theorem lookup_fetched (hc : w.Caches) (h : w.Exact) {s : Service V} (hs : s ∈ p.fetched) :
    ((diffServices p.iter w.cache p.fetched).foldl replay w.table)[s.id]? = some s ↔
      (Retained s w.lists → s ∈ w.lists.headD []) := by
  have hannounced : ((announced w.cache p.fetched).map (·.id)).Nodup :=
    p.ids_nodup.sublist (List.filter_sublist.map _)
  have hstays : s.id ∉ (vanished p.iter p.fetched).map (·.id) := by
    intro hgone
    obtain ⟨s', hs', hid⟩ := List.mem_map.mp hgone
    apply (mem_vanished.mp hs').2
    rw [hid]
    exact List.mem_map_of_mem hs
  rw [lookup_replay p.ids_nodup, if_neg hstays]
  by_cases hret : Retained s w.lists
  · -- nothing is announced for it, so the table keeps what it had
    have hcached : w.cache[s.name]? = some s := (hc.retained s.name s).mpr ⟨rfl, hret⟩
    have hsilent : ((announced w.cache p.fetched).find? fun s' => s'.id = s.id) = none := by
      rw [List.find?_eq_none]
      intro s' hs' hid
      obtain ⟨hmem, hne⟩ := List.mem_filter.mp hs'
      have hid : s'.id = s.id := of_decide_eq_true hid
      obtain rfl := List.inj_on_of_nodup_map p.ids_nodup hmem hs hid
      simp [hcached] at hne
    rw [hsilent, Option.none_or, h s.id, find?_eq_some_of_nodup hc.ids_nodup]
    exact ⟨fun hlast _ => hlast.1, fun hlast => ⟨hlast hret, rfl⟩⟩
  · have hnot : w.cache[s.name]? ≠ some s := fun hs => hret ((hc.retained s.name s).mp hs).2
    have hmem : s ∈ announced w.cache p.fetched := List.mem_filter.mpr ⟨hs, by simpa using hnot⟩
    have hfind : ((announced w.cache p.fetched).find? fun s' => s'.id = s.id) = some s :=
      (find?_eq_some_of_nodup hannounced).mpr ⟨hmem, rfl⟩
    rw [hfind, Option.some_or]
    exact iff_of_true rfl fun h => absurd h hret

theorem lookup_not_fetched (hc : w.Caches) (h : w.Exact)
    (hiter : p.iter.Perm (w.cache.toList.map (·.2))) {id : String}
    (hid : id ∉ p.fetched.map (·.id)) :
    ((diffServices p.iter w.cache p.fetched).foldl replay w.table)[id]? = none := by
  have hsilent : ((announced w.cache p.fetched).find? fun s => s.id = id) = none := by
    rw [List.find?_eq_none]
    intro s hs hsid
    apply hid
    rw [← of_decide_eq_true hsid]
    exact List.mem_map_of_mem (List.mem_of_mem_filter hs)
  rw [lookup_replay p.ids_nodup, hsilent, Option.none_or, ite_eq_left_iff, h id]
  intro hkept
  rw [List.find?_eq_none]
  intro s hs hsid
  have hsid : s.id = id := of_decide_eq_true hsid
  have hret : Retained s w.lists := by
    cases hl : w.lists with
    | nil => simp [hl] at hs
    | cons l older =>
      rw [hl] at hs
      exact .inl hs
  apply hkept
  rw [← hsid]
  exact List.mem_map_of_mem ((mem_vanished_iff hc hiter).mpr ⟨hret, by rwa [hsid]⟩)

/-- An exact table stays exact over a poll unless a service is renamed back. -/
theorem poll_exact_iff (hc : w.Caches) (h : w.Exact) (hpoll : w.poll p = some w') :
    ¬ RenamedBack w.lists p.fetched ↔ w'.Exact := by
  unfold poll at hpoll
  split_ifs at hpoll with hiter
  cases hpoll
  change _ ↔ ∀ id, ((diffServices p.iter w.cache p.fetched).foldl replay w.table)[id]? =
    p.fetched.find? fun s => s.id = id
  constructor
  · intro hback id
    by_cases hid : id ∈ p.fetched.map (·.id)
    · obtain ⟨s, hs, rfl⟩ := List.mem_map.mp hid
      have hfind : (p.fetched.find? fun s' => s'.id = s.id) = some s :=
        (find?_eq_some_of_nodup p.ids_nodup).mpr ⟨hs, rfl⟩
      rw [hfind, lookup_fetched hc h hs]
      intro hret
      by_contra hlast
      exact hback ⟨s, hs, hret, hlast⟩
    · rw [lookup_not_fetched hc h hiter hid, eq_comm, List.find?_eq_none]
      intro s hs hsid
      apply hid
      rw [← of_decide_eq_true hsid]
      exact List.mem_map_of_mem hs
  · rintro hexact ⟨s, hs, hret, hlast⟩
    have hfind : (p.fetched.find? fun s' => s'.id = s.id) = some s :=
      (find?_eq_some_of_nodup p.ids_nodup).mpr ⟨hs, rfl⟩
    have hheld := hexact s.id
    rw [hfind, lookup_fetched hc h hs] at hheld
    exact hlast (hheld hret)

omit [DecidableEq V] in
theorem caches_new : (new : Watch V).Caches := by
  constructor
  · intro name s
    simp [new, Retained]
  · simp [new]

omit [DecidableEq V] in
theorem exact_new : (new : Watch V).Exact := by
  intro id
  simp [new]

/-- A consumer that replays the events holds exactly the services of the last fetched list after
every poll, in exactly the runs in which no service is renamed back. -/
theorem table_exact_iff {polls : List (Poll V)} {t : Watch V} (hrun : run poll new polls = some t) :
    (∀ qs u, qs <+: polls → run poll new qs = some u → u.Exact) ↔
      RunAll poll (fun w p => ¬ RenamedBack w.lists p.fetched) new polls := by
  have hbefore := runAll_iff_prefixes (fun w : Watch V => w.Caches ∧ w.Exact)
    (c := fun w p => ¬ RenamedBack w.lists p.fetched)
    (fun w p w' hstep h => (poll_exact_iff h.1 h.2 hstep).trans
      (and_iff_right (poll_caches h.1 hstep)).symm) hrun ⟨caches_new, exact_new⟩
  rw [hbefore]
  refine forall_congr' fun qs => forall_congr' fun u => forall_congr' fun _ =>
    forall_congr' fun hu => ?_
  exact (and_iff_right (run_invariant Caches (fun _ _ _ hs h => poll_caches h hs) hu caches_new)).symm

def dialable (id name : String) : Service Unit := ⟨id, name, false, ["Dial"], (), []⟩

/-- A service, the same service renamed beside a new one of its former name, and a swap. -/
def renames : List (Poll Unit) :=
  [⟨[dialable "1" "a"], [], by decide, by decide⟩,
    ⟨[dialable "1" "b", dialable "2" "a"], [dialable "1" "a"], by decide, by decide⟩,
    ⟨[dialable "1" "a", dialable "2" "b"], [dialable "2" "a", dialable "1" "b"],
      by decide, by decide⟩]

/-- A service renamed and renamed back. -/
def renamesBack : List (Poll Unit) :=
  [⟨[dialable "1" "a"], [], by decide, by decide⟩,
    ⟨[dialable "1" "b"], [dialable "1" "a"], by decide, by decide⟩,
    ⟨[dialable "1" "a"], [dialable "1" "a", dialable "1" "b"], by decide, by decide⟩]

/-- After a rename the entry of the former name is in the cache too, and the list polled again
changes nothing. -/
theorem cache_exact_renamed : ∃ cache, run processStep ∅ [([], [dialable "1" "a"])] = some cache ∧
    let cache' := (processServices [dialable "1" "a"] cache [dialable "1" "b"]).2
    cache'["a"]? = some (dialable "1" "a") ∧ cache'["b"]? = some (dialable "1" "b") ∧
    ∀ iter', iter'.Perm (cache'.toList.map (·.2)) →
      processServices iter' cache' [dialable "1" "b"] = ([], cache') := by
  obtain ⟨cache, hrun, hcache⟩ := Option.map_eq_some_iff.mp
    (show (run processStep ∅ [([], [dialable "1" "a"])]).map (fun cache => (cache.toList.map (·.2),
        (processServices [dialable "1" "a"] cache [dialable "1" "b"]).2["a"]?)) =
      some ([dialable "1" "a"], some (dialable "1" "a")) by decide +kernel)
  have hiter : [dialable "1" "a"].Perm (cache.toList.map (·.2)) := by
    rw [show cache.toList.map (·.2) = [dialable "1" "a"] from congrArg Prod.fst hcache]
  have hnames : ([dialable "1" "b"].map (·.name)).Nodup := by decide
  obtain ⟨hheld, -, hagain⟩ := cache_exact hrun hiter hnames
  exact ⟨cache, hrun, congrArg Prod.snd hcache, hheld _ List.mem_cons_self, hagain⟩

theorem table_exact_iff_renames : ∃ t, run poll new renames = some t ∧ t.Exact := by
  have h (t : Watch Unit) (ht : run poll new renames = some t) : t.Exact :=
    (table_exact_iff ht).mpr (by decide +kernel) renames t List.prefix_rfl ht
  obtain ⟨t, ht⟩ := Option.isSome_iff_exists.mp
    (show (run poll new renames).isSome = true by decide +kernel)
  exact ⟨t, ht, h t ht⟩

/-- The entry of the former name was kept, so the service renamed back is not reported. -/
theorem renamed_back_not_reported : ∃ t, run poll new renamesBack = some t ∧
    t.lists.headD [] = [dialable "1" "a"] ∧ t.table["1"]? = some (dialable "1" "b") := by
  obtain ⟨t, ht, heq⟩ := Option.map_eq_some_iff.mp
    (show (run poll new renamesBack).map (fun t => (t.lists.headD [], t.table["1"]?)) =
      some ([dialable "1" "a"], some (dialable "1" "b")) by decide +kernel)
  exact ⟨t, ht, congrArg Prod.fst heq, congrArg Prod.snd heq⟩

end Watch

end Noa.Edge
