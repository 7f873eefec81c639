import Noa.Edge.ListenerManager.Passes
import Noa.Framework.Map

namespace Noa.Edge.ListenerManager
open Noa.Framework
open Noa.Framework.Program (lift)
open Noa.Edge.Client (SessionDetail SessionEdgeRouter parseTlsAddress)
open ListenAttempts (connectInProgressWindow)

section Log

def Entry.isPass : Entry → Bool
  | .pass _ => true
  | _ => false

def Entry.isSample : Entry → Bool
  | .sampled _ _ _ => true
  | _ => false

def Entry.isEmission : Entry → Bool
  | .emitted _ _ => true
  | _ => false

/-- A connect result for the url is among the entries. -/
def Handled (url : String) (log : List Entry) : Prop :=
  ∃ name, .pass (.connectResult url name) ∈ log

/-- In a scan that is still going on, the router was the last one sampled, and it had neither a
listener nor a mark. -/
def Sampling (session : SessionDetail) (filter : Option EdgeRouterUrlFilter)
    (edgeRouter : SessionEdgeRouter) (log since : List Entry) : Prop :=
  ∃ before skipped,
    log = before ++ .pass (.scan (some session) filter) :: skipped ++
      .sampled edgeRouter.name false false :: since ∧
    (∀ e ∈ skipped, e.isPass = false) ∧ ∀ e ∈ since, e.isPass = false ∧ e.isSample = false

/-- The url parses, and the filter in force, if there is one, has accepted it. -/
def Usable (filter : Option EdgeRouterUrlFilter) (url : String) (since : List Entry) : Prop :=
  (parseTlsAddress url).isOk = true ∧ ∀ f, filter = some f → .filtered f url true ∈ since

/-- What a request needs for being made after `log`. -/
def Grounded (log : List Entry) (request : ConnectRequest) : Prop :=
  ∃ session filter edgeRouter since, Sampling session filter edgeRouter log since ∧
    edgeRouter ∈ session.edgeRouters ∧ edgeRouter.name = request.routerName ∧
    request.routerUrl ∈ edgeRouter.supportedProtocols.map (·.2) ∧
    Usable filter request.routerUrl since

variable {log : List Entry} {e : Entry} {url : String}

/-- Every emission for the url so far has been answered, or is as old as the window at `now`. -/
def Idle (url : String) (now : Instant) (log : List Entry) : Prop :=
  ∀ before request startedAt after, log = before ++ .emitted request startedAt :: after →
    request.routerUrl = url → Handled url after ∨ startedAt + connectInProgressWindow ≤ now

/-- The emissions are spaced and grounded, and those not answered are on the ledger. -/
structure Paced (connects : Std.ExtTreeMap String Instant) (log : List Entry) : Prop where
  spaced : ∀ before request startedAt after, log = before ++ .emitted request startedAt :: after →
    Idle request.routerUrl startedAt before
  grounded : ∀ before request startedAt after, log = before ++ .emitted request startedAt :: after →
    Grounded before request
  covered : ∀ before request startedAt after, log = before ++ .emitted request startedAt :: after →
    Handled request.routerUrl after ∨
      ∃ start, connects[request.routerUrl]? = some start ∧ startedAt ≤ start

theorem append_singleton_split {α : Type*} {l before after : List α} {x y : α}
    (h : l ++ [y] = before ++ x :: after) :
    (l = before ∧ y = x ∧ after = []) ∨ ∃ after', l = before ++ x :: after' ∧ after = after' ++ [y] := by
  obtain rfl | ⟨after', z, rfl⟩ := after.eq_nil_or_concat'
  · obtain ⟨hl, hy⟩ := List.append_inj' h rfl
    exact .inl ⟨hl, List.singleton_injective hy, rfl⟩
  · rw [← List.cons_append, ← List.append_assoc] at h
    obtain ⟨hl, hy⟩ := List.append_inj' h rfl
    exact .inr ⟨after', hl, by rw [List.singleton_injective hy]⟩

theorem Handled.append (h : Handled url log) (es : List Entry) : Handled url (log ++ es) := by
  obtain ⟨name, hname⟩ := h
  exact ⟨name, List.mem_append_left _ hname⟩

variable {connects : Std.ExtTreeMap String Instant} {now : Instant}

theorem Idle.mono {now' : Instant} (h : Idle url now log) (hle : now ≤ now') : Idle url now' log :=
  fun before request startedAt after hlog hurl =>
    (h before request startedAt after hlog hurl).imp_right fun ht => ht.trans hle

theorem paced_nil : Paced connects [] := by
  constructor <;> intro before request startedAt after h <;> simp at h

theorem Paced.append (h : Paced connects log) (he : e.isEmission = false) :
    Paced connects (log ++ [e]) := by
  constructor <;> intro before request startedAt after hlog <;>
    obtain ⟨-, rfl, -⟩ | ⟨after', hpre, rfl⟩ := append_singleton_split hlog
  · cases he
  · exact h.spaced before request startedAt after' hpre
  · cases he
  · exact h.grounded before request startedAt after' hpre
  · cases he
  · exact (h.covered before request startedAt after' hpre).imp_left fun hh => hh.append [e]

theorem Paced.idle {t : ListenAttempts} (h : Paced t.connects log)
    (hnot : t.connectInProgress url now = false) : Idle url now log := by
  rintro before request startedAt after hlog rfl
  obtain hh | ⟨start, hstart, hle⟩ := h.covered before request startedAt after hlog
  · exact .inl hh
  · right
    simp only [ListenAttempts.connectInProgress, hstart, Option.any_some, decide_eq_false_iff_not,
      not_lt] at hnot
    have hpos : 0 < connectInProgressWindow := by decide
    have hlt : start < now := Nat.lt_of_sub_pos (hpos.trans_le hnot)
    calc startedAt + connectInProgressWindow
      _ ≤ start + (now - start) := Nat.add_le_add hle hnot
      _ = now := Nat.add_sub_cancel' hlt.le

theorem Paced.mark (h : Paced connects log) (hidle : Idle url now log) :
    Paced (connects.insert url now) log := by
  refine ⟨h.spaced, h.grounded, fun before request startedAt after hlog => ?_⟩
  rw [lookup_insert]
  split_ifs with hurl
  · obtain hh | hle := hidle before request startedAt after hlog hurl.symm
    · exact .inl (hurl ▸ hh)
    · exact .inr ⟨now, rfl, le_of_add_le_left hle⟩
  · exact h.covered before request startedAt after hlog

theorem Paced.emit {request : ConnectRequest} {startedAt : Instant} (h : Paced connects log)
    (hidle : Idle request.routerUrl startedAt log) (hground : Grounded log request)
    (hmark : connects[request.routerUrl]? = some startedAt) :
    Paced connects (log ++ [.emitted request startedAt]) := by
  constructor <;> intro before request' startedAt' after hlog <;>
    obtain ⟨rfl, heq, rfl⟩ | ⟨after', hpre, rfl⟩ := append_singleton_split hlog
  · cases heq
    exact hidle
  · exact h.spaced before request' startedAt' after' hpre
  · cases heq
    exact hground
  · exact h.grounded before request' startedAt' after' hpre
  · cases heq
    exact .inr ⟨startedAt, hmark, le_rfl⟩
  · exact (h.covered before request' startedAt' after' hpre).imp_left fun hh => hh.append _

theorem Paced.clear (h : Paced connects log)
    (hhandled : ∀ before request startedAt after, log = before ++ .emitted request startedAt :: after →
      request.routerUrl = url → Handled url after) : Paced (connects.erase url) log := by
  refine ⟨h.spaced, h.grounded, fun before request startedAt after hlog => ?_⟩
  rw [lookup_erase]
  split_ifs with hurl
  · exact .inl (hurl ▸ hhandled before request startedAt after hlog hurl.symm)
  · exact h.covered before request startedAt after hlog

variable {session : SessionDetail} {filter : Option EdgeRouterUrlFilter}
  {edgeRouter : SessionEdgeRouter} {since : List Entry}

theorem Sampling.append (h : Sampling session filter edgeRouter log since) (hpass : e.isPass = false)
    (hsample : e.isSample = false) :
    Sampling session filter edgeRouter (log ++ [e]) (since ++ [e]) := by
  obtain ⟨before, skipped, rfl, hskipped, hsince⟩ := h
  refine ⟨before, skipped, by simp, hskipped, fun e' he' => ?_⟩
  obtain he' | he' := List.mem_append.mp he'
  · exact hsince e' he'
  · rw [List.mem_singleton.mp he']
    exact ⟨hpass, hsample⟩

end Log

section Passes

variable {s s' : Manager} {session : SessionDetail} {filter : Option EdgeRouterUrlFilter}
  {edgeRouter : SessionEdgeRouter} {maxTerminators : MaxTerminators} {url : String}

def PacedIn (s : Manager) : Prop := Paced s.attempts.connects s.log

theorem stable_owned (P : ListenAttempts → List Entry → Instant → Prop) :
    runtime.Stable fun s => P s.attempts s.log s.clock := by
  intro e s s' he h
  cases e with
  | register a | giveUp a =>
    simp only [runtime, ListenerEvent.apply] at he
    split_ifs at he
    cases he
    exact h
  | close a =>
    cases he
    exact h
  | closeParent =>
    cases he
    exact h

theorem stable_pacedIn : runtime.Stable PacedIn := stable_owned fun t log _ => Paced t.connects log

/-- The scan of the session is going on. -/
def Scanning (session : SessionDetail) (filter : Option EdgeRouterUrlFilter) (log : List Entry) :
    Prop :=
  ∃ before since, log = before ++ .pass (.scan (some session) filter) :: since ∧
    ∀ e ∈ since, e.isPass = false

theorem Sampling.scanning {log since : List Entry} (h : Sampling session filter edgeRouter log since) :
    Scanning session filter log := by
  obtain ⟨before, skipped, rfl, hskipped, hsince⟩ := h
  refine ⟨before, skipped ++ .sampled edgeRouter.name false false :: since, by simp, ?_⟩
  intro e he
  obtain he | he := List.mem_append.mp he
  · exact hskipped e he
  · obtain rfl | he := List.mem_cons.mp he
    · rfl
    · exact (hsince e he).1

theorem guarded_needsMore_of_stable {A : Manager → Prop} (hA : runtime.Stable A)
    (hinv : ∀ s, A s → PacedIn s) (hs : A s) :
    Guarded runtime PacedIn (fun _ => A) (needsMore maxTerminators) s := by
  refine Guarded.call hA hs fun s₁ h₁ x r hx => ?_
  cases hx
  refine ⟨hinv s₁ h₁, Guarded.call hA h₁ fun s₂ h₂ x r hx => ?_⟩
  cases hx
  refine ⟨hinv s₂ h₂, Guarded.call hA h₂ fun s₃ h₃ x r hx => ?_⟩
  cases hx
  exact ⟨hinv s₃ h₃, h₃⟩

/-- While the urls of a sampled router are gone through. -/
def InRouter (session : SessionDetail) (filter : Option EdgeRouterUrlFilter)
    (edgeRouter : SessionEdgeRouter) (t : ListenAttempts) (log : List Entry) : Prop :=
  Paced t.connects log ∧ ∃ since, Sampling session filter edgeRouter log since

/-- And the url at hand may be used. -/
def AtUrl (session : SessionDetail) (filter : Option EdgeRouterUrlFilter)
    (edgeRouter : SessionEdgeRouter) (url : String) (t : ListenAttempts) (log : List Entry) : Prop :=
  Paced t.connects log ∧
    ∃ since, Sampling session filter edgeRouter log since ∧ Usable filter url since

theorem AtUrl.inRouter {t : ListenAttempts} {log : List Entry}
    (h : AtUrl session filter edgeRouter url t log) : InRouter session filter edgeRouter t log := by
  obtain ⟨hp, since, hs, -⟩ := h
  exact ⟨hp, since, hs⟩

theorem guarded_isUrlUsable (url : String) (hs : InRouter session filter edgeRouter s.attempts s.log) :
    Guarded runtime PacedIn
      (fun usable s' => InRouter session filter edgeRouter s'.attempts s'.log ∧
        (usable = true → AtUrl session filter edgeRouter url s'.attempts s'.log))
      (isUrlUsable filter url) s := by
  unfold isUrlUsable isEdgeRouterUrlAccepted
  split_ifs with hparse
  · cases filter with
    | none =>
      obtain ⟨hp, since, hsampling⟩ := hs
      exact ⟨⟨hp, since, hsampling⟩, fun _ => ⟨hp, since, hsampling, hparse, nofun⟩⟩
    | some f =>
      refine Guarded.call (stable_owned fun t log _ => InRouter session (some f) edgeRouter t log) hs ?_
      rintro s₁ ⟨hp, since, hsampling⟩ x r hx
      simp only [runtime, Cmd.exec] at hx
      split at hx
      · next accepted =>
        cases hx
        have hp' : Paced s₁.attempts.connects (s₁.log ++ [.filtered f url accepted]) := hp.append rfl
        have hsampling' := hsampling.append (e := .filtered f url accepted) rfl rfl
        refine ⟨hp', ⟨hp', _, hsampling'⟩, ?_⟩
        rintro rfl
        refine ⟨hp', _, hsampling', hparse, fun g hg => ?_⟩
        obtain rfl := Option.some.inj hg
        exact List.mem_append_right _ (List.mem_singleton.mpr rfl)
      · cases hx
  · exact ⟨hs, nofun⟩

theorem exec_now {x : Choice} {r : Instant × Manager} (hx : runtime.exec .now x s = some r) :
    ∃ now, r = (now, { s with clock := now }) ∧ s.clock ≤ now := by
  simp only [runtime, Cmd.exec] at hx
  split at hx
  · split_ifs at hx with hle
    exact ⟨_, (Option.some.inj hx).symm, hle⟩
  · cases hx

theorem guarded_emit {β : Type} {k : Proc β} {post : β → Manager → Prop}
    (hrouter : edgeRouter ∈ session.edgeRouters)
    (hurl : url ∈ edgeRouter.supportedProtocols.map (·.2)) {now : Instant}
    (hs : AtUrl session filter edgeRouter url s.attempts s.log ∧ Idle url now s.log ∧ now ≤ s.clock)
    (hk : ∀ s', InRouter session filter edgeRouter s'.attempts s'.log →
      Guarded runtime PacedIn post k s') :
    Guarded runtime PacedIn post (.call .now fun startedAt =>
      .call (.markConnectStarted url startedAt) fun _ =>
        .call (.emit ⟨edgeRouter.name, url⟩ startedAt) fun _ => k) s := by
  refine Guarded.call (stable_owned fun t log clock => AtUrl session filter edgeRouter url t log ∧
    Idle url now log ∧ now ≤ clock) hs ?_
  rintro s₁ ⟨hat, hidle, hclock⟩ x r hx
  obtain ⟨startedAt, rfl, hle⟩ := exec_now hx
  have hidle' : Idle url startedAt s₁.log := hidle.mono (hclock.trans hle)
  refine ⟨hat.1, Guarded.call (stable_owned fun t log _ =>
    AtUrl session filter edgeRouter url t log ∧ Idle url startedAt log) ⟨hat, hidle'⟩ ?_⟩
  rintro s₂ ⟨⟨hp, hat⟩, hidle⟩ x r hx
  cases hx
  have hp' : Paced (s₂.attempts.connects.insert url startedAt) s₂.log := hp.mark hidle
  refine ⟨hp', Guarded.call (stable_owned fun t log _ =>
    AtUrl session filter edgeRouter url t log ∧ Idle url startedAt log ∧
      t.connects[url]? = some startedAt) ⟨⟨hp', hat⟩, hidle, ?_⟩ ?_⟩
  · change (s₂.attempts.connects.insert url startedAt)[url]? = some startedAt
    rw [lookup_insert, if_pos rfl]
  · rintro s₃ ⟨⟨hp, since, hsampling, husable⟩, hidle, hmark⟩ x r hx
    cases hx
    have hp' : Paced s₃.attempts.connects (s₃.log ++ [.emitted ⟨edgeRouter.name, url⟩ startedAt]) :=
      hp.emit hidle ⟨session, filter, edgeRouter, since, hsampling, hrouter, rfl, hurl, husable⟩ hmark
    exact ⟨hp', hk _ ⟨hp', _, hsampling.append rfl rfl⟩⟩

theorem guarded_scanUrls (hrouter : edgeRouter ∈ session.edgeRouters) {urls : List String}
    (hurls : ∀ url ∈ urls, url ∈ edgeRouter.supportedProtocols.map (·.2))
    (requests : List ConnectRequest) (hs : InRouter session filter edgeRouter s.attempts s.log) :
    Guarded runtime PacedIn (fun _ s' => InRouter session filter edgeRouter s'.attempts s'.log)
      (scanUrls filter maxTerminators edgeRouter.name urls requests) s := by
  induction urls generalizing requests s with
  | nil => exact hs
  | cons url urls ih =>
    have hrest := fun url' h => hurls url' (List.mem_cons_of_mem url h)
    simp only [scanUrls, Program.lift_bind]
    refine Guarded.bind (WP.mono (guarded_isUrlUsable url hs) ?_)
    rintro usable s₁ ⟨hin, hat⟩
    split_ifs with husable
    · refine Guarded.call (stable_owned fun t log _ => AtUrl session filter edgeRouter url t log)
        (hat husable) ?_
      rintro s₂ hat x r hx
      obtain ⟨now, rfl, -⟩ := exec_now hx
      refine ⟨hat.1, Guarded.call (stable_owned fun t log clock =>
        AtUrl session filter edgeRouter url t log ∧ now ≤ clock) ⟨hat, le_rfl⟩ ?_⟩
      rintro s₃ ⟨hat, hclock⟩ x r hx
      cases hx
      refine ⟨hat.1, ?_⟩
      split_ifs with hprogress
      · exact ih hrest requests hat.inRouter
      · have hidle := hat.1.idle (Bool.eq_false_iff.mpr hprogress)
        refine guarded_emit hrouter (hurls url List.mem_cons_self) ⟨hat, hidle, hclock⟩ fun s₄ hin => ?_
        refine Guarded.bind (WP.mono (guarded_needsMore_of_stable (stable_owned fun t log _ =>
          InRouter session filter edgeRouter t log) (fun _ h => h.1) hin) ?_)
        intro more s₅ hin
        split_ifs
        · exact ih hrest _ hin
        · exact hin
    · exact ih hrest requests hin

/-- While routers are gone through. -/
def InScan (session : SessionDetail) (filter : Option EdgeRouterUrlFilter) (t : ListenAttempts)
    (log : List Entry) : Prop :=
  Paced t.connects log ∧ Scanning session filter log

theorem guarded_scanRouters {edgeRouters : List SessionEdgeRouter}
    (hrouters : ∀ er ∈ edgeRouters, er ∈ session.edgeRouters) (requests : List ConnectRequest)
    (hs : InScan session filter s.attempts s.log) :
    Guarded runtime PacedIn (fun _ _ => True)
      (scanRouters filter maxTerminators edgeRouters requests) s := by
  induction edgeRouters generalizing requests s with
  | nil => trivial
  | cons edgeRouter edgeRouters ih =>
    have hrest := fun er h => hrouters er (List.mem_cons_of_mem edgeRouter h)
    simp only [scanRouters, Program.lift_bind]
    refine Guarded.call (stable_owned fun t log _ => InScan session filter t log) hs ?_
    rintro s₁ ⟨hp, before, skipped, hlog, hskipped⟩ x r hx
    cases hx
    -- the sample is what the skip predicate is about to look at
    let sample : Entry := .sampled edgeRouter.name (s₁.hasListenerForRouter edgeRouter.name)
      (s₁.attempts.isPending edgeRouter.name)
    have hp' : Paced s₁.attempts.connects (s₁.log ++ [sample]) := hp.append rfl
    refine ⟨hp', Guarded.call (stable_owned fun t log _ =>
      t = s₁.attempts ∧ log = s₁.log ++ [sample]) ⟨rfl, rfl⟩ ?_⟩
    rintro s₂ ⟨ht, hlog₂⟩ x r hx
    cases hx
    have hp₂ : PacedIn s₂ := by
      rw [PacedIn, ht, hlog₂]
      exact hp'
    refine ⟨hp₂, ?_⟩
    split_ifs with hskip
    · refine ih hrest requests ⟨hp₂, before, skipped ++ [sample], ?_, ?_⟩
      · rw [hlog₂, hlog, List.append_assoc, List.cons_append]
      · intro e he
        obtain he | he := List.mem_append.mp he
        · exact hskipped e he
        · rw [List.mem_singleton.mp he]
          rfl
    · rw [ht] at hskip
      simp only [ListenAttempts.shouldSkipRouter, Bool.or_eq_true, not_or, Bool.not_eq_true] at hskip
      have hsample : sample = .sampled edgeRouter.name false false := by
        simp only [sample, hskip]
      have hsampling : Sampling session filter edgeRouter s₂.log [] := by
        refine ⟨before, skipped, ?_, hskipped, nofun⟩
        rw [hlog₂, hlog, hsample]
      refine Guarded.bind (WP.mono (guarded_scanUrls (hrouters edgeRouter List.mem_cons_self)
        (fun _ h => h) requests ⟨hp₂, [], hsampling⟩) ?_)
      rintro ⟨more, requests'⟩ s₃ ⟨hp₃, since, hsampling⟩
      cases more with
      | true => exact ih hrest requests' ⟨hp₃, hsampling.scanning⟩
      | false => trivial

/-- The commands that leave the starts alone and emit nothing. -/
def Cmd.keepsPace {β : Type} : Cmd β → Bool
  | .markConnectStarted _ _ | .emit _ _ | .clearConnect _ => false
  | _ => true

theorem exec_pacedIn {β : Type} {c : Cmd β} {x : Choice} {r : β × Manager}
    (hc : c.keepsPace = true) (hs : PacedIn s) (hx : runtime.exec c x s = some r) : PacedIn r.2 := by
  change c.exec x s = some r at hx
  cases c with
  | now =>
    obtain ⟨now, rfl, -⟩ := exec_now hx
    exact hs
  | filter f url =>
    simp only [Cmd.exec] at hx
    split at hx
    · cases hx
      exact hs.append rfl
    · cases hx
  | hasListenerForRouter name =>
    cases hx
    exact hs.append rfl
  | markConnectStarted | emit | clearConnect => cases hc
  | nextAttemptId =>
    obtain ⟨⟨id, t'⟩, hid, rfl⟩ := Option.map_eq_some_iff.mp hx
    unfold ListenAttempts.nextAttemptId at hid
    split_ifs at hid
    cases hid
    exact hs
  | clearPendingIfCurrent router id =>
    cases hx
    change Paced (s.attempts.clearPendingIfCurrent router id).connects s.log
    unfold ListenAttempts.clearPendingIfCurrent
    split_ifs <;> exact hs
  | _ =>
    cases hx
    exact hs

abbrev KeepsPace (γ : Type) (c : Cmd γ) : Prop := c.keepsPace = true

theorem guarded_of_keepsPace {p : Proc Unit} (hp : p.Issues KeepsPace) (hs : PacedIn s) :
    Guarded runtime PacedIn (fun _ _ => True) p s :=
  WP.mono (Guarded.of_issues stable_pacedIn (fun _ h => h)
    (fun _ hc _ _ _ hs hx => exec_pacedIn hc hs hx) hp hs) fun _ _ _ => trivial

theorem keepsPace_connectResult (maxTerminators : MaxTerminators) (routerUrl : String)
    (connectedRouterName : Option String) :
    ∃ k, Pass.prog maxTerminators (.connectResult routerUrl connectedRouterName) =
      .call (.clearConnect routerUrl) k ∧ ∀ b, (k b).Issues KeepsPace := by
  cases connectedRouterName with
  | none => exact ⟨_, rfl, fun _ => trivial⟩
  | some routerName =>
    refine ⟨_, rfl, fun _ => ?_⟩
    refine Program.Issues.bind (.call rfl fun hasListener => .call rfl fun skip => ?_) ?_
    · change Program.Issues KeepsPace (if skip = true then _ else _)
      split_ifs
      · trivial
      · refine Program.Issues.bind (.call rfl fun _ => .call rfl fun _ => .call rfl fun _ => trivial) ?_
        intro more
        split_ifs
        · exact .call rfl fun _ => .call rfl fun _ => trivial
        · trivial
    · rintro (_ | id)
      · trivial
      · exact .call rfl fun _ => trivial

theorem guarded_paced (p : Pass) (hs : PacedIn s) (harr : p.arrives s = some s') :
    PacedIn s' ∧ Guarded runtime PacedIn (fun _ _ => True) (p.prog maxTerminators) s' := by
  have hrecord : PacedIn (s.record (.pass p)) := hs.append rfl
  cases p with
  | scan session filter =>
    cases harr
    refine ⟨hrecord, Guarded.bind ?_⟩
    change Guarded runtime PacedIn (fun _ _ => True) _ _
    cases session with
    | none => trivial
    | some session =>
      have hscan : InScan session filter (s.record (.pass (.scan (some session) filter))).attempts
          (s.record (.pass (.scan (some session) filter))).log :=
        ⟨hrecord, s.log, [], rfl, nofun⟩
      refine Guarded.bind (WP.mono (guarded_needsMore_of_stable (stable_owned fun t log _ =>
        InScan session filter t log) (fun _ h => h.1) hscan) ?_)
      intro more s₁ hscan
      split_ifs
      · exact guarded_scanRouters (fun _ h => h) [] hscan
      · trivial
  | connectResult routerUrl connectedRouterName =>
    cases harr
    obtain ⟨k, hprog, hk⟩ := keepsPace_connectResult maxTerminators routerUrl connectedRouterName
    rw [hprog]
    refine ⟨hrecord, Guarded.call (stable_owned fun t log _ => Paced t.connects log ∧
      log = s.log ++ [.pass (.connectResult routerUrl connectedRouterName)]) ⟨hrecord, rfl⟩ ?_⟩
    rintro s₁ ⟨hp, hlog⟩ x r hx
    cases hx
    have hp' : Paced (s₁.attempts.connects.erase routerUrl) s₁.log := by
      refine hp.clear fun before request startedAt after hsplit hurl => ?_
      rw [hlog] at hsplit
      obtain ⟨-, heq, -⟩ | ⟨after', -, rfl⟩ := append_singleton_split hsplit
      · cases heq
      · exact ⟨connectedRouterName, List.mem_append_right _ (List.mem_singleton.mpr rfl)⟩
    exact ⟨hp', guarded_of_keepsPace (hk ()) hp'⟩
  | listenSuccess a | listenFailed a =>
    simp only [Pass.arrives] at harr
    split_ifs at harr
    cases harr
    exact ⟨hrecord, guarded_of_keepsPace (.call rfl fun _ => trivial) hrecord⟩

theorem run_paced {as : List Act} {l : Loop Cmd Manager}
    (hrun : run (step maxTerminators) start as = some l) : PacedIn l.state :=
  have hnew : PacedIn .new := paced_nil
  Loop.run_inv stable_pacedIn (fun p _ _ hs harr => guarded_paced p hs harr) hnew hrun

theorem connects_spaced (maxTerminators : MaxTerminators) {as : List Act} {l : Loop Cmd Manager}
    (hrun : run (step maxTerminators) start as = some l) :
    (∀ before request₁ startedAt₁ between request₂ startedAt₂ after,
      l.state.log = before ++ .emitted request₁ startedAt₁ :: between ++
        .emitted request₂ startedAt₂ :: after →
      request₁.routerUrl = request₂.routerUrl →
      Handled request₁.routerUrl between ∨ startedAt₁ + 30 * 10 ^ 9 ≤ startedAt₂) ∧
    ∀ before request startedAt after,
      l.state.log = before ++ .emitted request startedAt :: after → Grounded before request := by
  have hp := run_paced hrun
  refine ⟨?_, hp.grounded⟩
  intro before request₁ startedAt₁ between request₂ startedAt₂ after hlog hurl
  have hidle := hp.spaced _ request₂ startedAt₂ after hlog before request₁ startedAt₁ between rfl hurl
  rw [← hurl] at hidle
  exact hidle

def twoRouters : SessionDetail where
  id := "s"
  token := "t"
  serviceId := "svc"
  sessionType := .bind
  apiSessionId := ""
  identityId := ""
  edgeRouters :=
    [⟨"r1", "", [("tls", "tls:a:1"), ("ws", "tls:a:1")]⟩, ⟨"r2", "", [("tls", "tls:a:1")]⟩]

/-- A scan at one instant that emits the url for its first router and finds it in progress twice. -/
def scanActs (t : Instant) : List Act :=
  [.start (.scan (some twoRouters) (some 0)), .go .done, .go .done, .go .done, .go .done, .go .done,
    .go (.answers true), .go (.reads t), .go .done, .go (.reads t), .go .done, .go .done,
    .go .done, .go .done, .go .done, .go (.answers true), .go (.reads t), .go .done,
    .go .done, .go .done, .go (.answers true), .go (.reads t), .go .done]

def Entry.startedAt : Entry → Option Instant
  | .emitted _ startedAt => some startedAt
  | _ => none

/-- Two scans thirty seconds apart, of a url listed three times. -/
theorem connects_spaced_scans :
    ∃ l, run (step default) start (scanActs 5 ++ scanActs (5 + 30 * 10 ^ 9)) = some l ∧
      l.state.log.filterMap Entry.startedAt = [5, 5 + 30 * 10 ^ 9] ∧
      ∀ before request startedAt after,
        l.state.log = before ++ .emitted request startedAt :: after → Grounded before request := by
  obtain ⟨l, hl, h⟩ := Option.map_eq_some_iff.mp
    (show (run (step default) start (scanActs 5 ++ scanActs (5 + 30 * 10 ^ 9))).map
      (fun l => l.state.log.filterMap Entry.startedAt) = some [5, 5 + 30 * 10 ^ 9] by decide +kernel)
  exact ⟨l, hl, h, (connects_spaced default hl).2⟩

end Passes

end Noa.Edge.ListenerManager
