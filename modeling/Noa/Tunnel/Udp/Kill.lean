import Noa.Tunnel.Udp.Relay
import Noa.Tunnel.Intercept.SpliceKill

namespace Noa.Tunnel.Udp
open Noa.Framework Noa.Channel Noa.Edge Noa.Edge.Data

/-- The writer's moves once the token is cancelled: it finishes a write call, and returns. -/
def Writer.killRank : Writer → Nat
  | .returned => 0
  | .select | .drain _ => 1
  | .writing | .draining _ => 2

theorem Writer.Resumes.killRank {w w' : Writer} (h : w.Resumes w') : w'.killRank < w.killRank := by
  cases h <;> exact Nat.lt_succ_self 1

namespace Vconn

variable {K D : Type} {C : Crypto} {v v' : Vconn K D C} {p : Pumps C} {o : Overlay C} {a : TaskAct C}

/-- The frames of a vconn's connection, as long as its writes succeed. -/
inductive Framed (v : Vconn K D C) : Prop
  | unconnected (ht : v.task.overlay = none)
  | pumping {p : Pumps C} (ht : v.task = .pumping p) (hwhole : p.overlay.Whole)
      (hopen : p.overlay.Open)
  | shut {o : Overlay C} (ht : v.task = .closing o ∨ v.task = .ended (some o)) (hwhole : o.Whole)
      (hshut : o.Shut)

theorem Framed.pumps (h : v.Framed) (ht : v.task = .pumping p) :
    p.overlay.Whole ∧ p.overlay.Open := by
  cases h with
  | unconnected hnone =>
    rw [ht] at hnone
    cases hnone
  | pumping ht' hwhole hopen =>
    cases ht.symm.trans ht'
    exact ⟨hwhole, hopen⟩
  | shut ht' => rcases ht' with ht' | ht' <;> cases ht.symm.trans ht'

theorem Framed.closes (h : v.Framed) (ht : v.task = .closing o) : o.Whole ∧ o.Shut := by
  cases h with
  | unconnected hnone =>
    rw [ht] at hnone
    cases hnone
  | pumping ht' => cases ht.symm.trans ht'
  | shut ht' hwhole hshut =>
    rcases ht' with ht' | ht'
    · cases ht.symm.trans ht'
      exact ⟨hwhole, hshut⟩
    · cases ht.symm.trans ht'

theorem Framed.turn (h : v.Framed) (hb : v.Books) (ha : a ≠ .wrote false) (ht : v.Turn a v') :
    v'.Framed := by
  cases ht with
  | dialed => exact .pumping rfl rfl (List.forall_mem_nil _)
  | dialFailed => exact .unconnected rfl
  | told ht _ ho | listens ht _ _ _ _ ho | readerReturns ht _ ho =>
    obtain ⟨hwhole, hopen⟩ := h.pumps ht
    exact .pumping rfl (hwhole.heard ho) (hopen.heard ho)
  | readerLoops ht | writerReturns ht | drains ht =>
    obtain ⟨hwhole, hopen⟩ := h.pumps ht
    exact .pumping rfl hwhole hopen
  | panics ht _ hk => exact absurd (hb.pumps ht).keyed hk
  | forwards ht _ _ hw ho | refused ht _ _ hw ho =>
    obtain ⟨hwhole, hopen⟩ := h.pumps ht
    have hidle := (hb.pumps ht).idle hw.inCall
    exact .pumping rfl (hwhole.write hidle ho) (hopen.write ho)
  | wrote ht _ ho =>
    obtain ⟨hwhole, hopen⟩ := h.pumps ht
    refine .pumping rfl (hwhole.finish ho).1 ?_
    unfold Overlay.Open
    rw [Overlay.begun_finish ho]
    exact hopen
  | broke => exact absurd rfl ha
  | joins ht _ hw =>
    obtain ⟨hwhole, hopen⟩ := h.pumps ht
    have hidle := (hb.pumps ht).idle (by rw [hw]; rfl)
    exact .shut (.inl rfl) (hwhole.close hidle _) (hopen.close _)
  | @closes ok o o' ht ho =>
    obtain ⟨hwhole, hshut⟩ := h.closes ht
    cases ok with
    | false => exact absurd rfl ha
    | true =>
      refine .shut (.inr rfl) (hwhole.finish ho).1 ?_
      unfold Overlay.Shut at hshut ⊢
      rw [Overlay.begun_finish ho]
      exact hshut
  | cancelled =>
    cases h with
    | unconnected ht => exact .unconnected ht
    | pumping ht hwhole hopen => exact .pumping ht hwhole hopen
    | shut ht hwhole hshut => exact .shut ht hwhole hshut

/-- The data of the write calls a vconn has made. -/
def calls (v : Vconn K D C) : List Bytes := (v.task.overlay.map Overlay.calls).getD []

/-- No frame of data has been handed to the channel. -/
def Mute (v : Vconn K D C) : Prop :=
  ∀ o, v.task.overlay = some o → ∀ m ∈ o.begun, isData m = false

theorem calls_pumping (ht : v.task = .pumping p) : v.calls = p.overlay.calls := by
  rw [calls, ht]
  rfl

theorem Mute.pumps (h : v.Mute) (ht : v.task = .pumping p) :
    ∀ m ∈ p.overlay.begun, isData m = false :=
  h p.overlay (by rw [ht]; rfl)

theorem mute_pump (v : Vconn K D C) (h : ∀ m ∈ p.overlay.begun, isData m = false) :
    (v.pump p).Mute := by
  intro o ho
  cases ho
  exact h

theorem killed_turn (hkill : v.kill = true) (hb : v.Books) (ht : v.Turn a v') :
    v'.calls = v.calls ∧ (v.Mute → v'.Mute) := by
  have hpump {p p' : Pumps C} (ht : v.task = .pumping p) (hv : v'.task = .pumping p')
      (hcalls : p'.overlay.calls = p.overlay.calls)
      (hbegun : p'.overlay.begun = p.overlay.begun) :
      v'.calls = v.calls ∧ (v.Mute → v'.Mute) := by
    refine ⟨by rw [calls_pumping ht, calls_pumping hv, hcalls], fun h o ho => ?_⟩
    rw [hv] at ho
    cases ho
    rw [hbegun]
    exact h.pumps ht
  cases ht with
  | @dialed connId keys ht =>
    refine ⟨?_, fun _ => mute_pump v (List.forall_mem_nil _)⟩
    rw [calls, calls, ht]
    rfl
  | dialFailed ht =>
    refine ⟨?_, fun _ o ho => by cases ho⟩
    rw [calls, calls, ht]
    rfl
  | told ht _ ho | readerReturns ht _ ho => exact hpump ht rfl ho.calls ho.begun
  | readerLoops ht | writerReturns ht => exact hpump ht rfl rfl rfl
  | panics ht _ hk => exact absurd (hb.pumps ht).keyed hk
  | listens _ hk | drains _ _ hk | forwards _ hk | refused _ hk => cases hkill.symm.trans hk
  | wrote ht _ ho | broke ht _ ho =>
    exact hpump ht rfl (Overlay.calls_finish ho) (Overlay.begun_finish ho)
  | @joins seq p ht =>
    obtain ⟨msg, heq, hclose⟩ := p.overlay.close_eq seq
    rw [heq]
    refine ⟨by rw [calls_pumping ht]; rfl, fun h o ho => ?_⟩
    cases ho
    exact List.forall_mem_append.mpr ⟨h.pumps ht,
      List.forall_mem_singleton.mpr (Overlay.not_isData_of_stateClosed hclose)⟩
  | @closes ok o o' ht ho =>
    have hcalls : v.calls = o.calls := by rw [calls, ht]; rfl
    refine ⟨(Overlay.calls_finish ho).trans hcalls.symm, fun h u hu => ?_⟩
    cases hu
    rw [Overlay.begun_finish ho]
    exact h o (by rw [ht]; rfl)
  | cancelled => exact ⟨rfl, id⟩

/-- The moves a vconn has before it once it is killed. -/
def killRank (v : Vconn K D C) : Nat :=
  match v.task with
  | .pumping p => p.writer.killRank + p.reader.rank + 2
  | .closing _ => 1
  | _ => 0

theorem killRank_pumping (ht : v.task = .pumping p) :
    v.killRank = p.writer.killRank + p.reader.rank + 2 := by
  rw [killRank, ht]

theorem Stops.killRank (h : v.Stops p) : p.writer.killRank = 1 := by
  rcases h with ⟨-, hw | ⟨left, hw⟩⟩ | ⟨hw⟩ | ⟨hw⟩ | ⟨hw⟩ <;> rw [hw] <;> rfl

theorem Reader.rank_pos {r : Reader} (h : r ≠ .returned) : 0 < r.rank := by
  cases r with
  | returned => exact absurd rfl h
  | select | sending pieces => exact Nat.succ_pos _

/-- Once it is killed, every move of an established vconn's own brings it nearer to its end. -/
theorem killRank_turn (hkill : v.kill = true) (hb : v.Books) (hconn : v.task.overlay.isSome = true)
    (ht : v.Turn a v') : v'.task.overlay.isSome = true ∧
      (if a.own then 1 else 0) + v'.killRank ≤ v.killRank := by
  have hpump {p p' : Pumps C} (n : Nat) (hn : (if a.own then 1 else 0) ≤ n)
      (ht : v.task = .pumping p) (hv : v'.task = .pumping p')
      (hle : n + (p'.writer.killRank + p'.reader.rank) ≤ p.writer.killRank + p.reader.rank) :
      v'.task.overlay.isSome = true ∧ (if a.own then 1 else 0) + v'.killRank ≤ v.killRank := by
    refine ⟨by rw [hv]; rfl, ?_⟩
    rw [killRank_pumping ht, killRank_pumping hv]
    omega
  cases ht with
  | dialed ht | dialFailed ht =>
    rw [ht] at hconn
    cases hconn
  | told ht ha =>
    refine hpump 0 ?_ ht rfl (Nat.le_of_eq (Nat.zero_add _))
    rcases ha with ⟨_, rfl⟩ | rfl <;> exact Nat.le_refl 0
  | readerLoops ht hr =>
    refine hpump 1 (Nat.le_refl 1) ht rfl ?_
    rw [hr]
    exact Nat.le_of_eq (Nat.add_left_comm 1 _ 1)
  | readerReturns ht hp =>
    have hpos := Reader.rank_pos hp
    refine hpump 1 (Nat.le_refl 1) ht rfl ?_
    have hzero : Reader.rank .returned = 0 := rfl
    dsimp only
    omega
  | panics ht _ hk => exact absurd (hb.pumps ht).keyed hk
  | writerReturns ht hs =>
    refine hpump 1 (Nat.le_refl 1) ht rfl ?_
    rw [hs.killRank]
    exact Nat.add_le_add_left (Nat.le_of_eq (Nat.zero_add _)) 1
  | listens _ hk | drains _ _ hk | forwards _ hk | refused _ hk => cases hkill.symm.trans hk
  | wrote ht hw =>
    have hlt := hw.killRank
    refine hpump 1 (Nat.le_refl 1) ht rfl ?_
    dsimp only
    omega
  | broke ht =>
    refine hpump 0 (Nat.le_refl 0) ht rfl ?_
    have hzero : Writer.killRank .returned = 0 := rfl
    dsimp only
    omega
  | joins ht =>
    refine ⟨rfl, ?_⟩
    rw [killRank_pumping ht]
    exact Nat.le_add_left 2 _
  | @closes ok o o' ht =>
    refine ⟨rfl, ?_⟩
    have hone : v.killRank = 1 := by rw [killRank, ht]
    rw [hone]
    cases ok with
    | true => exact Nat.le_refl 1
    | false => exact Nat.zero_le 1
  | cancelled => exact ⟨hconn, Nat.le_of_eq (Nat.zero_add _)⟩

theorem killed_enabled (hkill : v.kill = true) (hb : v.Books)
    (hconn : v.task.overlay.isSome = true) (hend : ¬∃ o, v.task = .ended (some o)) :
    ∃ a v', TaskAct.own a = true ∧ v.turn a = some v' := by
  have hgo {a : TaskAct C} (ha : a.own = true) (hsome : (v.turn a).isSome = true) :
      ∃ a v', TaskAct.own a = true ∧ v.turn a = some v' := by
    obtain ⟨v', hv'⟩ := Option.isSome_iff_exists.mp hsome
    exact ⟨a, v', ha, hv'⟩
  cases hb with
  | dialing ht | failed ht =>
    rw [ht] at hconn
    cases hconn
  | ended ht => exact absurd ⟨_, ht⟩ hend
  | closing ht hflight =>
    obtain ⟨msg, hmsg⟩ := Option.isSome_iff_exists.mp hflight
    refine hgo (a := .wrote true) rfl ?_
    simp [turn, wrote, ht, Overlay.finish, hmsg]
  | @pumping p ht hp =>
    cases hcall : p.writer.inCall with
    | true => exact hgo (a := .wrote true) rfl (wrote_enabled (.pumping ht hp) ht hcall)
    | false =>
      by_cases hw : p.writer = .returned
      · by_cases hr : p.reader = .returned
        · exact hgo (a := .join 0) rfl (by simp [turn, ht, hr, hw])
        · exact hgo (a := .reader 0 true) rfl (reader_enabled ht (.inl hkill) hr)
      · exact hgo (a := .writer 0 0) rfl (writer_enabled ht (.inl hkill) hcall hw)

theorem Framed.congr (h : v.Framed) (ht : v'.task = v.task) : v'.Framed := by
  cases h with
  | unconnected hnone => exact .unconnected (ht ▸ hnone)
  | pumping ht' hwhole hopen => exact .pumping (ht.trans ht') hwhole hopen
  | shut ht' hwhole hshut => exact .shut (ht'.imp ht.trans ht.trans) hwhole hshut

theorem deliver_task (v : Vconn K D C) (d : Bytes) : (v.deliver d).task = v.task := by
  unfold deliver
  split_ifs <;> rfl

theorem Moves.framed (h : v.Moves (· ≠ .wrote false) v') (hb : v.Books) (hf : v.Framed) :
    v'.Framed := by
  cases h with
  | stays => exact hf
  | delivered _ d => exact hf.congr (v.deliver_task d)
  | evicted => exact hf.congr rfl
  | turned ha h => exact hf.turn hb ha (turn_cases h)

theorem Framed.orderly (h : v.Framed) (ho : v.task.overlay = some o) : o.Orderly := by
  cases h with
  | unconnected hnone => cases ho.symm.trans hnone
  | pumping ht hwhole hopen =>
    rw [ht] at ho
    cases ho
    exact ⟨hwhole, .inl hopen⟩
  | shut ht hwhole hshut =>
    rcases ht with ht | ht
    all_goals
      rw [ht] at ho
      cases ho
      exact ⟨hwhole, .inr hshut⟩

theorem Framed.closed (h : v.Framed) (hb : v.Books) (ht : v.task = .ended (some o)) :
    o.Closed := by
  have hidle : o.flight = none := by
    cases hb with
    | ended ht' hidle =>
      cases ht.symm.trans ht'
      exact hidle
    | dialing ht' | pumping ht' | closing ht' | failed ht' => cases ht.symm.trans ht'
  cases h with
  | unconnected hnone =>
    rw [ht] at hnone
    cases hnone
  | pumping ht' => cases ht.symm.trans ht'
  | shut ht' hwhole hshut =>
    rcases ht' with ht' | ht'
    · cases ht.symm.trans ht'
    · cases ht.symm.trans ht'
      exact hshut.closed hwhole hidle

end Vconn

/-- A move of one vconn's own. -/
def InterceptAct.own {V : Type} {C : Crypto} (i : Nat) : InterceptAct V C → Bool
  | .task j a => j == i && a.own
  | .recvFrom .. | .tick _ => false

section Intercept

open Relay

variable {V : Type} {C : Crypto} {dnsServerIp : Option (BitVec 32)} {idle : Nat} {i : Nat}
  {s s' : Relay Intercept.FlowKey Dial C} {a : InterceptAct V C} {v : Vconn Intercept.FlowKey Dial C}

/-- What a step of the intercept is for one of its vconns: a move of its task, or nothing that its
task or its token would notice. -/
theorem interceptStep_vconn (h : interceptStep dnsServerIp idle s a = some s') (hf : s.Filed)
    (hv : s.vconns[i]? = some v) : ∃ v', s'.vconns[i]? = some v' ∧
      ((∃ b, a = .task i b ∧ v.turn b = some v') ∨
        v'.task = v.task ∧ v'.kill = v.kill ∧ a.own i = false) := by
  have hmanager (ha : ∀ j b, a ≠ .task j b) (hown : a.own i = false) :
      ∃ v', s'.vconns[i]? = some v' ∧ ((∃ b, a = .task i b ∧ v.turn b = some v') ∨
        v'.task = v.task ∧ v'.kill = v.kill ∧ a.own i = false) := by
    obtain ⟨hadv, -⟩ := interceptStep_advances (P := fun _ => False) ha h hf
    obtain ⟨v', hv', hmoves⟩ := hadv.moved i v hv
    refine ⟨v', hv', .inr ?_⟩
    cases hmoves with
    | stays | evicted => exact ⟨rfl, rfl, hown⟩
    | delivered _ d => exact ⟨v.deliver_task d, (v.deliver_frame d).2.2, hown⟩
    | turned ha => exact ha.elim
  cases a with
  | recvFrom resolver dst src d now => exact hmanager nofun rfl
  | tick now => exact hmanager nofun rfl
  | task j b =>
    obtain ⟨u, u', hu, hturn, rfl⟩ := taskTurn_eq_some.mp h
    by_cases hij : j = i
    · subst hij
      cases hv.symm.trans hu
      refine ⟨u', ?_, .inl ⟨b, rfl, hturn⟩⟩
      simp [(List.getElem?_eq_some_iff.mp hv).1]
    · refine ⟨v, by simp [hij, hv], .inr ⟨rfl, rfl, ?_⟩⟩
      simp [InterceptAct.own, hij]

/-- The flow of a vconn was killed after it had made certain write calls. -/
structure Cut (s : Relay Intercept.FlowKey Dial C) (i : Nat) (v : Vconn Intercept.FlowKey Dial C) :
    Prop where
  kept : s.Kept
  vconn : s.vconns[i]? = some v
  kill : v.kill = true

theorem Cut.books (h : Cut s i v) : v.Books := h.kept.books v (List.mem_of_getElem? h.vconn)

theorem Cut.step (h : Cut s i v) (hstep : interceptStep dnsServerIp idle s a = some s') :
    ∃ v', Cut s' i v' ∧ v'.calls = v.calls ∧ (v.Mute → v'.Mute) ∧
      (v.task.overlay.isSome = true → v'.task.overlay.isSome = true ∧
        (if a.own i then 1 else 0) + v'.killRank ≤ v.killRank) := by
  have hkept := interceptStep_drives.kept_step hstep h.kept
  obtain ⟨v', hv', ⟨b, rfl, hturn⟩ | ⟨htask, hkill, hown⟩⟩ :=
    interceptStep_vconn hstep h.kept.filed h.vconn
  · have ht := Vconn.turn_cases hturn
    obtain ⟨hcalls, hmute⟩ := Vconn.killed_turn h.kill h.books ht
    have hkill : v'.kill = true := by
      by_cases hb : b = .cancel
      · subst hb
        cases ht with
        | cancelled => rfl
        | told _ ha => rcases ha with ⟨_, ha⟩ | ha <;> cases ha
      · exact ((Vconn.turn_frame hturn).2.2.2 hb).trans h.kill
    refine ⟨v', ⟨hkept, hv', hkill⟩, hcalls, hmute, fun hconn => ?_⟩
    simpa [InterceptAct.own] using Vconn.killRank_turn h.kill h.books hconn ht
  · refine ⟨v', ⟨hkept, hv', hkill.trans h.kill⟩, ?_, ?_, fun hconn => ⟨htask ▸ hconn, ?_⟩⟩
    · rw [Vconn.calls, Vconn.calls, htask]
    · exact fun hm o ho => hm o (htask ▸ ho)
    · rw [hown, Vconn.killRank, Vconn.killRank, htask]
      exact Nat.le_of_eq (Nat.zero_add _)

/-- However the intercept goes on, a killed vconn makes no further write call. -/
theorem Cut.silent (h : Cut s i v) {acts : List (InterceptAct V C)}
    (hrun : run (interceptStep dnsServerIp idle) s acts = some s') :
    ∃ v', s'.vconns[i]? = some v' ∧ v'.calls = v.calls ∧ (v.Mute → v'.Mute) := by
  have hinv := run_invariant
    (fun t => ∃ v', Cut t i v' ∧ v'.calls = v.calls ∧ (v.Mute → v'.Mute)) ?_ hrun
    ⟨v, h, rfl, id⟩
  · obtain ⟨v', hcut, hrest⟩ := hinv
    exact ⟨v', hcut.vconn, hrest⟩
  · rintro t a t' hstep ⟨w, hcut, hcalls, hmute⟩
    obtain ⟨w', hcut', hcalls', hmute', -⟩ := hcut.step hstep
    exact ⟨w', hcut', hcalls'.trans hcalls, hmute' ∘ hmute⟩

/-- The connection of a vconn is closed. -/
def Relay.hasEnded (i : Nat) (s : Relay Intercept.FlowKey Dial C) : Prop :=
  ∃ v o, s.vconns[i]? = some v ∧ v.task = .ended (some o)

/-- However the intercept goes on, a killed vconn comes to its end. -/
theorem Cut.ends (h : Cut s i v) (hconn : v.task.overlay.isSome = true) :
    Ends (interceptStep (V := V) dnsServerIp idle) (InterceptAct.own i) (Relay.hasEnded i) s := by
  refine ends_of_rank (fun s => ∃ v, Cut s i v ∧ v.task.overlay.isSome = true)
    (fun s => (s.vconns[i]?.map Vconn.killRank).getD 0) ?_ ?_ ⟨v, h, hconn⟩
  · rintro s a s' hstep ⟨v, hcut, hconn⟩
    obtain ⟨v', hcut', -, -, hrank⟩ := hcut.step hstep
    obtain ⟨hconn', hle⟩ := hrank hconn
    refine ⟨⟨v', hcut', hconn'⟩, ?_⟩
    rw [hcut.vconn, hcut'.vconn]
    exact hle
  · rintro s ⟨v, hcut, hconn⟩ hend
    obtain ⟨b, v', hown, hturn⟩ := Vconn.killed_enabled hcut.kill hcut.books hconn
      fun ⟨o, ho⟩ => hend ⟨v, o, hcut.vconn, ho⟩
    have hstep := taskTurn_eq_some.mpr ⟨v, v', hcut.vconn, hturn, rfl⟩
    refine ⟨.task i b, _, ?_, hstep⟩
    simp [InterceptAct.own, hown]

theorem intercept_framed {acts : List (InterceptAct V C)}
    (hrun : run (interceptStep dnsServerIp idle) new acts = some s)
    (hok : ∀ i, .task i (.wrote false) ∉ acts) : ∀ v ∈ s.vconns, v.Framed := by
  have hc : ∀ a ∈ acts, ∀ i b, a = InterceptAct.task i b → b ≠ .wrote false := by
    rintro a ha i b rfl rfl
    exact hok i ha
  have hall : RunAll (interceptStep dnsServerIp idle) (fun _ a => ∀ i b, a = .task i b →
      b ≠ .wrote false) new acts := runAll_of_forall hc new
  refine (run_invariant_when (fun s => s.Kept ∧ ∀ v ∈ s.vconns, v.Framed) ?_ hrun hall
    ⟨⟨filed_new, List.forall_mem_nil _⟩, List.forall_mem_nil _⟩).2
  rintro s a s' hstep hP ⟨hk, hall⟩
  obtain ⟨hadv, -⟩ := interceptStep_advances hP hstep hk.filed
  refine ⟨interceptStep_drives.kept_step hstep hk, ?_⟩
  intro v hv
  refine (hadv.forall (p := fun v => v.Books ∧ v.Framed) ?_ ?_ ?_ v hv).2
  · exact fun _ _ hm h => ⟨hm.books h.1, hm.framed h.1 h.2⟩
  · exact fun key dial first now => ⟨Vconn.books_new key dial first now, .unconnected rfl⟩
  · exact fun v hv => ⟨hk.books v hv, hall v hv⟩

end Intercept

end Noa.Tunnel.Udp

namespace Noa.Tunnel
open Noa.Framework Noa.Channel Noa.Edge Noa.Edge.Data Intercept Udp

variable {V : Type} {C : Crypto}

/-- Nothing new is sent after a kill, whatever the order of a flow's steps and the cancellation of
its token. As long as the writes that are begun succeed, a flow's frames are written whole, data and
then at most one close; a flow that has ended has sent its close and nothing after it. A flow whose
token is cancelled ends. From then on a splice completes one frame of data at most, and a vconn makes
no write call; a flow whose token was cancelled before its connection was there sends no data. -/
theorem nothing_sent_after_kill :
    (∀ (connId : UInt32) (keys : Option (C.Push × SessionKey)) (killed : Bool)
      (acts : List SpliceAct) (f : Splice C),
      run Splice.step (.new connId keys killed) acts = some f → .wrote false ∉ acts →
      f.overlay.Orderly ∧ (f.hasEnded → f.overlay.Closed) ∧
      (killed = true → ∀ m ∈ f.overlay.begun, isData m = false) ∧
      (f.kill = true → Ends Splice.step SpliceAct.own Splice.hasEnded f ∧
        ∀ later g, run Splice.step f later = some g → g.sent ≤ f.sent + 1)) ∧
    ∀ (dnsServerIp : Option (BitVec 32)) (idle : Nat) (acts : List (InterceptAct V C))
      (s : Relay FlowKey Dial C),
      run (interceptStep dnsServerIp idle) .new acts = some s →
      (∀ i, .task i (.wrote false) ∉ acts) →
      ∀ (i : Nat) (v : Vconn FlowKey Dial C), s.vconns[i]? = some v →
        (∀ o, v.task.overlay = some o → o.Orderly) ∧
        (∀ o, v.task = .ended (some o) → o.Closed) ∧
        (v.kill = true →
          (v.task.overlay.isSome = true → Ends (interceptStep (V := V) dnsServerIp idle)
            (InterceptAct.own i) (Relay.hasEnded i) s) ∧
          ∀ (later : List (InterceptAct V C)) (t : Relay FlowKey Dial C),
            run (interceptStep dnsServerIp idle) s later = some t →
            ∃ w, t.vconns[i]? = some w ∧ w.calls = v.calls ∧
              (v.task = .dialing → ∀ o, w.task.overlay = some o →
                ∀ m ∈ o.begun, isData m = false)) := by
  constructor
  · intro connId keys killed acts f hrun hok
    have hall : RunAll Splice.step (fun (_ : Splice C) a => a ≠ .wrote false)
        (.new connId keys killed) acts :=
      runAll_of_forall (fun a ha => ne_of_mem_of_not_mem ha hok) _
    obtain ⟨hsound, hwhole⟩ := run_invariant_when (fun g : Splice C => g.Sound ∧ g.overlay.Whole)
      (fun g a g' hstep ha hg => ⟨hg.1.turn (Splice.step_turn hstep),
        Splice.whole_turn hg.1 hg.2 ha (Splice.step_turn hstep)⟩)
      hrun hall ⟨Splice.sound_new connId keys killed, rfl⟩
    refine ⟨hsound.orderly hwhole, hsound.closed hwhole, ?_, fun hkill =>
      ⟨hsound.ends hkill, fun later g hg => hsound.sent_le hkill hg⟩⟩
    rintro rfl
    have hsilent := run_invariant (fun g : Splice C => g.Sound ∧ g.Silent)
      (fun g a g' hstep hg => ⟨hg.1.turn (Splice.step_turn hstep),
        hg.2.turn hg.1 (Splice.step_turn hstep)⟩)
      hrun ⟨Splice.sound_new connId keys true, rfl, rfl, List.forall_mem_nil _⟩
    exact hsilent.2.silent
  · intro dnsServerIp idle acts s hrun hok i v hv
    have hmem := List.mem_of_getElem? hv
    have hkept := interceptStep_drives.kept hrun
    have hframed := intercept_framed hrun hok v hmem
    refine ⟨fun o => hframed.orderly, fun o => hframed.closed (hkept.books v hmem), fun hkill => ?_⟩
    have hcut : Cut s i v := ⟨hkept, hv, hkill⟩
    refine ⟨hcut.ends, fun later t ht => ?_⟩
    obtain ⟨w, hw, hcalls, hmute⟩ := hcut.silent ht
    refine ⟨w, hw, hcalls, fun hdialing => hmute fun o ho => ?_⟩
    rw [hdialing] at ho
    cases ho

/-- The token is cancelled while a frame is being written. -/
def killedMidFrame : List SpliceAct :=
  [.s2z none 0, .s2z (some (.ok [1, 2])) 0, .s2z none 5, .cancel]

/-- What the splice still does. -/
def killedEnd : List SpliceAct :=
  [.wrote true, .s2z none 0, .s2z none 0, .z2s none, .z2s none, .join 6, .wrote true]

/-- The token is cancelled while the vconn's connection is being dialed. -/
def killedDialing : List (InterceptAct Bool padCrypto) :=
  [.recvFrom servedTable udpServer udpClient [1, 2] 0, .task 0 .cancel]

def killedVconnEnd : List (InterceptAct Bool padCrypto) :=
  [.task 0 (.dialed 7 none), .task 0 (.writer 1 1), .task 0 (.reader 1 true), .task 0 (.join 2),
    .task 0 (.wrote true)]

theorem nothing_sent_after_kill_both :
    (∃ f g : Splice padCrypto, run Splice.step (.new 7 none false) killedMidFrame = some f ∧
      run Splice.step f killedEnd = some g ∧ f.sent = 0 ∧ g.sent ≤ f.sent + 1 ∧ g.sent = 1 ∧
      g.hasEnded ∧ g.overlay.Closed) ∧
    ∃ (s t : Relay FlowKey Dial padCrypto) (w : Vconn FlowKey Dial padCrypto) (o : Overlay padCrypto),
      run (interceptStep none vconnIdleTimeout) .new killedDialing = some s ∧
      run (interceptStep none vconnIdleTimeout) s killedVconnEnd = some t ∧
      t.vconns = [w] ∧ w.task = .ended (some o) ∧ o.Closed ∧ w.calls = [] := by
  constructor
  · obtain ⟨f, hf⟩ : ∃ f : Splice padCrypto,
        run Splice.step (.new 7 none false) killedMidFrame = some f := ⟨_, rfl⟩
    obtain ⟨g, hg⟩ : ∃ g : Splice padCrypto,
        run Splice.step (.new 7 none false) (killedMidFrame ++ killedEnd) = some g := ⟨_, rfl⟩
    have hkill := ((nothing_sent_after_kill (V := Bool)).1 7 none false _ f hf
      (by simp [killedMidFrame])).2.2.2
    have hend := ((nothing_sent_after_kill (V := Bool)).1 7 none false _ g hg
      (by simp [killedMidFrame, killedEnd])).2.1
    cases hf
    cases hg
    exact ⟨_, _, rfl, rfl, rfl, (hkill rfl).2 killedEnd _ rfl, rfl, ⟨_, rfl⟩, hend ⟨_, rfl⟩⟩
  · have hfirst : interceptStep none vconnIdleTimeout (.new : Relay _ _ padCrypto)
        (.recvFrom servedTable udpServer udpClient [1, 2] 0) =
          some (Relay.new.createVconn (udpClient, udpServer) ⟨"web".toList, 5, none⟩ [1, 2] 0) := by
      rw [interceptStep, interceptDial_served]
      rfl
    have hs : run (interceptStep none vconnIdleTimeout) .new killedDialing = some _ :=
      run_cons_eq_some.mpr ⟨_, hfirst, rfl⟩
    have ht : run (interceptStep none vconnIdleTimeout) .new (killedDialing ++ killedVconnEnd) =
        some _ := run_cons_eq_some.mpr ⟨_, hfirst, rfl⟩
    have hsilent := ((nothing_sent_after_kill.2 none vconnIdleTimeout _ _ hs
      (by simp [killedDialing]) 0 _ rfl).2.2 rfl).2 killedVconnEnd _ rfl
    have hclosed := (nothing_sent_after_kill.2 none vconnIdleTimeout _ _ ht
      (by simp [killedDialing, killedVconnEnd]) 0 _ rfl).2.1 _ rfl
    obtain ⟨w, hw, hcalls, -⟩ := hsilent
    cases hw
    exact ⟨_, _, _, _, hs, rfl, rfl, rfl, hclosed, hcalls⟩

end Noa.Tunnel
