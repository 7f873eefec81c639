import Noa.Edge.Data.Close

namespace Noa.Edge.Data
open Noa.Framework Noa.Channel

/-- A frame that awaits no reply: `Data`, `StateClosed`, a rejection or an inspect response. -/
def sendFrame (msg : Message) : Proc (Except ChannelError Unit) := do
  let seq ← Proc.nextSeq
  Proc.write { msg with sequence := seq }

/-- The calls on a channel together with the frames its connections send. -/
inductive FrameOp (C : Crypto) where
  | call (op : ChannelOp C)
  | frame (msg : Message)

def FrameOp.program {C : Crypto} : FrameOp C → Proc Unit
  | .call op => op.program
  | .frame msg => (sendFrame msg).ignore

abbrev FrameAct (C : Crypto) := PoolAct (FrameOp C) (Int32 × Message) Choice

def frameStep (C : Crypto) : ChannelPool → FrameAct C → Option ChannelPool :=
  Pool.step channelRuntime FrameOp.program

/-- `fetch_add(1) + 1` does not overflow, and a waiter enters under a free number. -/
def Cmd.Fits {β : Type} (c : Cmd β) (s : Shared) : Prop :=
  match c with
  | .nextSeq => s.chan.seq ≠ Int32.maxValue
  | .insertWaiter seq => seq ∉ s.chan.waiters
  | _ => True

/-- The action draws a sequence number. -/
def drawsSeq {C : Crypto} (p : ChannelPool) : FrameAct C → Bool
  | .go i _ =>
    match p.tasks[i]? with
    | some (.call c _) => c.draws
    | _ => false
  | _ => false

/-- Every call enters its waiter under a number it drew for it. -/
theorem uses_program {C : Crypto} (op : FrameOp C) (held : Option Int32) : Uses held op.program := by
  cases op with
  | frame msg =>
    have hframe : Orderly (sendFrame msg) :=
      orderly_call rfl rfl fun _ => orderly_call rfl rfl orderly_ret
    exact (orderly_ignore hframe (0, held)).of_prod.2
  | call op => exact (orderly_program op (0, held)).of_prod.2

/-- A command that neither draws a number nor enters a waiter keeps the counter, and at most
takes waiters away. -/
theorem exec_plain {β : Type} {c : Cmd β} {x : Choice} {s : Shared} {r : β × Shared}
    (h : c.exec x s = some r) (hd : c.draws = false) (he : c.enters = none) :
    r.2.chan.seq = s.chan.seq ∧ ∀ n ∈ r.2.chan.waiters, n ∈ s.chan.waiters := by
  cases c with
  | nextSeq => cases hd
  | insertWaiter seq => cases he
  | nextConnId =>
    obtain ⟨⟨id, st⟩, hn, rfl⟩ := Option.map_eq_some_iff.mp h
    obtain ⟨-, -, rfl⟩ := ChannelState.nextConnId_spec hn
    exact ⟨rfl, fun _ hn => hn⟩
  | registerConn connId =>
    cases h
    simp only [ChannelState.access, ChannelState.newSender, ChannelState.registerConn_seq,
      ChannelState.registerConn_waiters, true_and]
    exact fun _ hn => hn
  | registerBind connId =>
    cases h
    simp only [ChannelState.access, ChannelState.newSender, ChannelState.registerBind_seq,
      ChannelState.registerBind_waiters, true_and]
    exact fun _ hn => hn
  | removeWaiter seq =>
    cases h
    exact ⟨rfl, fun _ hn => Std.ExtTreeMap.mem_of_mem_erase hn⟩
  | clearWaiters =>
    cases h
    exact ⟨rfl, fun _ hn => absurd hn Std.ExtTreeMap.not_mem_empty⟩
  | write | writeTimeout | recv | recvTimeout =>
    obtain ⟨wire, hr⟩ := Cmd.exec_await rfl h
    rw [hr]
    exact ⟨rfl, fun _ hn => hn⟩
  | _ =>
    cases h
    exact ⟨rfl, fun _ hn => hn⟩

/-- Each task's drawn and unused number is its own, was counted, and has no waiter. -/
structure Numbered (held : Nat → Option Int32) (p : ChannelPool) : Prop where
  uses : ∀ i prog, p.tasks[i]? = some prog → Uses (held i) prog
  counted : ∀ i n, held i = some n → n.toInt ≤ p.state.chan.seq.toInt
  free : ∀ i n, held i = some n → n ∉ p.state.chan.waiters
  own : ∀ i j n, held i = some n → held j = some n → i = j
  below : ∀ n ∈ p.state.chan.waiters, n.toInt ≤ p.state.chan.seq.toInt

namespace Numbered

variable {held : Nat → Option Int32} {p : ChannelPool}

theorem new : Numbered (fun _ => none) ChannelPool.new := by
  constructor
  · intro i prog h
    simp [ChannelPool.new] at h
  · rintro i n ⟨⟩
  · rintro i n ⟨⟩
  · rintro i j n ⟨⟩
  · intro n hn
    exact absurd hn Std.ExtTreeMap.not_mem_empty

theorem plain (h : Numbered held p) {s : Shared} (hseq : s.chan.seq = p.state.chan.seq)
    (hsub : ∀ n ∈ s.chan.waiters, n ∈ p.state.chan.waiters) {tasks : List (Proc Unit)}
    (htasks : ∀ i prog, tasks[i]? = some prog → Uses (held i) prog) :
    Numbered held ⟨tasks, s⟩ := by
  constructor
  · exact htasks
  · intro i n hn
    rw [hseq]
    exact h.counted i n hn
  · intro i n hn hmem
    exact h.free i n hn (hsub n hmem)
  · exact h.own
  · intro n hn
    rw [hseq]
    exact h.below n (hsub n hn)

theorem set_uses (h : Numbered held p) {i : Nat} {prog : Proc Unit} {n : Option Int32}
    (hprog : Uses n prog) (j : Nat) (q : Proc Unit) (hq : (p.tasks.set i prog)[j]? = some q) :
    Uses (Function.update held i n j) q := by
  rw [List.getElem?_set] at hq
  by_cases hij : i = j
  · subst hij
    rw [Function.update_self]
    rw [if_pos rfl] at hq
    split_ifs at hq
    cases hq
    exact hprog
  · rw [if_neg hij] at hq
    rw [Function.update_of_ne (Ne.symm hij)]
    exact h.uses j q hq

theorem spawn {C : Crypto} (h : Numbered held p) (op : FrameOp C) :
    Numbered (Function.update held p.tasks.length none) ⟨p.tasks ++ [op.program], p.state⟩ := by
  have hheld {i : Nat} {n : Int32}
      (hi : Function.update held p.tasks.length none i = some n) : held i = some n := by
    rw [Function.update_apply] at hi
    split_ifs at hi
    exact hi
  constructor
  · intro i prog hi
    rw [List.getElem?_append] at hi
    split_ifs at hi with hlt
    · rw [Function.update_of_ne (by omega)]
      exact h.uses i prog hi
    · obtain ⟨-, rfl⟩ := List.getElem?_eq_some_iff.mp hi
      rw [List.getElem_singleton]
      exact uses_program op _
  · exact fun i n hi => h.counted i n (hheld hi)
  · exact fun i n hi => h.free i n (hheld hi)
  · exact fun i j n hi hj => h.own i j n (hheld hi) (hheld hj)
  · exact h.below

theorem draw (h : Numbered held p) {i : Nat} {k : Int32 → Proc Unit}
    (hk : p.tasks[i]? = some (.call .nextSeq k))
    (hlt : (p.state.chan.seq + 1).toInt = p.state.chan.seq.toInt + 1) :
    Numbered (Function.update held i (some (p.state.chan.seq + 1)))
      ⟨p.tasks.set i (k (p.state.chan.seq + 1)),
        { p.state with chan := p.state.chan.nextSeq.2 }⟩ := by
  have hnew : ∀ j, held j ≠ some (p.state.chan.seq + 1) := by
    intro j hj
    have := h.counted j _ hj
    omega
  constructor
  · exact h.set_uses ((h.uses i _ hk).2 _)
  · intro j n hj
    simp only [ChannelState.nextSeq]
    rw [Function.update_apply] at hj
    split_ifs at hj
    · cases hj
      exact le_refl _
    · have := h.counted j n hj
      omega
  · intro j n hj hmem
    rw [Function.update_apply] at hj
    split_ifs at hj
    · cases hj
      have := h.below _ hmem
      omega
    · exact h.free j n hj hmem
  · intro a b n ha hb
    rw [Function.update_apply] at ha hb
    split_ifs at ha hb with hai hbi hbi
    · exact hai.trans hbi.symm
    · cases ha
      exact absurd hb (hnew b)
    · cases hb
      exact absurd ha (hnew a)
    · exact h.own a b n ha hb
  · intro n hn
    have := h.below n hn
    simp only [ChannelState.nextSeq]
    omega

theorem enter (h : Numbered held p) {i : Nat} {seq : Int32} {k : SenderId → Proc Unit}
    (hk : p.tasks[i]? = some (.call (.insertWaiter seq) k)) :
    Numbered (Function.update held i none)
      ⟨p.tasks.set i (k p.state.chan.senders),
        { p.state with chan := p.state.chan.access (.insertWaiter seq) }⟩ := by
  have hseq : held i = some seq := (h.uses i _ hk).1 seq rfl
  have hother {j : Nat} {n : Int32} (hj : Function.update held i none j = some n) :
      j ≠ i ∧ held j = some n := by
    rw [Function.update_apply] at hj
    split_ifs at hj with hji
    exact ⟨hji, hj⟩
  have hmem {n : Int32} (hn : n ∈ (p.state.chan.access (.insertWaiter seq)).waiters) :
      n = seq ∨ n ∈ p.state.chan.waiters := by
    simp only [ChannelState.access, ChannelState.newSender, ChannelState.insertWaiter,
      Std.ExtTreeMap.mem_insert, Std.compare_eq_iff_eq] at hn
    exact hn.imp_left Eq.symm
  constructor
  · exact h.set_uses ((h.uses i _ hk).2 _)
  · exact fun j n hj => h.counted j n (hother hj).2
  · intro j n hj hn
    rcases hmem hn with rfl | hn
    · exact (hother hj).1 (h.own j i _ (hother hj).2 hseq)
    · exact h.free j n (hother hj).2 hn
  · exact fun a b n ha hb => h.own a b n (hother ha).2 (hother hb).2
  · intro n hn
    rcases hmem hn with rfl | hn
    · exact h.counted i _ hseq
    · exact h.below n hn

end Numbered

theorem toInt_add_one {n : Int32} (h : n ≠ Int32.maxValue) : (n + 1).toInt = n.toInt + 1 := by
  have hlt : n.toInt < Int32.maxValue.toInt :=
    lt_of_le_of_ne (Int32.toInt_le n) fun heq => h (Int32.toInt_inj.mp heq)
  have hmax : Int32.maxValue.toInt = 2 ^ 31 - 1 := by decide
  have hmin : -2 ^ 31 ≤ n.toInt := Int32.le_toInt n
  rw [Int32.toInt_add, Int32.toInt_one]
  rw [Int.bmod_eq_of_le] <;> omega

section Runs

variable {C : Crypto} {held : Nat → Option Int32} {p p' : ChannelPool} {a : FrameAct C}

theorem drawsSeq_go {i : Nat} {x : Choice} {γ : Type} {c : Cmd γ} {k : γ → Proc Unit}
    (hk : p.tasks[i]? = some (.call c k)) : drawsSeq (C := C) p (.go i x) = c.draws := by
  rw [drawsSeq, hk]

theorem drawsSeq_of_disabled (h : frameStep C p a = none) : drawsSeq p a = false := by
  cases a with
  | go i x =>
    rcases hk : p.tasks[i]? with _ | ⟨u | ⟨c, k⟩⟩
    · simp [drawsSeq, hk]
    · simp [drawsSeq, hk]
    · rw [drawsSeq_go hk]
      cases c with
      | nextSeq => simp [frameStep, Pool.step, hk, channelRuntime, Cmd.exec] at h
      | _ => rfl
  | _ => rfl

/-- In a numbered pool only a draw can go wrong. -/
theorem Numbered.fits_iff (h : Numbered held p) : Pool.Meets Cmd.Fits p a ↔
    (drawsSeq p a = true → p.state.chan.seq ≠ Int32.maxValue) := by
  cases a with
  | go i x =>
    rcases hk : p.tasks[i]? with _ | ⟨u | ⟨c, k⟩⟩
    · simp [Pool.Meets, drawsSeq, hk]
    · simp [Pool.Meets, drawsSeq, hk]
    · rw [Pool.meets_go hk, drawsSeq_go hk]
      cases c with
      | nextSeq => exact ⟨fun hne _ => hne, fun hne => hne rfl⟩
      | insertWaiter seq =>
        have hheld : held i = some seq := (h.uses i _ hk).1 seq rfl
        exact iff_of_true (h.free i seq hheld) (by rintro ⟨⟩)
      | _ => exact iff_of_true trivial (by rintro ⟨⟩)
  | _ => exact iff_of_true trivial (by simp [drawsSeq])

theorem Numbered.step (h : Numbered held p) (hstep : frameStep C p a = some p')
    (hfit : drawsSeq p a = true → p.state.chan.seq ≠ Int32.maxValue) :
    ∃ held', Numbered held' p' := by
  cases a with
  | spawn op =>
    cases hstep
    exact ⟨_, h.spawn op⟩
  | go i x =>
    obtain ⟨γ, c, k, r, hk, hx, rfl⟩ := Pool.step_go hstep
    rw [drawsSeq_go hk] at hfit
    have hx : c.exec x p.state = some r := hx
    have huses := h.set_uses (i := i) ((h.uses i _ hk).2 r.1)
    cases c with
    | nextSeq =>
      cases hx
      exact ⟨_, h.draw hk (toInt_add_one (hfit rfl))⟩
    | insertWaiter seq =>
      cases hx
      exact ⟨_, h.enter hk⟩
    | _ =>
      obtain ⟨hseq, hsub⟩ := exec_plain hx rfl rfl
      simp only [usesDrawn, Function.update_eq_self] at huses
      exact ⟨held, h.plain hseq hsub huses⟩
  | drop i =>
    obtain rfl := Pool.step_drop hstep
    have huses := h.set_uses (i := i) (show Uses (held i) (.ret () : Proc Unit) from trivial)
    rw [Function.update_eq_self] at huses
    exact ⟨held, h.plain rfl (fun _ hn => hn) huses⟩
  | env e =>
    obtain ⟨s, he, rfl⟩ := Option.map_eq_some_iff.mp hstep
    obtain ⟨tx, -, rfl⟩ := Option.map_eq_some_iff.mp he
    have hsub : ∀ n ∈ (p.state.chan.removeWaiter e.1).waiters, n ∈ p.state.chan.waiters :=
      fun n hn => Std.ExtTreeMap.mem_of_mem_erase hn
    exact ⟨held, h.plain (by rfl) hsub h.uses⟩

theorem seq_step (hstep : frameStep C p a = some p')
    (hfit : drawsSeq p a = true → p.state.chan.seq ≠ Int32.maxValue) :
    p'.state.chan.seq.toInt = p.state.chan.seq.toInt + if drawsSeq p a then 1 else 0 := by
  cases a with
  | go i x =>
    obtain ⟨γ, c, k, r, hk, hx, rfl⟩ := Pool.step_go hstep
    rw [drawsSeq_go hk] at hfit ⊢
    have hx : c.exec x p.state = some r := hx
    cases c with
    | nextSeq =>
      cases hx
      exact toInt_add_one (hfit rfl)
    | insertWaiter seq =>
      cases hx
      exact (add_zero _).symm
    | _ =>
      obtain ⟨hseq, -⟩ := exec_plain hx rfl rfl
      rw [hseq]
      exact (add_zero _).symm
  | spawn op =>
    cases hstep
    exact (add_zero _).symm
  | drop i =>
    obtain rfl := Pool.step_drop hstep
    exact (add_zero _).symm
  | env e =>
    obtain ⟨s, he, rfl⟩ := Option.map_eq_some_iff.mp hstep
    obtain ⟨tx, -, rfl⟩ := Option.map_eq_some_iff.mp he
    exact (add_zero _).symm

/-- Along every run from a numbered pool the numbers stay apart exactly if the counter has room
for the draws of the run. -/
theorem Numbered.run_fits_iff (h : Numbered held p) (as : List (FrameAct C)) :
    RunAll (frameStep C) (Pool.Meets Cmd.Fits) p as ↔
      p.state.chan.seq.toInt + countRun (frameStep C) drawsSeq p as ≤ Int32.maxValue.toInt := by
  induction as generalizing held p with
  | nil =>
    have hle : p.state.chan.seq.toInt ≤ Int32.maxValue.toInt := Int32.toInt_le _
    simpa [RunAll, countRun] using hle
  | cons a as ih =>
    rw [RunAll, h.fits_iff]
    have hle : p.state.chan.seq.toInt ≤ Int32.maxValue.toInt := Int32.toInt_le _
    cases hstep : frameStep C p a with
    | none =>
      have hidle : drawsSeq p a = false := drawsSeq_of_disabled hstep
      simp [countRun, hstep, hidle, hle]
    | some p' =>
      rw [countRun_cons hstep]
      constructor
      · rintro ⟨hfit, hrest⟩
        obtain ⟨held', h'⟩ := h.step hstep hfit
        have hseq := seq_step hstep hfit
        have hcount := (ih h').mp (hrest p' rfl)
        push_cast
        omega
      · intro hroom
        push_cast at hroom
        have hfit : drawsSeq p a = true → p.state.chan.seq ≠ Int32.maxValue := by
          intro hdraw hmax
          rw [hmax, hdraw, if_pos rfl] at hroom
          omega
        obtain ⟨held', h'⟩ := h.step hstep hfit
        have hseq := seq_step hstep hfit
        refine ⟨hfit, fun p'' hp'' => ?_⟩
        cases hp''
        apply (ih h').mpr
        omega

end Runs

/-- No draw overflows and no waiter enters over a pending one, in exactly the runs that draw
fewer than `2 ^ 31` numbers. -/
theorem sequence_distinct_iff (C : Crypto) (as : List (FrameAct C)) :
    RunAll (frameStep C) (Pool.Meets Cmd.Fits) ChannelPool.new as ↔
      countRun (frameStep C) drawsSeq ChannelPool.new as < 2 ^ 31 := by
  have hroom := Numbered.new.run_fits_iff as
  have hzero : ChannelPool.new.state.chan.seq.toInt = 0 := by decide
  have hmax : Int32.maxValue.toInt = 2 ^ 31 - 1 := by decide
  rw [hroom, hzero, hmax]
  omega

/-- `n` frames sent one after the other by tasks from index `i` on. -/
def frames (i : Nat) : Nat → List (FrameAct padCrypto)
  | 0 => []
  | n + 1 =>
    .spawn (.frame (buildData 1 [] false)) :: .go i .done :: .go i .done :: frames (i + 1) n

theorem step_last {C : Crypto} {tasks : List (Proc Unit)} {s : Shared} {γ : Type} {c : Cmd γ}
    {k : γ → Proc Unit} {x : Choice} {r : γ × Shared} (hx : c.exec x s = some r) :
    frameStep C ⟨tasks ++ [.call c k], s⟩ (.go tasks.length x) =
      some ⟨tasks ++ [k r.1], r.2⟩ := by
  have hx : channelRuntime.exec c x s = some r := hx
  simp [frameStep, Pool.step, hx]

theorem run_frames (n : Nat) (p : ChannelPool) : ∃ t,
    run (frameStep padCrypto) p (frames p.tasks.length n) = some t ∧
    t.tasks = p.tasks ++ List.replicate n (.ret ()) ∧
    t.state.chan = { p.state.chan with seq := p.state.chan.seq + Int32.ofNat n } ∧
    countRun (frameStep padCrypto) drawsSeq p (frames p.tasks.length n) = n := by
  induction n generalizing p with
  | zero => exact ⟨p, rfl, by simp, by simp, rfl⟩
  | succ n ih =>
    obtain ⟨tasks, s⟩ := p
    let msg := buildData 1 [] false
    let drawn : Shared := { s with chan := s.chan.nextSeq.2 }
    let sent : Shared := Cmd.writeFrame drawn { msg with sequence := s.chan.seq + 1 }
    let k₁ : Except ChannelError Unit → Proc Unit := fun _ => .ret ()
    let k₀ : Int32 → Proc Unit := fun seq => .call (.write { msg with sequence := seq }) k₁
    have hspawn : frameStep padCrypto ⟨tasks, s⟩ (.spawn (.frame msg)) =
      some ⟨tasks ++ [.call .nextSeq k₀], s⟩ := rfl
    have hdraw : frameStep padCrypto ⟨tasks ++ [.call .nextSeq k₀], s⟩ (.go tasks.length .done) =
      some ⟨tasks ++ [k₀ (s.chan.seq + 1)], drawn⟩ := step_last (r := (s.chan.seq + 1, drawn)) rfl
    have hwrite : frameStep padCrypto ⟨tasks ++ [k₀ (s.chan.seq + 1)], drawn⟩
      (.go tasks.length .done) = some ⟨tasks ++ [.ret ()], sent⟩ :=
      step_last (k := k₁) (r := (.ok (), sent)) rfl
    obtain ⟨t, hrun, htasks, hchan, hcount⟩ := ih ⟨tasks ++ [.ret ()], sent⟩
    rw [List.length_append, List.length_singleton] at hrun hcount
    refine ⟨t, ?_, ?_, ?_, ?_⟩
    · exact run_cons_eq_some.mpr ⟨_, hspawn, run_cons_eq_some.mpr ⟨_, hdraw,
        run_cons_eq_some.mpr ⟨_, hwrite, hrun⟩⟩⟩
    · rw [htasks, List.append_assoc, List.singleton_append, List.replicate_succ]
    · have hsucc : s.chan.seq + 1 + Int32.ofNat n = s.chan.seq + Int32.ofNat (n + 1) := by
        rw [Int32.ofNat_add, Int32.add_assoc, Int32.add_comm 1]
        rfl
      rw [hchan, ← hsucc]
      rfl
    · have hdraws : drawsSeq (C := padCrypto) ⟨tasks ++ [.call .nextSeq k₀], s⟩
          (.go tasks.length .done) = true := drawsSeq_go (c := .nextSeq) List.getElem?_concat_length
      have hwrites : drawsSeq (C := padCrypto) ⟨tasks ++ [k₀ (s.chan.seq + 1)], drawn⟩
          (.go tasks.length .done) = false :=
        drawsSeq_go (c := .write { msg with sequence := s.chan.seq + 1 }) (k := k₁)
          List.getElem?_concat_length
      rw [frames, countRun_cons hspawn, countRun_cons hdraw, countRun_cons hwrite, hcount, hdraws,
        hwrites]
      simp only [drawsSeq, Bool.false_eq_true, if_false, if_true]
      omega

/-- A bind that waits for its reply, `2 ^ 32 - 1` frames, and a token update. -/
def longRun : List (FrameAct padCrypto) :=
  .spawn (.call (.sendBind "token" "listener" none)) :: List.replicate 5 (.go 0 .done) ++
    (frames 1 (2 ^ 32 - 1) ++ [.spawn (.call (.updateToken "token")), .go (2 ^ 32) .done])

/-- The `2 ^ 31`-th frame overflows the counter, and after `2 ^ 32` of them a token update is
about to enter its waiter over the one of a bind that still waits. -/
theorem next_seq_wraps :
    countRun (frameStep padCrypto) drawsSeq ChannelPool.new (frames 0 (2 ^ 31)) = 2 ^ 31 ∧
    ¬ RunAll (frameStep padCrypto) (Pool.Meets Cmd.Fits) ChannelPool.new (frames 0 (2 ^ 31)) ∧
    ∃ t k, run (frameStep padCrypto) ChannelPool.new longRun = some t ∧
      t.tasks[2 ^ 32]? = some (.call (.insertWaiter 1) k) ∧
      t.state.chan.waiters[(1 : Int32)]? = some 0 := by
  have hcount : countRun (frameStep padCrypto) drawsSeq ChannelPool.new (frames 0 (2 ^ 31)) =
      2 ^ 31 := (run_frames (2 ^ 31) ChannelPool.new).choose_spec.2.2.2
  refine ⟨hcount, ?_, ?_⟩
  · rw [Numbered.new.run_fits_iff, hcount]
    decide
  · obtain ⟨u, hu, hlen, hseq, hwait⟩ : ∃ u, run (frameStep padCrypto) ChannelPool.new
        (.spawn (.call (.sendBind "token" "listener" none)) :: List.replicate 5 (.go 0 .done)) =
          some u ∧ u.tasks.length = 1 ∧ u.state.chan.seq = 1 ∧
        u.state.chan.waiters[(1 : Int32)]? = some 0 := ⟨_, rfl, rfl, rfl, by decide⟩
    obtain ⟨t, ht, htasks, hchan, -⟩ := run_frames (2 ^ 32 - 1) u
    rw [hlen] at ht
    have hfull : t.tasks.length = 2 ^ 32 := by
      rw [htasks, List.length_append, hlen, List.length_replicate]
      omega
    have hzero : t.state.chan.seq + 1 = 1 := by
      have hwrap : t.state.chan.seq = 1 + Int32.ofNat (2 ^ 32 - 1) := by rw [hchan, hseq]
      rw [hwrap]
      decide
    obtain ⟨k, hk⟩ : ∃ k : Int32 → SenderId → Proc Unit,
        (FrameOp.call (C := padCrypto) (.updateToken "token")).program =
          .call .nextSeq fun seq => .call (.insertWaiter seq) (k seq) := ⟨_, rfl⟩
    have hspawn : frameStep padCrypto t (.spawn (.call (.updateToken "token"))) =
        some ⟨t.tasks ++ [.call .nextSeq fun seq => .call (.insertWaiter seq) (k seq)], t.state⟩ := by
      rw [← hk]
      rfl
    let drawn : Shared := { t.state with chan := t.state.chan.nextSeq.2 }
    have hdraw : frameStep padCrypto
        ⟨t.tasks ++ [.call .nextSeq fun seq => .call (.insertWaiter seq) (k seq)], t.state⟩
        (.go (2 ^ 32) .done) = some ⟨t.tasks ++ [.call (.insertWaiter 1) (k 1)], drawn⟩ := by
      rw [← hfull, ← hzero]
      exact step_last (r := (t.state.chan.seq + 1, drawn)) rfl
    refine ⟨⟨t.tasks ++ [.call (.insertWaiter 1) (k 1)], drawn⟩, k 1, ?_, ?_, ?_⟩
    · rw [longRun, run_append, hu, Option.bind_some, run_append, ht, Option.bind_some]
      exact run_cons_eq_some.mpr ⟨_, hspawn, run_cons_eq_some.mpr ⟨_, hdraw, rfl⟩⟩
    · rw [← hfull]
      exact List.getElem?_concat_length
    · change t.state.chan.waiters[(1 : Int32)]? = some 0
      rw [hchan]
      exact hwait

end Noa.Edge.Data
