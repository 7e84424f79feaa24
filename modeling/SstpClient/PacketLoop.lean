import SstpClient.Provider

/-!
The packet loop of the tunnel provider, `startPacketLoop` and `readPackets`.

A read of the packet flow cannot be taken back. The flag stops the loop at the next handler only,
and it may be set again before that one is called.
-/

namespace SstpClient.PacketLoop

open SstpClient.Lib.Machine SstpClient.Provider

/-! ### What is promised -/

/-- At most one read is outstanding, and exactly one while the loop runs. -/
structure OneRead (s : State) : Prop where
  atMost : s.reads ≤ 1
  running : s.packetLoopRunning = true → s.reads = 1

/-- The condition on a step: the loop is not started while a handler of an earlier one is
outstanding, and while it runs no handler is called without a session. -/
def Undoubled (s : State) : Input → Prop
  | .settings k error => s.applying[k]? = some s.sessionGeneration → error = none →
      s.packetLoopRunning = false → s.reads = 0
  | .packets _ => s.packetLoopRunning = true → s.session.isSome = true
  | _ => True

/-! ### Steps that leave the loop alone, or stop it -/

/-- No read is begun, and no handler called. -/
def Leaves (s s' : State) : Prop :=
  s'.reads = s.reads ∧ (s'.packetLoopRunning = s.packetLoopRunning ∨ s'.packetLoopRunning = false)

section Leaves

variable {s s' : State}

lemma Leaves.oneRead (h : Leaves s s') (hs : OneRead s) : OneRead s' := by
  obtain ⟨hreads, hflag⟩ := h
  refine ⟨hreads ▸ hs.atMost, fun hrun => ?_⟩
  rcases hflag with heq | hoff
  · rw [hreads]
    exact hs.running (heq ▸ hrun)
  · rw [hoff] at hrun
    cases hrun

lemma leaves_refl (s : State) : Leaves s s := ⟨rfl, .inl rfl⟩

lemma sessionStop_loop (s : State) : (sessionStop s).reads = s.reads ∧
    (sessionStop s).packetLoopRunning = s.packetLoopRunning := by
  unfold sessionStop
  split
  · exact ⟨rfl, rfl⟩
  · exact ⟨rfl, rfl⟩

lemma leaves_beginSession (s : State) (generation : ℕ) : Leaves s (beginSession s generation) := by
  unfold beginSession
  split_ifs
  · exact leaves_refl s
  · exact (sessionStop_loop s).imp id .inl

lemma leaves_completeStart (s : State) (error : Option TunnelError) :
    Leaves s (completeStartWithError s error).1 := by
  unfold completeStartWithError
  split_ifs
  · exact leaves_refl s
  · exact ⟨rfl, .inl rfl⟩
  · exact ⟨rfl, .inl rfl⟩

lemma leaves_startTunnel (s : State) (credentials : Bool) :
    Leaves s (startTunnel s credentials).1 := by
  unfold startTunnel
  dsimp only
  split_ifs
  · exact leaves_beginSession _ _
  · exact leaves_completeStart _ _

lemma leaves_stopTunnel (s : State) (userInitiated : Bool) :
    Leaves s (stopTunnel s userInitiated) := by
  obtain ⟨hreads, hflag⟩ := sessionStop_loop { s with
    userStopRequested := true
    reconnectScheduled := false
    packetLoopRunning := false
    currentStage := .disconnecting
    lastErrorCode := if userInitiated then some .cancelled else s.lastErrorCode
    lastErrorMessage := if userInitiated then some "Отключено пользователем" else s.lastErrorMessage
    sessionGeneration := s.sessionGeneration + 1
    active := false }
  exact ⟨hreads, .inr hflag⟩

lemma leaves_workerStep (s : State) (w : ℕ) (a : Action) : Leaves s (workerStep s w a) := by
  unfold workerStep
  split
  case h_1 =>
    unfold startEx
    cases s.session <;> exact ⟨rfl, .inl rfl⟩
  case h_11 => split_ifs <;> exact ⟨rfl, .inl rfl⟩
  all_goals exact ⟨rfl, .inl rfl⟩

lemma leaves_failure (s : State) (session : ℕ) (failure : Failure) (generation : ℕ) :
    Leaves s (handleSessionFailure s session failure generation).1 := by
  unfold handleSessionFailure
  dsimp only
  split_ifs
  · exact leaves_refl s
  · exact ⟨rfl, .inl rfl⟩
  · exact leaves_completeStart _ _

lemma leaves_runBlock (s : State) (b : Block) : Leaves s (runBlock s b).1 := by
  cases b with
  | stage stage => exact ⟨rfl, .inl rfl⟩
  | ready session generation addresses =>
    unfold runBlock
    dsimp only
    split_ifs <;> exact ⟨rfl, .inl rfl⟩
  | packet session bytes => exact leaves_refl s
  | fail session generation failure =>
    unfold runBlock
    dsimp only
    split_ifs
    · exact leaves_refl s
    · exact leaves_failure s session failure generation
  | reconnect generation =>
    unfold runBlock
    dsimp only
    split_ifs <;> exact ⟨rfl, .inl rfl⟩
  | beginSession generation =>
    unfold runBlock
    dsimp only
    split_ifs
    · exact leaves_refl s
    · exact leaves_beginSession s generation
  | stopped => exact ⟨rfl, .inl rfl⟩

lemma leaves_runTask (s : State) (k : ℕ) : Leaves s (runTask s k) := by
  unfold runTask
  split
  · exact leaves_refl s
  · unfold teardownWorkerKeepingCredentials
    exact ⟨(sessionStop_loop s).1, .inr rfl⟩
  · exact ⟨rfl, .inl rfl⟩
  · exact ⟨rfl, .inl rfl⟩

end Leaves

/-! ### The handlers -/

section Handlers

variable {s : State}

/-- **The loop is started**: one read more. -/
lemma oneRead_startPacketLoop (hs : OneRead s) :
    OneRead (startPacketLoop s).1 ↔ (s.packetLoopRunning = false → s.reads = 0) := by
  unfold startPacketLoop readPackets
  cases hrun : s.packetLoopRunning with
  | true => exact iff_of_true hs nofun
  | false =>
    constructor
    · rintro ⟨hmost, -⟩ -
      exact Nat.le_zero.mp (Nat.le_of_succ_le_succ hmost)
    · intro hzero
      have hone : s.reads + 1 = 1 := by rw [hzero rfl]
      exact ⟨le_of_eq hone, fun _ => hone⟩

/-- The settings have been applied. -/
lemma oneRead_settingsApplied (hs : OneRead s) (generation : ℕ) (error : Option String) :
    OneRead (settingsApplied s generation error).1 ↔
      (generation = s.sessionGeneration → error = none → s.packetLoopRunning = false →
        s.reads = 0) := by
  unfold settingsApplied
  split_ifs with hstale
  · exact iff_of_true hs fun heq => absurd heq.symm (bne_iff_ne.mp hstale)
  · have hsame : generation = s.sessionGeneration :=
      (not_not.mp fun hne => hstale (bne_iff_ne.mpr hne)).symm
    cases error with
    | some description =>
      exact iff_of_true ((leaves_completeStart _ _).oneRead ⟨hs.1, hs.2⟩) fun _ => nofun
    | none =>
      dsimp only
      have hcomplete := leaves_completeStart { s with
        currentStage := .connected
        lastErrorCode := none
        lastErrorMessage := none } none
      have hflag : (completeStartWithError { s with
          currentStage := .connected
          lastErrorCode := none
          lastErrorMessage := none } none).1.packetLoopRunning = s.packetLoopRunning := by
        unfold completeStartWithError
        split_ifs <;> rfl
      rw [oneRead_startPacketLoop (hcomplete.oneRead ⟨hs.1, hs.2⟩), hflag, hcomplete.1]
      exact ⟨fun h _ _ => h, fun h => h hsame rfl⟩

/-- **A handler is called**: while the loop runs it reads again, if there is a session. -/
lemma oneRead_packetsRead (hs : OneRead s) (hpos : s.reads ≠ 0) (packets : List Packet) :
    OneRead (packetsRead { s with reads := s.reads - 1 } packets).1 ↔
      (s.packetLoopRunning = true → s.session.isSome = true) := by
  have hone : s.reads = 1 := le_antisymm hs.atMost (Nat.pos_of_ne_zero hpos)
  have hzero : s.reads - 1 = 0 := by rw [hone]
  unfold packetsRead readPackets
  dsimp only
  rw [hzero]
  split
  · next hrun hsession =>
    rw [if_pos hrun]
    exact iff_of_true ⟨le_refl 1, fun _ => rfl⟩ fun _ => by rw [hsession]; rfl
  · next hnot =>
    constructor
    · intro h hrun
      exact absurd (h.running hrun) Nat.zero_ne_one
    · intro h
      refine ⟨Nat.zero_le 1, fun hrun => ?_⟩
      obtain ⟨t, ht⟩ := Option.isSome_iff_exists.mp (h hrun)
      exact (hnot t hrun ht).elim

/-- **What one step keeps**, exactly under the condition. -/
theorem oneRead_step (hs : OneRead s) (i : Input) : OneRead (step s i).1 ↔ Undoubled s i := by
  cases i with
  | startTunnel credentials =>
    refine iff_of_true ?_ trivial
    unfold step
    dsimp only
    split_ifs
    · exact hs
    · exact (leaves_startTunnel s credentials).oneRead hs
  | stopTunnel userInitiated =>
    exact iff_of_true ((leaves_stopTunnel s userInitiated).oneRead hs) trivial
  | worker w a => exact iff_of_true ((leaves_workerStep s w a).oneRead hs) trivial
  | main =>
    refine iff_of_true ?_ trivial
    unfold step
    dsimp only
    split
    · exact hs
    · next block rest _ =>
        exact (leaves_runBlock { s with main := rest } block).oneRead ⟨hs.1, hs.2⟩
  | fire k =>
    refine iff_of_true ?_ trivial
    unfold step
    dsimp only
    split
    · exact hs
    · exact ⟨hs.1, hs.2⟩
  | task k => exact iff_of_true ((leaves_runTask s k).oneRead hs) trivial
  | settings k error =>
    unfold step Undoubled
    dsimp only
    split
    · next hnone => exact iff_of_true hs fun h => by cases hnone.symm.trans h
    · next generation hsome =>
      rw [oneRead_settingsApplied (s := { s with applying := s.applying.eraseIdx k }) ⟨hs.1, hs.2⟩,
        hsome, Option.some_inj]
  | packets packets =>
    unfold step Undoubled
    dsimp only
    split_ifs with hzero
    · refine iff_of_true hs fun hrun => ?_
      exact absurd (hs.running hrun) (by rw [hzero]; decide)
    · exact oneRead_packetsRead hs hzero packets

end Handlers

/-! ### Whole runs -/

/-- **One read at a time**, all along a run, exactly when no loop is started before the last handler
of the one before it has been called, and none of a running loop is called without a session. -/
theorem oneRead_iff_undoubled (inputs : List Input) :
    (∀ js, js <+: inputs → OneRead (run step init js).1) ↔ Along step Undoubled init inputs :=
  run_inv_iff (fun s _ => OneRead s) (fun _ _ i hs => oneRead_step hs i) (h := [])
    ⟨Nat.zero_le 1, nofun⟩

/-- A session comes up and is lost; the loop is stopped, and the next session comes up before a
packet has arrived. -/
def reconnected : List Input :=
  let up (w : ℕ) : List Input := [.worker w .go, .worker w (.finish true), .worker w .go,
    .worker w (.ready ⟨"10.0.0.2", "10.0.0.1", "8.8.8.8", "1.1.1.1"⟩), .worker w .go, .main,
    .settings 0 none]
  [.startTunnel true] ++ up 1 ++
    [.worker 1 (.fail ⟨.networkLost, .connected, "PPP connection terminated"⟩), .worker 1 .go, .main,
      .fire 0, .main, .task 0, .task 0, .main] ++ up 2

/-- **Two reads at a time** after a reconnect. -/
theorem reconnected_not_oneRead :
    ¬ ∀ js, js <+: reconnected → OneRead (run step init js).1 := by
  intro h
  have htwo : (run step init reconnected).1.reads = 2 := by decide +kernel
  exact absurd (h reconnected (List.prefix_refl _)).atMost (by rw [htwo]; decide)

end SstpClient.PacketLoop
