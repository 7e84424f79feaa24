import SstpClient.Reconnect

/-!
Callbacks of a session that is no longer the one of the provider.

A callback looks at the generation of the provider, not at its own, when it is raised, and its block
looks at the generation again. Between the two only a stop, a start or a reconnect makes a
difference. So a session that the provider has let go, and whose thread still runs, speaks for the
generation it finds.
-/

namespace SstpClient.Superseded

open SstpClient.Provider SstpClient.Sessions SstpClient.Reconnect

/-! ### What is known of a callback -/

/-- The session object that a thread calls back from. The block of the thread itself, which reports
that the start has failed, stands for the session it was begun with. -/
def objectOf (w : ℕ) : Phase → ℕ
  | .starting (some t) => t
  | .running (some t) => t
  | _ => w

structure Mark where
  /-- When the callback was raised, its session was not the one of the provider. -/
  superseded : Bool
  /-- The tunnel has been stopped, started or reconnected since. -/
  overtaken : Bool
  deriving DecidableEq

/-- A block that is no callback. -/
def plain : Mark := ⟨false, false⟩

/-- The callback that a thread raises now. -/
def raisedNow (s : State) (w : ℕ) : Mark :=
  ⟨decide (s.session ≠ some (objectOf w (s.worker w))), false⟩

/-- The provider, and what is known of each callback on its way: of those that a thread is about to
dispatch, and of the blocks of the main queue. -/
structure Watched where
  provider : State
  raised : ℕ → Mark
  queued : List Mark

/-- A stop, a start, or a reconnect. -/
def bumps (s : State) : Input → Bool
  | .startTunnel credentials => !s.active && credentials
  | .stopTunnel _ => true
  | .main =>
    match s.main with
    | .reconnect generation :: _ => !(s.userStopRequested || s.sessionGeneration != generation)
    | _ => false
  | _ => false

def overtake (b : Bool) (m : Mark) : Mark := { m with overtaken := m.overtaken || b }

def raisedAfter (x : Watched) : Input → ℕ → Mark
  | .worker w _ =>
    match x.provider.worker w with
    | .raising _ _ => x.raised
    | _ => Function.update x.raised w (raisedNow x.provider w)
  | _ => x.raised

def queuedAfter (x : Watched) : Input → List Mark
  | .worker w .go =>
    match x.provider.worker w with
    | .raising _ _ => x.queued ++ [x.raised w]
    | _ => x.queued
  | .main => x.queued.tail
  | _ => x.queued

/-- The other blocks that have come. -/
def pad (n : ℕ) (marks : List Mark) : List Mark :=
  marks ++ List.replicate (n - marks.length) plain

def step (x : Watched) (i : Input) : Watched × List Event :=
  let r := Provider.step x.provider i
  let b := bumps x.provider i
  (⟨r.1, fun w => overtake b (raisedAfter x i w),
    (pad r.1.main.length (queuedAfter x i)).map (overtake b)⟩, r.2)

def init : Watched := ⟨Provider.init, fun _ => plain, []⟩

/-! ### What is promised -/

/-- It applies settings, cancels the tunnel or writes packets. -/
def Acts : Event → Prop
  | .applySettings _ => True
  | .cancelled _ => True
  | .wrotePackets _ => True
  | _ => False

/-- Nothing is applied, cancelled or written, and the counter and the error are as before. -/
def NoEffect (s : State) (r : State × List Event) : Prop :=
  r.1.reconnectAttempt = s.reconnectAttempt ∧ r.1.lastErrorCode = s.lastErrorCode ∧
    r.1.lastErrorMessage = s.lastErrorMessage ∧ ∀ e ∈ r.2, ¬ Acts e

/-- The blocks of `on_ready`, `on_packet` and `on_fail`. -/
def isCallback : Block → Bool
  | .ready .. => true
  | .packet .. => true
  | .fail .. => true
  | _ => false

/-- The block of the main queue that is run next. -/
def next (x : Watched) : Option (Block × Mark) := (x.provider.main.zip x.queued).head?

/-- A callback of a superseded session has no effect. -/
def Silent (x : Watched) : Input → Prop
  | .main =>
    match next x with
    | some (block, mark) =>
      isCallback block = true → mark.superseded = true →
        NoEffect x.provider (Provider.step x.provider .main)
    | none => True
  | _ => True

/-- A report comes after a stop, a start or a reconnect that it does not know of, or while the user
has asked to stop; a packet comes while none are taken. -/
def Passed (s : State) (mark : Mark) : Block → Prop
  | .ready .. => mark.overtaken = true ∨ s.userStopRequested = true
  | .fail .. => mark.overtaken = true ∨ s.userStopRequested = true
  | .packet .. => s.packetLoopRunning = false ∨ s.session = none
  | _ => True

/-- The callbacks of superseded sessions come too late. -/
def Harmless (x : Watched) : Input → Prop
  | .main =>
    match next x with
    | some (block, mark) => mark.superseded = true → Passed x.provider mark block
    | none => True
  | _ => True

/-! ### What the steps of the provider leave -/

section Steps

variable {s : State}

/-- The generation that a callback has found. -/
def generationOf : Block → Option ℕ
  | .ready _ generation _ => some generation
  | .fail _ generation _ => some generation
  | _ => none

lemma workerStep_generation (s : State) (w : ℕ) (a : Action) :
    (workerStep s w a).sessionGeneration = s.sessionGeneration := by
  unfold workerStep
  split
  case _ => unfold startEx; cases s.session <;> rfl
  all_goals first | rfl | (split_ifs <;> rfl)

/-- What is looked at here: the generation, the main queue and the threads. -/
def visible (s : State) : ℕ × List Block × (ℕ → Phase) := (s.sessionGeneration, s.main, s.worker)

lemma visible_of_core {s' : State} (h : core s' = core s) : visible s' = visible s := by
  simp only [core, Prod.mk.injEq] at h
  obtain ⟨-, hmain, hworker, hgen, -⟩ := h
  unfold visible
  rw [hmain, hworker, hgen]

lemma visible_sessionStop (s : State) : visible (sessionStop s) = visible s := by
  unfold sessionStop
  cases s.session <;> rfl

/-- A new session has a thread that raises nothing yet. -/
lemma beginSession_spec (s : State) (generation : ℕ) :
    (beginSession s generation).sessionGeneration = s.sessionGeneration ∧
      (beginSession s generation).main = s.main ∧
        ∀ w b n, (beginSession s generation).worker w = .raising b n →
          s.worker w = .raising b n := by
  have hstop := visible_sessionStop s
  simp only [visible, Prod.mk.injEq] at hstop
  unfold beginSession
  split_ifs
  · exact ⟨rfl, rfl, fun _ _ _ h => h⟩
  · refine ⟨hstop.1, hstop.2.1, fun w b n h => ?_⟩
    change Function.update (sessionStop s).worker generation .created w = .raising b n at h
    rw [hstop.2.2] at h
    by_cases hw : w = generation
    · rw [hw, Function.update_self] at h
      cases h
    · rwa [Function.update_of_ne hw] at h

/-- A step that is none of a thread, nor of the main queue. -/
structure Posts (s s' : State) (b : Bool) : Prop where
  generation : s'.sessionGeneration = s.sessionGeneration + b.toNat
  main : ∃ new, s'.main = s.main ++ new ∧ ∀ block ∈ new, generationOf block = none
  worker : ∀ w block n, s'.worker w = .raising block n → s.worker w = .raising block n

lemma Posts.of_visible {s' : State} (h : visible s' = visible s) : Posts s s' false := by
  simp only [visible, Prod.mk.injEq] at h
  obtain ⟨hgen, hmain, hworker⟩ := h
  refine ⟨hgen, ⟨[], ?_, fun _ => nofun⟩, fun w block n hw => ?_⟩
  · rw [hmain, List.append_nil]
  · rwa [hworker] at hw

/-- A block that is no callback is put on the main queue. -/
lemma Posts.post {s' : State} {block : Block} (hgen : s'.sessionGeneration = s.sessionGeneration)
    (hmain : s'.main = s.main ++ [block]) (hworker : s'.worker = s.worker)
    (hnone : generationOf block = none) : Posts s s' false := by
  refine ⟨hgen, ⟨[block], hmain, fun b hb => ?_⟩, fun w b n hw => ?_⟩
  · rw [List.mem_singleton.mp hb]
    exact hnone
  · rwa [hworker] at hw

lemma posts_startTunnel (s : State) (credentials : Bool) :
    Posts s (Provider.step s (.startTunnel credentials)).1
      (bumps s (.startTunnel credentials)) := by
  unfold Provider.step bumps
  dsimp only
  split_ifs with hactive
  · rw [hactive]
    exact .of_visible rfl
  · rw [Bool.not_eq_true] at hactive
    rw [hactive]
    cases credentials with
    | true =>
      obtain ⟨hgen, hmain, hworker⟩ := beginSession_spec (s := { s with
        pendingStartHandler := true
        startCompletionCalled := false
        userStopRequested := false
        reconnectAttempt := 0
        reconnectScheduled := false
        currentStage := .idle
        lastErrorCode := none
        lastErrorMessage := none
        sessionGeneration := s.sessionGeneration + 1
        active := true }) (s.sessionGeneration + 1)
      exact ⟨hgen, ⟨[], by rw [List.append_nil]; exact hmain, fun _ => nofun⟩, hworker⟩
    | false =>
      unfold startTunnel
      dsimp only
      rw [if_neg Bool.false_ne_true]
      exact .of_visible ((visible_of_core (completeStart_spec _ _).1).trans rfl)

lemma posts_stopTunnel (s : State) (userInitiated : Bool) :
    Posts s (Provider.step s (.stopTunnel userInitiated)).1 true := by
  have hvisible : visible (stopTunnel s userInitiated) =
      (s.sessionGeneration + 1, s.main, s.worker) := by
    unfold stopTunnel sessionStop
    cases s.session <;> rfl
  simp only [visible, Prod.mk.injEq] at hvisible
  obtain ⟨hgen, hmain, hworker⟩ := hvisible
  refine ⟨hgen, ⟨[], ?_, fun _ => nofun⟩, fun w block n hw => ?_⟩
  · rw [List.append_nil]
    exact hmain
  · exact hworker ▸ hw

lemma posts_fire (s : State) (k : ℕ) : Posts s (Provider.step s (.fire k)).1 false := by
  unfold Provider.step
  dsimp only
  split
  · exact .of_visible rfl
  · exact .post rfl rfl rfl rfl

lemma posts_task (s : State) (k : ℕ) : Posts s (Provider.step s (.task k)).1 false := by
  unfold Provider.step Provider.runTask
  dsimp only
  split
  · exact .of_visible rfl
  · exact .of_visible (visible_sessionStop s)
  · exact .post rfl rfl rfl rfl
  · exact .post rfl rfl rfl rfl

lemma posts_settings (s : State) (k : ℕ) (error : Option String) :
    Posts s (Provider.step s (.settings k error)).1 false := by
  unfold Provider.step
  dsimp only
  split
  · exact .of_visible rfl
  · exact .of_visible (visible_of_core (settingsApplied_spec _ _ _).1)

lemma posts_packets (s : State) (packets : List Packet) :
    Posts s (Provider.step s (.packets packets)).1 false := by
  unfold Provider.step
  dsimp only
  split_ifs
  · exact .of_visible rfl
  · exact .of_visible (visible_of_core (packetsRead_spec _ _).1)

/-- A step that is none of a thread, nor of the main queue. -/
lemma posts_step (s : State) (i : Input) (hworker : ∀ w a, i ≠ .worker w a) (hmain : i ≠ .main) :
    Posts s (Provider.step s i).1 (bumps s i) := by
  cases i with
  | startTunnel credentials => exact posts_startTunnel s credentials
  | stopTunnel userInitiated => exact posts_stopTunnel s userInitiated
  | worker w a => exact absurd rfl (hworker w a)
  | main => exact absurd rfl hmain
  | fire k => exact posts_fire s k
  | task k => exact posts_task s k
  | settings k error => exact posts_settings s k error
  | packets packets => exact posts_packets s packets

lemma visible_handleSessionFailure (s : State) (w : ℕ) (failure : Failure) (generation : ℕ) :
    visible (handleSessionFailure s w failure generation).1 = visible s := by
  unfold handleSessionFailure
  split_ifs
  · rfl
  · dsimp only
    split_ifs
    · rfl
    · exact (visible_of_core (completeStart_spec _ _).1).trans rfl

/-- **A block of the main queue** leaves the queue to the others. -/
lemma runBlock_spec (s : State) (block : Block) :
    (runBlock s block).1.sessionGeneration = s.sessionGeneration +
        (bumps { s with main := [block] } .main).toNat ∧
      (runBlock s block).1.main = s.main ∧
        ∀ w b n, (runBlock s block).1.worker w = .raising b n → s.worker w = .raising b n := by
  cases block with
  | stage stage => exact ⟨rfl, rfl, fun _ _ _ h => h⟩
  | ready session generation addresses =>
    unfold runBlock
    dsimp only
    split_ifs <;> exact ⟨rfl, rfl, fun _ _ _ h => h⟩
  | packet session bytes => exact ⟨rfl, rfl, fun _ _ _ h => h⟩
  | fail session generation failure =>
    have hvisible : visible (runBlock s (.fail session generation failure)).1 = visible s := by
      unfold runBlock
      dsimp only
      split_ifs
      · rfl
      · exact visible_handleSessionFailure s session failure generation
    simp only [visible, Prod.mk.injEq] at hvisible
    exact ⟨hvisible.1, hvisible.2.1, fun w b n h => hvisible.2.2 ▸ h⟩
  | reconnect generation =>
    unfold runBlock bumps
    dsimp only
    split_ifs with h
    · rw [h]
      exact ⟨rfl, rfl, fun _ _ _ h => h⟩
    · rw [Bool.not_eq_true] at h
      rw [h]
      exact ⟨rfl, rfl, fun _ _ _ h => h⟩
  | beginSession generation =>
    unfold runBlock
    dsimp only
    split_ifs
    · exact ⟨rfl, rfl, fun _ _ _ h => h⟩
    · exact beginSession_spec s generation
  | stopped => exact ⟨rfl, rfl, fun _ _ _ h => h⟩

/-- **A thread that raises a callback** goes on when it dispatches the block. -/
lemma workerStep_raising {w : ℕ} {block : Block} {n : Phase} (h : s.worker w = .raising block n)
    (a : Action) :
    (a = .go ∧ workerStep s w a = { setPhase s w n with main := s.main ++ [block] }) ∨
      a ≠ .go ∧ workerStep s w a = s := by
  unfold workerStep
  rw [h]
  cases a with
  | go => exact .inl ⟨rfl, rfl⟩
  | stage stage => exact .inr ⟨nofun, rfl⟩
  | ready addresses => exact .inr ⟨nofun, rfl⟩
  | packet bytes => exact .inr ⟨nofun, rfl⟩
  | fail failure => exact .inr ⟨nofun, rfl⟩
  | finish zero => exact .inr ⟨nofun, rfl⟩

/-- What a thread that is in no callback does: nothing to the main queue or to other threads, and
a report it raises has the generation of the moment. -/
def Raises (s s' : State) (w : ℕ) : Prop :=
  s'.main = s.main ∧ (∀ v, v ≠ w → s'.worker v = s.worker v) ∧
    ∀ block n, s'.worker w = .raising block n →
      (∀ g, generationOf block = some g → g = s.sessionGeneration) ∧ ∀ b m, n ≠ .raising b m

lemma raises_set {s' : State} {w : ℕ} {p : Phase} (hmain : s'.main = s.main)
    (hworker : s'.worker = Function.update s.worker w p)
    (hp : ∀ block n, p = .raising block n →
      (∀ g, generationOf block = some g → g = s.sessionGeneration) ∧ ∀ b m, n ≠ .raising b m) :
    Raises s s' w := by
  refine ⟨hmain, fun v hv => ?_, fun block n h => ?_⟩
  · rw [hworker, Function.update_of_ne hv]
  · rw [hworker, Function.update_self] at h
    exact hp block n h

/-- **A callback is raised** with the generation of the moment. -/
lemma workerStep_raises {w : ℕ} (h : ∀ block n, s.worker w ≠ .raising block n) (a : Action) :
    Raises s (workerStep s w a) w := by
  unfold workerStep
  split
  case h_1 hp =>
    unfold startEx
    cases s.session <;> exact raises_set (p := .starting _) rfl rfl fun _ _ => nofun
  case h_2 hp => exact raises_set rfl rfl fun _ _ => nofun
  case h_3 hp =>
    refine raises_set rfl rfl ?_
    rintro _ _ ⟨⟩
    exact ⟨fun _ => nofun, fun _ _ => nofun⟩
  case h_4 hp =>
    refine raises_set rfl rfl ?_
    rintro _ _ ⟨⟩
    exact ⟨fun g hg => (Option.some.inj hg).symm, fun _ _ => nofun⟩
  case h_5 zero hp =>
    refine raises_set rfl rfl ?_
    cases zero <;> exact fun _ _ => nofun
  case h_6 hp =>
    refine raises_set rfl rfl ?_
    rintro _ _ ⟨⟩
    exact ⟨fun g hg => (Option.some.inj hg).symm, fun _ _ => nofun⟩
  case h_7 hp => exact raises_set rfl rfl fun _ _ => nofun
  case h_8 hp => exact raises_set rfl rfl fun _ _ => nofun
  case h_9 hp =>
    refine raises_set rfl rfl ?_
    rintro _ _ ⟨⟩
    exact ⟨fun _ => nofun, fun _ _ => nofun⟩
  case h_10 hp =>
    refine raises_set rfl rfl ?_
    rintro _ _ ⟨⟩
    exact ⟨fun g hg => (Option.some.inj hg).symm, fun _ _ => nofun⟩
  case h_11 hp =>
    split_ifs
    · exact ⟨rfl, fun _ _ => rfl, fun block n hw => absurd hw (h block n)⟩
    · refine raises_set rfl rfl ?_
      rintro _ _ ⟨⟩
      exact ⟨fun _ => nofun, fun _ _ => nofun⟩
  case h_12 hp =>
    refine raises_set rfl rfl ?_
    rintro _ _ ⟨⟩
    exact ⟨fun g hg => (Option.some.inj hg).symm, fun _ _ => nofun⟩
  case h_13 hp => exact raises_set rfl rfl fun _ _ => nofun
  case h_14 hp => exact absurd hp (h _ _)
  case h_15 => exact ⟨rfl, fun _ _ => rfl, fun block n hw => absurd hw (h block n)⟩

end Steps

end SstpClient.Superseded
