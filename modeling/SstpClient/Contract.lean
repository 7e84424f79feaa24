import SstpClient.SupersededRun

/-!
What the tunnel provider owes the system.

The system starts the tunnel and stops it, each time with a handler. It may be told that the tunnel
is up once for a start, and only with settings; it may be asked to cancel the tunnel only after the
start has been answered; and it is told of a stop once. Packets pass only while the packet flow is
read.
-/

namespace SstpClient.Contract

open SstpClient.Lib.Machine SstpClient.Provider

/-! ### The contract -/

/-- What passes between the system and the provider. -/
inductive Notice
  | start
  | stop
  | event (e : Event)

/-- What the system has been told. -/
structure Told where
  /-- The handler of the last start has been called. -/
  answered : Bool
  /-- Settings have been handed over since the last start, stop or reconnect. -/
  applied : Bool
  /-- Settings have been handed over since the last stop. -/
  settings : Bool
  /-- The packet flow has been read since the last stop. -/
  reading : Bool
  /-- The stops that have not been answered. -/
  stops : ℕ
  deriving DecidableEq

/-- What the contract allows next. -/
def hear (t : Told) : Notice → Option Told
  | .start => some { t with answered := false, applied := false }
  | .stop =>
    some { t with applied := false, settings := false, reading := false, stops := t.stops + 1 }
  | .event (.completed none) =>
    if t.answered = false ∧ t.applied = true then some { t with answered := true } else none
  | .event (.completed (some _)) => if t.answered then none else some { t with answered := true }
  | .event (.cancelled _) => if t.answered then some t else none
  | .event .retried => some { t with applied := false }
  | .event (.applySettings _) => some { t with applied := true, settings := true }
  | .event .readPackets => if t.settings then some { t with reading := true } else none
  | .event (.wrotePackets _) => if t.reading then some t else none
  | .event (.writeIp _ _) => if t.reading then some t else none
  | .event .stopCompleted => if t.stops = 0 then none else some { t with stops := t.stops - 1 }
  | .event (.delivered _ _) => some t
  | .event (.scheduled _ _) => some t
  | .event .readied => some t

def hearAll (t : Told) (notices : List Notice) : Option Told := notices.foldlM hear t

/-- Before the first start nothing is owed. -/
def silence : Told := ⟨true, false, false, false, 0⟩

/-- The system's own part of a step. -/
def asks (s : State) : Input → List Notice
  | .startTunnel _ => if s.active then [] else [.start]
  | .stopTunnel _ => [.stop]
  | _ => []

def watched (s : State) (i : Input) : State × List Notice :=
  ((step s i).1, asks s i ++ (step s i).2.map .event)

@[simp] lemma hearAll_nil (t : Told) : hearAll t [] = some t := rfl

lemma hearAll_append (t : Told) (n n' : List Notice) :
    hearAll t (n ++ n') = (hearAll t n).bind fun t' => hearAll t' n' := List.foldlM_append

lemma hearAll_cons (t : Told) (n : Notice) (ns : List Notice) :
    hearAll t (n :: ns) = (hear t n).bind fun t' => hearAll t' ns := List.foldlM_cons

lemma hearAll_event {t t' : Told} {e : Event} (h : hear t (.event e) = some t') :
    hearAll t ([e].map .event) = some t' := by
  rw [List.map_singleton, hearAll_cons, h, Option.bind_some, hearAll_nil]

lemma hearAll_events {t t' : Told} {events : List Event}
    (h : hearAll t (events.map .event) = some t') (events' : List Event) :
    hearAll t ((events ++ events').map .event) = hearAll t' (events'.map .event) := by
  rw [List.map_append, hearAll_append, h, Option.bind_some]

/-! ### The provider and what it has told -/

/-- The thread raises no end of a stop. -/
def Clean : Phase → Prop
  | .raising block next => block ≠ .stopped ∧ Clean next
  | _ => True

/-- The answers to stops that are on their way. -/
def pendingStops (s : State) : ℕ := s.global.count .finish + s.main.count .stopped

/-- The provider agrees with what the system has been told. -/
structure Fits (s : State) (t : Told) : Prop where
  answered : t.answered = (s.startCompletionCalled || !s.pendingStartHandler)
  bound : ∀ g ∈ s.applying, g ≤ s.sessionGeneration
  applied : s.sessionGeneration ∈ s.applying → t.answered = false → t.applied = true
  settings : s.sessionGeneration ∈ s.applying → t.settings = true
  reading : s.packetLoopRunning = true → t.reading = true ∧ t.settings = true
  stops : t.stops = pendingStops s
  clean : ∀ w, Clean (s.worker w)

/-- The contract allows the events, and the provider fits behind them. -/
def Meets (t : Told) (r : State × List Event) : Prop :=
  ∃ t', hearAll t (r.2.map .event) = some t' ∧ Fits r.1 t'

section Parts

variable {s : State} {t : Told}

/-- What is looked at, the threads apart. -/
def view (s : State) : Bool × Bool × ℕ × List ℕ × Bool × ℕ :=
  (s.startCompletionCalled, s.pendingStartHandler, s.sessionGeneration, s.applying,
    s.packetLoopRunning, pendingStops s)

lemma Fits.of_view {s' : State} (h : Fits s t) (hview : view s' = view s)
    (hclean : ∀ w, Clean (s'.worker w)) : Fits s' t := by
  simp only [view, Prod.mk.injEq] at hview
  obtain ⟨h1, h2, h3, h4, h5, h6⟩ := hview
  refine ⟨?_, ?_, ?_, ?_, ?_, ?_, hclean⟩
  · rw [h1, h2]
    exact h.answered
  · rw [h3, h4]
    exact h.bound
  · rw [h3, h4]
    exact h.applied
  · rw [h3, h4]
    exact h.settings
  · rw [h5]
    exact h.reading
  · rw [h6]
    exact h.stops

lemma Fits.meets (h : Fits s t) : Meets t (s, []) := ⟨t, rfl, h⟩

/-- A new generation has no settings. -/
lemma Fits.fresh (h : Fits s t) : s.sessionGeneration + 1 ∉ s.applying := fun hmem =>
  absurd (h.bound _ hmem) (by omega)

/-! ### Threads -/

lemma view_sessionStop (s : State) : view (sessionStop s) = view s := by
  unfold sessionStop
  cases s.session <;> rfl

lemma worker_sessionStop (s : State) : (sessionStop s).worker = s.worker := by
  unfold sessionStop
  cases s.session <;> rfl

/-- A thread of a new phase. -/
lemma clean_update {worker : ℕ → Phase} {p : Phase} (h : ∀ w, Clean (worker w)) (v : ℕ)
    (hp : Clean p) (w : ℕ) : Clean (Function.update worker v p w) := by
  by_cases hw : w = v
  · rwa [hw, Function.update_self]
  · rw [Function.update_of_ne hw]
    exact h w

lemma clean_workerStep (h : ∀ w, Clean (s.worker w)) (v : ℕ) (a : Action) (w : ℕ) :
    Clean ((workerStep s v a).worker w) := by
  unfold workerStep
  split
  case h_1 =>
    unfold startEx
    cases s.session <;> exact clean_update h v (p := .starting _) trivial w
  case h_5 zero _ =>
    refine clean_update h v ?_ w
    cases zero <;> trivial
  case h_11 =>
    split_ifs
    · exact h w
    · refine clean_update h v ?_ w
      exact ⟨by simp, trivial⟩
  case h_14 block next hp =>
    have hclean := h v
    rw [hp] at hclean
    exact clean_update h v hclean.2 w
  case h_15 => exact h w
  all_goals
    refine clean_update h v ?_ w
    first
      | trivial
      | exact ⟨by simp, trivial⟩

lemma view_workerStep (h : ∀ w, Clean (s.worker w)) (v : ℕ) (a : Action) :
    view (workerStep s v a) = view s := by
  unfold workerStep
  split
  case h_1 =>
    unfold startEx
    cases s.session <;> rfl
  case h_11 => split_ifs <;> rfl
  case h_14 block next hp =>
    have hclean := h v
    rw [hp] at hclean
    have hcount : (s.main ++ [block]).count .stopped = s.main.count .stopped := by
      rw [List.count_append, List.count_singleton, if_neg (by simpa using hclean.1), Nat.add_zero]
    simp only [view, pendingStops, setPhase, hcount]
  all_goals rfl

lemma view_beginSession (s : State) (generation : ℕ) :
    view (beginSession s generation) = view s := by
  unfold beginSession
  split_ifs
  · rfl
  · exact view_sessionStop s

lemma clean_beginSession (h : ∀ w, Clean (s.worker w)) (generation w : ℕ) :
    Clean ((beginSession s generation).worker w) := by
  unfold beginSession
  split_ifs
  · exact h w
  · refine clean_update (p := .created) (fun v => ?_) generation trivial w
    rw [worker_sessionStop]
    exact h v

/-! ### Answers -/

/-- **The start is answered** once, by a success only with settings. -/
lemma meets_complete (h : Fits s t) (error : Option TunnelError)
    (happlied : error = none → t.answered = false → t.applied = true) :
    ∃ t', hearAll t ((completeStartWithError s error).2.map .event) = some t' ∧
      Fits (completeStartWithError s error).1 t' ∧ t'.answered = true ∧
        t'.settings = t.settings := by
  unfold completeStartWithError
  cases hcalled : s.startCompletionCalled with
  | true =>
    have hanswered : t.answered = true := by rw [h.answered, hcalled, Bool.true_or]
    exact ⟨t, rfl, h, hanswered, rfl⟩
  | false =>
    have hpending : t.answered = !s.pendingStartHandler := by
      rw [h.answered, hcalled, Bool.false_or]
    rw [if_neg Bool.false_ne_true]
    have hfits : ∀ t' : Told, t'.answered = true → t'.applied = t.applied →
        t'.settings = t.settings → t'.reading = t.reading → t'.stops = t.stops →
          Fits { s with startCompletionCalled := true, pendingStartHandler := false } t' := by
      intro t' h1 h2 h3 h4 h5
      refine ⟨h1, h.bound, fun _ hf => ?_, fun hmem => ?_, fun hrun => ?_, ?_, h.clean⟩
      · rw [h1] at hf
        cases hf
      · rw [h3]
        exact h.settings hmem
      · rw [h3, h4]
        exact h.reading hrun
      · rw [h5]
        exact h.stops
    cases hp : s.pendingStartHandler with
    | false =>
      have hanswered : t.answered = true := by rw [hpending, hp, Bool.not_false]
      exact ⟨t, rfl, hfits t hanswered rfl rfl rfl rfl, hanswered, rfl⟩
    | true =>
      have hanswered : t.answered = false := by rw [hpending, hp, Bool.not_true]
      refine ⟨{ t with answered := true }, ?_, hfits _ rfl rfl rfl rfl rfl, rfl, rfl⟩
      rw [if_pos rfl]
      apply hearAll_event
      cases error with
      | none => rw [hear, if_pos ⟨hanswered, happlied rfl hanswered⟩]
      | some e => rw [hear, if_neg (by simp [hanswered])]

/-- **A failure cancels** the tunnel behind the answer. -/
lemma meets_cancel (h : Fits s t) (error : TunnelError) :
    Meets t ((completeStartWithError s (some error)).1,
      (completeStartWithError s (some error)).2 ++ [.cancelled error]) := by
  obtain ⟨t', hhear, hfits, hanswered, -⟩ := meets_complete h (some error) nofun
  refine ⟨t', ?_, hfits⟩
  rw [hearAll_events hhear]
  exact hearAll_event (by rw [hear, if_pos hanswered])

/-- A failure of a session. -/
lemma meets_failure (h : Fits s t) (session : ℕ) (failure : Failure) (generation : ℕ) :
    Meets t (handleSessionFailure s session failure generation) := by
  unfold handleSessionFailure
  dsimp only
  split_ifs
  · exact h.meets
  · exact ⟨t, rfl, h.of_view rfl h.clean⟩
  · have hfits : Fits { s with
        lastErrorCode := some failure.code
        lastErrorMessage := some failure.message
        currentStage := failure.stage } t := h.of_view rfl h.clean
    exact meets_cancel hfits (.failure failure)

/-! ### The packet flow -/

/-- The flow is read, with settings. -/
lemma meets_reads (h : Fits s t) (hsettings : t.settings = true) (running : Bool) (reads : ℕ) :
    Meets t ({ s with packetLoopRunning := running, reads := reads }, [.readPackets]) := by
  refine ⟨{ t with reading := true }, hearAll_event ?_, ⟨h.answered, h.bound, h.applied, h.settings,
    fun _ => ⟨rfl, hsettings⟩, h.stops, h.clean⟩⟩
  rw [hear, if_pos hsettings]

lemma meets_readPackets (h : Fits s t) : Meets t (readPackets s) := by
  unfold readPackets
  split_ifs with hrun
  · exact meets_reads h (h.reading hrun).2 s.packetLoopRunning (s.reads + 1)
  · exact h.meets

lemma meets_startPacketLoop (h : Fits s t) (hsettings : t.settings = true) :
    Meets t (startPacketLoop s) := by
  unfold startPacketLoop
  split_ifs with hrun
  · exact h.meets
  · exact meets_reads h hsettings true (s.reads + 1)

/-- Packets are taken while the flow is read. -/
lemma hearAll_writes (hreading : t.reading = true) (session : ℕ) (packets : List Packet) :
    hearAll t ((packets.map fun p => Event.writeIp session p.bytes).map .event) = some t := by
  induction packets with
  | nil => rfl
  | cons p packets ih =>
    rw [List.map_cons, List.map_cons, hearAll_cons, hear, if_pos hreading, Option.bind_some, ih]

lemma meets_packetsRead (h : Fits s t) (packets : List Packet) :
    Meets t (packetsRead s packets) := by
  unfold packetsRead
  split
  · next session hrun _ =>
    obtain ⟨t', hhear, hfits⟩ := meets_readPackets h
    refine ⟨t', ?_, hfits⟩
    rw [hearAll_events (hearAll_writes (h.reading hrun).1 _ _), hhear]
  · exact h.meets

/-- **The settings have been applied**, or not. -/
lemma meets_settingsApplied (h : Fits s t) (generation : ℕ) (error : Option String)
    (happlied : generation = s.sessionGeneration → t.answered = false → t.applied = true)
    (hsettings : generation = s.sessionGeneration → t.settings = true) :
    Meets t (settingsApplied s generation error) := by
  unfold settingsApplied
  split_ifs with hstale
  · exact h.meets
  · have hsame : generation = s.sessionGeneration :=
      (not_not.mp fun hne => hstale (bne_iff_ne.mpr hne)).symm
    cases error with
    | some description =>
      have hfits : Fits { s with
          lastErrorCode := some .internal
          lastErrorMessage := some description
          currentStage := .error } t := h.of_view rfl h.clean
      exact meets_cancel hfits (.system description)
    | none =>
      have hview : Fits { s with
          currentStage := .connected, lastErrorCode := none, lastErrorMessage := none } t :=
        h.of_view rfl h.clean
      obtain ⟨t', hhear, hfits, -, hset⟩ := meets_complete hview none fun _ => happlied hsame
      obtain ⟨t'', hhear', hfits'⟩ := meets_startPacketLoop hfits (hset.trans (hsettings hsame))
      refine ⟨t'', ?_, hfits'⟩
      rw [hearAll_events hhear, hhear']

/-! ### The main queue -/

/-- A ready block hands over settings of the generation of the provider. -/
lemma fits_ready (h : Fits s t) {s' : State}
    (happlying : s'.applying = s.applying ++ [s.sessionGeneration])
    (hrest : (s'.startCompletionCalled, s'.pendingStartHandler, s'.sessionGeneration,
      s'.packetLoopRunning, pendingStops s', s'.worker) = (s.startCompletionCalled,
        s.pendingStartHandler, s.sessionGeneration, s.packetLoopRunning, pendingStops s, s.worker)) :
    Fits s' { t with applied := true, settings := true } := by
  simp only [Prod.mk.injEq] at hrest
  obtain ⟨h1, h2, h3, h4, h5, h6⟩ := hrest
  refine ⟨?_, ?_, fun _ _ => rfl, fun _ => rfl, fun hrun => ?_, ?_, ?_⟩
  · rw [h1, h2]
    exact h.answered
  · rw [happlying, h3]
    intro g hg
    rcases List.mem_append.mp hg with hg | hg
    · exact h.bound g hg
    · rw [List.mem_singleton.mp hg]
  · rw [h4] at hrun
    exact ⟨(h.reading hrun).1, rfl⟩
  · rw [h5]
    exact h.stops
  · rw [h6]
    exact h.clean

/-- A new generation: no settings have been handed over for it. -/
lemma fits_bump (h : Fits s t) {s' : State} (t' : Told)
    (hgen : s'.sessionGeneration = s.sessionGeneration + 1) (happlying : s'.applying = s.applying)
    (hanswered : t'.answered = (s'.startCompletionCalled || !s'.pendingStartHandler))
    (hreading : s'.packetLoopRunning = true → t'.reading = true ∧ t'.settings = true)
    (hstops : t'.stops = pendingStops s') (hclean : ∀ w, Clean (s'.worker w)) : Fits s' t' := by
  have hfresh : s'.sessionGeneration ∉ s'.applying := by
    rw [hgen, happlying]
    exact h.fresh
  refine ⟨hanswered, fun g hg => ?_, fun hmem => absurd hmem hfresh,
    fun hmem => absurd hmem hfresh, hreading, hstops, hclean⟩
  rw [happlying] at hg
  rw [hgen]
  exact Nat.le_succ_of_le (h.bound g hg)

/-- **A block of the main queue** that does not end a stop. -/
lemma meets_runBlock (h : Fits s t) {block : Block} (hne : block ≠ .stopped) :
    Meets t (runBlock s block) := by
  cases block with
  | stage stage => exact ⟨t, rfl, h.of_view rfl h.clean⟩
  | ready session generation addresses =>
    unfold runBlock
    dsimp only
    split_ifs with hstale
    · exact h.meets
    · rw [Bool.or_eq_true, not_or] at hstale
      have hsame : generation = s.sessionGeneration :=
        (not_not.mp fun hne => hstale.1 (bne_iff_ne.mpr hne)).symm
      rw [hsame]
      exact ⟨_, rfl, fits_ready h rfl rfl⟩
  | packet session bytes =>
    unfold runBlock
    dsimp only
    split_ifs with hpass
    · rw [Bool.and_eq_true] at hpass
      refine ⟨t, hearAll_event ?_, h⟩
      rw [hear, if_pos (h.reading hpass.1).1]
    · exact h.meets
  | fail session generation failure =>
    unfold runBlock
    dsimp only
    split_ifs
    · exact ⟨t, rfl, h⟩
    · obtain ⟨t', hhear, hfits⟩ := meets_failure h session failure generation
      exact ⟨t', by rw [List.map_cons, hearAll_cons]; exact hhear, hfits⟩
  | reconnect generation =>
    unfold runBlock
    dsimp only
    split_ifs
    · exact ⟨t, rfl, h.of_view rfl h.clean⟩
    · refine ⟨{ t with applied := false }, rfl, ?_⟩
      refine fits_bump h _ rfl rfl h.answered h.reading ?_ h.clean
      have hcount : (s.global ++ [Task.teardown (s.sessionGeneration + 1)]).count .finish =
          s.global.count .finish := by
        simp
      unfold pendingStops
      rw [hcount]
      exact h.stops
  | beginSession generation =>
    unfold runBlock
    dsimp only
    split_ifs
    · exact h.meets
    · exact ⟨t, rfl, h.of_view (view_beginSession s generation)
        (clean_beginSession h.clean generation)⟩
  | stopped => exact absurd rfl hne

/-! ### One step -/

lemma meets_main (h : Fits s t) : Meets t (step s .main) := by
  unfold step
  dsimp only
  split
  · exact h.meets
  · next block rest hmain =>
    by_cases hstopped : block = .stopped
    · subst hstopped
      have hcount : pendingStops s = pendingStops { s with main := rest } + 1 := by
        simp [pendingStops, hmain, Nat.add_assoc]
      have hstops : t.stops = pendingStops { s with main := rest } + 1 := by rw [h.stops, hcount]
      refine ⟨{ t with stops := t.stops - 1 }, hearAll_event ?_, h.answered, h.bound, h.applied,
        h.settings, h.reading, ?_, h.clean⟩
      · rw [hear, if_neg (by omega)]
      · dsimp only
        rw [hstops, Nat.add_sub_cancel]
        rfl
    · have hview : view { s with main := rest } = view s := by
        simp [view, pendingStops, hmain, hstopped]
      exact meets_runBlock (h.of_view hview h.clean) hstopped

lemma count_eraseIdx {l : List Task} {k : ℕ} {x : Task} (h : l[k]? = some x) :
    l.count .finish = (l.eraseIdx k).count .finish + if x = .finish then 1 else 0 := by
  obtain ⟨hk, rfl⟩ := List.getElem?_eq_some_iff.mp h
  rw [← (List.getElem_cons_eraseIdx_perm hk).count_eq, List.count_cons]
  simp

/-- A block of the global queue goes on; the end of a stop stays one. -/
lemma view_runTask (s : State) (k : ℕ) :
    view (runTask s k) = view s ∨
      view (runTask s k) = view { s with packetLoopRunning := false } := by
  unfold runTask
  split
  · exact .inl rfl
  · next nextGen hk =>
    right
    have hcount : (s.global.set k (.join nextGen)).count .finish = s.global.count .finish := by
      obtain ⟨hlt, heq⟩ := List.getElem?_eq_some_iff.mp hk
      rw [List.count_set hlt, heq]
      simp
    have hmain : (sessionStop s).main = s.main := by
      unfold sessionStop
      cases s.session <;> rfl
    have hview := view_sessionStop s
    simp only [view, Prod.mk.injEq] at hview
    obtain ⟨h1, h2, h3, h4, -, -⟩ := hview
    simp only [view, pendingStops, teardownWorkerKeepingCredentials, h1, h2, h3, h4, hcount, hmain]
  · next nextGen hk =>
    have hcount := count_eraseIdx hk
    refine .inl ?_
    simp only [view, pendingStops, hcount]
    simp
  · next hk =>
    have hcount := count_eraseIdx hk
    refine .inl ?_
    simp only [view, pendingStops, hcount]
    simp
    omega

lemma meets_task (h : Fits s t) (k : ℕ) : Meets t (step s (.task k)) := by
  have hworker : (runTask s k).worker = s.worker := by
    unfold runTask
    split
    · rfl
    · exact worker_sessionStop s
    · rfl
    · rfl
  have hclean : ∀ w, Clean ((runTask s k).worker w) := by
    rw [hworker]
    exact h.clean
  refine ⟨t, rfl, ?_⟩
  rcases view_runTask s k with hview | hview
  · exact h.of_view hview hclean
  · have hoff : Fits { s with packetLoopRunning := false } t :=
      ⟨h.answered, h.bound, h.applied, h.settings, nofun, h.stops, h.clean⟩
    exact hoff.of_view hview hclean

/-- What the provider and the system say of one input. -/
def Keeps (t : Told) (s : State) (i : Input) : Prop :=
  ∃ t', hearAll t (watched s i).2 = some t' ∧ Fits (watched s i).1 t'

/-- An input the system does not ask. -/
lemma keeps_of_meets {i : Input} (hasks : asks s i = []) (h : Meets t (step s i)) :
    Keeps t s i := by
  obtain ⟨t', hhear, hfits⟩ := h
  refine ⟨t', ?_, hfits⟩
  rw [watched, hasks, List.nil_append]
  exact hhear

/-- **A start**: without credentials it is answered at once. -/
lemma keeps_start (h : Fits s t) (credentials : Bool) : Keeps t s (.startTunnel credentials) := by
  cases hactive : s.active with
  | true =>
    refine keeps_of_meets (by rw [asks, if_pos hactive]) ?_
    rw [step, if_pos hactive]
    exact h.meets
  | false =>
    have hoff : ¬s.active = true := by rw [hactive]; exact Bool.false_ne_true
    unfold Keeps watched
    rw [asks, if_neg hoff, step, if_neg hoff, List.singleton_append, hearAll_cons, hear,
      Option.bind_some]
    unfold startTunnel
    cases credentials with
    | true =>
      rw [if_pos rfl]
      refine ⟨_, rfl, Fits.of_view ?_ (view_beginSession _ _) (clean_beginSession ?_ _)⟩
      · exact fits_bump h _ rfl rfl rfl h.reading h.stops h.clean
      · exact h.clean
    | false =>
      refine ⟨{ t with answered := true, applied := false }, rfl, rfl, h.bound, fun _ hf => ?_,
        h.settings, h.reading, h.stops, h.clean⟩
      cases hf

/-- **A stop**: its end is on the way. -/
lemma keeps_stop (h : Fits s t) (userInitiated : Bool) :
    Keeps t s (.stopTunnel userInitiated) := by
  have hcount : t.stops + 1 =
      (s.global ++ [Task.finish]).count .finish + s.main.count .stopped := by
    rw [h.stops, pendingStops, List.count_append, List.count_singleton_self]
    omega
  refine ⟨_, rfl, ?_⟩
  unfold watched step stopTunnel sessionStop
  dsimp only
  cases s.session with
  | none => exact fits_bump h _ rfl rfl h.answered nofun hcount h.clean
  | some w => exact fits_bump h _ rfl rfl h.answered nofun hcount h.clean

lemma keeps_fire (h : Fits s t) (k : ℕ) : Keeps t s (.fire k) := by
  refine keeps_of_meets rfl ?_
  unfold step
  dsimp only
  split
  · exact h.meets
  · next generation hk =>
    refine ⟨t, rfl, h.of_view ?_ h.clean⟩
    simp [view, pendingStops]

lemma keeps_settings (h : Fits s t) (k : ℕ) (error : Option String) :
    Keeps t s (.settings k error) := by
  refine keeps_of_meets rfl ?_
  unfold step
  dsimp only
  split
  · exact h.meets
  · next generation hk =>
    have hmem : generation ∈ s.applying := List.mem_of_getElem? hk
    have hfits : Fits { s with applying := s.applying.eraseIdx k } t :=
      ⟨h.answered, fun g hg => h.bound g (List.mem_of_mem_eraseIdx hg),
        fun hg => h.applied (List.mem_of_mem_eraseIdx hg),
        fun hg => h.settings (List.mem_of_mem_eraseIdx hg), h.reading, h.stops, h.clean⟩
    refine meets_settingsApplied hfits generation error (fun hsame => ?_) fun hsame => ?_
    · exact h.applied (hsame ▸ hmem)
    · exact h.settings (hsame ▸ hmem)

lemma keeps_packets (h : Fits s t) (packets : List Packet) : Keeps t s (.packets packets) := by
  refine keeps_of_meets rfl ?_
  unfold step
  dsimp only
  split_ifs
  · exact h.meets
  · exact meets_packetsRead (s := { s with reads := s.reads - 1 }) (h.of_view rfl h.clean) packets

lemma keeps_worker (h : Fits s t) (w : ℕ) (a : Action) : Keeps t s (.worker w a) :=
  keeps_of_meets rfl
    ⟨t, rfl, h.of_view (view_workerStep h.clean w a) (clean_workerStep h.clean w a)⟩

/-- **One step keeps the contract.** -/
lemma step_keeps (h : Fits s t) (i : Input) : Keeps t s i := by
  cases i with
  | startTunnel credentials => exact keeps_start h credentials
  | stopTunnel userInitiated => exact keeps_stop h userInitiated
  | worker w a => exact keeps_worker h w a
  | main => exact keeps_of_meets rfl (meets_main h)
  | fire k => exact keeps_fire h k
  | task k => exact keeps_of_meets rfl (meets_task h k)
  | settings k error => exact keeps_settings h k error
  | packets packets => exact keeps_packets h packets

end Parts

/-! ### A run -/

lemma fits_init : Fits init silence := by
  refine ⟨rfl, ?_, ?_, ?_, nofun, rfl, fun _ => trivial⟩
  · intro g hg
    cases hg
  · intro hg
    cases hg
  · intro hg
    cases hg

/-- What a run has told. -/
def Told.Of (s : State) (notices : List Notice) : Prop :=
  ∃ t, hearAll silence notices = some t ∧ Fits s t

lemma told_step {s : State} {notices : List Notice} (h : Told.Of s notices) (i : Input) :
    Told.Of (watched s i).1 (notices ++ (watched s i).2) := by
  obtain ⟨t, hhear, hfits⟩ := h
  obtain ⟨t', hhear', hfits'⟩ := step_keeps hfits i
  refine ⟨t', ?_, hfits'⟩
  rw [hearAll_append, hhear, Option.bind_some, hhear']

/-- **The provider keeps the contract**: no run tells the system more than it may be told, and the
stops that are not answered are those whose end is on the way. -/
theorem keeps_contract (inputs : List Input) :
    ∃ told, hearAll silence (run watched init inputs).2 = some told ∧
      told.stops = pendingStops (run watched init inputs).1 := by
  have h0 : Told.Of init [] := ⟨silence, rfl, fits_init⟩
  obtain ⟨t, hhear, hfits⟩ := run_inv_all Told.Of (fun _ _ i h => told_step h i) h0 inputs
  rw [List.nil_append] at hhear
  exact ⟨t, hhear, hfits.stops⟩

/-- A success without settings would be too much. -/
example : hearAll silence [.start, .event (.completed none)] = none := rfl

end SstpClient.Contract
