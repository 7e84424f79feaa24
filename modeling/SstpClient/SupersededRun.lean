import SstpClient.Superseded

/-!
The marks in a run: they tell which session a callback speaks for, and so when one of a session that
is gone has an effect.
-/

namespace SstpClient.Superseded

open SstpClient.Lib.Machine SstpClient.Provider SstpClient.Reconnect

/-! ### What the marks tell -/

section Marks

variable {x : Watched} {i : Input} {gen : ℕ} {block : Block} {mark : Mark}

/-- The generation that the callback has found is the one of the provider, unless it is
overtaken. -/
def Kept (gen : ℕ) (block : Block) (mark : Mark) : Prop :=
  ∀ g, generationOf block = some g → g ≤ gen ∧ (mark.overtaken = true ↔ g ≠ gen)

lemma kept_plain (h : generationOf block = none) (mark : Mark) : Kept gen block mark := by
  intro g hg
  rw [h] at hg
  cases hg

lemma kept_now (h : ∀ g, generationOf block = some g → g = gen) (hmark : mark.overtaken = false) :
    Kept gen block mark := by
  intro g hg
  rw [h g hg, hmark]
  exact ⟨le_refl gen, iff_of_false Bool.false_ne_true fun hne => hne rfl⟩

/-- A new generation overtakes what there is. -/
lemma Kept.overtake (h : Kept gen block mark) (b : Bool) :
    Kept (gen + b.toNat) block (overtake b mark) := by
  intro g hg
  obtain ⟨hle, hiff⟩ := h g hg
  cases b with
  | false =>
    refine ⟨hle, ?_⟩
    change (mark.overtaken || false) = true ↔ _
    rw [Bool.or_false]
    exact hiff
  | true =>
    refine ⟨Nat.le_succ_of_le hle, ?_⟩
    change (mark.overtaken || true) = true ↔ g ≠ gen + 1
    rw [Bool.or_true]
    exact iff_of_true rfl (Nat.lt_succ_of_le hle).ne

structure Inv (x : Watched) : Prop where
  queued : List.Forall₂ (Kept x.provider.sessionGeneration) x.provider.main x.queued
  raised : ∀ w block n, x.provider.worker w = .raising block n →
    Kept x.provider.sessionGeneration block (x.raised w) ∧ ∀ b m, n ≠ .raising b m

lemma inv_init : Inv init := ⟨.nil, fun _ _ _ => nofun⟩

/-- The blocks that have come are no callbacks. -/
lemma pad_kept {old new : List Block} {marks : List Mark} (h : List.Forall₂ (Kept gen) old marks)
    (hnew : ∀ block ∈ new, generationOf block = none) :
    List.Forall₂ (Kept gen) (old ++ new) (pad (old ++ new).length marks) := by
  have hlen : (old ++ new).length - marks.length = new.length := by
    rw [List.length_append, h.length_eq]
    omega
  unfold pad
  rw [hlen]
  refine List.rel_append h ?_
  clear h hlen
  induction new with
  | nil => exact .nil
  | cons block new ih =>
    rw [List.length_cons, List.replicate_succ]
    exact .cons (kept_plain (hnew block List.mem_cons_self) plain)
      (ih fun b hb => hnew b (List.mem_cons_of_mem block hb))

/-- **One step**, by what it leaves of the queue and of the threads. -/
lemma inv_of (old new : List Block)
    (hgen : (Provider.step x.provider i).1.sessionGeneration =
      x.provider.sessionGeneration + (bumps x.provider i).toNat)
    (hmain : (Provider.step x.provider i).1.main = old ++ new)
    (hold : List.Forall₂ (Kept x.provider.sessionGeneration) old (queuedAfter x i))
    (hnew : ∀ block ∈ new, generationOf block = none)
    (hworker : ∀ w block n, (Provider.step x.provider i).1.worker w = .raising block n →
      Kept x.provider.sessionGeneration block (raisedAfter x i w) ∧ ∀ b m, n ≠ .raising b m) :
    Inv (step x i).1 := by
  constructor
  · change List.Forall₂ (Kept (Provider.step x.provider i).1.sessionGeneration)
      (Provider.step x.provider i).1.main
      ((pad (Provider.step x.provider i).1.main.length (queuedAfter x i)).map _)
    rw [hgen, hmain, List.forall₂_map_right_iff]
    exact (pad_kept hold hnew).imp fun block mark h => h.overtake _
  · intro w block n h
    change Kept (Provider.step x.provider i).1.sessionGeneration block _ ∧ _
    rw [hgen]
    exact ⟨(hworker w block n h).1.overtake _, (hworker w block n h).2⟩

lemma queuedAfter_of_ne {w : ℕ} {a : Action} (ha : a ≠ .go) :
    queuedAfter x (.worker w a) = x.queued := by
  cases a with
  | go => exact absurd rfl ha
  | stage stage => rfl
  | ready addresses => rfl
  | packet bytes => rfl
  | fail failure => rfl
  | finish zero => rfl

lemma inv_worker (h : Inv x) (w : ℕ) (a : Action) : Inv (step x (.worker w a)).1 := by
  have hgen := workerStep_generation x.provider w a
  by_cases hraising : ∃ block n, x.provider.worker w = .raising block n
  · obtain ⟨block, n, hw⟩ := hraising
    have hraised : raisedAfter x (.worker w a) = x.raised := by
      unfold raisedAfter
      dsimp only
      rw [hw]
    rcases workerStep_raising hw a with ⟨rfl, hstep⟩ | ⟨ha, hstep⟩
    · -- the block is dispatched
      have hqueued : queuedAfter x (.worker w .go) = x.queued ++ [x.raised w] := by
        unfold queuedAfter
        dsimp only
        rw [hw]
      refine inv_of (x.provider.main ++ [block]) [] hgen ?_ ?_ (fun _ => nofun) fun v b m hv => ?_
      · rw [List.append_nil]
        exact congrArg State.main hstep
      · rw [hqueued]
        exact List.rel_append h.queued (.cons (h.raised w block n hw).1 .nil)
      · rw [hraised]
        change (workerStep x.provider w .go).worker v = _ at hv
        rw [hstep] at hv
        change Function.update x.provider.worker w n v = _ at hv
        by_cases hvw : v = w
        · rw [hvw, Function.update_self] at hv
          exact absurd hv ((h.raised w block n hw).2 b m)
        · rw [Function.update_of_ne hvw] at hv
          exact h.raised v b m hv
    · -- the thread is in the callback
      refine inv_of x.provider.main [] hgen ?_ ?_ (fun _ => nofun) fun v b m hv => ?_
      · rw [List.append_nil]
        exact congrArg State.main hstep
      · rw [queuedAfter_of_ne ha]
        exact h.queued
      · rw [hraised]
        change (workerStep x.provider w a).worker v = _ at hv
        rw [hstep] at hv
        exact h.raised v b m hv
  · have hno : ∀ block n, x.provider.worker w ≠ .raising block n := fun block n hw =>
      hraising ⟨block, n, hw⟩
    obtain ⟨hmain, hothers, hreport⟩ := workerStep_raises hno a
    have hqueued : queuedAfter x (.worker w a) = x.queued := by
      by_cases ha : a = .go
      · subst ha
        unfold queuedAfter
        dsimp only
        split
        · next hw => exact absurd hw (hno _ _)
        · rfl
      · exact queuedAfter_of_ne ha
    have hraised : raisedAfter x (.worker w a) =
        Function.update x.raised w (raisedNow x.provider w) := by
      unfold raisedAfter
      dsimp only
      split
      · next hw => exact absurd hw (hno _ _)
      · rfl
    refine inv_of x.provider.main [] hgen ?_ ?_ (fun _ => nofun) fun v b m hv => ?_
    · rw [List.append_nil]
      exact hmain
    · rw [hqueued]
      exact h.queued
    · rw [hraised]
      change (workerStep x.provider w a).worker v = _ at hv
      by_cases hvw : v = w
      · subst hvw
        rw [Function.update_self]
        exact ⟨kept_now (hreport b m hv).1 rfl, (hreport b m hv).2⟩
      · rw [hothers v hvw] at hv
        rw [Function.update_of_ne hvw]
        exact h.raised v b m hv

lemma inv_main (h : Inv x) : Inv (step x .main).1 := by
  cases hmain : x.provider.main with
  | nil =>
    have hstep : Provider.step x.provider .main = (x.provider, []) := by
      unfold Provider.step
      dsimp only
      rw [hmain]
    have hbumps : bumps x.provider .main = false := by
      unfold bumps
      dsimp only
      rw [hmain]
    have hqueued := h.queued
    rw [hmain, List.forall₂_nil_left_iff] at hqueued
    refine inv_of [] [] ?_ ?_ ?_ (fun _ => nofun) fun w b n hw => ?_
    · rw [hstep, hbumps]
      rfl
    · rw [hstep, hmain]
      rfl
    · change List.Forall₂ _ [] x.queued.tail
      rw [hqueued]
      exact .nil
    · rw [hstep] at hw
      exact h.raised w b n hw
  | cons block rest =>
    have hstep : Provider.step x.provider .main =
        runBlock { x.provider with main := rest } block := by
      unfold Provider.step
      dsimp only
      rw [hmain]
    obtain ⟨hgen, hrest, hworker⟩ := runBlock_spec { x.provider with main := rest } block
    have hbumps : bumps x.provider .main =
        bumps { { x.provider with main := rest } with main := [block] } .main := by
      unfold bumps
      dsimp only
      rw [hmain]
      cases block <;> rfl
    obtain ⟨mark, marks, -, hmarks, hqueued⟩ := List.forall₂_cons_left_iff.mp (hmain ▸ h.queued)
    refine inv_of rest [] ?_ ?_ ?_ (fun _ => nofun) fun w b n hw => ?_
    · rw [hstep, hbumps]
      exact hgen
    · rw [hstep, List.append_nil]
      exact hrest
    · change List.Forall₂ _ rest x.queued.tail
      rw [hqueued]
      exact hmarks
    · rw [hstep] at hw
      exact h.raised w b n (hworker w b n hw)

theorem inv_step (h : Inv x) (i : Input) : Inv (step x i).1 := by
  by_cases hworker : ∃ w a, i = .worker w a
  · obtain ⟨w, a, rfl⟩ := hworker
    exact inv_worker h w a
  by_cases hmain : i = .main
  · subst hmain
    exact inv_main h
  have hno : ∀ w a, i ≠ .worker w a := fun w a hi => hworker ⟨w, a, hi⟩
  obtain ⟨hgen, ⟨new, hnew, hnone⟩, hthreads⟩ := posts_step x.provider i hno hmain
  have hraised : raisedAfter x i = x.raised := by
    cases i with
    | worker w a => exact absurd rfl (hno w a)
    | _ => rfl
  have hqueued : queuedAfter x i = x.queued := by
    cases i with
    | worker w a => exact absurd rfl (hno w a)
    | main => exact absurd rfl hmain
    | _ => rfl
  refine inv_of x.provider.main new hgen hnew ?_ hnone fun w b n hw => ?_
  · rw [hqueued]
    exact h.queued
  · rw [hraised]
    exact h.raised w b n (hthreads w b n hw)

end Marks

/-! ### When a callback has an effect -/

section Effect

variable {x : Watched} {s : State} {block : Block} {rest : List Block} {mark : Mark}

lemma noEffect_same (s : State) : NoEffect s (s, []) := ⟨rfl, rfl, rfl, fun _ => nofun⟩

lemma stale_iff (s : State) (generation : ℕ) :
    (s.sessionGeneration != generation || s.userStopRequested) = true ↔
      s.sessionGeneration ≠ generation ∨ s.userStopRequested = true := by
  rw [Bool.or_eq_true, bne_iff_ne]

/-- **A ready block** applies settings when it passes. -/
lemma ready_noEffect_iff (s : State) (session generation : ℕ) (addresses : Addresses) :
    NoEffect s (runBlock s (.ready session generation addresses)) ↔
      s.sessionGeneration ≠ generation ∨ s.userStopRequested = true := by
  rw [← stale_iff]
  unfold runBlock
  dsimp only
  split_ifs with hstale
  · exact iff_of_true (noEffect_same s) hstale
  · refine iff_of_false (fun h => ?_) hstale
    exact h.2.2.2 (.applySettings addresses) (List.mem_cons_of_mem _ List.mem_cons_self) trivial

/-- **A packet block** writes while packets are taken. -/
lemma packet_noEffect_iff (s : State) (session : ℕ) (bytes : List UInt8) :
    NoEffect s (runBlock s (.packet session bytes)) ↔
      s.packetLoopRunning = false ∨ s.session = none := by
  unfold runBlock
  dsimp only
  split_ifs with htaken
  · rw [Bool.and_eq_true, Option.isSome_iff_ne_none] at htaken
    refine iff_of_false (fun h => h.2.2.2 (.wrotePackets bytes) List.mem_cons_self trivial) ?_
    rintro (h | h)
    · exact Bool.false_ne_true (h.symm.trans htaken.1)
    · exact htaken.2 h
  · rw [Bool.and_eq_true, not_and_or, Bool.not_eq_true, Bool.not_eq_true,
      Option.isSome_eq_false_iff, Option.isNone_iff_eq_none] at htaken
    exact iff_of_true (noEffect_same s) htaken

/-- **A failure block** counts, or cancels the tunnel, when it passes. -/
lemma fail_noEffect_iff (s : State) (session generation : ℕ) (failure : Failure) :
    NoEffect s (runBlock s (.fail session generation failure)) ↔
      s.sessionGeneration ≠ generation ∨ s.userStopRequested = true := by
  have hquiet : NoEffect s (s, [.delivered session failure]) := by
    refine ⟨rfl, rfl, rfl, fun e he => ?_⟩
    rw [List.mem_singleton.mp he]
    exact id
  by_cases hgen : s.sessionGeneration = generation
  · subst hgen
    by_cases hstop : s.userStopRequested = true
    · have hrun : runBlock s (.fail session s.sessionGeneration failure) =
          (s, [.delivered session failure]) := by
        simp only [runBlock, handleSessionFailure, hstop, bne_self_eq_false, Bool.or_true,
          Bool.false_eq_true, if_false, if_true]
      rw [hrun]
      exact iff_of_true hquiet (.inr hstop)
    refine iff_of_false (fun h => ?_) (not_or.mpr ⟨fun h => h rfl, hstop⟩)
    rw [Bool.not_eq_true] at hstop
    by_cases hcan : sstpIosErrorIsFatal failure.code = false ∧
        s.reconnectAttempt < kSSTPMaxReconnectAttempts ∧ s.reconnectScheduled = false
    · -- the attempt is counted
      obtain ⟨s', delay, hrun, hattempt, -⟩ :=
        runBlock_fail_schedule (w := session) (f := failure) hstop hcan.1 hcan.2.1 hcan.2.2
      rw [hrun] at h
      exact (Nat.succ_ne_self _) (hattempt.symm.trans h.1)
    · -- the tunnel is cancelled
      have hno : sstpIosErrorIsFatal failure.code = true ∨
          ¬ s.reconnectAttempt < kSSTPMaxReconnectAttempts ∨ s.reconnectScheduled = true := by
        rw [not_and_or, not_and_or, Bool.not_eq_false, Bool.not_eq_false] at hcan
        exact hcan
      obtain ⟨s', es, hrun, -⟩ := runBlock_fail_cancel (w := session) (f := failure) hstop hno
      rw [hrun] at h
      exact h.2.2.2 (.cancelled (.failure failure)) (by simp) trivial
  · rw [runBlock_fail_stale (Ne.symm hgen)]
    exact iff_of_true hquiet (.inl hgen)

lemma next_cons {marks : List Mark} (hmain : x.provider.main = block :: rest)
    (hqueued : x.queued = mark :: marks) : next x = some (block, mark) := by
  unfold next
  rw [hmain, hqueued]
  rfl

/-- **The next block**: it has no effect exactly when it comes too late. -/
lemma silent_iff (h : Inv x) (i : Input) : Silent x i ↔ Harmless x i := by
  cases i with
  | main =>
    cases hmain : x.provider.main with
    | nil =>
      have hnext : next x = none := by
        unfold next
        rw [hmain]
        rfl
      unfold Silent Harmless
      dsimp only
      rw [hnext]
    | cons block rest =>
      obtain ⟨mark, marks, hkept, -, hqueued⟩ := List.forall₂_cons_left_iff.mp (hmain ▸ h.queued)
      have hstep : Provider.step x.provider .main =
          runBlock { x.provider with main := rest } block := by
        unfold Provider.step
        dsimp only
        rw [hmain]
      have hovertaken : ∀ g, generationOf block = some g →
          (x.provider.sessionGeneration ≠ g ↔ mark.overtaken = true) := fun g hg =>
        ne_comm.trans (hkept g hg).2.symm
      unfold Silent Harmless
      dsimp only
      rw [next_cons hmain hqueued, hstep]
      dsimp only
      cases block with
      | ready session generation addresses =>
        have hiff :=
          ready_noEffect_iff { x.provider with main := rest } session generation addresses
        rw [hovertaken generation rfl] at hiff
        exact ⟨fun hs hm => hiff.mp (hs rfl hm), fun hs _ hm => hiff.mpr (hs hm)⟩
      | packet session bytes =>
        have hiff := packet_noEffect_iff { x.provider with main := rest } session bytes
        exact ⟨fun hs hm => hiff.mp (hs rfl hm), fun hs _ hm => hiff.mpr (hs hm)⟩
      | fail session generation failure =>
        have hiff := fail_noEffect_iff { x.provider with main := rest } session generation failure
        rw [hovertaken generation rfl] at hiff
        exact ⟨fun hs hm => hiff.mp (hs rfl hm), fun hs _ hm => hiff.mpr (hs hm)⟩
      | stage stage => exact iff_of_true (absurd · Bool.false_ne_true) fun _ => trivial
      | reconnect generation => exact iff_of_true (absurd · Bool.false_ne_true) fun _ => trivial
      | beginSession generation => exact iff_of_true (absurd · Bool.false_ne_true) fun _ => trivial
      | stopped => exact iff_of_true (absurd · Bool.false_ne_true) fun _ => trivial
  | _ => exact Iff.rfl

end Effect

/-- **Callbacks of superseded sessions have no effect** exactly in the runs in which their blocks
come too late: a report after a stop, a start or a reconnect that came when it was raised already,
or while the user's stop stands; a packet while none are taken. -/
theorem silent_along_iff (inputs : List Input) :
    Along step Silent init inputs ↔ Along step Harmless init inputs :=
  along_congr Inv (fun _ i h => inv_step h i) (fun _ i h => silent_iff h i) inv_init

/-- The tunnel is stopped and started again while the first thread still resolves the server; then
the first session reports that it has failed. -/
def staleFailure : List Input :=
  [.startTunnel true, .worker 1 .go, .stopTunnel true, .startTunnel true,
    .worker 1 (.fail ⟨.dnsResolve, .resolving, "getaddrinfo"⟩), .worker 1 .go, .main]

/-- **The report of the first session counts** against the second one. -/
theorem staleFailure_not_silent : ¬ Along step Silent init staleFailure := by
  intro h
  obtain ⟨-, -, -, -, -, -, hlast, -⟩ := h
  have hcount := (hlast rfl rfl).1
  exact absurd hcount (by decide)

end SstpClient.Superseded
