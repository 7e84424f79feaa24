import SstpClient.Reconnect

/-!
The reconnect policy in a run: each step keeps the account as long as no second report of a failure
comes through, and a second report breaks it.
-/

namespace SstpClient.Reconnect

open SstpClient.Lib.Machine SstpClient.Provider SstpClient.Sessions

/-! ### Every step -/

/-- The invariant of a run without a stop. -/
def Inv (s : State) (h : List Event) : Prop := Shape s ∧ Account s h

section Step

variable {s : State} {h : List Event}

/-- A step that leaves what the invariant looks at. -/
lemma Inv.of_core {s' : State} {es : List Event} (hi : Inv s h) (hcore : core s' = core s)
    (hatt : s'.reconnectAttempt = s.reconnectAttempt) (hcalm : ∀ e ∈ es, Calm e) :
    Inv s' (h ++ es) := by
  refine ⟨hi.1.of_core hcore, ?_⟩
  simp only [core, Prod.mk.injEq] at hcore
  obtain ⟨-, -, -, hgen, hsched, -, -, hactive⟩ := hcore
  exact hi.2.calm hgen hsched hactive hatt hcalm

lemma Inv.stay (hi : Inv s h) : Inv s (h ++ []) :=
  hi.of_core rfl rfl fun _ he => (List.not_mem_nil he).elim

lemma Inv.worker (hi : Inv s h) (w : ℕ) (a : Action) : Inv (workerStep s w a) (h ++ []) := by
  have hkeep : (workerStep s w a).sessionGeneration = s.sessionGeneration ∧
      (workerStep s w a).reconnectScheduled = s.reconnectScheduled ∧
        (workerStep s w a).active = s.active ∧
          (workerStep s w a).reconnectAttempt = s.reconnectAttempt := by
    unfold workerStep
    split
    case h_1 =>
      unfold startEx
      cases s.session <;> exact ⟨rfl, rfl, rfl, rfl⟩
    case h_11 => split_ifs <;> exact ⟨rfl, rfl, rfl, rfl⟩
    all_goals exact ⟨rfl, rfl, rfl, rfl⟩
  obtain ⟨hgen, hsched, hactive, hatt⟩ := hkeep
  exact ⟨hi.1.workerStep w a, hi.2.silent hgen hsched hactive hatt⟩

lemma Inv.fire (hi : Inv s h) (k : ℕ) :
    Inv (step s (.fire k)).1 (h ++ (step s (.fire k)).2) := by
  refine ⟨hi.1.fire k, ?_⟩
  simp only [step]
  split
  · exact hi.2.silent rfl rfl rfl rfl
  · exact hi.2.silent rfl rfl rfl rfl

lemma Inv.task (hi : Inv s h) (k : ℕ) : Inv (runTask s k) (h ++ []) := by
  refine ⟨hi.1.runTask k, ?_⟩
  unfold runTask
  split
  · exact hi.2.silent rfl rfl rfl rfl
  · unfold teardownWorkerKeepingCredentials sessionStop
    cases s.session <;> exact hi.2.silent rfl rfl rfl rfl
  · exact hi.2.silent rfl rfl rfl rfl
  · exact hi.2.silent rfl rfl rfl rfl

lemma beginSession_keeps (s : State) (generation : ℕ) :
    (beginSession s generation).sessionGeneration = s.sessionGeneration ∧
      (beginSession s generation).reconnectScheduled = s.reconnectScheduled ∧
        (beginSession s generation).active = s.active ∧
          (beginSession s generation).reconnectAttempt = s.reconnectAttempt := by
  unfold beginSession
  split_ifs
  · exact ⟨rfl, rfl, rfl, rfl⟩
  · unfold sessionStop
    cases s.session <;> exact ⟨rfl, rfl, rfl, rfl⟩

lemma Inv.startTunnel (hi : Inv s h) (hidle : s.active = false) (credentials : Bool) :
    Inv (startTunnel s credentials).1 (h ++ (startTunnel s credentials).2) := by
  obtain ⟨hshape, ha⟩ := hi
  obtain ⟨hgen, hsched⟩ := hshape.idle hidle
  have hcount : s.reconnectAttempt = 0 := by
    rw [ha.counter, ha.fresh hidle, hsched]
    rfl
  unfold Provider.startTunnel
  dsimp only
  split_ifs
  · obtain ⟨hstart, hbegins⟩ := hshape.start hidle
    have hcleared : Shape { s with
        pendingStartHandler := true
        startCompletionCalled := false
        userStopRequested := false
        reconnectAttempt := 0
        reconnectScheduled := false
        currentStage := .idle
        lastErrorCode := none
        lastErrorMessage := none
        sessionGeneration := s.sessionGeneration + 1
        active := true } := by
      refine hstart.of_core ?_
      simp only [core, hshape.running, hsched]
    obtain ⟨hg, hs, hactive, hatt⟩ := beginSession_keeps { s with
      pendingStartHandler := true
      startCompletionCalled := false
      userStopRequested := false
      reconnectAttempt := 0
      reconnectScheduled := false
      currentStage := .idle
      lastErrorCode := none
      lastErrorMessage := none
      sessionGeneration := s.sessionGeneration + 1
      active := true } (s.sessionGeneration + 1)
    refine ⟨hcleared.create hbegins (hshape.unborn _ (.inr (Nat.lt_succ_self _))) (Nat.succ_pos _),
      ?_, hatt ▸ Nat.zero_le _, fun hf => ?_, fun w hw => ?_, fun w _ => ?_, ?_⟩
    · rw [hatt, hs, List.append_nil, ha.fresh hidle]
      rfl
    · rw [hactive] at hf
      cases hf
    · obtain ⟨h0, hlt | ⟨-, hf⟩⟩ := hw
      · rw [hg] at hlt
        dsimp only at hlt
        omega
      · rw [hs] at hf
        cases hf
    · rw [List.append_nil]
      refine ha.unserved w ?_
      rintro ⟨h0, hlt | ⟨-, hf⟩⟩
      · omega
      · rw [hsched] at hf
        cases hf
    · rw [List.append_nil]
      exact ha.policy
  · obtain ⟨hcore, hatt, hcalm⟩ := completeStart_spec { s with
      pendingStartHandler := true
      startCompletionCalled := false
      userStopRequested := false
      reconnectAttempt := 0
      reconnectScheduled := false
      lastErrorCode := some .missingCredentials
      lastErrorMessage := some "Не заданы сервер, логин или пароль"
      currentStage := .error } (some (.failure ⟨.missingCredentials, .error,
        "Не заданы сервер, логин или пароль"⟩))
    refine Inv.of_core ⟨hshape, ha⟩ (hcore.trans ?_) (hatt.trans hcount.symm) hcalm
    simp only [core, hshape.running, hsched]

/-- The block of a reconnect counts as an attempt. -/
lemma Inv.retry (hi : Inv s h) {rest : List Block} {generation : ℕ}
    (hmain : s.main = .reconnect generation :: rest) :
    Inv (runBlock { s with main := rest } (.reconnect generation)).1
      (h ++ (runBlock { s with main := rest } (.reconnect generation)).2) := by
  obtain ⟨hshape, ha⟩ := hi
  obtain ⟨hsched, rfl, -, -⟩ := hshape.scheduled hmain
  refine ⟨hshape.retry hmain, ?_⟩
  have hrun := runBlock_reconnect (s := { s with main := rest }) hshape.running
  dsimp only at hrun
  rw [hrun]
  have hquiet : ∀ e ∈ [Event.retried], Quiet e := fun e he => by
    cases List.mem_singleton.mp he
    trivial
  have hatt : attempts (h ++ [.retried]) = attempts h + 1 := by
    rw [attempts_append]
    rfl
  have hcount : ∀ w, reconnects w (h ++ [.retried]) = reconnects w h := fun w => by
    rw [reconnects_append]
    rfl
  refine ⟨?_, ha.bound, fun hidle => ?_, fun w hw => ?_, fun w hw => ?_,
    policy_quiet ha.policy hquiet⟩
  · rw [hatt, ha.counter, hsched]
    rfl
  · rw [(hshape.idle hidle).2] at hsched
    cases hsched
  · rw [hcount]
    obtain ⟨h0, hlt | ⟨-, hf⟩⟩ := hw
    · exact ha.served w ⟨h0, (Nat.lt_succ_iff_lt_or_eq.mp hlt).imp_right fun heq => ⟨heq, hsched⟩⟩
    · cases hf
  · rw [hcount]
    refine ha.unserved w ?_
    rintro ⟨h0, hlt | ⟨rfl, -⟩⟩
    · exact hw ⟨h0, .inl (Nat.lt_succ_of_lt hlt)⟩
    · exact hw ⟨h0, .inl (Nat.lt_succ_self _)⟩

/-- A ready block of this generation finds no reconnect scheduled. -/
lemma Inv.ready (hi : Inv s h) {rest : List Block} {w generation : ℕ} {addresses : Addresses}
    (hmain : s.main = .ready w generation addresses :: rest) :
    Inv (runBlock { s with main := rest } (.ready w generation addresses)).1
      (h ++ (runBlock { s with main := rest } (.ready w generation addresses)).2) := by
  obtain ⟨hshape, ha⟩ := hi
  have hpop := hshape.pop hmain rfl (.inl rfl)
  have hmem : Block.ready w generation addresses ∈ s.main := by
    rw [hmain]
    exact List.mem_cons_self
  simp only [runBlock]
  split_ifs with hskip
  · exact ⟨hpop, ha.silent rfl rfl rfl rfl⟩
  · have hgen : s.sessionGeneration = generation := by
      by_contra hne
      exact hskip (by simp [bne_iff_ne.mpr hne])
    obtain ⟨hpos, hle, -⟩ := hshape.posted _ hmem
    have hfree : s.reconnectScheduled = false := by
      by_contra hsched
      have hserved : Served s w := by
        refine ⟨hpos, (Nat.lt_or_eq_of_le hle).imp (fun hlt => hgen ▸ hlt) fun heq => ?_⟩
        exact ⟨heq.trans hgen.symm, by simpa using hsched⟩
      exact (hshape.served w hserved).2 _ hmem rfl
    have hquiet : ∀ e ∈ [Event.readied, .applySettings addresses], Quiet e := fun e he => by
      rcases List.mem_cons.mp he with rfl | he
      · trivial
      · cases List.mem_singleton.mp he
        trivial
    have hatt : attempts (h ++ [.readied, .applySettings addresses]) = 0 := by
      rw [attempts_append]
      rfl
    have hcount : ∀ v, reconnects v (h ++ [.readied, .applySettings addresses]) = reconnects v h :=
      fun v => by rw [reconnects_append, reconnects_quiet hquiet, Nat.add_zero]
    refine ⟨hpop.of_core rfl, ?_, Nat.zero_le _, fun _ => hatt, fun v hv => ?_, fun v hv => ?_,
      policy_quiet ha.policy hquiet⟩
    · dsimp only
      rw [hatt, hfree]
      rfl
    · rw [hcount]
      exact ha.served v hv
    · rw [hcount]
      exact ha.unserved v hv

lemma append_report (d c : Event) (es : List Event) :
    h ++ d :: (es ++ [c]) = h ++ [d] ++ es ++ [c] := by simp

/-- A failure block that meets the condition. -/
lemma Inv.fail (hi : Inv s h) {rest : List Block} {w generation : ℕ} {f : Failure}
    (hmain : s.main = .fail w generation f :: rest)
    (hsingle : generation = s.sessionGeneration → sstpIosErrorIsFatal f.code = false →
      s.reconnectScheduled = false ∧
        (s.reconnectAttempt < kSSTPMaxReconnectAttempts → w = s.sessionGeneration)) :
    Inv (runBlock { s with main := rest } (.fail w generation f)).1
      (h ++ (runBlock { s with main := rest } (.fail w generation f)).2) := by
  obtain ⟨hshape, ha⟩ := hi
  have hpop := hshape.pop hmain rfl (.inl rfl)
  have hmem : Block.fail w generation f ∈ s.main := by
    rw [hmain]
    exact List.mem_cons_self
  have hspent := hshape.spent _ hmem w rfl
  obtain ⟨hpos, -⟩ := hshape.born fun habsent => by
    rw [habsent] at hspent
    exact hspent
  have ha' : Account { s with main := rest } h := by
    have hsilent : Account { s with main := rest } (h ++ []) := ha.silent rfl rfl rfl rfl
    rwa [List.append_nil] at hsilent
  by_cases hgen : generation = s.sessionGeneration
  · subst hgen
    -- the tunnel is cancelled where the policy allows it
    have hcancel : ∀ _ : sstpIosErrorIsFatal f.code = true ∨
        ¬ s.reconnectAttempt < kSSTPMaxReconnectAttempts ∧ s.reconnectScheduled = false,
        Inv (runBlock { s with main := rest } (.fail w s.sessionGeneration f)).1
          (h ++ (runBlock { s with main := rest } (.fail w s.sessionGeneration f)).2) := by
      intro hno
      obtain ⟨s', es, hrun, hatt, hcore, hcalm⟩ := runBlock_fail_cancel
        (s := { s with main := rest }) (w := w) (f := f) hshape.running
        (hno.imp_right fun hfull => .inl hfull.1)
      dsimp only at hrun
      rw [hrun, append_report]
      have hdelivered := ha'.delivered (w := w) (f := f) fun hfatal hlt => by
        rcases hno with hno | ⟨hfull, hfree⟩
        · rw [hno] at hfatal
          cases hfatal
        · rw [ha.counter, hfree] at hfull
          exact absurd hlt hfull
      obtain ⟨hshape', ha''⟩ := Inv.of_core ⟨hpop, hdelivered⟩ hcore hatt hcalm
      refine ⟨hshape', ha''.cancelled (hno.imp_right fun ⟨hfull, hfree⟩ => ?_)⟩
      rw [attempts_calm hcalm, attempts_append]
      rw [ha.counter, hfree] at hfull
      exact not_lt.mp hfull
    by_cases hfatal : sstpIosErrorIsFatal f.code = true
    · exact hcancel (.inl hfatal)
    · obtain ⟨hfree, hown⟩ := hsingle rfl (Bool.eq_false_iff.mpr hfatal)
      by_cases hlt : s.reconnectAttempt < kSSTPMaxReconnectAttempts
      · obtain rfl := hown hlt
        obtain ⟨s', delay, hrun, hatt, hcore⟩ := runBlock_fail_schedule
          (s := { s with main := rest }) (w := s.sessionGeneration) (f := f) hshape.running
          (Bool.eq_false_iff.mpr hfatal) hlt hfree
        dsimp only at hrun
        rw [hrun]
        have horder := hshape.order
        rw [hmain] at horder
        refine ⟨(hpop.schedule hfree hspent fun b hb =>
          (List.pairwise_cons.mp horder).1 b hb _ rfl).of_core hcore, ?_⟩
        simp only [core, Prod.mk.injEq] at hcore
        obtain ⟨-, -, -, hg, hs, -, -, hactive⟩ := hcore
        exact ha'.scheduled hpos hfree hlt hg hs hactive hatt
      · exact hcancel (.inr ⟨hlt, hfree⟩)
  · have hrun := runBlock_fail_stale (s := { s with main := rest }) (w := w) (f := f) hgen
    rw [hrun]
    refine ⟨hpop, ha'.delivered fun _ _ => ⟨hpos, .inl ?_⟩⟩
    obtain ⟨hle, hle'⟩ := hshape.posted _ hmem
    exact lt_of_le_of_lt hle (lt_of_le_of_ne hle' hgen)

/-- The main queue. -/
lemma Inv.main (hi : Inv s h) (hsingle : Single s .main) :
    Inv (step s .main).1 (h ++ (step s .main).2) := by
  have hshape := hi.1
  have ha := hi.2
  simp only [step]
  cases hmain : s.main with
  | nil => exact hi.stay
  | cons b rest =>
    dsimp only
    cases b with
    | stage stage =>
      exact ⟨(hshape.pop hmain rfl (.inl rfl)).of_core rfl, ha.silent rfl rfl rfl rfl⟩
    | ready w generation addresses => exact hi.ready hmain
    | packet w bytes =>
      refine ⟨hshape.pop hmain rfl (.inl rfl), ha.calm rfl rfl rfl rfl fun e he => ?_⟩
      simp only [runBlock] at he
      split_ifs at he
      · cases List.mem_singleton.mp he
        trivial
      · cases he
    | fail w generation f =>
      simp only [Single, hmain] at hsingle
      exact hi.fail hmain hsingle
    | reconnect generation => exact hi.retry hmain
    | beginSession generation =>
      refine ⟨hshape.beginSession hmain, ?_⟩
      simp only [runBlock]
      split_ifs
      · exact ha.silent rfl rfl rfl rfl
      · obtain ⟨hg, hs, hactive, hatt⟩ := beginSession_keeps { s with main := rest } generation
        exact ha.silent hg hs hactive hatt
    | stopped =>
      refine ⟨(hshape.pop hmain rfl (.inl rfl)).of_core rfl, ha.calm rfl rfl rfl rfl fun e he => ?_⟩
      cases List.mem_singleton.mp he
      trivial

/-- **A step without a second report keeps the policy.** -/
theorem inv_step (hi : Inv s h) (i : Input) (hunstopped : Unstopped i) (hsingle : Single s i) :
    Inv (step s i).1 (h ++ (step s i).2) := by
  cases i with
  | startTunnel credentials =>
    simp only [step]
    split_ifs with hactive
    · exact hi.stay
    · exact hi.startTunnel (Bool.eq_false_iff.mpr hactive) credentials
  | stopTunnel userInitiated => exact hunstopped.elim
  | worker w a => exact hi.worker w a
  | main => exact hi.main hsingle
  | fire k => exact hi.fire k
  | task k => exact hi.task k
  | settings k error =>
    simp only [step]
    split
    · exact hi.stay
    · obtain ⟨hcore, hatt, hcalm⟩ := settingsApplied_spec
        { s with applying := s.applying.eraseIdx k } _ error
      exact hi.of_core hcore hatt hcalm
  | packets packets =>
    simp only [step]
    split_ifs
    · exact hi.stay
    · obtain ⟨hcore, hatt, hcalm⟩ := packetsRead_spec { s with reads := s.reads - 1 } packets
      exact hi.of_core hcore hatt hcalm

/-- **A second report breaks it.** -/
theorem not_policy_step (hi : Inv s h) (i : Input) (hsingle : ¬ Single s i) :
    ¬ Policy (h ++ (step s i).2) := by
  obtain ⟨hshape, ha⟩ := hi
  obtain ⟨w, f, rest, rfl, hmain, hfatal, hbad⟩ : ∃ w f rest, i = .main ∧
      s.main = .fail w s.sessionGeneration f :: rest ∧ sstpIosErrorIsFatal f.code = false ∧
        ¬ (s.reconnectScheduled = false ∧
          (s.reconnectAttempt < kSSTPMaxReconnectAttempts → w = s.sessionGeneration)) := by
    cases i with
    | main =>
      cases hmain : s.main with
      | nil => exact absurd (by simp only [Single, hmain]) hsingle
      | cons b rest =>
        cases b with
        | fail w generation f =>
          simp only [Single, hmain, Classical.not_imp] at hsingle
          obtain ⟨rfl, hfatal, hbad⟩ := hsingle
          exact ⟨w, f, rest, rfl, rfl, hfatal, hbad⟩
        | _ => exact absurd (by simp only [Single, hmain]) hsingle
    | _ => exact absurd trivial hsingle
  have hmem : Block.fail w s.sessionGeneration f ∈ s.main := by
    rw [hmain]
    exact List.mem_cons_self
  have hspent := hshape.spent _ hmem w rfl
  obtain ⟨hpos, -⟩ := hshape.born fun habsent => by
    rw [habsent] at hspent
    exact hspent
  intro hpolicy
  simp only [step, hmain] at hpolicy
  by_cases hsched : s.reconnectScheduled = true
  · obtain ⟨s', es, hrun, -, -, hcalm⟩ := runBlock_fail_cancel
      (s := { s with main := rest }) (w := w) (f := f) hshape.running (.inr (.inr hsched))
    dsimp only at hrun
    rw [hrun, append_report] at hpolicy
    have hcounter := ha.counter
    have hbound := ha.bound
    rw [hsched, if_pos rfl] at hcounter
    rcases hpolicy.cancels (h ++ [.delivered w f] ++ es) f [] rfl with hf | hmany
    · rw [hfatal] at hf
      cases hf
    · rw [attempts_calm hcalm, attempts_append] at hmany
      change kSSTPMaxReconnectAttempts ≤ attempts h at hmany
      omega
  · have hfree := Bool.eq_false_iff.mpr hsched
    have hother : s.reconnectAttempt < kSSTPMaxReconnectAttempts ∧ w ≠ s.sessionGeneration := by
      by_contra hcon
      exact hbad ⟨hfree, fun hlt => by_contra fun hne => hcon ⟨hlt, hne⟩⟩
    obtain ⟨s', delay, hrun, -, -⟩ := runBlock_fail_schedule
      (s := { s with main := rest }) (w := w) (f := f) hshape.running hfatal hother.1 hfree
    dsimp only at hrun
    rw [hrun] at hpolicy
    have hcounter := ha.counter
    rw [hfree] at hcounter
    have hlt : attempts h < kSSTPMaxReconnectAttempts := by
      have hthree := hother.1
      rw [hcounter] at hthree
      exact hthree
    have honce := hpolicy.once h w f [.scheduled w delay] rfl hfatal hlt
    have hserved : Served s w := by
      obtain ⟨hle, -⟩ := hshape.posted _ hmem
      exact ⟨hpos, .inl (lt_of_le_of_ne hle hother.2)⟩
    rw [reconnects_append, ha.served w hserved] at honce
    simp [reconnects, isReconnect] at honce

end Step

/-- **The reconnect policy holds all along a run without a stop exactly when no second report comes
through.** -/
theorem policy_iff_single (is : List Input) (hunstopped : ∀ i ∈ is, Unstopped i) :
    (∀ js, js <+: is → Policy (run step init js).2) ↔ Along step Single init is := by
  have halways : (∀ js, js <+: is → Policy ([] ++ (run step init js).2)) ↔
      Along step Single init is :=
    run_always_iff_of Unstopped Inv (fun _ h => Policy h) (fun _ _ hi => hi.2.policy)
      (fun _ _ i hi hu hC => inv_step hi i hu hC) (fun _ _ i hi _ hC => not_policy_step hi i hC)
      ⟨shape_init, account_init⟩ hunstopped
  simpa only [List.nil_append] using halways

/-- The session is lost in its event loop, and the delay of the reconnect passes. -/
def lostSession : List Input :=
  [.startTunnel true, .worker 1 .go, .worker 1 (.finish true), .worker 1 .go,
    .worker 1 (.fail ⟨.networkLost, .pppLcp, "PPP connection terminated"⟩), .worker 1 .go, .main,
    .fire 0, .main]

theorem lostSession_policy :
    (∀ i ∈ lostSession, Unstopped i) ∧
      ∀ js, js <+: lostSession → Policy (run step init js).2 := by
  have hunstopped : ∀ i ∈ lostSession, Unstopped i := by
    intro i hi
    unfold lostSession at hi
    fin_cases hi <;> trivial
  refine ⟨hunstopped, (policy_iff_single lostSession hunstopped).mpr ?_⟩
  exact ⟨trivial, trivial, trivial, trivial, trivial, trivial, fun _ _ => ⟨rfl, fun _ => rfl⟩,
    trivial, trivial, trivial⟩

/-- The server cannot be resolved: `sstp_ios_fail_ex`, then the thread, and the two blocks. -/
def unresolved : List Input :=
  [.startTunnel true, .worker 1 .go,
    .worker 1 (.fail ⟨.dnsResolve, .resolving, "Could not resolve SSTP server"⟩), .worker 1 .go,
    .worker 1 .go, .worker 1 .go, .main, .main]

/-- The first failure schedules a reconnect and cancels the tunnel. -/
theorem unresolved_not_policy :
    (∀ i ∈ unresolved, Unstopped i) ∧ ¬ Policy (run step init unresolved).2 := by
  refine ⟨fun i hi => ?_, fun hpolicy => ?_⟩
  · unfold unresolved at hi
    fin_cases hi <;> trivial
  · have hevents : (run step init unresolved).2 =
        [.delivered 1 ⟨.dnsResolve, .resolving, "Could not resolve SSTP server"⟩, .scheduled 1 1,
          .delivered 1 ⟨.dnsResolve, .resolving, "Could not resolve SSTP server"⟩,
          .completed (some (.failure ⟨.dnsResolve, .resolving, "Could not resolve SSTP server"⟩))] ++
        .cancelled (.failure ⟨.dnsResolve, .resolving, "Could not resolve SSTP server"⟩) :: [] := by
      decide
    rcases hpolicy.cancels _ _ _ hevents with hfatal | hmany
    · exact absurd hfatal (by decide)
    · exact absurd hmany (by decide)

end SstpClient.Reconnect
