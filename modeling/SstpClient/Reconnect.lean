import SstpClient.Sessions

/-!
The reconnect policy of the tunnel provider.

A start that fails is reported twice: by `sstp_ios_fail_ex` through `on_fail`, and by the thread when
`sstp_ios_session_start_ex` has returned. The first report schedules a reconnect, the second one
finds it scheduled and cancels the tunnel. A run keeps to the policy exactly when no second report
comes through.
-/

namespace SstpClient.Reconnect

open SstpClient.Lib.Machine SstpClient.Provider SstpClient.Sessions

/-! ### The policy -/

def countAttempt (n : ℕ) : Event → ℕ
  | .readied => 0
  | .retried => n + 1
  | _ => n

/-- The reconnects made since the last ready event. -/
def attempts (h : List Event) : ℕ := h.foldl countAttempt 0

def isReconnect (w : ℕ) : Event → Bool
  | .scheduled v _ => v = w
  | _ => false

/-- The reconnects scheduled for failures of the session. -/
def reconnects (w : ℕ) (h : List Event) : ℕ := h.countP (isReconnect w)

/-- **The policy**: a failure that is not fatal has one reconnect scheduled, unless three have been
made since the last ready event; the tunnel is cancelled for a fatal failure, or after three. -/
structure Policy (h : List Event) : Prop where
  once : ∀ h₁ w f h₂, h = h₁ ++ .delivered w f :: h₂ → sstpIosErrorIsFatal f.code = false →
    attempts h₁ < kSSTPMaxReconnectAttempts → reconnects w h = 1
  cancels : ∀ h₁ f h₂, h = h₁ ++ .cancelled (.failure f) :: h₂ →
    sstpIosErrorIsFatal f.code = true ∨ kSSTPMaxReconnectAttempts ≤ attempts h₁

/-- The condition on a step: a failure block that is run for the current generation, and is not
fatal, finds no reconnect scheduled; and unless there were three attempts, it is a report of the
session that was begun with this generation. -/
def Single (s : State) : Input → Prop
  | .main =>
    match s.main with
    | .fail w generation f :: _ =>
      generation = s.sessionGeneration → sstpIosErrorIsFatal f.code = false →
        s.reconnectScheduled = false ∧
          (s.reconnectAttempt < kSSTPMaxReconnectAttempts → w = s.sessionGeneration)
    | _ => True
  | _ => True

/-- The user does not stop the tunnel. -/
def Unstopped : Input → Prop
  | .stopTunnel _ => False
  | _ => True

/-! ### Events -/

lemma attempts_append (h es : List Event) : attempts (h ++ es) = es.foldl countAttempt (attempts h) :=
  List.foldl_append

lemma reconnects_append (w : ℕ) (h es : List Event) :
    reconnects w (h ++ es) = reconnects w h + reconnects w es := List.countP_append

/-- Events that neither report a failure nor answer one. -/
def Quiet : Event → Prop
  | .delivered .. => False
  | .scheduled .. => False
  | .cancelled (.failure _) => False
  | _ => True

lemma reconnects_quiet {es : List Event} (hq : ∀ e ∈ es, Quiet e) (w : ℕ) : reconnects w es = 0 := by
  refine List.countP_eq_zero.mpr fun e he => ?_
  cases e with
  | scheduled v d => exact (hq _ he).elim
  | _ => exact Bool.false_ne_true

/-- Quiet events keep the policy. -/
lemma policy_quiet {h es : List Event} (hp : Policy h) (hq : ∀ e ∈ es, Quiet e) :
    Policy (h ++ es) := by
  refine ⟨fun h₁ w f h₂ heq hfatal hlt => ?_, fun h₁ f h₂ heq => ?_⟩
  · rcases split_append heq with ⟨t, ht⟩ | ⟨t, -, ht⟩
    · rw [reconnects_append, reconnects_quiet hq, Nat.add_zero]
      exact hp.once h₁ w f t ht hfatal hlt
    · exact (hq (.delivered w f) (by rw [ht]; simp)).elim
  · rcases split_append heq with ⟨t, ht⟩ | ⟨t, -, ht⟩
    · exact hp.cancels h₁ f t ht
    · exact (hq (.cancelled (.failure f)) (by rw [ht]; simp)).elim

/-! ### What a step puts out -/

/-- Events that have no part in the policy. -/
def Calm : Event → Prop
  | .completed _ => True
  | .cancelled (.system _) => True
  | .applySettings _ => True
  | .wrotePackets _ => True
  | .readPackets => True
  | .writeIp .. => True
  | .stopCompleted => True
  | _ => False

lemma Calm.quiet {e : Event} (h : Calm e) : Quiet e := by
  cases e with
  | delivered w f => exact h
  | scheduled w d => exact h
  | cancelled error =>
    cases error with
    | failure f => exact h
    | system d => trivial
  | _ => trivial

lemma Calm.countAttempt {e : Event} (h : Calm e) (n : ℕ) : countAttempt n e = n := by
  cases e with
  | readied => exact h.elim
  | retried => exact h.elim
  | _ => rfl

lemma attempts_calm {h es : List Event} (hcalm : ∀ e ∈ es, Calm e) :
    attempts (h ++ es) = attempts h := by
  rw [attempts_append]
  generalize attempts h = n
  induction es with
  | nil => rfl
  | cons e es ih =>
    rw [List.foldl_cons, (hcalm e List.mem_cons_self).countAttempt]
    exact ih fun x hx => hcalm x (List.mem_cons_of_mem _ hx)

section Blocks

variable {s : State}

lemma completeStart_spec (s : State) (error : Option TunnelError) :
    core (completeStartWithError s error).1 = core s ∧
      (completeStartWithError s error).1.reconnectAttempt = s.reconnectAttempt ∧
      ∀ e ∈ (completeStartWithError s error).2, Calm e := by
  unfold completeStartWithError
  split_ifs
  · exact ⟨rfl, rfl, fun e he => (List.not_mem_nil he).elim⟩
  · refine ⟨rfl, rfl, fun e he => ?_⟩
    cases List.mem_singleton.mp he
    trivial
  · exact ⟨rfl, rfl, fun e he => (List.not_mem_nil he).elim⟩

lemma runBlock_fail_stale {w generation : ℕ} {f : Failure} (hne : generation ≠ s.sessionGeneration) :
    runBlock s (.fail w generation f) = (s, [.delivered w f]) := by
  have hstale : (s.sessionGeneration != generation) = true := bne_iff_ne.mpr hne.symm
  simp only [runBlock, hstale, if_true]

/-- A failure for which a reconnect is scheduled. -/
lemma runBlock_fail_schedule {w : ℕ} {f : Failure} (hrun : s.userStopRequested = false)
    (hfatal : sstpIosErrorIsFatal f.code = false)
    (hlt : s.reconnectAttempt < kSSTPMaxReconnectAttempts) (hsched : s.reconnectScheduled = false) :
    ∃ s' delay, runBlock s (.fail w s.sessionGeneration f) =
        (s', [.delivered w f, .scheduled w delay]) ∧
      s'.reconnectAttempt = s.reconnectAttempt + 1 ∧
      core s' = core { s with
        reconnectScheduled := true
        timers := s.timers ++ [s.sessionGeneration] } := by
  have hgo : ¬ s.userStopRequested = true := by simp [hrun]
  have hcan : (!sstpIosErrorIsFatal f.code &&
      decide (s.reconnectAttempt < kSSTPMaxReconnectAttempts) && !s.reconnectScheduled) = true := by
    simp [hfatal, hlt, hsched]
  simp only [runBlock, handleSessionFailure, bne_self_eq_false, Bool.false_or, hgo, hcan,
    Bool.false_eq_true, if_false, if_true]
  exact ⟨_, _, rfl, rfl, rfl⟩

/-- A failure for which the tunnel is cancelled. -/
lemma runBlock_fail_cancel {w : ℕ} {f : Failure} (hrun : s.userStopRequested = false)
    (hno : sstpIosErrorIsFatal f.code = true ∨
      ¬ s.reconnectAttempt < kSSTPMaxReconnectAttempts ∨ s.reconnectScheduled = true) :
    ∃ s' es, runBlock s (.fail w s.sessionGeneration f) =
        (s', .delivered w f :: (es ++ [.cancelled (.failure f)])) ∧
      s'.reconnectAttempt = s.reconnectAttempt ∧ core s' = core s ∧ ∀ e ∈ es, Calm e := by
  have hcan : (!sstpIosErrorIsFatal f.code &&
      decide (s.reconnectAttempt < kSSTPMaxReconnectAttempts) && !s.reconnectScheduled) = false := by
    rcases hno with h | h | h <;> simp [h]
  have hgo : ¬ (s.sessionGeneration != s.sessionGeneration || s.userStopRequested) = true := by
    simp [hrun]
  let r := completeStartWithError { s with
    lastErrorCode := some f.code
    lastErrorMessage := some f.message
    currentStage := f.stage } (some (.failure f))
  have hhandle : handleSessionFailure s w f s.sessionGeneration =
      (r.1, r.2 ++ [.cancelled (.failure f)]) := by
    unfold handleSessionFailure
    rw [if_neg hgo]
    dsimp only
    rw [hcan]
    exact if_neg Bool.false_ne_true
  obtain ⟨hcore, hatt, hcalm⟩ := completeStart_spec { s with
    lastErrorCode := some f.code
    lastErrorMessage := some f.message
    currentStage := f.stage } (some (.failure f))
  simp only [runBlock, bne_self_eq_false, Bool.false_eq_true, if_false, hhandle]
  exact ⟨_, _, rfl, hatt, hcore, hcalm⟩

lemma startPacketLoop_spec (s : State) : core (startPacketLoop s).1 = core s ∧
    (startPacketLoop s).1.reconnectAttempt = s.reconnectAttempt ∧
      ∀ e ∈ (startPacketLoop s).2, Calm e := by
  unfold startPacketLoop readPackets
  split_ifs
  · exact ⟨rfl, rfl, fun e he => (List.not_mem_nil he).elim⟩
  · refine ⟨rfl, rfl, fun e he => ?_⟩
    cases List.mem_singleton.mp he
    trivial
  · exact ⟨rfl, rfl, fun e he => (List.not_mem_nil he).elim⟩

lemma settingsApplied_spec (s : State) (generation : ℕ) (error : Option String) :
    core (settingsApplied s generation error).1 = core s ∧
      (settingsApplied s generation error).1.reconnectAttempt = s.reconnectAttempt ∧
        ∀ e ∈ (settingsApplied s generation error).2, Calm e := by
  unfold settingsApplied
  split_ifs
  · exact ⟨rfl, rfl, fun e he => (List.not_mem_nil he).elim⟩
  · cases error with
    | some description =>
      obtain ⟨hcore, hatt, hcalm⟩ := completeStart_spec { s with
        lastErrorCode := some .internal
        lastErrorMessage := some description
        currentStage := .error } (some (.system description))
      refine ⟨hcore, hatt, fun e he => ?_⟩
      rcases List.mem_append.mp he with he | he
      · exact hcalm e he
      · cases List.mem_singleton.mp he
        trivial
    | none =>
      obtain ⟨hcore, hatt, hcalm⟩ := completeStart_spec { s with
        currentStage := .connected
        lastErrorCode := none
        lastErrorMessage := none } none
      obtain ⟨hcore', hatt', hcalm'⟩ := startPacketLoop_spec (completeStartWithError { s with
        currentStage := .connected
        lastErrorCode := none
        lastErrorMessage := none } none).1
      refine ⟨hcore'.trans hcore, hatt'.trans hatt, fun e he => ?_⟩
      rcases List.mem_append.mp he with he | he
      · exact hcalm e he
      · exact hcalm' e he

lemma packetsRead_spec (s : State) (packets : List Packet) : core (packetsRead s packets).1 = core s ∧
    (packetsRead s packets).1.reconnectAttempt = s.reconnectAttempt ∧
      ∀ e ∈ (packetsRead s packets).2, Calm e := by
  unfold packetsRead
  split
  · refine ⟨?_, ?_, fun e he => ?_⟩
    · unfold readPackets
      split_ifs
      all_goals rfl
    · unfold readPackets
      split_ifs
      all_goals rfl
    · rcases List.mem_append.mp he with he | he
      · obtain ⟨p, -, rfl⟩ := List.mem_map.mp he
        trivial
      · unfold readPackets at he
        split_ifs at he
        cases List.mem_singleton.mp he
        trivial
  · exact ⟨rfl, rfl, fun e he => (List.not_mem_nil he).elim⟩

end Blocks

/-! ### The account -/

/-- The counter of the provider and the reconnects that have been put out. -/
structure Account (s : State) (h : List Event) : Prop where
  counter : s.reconnectAttempt = attempts h + if s.reconnectScheduled then 1 else 0
  bound : s.reconnectAttempt ≤ kSSTPMaxReconnectAttempts
  fresh : s.active = false → attempts h = 0
  served : ∀ w, Served s w → reconnects w h = 1
  unserved : ∀ w, ¬ Served s w → reconnects w h = 0
  policy : Policy h

lemma account_init : Account init [] where
  counter := rfl
  bound := Nat.zero_le _
  fresh := fun _ => rfl
  served := fun w hw => by
    obtain ⟨-, hlt | ⟨-, hs⟩⟩ := hw
    · exact absurd hlt (Nat.not_lt_zero w)
    · cases hs
  unserved := fun _ _ => rfl
  policy := ⟨fun h₁ _ _ _ heq => by simp at heq, fun h₁ _ _ heq => by simp at heq⟩

section Account

variable {s s' : State} {h es : List Event}

/-- What concerns neither reconnects nor failures. -/
lemma Account.calm (ha : Account s h) (hgen : s'.sessionGeneration = s.sessionGeneration)
    (hsched : s'.reconnectScheduled = s.reconnectScheduled) (hactive : s'.active = s.active)
    (hatt : s'.reconnectAttempt = s.reconnectAttempt) (hcalm : ∀ e ∈ es, Calm e) :
    Account s' (h ++ es) := by
  have hserved : ∀ w, Served s' w ↔ Served s w := fun w => by
    unfold Served
    rw [hgen, hsched]
  have hquiet : ∀ e ∈ es, Quiet e := fun e he => (hcalm e he).quiet
  have hcount : ∀ w, reconnects w (h ++ es) = reconnects w h := fun w => by
    rw [reconnects_append, reconnects_quiet hquiet, Nat.add_zero]
  refine ⟨?_, hatt ▸ ha.bound, ?_, fun w hw => ?_, fun w hw => ?_, policy_quiet ha.policy hquiet⟩
  · rw [hatt, hsched, attempts_calm hcalm]
    exact ha.counter
  · rw [hactive, attempts_calm hcalm]
    exact ha.fresh
  · rw [hcount]
    exact ha.served w ((hserved w).mp hw)
  · rw [hcount]
    exact ha.unserved w fun h' => hw ((hserved w).mpr h')

/-- Nothing is put out. -/
lemma Account.silent (ha : Account s h) (hgen : s'.sessionGeneration = s.sessionGeneration)
    (hsched : s'.reconnectScheduled = s.reconnectScheduled) (hactive : s'.active = s.active)
    (hatt : s'.reconnectAttempt = s.reconnectAttempt) : Account s' (h ++ []) :=
  ha.calm hgen hsched hactive hatt fun _ he => (List.not_mem_nil he).elim

/-- A failure is reported, or the tunnel is cancelled. -/
lemma Account.tell (ha : Account s h) (hreconnects : ∀ w, reconnects w es = 0)
    (hattempts : ∀ n, es.foldl countAttempt n = n) (hpolicy : Policy (h ++ es)) :
    Account s (h ++ es) := by
  have hcount : ∀ w, reconnects w (h ++ es) = reconnects w h := fun w => by
    rw [reconnects_append, hreconnects, Nat.add_zero]
  have hatt : attempts (h ++ es) = attempts h := by
    rw [attempts_append, hattempts]
  refine ⟨hatt ▸ ha.counter, ha.bound, hatt ▸ ha.fresh, fun w hw => ?_, fun w hw => ?_, hpolicy⟩
  · rw [hcount]
    exact ha.served w hw
  · rw [hcount]
    exact ha.unserved w hw

/-- The report of a failure for which a reconnect has been scheduled, or none is to be. -/
lemma Account.delivered {w : ℕ} {f : Failure} (ha : Account s h)
    (hserved : sstpIosErrorIsFatal f.code = false → attempts h < kSSTPMaxReconnectAttempts →
      Served s w) : Account s (h ++ [.delivered w f]) := by
  refine ha.tell (fun _ => rfl) (fun _ => rfl)
    ⟨fun h₁ v g h₂ heq hfatal hlt => ?_, fun h₁ g h₂ heq => ?_⟩
  · rw [reconnects_append]
    rcases split_concat heq with ⟨t, ht⟩ | ⟨rfl, hlast⟩
    · exact ha.policy.once h₁ v g t ht hfatal hlt
    · cases hlast
      exact ha.served w (hserved hfatal hlt)
  · rcases split_concat heq with ⟨t, ht⟩ | ⟨-, hlast⟩
    · exact ha.policy.cancels h₁ g t ht
    · cases hlast

/-- The tunnel is cancelled. -/
lemma Account.cancelled {f : Failure} (ha : Account s h)
    (hallowed : sstpIosErrorIsFatal f.code = true ∨ kSSTPMaxReconnectAttempts ≤ attempts h) :
    Account s (h ++ [.cancelled (.failure f)]) := by
  refine ha.tell (fun _ => rfl) (fun _ => rfl)
    ⟨fun h₁ v g h₂ heq hfatal hlt => ?_, fun h₁ g h₂ heq => ?_⟩
  · rw [reconnects_append]
    rcases split_concat heq with ⟨t, ht⟩ | ⟨-, hlast⟩
    · exact ha.policy.once h₁ v g t ht hfatal hlt
    · cases hlast
  · rcases split_concat heq with ⟨t, ht⟩ | ⟨rfl, hlast⟩
    · exact ha.policy.cancels h₁ g t ht
    · cases hlast
      exact hallowed

/-- The report of a failure, and the reconnect that is scheduled for it. -/
lemma Account.scheduled {f : Failure} {delay : ℕ} (ha : Account s h)
    (hpos : 0 < s.sessionGeneration) (hfree : s.reconnectScheduled = false)
    (hlt : s.reconnectAttempt < kSSTPMaxReconnectAttempts)
    (hgen : s'.sessionGeneration = s.sessionGeneration) (hsched : s'.reconnectScheduled = true)
    (hactive : s'.active = s.active) (hatt : s'.reconnectAttempt = s.reconnectAttempt + 1) :
    Account s' (h ++ [.delivered s.sessionGeneration f, .scheduled s.sessionGeneration delay]) := by
  have hnot : ¬ Served s s.sessionGeneration := by
    rintro ⟨-, hlt | ⟨-, hs⟩⟩
    · exact lt_irrefl _ hlt
    · rw [hfree] at hs
      cases hs
  have hattempts : attempts
      (h ++ [.delivered s.sessionGeneration f, .scheduled s.sessionGeneration delay]) =
        attempts h := by
    rw [attempts_append]
    rfl
  have hself : reconnects s.sessionGeneration
      (h ++ [.delivered s.sessionGeneration f, .scheduled s.sessionGeneration delay]) = 1 := by
    rw [reconnects_append, ha.unserved _ hnot]
    simp [reconnects, isReconnect]
  have hother : ∀ v, v ≠ s.sessionGeneration → reconnects v
      (h ++ [.delivered s.sessionGeneration f, .scheduled s.sessionGeneration delay]) =
        reconnects v h := fun v hv => by
    rw [reconnects_append]
    simp [reconnects, isReconnect, hv.symm]
  have hserved : ∀ v, v ≠ s.sessionGeneration → (Served s' v ↔ Served s v) := fun v hv => by
    unfold Served
    rw [hgen]
    simp [hv]
  refine ⟨?_, ?_, hactive ▸ hattempts ▸ ha.fresh, fun v hv => ?_, fun v hv => ?_,
    fun h₁ v g h₂ heq hfatal hlt' => ?_, fun h₁ g h₂ heq => ?_⟩
  · rw [hatt, hsched, hattempts, ha.counter, hfree]
    rfl
  · rw [hatt]
    exact hlt
  · by_cases hvw : v = s.sessionGeneration
    · rw [hvw]
      exact hself
    · rw [hother v hvw]
      exact ha.served v ((hserved v hvw).mp hv)
  · by_cases hvw : v = s.sessionGeneration
    · exact absurd ⟨hvw ▸ hpos, .inr ⟨hvw.trans hgen.symm, hsched⟩⟩ hv
    · rw [hother v hvw]
      exact ha.unserved v fun h' => hv ((hserved v hvw).mpr h')
  · by_cases hvw : v = s.sessionGeneration
    · rw [hvw]
      exact hself
    · rw [hother v hvw]
      rcases split_append heq with ⟨t, ht⟩ | ⟨t, -, ht⟩
      · exact ha.policy.once h₁ v g t ht hfatal hlt'
      · have hmem : Event.delivered v g ∈
            [Event.delivered s.sessionGeneration f, .scheduled s.sessionGeneration delay] := by
          rw [ht]
          simp
        simp [hvw] at hmem
  · rcases split_append heq with ⟨t, ht⟩ | ⟨t, -, ht⟩
    · exact ha.policy.cancels h₁ g t ht
    · have hmem : Event.cancelled (.failure g) ∈
          [Event.delivered s.sessionGeneration f, .scheduled s.sessionGeneration delay] := by
        rw [ht]
        simp
      simp at hmem

end Account

end SstpClient.Reconnect
