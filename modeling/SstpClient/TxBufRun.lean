import SstpClient.TxBufWrite

/-!
The control messages in a run: they go out as they were built exactly in the runs that build none
while an earlier one is queued.
-/

namespace SstpClient.TxBuf

open SstpClient.Lib.Machine SstpClient.Buffer SstpClient.Packet SstpClient.StreamSpec
open SstpClient.State
open SstpClient.StateSpec (plainEnv)
open SstpClient.Stream (SstpStream sendFrom)

variable {s : SstpStream} {events : List Event}

/-! ### A step -/

/-- The signals of the state machine and the packets it forwards tell of no call. -/
lemma Inv.signals (h : Inv s events) (signals : List Signal) :
    Inv s (events ++ signals.map .signal) := by
  refine h.silent (by simp) fun e he call ht => ?_
  obtain ⟨signal, -, rfl⟩ := List.mem_map.mp he
  exact ht

/-- The stream by itself does not touch the transmit buffer but to write it. -/
lemma Inv.stream {i : Stream.Input} {new : List Stream.Event} (h : Inv s events)
    (hspec : StepSpec s i s' new) (hbuild : ∀ content, i ≠ .build txBuf content)
    (hsend : ∀ timeout, i ≠ .send txBuf timeout) : Inv s' (events ++ new.map .stream) := by
  cases hspec with
  | built buf content hi hbufs husers hcalls hevents =>
    have hbuf : txBuf ≠ buf := fun heq => hbuild content (heq ▸ hi)
    subst hevents
    exact h.keep (by simp) (by rw [hbufs, Function.update_of_ne hbuf]) (le_of_eq hcalls.symm)
      (husers ▸ h.single) (fun u hu => .inl (husers ▸ hu)) (fun u hu => husers ▸ hu) (by simp)
      (by simp)
  | called buf timeout hi husers hbufs hcalls hevents =>
    have hbuf : buf ≠ txBuf := fun heq => hsend timeout (heq ▸ hi)
    have hlt : s.calls < s'.calls := hcalls ▸ Nat.lt_succ_self _
    have hsingle : (users s').countP (fun u => u.1 = txBuf) ≤ 1 := by
      rw [husers.countP_eq, List.countP_cons_of_neg (by simpa using hbuf)]
      exact h.single
    refine h.keep ?_ (by rw [hbufs]) (le_of_lt hlt) hsingle (fun u hu => ?_)
      (fun u hu => husers.mem_iff.mpr (List.mem_cons_of_mem _ hu)) (fun e he call ht => ?_) ?_
    · rcases hevents with rfl | rfl <;> simp
    · rcases List.mem_cons.mp (husers.mem_iff.mp hu) with rfl | hu
      · exact .inr ⟨le_refl _, hlt⟩
      · exact .inl hu
    · rcases hevents with rfl | rfl
      · cases he
      · cases List.mem_singleton.mp he
        cases ht
        exact ⟨le_refl _, hlt⟩
    · rcases hevents with rfl | rfl <;> simp
  | wrote buf call timeout w hplace a new hevents hwrote =>
    subst hevents
    exact h.wrote hplace hwrote
  | moved husers hbufs hcalls hevents =>
    subst hevents
    exact h.keep (by simp) (by rw [hbufs]) (le_of_eq hcalls.symm)
      (husers.countP_eq _ ▸ h.single) (fun u hu => .inl (husers.mem_iff.mp hu))
      (fun u hu => husers.mem_iff.mpr hu) (by simp) (by simp)

section Step

variable {E : Env} {c : Session}

lemma inv_streamStep {r : SstpStream × List Stream.Event}
    (h : Inv r.1 (events ++ r.2.map .stream)) :
    Inv (streamStep c r).1.stream (events ++ (streamStep c r).2) := by
  unfold streamStep
  dsimp only
  rw [resume_stream, ← List.append_assoc]
  exact h.signals _

lemma inv_handOver (h : Inv c.stream events) (hplace : c.stream.place = .idle)
    (hfree : ∀ op ∈ c.stream.send, op.buf ≠ txBuf) (m : Message) :
    Inv (handOver E c m).1.stream (events ++ (handOver E c m).2) := by
  have hnot : ∀ b k t w, c.stream.place ≠ .writing b k t w := fun b k t w hp => by
    cases hplace.symm.trans hp
  have husers : ∀ u ∈ users c.stream, u.1 ≠ txBuf := by
    intro u hu
    rw [users_idle hplace] at hu
    obtain ⟨op, hop, rfl⟩ := List.mem_map.mp hu
    exact hfree op hop
  have hqueued : (c.stream.send.any fun op => op.buf = txBuf) = false := by
    rw [List.any_eq_false]
    exact fun op hop => by simpa using hfree op hop
  have hinit : Inv c.stream (events ++ [.init false]) := h.silent (by simp) (by simp [Tells])
  unfold handOver
  rw [hqueued]
  cases hbuilt : construct E c.st (c.stream.bufs txBuf) m with
  | none => exact h.silent (by simp) (by simp [Tells])
  | some r =>
    obtain ⟨status, b⟩ := r
    have hnew := hinit.rebuilt husers (off_construct hbuilt)
    dsimp only
    split_ifs with hstatus
    · rw [List.append_cons]
      exact hnew.signals _
    · have hsent := hnew.handed husers hnot (Function.update_self txBuf b c.stream.bufs)
      rw [List.append_cons] at hsent
      rw [List.append_cons, List.append_cons]
      exact inv_streamStep hsent

/-- What a step whose condition holds preserves. -/
lemma step_inv (c : Session) (events : List Event) (i : Input) (h : Inv c.stream events)
    (hturn : InTurn E c i) : Inv (step E c i).1.stream (events ++ (step E c i).2) := by
  have hnone : Inv c.stream (events ++ []) := by rwa [List.append_nil]
  have hstream : ∀ j : Stream.Input, (∀ content, j ≠ .build txBuf content) →
      (∀ timeout, j ≠ .send txBuf timeout) →
      Inv (streamStep c (Stream.step c.stream j)).1.stream
        (events ++ (streamStep c (Stream.step c.stream j)).2) := fun j hbuild hsend =>
    inv_streamStep (h.stream (step_spec c.stream j) hbuild hsend)
  unfold step
  split
  · next buf content =>
    split_ifs with hbuf
    · exact hnone
    · exact hstream _ (fun _ heq => by cases heq; exact hbuf rfl) fun _ heq => by cases heq
  · next buf timeout =>
    split_ifs with hbuf
    · exact hnone
    · exact hstream _ (fun _ heq => by cases heq) fun _ heq => by cases heq; exact hbuf rfl
  · next j hbuild hsend =>
    exact hstream j (fun content heq => hbuild _ content heq)
      fun timeout heq => hsend _ timeout heq
  · split_ifs with hplace
    · cases hh : handled E c.st i with
      | none => exact h.silent (by simp) (by simp [Tells])
      | some r =>
        have hsig : Inv c.stream (events ++ (r.signals.map .signal ++
            (r.forwards.map Event.forward).toList)) := by
          rw [← List.append_assoc]
          refine (h.signals _).silent ?_ fun e he call ht => ?_
          · cases r.forwards <;> simp
          · cases hf : r.forwards with
            | none => simp [hf] at he
            | some payload =>
              simp only [hf, Option.map_some, Option.toList_some, List.mem_singleton] at he
              subst he
              exact ht
        dsimp only
        unfold handle
        cases hs : r.sends with
        | none => exact hsig
        | some m =>
          have htrig : Triggers E c.st i := (sends_iff_triggers i).mp ⟨r, hh, by simp [hs]⟩
          dsimp only
          rw [← List.append_assoc]
          exact inv_handOver (c := { c with st := r.st }) hsig hplace (hturn hplace htrig) m
    · exact hnone

/-- A step out of turn builds in the transmit buffer while it is queued. -/
lemma step_bad (c : Session) (i : Input) (hturn : ¬ InTurn E c i) :
    .init true ∈ (step E c i).2 := by
  unfold InTurn at hturn
  push Not at hturn
  obtain ⟨hplace, htrig, op, hop, hbuf⟩ := hturn
  obtain ⟨r, hh, hs⟩ := (sends_iff_triggers i).mpr htrig
  obtain ⟨m, hm⟩ := Option.isSome_iff_exists.mp hs
  have hqueued : (c.stream.send.any fun op => op.buf = txBuf) = true :=
    List.any_eq_true.mpr ⟨op, hop, by simpa using hbuf⟩
  have hover : .init true ∈ (handOver E { c with st := r.st } m).2 := by
    unfold handOver
    rw [hqueued]
    split
    · exact List.mem_cons_self
    · dsimp only
      split_ifs
      · exact List.mem_cons_self
      · exact List.mem_cons_self
  have hstep : step E c i = handle E c r := by
    cases i with
    | stream j => cases htrig
    | _ =>
      unfold step
      dsimp only
      rw [if_pos hplace, hh]
  rw [hstep]
  unfold handle
  rw [hm]
  exact List.mem_append_right _ hover

end Step

/-! ### Whole runs -/

lemma inv_create (mode : Mode) (bufs : ℕ → Buff) : Inv (sstpCreate mode bufs).stream [] where
  exclusive := by simp
  txOff := by
    have hoff : ((sstpCreate mode bufs).stream.bufs txBuf).off = 0 :=
      by
      unfold sstpCreate Stream.init
      dsimp only
      rw [Function.update_self]
      rfl
    exact le_of_eq hoff.symm
  single := Nat.zero_le _
  rest := by simp
  usersBound := fun u hu => by cases hu
  bound := by simp
  begins := by simp
  complete := by simp
  inUse := by simp

/-- **The control messages go out as they were built** exactly in the runs in which no event asks
for a message while an earlier one is queued. -/
theorem integrity_iff_inTurn (E : Env) (mode : Mode) (bufs : ℕ → Buff) (inputs : List Input) :
    Integrity (run (step E) (sstpCreate mode bufs) inputs).1.stream
        (run (step E) (sstpCreate mode bufs) inputs).2 ↔
      Along (step E) (InTurn E) (sstpCreate mode bufs) inputs := by
  constructor
  · intro h
    have hiff : .init true ∉ [] ++ (run (step E) (sstpCreate mode bufs) inputs).2 ↔
        Along (step E) (InTurn E) (sstpCreate mode bufs) inputs :=
      run_good_iff (fun c events => Inv c.stream events) (fun events => .init true ∉ events)
        (fun c events hinv => hinv.exclusive)
        (fun events new hnot hmem => hnot (List.mem_append_left _ hmem))
        (fun c events i hinv hC => step_inv c events i hinv hC)
        (fun c events i _ hC hnot => hnot (List.mem_append_right _ (step_bad c i hC)))
        (inv_create mode bufs)
    exact hiff.mp h.exclusive
  · intro h
    exact (run_inv (fun c events => Inv c.stream events)
      (fun c events i hinv hC => step_inv c events i hinv hC) (inv_create mode bufs) h).integrity

/-- An echo request that blocks, and a second one: it is built over the first. -/
theorem echo_request_overwritten : ¬ Integrity
    (run (step plainEnv) (sstpCreate .client fun _ => sstpBuffCreate 0)
      [.timeout, .stream (.write .wantWrite), .timeout]).1.stream
    (run (step plainEnv) (sstpCreate .client fun _ => sstpBuffCreate 0)
      [.timeout, .stream (.write .wantWrite), .timeout]).2 := by
  intro h
  refine h.exclusive ?_
  clear h
  obtain ⟨b, hr⟩ : ∃ b, sstpPktInit (sstpBuffCreate 16384) .echoRequest = (.okay, b) :=
    ⟨_, pktInit_ctrl (by decide) (by rw [max_create]; decide)⟩
  rw [run_cons, run_cons]
  refine List.mem_append_right _ (List.mem_append_right _ (List.mem_append_left _ ?_))
  refine step_bad _ _ fun hturn => ?_
  simp [InTurn, Triggers, step, handled, sstpStateTimeout, handle, handOver, construct, sstpCreate,
    sstpStateCreate, hr, streamStep, resume, returned, afterSend, sendFrom, Stream.init,
    Stream.sstpStreamSend, Stream.step, Stream.sslWrite, Stream.sstpOperationAddWrite,
    Stream.sstpOperationGet, Stream.sstpOperationAppend, Stream.leave] at hturn

end SstpClient.TxBuf
