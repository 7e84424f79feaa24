import SstpClient.StateSpec
import SstpClient.Lib.Handler

/-!
The acknowledgement of the call, and what the client makes of it: the state machine with
`ios_state_cb` of `sstp-ios.c`, which ends the event loop when a session fails.

Each Call-Connect-Ack that can be read is acted on, whatever came before. So the call is connected
once, and its nonce stays, exactly when no second one comes; and data packets meet a forward
callback exactly when one has come before them.
-/

namespace SstpClient.Call

open SstpClient.Lib.Footprint SstpClient.Lib.Footprint.ReadProg SstpClient.Lib.Machine
open SstpClient.Lib.Handler
open SstpClient.Buffer SstpClient.Packet SstpClient.StreamSpec SstpClient.ControlMsg
open SstpClient.StateSpec
open SstpClient.Stream (SstpStream sendFrom)
open SstpClient.State (Env Mode Signal Event Message Session Handled txBuf)

/-! ### The client -/

/-- The session, and how many PPP contexts have been created for it. -/
structure Client where
  session : Session
  contexts : ℕ
  /-- `sstp_ios_fail_ex` has left the event loop. -/
  stopped : Bool

/-- What happens to the session, and whether `sstp_pppd_create` gets its memory if it is called. -/
structure Input where
  event : State.Input
  allocated : Bool

def create (bufs : ℕ → Buff) : Client := ⟨State.sstpCreate .client bufs, 0, false⟩

/-- `ios_state_cb`: on `SSTP_CALL_CONNECT` a PPP context is created and started, and the forward
callback is set; what ends the call goes to `sstp_ios_fail_ex`. -/
def iosStateCb (allocated : Bool) (c : Client) : Signal → Client
  | .connect =>
    if allocated then
      { c with
        session := { c.session with st := { c.session.st with forward := true } },
        contexts := c.contexts + 1 }
    else { c with stopped := true }
  | .established => c
  | _ => { c with stopped := true }

/-- An event of the state machine, which is a call of `ios_state_cb` if it is a signal. -/
def relay (allocated : Bool) (e : Event) : Act Client Event := fun c =>
  match e with
  | .signal s => (iosStateCb allocated c s, [e])
  | _ => (c, [e])

variable (E : Env)

/-- An event of the loop, which is left once the session has failed. Nothing but `ios_state_cb` sets
the forward callback. -/
def step (c : Client) (i : Input) : Client × List Event :=
  if c.stopped then (c, [])
  else
    match i.event with
    | .setForward => (c, [])
    | event =>
      forEach Client.stopped (relay i.allocated) (State.step E c.session event).2
        { c with session := (State.step E c.session event).1 }

/-- A Call-Connect-Ack is acted on. -/
def Acts (c : Client) (i : Input) : Prop :=
  c.stopped = false ∧ c.session.stream.place = .idle ∧ (acknowledged i.event).isSome

/-! ### What a step does -/

section Step

variable {E : Env} {c : Client} {i : Input}

/-- No operation of the stream signals that the call is connected. -/
lemma connect_streamStep (s : Session) (r : SstpStream × List Stream.Event) :
    .connect ∉ signals (State.streamStep s r).2 := by
  unfold State.streamStep
  dsimp only
  rw [signals_append, signals_stream, signals_map, List.nil_append, List.mem_append, not_or]
  constructor
  · unfold State.sstpStateSendComplete
    rw [List.mem_filterMap]
    rintro ⟨e, -, heq⟩
    split at heq
    · split_ifs at heq
      cases heq
    · cases heq
  · unfold State.resume
    split
    · next m status hw hr =>
      cases m <;> simp only [State.afterSend]
      · split_ifs <;> decide
      · split_ifs <;> decide
      all_goals decide
    · exact List.not_mem_nil

lemma handOver_spec {s : Session} (h : Ready s) {m : Message} (hm : Sized m) :
    ∃ b, State.construct E s.st (s.stream.bufs txBuf) m = some (.okay, b) ∧
      .connect ∉ signals (State.handOver E s m).2 ∧
      Kept s.st (State.handOver E s m).1.st ∧
      (State.handOver E s m).1.st.forward = s.st.forward ∧
      ∀ call message, .handed call message ∈ (State.handOver E s m).2 →
        message = StreamSpec.remaining b := by
  obtain ⟨b, hb, -⟩ := h.handed (E := E) hm
  refine ⟨b, hb, ?_⟩
  rw [handOver_eq hb]
  obtain ⟨-, hkept, hforward⟩ := streamStep_fst { s with
    stream := { s.stream with bufs := Function.update s.stream.bufs txBuf b },
    waits := some m, controls := s.stream.calls :: s.controls }
    (sendFrom { s.stream with bufs := Function.update s.stream.bufs txBuf b } .handler txBuf 10)
  refine ⟨connect_streamStep _ _, hkept, hforward, fun call message hmem => ?_⟩
  rcases List.mem_cons.mp hmem with heq | hmem
  · cases heq
  · rcases List.mem_cons.mp hmem with heq | hmem
    · cases heq
      rfl
    · simp [State.streamStep] at hmem

/-- **A step that acts on an acknowledgement** signals that the call is connected, once, and stores
the nonce. -/
theorem step_acts (hruns : c.stopped = false) (hplace : c.session.stream.place = .idle)
    {proto : UInt8} {nounce : List UInt8} (hack : acknowledged i.event = some (proto, nounce)) :
    (step E c i).2 = [.signal .connect] ∧ (step E c i).1.session.st.proto = proto ∧
      (step E c i).1.session.st.nounce = nounce ∧
      (step E c i).1.session.st.forward = (i.allocated || c.session.st.forward) ∧
      (step E c i).1.contexts = c.contexts + i.allocated.toNat := by
  have hev : ∀ event : State.Input, acknowledged event = some (proto, nounce) →
      State.step E c.session event =
        ({ c.session with st := { c.session.st with proto := proto, nounce := nounce } },
          [.signal .connect]) := by
    intro event hack
    have hh : State.handled E c.session.st event = _ := handled_of_acknowledged hack
    cases event with
    | recv packet tail attrs =>
      simp only [State.step]
      rw [if_pos hplace, hh]
      rfl
    | _ => cases hack
  have hstep := hev i.event hack
  unfold step
  rw [if_neg (by simp [hruns])]
  split
  · next heq =>
    rw [heq] at hack
    cases hack
  · rw [hstep]
    simp only [forEach, andThen_skip]
    cases i.allocated
    · exact ⟨rfl, rfl, rfl, rfl, rfl⟩
    · exact ⟨rfl, rfl, rfl, rfl, rfl⟩

lemma relay_events (allocated : Bool) (e : Event) (c : Client) : (relay allocated e c).2 = [e] := by
  cases e <;> rfl

/-- The events of a step are put out up to the end of the loop. -/
lemma relayed_front {allocated : Bool} (l : List Event) (c : Client) :
    (forEach Client.stopped (relay allocated) l c).2 <+: l := by
  induction l generalizing c with
  | nil => exact List.prefix_refl _
  | cons e l ih =>
    unfold forEach
    cases hstop : (relay allocated e c).1.stopped with
    | true =>
      rw [andThen_stopped hstop, relay_events]
      exact (List.prefix_cons_inj e).mpr List.nil_prefix
    | false =>
      rw [andThen_running hstop, relay_events]
      exact (List.prefix_cons_inj e).mpr (ih _)

/-- Without the signal `ios_state_cb` does nothing but to end the loop. -/
lemma relayed_same {allocated : Bool} {l : List Event} (h : .signal .connect ∉ l) (c : Client) :
    (forEach Client.stopped (relay allocated) l c).1.session = c.session ∧
      (forEach Client.stopped (relay allocated) l c).1.contexts = c.contexts := by
  induction l generalizing c with
  | nil => exact ⟨rfl, rfl⟩
  | cons e l ih =>
    rw [List.mem_cons, not_or] at h
    have hrelay : (relay allocated e c).1.session = c.session ∧
        (relay allocated e c).1.contexts = c.contexts := by
      cases e with
      | signal s =>
        cases s with
        | connect => exact absurd rfl h.1
        | _ => exact ⟨rfl, rfl⟩
      | _ => exact ⟨rfl, rfl⟩
    unfold forEach
    cases hstop : (relay allocated e c).1.stopped with
    | true => rwa [andThen_stopped hstop]
    | false =>
      obtain ⟨hsession, hcontexts⟩ := ih h.2 (relay allocated e c).1
      rw [andThen_running hstop]
      exact ⟨hsession.trans hrelay.1, hcontexts.trans hrelay.2⟩

/-- A step of the state machine without an acknowledgement. -/
lemma session_not_acts {s : Session} (h : Ready s) {event : State.Input}
    (hset : event ≠ .setForward)
    (hnot : s.stream.place = .idle → acknowledged event = none) :
    .connect ∉ signals (State.step E s event).2 ∧ Kept s.st (State.step E s event).1.st ∧
      (State.step E s event).1.st.forward = s.st.forward := by
  cases StateSpec.step_spec E s event with
  | still heq hevents =>
    rw [heq, hevents]
    exact ⟨List.not_mem_nil, .refl _, rfl⟩
  | stream j hi hbuild hsend heq =>
    rw [congrArg Prod.fst heq, congrArg Prod.snd heq]
    exact ⟨connect_streamStep _ _, (streamStep_fst _ _).2⟩
  | overrun hplace hh heq hevents =>
    rw [heq, hevents]
    exact ⟨List.not_mem_nil, .refl _, rfl⟩
  | ran r hplace hh hspec heq =>
    have hnone := hnot hplace
    have hready := h.of_spec hspec
    have hsignals : ∀ forwards : Option (List UInt8),
        signals (forwards.map Event.forward).toList = [] := fun forwards => by
      cases forwards <;> rfl
    rw [congrArg Prod.fst heq, congrArg Prod.snd heq]
    cases hspec with
    | start hi hmode =>
      obtain ⟨b, -, hsig, hkept, hforward, -⟩ := handOver_spec (E := E) h (m := .connectReq)
        (fun _ hm => by cases hm)
      exact ⟨hsig, hkept, hforward⟩
    | accept certHash hi hmode hcert =>
      obtain ⟨b, -, hsig, hkept, hforward, -⟩ := handOver_spec (E := E) h
        (m := .connected certHash) (fun _ hm => by cases hm; exact certHash.property)
      exact ⟨hsig, hkept, hforward⟩
    | noHash hi hmode hcert =>
      exact ⟨(by decide : Signal.connect ∉ [Signal.abort]), .refl _, rfl⟩
    | acked proto nounce hack =>
      rw [hnone] at hack
      cases hack
    | answers st' m hi hack hm hkept hforward =>
      obtain ⟨b, -, hsig, hkept', hforward', -⟩ := handOver_spec (E := E) hready (m := m)
        fun _ heq => by rw [heq] at hm; cases hm
      exact ⟨hsig, hkept.trans hkept', hforward'.trans hforward⟩
    | quiet st' signals' forwards hi hack hkept hforward hconnect =>
      refine ⟨?_, hkept, hforward.resolve_right hset⟩
      unfold State.handle
      dsimp only
      rwa [signals_append, signals_map, hsignals, List.append_nil]

/-- **A step without an acknowledgement** leaves the nonce, the contexts and the callback. -/
theorem step_not_acts (h : Ready c.session) (hnot : ¬ Acts c i) :
    .signal .connect ∉ (step E c i).2 ∧ Kept c.session.st (step E c i).1.session.st ∧
      (step E c i).1.session.st.forward = c.session.st.forward ∧
      (step E c i).1.contexts = c.contexts := by
  unfold step
  split_ifs with hstop
  · exact ⟨List.not_mem_nil, .refl _, rfl, rfl⟩
  split
  · exact ⟨List.not_mem_nil, .refl _, rfl, rfl⟩
  · next hset =>
    have hack : c.session.stream.place = .idle → acknowledged i.event = none := fun hplace =>
      Option.not_isSome_iff_eq_none.mp fun hsome =>
        hnot ⟨Bool.eq_false_iff.mpr hstop, hplace, hsome⟩
    obtain ⟨hsig, hkept, hforward⟩ := session_not_acts (E := E) h (fun heq => hset heq) hack
    have hsig : .signal .connect ∉ (State.step E c.session i.event).2 :=
      fun hmem => hsig (mem_signals.mpr hmem)
    obtain ⟨hsession, hcontexts⟩ := relayed_same hsig
      { c with session := (State.step E c.session i.event).1 }
    rw [hsession, hcontexts]
    exact ⟨fun hmem => hsig ((relayed_front _ _).subset hmem), hkept, hforward, rfl⟩

lemma ready_relay {allocated : Bool} (e : Event) :
    Keeps Client.stopped (fun c _ => Ready c.session) (relay allocated e) := by
  intro c h hs hready
  unfold relay
  split
  · next s =>
    cases s with
    | connect =>
      simp only [iosStateCb]
      split_ifs
      · exact ⟨hready.max, hready.nounce⟩
      · exact hready
    | _ => exact hready
  · exact hready

theorem ready_step (h : Ready c.session) (i : Input) : Ready (step E c i).1.session := by
  unfold step
  split_ifs with hstop
  · exact h
  split
  · exact h
  · exact Keeps.forEach (fun e _ => ready_relay e) { c with session := _ } []
      (Bool.eq_false_iff.mpr hstop) (StateSpec.ready_step h _)

/-- Call-Connected is built with the nonce that is stored. -/
lemma step_accept (h : Ready c.session) (hi : i.event = .accept) {call : ℕ} {message : List UInt8}
    (hmem : .handed call message ∈ (step E c i).2) : nounceOf message = c.session.st.nounce := by
  have hmem : .handed call message ∈ (State.step E c.session .accept).2 := by
    unfold step at hmem
    split_ifs at hmem
    · cases hmem
    rw [hi] at hmem
    exact (relayed_front _ _).subset hmem
  cases StateSpec.step_spec E c.session .accept with
  | still heq hevents =>
    rw [hevents] at hmem
    cases hmem
  | stream j hi' hbuild hsend heq => cases hi'
  | overrun hplace hh heq hevents =>
    rw [hevents] at hmem
    simp at hmem
  | ran r hplace hh hspec heq =>
    rw [congrArg Prod.snd heq] at hmem
    cases hspec with
    | start hi' hmode => cases hi'
    | accept certHash hi' hmode hcert =>
      have hsized : Sized (.connected certHash) := fun _ hm => by
        cases hm
        exact certHash.property
      obtain ⟨b, hb, -, -, -, hmessage⟩ := handOver_spec (E := E) h hsized
      obtain ⟨b', hb', -, hrem⟩ := construct_connected (E := E) (by rw [h.max]; decide) h.nounce
        certHash.property
      cases hb.symm.trans hb'
      rw [hmessage call message hmem, hrem]
      exact nounceOf_connected h.nounce certHash.property
    | noHash hi' hmode hcert => simp [State.handle] at hmem
    | acked proto nounce hack => simp [State.handle] at hmem
    | answers st' m hi' hack hm hkept hforward => cases hi'
    | quiet st' signals' forwards hi' hack hkept hforward hconnect =>
      cases forwards <;> simp [State.handle] at hmem

end Step

/-! ### Runs -/

section Runs

variable (bufs : ℕ → Buff)

/-- The client after the inputs. -/
def after (inputs : List Input) : Client := (run (step E) (create bufs) inputs).1

variable {E bufs}

lemma after_append (js ks : List Input) :
    after E bufs (js ++ ks) = (run (step E) (after E bufs js) ks).1 := by
  unfold after
  rw [run_append]

lemma after_snoc (js : List Input) (i : Input) :
    after E bufs (js ++ [i]) = (step E (after E bufs js) i).1 := after_append js [i]

lemma after_cons (js : List Input) (i : Input) (ls : List Input) :
    after E bufs (js ++ i :: ls) = (run (step E) (after E bufs (js ++ [i])) ls).1 := by
  rw [List.append_cons, after_append]

lemma ready_after (inputs : List Input) : Ready (after E bufs inputs).session := by
  induction inputs using List.reverseRecOn with
  | nil => exact ready_create .client bufs
  | append_singleton js i ih =>
    rw [after_snoc]
    exact ready_step ih i

/-- A run without an acknowledgement. -/
lemma run_not_acts {c : Client} (h : Ready c.session) {ls : List Input}
    (hnot : Along (step E) (fun c i => ¬ Acts c i) c ls) :
    (run (step E) c ls).2.count (.signal .connect) = 0 ∧
      Kept c.session.st (run (step E) c ls).1.session.st ∧
      (run (step E) c ls).1.contexts = c.contexts := by
  induction ls generalizing c with
  | nil => exact ⟨rfl, .refl _, rfl⟩
  | cons i ls ih =>
    obtain ⟨hsig, hkept, -, hcontexts⟩ := step_not_acts (E := E) h hnot.1
    obtain ⟨hcount, hkept', hcontexts'⟩ := ih (ready_step h i) hnot.2
    rw [run_cons]
    refine ⟨?_, hkept.trans hkept', hcontexts'.trans hcontexts⟩
    rw [List.count_append, List.count_eq_zero_of_not_mem hsig, hcount]

/-! ### The acknowledgement is acted on once -/

section Once

variable (E bufs) (inputs : List Input)

/-- The call is connected once and with one PPP context; the nonce stays from then on, and a
Call-Connected message carries it. -/
structure ActedOnce : Prop where
  once : (run (step E) (create bufs) inputs).2.count (.signal .connect) ≤ 1
  context : (after E bufs inputs).contexts ≤ 1
  kept : ∀ js i ls, js ++ i :: ls <+: inputs →
    .signal .connect ∈ (step E (after E bufs js) i).2 →
      (after E bufs (js ++ i :: ls)).session.st.proto =
          (after E bufs (js ++ [i])).session.st.proto ∧
        (after E bufs (js ++ i :: ls)).session.st.nounce =
          (after E bufs (js ++ [i])).session.st.nounce
  carried : ∀ js i ls k, js ++ i :: (ls ++ [k]) <+: inputs →
    .signal .connect ∈ (step E (after E bufs js) i).2 → k.event = .accept →
      ∀ call message, .handed call message ∈ (step E (after E bufs (js ++ i :: ls)) k).2 →
        ∃ proto, acknowledged i.event = some (proto, nounceOf message)

/-- The condition: when an acknowledgement has been acted on, no other one that could be comes. -/
def AckedOnce : Prop :=
  ∀ js i ls k, js ++ i :: (ls ++ [k]) <+: inputs → Acts (after E bufs js) i →
    ¬ Acts (after E bufs (js ++ i :: ls)) k

end Once

variable {inputs : List Input}

lemma acts_of_signal {c : Client} {i : Input} (h : Ready c.session)
    (hsig : .signal .connect ∈ (step E c i).2) : Acts c i := by
  by_contra hnot
  exact (step_not_acts h hnot).1 hsig

/-- After the acknowledgement that is acted on. -/
lemma AckedOnce.along (h : AckedOnce E bufs inputs) {js ls : List Input} {i : Input}
    (hpre : js ++ i :: ls <+: inputs) (hi : Acts (after E bufs js) i) :
    Along (step E) (fun c i => ¬ Acts c i) (after E bufs (js ++ [i])) ls := by
  by_contra hnot
  obtain ⟨as, k, bs, rfl, -, hk⟩ := exists_first hnot
  refine h js i as k (List.IsPrefix.trans ⟨bs, ?_⟩ hpre) hi ?_
  · simp
  · rw [after_cons]
    exact not_not.mp hk

/-- **A Call-Connect-Ack is acted on once** exactly in the runs in which no second one comes. -/
theorem actedOnce_iff (E : Env) (bufs : ℕ → Buff) (inputs : List Input) :
    ActedOnce E bufs inputs ↔ AckedOnce E bufs inputs := by
  have hsignals : ∀ c i, Acts c i → (step E c i).2 = [.signal .connect] := by
    rintro c i ⟨hruns, hplace, hack⟩
    obtain ⟨r, hr⟩ := Option.isSome_iff_exists.mp hack
    exact (step_acts hruns hplace hr).1
  constructor
  · rintro ⟨honce, -, -, -⟩ js i ls k ⟨ks, rfl⟩ hi hk
    -- both would be counted
    have hsplit : (js ++ i :: (ls ++ [k])) ++ ks = js ++ ([i] ++ (ls ++ ([k] ++ ks))) := by simp
    rw [hsplit, run_append, run_append, run_append, run_append] at honce
    simp only [List.count_append] at honce
    have hfirst : (run (step E) (after E bufs js) [i]).2 = [.signal .connect] := by
      rw [run_cons, run_nil, List.append_nil]
      exact hsignals _ _ hi
    have hsecond : (run (step E) (after E bufs (js ++ i :: ls)) [k]).2 = [.signal .connect] := by
      rw [run_cons, run_nil, List.append_nil]
      exact hsignals _ _ hk
    have hafter : (run (step E) (run (step E) (run (step E) (create bufs) js).1 [i]).1 ls).1 =
        after E bufs (js ++ i :: ls) := by
      rw [after_cons, after_append]
      rfl
    have hstart : (run (step E) (create bufs) js).1 = after E bufs js := rfl
    rw [hafter, hsecond, hstart, hfirst] at honce
    simp at honce
    omega
  · intro h
    have hactsOf : ∀ {js ls i}, js ++ i :: ls <+: inputs →
        .signal .connect ∈ (step E (after E bufs js) i).2 → Acts (after E bufs js) i :=
      fun _ hsig => acts_of_signal (ready_after _) hsig
    have hkept : ∀ {js ls i}, js ++ i :: ls <+: inputs →
        .signal .connect ∈ (step E (after E bufs js) i).2 →
          Kept (after E bufs (js ++ [i])).session.st (after E bufs (js ++ i :: ls)).session.st := by
      intro js ls i hpre hsig
      rw [after_cons js i ls]
      exact (run_not_acts (ready_after _) (h.along hpre (hactsOf hpre hsig))).2.1
    have hcount : (run (step E) (create bufs) inputs).2.count (.signal .connect) ≤ 1 ∧
        (after E bufs inputs).contexts ≤ 1 := by
      by_cases hnone : Along (step E) (fun c i => ¬ Acts c i) (create bufs) inputs
      · obtain ⟨hzero, -, hcontexts⟩ := run_not_acts (ready_create .client bufs) hnone
        rw [hzero]
        refine ⟨Nat.zero_le _, ?_⟩
        unfold after
        rw [hcontexts]
        exact Nat.zero_le _
      · obtain ⟨js, i, ks, rfl, hjs, hi⟩ := exists_first hnone
        have hi : Acts (after E bufs js) i := not_not.mp hi
        obtain ⟨hzero, -, hcontexts⟩ := run_not_acts (ready_create .client bufs) hjs
        obtain ⟨hzero', -, hcontexts'⟩ := run_not_acts (ready_after _)
          (h.along (List.prefix_refl _) hi)
        obtain ⟨r, hr⟩ := Option.isSome_iff_exists.mp hi.2.2
        obtain ⟨hevents, -, -, -, hnew⟩ := step_acts (E := E) hi.1 hi.2.1 hr
        constructor
        · have hrest : (run (step E) (step E (after E bufs js) i).1 ks).2.count
              (.signal .connect) = 0 := by
            rw [← after_snoc]
            exact hzero'
          rw [run_append, run_cons, List.count_append, List.count_append, hzero]
          change 0 + ((step E (after E bufs js) i).2.count _ +
            (run (step E) (step E (after E bufs js) i).1 ks).2.count _) ≤ 1
          rw [hrest, hevents]
          decide
        · have hbefore : (after E bufs js).contexts = 0 := hcontexts
          rw [after_cons, hcontexts', after_snoc, hnew, hbefore, Nat.zero_add]
          exact Bool.toNat_le i.allocated
    refine ⟨hcount.1, hcount.2, fun js i ls hpre hsig => ?_,
      fun js i ls k hpre hsig hk call message hmem => ?_⟩
    · exact ⟨(hkept hpre hsig).proto, (hkept hpre hsig).nounce⟩
    · have hpre' : js ++ i :: ls <+: inputs := List.IsPrefix.trans ⟨[k], by simp⟩ hpre
      have hi := hactsOf hpre' hsig
      obtain ⟨⟨proto, nounce⟩, hr⟩ := Option.isSome_iff_exists.mp hi.2.2
      obtain ⟨-, -, hnounce, -⟩ := step_acts (E := E) hi.1 hi.2.1 hr
      refine ⟨proto, ?_⟩
      rw [step_accept (ready_after _) hk hmem, (hkept hpre' hsig).nounce, after_snoc, hnounce]
      exact hr

/-! ### Data packets -/

/-- `sstp_state_handle_data` is executed. -/
def HandlesData (c : Client) (i : Input) : Prop :=
  c.stopped = false ∧ c.session.stream.place = .idle ∧
    ∃ packet tail attrs type, i.event = .recv packet tail attrs ∧
      (sstpPktType packet.length).eval (listMem (packet ++ tail)) = some (.data, type)

section Data

variable (E bufs) (inputs : List Input)

/-- Data packets are handled only while the forward callback is installed. -/
def ForwardsInstalled : Prop :=
  ∀ js i, js ++ [i] <+: inputs → HandlesData (after E bufs js) i →
    (after E bufs js).session.st.forward = true

/-- The condition: each data packet comes after a Call-Connect-Ack that was acted on, with memory
for the PPP context. -/
def Announced : Prop :=
  ∀ js i, js ++ [i] <+: inputs → HandlesData (after E bufs js) i →
    ∃ ms a ls, js = ms ++ a :: ls ∧ Acts (after E bufs ms) a ∧ a.allocated = true

end Data

/-- The forward callback is installed by an acknowledgement, and stays. -/
theorem forward_iff (js : List Input) : (after E bufs js).session.st.forward = true ↔
    ∃ ms a ls, js = ms ++ a :: ls ∧ Acts (after E bufs ms) a ∧ a.allocated = true := by
  induction js using List.reverseRecOn with
  | nil =>
    refine iff_of_false Bool.false_ne_true ?_
    rintro ⟨ms, a, ls, heq, -⟩
    simp at heq
  | append_singleton js i ih =>
    have hearlier : (∃ ms a ls, js ++ [i] = ms ++ a :: ls ∧ Acts (after E bufs ms) a ∧
        a.allocated = true) ↔
          (∃ ms a ls, js = ms ++ a :: ls ∧ Acts (after E bufs ms) a ∧ a.allocated = true) ∨
            Acts (after E bufs js) i ∧ i.allocated = true := by
      constructor
      · rintro ⟨ms, a, ls, heq, hacts, hall⟩
        rcases List.eq_nil_or_concat ls with rfl | ⟨ls', k, rfl⟩
        · obtain ⟨rfl, hlast⟩ := List.append_inj' heq rfl
          cases hlast
          exact .inr ⟨hacts, hall⟩
        · rw [List.concat_eq_append, ← List.cons_append, ← List.append_assoc] at heq
          exact .inl ⟨ms, a, ls', (List.append_inj' heq rfl).1, hacts, hall⟩
      · rintro (⟨ms, a, ls, rfl, hacts, hall⟩ | ⟨hacts, hall⟩)
        · exact ⟨ms, a, ls ++ [i], by simp, hacts, hall⟩
        · exact ⟨js, i, [], rfl, hacts, hall⟩
    rw [hearlier, ← ih, after_snoc]
    by_cases hacts : Acts (after E bufs js) i
    · obtain ⟨r, hr⟩ := Option.isSome_iff_exists.mp hacts.2.2
      obtain ⟨-, -, -, hforward, -⟩ := step_acts (E := E) hacts.1 hacts.2.1 hr
      rw [hforward, Bool.or_eq_true]
      tauto
    · rw [(step_not_acts (ready_after js) hacts).2.2.1]
      tauto

/-- **Data packets are forwarded to an installed consumer** exactly in the runs in which each of
them comes after an acknowledgement. -/
theorem forwardsInstalled_iff (E : Env) (bufs : ℕ → Buff) (inputs : List Input) :
    ForwardsInstalled E bufs inputs ↔ Announced E bufs inputs := by
  unfold ForwardsInstalled Announced
  simp only [forward_iff]

end Runs

/-! ### What a server can send -/

/-- Buffers to start with. -/
def plainBufs : ℕ → Buff := fun _ => sstpBuffCreate 0

/-- A Call-Connect-Ack with the nonce `b, b, ..`. -/
def ackPacket (b : UInt8) : List UInt8 :=
  [0x10, 0x01, 0x00, 0x30, 0x00, 0x02, 0x00, 0x01, 0x00, 0x04, 0x00, 0x28, 0x00, 0x00, 0x00, 0x02] ++
    List.replicate 32 b

def ackInput (b : UInt8) : Input := ⟨.recv (ackPacket b) [] fun _ => none, true⟩

/-- An empty data packet. -/
def dataInput : Input := ⟨.recv [0x10, 0x00, 0x00, 0x04] [] fun _ => none, true⟩

example : acknowledged (ackInput 7).event = some (0x02, List.replicate 32 7) := by decide +kernel

/-- Two acknowledgements, one behind the other: the call is connected twice. -/
theorem second_ack_connects_again : ¬ ActedOnce plainEnv plainBufs [ackInput 1, ackInput 2] := by
  rintro ⟨honce, -, -, -⟩
  have hack1 : acknowledged (ackInput 1).event = some (0x02, List.replicate 32 1) := by
    decide +kernel
  have hack2 : acknowledged (ackInput 2).event = some (0x02, List.replicate 32 2) := by
    decide +kernel
  obtain ⟨h1, -⟩ := step_acts (E := plainEnv) (c := create plainBufs) rfl rfl hack1
  have hruns : (step plainEnv (create plainBufs) (ackInput 1)).1.stopped = false := rfl
  have hplace : (step plainEnv (create plainBufs) (ackInput 1)).1.session.stream.place = .idle :=
    rfl
  obtain ⟨h2, -⟩ := step_acts (E := plainEnv) hruns hplace hack2
  rw [run_cons, run_cons, run_nil, h1, h2] at honce
  exact absurd honce (by decide)

/-- A data packet before anything else: there is no callback to call. -/
theorem early_data_not_installed : ¬ ForwardsInstalled plainEnv plainBufs [dataInput] := by
  intro h
  have hdata : HandlesData (after plainEnv plainBufs []) dataInput :=
    ⟨rfl, rfl, [0x10, 0x00, 0x00, 0x04], [], _, none, rfl, rfl⟩
  exact absurd (h [] dataInput (List.prefix_refl _) hdata) (by decide)

end SstpClient.Call
