import SstpClient.ControlMsg

/-!
What a step of the state machine does.

A handler either sends one message and signals nothing before, or sends none. The stored nonce
and hash protocol come from an acknowledgement. From a session as it is created every message can
be built.
-/

namespace SstpClient.StateSpec

open SstpClient.Lib.Bytes SstpClient.Lib.Footprint SstpClient.Lib.Footprint.ReadProg
open SstpClient.Buffer SstpClient.Packet SstpClient.ConnectMsg SstpClient.StreamSpec
open SstpClient.State SstpClient.ControlMsg
open SstpClient.Stream (SstpStream sendFrom)

/-! ### The handlers -/

/-- The messages of the handshake. -/
inductive Kind
  | request | connected
  deriving DecidableEq

def messageKind : Message → Option Kind
  | .connectReq => some .request
  | .connected _ => some .connected
  | _ => none

/-- The event that asks for a message of the handshake. -/
def inputKind : Input → Option Kind
  | .start => some .request
  | .accept => some .connected
  | _ => none

/-- The protocol and the nonce of a Call-Connect-Ack that is acted on. -/
def acknowledged : Input → Option (UInt8 × List UInt8)
  | .recv packet tail attrs =>
    match (sstpPktType packet.length).eval (listMem (packet ++ tail)) with
    | some (.ctrl, some type) =>
      if type = SstpMsg.connectAck.code then
        ((sstpStateConnectAck packet.length attrs).eval (listMem (packet ++ tail))).join
      else none
    | _ => none
  | _ => none

/-- What every handler but that of the acknowledgement keeps. -/
structure Kept (st st' : SstpState) : Prop where
  proto : st'.proto = st.proto
  nounce : st'.nounce = st.nounce
  mode : st'.mode = st.mode

lemma Kept.refl (st : SstpState) : Kept st st := ⟨rfl, rfl, rfl⟩

lemma Kept.trans {st st' st'' : SstpState} (h : Kept st st') (h' : Kept st' st'') : Kept st st'' :=
  ⟨h'.proto.trans h.proto, h'.nounce.trans h.nounce, h'.mode.trans h.mode⟩

/-- What a handler can be. -/
inductive HandledSpec (E : Env) (st : SstpState) (i : Input) : Handled → Prop
  | start (hi : i = .start) (hmode : st.mode = .client) :
    HandledSpec E st i ⟨st, some .connectReq, [], none⟩
  | accept (certHash : { h : List UInt8 // h.length = 32 }) (hi : i = .accept)
    (hmode : st.mode = .client) (hcert : E.certHash st.proto = some certHash) :
    HandledSpec E st i ⟨st, some (.connected certHash), [], none⟩
  | noHash (hi : i = .accept) (hmode : st.mode = .client) (hcert : E.certHash st.proto = none) :
    HandledSpec E st i ⟨st, none, [.abort], none⟩
  | acked (proto : UInt8) (nounce : List UInt8) (hack : acknowledged i = some (proto, nounce)) :
    HandledSpec E st i ⟨{ st with proto := proto, nounce := nounce }, none, [.connect], none⟩
  | answers (st' : SstpState) (m : Message) (hi : inputKind i = none)
    (hack : acknowledged i = none) (hm : messageKind m = none) (hkept : Kept st st')
    (hforward : st'.forward = st.forward) : HandledSpec E st i ⟨st', some m, [], none⟩
  | quiet (st' : SstpState) (signals : List Signal) (forwards : Option (List UInt8))
    (hi : st.mode = .client → inputKind i = none) (hack : acknowledged i = none)
    (hkept : Kept st st') (hforward : st'.forward = st.forward ∨ i = .setForward)
    (hconnect : .connect ∉ signals) : HandledSpec E st i ⟨st', none, signals, forwards⟩

section Handlers

variable {E : Env} {st : SstpState} {i : Input} {r : Handled}

lemma spec_handleCtrl {packet tail : List UInt8} {attrs : Attrs} {type : ℕ}
    (htype : (sstpPktType packet.length).eval (listMem (packet ++ tail)) =
      some (.ctrl, some type))
    (h : sstpStateHandleCtrl st packet.length (listMem (packet ++ tail)) attrs type = some r) :
    HandledSpec E st (.recv packet tail attrs) r := by
  have hi : inputKind (.recv packet tail attrs) = none := rfl
  have hack : type ≠ SstpMsg.connectAck.code → acknowledged (.recv packet tail attrs) = none := by
    intro hne
    simp only [acknowledged, htype]
    rw [if_neg hne]
  unfold sstpStateHandleCtrl at h
  split_ifs at h with htack hnak habort hdisc hdack hreq hrep
  · obtain ⟨b, hb, rfl⟩ := Option.map_eq_some_iff.mp h
    have hjoin : acknowledged (.recv packet tail attrs) = b := by
      simp only [acknowledged, htype]
      rw [if_pos htack, hb, Option.join_some]
    cases b with
    | none => exact .quiet st [.abort] none (fun _ => hi) hjoin (.refl st) (.inl rfl) (by decide)
    | some b => exact .acked b.1 b.2 hjoin
  · obtain ⟨b, -, rfl⟩ := Option.map_eq_some_iff.mp h
    cases b with
    | none => exact .quiet st [] none (fun _ => hi) (hack htack) (.refl st) (.inl rfl) (by decide)
    | some b => exact .answers _ _ hi (hack htack) rfl ⟨rfl, rfl, rfl⟩ rfl
  · obtain ⟨b, -, rfl⟩ := Option.map_eq_some_iff.mp h
    cases b with
    | none => exact .quiet st [] none (fun _ => hi) (hack htack) (.refl st) (.inl rfl) (by decide)
    | some b =>
      exact .quiet _ [.abort] none (fun _ => hi) (hack htack) ⟨rfl, rfl, rfl⟩ (.inl rfl) (by decide)
  · obtain ⟨b, -, rfl⟩ := Option.map_eq_some_iff.mp h
    cases b with
    | none =>
      exact .quiet st [.disconnect] none (fun _ => hi) (hack htack) (.refl st) (.inl rfl) (by decide)
    | some b => exact .answers _ _ hi (hack htack) rfl ⟨rfl, rfl, rfl⟩ rfl
  · cases h
    exact .quiet st [.disconnect] none (fun _ => hi) (hack htack) (.refl st) (.inl rfl) (by decide)
  · cases h
    exact .answers _ _ hi (hack htack) rfl (.refl st) rfl
  · cases h
    exact .quiet _ [] none (fun _ => hi) (hack htack) ⟨rfl, rfl, rfl⟩ (.inl rfl) (by decide)
  · cases h
    exact .quiet st [] none (fun _ => hi) (hack htack) (.refl st) (.inl rfl) (by decide)

lemma spec_handlePacket {packet tail : List UInt8} {attrs : Attrs}
    (h : sstpStateHandlePacket st packet.length (listMem (packet ++ tail)) attrs = some r) :
    HandledSpec E st (.recv packet tail attrs) r := by
  have hquiet : acknowledged (.recv packet tail attrs) = none → ∀ forwards,
      HandledSpec E st (.recv packet tail attrs) ⟨st, none, [], forwards⟩ := fun hack forwards =>
    .quiet st [] forwards (fun _ => rfl) hack (.refl st)
      (.inl rfl) (by decide)
  unfold sstpStateHandlePacket at h
  cases htype : (sstpPktType packet.length).eval (listMem (packet ++ tail)) with
  | none =>
    rw [htype] at h
    cases h
  | some t =>
    rw [htype] at h
    obtain ⟨kind, type⟩ := t
    cases kind with
    | unknown =>
      cases h
      exact hquiet (by simp only [acknowledged, htype]) none
    | data =>
      dsimp only at h
      split_ifs at h
      obtain ⟨payload, -, rfl⟩ := Option.map_eq_some_iff.mp h
      exact hquiet (by simp only [acknowledged, htype]) (some payload)
    | ctrl =>
      cases type with
      | none =>
        cases h
        exact hquiet (by simp only [acknowledged, htype]) none
      | some type => exact spec_handleCtrl htype h

/-- **Every handler** is one of these. -/
theorem handled_spec (h : handled E st i = some r) : HandledSpec E st i r := by
  cases i with
  | start =>
    cases h
    unfold sstpStateStart
    split_ifs with hmode
    · exact .start rfl hmode
    · exact .quiet st [] none (fun hm => absurd hm hmode) rfl (.refl st) (.inl rfl) (by decide)
  | accept =>
    cases h
    unfold sstpStateAccept
    split_ifs with hmode
    · cases hcert : E.certHash st.proto with
      | none => exact .noHash rfl hmode hcert
      | some certHash => exact .accept certHash rfl hmode hcert
    · exact .quiet st [] none (fun hm => absurd hm hmode) rfl (.refl st) (.inl rfl) (by decide)
  | mppeKeys send recv =>
    cases h
    exact .quiet _ [] none (fun _ => rfl) rfl
      ⟨rfl, rfl, rfl⟩ (.inl rfl) (by decide)
  | setForward =>
    cases h
    exact .quiet _ [] none (fun _ => rfl) rfl
      ⟨rfl, rfl, rfl⟩ (.inr rfl) (by decide)
  | recv packet tail attrs => exact spec_handlePacket h
  | timeout =>
    cases h
    have hi : inputKind .timeout = none := rfl
    unfold sstpStateTimeout
    split_ifs
    · exact .quiet st [.abort] none (fun _ => hi) rfl (.refl st) (.inl rfl) (by decide)
    · exact .answers st _ hi rfl rfl (.refl st) rfl
  | recvFail =>
    cases h
    exact .quiet st [.fail] none (fun _ => rfl) rfl
      (.refl st) (.inl rfl) (by decide)
  | stream j =>
    cases h
    exact .quiet st [] none (fun _ => rfl) rfl
      (.refl st) (.inl rfl) (by decide)

/-- An acknowledgement is always acted on. -/
lemma handled_of_acknowledged {proto : UInt8} {nounce : List UInt8}
    (h : acknowledged i = some (proto, nounce)) :
    handled E st i = some ⟨{ st with proto := proto, nounce := nounce }, none, [.connect], none⟩ := by
  cases i with
  | recv packet tail attrs =>
    simp only [acknowledged] at h
    split at h
    · next type htype =>
      split_ifs at h with hack
      unfold handled sstpStateHandlePacket
      dsimp only
      rw [htype]
      dsimp only
      unfold sstpStateHandleCtrl
      rw [if_pos hack, Option.join_eq_some_iff.mp h]
      rfl
    · cases h
  | _ => cases h

/-- A message that is sent has a certificate hash of its size, if it has one. -/
lemma sized_of_sends {m : Message} (h : HandledSpec E st i r) (hs : r.sends = some m) :
    Sized m := by
  intro certHash hm
  subst hm
  cases h with
  | start hi hmode => cases hs
  | accept certHash' hi hmode hcert =>
    cases hs
    exact certHash'.property
  | noHash hi hmode hcert => cases hs
  | acked proto nounce hack => cases hs
  | answers st' m hi hack hm hkept hforward =>
    cases hs
    cases hm
  | quiet st' signals forwards hi hack hkept hforward hconnect => cases hs

end Handlers

/-- The nonce of an acknowledgement has its size. -/
lemma length_acknowledged {i : Input} {proto : UInt8} {nounce : List UInt8}
    (h : acknowledged i = some (proto, nounce)) : nounce.length = 32 := by
  have hread : ∀ {m : ℤ → Option UInt8} (k : ℕ) (p : ℤ) {bs : List UInt8},
      (readBytes p k).eval m = some bs → bs.length = k := by
    intro m k
    induction k with
    | zero =>
      intro p bs h
      cases h
      rfl
    | succ k ih =>
      intro p bs h
      simp only [readBytes, eval_bind, eval_cell, Option.bind_eq_some_iff, eval_pure] at h
      obtain ⟨b, -, bs', hrest, heq⟩ := h
      cases heq
      exact congrArg (· + 1) (ih _ hrest)
  cases i with
  | recv packet tail attrs =>
    have hsome : (sstpStateConnectAck packet.length attrs).eval (listMem (packet ++ tail)) =
        some (some (proto, nounce)) := by
      simp only [acknowledged] at h
      split at h
      · split_ifs at h
        exact Option.join_eq_some_iff.mp h
      · cases h
    unfold sstpStateConnectAck at hsome
    rw [eval_bind, Option.bind_eq_some_iff] at hsome
    obtain ⟨parsed, -, hsome⟩ := hsome
    cases parsed with
    | none => cases hsome
    | some parsed =>
      dsimp only at hsome
      split at hsome
      · cases hsome
      · rw [eval_bind, Option.bind_eq_some_iff] at hsome
        obtain ⟨alen, -, hsome⟩ := hsome
        split_ifs at hsome
        · cases hsome
        · simp only [eval_bind, eval_cell, Option.bind_eq_some_iff, eval_pure] at hsome
          obtain ⟨proto', -, bs, hbs, heq⟩ := hsome
          cases heq
          exact hread 32 _ hbs
  | _ => cases h

/-! ### Signals -/

def signals (events : List Event) : List Signal :=
  events.filterMap fun
    | .signal signal => some signal
    | _ => none

@[simp] lemma signals_append (events new : List Event) :
    signals (events ++ new) = signals events ++ signals new := List.filterMap_append

@[simp] lemma signals_map (l : List Signal) : signals (l.map .signal) = l := by
  unfold signals
  rw [List.filterMap_map]
  exact List.filterMap_some

@[simp] lemma signals_stream (l : List Stream.Event) : signals (l.map .stream) = [] := by
  unfold signals
  rw [List.filterMap_map]
  exact List.filterMap_eq_nil_iff.mpr fun e _ => rfl

lemma mem_signals {events : List Event} {signal : Signal} :
    signal ∈ signals events ↔ .signal signal ∈ events := by
  unfold signals
  rw [List.mem_filterMap]
  constructor
  · rintro ⟨e, he, heq⟩
    cases e with
    | signal s =>
      cases heq
      exact he
    | _ => cases heq
  · exact fun h => ⟨_, h, rfl⟩

/-! ### The steps -/

/-- From a session as it is created: the size of the transmit buffer and of the nonce. -/
structure Ready (c : Session) : Prop where
  max : (c.stream.bufs txBuf).max = 16384
  nounce : c.st.nounce.length = 32

/-- What a step can be. -/
inductive StepSpec (E : Env) (c : Session) (i : Input) (c' : Session) (events : List Event) : Prop
  | still (heq : c' = c) (hevents : events = [])
  | stream (j : Stream.Input) (hi : i = .stream j) (hbuild : ∀ content, j ≠ .build txBuf content)
    (hsend : ∀ timeout, j ≠ .send txBuf timeout)
    (heq : (c', events) = streamStep c (Stream.step c.stream j))
  | overrun (hplace : c.stream.place = .idle) (hh : handled E c.st i = none) (heq : c' = c)
    (hevents : events = [.overrun])
  | ran (r : Handled) (hplace : c.stream.place = .idle) (hh : handled E c.st i = some r)
    (hspec : HandledSpec E c.st i r) (heq : (c', events) = handle E c r)

/-- **Every step** is one of these. -/
theorem step_spec (E : Env) (c : Session) (i : Input) :
    StepSpec E c i (step E c i).1 (step E c i).2 := by
  unfold step
  split
  · next buf content =>
    split_ifs with hbuf
    · exact .still rfl rfl
    · exact .stream _ rfl (fun _ heq => by cases heq; exact hbuf rfl) (fun _ heq => by cases heq) rfl
  · next buf timeout =>
    split_ifs with hbuf
    · exact .still rfl rfl
    · exact .stream _ rfl (fun _ heq => by cases heq) (fun _ heq => by cases heq; exact hbuf rfl) rfl
  · next j hbuild hsend =>
    exact .stream j rfl (fun content heq => hbuild _ content heq)
      (fun timeout heq => hsend _ timeout heq) rfl
  · split_ifs with hplace
    · cases hh : handled E c.st i with
      | none => exact .overrun hplace hh rfl rfl
      | some r => exact .ran r hplace hh (handled_spec hh) rfl
    · exact .still rfl rfl

/-- A message that has been built is handed over. -/
lemma handOver_eq {E : Env} {c : Session} {m : Message} {b : Buff}
    (hb : construct E c.st (c.stream.bufs txBuf) m = some (.okay, b)) :
    handOver E c m =
      ((streamStep { c with
          stream := { c.stream with bufs := Function.update c.stream.bufs txBuf b },
          waits := some m, controls := c.stream.calls :: c.controls }
        (sendFrom { c.stream with bufs := Function.update c.stream.bufs txBuf b }
          .handler txBuf 10)).1,
        .init (c.stream.send.any fun op => op.buf = txBuf) ::
          .handed c.stream.calls (StreamSpec.remaining b) ::
          (streamStep { c with
            stream := { c.stream with bufs := Function.update c.stream.bufs txBuf b },
            waits := some m, controls := c.stream.calls :: c.controls }
          (sendFrom { c.stream with bufs := Function.update c.stream.bufs txBuf b }
            .handler txBuf 10)).2) := by
  unfold handOver
  dsimp only
  rw [hb]
  dsimp only
  rw [if_neg (not_not.mpr rfl)]

/-- A message handed over while no write is pending: the program stands before its first write. -/
lemma handOver_idle {E : Env} {c : Session} {m : Message} {b : Buff}
    (hb : construct E c.st (c.stream.bufs txBuf) m = some (.okay, b))
    (hev : c.stream.evSend = none) :
    handOver E c m =
      ({ c with
          stream := { c.stream with
            bufs := Function.update c.stream.bufs txBuf b, calls := c.stream.calls + 1,
            place := .writing txBuf c.stream.calls 10 .handler },
          waits := some m, controls := c.stream.calls :: c.controls },
        [.init (c.stream.send.any fun op => op.buf = txBuf),
          .handed c.stream.calls (StreamSpec.remaining b)]) := by
  rw [handOver_eq hb, Stream.sendFrom_free (s := { c.stream with
    bufs := Function.update c.stream.bufs txBuf b }) hev]
  rfl

/-- A message handed over while a write is pending is queued, and its handler goes on. -/
lemma handOver_pending {E : Env} {c : Session} {m : Message} {b : Buff}
    (hb : construct E c.st (c.stream.bufs txBuf) m = some (.okay, b))
    (hev : c.stream.evSend ≠ none) :
    ∃ cell cache cells ev, handOver E c m =
      ({ c with
          st := (afterSend m .inprog c.st).1,
          stream := { c.stream with
            bufs := Function.update c.stream.bufs txBuf b, calls := c.stream.calls + 1,
            send := c.stream.send ++ [⟨cell, txBuf, c.stream.calls, 10⟩], cache := cache,
            cells := cells, evSend := ev, place := .idle },
          waits := none, controls := c.stream.calls :: c.controls },
        .init (c.stream.send.any fun op => op.buf = txBuf) ::
          .handed c.stream.calls (StreamSpec.remaining b) ::
          .stream (.returned c.stream.calls .inprog) ::
          (afterSend m .inprog c.st).2.map .signal) := by
  obtain ⟨cell, cache, cells, hsent⟩ := Stream.sendFrom_pending (s := { c.stream with
    bufs := Function.update c.stream.bufs txBuf b }) (Option.isSome_iff_ne_none.mpr hev) .handler
      txBuf 10
  refine ⟨cell, cache, cells, c.stream.evSend.or (some .write), ?_⟩
  rw [handOver_eq hb, hsent]
  rfl

/-- What follows `sstp_stream_send` keeps the nonce and the protocol. -/
lemma kept_afterSend (m : Message) (status : Status) (st : SstpState) :
    Kept st (afterSend m status st).1 ∧ (afterSend m status st).1.forward = st.forward := by
  cases m <;> exact ⟨⟨rfl, rfl, rfl⟩, rfl⟩

lemma kept_resume (c : Session) (events : List Stream.Event) :
    Kept c.st (resume c events).1.st ∧ (resume c events).1.st.forward = c.st.forward := by
  unfold resume
  split
  · exact kept_afterSend _ _ _
  · exact ⟨.refl _, rfl⟩

/-- A step of the stream, seen from the state machine. -/
lemma streamStep_fst (c : Session) (r : SstpStream × List Stream.Event) :
    (streamStep c r).1.stream = r.1 ∧ Kept c.st (streamStep c r).1.st ∧
      (streamStep c r).1.st.forward = c.st.forward := by
  exact ⟨resume_stream _ _, kept_resume { c with stream := r.1 } r.2⟩

section Returns

variable {c : Session}

/-- A handler waits on if its call has not returned. -/
lemma waits_streamStep {r : SstpStream × List Stream.Event} {m : Message}
    (h : (streamStep c r).1.waits = some m) :
    c.waits = some m ∧ returned r.2 = none := by
  unfold streamStep resume at h
  dsimp only at h
  split at h
  · cases h
  · next hnot =>
    refine ⟨h, Option.eq_none_iff_forall_ne_some.mpr fun status hs => hnot m status h hs⟩

/-- A handler goes on when its call returns. -/
lemma streamStep_returned {m : Message} (hw : c.waits = some m) {s' : SstpStream}
    {new : List Stream.Event} {status : Status} (hret : returned new = some status)
    (hcomplete : sstpStateSendComplete c.controls new = []) :
    streamStep c (s', new) =
      ({ c with stream := s', st := (afterSend m status c.st).1, waits := none },
        new.map .stream ++ (afterSend m status c.st).2.map .signal) := by
  have hres : resume { c with stream := s' } new =
      ({ c with stream := s', st := (afterSend m status c.st).1, waits := none },
        (afterSend m status c.st).2) := by
    unfold resume
    simp only [hw, hret]
  unfold streamStep
  dsimp only
  rw [hres, hcomplete, List.nil_append]

/-- Without a return of `sstp_stream_send` no handler goes on. -/
lemma resume_quiet (c : Session) {new : List Stream.Event} (h : returned new = none) :
    resume c new = (c, []) := by
  unfold resume
  split
  · next hreturned => cases h.symm.trans hreturned
  · rfl

/-- The stream has done nothing. -/
lemma streamStep_still (c : Session) : streamStep c (c.stream, []) = (c, []) := by
  unfold streamStep
  dsimp only
  rw [resume_quiet _ rfl]
  rfl

/-- A handler waits for its call as long as it does not return. -/
lemma streamStep_waits {s' : SstpStream} {a : Stream.Attempt} :
    streamStep c (s', [.attempt a]) = ({ c with stream := s' }, [.stream (.attempt a)]) := by
  unfold streamStep
  dsimp only
  rw [resume_quiet _ rfl]
  rfl

end Returns

section Ready

variable {E : Env} {c : Session}

lemma Ready.streamStep (h : Ready c) {r : SstpStream × List Stream.Event}
    (hr : (r.1.bufs txBuf).max = 16384) : Ready (State.streamStep c r).1 := by
  obtain ⟨hstream, hkept, -⟩ := streamStep_fst c r
  refine ⟨?_, ?_⟩
  · rw [hstream]
    exact hr
  · rw [hkept.nounce]
    exact h.nounce

/-- The stream does not change the size of the transmit buffer. -/
lemma max_stream {s s' : SstpStream} {j : Stream.Input} {new : List Stream.Event}
    (hspec : StreamSpec.StepSpec s j s' new) (hbuild : ∀ content, j ≠ .build txBuf content) :
    (s'.bufs txBuf).max = (s.bufs txBuf).max := by
  cases hspec with
  | built buf content hi hbufs husers hcalls hevents =>
    have hne : txBuf ≠ buf := fun heq => hbuild content (heq ▸ hi)
    rw [hbufs, Function.update_of_ne hne]
  | called buf timeout hi husers hbufs hcalls hevents => rw [hbufs]
  | wrote buf call timeout w hplace a new hevents hwrote =>
    obtain ⟨n, -, -, hbufs⟩ := hwrote.bytes
    rw [hbufs]
    by_cases hbuf : txBuf = buf
    · subst hbuf
      rw [Function.update_self]
      rfl
    · rw [Function.update_of_ne hbuf]
  | moved husers hbufs hcalls hevents => rw [hbufs]

/-- What a session that is ready hands over. -/
lemma Ready.handed (h : Ready c) {m : Message} (hm : Sized m) :
    ∃ b, construct E c.st (c.stream.bufs txBuf) m = some (.okay, b) ∧ b.max = 16384 := by
  obtain ⟨b, hb, hmax⟩ := construct_okay (E := E) (m := m) (by rw [h.max]; decide) h.nounce hm
  exact ⟨b, hb, hmax.trans h.max⟩

lemma Ready.handOver (h : Ready c) (hplace : c.stream.place = .idle) {m : Message}
    (hm : Sized m) : Ready (State.handOver E c m).1 := by
  obtain ⟨b, hb, hmax⟩ := h.handed (E := E) hm
  rw [handOver_eq hb]
  have hbufs := (sendFrom_spec (s := { c.stream with
      bufs := Function.update c.stream.bufs txBuf b }) (w := .handler)
    (fun cell hw => by cases hw) (fun b k t w hp => by cases hplace.symm.trans hp) txBuf 10).2.1
  have htx : (Function.update c.stream.bufs txBuf b txBuf).max = 16384 := by
    rw [Function.update_self]
    exact hmax
  refine Ready.streamStep (c := { c with
    stream := { c.stream with bufs := Function.update c.stream.bufs txBuf b },
    waits := some m, controls := c.stream.calls :: c.controls }) ⟨htx, h.nounce⟩ ?_
  rw [hbufs]
  exact htx

/-- What a handler has done to the state before it sends. -/
lemma Ready.of_spec (h : Ready c) {i : Input} {r : Handled} (hspec : HandledSpec E c.st i r) :
    Ready { c with st := r.st } := by
  refine ⟨h.max, ?_⟩
  cases hspec with
  | start hi hmode => exact h.nounce
  | accept certHash hi hmode hcert => exact h.nounce
  | noHash hi hmode hcert => exact h.nounce
  | acked proto nounce hack => exact length_acknowledged hack
  | answers st' m hi hack hm hkept hforward => exact hkept.nounce ▸ h.nounce
  | quiet st' signals forwards hi hack hkept hforward hconnect => exact hkept.nounce ▸ h.nounce

/-- **A session stays ready.** -/
theorem ready_step (h : Ready c) (i : Input) : Ready (step E c i).1 := by
  cases step_spec E c i with
  | still heq hevents => rwa [heq]
  | stream j hi hbuild hsend heq =>
    rw [congrArg Prod.fst heq]
    refine h.streamStep ?_
    rw [max_stream (StreamSpec.step_spec c.stream j) hbuild]
    exact h.max
  | overrun hplace hh heq hevents => rwa [heq]
  | ran r hplace hh hspec heq =>
    rw [congrArg Prod.fst heq]
    unfold handle
    cases hs : r.sends with
    | none => exact h.of_spec hspec
    | some m => exact (h.of_spec hspec).handOver hplace (sized_of_sends hspec hs)

lemma ready_create (mode : Mode) (bufs : ℕ → Buff) : Ready (sstpCreate mode bufs) := by
  refine ⟨?_, List.length_replicate⟩
  unfold sstpCreate Stream.init
  dsimp only
  rw [Function.update_self, max_create]
  rfl

end Ready

/-- A certificate and a keyed hash to run with. -/
def plainEnv : Env := ⟨fun _ => none, fun _ _ _ _ => ⟨[], Nat.zero_le _⟩⟩

end SstpClient.StateSpec
