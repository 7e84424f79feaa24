import SstpClient.Establish

/-!
What must have come before each event of a session, and what the callbacks keep of it.
-/

namespace SstpClient.Establish

open SstpClient.Lib.Bytes SstpClient.Lib.Handler SstpClient.Buffer SstpClient.PacketImage
open SstpClient.ControlMsg SstpClient.StateSpec SstpClient.LinkUp
open SstpClient.Ppp (Pppd)
open SstpClient.State (Env Signal Message SstpState)
open SstpClient.Provider (ErrorCode Stage)

/-! ### What is promised -/

def lastAcked (h : List Event) : Option (UInt8 × List UInt8) :=
  (h.filterMap fun
    | .acked proto nounce => some (proto, nounce)
    | _ => none).getLast?

/-- What the state machine keeps of the last keys, with no keys at first. -/
def lastKeys (h : List Event) : List UInt8 × List UInt8 :=
  ((h.filterMap fun
    | .keyed keys => some (keys.1.take 32, keys.2.take 32)
    | _ => none).getLast?).getD ([], [])

/-- The tunnel has been reported ready for the last PPP context. -/
def readySince (h : List Event) : Bool :=
  h.foldl (fun b e => match e with
    | .created => false
    | .ready _ => true
    | _ => b) false

/-- The Call-Connected message that binds a nonce, a certificate and keys. -/
def connectedMessage (E : Env) (proto : UInt8) (nounce certHash : List UInt8)
    (keys : List UInt8 × List UInt8) : List UInt8 :=
  let packet := image .connected [(3, State.connectedData (State.hashType proto) nounce certHash)]
  splice packet 80 (E.cmac (State.hashType proto) keys.1 keys.2 packet).val

/-- What must have come before an event. -/
def Cause (E : Env) (past : List Event) : Event → Prop
  | .created => ∃ h proto nounce, past = h ++ [.acked proto nounce]
  | .frame _ => .created ∈ past
  | .packet _ => .created ∈ past
  | .keyed _ => .created ∈ past
  | .handed (.connected certHash) message => ∃ proto nounce,
      lastAcked past = some (proto, nounce) ∧ (E.certHash proto).map Subtype.val = some certHash ∧
        message = connectedMessage E proto nounce certHash (lastKeys past)
  | .ready ctx => readySince past = false ∧ ctx.ccpDone = true ∧ ctx.localIp ≠ 0 ∧
      ∃ h certHash message, past = h ++ [.handed (.connected certHash) message]
  | _ => True

/-- An event comes before any failure, and has its cause. -/
structure Justified (E : Env) (past : List Event) (e : Event) : Prop where
  alive : ∀ f, .failed f ∉ past
  cause : Cause E past e

/-! ### The invariant -/

section Proofs

variable {C : Config} {o : Outside} {s : Session} {h : List Event}

lemma seq_emit {g : Part} (hs : s.stopped = false) (e : Event) :
    seq (emit e) g s = ((g s).1, e :: (g s).2) := andThen_emit hs e

lemma seq_update {g : Part} {u : Session → Session} (hs : (u s).stopped = false) :
    seq (update u) g s = g (u s) := andThen_update hs

@[simp] lemma lastAcked_acked (proto : UInt8) (nounce : List UInt8) :
    lastAcked (h ++ [.acked proto nounce]) = some (proto, nounce) := by
  simp [lastAcked]

@[simp] lemma lastKeys_keyed (keys : List UInt8 × List UInt8) :
    lastKeys (h ++ [.keyed keys]) = (keys.1.take 32, keys.2.take 32) := by
  simp [lastKeys]

/-- An event that the last acknowledgement, keys and report do not depend on. -/
def Plain : Event → Prop
  | .acked .. => False
  | .keyed _ => False
  | .created => False
  | .ready _ => False
  | _ => True

lemma plain_same {e : Event} (he : Plain e) :
    lastAcked (h ++ [e]) = lastAcked h ∧ lastKeys (h ++ [e]) = lastKeys h ∧
      readySince (h ++ [e]) = readySince h ∧ (.created ∈ h ++ [e] ↔ .created ∈ h) := by
  cases e <;> first | exact he.elim | simp [lastAcked, lastKeys, readySince]

/-- What holds between two parts of a handler. -/
structure Base (E : Env) (s : Session) (h : List Event) : Prop where
  justified : Each (Justified E) h
  alive : s.stopped = false → ∀ f, .failed f ∉ h
  mode : s.st.mode = .client
  nounce : s.st.nounce.length = 32
  room : 112 ≤ s.tx.max
  acked : ∀ a, lastAcked h = some a → a = (s.st.proto, s.st.nounce)
  keys : (s.st.mppeSendKey, s.st.mppeRecvKey) = lastKeys h
  created : .created ∈ h → (lastAcked h).isSome

/-- The state machine keeps what the history speaks of. -/
structure Steady (st st' : SstpState) : Prop where
  kept : Kept st st'
  send : st'.mppeSendKey = st.mppeSendKey
  recv : st'.mppeRecvKey = st.mppeRecvKey

lemma Base.steady {t : Session} (hb : Base C.env s h) (hst : Steady s.st t.st)
    (htx : t.tx.max = s.tx.max) (hstop : t.stopped = s.stopped) : Base C.env t h where
  justified := hb.justified
  alive := by
    rw [hstop]
    exact hb.alive
  mode := by rw [hst.kept.mode, hb.mode]
  nounce := by rw [hst.kept.nounce, hb.nounce]
  room := by
    rw [htx]
    exact hb.room
  acked := by
    rw [hst.kept.proto, hst.kept.nounce]
    exact hb.acked
  keys := by rw [hst.send, hst.recv, hb.keys]
  created := hb.created

lemma Base.justify {e : Event} (hb : Base C.env s h) (hs : s.stopped = false)
    (hc : Cause C.env h e) : Each (Justified C.env) (h ++ [e]) :=
  each_concat hb.justified ⟨hb.alive hs, hc⟩

/-- A plain event with its cause. -/
lemma Base.plain {t : Session} {e : Event} (hb : Base C.env s h) (hs : s.stopped = false)
    (he : Plain e) (hc : Cause C.env h e) (hst : t.st = s.st) (htx : t.tx.max = s.tx.max)
    (hfail : t.stopped = false → ∀ f, e ≠ .failed f) : Base C.env t (h ++ [e]) := by
  obtain ⟨hacked, hkeys, -, hcreated⟩ := plain_same (h := h) he
  refine ⟨hb.justify hs hc, ?_, ?_, ?_, ?_, ?_, ?_, ?_⟩
  · intro halive f hmem
    rcases List.mem_append.mp hmem with hold | hnew
    · exact hb.alive hs f hold
    · exact hfail halive f (List.mem_singleton.mp hnew).symm
  · rw [hst, hb.mode]
  · rw [hst, hb.nounce]
  · rw [htx]
    exact hb.room
  · rw [hst, hacked]
    exact hb.acked
  · rw [hst, hkeys, hb.keys]
  · rw [hacked, hcreated]
    exact hb.created

/-- The relation while the outputs of the PPP layer are acted on. -/
structure During (E : Env) (p : Option Pppd) (b : Bool) (s : Session) (h : List Event) : Prop where
  base : Base E s h
  created : p.isSome → .created ∈ h
  pppd : s.pppd = p
  ready : readySince h = b

section Parts

variable {p : Option Pppd} {b : Bool}

lemma During.plain {t : Session} {e : Event} (hd : During C.env p b s h)
    (hs : s.stopped = false) (he : Plain e) (hc : Cause C.env h e) (hst : t.st = s.st)
    (htx : t.tx.max = s.tx.max) (hp : t.pppd = s.pppd)
    (hfail : t.stopped = false → ∀ f, e ≠ .failed f) : During C.env p b t (h ++ [e]) := by
  obtain ⟨-, -, hready, hcreated⟩ := plain_same (h := h) he
  exact ⟨hd.base.plain hs he hc hst htx hfail, fun hp => hcreated.mpr (hd.created hp),
    hp.trans hd.pppd, hready.trans hd.ready⟩

lemma During.steady {t : Session} (hd : During C.env p b s h) (hst : Steady s.st t.st)
    (htx : t.tx.max = s.tx.max) (hp : t.pppd = s.pppd) (hstop : t.stopped = s.stopped) :
    During C.env p b t h :=
  ⟨hd.base.steady hst htx hstop, hd.created, hp.trans hd.pppd, hd.ready⟩

lemma keeps_fail (code : ErrorCode) (stage : Stage) (message : String) :
    Keeps Session.stopped (During C.env p b) (sstpIosFailEx code stage message) := by
  intro s h hs hd
  exact hd.plain hs trivial trivial rfl rfl rfl (fun hfalse => by cases hfalse)

lemma keeps_callEnded : Keeps Session.stopped (During C.env p b) callEnded :=
  fun s => keeps_fail _ _ _ s

lemma keeps_emit {e : Event} (he : Plain e) (hfail : ∀ f, e ≠ .failed f)
    (hc : ∀ s h, During C.env p b s h → Cause C.env h e) :
    Keeps Session.stopped (During C.env p b) (emit e) := by
  intro s h hs hd
  exact hd.plain hs he (hc s h hd) rfl rfl rfl fun _ => hfail

lemma keeps_messageSignal (signal : Signal) :
    Keeps Session.stopped (During C.env p b) (messageSignal signal) := by
  cases signal with
  | established => exact Keeps.skip
  | _ => exact keeps_callEnded

lemma steady_afterSend (m : Message) (status : Status) (st : SstpState) :
    Steady st (State.afterSend m status st).1 := by
  cases m <;> exact ⟨⟨rfl, rfl, rfl⟩, rfl, rfl⟩

/-- A Call-Connected message is built for the certificate of the hash protocol, and in a PPP
context. -/
def Bindable (E : Env) (s : Session) (m : Message) : Prop :=
  ∀ certHash, m = .connected certHash →
    s.pppd.isSome ∧ (E.certHash s.st.proto).map Subtype.val = some certHash

/-- **A message that is handed on** has its cause. -/
lemma cause_handed {m : Message} {built : Buff} (hd : During C.env p b s h)
    (hm : Bindable C.env s m)
    (hc : State.construct C.env s.st s.tx m = some (.okay, built)) :
    Cause C.env h (.handed m (StreamSpec.remaining built)) := by
  cases m with
  | connected certHash =>
    obtain ⟨hsome, hcert⟩ := hm certHash rfl
    rw [hd.pppd] at hsome
    obtain ⟨⟨proto, nounce⟩, hacked⟩ :=
      Option.isSome_iff_exists.mp (hd.base.created (hd.created hsome))
    have hlen : certHash.length = 32 := by
      obtain ⟨hash, -, rfl⟩ := Option.map_eq_some_iff.mp hcert
      exact hash.property
    obtain ⟨built', hbuilt, -, hbytes⟩ :=
      construct_connected (E := C.env) hd.base.room hd.base.nounce hlen
    rw [hc] at hbuilt
    cases hbuilt
    cases hd.base.acked _ hacked
    refine ⟨_, _, hacked, hcert, ?_⟩
    rw [hbytes, ← hd.base.keys]
    rfl
  | _ => trivial

lemma keeps_sendMessage {m : Message} (hs : s.stopped = false) (hd : During C.env p b s h)
    (hm : Bindable C.env s m) :
    During C.env p b (sendMessage C o m s).1 (h ++ (sendMessage C o m s).2) := by
  unfold sendMessage
  cases hc : State.construct C.env s.st s.tx m with
  | none => exact hd.plain hs trivial trivial rfl rfl rfl (fun hfalse => by cases hfalse)
  | some built =>
    obtain ⟨status, built⟩ := built
    have hsized : Sized m := by
      intro certHash heq
      obtain ⟨hash, -, rfl⟩ := Option.map_eq_some_iff.mp (hm certHash heq).2
      exact hash.property
    obtain ⟨built', hbuilt, hmax⟩ := construct_okay (E := C.env) hd.base.room hd.base.nounce hsized
    rw [hc] at hbuilt
    cases hbuilt
    dsimp only
    rw [if_neg (not_not.mpr rfl)]
    have htx : During C.env p b { s with tx := built } h :=
      hd.steady ⟨Kept.refl _, rfl, rfl⟩ hmax rfl rfl
    have h1 : During C.env p b { s with tx := built }
        (h ++ [.handed m (StreamSpec.remaining built)]) :=
      htx.plain hs trivial (cause_handed hd hm hc) rfl rfl rfl fun _ _ heq => by cases heq
    have h2 : During C.env p b { s with tx := built, st := (State.afterSend m o.status s.st).1 }
        (h ++ [.handed m (StreamSpec.remaining built)]) :=
      h1.steady (steady_afterSend m o.status s.st) rfl rfl rfl
    have hsignals : Keeps Session.stopped (During C.env p b)
        (forEach Session.stopped messageSignal (State.afterSend m o.status s.st).2) :=
      Keeps.forEach fun signal _ => keeps_messageSignal signal
    have h3 := hsignals _ _ (by exact hs) h2
    rw [seq_emit (s := { s with tx := built }) hs, seq_update (s := { s with tx := built }) hs]
    rwa [List.append_assoc] at h3

/-! ### The callbacks -/

lemma keeps_accept (hs : s.stopped = false) (hd : During C.env p b s h) (hp : p.isSome) :
    During C.env p b (accept C o s).1 (h ++ (accept C o s).2) := by
  unfold accept
  cases hcert : C.env.certHash s.st.proto with
  | none => exact keeps_callEnded s h hs hd
  | some certHash =>
    refine keeps_sendMessage hs hd ?_
    intro hash heq
    cases heq
    exact ⟨by rwa [hd.pppd], by rw [hcert, Option.map_some]⟩

lemma forEach_abort : (forEach Session.stopped messageSignal [.abort] s).1.stopped = true := by
  unfold forEach
  rw [andThen_stopped rfl]
  rfl

/-- The callback goes on only if the Call-Connected message has been handed on. -/
lemma accept_handed (hs : s.stopped = false) : (accept C o s).1.stopped = true ∨
    ∃ certHash message, (accept C o s).2 = [.handed (.connected certHash) message] := by
  unfold accept
  cases C.env.certHash s.st.proto with
  | none => exact .inl rfl
  | some certHash =>
    dsimp only
    unfold sendMessage
    cases State.construct C.env s.st s.tx (.connected certHash) with
    | none => exact .inl rfl
    | some built =>
      obtain ⟨status, built⟩ := built
      dsimp only
      split_ifs with hbuilt
      · exact .inl forEach_abort
      · rw [seq_emit (s := { s with tx := built }) hs, seq_update (s := { s with tx := built }) hs]
        by_cases hstatus : o.status = .okay
        · refine .inr ⟨certHash, StreamSpec.remaining built, ?_⟩
          simp only [State.afterSend, if_pos hstatus, forEach, messageSignal]
          rw [andThen_running (by exact hs)]
          rfl
        · refine .inl ?_
          simp only [State.afterSend, if_neg hstatus]
          exact forEach_abort

/-- **The report that the tunnel is ready**, unless the session fails before. -/
lemma up_during {ctx : Pppd} (hs : s.stopped = false) (hd : During C.env p false s h)
    (hp : p.isSome) (hccp : ctx.ccpDone = true) (hlocal : ctx.localIp ≠ 0) :
    ∃ b', During C.env p b' (iosPppdCb C o ctx .up s).1 (h ++ (iosPppdCb C o ctx .up s).2) := by
  have hd1 := keeps_accept (o := o) hs hd hp
  simp only [iosPppdCb]
  cases hstop : (accept C o s).1.stopped with
  | true =>
    refine ⟨false, ?_⟩
    rwa [seq, andThen_stopped hstop]
  | false =>
    obtain hstopped | ⟨certHash, message, hevents⟩ := accept_handed (C := C) (o := o) hs
    · rw [hstop] at hstopped
      cases hstopped
    refine ⟨true, ?_⟩
    have hbase := hd1.base
    have hcause : Cause C.env (h ++ (accept C o s).2) (.ready ctx) :=
      ⟨hd1.ready, hccp, hlocal, h, certHash, message, by rw [hevents]⟩
    rw [seq, andThen_running hstop, ← List.append_assoc, seq_update (by exact hstop)]
    generalize (accept C o s).1 = s1 at *
    generalize h ++ (accept C o s).2 = h1 at *
    refine ⟨⟨hbase.justify hstop hcause, ?_, hbase.mode, hbase.nounce, hbase.room, ?_, ?_, ?_⟩, ?_,
      hd1.pppd, ?_⟩
    · intro halive f hmem
      simp only [emit, List.mem_append, List.mem_singleton, reduceCtorEq, or_false] at hmem
      exact hbase.alive hstop f hmem
    · simpa [lastAcked, emit] using hbase.acked
    · simpa [lastKeys, emit] using hbase.keys
    · simpa [lastAcked, emit] using hbase.created
    · simpa [emit] using hd1.created
    · simp [readySince, emit]

/-- The keys of a CHAP response go to the state machine. -/
lemma keeps_auth (o : Outside) (ctx : Pppd) (hp : p.isSome) :
    Keeps Session.stopped (During C.env p b) (iosPppdCb C o ctx .auth) := by
  intro s h hs hd
  simp only [iosPppdCb]
  cases C.prims.mppeGet ctx.chap with
  | none => exact keeps_fail _ _ _ s h hs hd
  | some keys =>
    dsimp only
    rw [seq_update (by exact hs)]
    have hbase := hd.base
    refine ⟨⟨hbase.justify hs (hd.created hp), ?_, hbase.mode, hbase.nounce, hbase.room, ?_, ?_, ?_⟩,
      ?_, hd.pppd, ?_⟩
    · intro halive f hmem
      simp only [emit, List.mem_append, List.mem_singleton, reduceCtorEq, or_false] at hmem
      exact hbase.alive hs f hmem
    · simpa [lastAcked, emit, State.sstpStateMppeKeys] using hbase.acked
    · exact (lastKeys_keyed keys).symm
    · simpa [lastAcked, emit] using hbase.created
    · simpa [emit] using hd.created
    · simpa [readySince, emit] using hd.ready

/-- Everything the PPP layer does but the report. -/
lemma keeps_perform {a : Ppp.Out} (ha : ups [a] = []) (hp : p.isSome) :
    Keeps Session.stopped (During C.env p b) (perform C o a) := by
  have hcreated : ∀ s h, During C.env p b s h → .created ∈ h := fun _ _ hd => hd.created hp
  cases a with
  | frame bytes => exact keeps_emit trivial (fun f heq => by cases heq) hcreated
  | ip packet =>
    change Keeps Session.stopped (During C.env p b) (iosIpHandler packet)
    unfold iosIpHandler
    split_ifs
    · exact keeps_emit trivial (fun f heq => by cases heq) hcreated
    · exact Keeps.skip
  | overrun => exact keeps_emit trivial (fun f heq => by cases heq) fun _ _ _ => trivial
  | hang => exact keeps_emit trivial (fun f heq => by cases heq) fun _ _ _ => trivial
  | notify event ctx =>
    cases event with
    | start => exact Keeps.skip
    | down => exact keeps_fail _ _ _
    | authFail => exact keeps_fail _ _ _
    | auth => exact keeps_auth o ctx hp
    | up => cases ha

/-- All that the PPP layer does with an input, the report at most once. -/
lemma during_performAll {outs : List Ppp.Out} (hd : During C.env p b s h)
    (hs : s.stopped = false) (hp : p.isSome)
    (hups : ups outs = [] ∨
      b = false ∧ ∃ c, ups outs = [c] ∧ c.ccpDone = true ∧ c.localIp ≠ 0) :
    ∃ b', During C.env p b' (forEach Session.stopped (perform C o) outs s).1
        (h ++ (forEach Session.stopped (perform C o) outs s).2) ∧
      (ups outs = [] → b' = b) := by
  induction outs generalizing s h b with
  | nil => exact ⟨b, by rwa [forEach, skip, List.append_nil], fun _ => rfl⟩
  | cons a outs ih =>
    have happend : ups (a :: outs) = ups [a] ++ ups outs := ups_append [a] outs
    have hgo : ∀ b', During C.env p b' (perform C o a s).1 (h ++ (perform C o a s).2) →
        (ups outs = [] ∨ b' = false ∧ ∃ c, ups outs = [c] ∧ c.ccpDone = true ∧ c.localIp ≠ 0) →
        ∃ b'', During C.env p b'' (forEach Session.stopped (perform C o) (a :: outs) s).1
            (h ++ (forEach Session.stopped (perform C o) (a :: outs) s).2) ∧
          (ups outs = [] → b'' = b') := by
      intro b' hd' hups'
      unfold forEach
      cases hstop : (perform C o a s).1.stopped with
      | true => exact ⟨b', by rwa [andThen_stopped hstop], fun _ => rfl⟩
      | false =>
        obtain ⟨b'', hd'', hsame⟩ := ih hd' hstop hups'
        refine ⟨b'', ?_, hsame⟩
        rwa [andThen_running hstop, ← List.append_assoc]
    cases ha : ups [a] with
    | nil =>
      rw [happend, ha, List.nil_append] at hups ⊢
      exact hgo b (keeps_perform ha hp s h hs hd) hups
    | cons c rest =>
      rw [happend, ha] at hups ⊢
      obtain hfalse | ⟨rfl, c', hc', hccp, hlocal⟩ := hups
      · cases hfalse
      obtain ⟨rfl, hrest⟩ := List.cons.inj hc'
      obtain ⟨rfl, hnil⟩ := List.append_eq_nil_iff.mp hrest
      have hup : a = .notify .up c := by
        unfold ups at ha
        cases a with
        | notify event ctx =>
          cases event <;> cases ha
          rfl
        | _ => cases ha
      subst hup
      obtain ⟨b', hd'⟩ := up_during (o := o) hs hd hp hccp hlocal
      obtain ⟨b'', hd'', -⟩ := hgo b' hd' (.inl hnil)
      exact ⟨b'', hd'', fun hfalse => by cases hfalse⟩

end Parts

end Proofs

end SstpClient.Establish
