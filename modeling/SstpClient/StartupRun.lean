import SstpClient.StartupHttp

/-!
The startup as a whole: each event keeps what is promised, and so does every run.
-/

namespace SstpClient.Startup

open SstpClient.Lib.Bytes SstpClient.Lib.CString SstpClient.Lib.Machine SstpClient.Lib.Handler
open SstpClient.Buffer SstpClient.BuffPrint SstpClient.Http SstpClient.HttpResponse
open SstpClient.Stream (Interest SslWrite)
open SstpClient.Recv (SslRead)
open SstpClient.Tls (Library Params Peer Verify)

variable {Cert : Type}

section Parts

variable {C : Config Cert} {o : Outside Cert} {h : List (Event Cert)} {s : Session}
  {t u : List (Tls.Event Cert)}

/-! ### The connect and the handshake -/

/-- The connect and the handshake are over. -/
structure Closing (C : Config Cert) (s : Session) (h : List (Event Cert)) : Prop where
  past : Past C .connecting [] h
  written : writtenOf h = []
  received : receivedOf h = []
  connected : ∀ status, .connected status ∉ h
  done : ∀ status, .httpDone status ∉ h
  send : s.send = []
  evSend : s.evSend = none
  evRecv : s.evRecv = none

/-- **`ios_connected`**. -/
lemma leads_connected {status : Status} : Leads Session.stopped (Good C)
    (fun s h => Closing C s h ∧ (status = .connected → ∃ h', h = h' ++ [.handshook (.done 1)]))
    (Waits C) (iosConnected C o status) := by
  intro s h hs hg ⟨hc, hlast⟩
  obtain ⟨hg1, hp1⟩ := hg.concat (e := .connected status) hc.past rfl ⟨hc.connected, hlast⟩
  have hfail : ∀ f, (Tls.step C.lib C.params C.peer .connecting
        (.connected status .okay .okay)).2 = [.fail f] →
      ∀ r : Session × List (Event Cert), r = seq (emit (.connected status)) (sstpIosFailEx f) s →
        Good C (h ++ r.2) ∧ (r.1.stopped = false → Waits C r.1 (h ++ r.2)) := by
    intro f hf r hr
    rw [seq, andThen_emit hs] at hr
    rw [hr, List.append_cons]
    exact ⟨good_fail hg1 hp1 ⟨_, by rw [hf]; simp⟩, fun hfalse => by cases hfalse⟩
  unfold iosConnected
  cases status with
  | connected =>
    have ho : Opened C [] s (h ++ [.connected .connected]) := by
      refine ⟨hp1, ?_, ?_, by simp, ?_, hc.send, hc.evSend, hc.evRecv⟩
      · rw [writtenOf_append, hc.written]
        rfl
      · rw [receivedOf_append, hc.received]
        rfl
      · simpa using hc.done
    unfold seq
    rw [andThen_emit hs, List.append_cons]
    exact leads_opened s _ hs hg1 ho
  | timeout => exact hfail _ rfl _ rfl
  | _ => exact hfail _ rfl _ rfl

/-- What is promised of a state and a history. -/
structure Inv (C : Config Cert) (s : Session) (h : List (Event Cert)) : Prop where
  good : Good C h
  waits : s.stopped = false → Waits C s h

/-- While the connection is being opened and its event has fired. -/
structure Opening (C : Config Cert) (s : Session) (h : List (Event Cert)) : Prop where
  past : Past C .connecting [] h
  written : writtenOf h = []
  received : receivedOf h = []
  connected : ∀ status, .connected status ∉ h
  done : ∀ status, .httpDone status ∉ h
  send : s.send = [⟨.connected, 60⟩]
  evSend : s.evSend = none
  evRecv : s.evRecv = none

lemma Opening.closing {s' : Session} (ho : Opening C s h) (hsend : s'.send = [])
    (hev : s'.evSend = none) (hrecv : s'.evRecv = s.evRecv) : Closing C s' h :=
  ⟨ho.past, ho.written, ho.received, ho.connected, ho.done, hsend, hev, hrecv.trans ho.evRecv⟩

/-- The calls of the verify callback. -/
lemma leads_verifies (verifies : List (Verify Cert)) :
    Leads Session.stopped (Good C) (Opening C) (Opening C)
      (tlsEvents (verifies.map fun v =>
        .verified v (Tls.iosVerifyCallback C.lib (some C.params.session) v))) := by
  intro s h hs hg ho
  induction verifies generalizing h with
  | nil =>
    simp only [tlsEvents, List.map_nil, List.append_nil]
    exact ⟨hg, fun _ => ho⟩
  | cons v verifies ih =>
    have hstep : Tls.step C.lib C.params C.peer .connecting (.verify v) = (.connecting,
        [.verified v (Tls.iosVerifyCallback C.lib (some C.params.session) v)]) := rfl
    obtain ⟨hg1, hp1⟩ := hg.steps
      (u := [.verified v (Tls.iosVerifyCallback C.lib (some C.params.session) v)]) ho.past
      ⟨.verify v, by rw [hstep]; simp⟩ (fun a f b heq => absurd (congrArg (.fail f ∈ ·) heq) (by simp))
      (by simp)
    have ho1 : Opening C s (h ++ [.tls (.verified v
        (Tls.iosVerifyCallback C.lib (some C.params.session) v))]) := by
      refine ⟨(hp1 (by simp)).next hstep, ?_, ?_, ?_, ?_, ho.send, ho.evSend, ho.evRecv⟩
      · rw [writtenOf_append, ho.written]
        rfl
      · rw [receivedOf_append, ho.received]
        rfl
      · simpa using ho.connected
      · simpa using ho.done
    have hrest := ih _ hg1 ho1
    simpa [tlsEvents] using hrest

/-- `SSL_do_handshake` returns. -/
lemma leads_handshook (r : Handshake) : Leads Session.stopped (Good C) (Opening C)
    (fun s h => Opening C s h ∧ ∃ h', h = h' ++ [.handshook r]) (emit (.handshook r)) := by
  intro s h hs hg ho
  obtain ⟨hg1, hp1⟩ := hg.concat (e := .handshook r) ho.past rfl trivial
  refine ⟨hg1, fun _ => ⟨⟨hp1, ?_, ?_, ?_, ?_, ho.send, ho.evSend, ho.evRecv⟩, h, rfl⟩⟩
  · rw [emit, writtenOf_append, ho.written]
    rfl
  · rw [emit, receivedOf_append, ho.received]
    rfl
  · simpa [emit] using ho.connected
  · simpa [emit] using ho.done

/-- The event is set again. -/
lemma leads_arm (i : Interest) : Leads Session.stopped (Good C) (Opening C) (Waits C)
    (sstpSslHandshakeArm i 60) := by
  intro s h hs hg ho
  rw [sstpSslHandshakeArm, update, List.append_nil]
  exact ⟨hg, fun _ => .opening .handshakeCont i ho.past ho.written ho.received ho.connected ho.done
    ho.send rfl (by simp) ho.evRecv⟩

/-- The operation of the connect is taken off the queue, and its callback called. -/
lemma leads_finish (status : Status) : Leads Session.stopped (Good C)
    (fun s h => Opening C s h ∧ (status = .connected → ∃ h', h = h' ++ [.handshook (.done 1)]))
    (Waits C) (finish C o ⟨.connected, 60⟩ [] status) := by
  intro s h hs hg ⟨ho, hlast⟩
  unfold finish
  rw [seq, andThen_update (by exact hs)]
  exact leads_connected { s with evSend := none, send := [] } h hs hg
    ⟨ho.closing rfl rfl rfl, hlast⟩

/-- **`sstp_ssl_handshake_cont`**. -/
lemma leads_handshakeCont (timedOut : Bool) :
    Leads Session.stopped (Good C) (Opening C) (Waits C) (sstpSslHandshakeCont C o timedOut) := by
  intro s h hs hg ho
  unfold sstpSslHandshakeCont
  rw [ho.send]
  dsimp only
  cases timedOut with
  | true => exact leads_finish .fail s h hs hg ⟨ho, nofun⟩
  | false =>
    rw [if_neg Bool.false_ne_true]
    refine ((leads_verifies o.verifies).andThen ((leads_handshook o.handshake).andThen ?_))
      s h hs hg ho
    cases hr : o.handshake with
    | done ret =>
      refine (leads_finish _).mono (fun s h ⟨ho, hlast⟩ => ⟨ho, fun heq => ?_⟩) fun _ _ h => h
      split_ifs at heq with hret
      rwa [hret] at hlast
    | wantRead => exact (leads_arm .read).mono (fun _ _ h => h.1) fun _ _ h => h
    | wantWrite => exact (leads_arm .write).mono (fun _ _ h => h.1) fun _ _ h => h
    | failed => exact (leads_finish .fail).mono (fun _ _ h => ⟨h.1, nofun⟩) fun _ _ h => h

/-- **`sstp_connect_complete`**. -/
lemma leads_connectComplete (timedOut : Bool) :
    Leads Session.stopped (Good C) (Opening C) (Waits C) (sstpConnectComplete C o timedOut) := by
  intro s h hs hg ho
  have hclose : ∀ status : Status, status ≠ .connected →
      Good C (h ++ (complete C o ⟨.connected, 60⟩ status { s with send := [] }).2) ∧
        ((complete C o ⟨.connected, 60⟩ status { s with send := [] }).1.stopped = false →
          Waits C (complete C o ⟨.connected, 60⟩ status { s with send := [] }).1
            (h ++ (complete C o ⟨.connected, 60⟩ status { s with send := [] }).2)) :=
    fun status hne => leads_connected { s with send := [] } h hs hg
      ⟨ho.closing rfl ho.evSend rfl, fun heq => absurd heq hne⟩
  unfold sstpConnectComplete
  rw [ho.send]
  dsimp only
  split_ifs
  · exact hclose .timeout (by simp)
  · exact hclose .fail (by simp)
  · exact leads_handshakeCont false s h hs hg ho

/-! ### The events -/

lemma stopped_httpDone {status : Status} (hne : status ≠ .okay) :
    (iosHttpDone C o status s).1.stopped = true := by
  cases status <;> first | exact absurd rfl hne | simp [iosHttpDone, Tls.iosHttpDone, Tls.failWith]

lemma sendCont_nil (hsend : s.send = []) (turns : List (List SslWrite)) :
    sendCont C o turns s = (s, []) := by
  cases turns with
  | nil => rfl
  | cons writes more =>
    unfold sendCont
    rw [hsend]

/-- **`sstp_send_cont`**, for the one operation there is. -/
lemma leads_sendCont {b : Buff} (turns : List (List SslWrite)) (hne : turns ≠ []) :
    Leads Session.stopped (Good C) (fun s h => s.send = [⟨.httpSent, 10⟩] ∧ Past C .http [] h ∧
      Writing C b { s with send := [] } h) (Waits C) (sendCont C o turns) := by
  intro s h hs hg hbefore
  obtain ⟨hsend, hp, hw⟩ := hbefore
  obtain ⟨writes, more, rfl⟩ := List.exists_cons_of_ne_nil hne
  unfold sendCont
  rw [hsend]
  dsimp only
  obtain ⟨b', bytes, hbytes, h0, hkeep, hsent⟩ :=
    @send_spec Cert _ _ hw.http hw.off hw.send hw.evSend writes
  obtain ⟨hg', hp', hw'⟩ := hw.wrote hg hp hbytes h0 hkeep
  rcases hsent with ⟨hend, hsent⟩ | hsent | ⟨i, hsent⟩
  · rw [hsent]
    dsimp only
    rw [if_neg (by simp), seq, andThen_running (by exact hs), ← List.append_assoc]
    have hcomplete : complete C o ⟨.httpSent, 10⟩ .okay
        { s with send := [], sendCb := .sendCont, http := some b' } =
          ({ s with
            send := [], sendCb := .sendCont, http := some (sstpBuffReset b'), evRecv := some 60 },
            []) := rfl
    rw [seq, andThen_running (by rw [hcomplete]; exact hs), hcomplete, sendCont_nil rfl,
      List.append_nil, List.append_nil]
    exact ⟨hg', fun _ => hw'.waits hp' hend⟩
  · rw [hsent]
    dsimp only
    rw [if_neg (by simp), seq, andThen_running (by exact hs), ← List.append_assoc]
    have hcomplete : complete C o ⟨.httpSent, 10⟩ .fail = iosHttpDone C o .fail := rfl
    rw [seq, hcomplete, andThen_stopped (stopped_httpDone (by simp))]
    exact good_httpDone hg' (hw'.upgrading hp') fun heq => by cases heq
  · rw [hsent]
    dsimp only
    rw [if_pos rfl, seq, andThen_skip]
    exact ⟨hg', fun _ => .hello b' i (hw'.upgrading hp') hw'.received rfl h0 hw'.data hw'.written
      rfl rfl hw'.evRecv⟩

lemma code_httpGet (data : List UInt8) (erange : Bool) (array : List HttpHeader) :
    (sstpHttpGet data erange array).code = statusCode data := by
  unfold sstpHttpGet
  by_cases hrange : OutOfRange data erange
  · rw [if_pos hrange]
  · rw [if_neg hrange]
    cases strchr (cstr data) 10 <;> dsimp only

/-- **`sstp_recv_hello_complete`**, with a header that is complete unless the receive has failed. -/
lemma good_helloComplete {b : Buff} {status : Status} (hg : Good C h) (hup : Upgrading C h)
    (hhttp : s.http = some b) (hdata : b.data = overRequest C (receivedOf h))
    (hend : status = .okay → EmptyLine (receivedOf h)) :
    Good C (h ++ (sstpRecvHelloComplete C o status s).2) ∧
      ((sstpRecvHelloComplete C o status s).1.stopped = false →
        Waits C (sstpRecvHelloComplete C o status s).1
          (h ++ (sstpRecvHelloComplete C o status s).2)) := by
  by_cases hstatus : status = .okay
  · have hcall : sstpRecvHelloComplete C o status s =
        if InArrays 32 (sstpHttpGet b.data o.erange o.array.1).writes then
          iosHttpDone C o (if (sstpHttpGet b.data o.erange o.array.1).status ≠ .okay ∨
            (sstpHttpGet b.data o.erange o.array.1).code ≠ 200 then .fail else .okay) s
        else ({ s with stopped := true }, [.broken]) := by
      simp only [sstpRecvHelloComplete, hstatus, ne_eq, not_true_eq_false, if_false, hhttp]
    rw [hcall]
    by_cases hinside : InArrays 32 (sstpHttpGet b.data o.erange o.array.1).writes
    · rw [if_pos hinside]
      refine good_httpDone hg hup fun heq => upgraded_of_code (hend hstatus) ?_
      by_contra hcode
      rw [if_pos (.inr (by rwa [code_httpGet, hdata]))] at heq
      cases heq
    · rw [if_neg hinside]
      exact ⟨(hg.concat (e := .broken) hup.past rfl trivial).1, fun hfalse => by cases hfalse⟩
  · have hcall : sstpRecvHelloComplete C o status s = iosHttpDone C o status s := if_pos hstatus
    rw [hcall]
    exact good_httpDone hg hup fun heq => absurd heq hstatus

/-- Bytes of the response have come in. -/
lemma Upgrading.received (bytes : List UInt8) (hup : Upgrading C h) (hg : Good C h)
    (hwritten : writtenOf h = requestOf C) :
    Good C (h ++ [.received bytes]) ∧ Upgrading C (h ++ [.received bytes]) ∧
      writtenOf (h ++ [.received bytes]) = requestOf C := by
  obtain ⟨hg', hp'⟩ := hg.concat (e := .received bytes) hup.past rfl ⟨hup.opened, hwritten⟩
  refine ⟨hg', ⟨hp', List.mem_append_left _ hup.opened, ?_, ?_⟩, ?_⟩
  · intro hmode
    obtain ⟨ders, hders⟩ := hup.asked hmode
    exact ⟨ders, List.mem_append_left _ hders⟩
  · simpa using hup.done
  · rw [writtenOf_append, hwritten]
    exact List.append_nil _

/-- **`sstp_recv_cont`**. -/
lemma inv_recvCont {timedOut : Bool} (hs : s.stopped = false) (hc : s.control = false)
    (hi : Inv C s h) :
    Inv C (sstpRecvCont C o timedOut s).1 (h ++ (sstpRecvCont C o timedOut s).2) := by
  have hstay : s.evRecv = none → Inv C (sstpRecvCont C o timedOut s).1
      (h ++ (sstpRecvCont C o timedOut s).2) := by
    intro hnone
    unfold sstpRecvCont
    rw [hnone, List.append_nil]
    exact hi
  cases hi.waits hs with
  | opening fn i hpast hwritten hreceived hconnected hdone hsend hev hfn hrecv => exact hstay hrecv
  | hello b i hup hreceived hhttp h0 hdata hwritten hsend hev hrecv => exact hstay hrecv
  | control hcontrol =>
    rw [hc] at hcontrol
    cases hcontrol
  | response b hup hhttp hwritten hoff hle hdata hsend hev hrecv =>
    unfold sstpRecvCont
    rw [hrecv]
    dsimp only
    cases timedOut with
    | true =>
      rw [if_pos rfl]
      obtain ⟨h1, h2⟩ := good_helloComplete (o := o) (s := { s with evRecv := none }) hi.good hup
        hhttp hdata (fun h : Status.timeout = .okay => by cases h)
      exact ⟨h1, h2⟩
    | false =>
      rw [if_neg Bool.false_ne_true, hhttp]
      dsimp only
      obtain ⟨status, b', wire', bytes, hcall, hwire, hoff', hle', hdata', hend⟩ :=
        recvHttp_spec hoff hle s.wire o.reads
      obtain ⟨hg', hup', hwritten'⟩ := hup.received bytes hi.good hwritten
      have hreceived : receivedOf (h ++ [.received bytes]) = receivedOf h ++ bytes := by
        rw [receivedOf_append]
        exact congrArg _ (List.append_nil bytes)
      have hlen : (receivedOf (h ++ [.received bytes])).length =
          (receivedOf h).length + bytes.length := by rw [hreceived, List.length_append]
      have hover : b'.data = overRequest C (receivedOf (h ++ [.received bytes])) := by
        rw [hdata', hdata, splice_overRequest, hreceived]
      have hgot : b.data.take (receivedOf h).length ++ bytes =
          receivedOf (h ++ [.received bytes]) := by
        rw [hdata, overRequest, List.take_left' rfl, hreceived]
      have hroom : (receivedOf (h ++ [.received bytes])).length ≤ b'.data.length := by
        rw [hdata', length_splice hle', hlen]
        exact hle'
      rw [← hlen] at hoff'
      rw [hgot] at hend
      have htaken : s.wire.take (s.wire.length - wire'.length) = bytes := by
        rw [hwire, List.length_append, Nat.add_sub_cancel, List.take_left]
      rw [hcall]
      dsimp only
      rw [seq, andThen_running (by exact hs)]
      dsimp only
      rw [htaken, ← List.append_assoc]
      by_cases hinprog : status = .inprog
      · rw [if_pos hinprog, update, List.append_nil]
        exact ⟨hg', fun _ => .response b' hup' rfl hwritten' hoff' hroom hover hsend hev rfl⟩
      · rw [if_neg hinprog]
        obtain ⟨h1, h2⟩ := good_helloComplete (o := o)
          (s := { s with evRecv := none, http := some b', wire := wire' }) hg' hup' rfl hover hend
        exact ⟨h1, h2⟩

/-- **The event of the send side.** -/
lemma inv_sendEvent {timedOut : Bool} (hs : s.stopped = false) (hc : s.control = false)
    (hi : Inv C s h) :
    Inv C (sendEvent C o timedOut s).1 (h ++ (sendEvent C o timedOut s).2) := by
  unfold sendEvent
  cases hi.waits hs with
  | opening fn i hpast hwritten hreceived hconnected hdone hsend hev hfn hrecv =>
    rw [hev]
    dsimp only
    have ho : Opening C { s with evSend := none } h :=
      ⟨hpast, hwritten, hreceived, hconnected, hdone, hsend, rfl, hrecv⟩
    cases fn with
    | connectComplete =>
      obtain ⟨h1, h2⟩ :=
        leads_connectComplete (o := o) timedOut { s with evSend := none } h hs hi.good ho
      exact ⟨h1, h2⟩
    | handshakeCont =>
      obtain ⟨h1, h2⟩ :=
        leads_handshakeCont (o := o) timedOut { s with evSend := none } h hs hi.good ho
      exact ⟨h1, h2⟩
    | sendCont => exact absurd rfl hfn
  | hello b i hup hreceived hhttp h0 hdata hwritten hsend hev hrecv =>
    rw [hev]
    dsimp only
    have hw : Writing C b { s with evSend := none, send := [] } h :=
      ⟨hup.opened, hup.asked, hup.done, hreceived, hhttp, h0, hdata, hwritten, rfl, rfl, hrecv⟩
    obtain ⟨h1, h2⟩ := leads_sendCont (C := C) (o := o) (b := b) (o.writes ++ [[]]) (by simp)
      { s with evSend := none } h hs hi.good ⟨hsend, hup.past, hw⟩
    exact ⟨h1, h2⟩
  | response b hup hhttp hwritten hoff hle hdata hsend hev hrecv =>
    rw [hev, List.append_nil]
    exact hi
  | control hcontrol =>
    rw [hc] at hcontrol
    cases hcontrol

lemma step_inv (hi : Inv C s h) (i : Input Cert) :
    Inv C (step C s i).1 (h ++ (step C s i).2) := by
  unfold step
  cases hs : s.stopped with
  | true =>
    rw [Bool.true_or, if_pos rfl, List.append_nil]
    exact hi
  | false =>
    cases hc : s.control with
    | true =>
      rw [Bool.or_true, if_pos rfl, List.append_nil]
      exact hi
    | false =>
      rw [Bool.or_false, if_neg Bool.false_ne_true]
      cases i with
      | arrive bytes =>
        rw [List.append_nil]
        refine ⟨hi.good, fun _ => ?_⟩
        cases hi.waits hs with
        | opening fn i hpast hwritten hreceived hconnected hdone hsend hev hfn hrecv =>
          exact .opening fn i hpast hwritten hreceived hconnected hdone hsend hev hfn hrecv
        | hello b i hup hreceived hhttp h0 hdata hwritten hsend hev hrecv =>
          exact .hello b i hup hreceived hhttp h0 hdata hwritten hsend hev hrecv
        | response b hup hhttp hwritten hoff hle hdata hsend hev hrecv =>
          exact .response b hup hhttp hwritten hoff hle hdata hsend hev hrecv
        | control hcontrol =>
          rw [hc] at hcontrol
          cases hcontrol
      | sendReady o => exact inv_sendEvent hs hc hi
      | sendTimeout o => exact inv_sendEvent hs hc hi
      | recvReady o => exact inv_recvCont hs hc hi
      | recvTimeout o => exact inv_recvCont hs hc hi

/-- A connection in progress. -/
lemma inProgress_inv :
    Inv C (sstpIosSessionStart Cert .inProgress).1 [] := by
  refine ⟨⟨each_nil _, [], List.prefix_rfl⟩, fun _ => ?_⟩
  exact .opening .connectComplete .write ⟨by simp, [], [], rfl, rfl⟩ rfl rfl (by simp) (by simp) rfl
    rfl (by simp) rfl

/-- Without an event nothing happens. -/
lemma run_idle (hsend : s.evSend = none) (hrecv : s.evRecv = none) (inputs : List (Input Cert)) :
    ∃ wire, run (step C) s inputs = ({ s with wire := wire }, []) := by
  have hstep : ∀ (wire : List UInt8) (i : Input Cert), ∃ wire',
      step C { s with wire := wire } i = ({ s with wire := wire' }, []) := by
    intro wire i
    unfold step
    by_cases hend : (s.stopped || s.control) = true
    · exact ⟨wire, if_pos hend⟩
    · dsimp only
      rw [if_neg hend]
      cases i with
      | arrive bytes => exact ⟨wire ++ bytes, rfl⟩
      | sendReady o => exact ⟨wire, by simp [sendEvent, hsend]⟩
      | sendTimeout o => exact ⟨wire, by simp [sendEvent, hsend]⟩
      | recvReady o => exact ⟨wire, by simp [sstpRecvCont, hrecv]⟩
      | recvTimeout o => exact ⟨wire, by simp [sstpRecvCont, hrecv]⟩
  have hrun : ∀ wire, ∃ wire', run (step C) { s with wire := wire } inputs =
      ({ s with wire := wire' }, []) := by
    induction inputs with
    | nil => exact fun wire => ⟨wire, rfl⟩
    | cons i inputs ih =>
      intro wire
      obtain ⟨wire₁, h₁⟩ := hstep wire i
      obtain ⟨wire₂, h₂⟩ := ih wire₁
      exact ⟨wire₂, by rw [run_cons, h₁, h₂, List.append_nil]⟩
  exact hrun s.wire

lemma run_inv (inputs : List (Input Cert)) :
    Inv C (run (step C) (sstpIosSessionStart Cert .inProgress).1 inputs).1
      (run (step C) (sstpIosSessionStart Cert .inProgress).1 inputs).2 :=
  run_inv_all (Inv C) (fun _ _ i hi => step_inv hi i) inProgress_inv inputs

end Parts

variable (C : Config Cert)

/-- **The way to the state machine**, in every run: nothing happens behind a failure; the connection
is reported once, and as made only right behind a handshake that has succeeded; the request goes
out only then and, in system mode, when the trust store has accepted the chain; what is written of
it is always its beginning; the response is read when it has been written whole; and the state
machine is created only for a response with an empty line at its end and a status of 200, read from
the buffer. -/
theorem startup_justified (c : Connect) (inputs : List (Input Cert)) :
    Each (Justified C) ((sstpIosSessionStart Cert c).2 ++
      (run (step C) (sstpIosSessionStart Cert c).1 inputs).2) := by
  cases c with
  | made =>
    obtain ⟨wire, hrun⟩ := run_idle (C := C) (s := created) rfl rfl inputs
    have hevents : (run (step C) (sstpIosSessionStart Cert .made).1 inputs).2 = [] :=
      congrArg Prod.snd hrun
    rw [hevents]
    exact each_nil _
  | inProgress => exact (run_inv inputs).good.justified
  | failed =>
    obtain ⟨wire, hrun⟩ := run_idle (C := C) (s := { created with stopped := true }) rfl rfl inputs
    have hevents : (run (step C) (sstpIosSessionStart Cert .failed).1 inputs).2 = [] :=
      congrArg Prod.snd hrun
    rw [hevents, List.append_nil]
    exact each_concat (each_nil _) ⟨fun f => List.not_mem_nil, trivial⟩

/-- **Refinement.** What concerns trust happens as in a run of the trust decision. -/
theorem startup_refines (c : Connect) (inputs : List (Input Cert)) :
    Refines C (run (step C) (sstpIosSessionStart Cert c).1 inputs).2 := by
  have hidle : ∀ s : Session, s.evSend = none → s.evRecv = none →
      Refines C (run (step C) s inputs).2 := by
    intro s hsend hrecv
    obtain ⟨wire, hrun⟩ := run_idle (C := C) hsend hrecv inputs
    rw [hrun]
    exact ⟨[], List.prefix_rfl⟩
  cases c with
  | made => exact hidle _ rfl rfl
  | inProgress => exact (run_inv inputs).good.refines
  | failed => exact hidle _ rfl rfl

/-- One of the two events is pending, with a timeout, and what is queued is what it is for. -/
def Awaits (s : Session) : Prop :=
  (∃ p op, s.evSend = some p ∧ 0 < p.timeout ∧ s.send = [op] ∧ s.evRecv = none) ∨
    ∃ timeout, s.evRecv = some timeout ∧ 0 < timeout ∧ s.send = [] ∧ s.evSend = none

/-- **No wakeup is lost**: until the session fails or the state machine runs, the event loop has an
event to wait for, unless `connect` has returned 0. -/
theorem startup_awaits (c : Connect) (inputs : List (Input Cert)) :
    ((run (step C) (sstpIosSessionStart Cert c).1 inputs).1.stopped = true ∨
      (run (step C) (sstpIosSessionStart Cert c).1 inputs).1.control = true ∨
        Awaits (run (step C) (sstpIosSessionStart Cert c).1 inputs).1) ↔ c ≠ .made := by
  cases c with
  | made =>
    obtain ⟨wire, hrun⟩ := run_idle (C := C) (s := created) rfl rfl inputs
    have hend : (run (step C) (sstpIosSessionStart Cert .made).1 inputs).1 =
        { created with wire := wire } := congrArg Prod.fst hrun
    rw [hend]
    simp [created, Awaits]
  | failed =>
    obtain ⟨wire, hrun⟩ := run_idle (C := C) (s := { created with stopped := true }) rfl rfl inputs
    have hend : (run (step C) (sstpIosSessionStart Cert .failed).1 inputs).1 =
        { created with stopped := true, wire := wire } := congrArg Prod.fst hrun
    rw [hend]
    simp
  | inProgress =>
    refine iff_of_true ?_ (by simp)
    cases hstop : (run (step C) (sstpIosSessionStart Cert .inProgress).1 inputs).1.stopped with
    | true => exact .inl rfl
    | false =>
      refine .inr ?_
      cases (run_inv inputs).waits hstop with
      | opening fn i hpast hwritten hreceived hconnected hdone hsend hev hfn hrecv =>
        exact .inr (.inl ⟨_, _, hev, by simp, hsend, hrecv⟩)
      | hello b i hup hreceived hhttp h0 hdata hwritten hsend hev hrecv =>
        exact .inr (.inl ⟨_, _, hev, by simp, hsend, hrecv⟩)
      | response b hup hhttp hwritten hoff hle hdata hsend hev hrecv =>
        exact .inr (.inr ⟨60, hrecv, by simp, hsend, hev⟩)
      | control hcontrol => exact .inl hcontrol

end SstpClient.Startup
