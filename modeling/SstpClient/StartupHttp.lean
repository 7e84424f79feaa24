import SstpClient.StartupSpec

/-!
The HTTP upgrade: from a connection that is there to a request on its way, and the end of it.
-/

namespace SstpClient.Startup

open SstpClient.Lib.Bytes SstpClient.Lib.CString SstpClient.Lib.Machine SstpClient.Lib.Handler
open SstpClient.Buffer SstpClient.BuffPrint SstpClient.Http SstpClient.HttpResponse
open SstpClient.Stream (Interest SslWrite)
open SstpClient.Recv (SslRead)
open SstpClient.Tls (Library Params Peer Verify)

variable {Cert : Type}

/-! ### The HTTP upgrade -/

section Parts

variable {C : Config Cert} {o : Outside Cert} {h : List (Event Cert)} {s : Session}
  {t u : List (Tls.Event Cert)}

/-- The upgrade is under way. -/
structure Upgrading (C : Config Cert) (h : List (Event Cert)) : Prop where
  past : Past C .http [] h
  opened : .connected .connected ∈ h
  asked : TrustAsked C h
  done : ∀ status, .httpDone status ∉ h

/-- What the event loop waits for. -/
inductive Waits (C : Config Cert) (s : Session) (h : List (Event Cert)) : Prop
  | opening (fn : EventFn) (i : Interest) (hpast : Past C .connecting [] h)
    (hwritten : writtenOf h = []) (hreceived : receivedOf h = [])
    (hconnected : ∀ status, .connected status ∉ h) (hdone : ∀ status, .httpDone status ∉ h)
    (hsend : s.send = [⟨.connected, 60⟩]) (hev : s.evSend = some ⟨i, 60, fn⟩) (hfn : fn ≠ .sendCont)
    (hrecv : s.evRecv = none)
  | hello (b : Buff) (i : Interest) (hup : Upgrading C h) (hreceived : receivedOf h = [])
    (hhttp : s.http = some b) (h0 : 0 ≤ b.off)
    (hdata : b.data = requestData C)
    (hwritten : writtenOf h ++ StreamSpec.remaining b = requestOf C)
    (hsend : s.send = [⟨.httpSent, 10⟩]) (hev : s.evSend = some ⟨i, 10, .sendCont⟩)
    (hrecv : s.evRecv = none)
  | response (b : Buff) (hup : Upgrading C h) (hhttp : s.http = some b)
    (hwritten : writtenOf h = requestOf C) (hoff : b.off = (receivedOf h).length)
    (hle : (receivedOf h).length ≤ b.data.length)
    (hdata : b.data = overRequest C (receivedOf h)) (hsend : s.send = [])
    (hev : s.evSend = none) (hrecv : s.evRecv = some 60)
  | control (hcontrol : s.control = true)

/-- The events of `ios_http_done`. -/
lemma httpDone_shape (status create start : Status) :
    ∃ pre : List (Tls.Event Cert), (∀ f, .fail f ∉ pre) ∧
      (.stateCreate ∈ pre → status = .okay) ∧
      ((Tls.iosHttpDone C.lib C.params C.peer status create start = (.control, pre)) ∨
        ∃ f, Tls.iosHttpDone C.lib C.params C.peer status create start =
          (.failed, pre ++ [.fail f])) := by
  have hcontrol : ∃ pre : List (Tls.Event Cert), (∀ f, .fail f ∉ pre) ∧
      (Tls.startControl create start = (.control, pre) ∨
        ∃ f, Tls.startControl create start = (.failed, pre ++ [.fail f])) := by
    refine ⟨[.stage .sstpControl, .stateCreate], by simp, ?_⟩
    unfold Tls.startControl
    split_ifs
    · exact .inr ⟨_, rfl⟩
    · exact .inr ⟨_, rfl⟩
    · exact .inl rfl
  have hfail : ∀ f : Provider.Failure, ∃ pre : List (Tls.Event Cert), (∀ f, .fail f ∉ pre) ∧
      (.stateCreate ∈ pre → status = .okay) ∧
      ((Tls.failWith f = (.control, pre)) ∨ ∃ f', Tls.failWith f = (.failed, pre ++ [.fail f'])) :=
    fun f => ⟨[], by simp, by simp, .inr ⟨f, rfl⟩⟩
  cases status with
  | okay =>
    obtain ⟨pre, hpre, hphase⟩ := hcontrol
    unfold Tls.iosHttpDone
    dsimp only
    split_ifs with hmode hverify
    · exact ⟨pre, hpre, fun _ => rfl, hphase⟩
    · exact hfail _
    · cases Tls.pinFailure C.lib C.params.session C.peer with
      | some failure => exact hfail failure
      | none => exact ⟨pre, hpre, fun _ => rfl, hphase⟩
  | _ => exact hfail _

/-- **`ios_http_done`** reports a failure, or starts the state machine. -/
lemma good_httpDone {status : Status} (hg : Good C h) (hup : Upgrading C h)
    (hokay : status = .okay → Upgraded C (receivedOf h)) :
    Good C (h ++ (iosHttpDone C o status s).2) ∧
      ((iosHttpDone C o status s).1.stopped = false →
        Waits C (iosHttpDone C o status s).1 (h ++ (iosHttpDone C o status s).2)) := by
  obtain ⟨hg1, hp1⟩ := hg.concat (e := .httpDone status) hup.past rfl ⟨hup.done, hokay⟩
  obtain ⟨pre, hpre, hcreate, hshape⟩ :=
    httpDone_shape (C := C) status o.stateCreate o.stateStart
  have hstep : (Tls.step C.lib C.params C.peer .http
      (.httpDone status o.stateCreate o.stateStart)) =
        Tls.iosHttpDone C.lib C.params C.peer status o.stateCreate o.stateStart := rfl
  have hmem : .stateCreate ∈ (Tls.iosHttpDone C.lib C.params C.peer status o.stateCreate
      o.stateStart).2 → .httpDone .okay ∈ h ++ [.httpDone status] := by
    intro hmem
    have hpremem : .stateCreate ∈ pre := by
      rcases hshape with heq | ⟨f, heq⟩
      · rwa [heq] at hmem
      · rw [heq] at hmem
        simpa using hmem
    rw [hcreate hpremem]
    simp
  have hends : ∀ a f b, (Tls.iosHttpDone C.lib C.params C.peer status o.stateCreate
      o.stateStart).2 = a ++ .fail f :: b → b = [] := by
    intro a f b heq
    rcases hshape with hc | ⟨f', hc⟩
    · rw [hc] at heq
      have heq' : pre = a ++ .fail f :: b := heq
      exact absurd (by simp [heq']) (hpre f)
    · rw [hc] at heq
      rcases split_concat heq with ⟨w, hw⟩ | ⟨ha, -⟩
      · exact absurd (by simp [hw]) (hpre f)
      · rw [ha] at heq
        exact (List.cons.inj (List.append_cancel_left heq)).2.symm
  obtain ⟨hg2, -⟩ := hg1.steps hp1 ⟨_, by rw [List.nil_append, hstep]⟩ hends hmem
  have hevents : h ++ (iosHttpDone C o status s).2 = h ++ [.httpDone status] ++
      (Tls.iosHttpDone C.lib C.params C.peer status o.stateCreate o.stateStart).2.map .tls := by
    rw [List.append_assoc]
    rfl
  rw [hevents]
  refine ⟨hg2, fun hstop => .control ?_⟩
  rcases hshape with hc | ⟨f, hc⟩
  · simp [iosHttpDone, hc]
  · simp [iosHttpDone, hc] at hstop

/-! ### The request -/

/-- **`sstp_stream_send`** of what is left of the request, while nothing is queued. -/
lemma send_spec {b : Buff} (hhttp : s.http = some b) (h0 : 0 ≤ b.off) (hsend : s.send = [])
    (hev : s.evSend = none) (ws : List SslWrite) :
    ∃ b' bytes, bytes ++ StreamSpec.remaining b' = StreamSpec.remaining b ∧ 0 ≤ b'.off ∧
      b'.data = b.data ∧ ((StreamSpec.remaining b' = [] ∧
          sstpStreamSend .httpSent 10 ws s = (.okay,
            { s with sendCb := .sendCont, http := some b' }, [(.wrote bytes : Event Cert)])) ∨
        sstpStreamSend .httpSent 10 ws s = (.fail,
          { s with sendCb := .sendCont, http := some b' }, [(.wrote bytes : Event Cert)]) ∨
        ∃ i, sstpStreamSend .httpSent 10 ws s = (.inprog,
          { s with
            sendCb := .sendCont, http := some b', send := [⟨.httpSent, 10⟩],
            evSend := some ⟨i, 10, .sendCont⟩ }, [(.wrote bytes : Event Cert)])) := by
  obtain ⟨hbytes, hempty, hoff, hdata, hdone⟩ := writeLoop_spec h0 ws
  cases hloop : writeLoop b ws with
  | mk sent rest =>
    obtain ⟨b', bytes⟩ := rest
    rw [hloop] at hbytes hempty hoff hdata hdone
    refine ⟨b', bytes, hbytes, hoff, hdata, ?_⟩
    cases sent with
    | done status =>
      rcases hdone status rfl with rfl | rfl
      · exact .inl ⟨hempty rfl, by simp [sstpStreamSend, hev, hhttp, hloop]⟩
      · exact .inr (.inl (by simp [sstpStreamSend, hev, hhttp, hloop]))
    | blocked i =>
      refine .inr (.inr ⟨i, ?_⟩)
      simp [sstpStreamSend, sstpOperationAddWrite, hev, hhttp, hloop, hsend]

/-- The request has been written in part. -/
structure Writing (C : Config Cert) (b : Buff) (s : Session) (h : List (Event Cert)) : Prop where
  opened : .connected .connected ∈ h
  asked : TrustAsked C h
  done : ∀ status, .httpDone status ∉ h
  received : receivedOf h = []
  http : s.http = some b
  off : 0 ≤ b.off
  data : b.data = requestData C
  written : writtenOf h ++ StreamSpec.remaining b = requestOf C
  send : s.send = []
  evSend : s.evSend = none
  evRecv : s.evRecv = none

/-- What is left when the `SSL_write`s of a call have taken some bytes. -/
lemma Writing.wrote {phase : Tls.Phase} {b b' : Buff} {bytes : List UInt8}
    (hw : Writing C b s h) (hg : Good C h) (hp : Past C phase t h)
    (hbytes : bytes ++ StreamSpec.remaining b' = StreamSpec.remaining b) (h0 : 0 ≤ b'.off)
    (hdata : b'.data = b.data) :
    Good C (h ++ [.wrote bytes]) ∧ Past C phase t (h ++ [.wrote bytes]) ∧
      Writing C b' { s with sendCb := .sendCont, http := some b' } (h ++ [.wrote bytes]) := by
  have hwritten : writtenOf h ++ bytes ++ StreamSpec.remaining b' = requestOf C := by
    rw [List.append_assoc, hbytes, hw.written]
  obtain ⟨hg', hp'⟩ := hg.concat (e := .wrote bytes) hp rfl
    ⟨hw.opened, hw.asked, ⟨_, hwritten⟩⟩
  refine ⟨hg', hp', ?_, ?_, ?_, ?_, rfl, h0, hdata.trans hw.data, ?_, hw.send, hw.evSend,
    hw.evRecv⟩
  · exact List.mem_append_left _ hw.opened
  · intro hmode
    obtain ⟨ders, hders⟩ := hw.asked hmode
    exact ⟨ders, List.mem_append_left _ hders⟩
  · intro status hmem
    simp only [List.mem_append, List.mem_singleton, reduceCtorEq, or_false] at hmem
    exact hw.done status hmem
  · rw [receivedOf_append, hw.received]
    rfl
  · rw [writtenOf_append]
    simpa [writtenOf] using hwritten

lemma Writing.upgrading {b : Buff} (hw : Writing C b s h) (hp : Past C .http [] h) :
    Upgrading C h := ⟨hp, hw.opened, hw.asked, hw.done⟩

/-- The request is written, and the response is waited for. -/
lemma Writing.waits {b : Buff} (hw : Writing C b s h) (hp : Past C .http [] h)
    (hend : StreamSpec.remaining b = []) :
    Waits C { s with evRecv := some 60, http := some (sstpBuffReset b) } h := by
  refine .response (sstpBuffReset b) (hw.upgrading hp) rfl ?_ ?_ ?_ ?_ hw.send hw.evSend rfl
  · rw [← hw.written, hend, List.append_nil]
  · rw [hw.received, off_reset]
    rfl
  · rw [hw.received]
    exact Nat.zero_le _
  · rw [hw.received, data_reset, hw.data, overRequest, List.nil_append, List.length_nil,
      List.drop_zero]

/-! ### The connection is there -/

/-- What the trust store is asked. -/
def checks (C : Config Cert) : List (Tls.Event Cert) :=
  if C.params.tlsMode = .system then
    (Tls.iosEvaluateSystemTrust C.lib C.peer C.params.verifyHost).2
  else []

/-- The trust store has nothing against the server. -/
def Passes (C : Config Cert) : Prop :=
  C.params.tlsMode = .system →
    (Tls.iosEvaluateSystemTrust C.lib C.peer C.params.verifyHost).1 = none

/-- The events of the trust decision up to the upgrade. -/
def beforeUpgrade (C : Config Cert) : List (Tls.Event Cert) :=
  .handshake :: (checks C ++ [.stage .httpUpgrade])

/-- The step of the trust decision. -/
lemma connected_step (hpass : Passes C) (create handshake : Status) :
    Tls.step C.lib C.params C.peer .connecting (.connected .connected create handshake) =
      ((Tls.startHttp create handshake : Tls.Phase × List (Tls.Event Cert)).1,
        .handshake :: (checks C ++ (Tls.startHttp create handshake).2)) := by
  unfold Tls.step Tls.iosConnected checks
  dsimp only
  split_ifs with hmode
  · have hnone := hpass hmode
    generalize Tls.iosEvaluateSystemTrust C.lib C.peer C.params.verifyHost = r at *
    obtain ⟨failure, es⟩ := r
    obtain rfl : failure = none := hnone
    rfl
  · rfl

structure Opened (C : Config Cert) (t : List (Tls.Event Cert)) (s : Session)
    (h : List (Event Cert)) : Prop where
  past : Past C .connecting t h
  written : writtenOf h = []
  received : receivedOf h = []
  opened : .connected .connected ∈ h
  done : ∀ status, .httpDone status ∉ h
  send : s.send = []
  evSend : s.evSend = none
  evRecv : s.evRecv = none

/-- Events of the step that do not end it. -/
lemma leads_tlsEvents {P : List (Event Cert) → Prop} (hnext : ∃ i, t ++ u <+:
      (Tls.step C.lib C.params C.peer .connecting i).2)
    (hfail : ∀ f, .fail f ∉ u) (hcreate : .stateCreate ∉ u)
    (hP : ∀ h, P (h ++ u.map .tls)) :
    Leads Session.stopped (Good C) (Opened C t) (fun s h => Opened C (t ++ u) s h ∧ P h)
      (tlsEvents u) := by
  intro s h _ hg ho
  obtain ⟨hg', hp'⟩ := hg.steps ho.past hnext
    (fun a f b heq => absurd (by simp [heq]) (hfail f)) (fun hmem => absurd hmem hcreate)
  refine ⟨hg', fun _ => ⟨⟨hp' hfail, ?_, ?_, ?_, ?_, ho.send, ho.evSend, ho.evRecv⟩, hP h⟩⟩
  · simp [tlsEvents, ho.written]
  · simp [tlsEvents, ho.received]
  · exact List.mem_append_left _ ho.opened
  · intro status hmem
    simp only [tlsEvents, List.mem_append, List.mem_map, reduceCtorEq, and_false, exists_false,
      or_false] at hmem
    exact ho.done status hmem

/-- The step fails. -/
lemma good_fail {phase : Tls.Phase} {f : Provider.Failure} (hg : Good C h)
    (hp : Past C phase t h)
    (hnext : ∃ i, t ++ [.fail f] <+: (Tls.step C.lib C.params C.peer phase i).2) :
    Good C (h ++ [.tls (.fail f)]) := by
  refine (hg.steps (u := [.fail f]) hp hnext (fun a f' b heq => ?_) (by simp)).1
  cases a with
  | nil => exact (List.cons.inj heq).2.symm
  | cons e a => exact absurd (List.cons.inj heq).2 (by simp)

lemma leads_fail {f : Provider.Failure} {Q : Session → List (Event Cert) → Prop}
    (hnext : ∃ i, t ++ [.fail f] <+: (Tls.step C.lib C.params C.peer .connecting i).2) :
    Leads Session.stopped (Good C) (Opened C t) Q (sstpIosFailEx f) := by
  intro s h _ hg ho
  exact ⟨good_fail hg ho.past hnext, fun hfalse => by cases hfalse⟩

/-- The request is built, and sent if there was room for it. -/
lemma handshake_built {fresh b : Buff} {built : Status} (hhttp : s.http = some fresh)
    (hello : sstpHttpSendHello fresh C.server C.uuid = some (built, b)) :
    (built ≠ .okay → sstpHttpHandshake C o s = (built, { s with http := some b }, [])) ∧
      (built = .okay → ∀ r : Status × Session × List (Event Cert),
        sstpStreamSend .httpSent 10 (o.writes.headD []) { s with http := some b } = r →
        sstpHttpHandshake C o s =
          if r.1 = .okay then (.inprog, (sstpHttpSendComplete C o .okay r.2.1).1,
            r.2.2 ++ (sstpHttpSendComplete C o .okay r.2.1).2)
          else r) := by
  unfold sstpHttpHandshake
  rw [hhttp]
  dsimp only
  rw [hello]
  dsimp only
  refine ⟨fun hne => if_pos hne, fun heq r hr => ?_⟩
  rw [if_neg (not_not.mpr heq), hr]

lemma startHttp_refused {status : Status} {s' : Session} {events : List (Event Cert)}
    (hokay : o.httpCreate = .okay) (h1 : status ≠ .okay) (h2 : status ≠ .inprog)
    (heq : sstpHttpHandshake C o { s with http := some (sstpBuffCreate 8192) } =
      (status, s', events)) (hs' : s'.stopped = false) :
    startHttp C o s = ({ s' with stopped := true }, events ++
      [.tls (.fail ⟨.httpUpgrade, .httpUpgrade, "Could not start HTTP handshake"⟩)]) := by
  unfold startHttp
  rw [if_neg (by simp [hokay])]
  dsimp only
  rw [heq, if_pos ⟨h1, h2⟩, seq, andThen_running hs']
  rfl

lemma startHttp_inprog {s' : Session} {events : List (Event Cert)} (hokay : o.httpCreate = .okay)
    (heq : sstpHttpHandshake C o { s with http := some (sstpBuffCreate 8192) } =
      (.inprog, s', events)) : startHttp C o s = (s', events) := by
  unfold startHttp
  rw [if_neg (by simp [hokay])]
  dsimp only
  rw [heq, if_neg (by simp), seq, andThen_skip]

/-- **The upgrade is begun.** -/
lemma leads_startHttp (hpass : Passes C) :
    Leads Session.stopped (Good C)
      (fun s h => Opened C (beforeUpgrade C) s h ∧ TrustAsked C h) (Waits C) (startHttp C o) := by
  have hnext : ∀ create handshake f,
      (Tls.startHttp create handshake : Tls.Phase × List (Tls.Event Cert)).2 =
        [.stage .httpUpgrade, .fail f] →
      ∃ i, beforeUpgrade C ++ [.fail f] <+: (Tls.step C.lib C.params C.peer .connecting i).2 := by
    intro create handshake f heq
    refine ⟨.connected .connected create handshake, ?_⟩
    rw [connected_step hpass, heq]
    simp [beforeUpgrade]
  intro s h hs hg ⟨ho, hasked⟩
  by_cases hokay : o.httpCreate = .okay
  · -- the handshake is refused, after some bytes or none
    have hrefused : ∀ status s' events, status ≠ .okay → status ≠ .inprog →
        sstpHttpHandshake C o { s with http := some (sstpBuffCreate 8192) } =
          (status, s', events) → s'.stopped = false → Good C (h ++ events) →
        Past C .connecting (beforeUpgrade C) (h ++ events) →
        Good C (h ++ (startHttp C o s).2) ∧ ((startHttp C o s).1.stopped = false →
          Waits C (startHttp C o s).1 (h ++ (startHttp C o s).2)) := by
      intro status s' events h1 h2 heq hs' hg' hp'
      rw [startHttp_refused hokay h1 h2 heq hs', ← List.append_assoc]
      refine ⟨good_fail hg' hp' (hnext o.httpCreate status _ ?_), fun hfalse => by cases hfalse⟩
      simp [Tls.startHttp, hokay, h1, h2]
    have hhttp : ∀ {h'}, Past C .connecting (beforeUpgrade C) h' → Past C .http [] h' :=
      fun hp => hp.next (i := .connected .connected .okay .inprog) (connected_step hpass _ _)
    obtain ⟨built, b, hello, hbuilt, hoff⟩ := sendHello_spec C.server C.uuid
    by_cases hfull : built = .okay
    · subst hfull
      obtain ⟨s₁, hs₁⟩ : ∃ s₁ : Session, s₁ = { s with http := some b } := ⟨_, rfl⟩
      have hrequest : requestOf C = StreamSpec.remaining b := by
        rw [requestOf, hello, Option.map_some, Option.getD_some]
      have hdata : requestData C = b.data := by
        rw [requestData, hello, Option.map_some, Option.getD_some]
      have hw : Writing C b s₁ h := by
        subst hs₁
        exact ⟨ho.opened, hasked, ho.done, ho.received, rfl, hoff.ge, hdata.symm,
          by rw [ho.written, hrequest]; rfl, ho.send, ho.evSend, ho.evRecv⟩
      have hstopped : s₁.stopped = false := by rw [hs₁]; exact hs
      obtain ⟨b', bytes, hbytes, h0, hkeep, hsent⟩ :=
        @send_spec Cert _ _ hw.http hw.off hw.send hw.evSend (o.writes.headD [])
      obtain ⟨hg', hp', hw'⟩ := hw.wrote hg ho.past hbytes h0 hkeep
      have hhandshake := fun r => (handshake_built (o := o)
        (s := { s with http := some (sstpBuffCreate 8192) }) rfl hello).2 rfl r
      subst hs₁
      rcases hsent with ⟨hend, hsent⟩ | hsent | ⟨i, hsent⟩
      · rw [startHttp_inprog hokay ((hhandshake _ hsent).trans (if_pos rfl))]
        exact ⟨by simpa [sstpHttpSendComplete, sstpStreamSetrecv] using hg',
          fun _ => by simpa [sstpHttpSendComplete, sstpStreamSetrecv] using hw'.waits (hhttp hp') hend⟩
      · exact hrefused .fail _ _ (by simp) (by simp) ((hhandshake _ hsent).trans (if_neg (by simp)))
          hstopped hg' hp'
      · rw [startHttp_inprog hokay ((hhandshake _ hsent).trans (if_neg (by simp)))]
        exact ⟨hg', fun _ => .hello b' i (hw'.upgrading (hhttp hp')) hw'.received rfl h0 hw'.data
          hw'.written rfl rfl hw'.evRecv⟩
    · refine hrefused built { s with http := some b } [] hfull hbuilt ?_ hs ?_ ?_
      · exact (handshake_built rfl hello).1 hfull
      · rwa [List.append_nil]
      · rw [List.append_nil]
        exact ho.past
  · have hstart : startHttp C o s =
        sstpIosFailEx ⟨.httpUpgrade, .httpUpgrade, "Could not create HTTP context"⟩ s :=
      if_pos hokay
    rw [hstart]
    exact ⟨good_fail hg ho.past (hnext o.httpCreate .okay _ (by simp [Tls.startHttp, hokay])),
      fun hfalse => by cases hfalse⟩

/-- The stage is set, and the upgrade begun. -/
lemma leads_upgrade (hpass : Passes C) : Leads Session.stopped (Good C)
    (fun s h => Opened C (.handshake :: checks C) s h ∧ TrustAsked C h) (Waits C) (upgrade C o) := by
  intro s h hs hg ⟨ho, hasked⟩
  have hstage : Leads Session.stopped (Good C) (Opened C (.handshake :: checks C))
      (fun s h => Opened C (.handshake :: checks C ++ [.stage .httpUpgrade]) s h ∧ True)
      (tlsEvents [.stage .httpUpgrade]) := by
    refine leads_tlsEvents ⟨.connected .connected .okay .okay, ?_⟩ (by simp) (by simp)
      fun _ => trivial
    rw [connected_step hpass]
    simp [Tls.startHttp]
  obtain ⟨hg', hQ⟩ := hstage s h hs hg ho
  have hasked' : TrustAsked C (h ++ (tlsEvents [.stage .httpUpgrade] s).2) := by
    intro hmode
    obtain ⟨ders, hders⟩ := hasked hmode
    exact ⟨ders, List.mem_append_left _ hders⟩
  unfold upgrade seq
  rw [andThen_running (by exact hs), ← List.append_assoc]
  exact leads_startHttp hpass _ _ hs hg' ⟨(hQ hs).1, hasked'⟩

lemma systemTrust_events (host : Option (List UInt8)) :
    ∀ e ∈ (Tls.iosEvaluateSystemTrust C.lib C.peer host).2,
      ∃ ders result, e = .secTrust ders host result := by
  unfold Tls.iosEvaluateSystemTrust
  cases C.peer.leaf with
  | none => simp
  | some leaf =>
    dsimp only
    cases Tls.iosX509ToDer C.lib leaf with
    | none => simp
    | some der =>
      dsimp only
      cases Tls.chainDers C.lib leaf C.peer.chain with
      | none => simp
      | some ders =>
        dsimp only
        cases Tls.sstpIosSecTrustEvaluate C.lib (der :: ders) host <;> simp

/-- **`ios_connected`** for a connection: the trust store is asked in system mode, then comes the
upgrade. -/
lemma leads_opened : Leads Session.stopped (Good C) (Opened C []) (Waits C)
    (seq (tlsEvents [.handshake])
      (if C.params.tlsMode = .system then
        match Tls.iosEvaluateSystemTrust C.lib C.peer C.params.verifyHost with
        | (some failure, es) => seq (tlsEvents es) (sstpIosFailEx failure)
        | (none, es) => seq (tlsEvents es) (upgrade C o)
      else upgrade C o)) := by
  have hstep : ∀ create handshake, Tls.step C.lib C.params C.peer .connecting
      (.connected .connected create handshake) =
        Tls.iosConnected C.lib C.params C.peer .connected create handshake := fun _ _ => rfl
  have hfirst : ∃ i, ([] : List (Tls.Event Cert)) ++ [.handshake] <+:
      (Tls.step C.lib C.params C.peer .connecting i).2 := by
    refine ⟨.connected .connected .okay .okay, ?_⟩
    rw [hstep]
    unfold Tls.iosConnected
    dsimp only
    split_ifs
    · cases Tls.iosEvaluateSystemTrust C.lib C.peer C.params.verifyHost with
      | mk failure es => cases failure <;> simp
    · simp
  have hbegin : ∀ Q : List (Event Cert) → Prop, (∀ h, Q (h ++ [.tls .handshake])) →
      Leads Session.stopped (Good C) (Opened C [])
        (fun s h => Opened C [.handshake] s h ∧ Q h) (tlsEvents [.handshake]) :=
    fun Q hQ => leads_tlsEvents hfirst (by simp) (by simp) hQ
  by_cases hmode : C.params.tlsMode = .system
  · rw [if_pos hmode]
    have hchecks : checks C =
        (Tls.iosEvaluateSystemTrust C.lib C.peer C.params.verifyHost).2 := if_pos hmode
    have hsecTrust := systemTrust_events (C := C) C.params.verifyHost
    have hanswer := (@Trust.systemTrust_spec Cert C.lib C.peer C.params.verifyHost).2
    have hpass : (Tls.iosEvaluateSystemTrust C.lib C.peer C.params.verifyHost).1 = none →
        Passes C := fun h _ => h
    cases heq : Tls.iosEvaluateSystemTrust C.lib C.peer C.params.verifyHost with
    | mk failure es =>
      rw [heq] at hchecks hsecTrust hanswer hpass
      have hfail : ∀ f, .fail f ∉ es := by
        intro f hf
        obtain ⟨ders, result, he⟩ := hsecTrust _ hf
        cases he
      have hcreate : .stateCreate ∉ es := by
        intro hc
        obtain ⟨ders, result, he⟩ := hsecTrust _ hc
        cases he
      have hmiddle : ∀ Q : List (Event Cert) → Prop, (∀ h, Q (h ++ es.map .tls)) →
          Leads Session.stopped (Good C) (fun s h => Opened C [.handshake] s h ∧ True)
            (fun s h => Opened C ([.handshake] ++ es) s h ∧ Q h) (tlsEvents es) := by
        intro Q hQ
        refine (leads_tlsEvents ⟨.connected .connected .okay .okay, ?_⟩ hfail hcreate hQ).mono
          (fun _ _ h => h.1) fun _ _ h => h
        rw [hstep]
        unfold Tls.iosConnected
        dsimp only
        rw [if_pos hmode, heq]
        cases failure <;> simp
      refine (hbegin (fun _ => True) fun _ => trivial).andThen ?_
      cases failure with
      | some failure =>
        refine (hmiddle (fun _ => True) fun _ => trivial).andThen ?_
        refine (leads_fail ⟨.connected .connected .okay .okay, ?_⟩).mono (fun _ _ h => h.1)
          fun _ _ h => h
        rw [hstep]
        unfold Tls.iosConnected
        dsimp only
        rw [if_pos hmode, heq]
        simp
      | none =>
        obtain ⟨leaf, der, ders, -, -, -, hmem⟩ := hanswer rfl
        refine (hmiddle (TrustAsked C) fun h _ => ⟨der :: ders, ?_⟩).andThen ?_
        · exact List.mem_append_right _ (List.mem_map_of_mem hmem)
        · obtain rfl : checks C = es := hchecks
          exact leads_upgrade (hpass rfl)
  · rw [if_neg hmode]
    have hchecks : checks C = [] := if_neg hmode
    have hupgrade := leads_upgrade (C := C) (o := o) fun hm => absurd hm hmode
    rw [hchecks] at hupgrade
    exact (hbegin (TrustAsked C) fun _ hm => absurd hm hmode).andThen hupgrade

end Parts

end SstpClient.Startup
