import SstpClient.EstablishSpec

/-!
The session in a run: each step keeps what holds of the state and the events so far, so that no
event comes without its cause.
-/

namespace SstpClient.Establish

open SstpClient.Lib.Machine SstpClient.Lib.Handler SstpClient.Buffer SstpClient.StateSpec
open SstpClient.LinkUp
open SstpClient.Ppp (Pppd sstpPppdCreate sstpPppdStart)
open SstpClient.State (Signal Message Handled)

section Proofs

variable {C : Config} {o : Outside} {s : Session} {h : List Event}

/-! ### The steps -/

/-- The context of an endpoint on its own, which has been started and has taken its inputs. -/
def Endpoint (C : Config) (ctx : Pppd) : Prop :=
  ∃ magic inputs, ctx = (run (Ppp.step C.prims)
    (sstpPppdStart C.user C.password (sstpPppdCreate magic)).1 inputs).1

lemma Endpoint.step {ctx : Pppd} (he : Endpoint C ctx) (i : Ppp.Input) :
    Endpoint C (Ppp.step C.prims ctx i).1 := by
  obtain ⟨magic, inputs, rfl⟩ := he
  refine ⟨magic, inputs ++ [i], ?_⟩
  rw [run_append]
  rfl

/-- The invariant. -/
structure Inv (C : Config) (s : Session) (h : List Event) : Prop where
  base : Base C.env s h
  created : s.pppd.isSome → .created ∈ h
  /-- A context that has not notified has not been reported. -/
  once : ∀ ctx, s.pppd = some ctx → ctx.upNotified = false → readySince h = false
  endpoint : ∀ ctx, s.pppd = some ctx → Endpoint C ctx

lemma Inv.during (hi : Inv C s h) : During C.env s.pppd (readySince h) s h :=
  ⟨hi.base, hi.created, rfl, rfl⟩

lemma During.inv {p : Option Pppd} {b : Bool} (hd : During C.env p b s h)
    (honce : ∀ ctx, p = some ctx → ctx.upNotified = false → b = false)
    (hendpoint : ∀ ctx, p = some ctx → Endpoint C ctx) : Inv C s h := by
  obtain ⟨hbase, hcreated, rfl, rfl⟩ := hd
  exact ⟨hbase, hcreated, honce, hendpoint⟩

lemma keeps_inv {f : Part} (hf : ∀ p b, Keeps Session.stopped (During C.env p b) f) :
    Keeps Session.stopped (Inv C) f :=
  fun s h hs hi => (hf _ _ s h hs hi.during).inv hi.once hi.endpoint

lemma completes_upNotified {ctx : Pppd} {i : Ppp.Input} (hc : Completes ctx i) :
    ctx.upNotified = false := by
  cases i with
  | frame bytes peerChallenge => exact hc.1
  | sendIp ip => exact hc.elim

/-- **A step of the PPP layer.** -/
lemma keeps_pppStep (i : Ppp.Input) : Keeps Session.stopped (Inv C) (pppStep C o i) := by
  intro s h hs hi
  unfold pppStep
  cases hp : s.pppd with
  | none => rwa [List.append_nil]
  | some ctx =>
    dsimp only
    have hd : During C.env (some (Ppp.step C.prims ctx i).1) (readySince h)
        { s with pppd := some (Ppp.step C.prims ctx i).1 } h :=
      ⟨hi.base.steady ⟨Kept.refl _, rfl, rfl⟩ rfl rfl, fun _ => hi.created (by rw [hp]; rfl), rfl,
        rfl⟩
    have hendpoint : ∀ ctx', some (Ppp.step C.prims ctx i).1 = some ctx' → Endpoint C ctx' := by
      intro ctx' heq
      cases heq
      exact (hi.endpoint ctx hp).step i
    by_cases hc : Completes ctx i
    · -- the context notifies
      obtain ⟨hup, c, hups, -, -, hccp, hlocal⟩ := (step_up C.prims ctx i).1 hc
      have hnot : readySince h = false := hi.once ctx hp (completes_upNotified hc)
      obtain ⟨b', hd', -⟩ := during_performAll (o := o) hd hs rfl
        (.inr ⟨hnot, c, hups, hccp, hlocal⟩)
      refine hd'.inv (fun ctx' heq hfalse => ?_) hendpoint
      cases heq
      rw [hup] at hfalse
      cases hfalse
    · obtain ⟨hup, hups⟩ := (step_up C.prims ctx i).2 hc
      obtain ⟨b', hd', hsame⟩ := during_performAll (o := o) hd hs rfl (.inl hups)
      refine hd'.inv (fun ctx' heq hfalse => ?_) hendpoint
      cases heq
      rw [hsame hups]
      exact hi.once ctx hp (hup.symm.trans hfalse)

lemma ups_start (user password : List UInt8) (magic : ℕ) :
    ups (sstpPppdStart user password (sstpPppdCreate magic)).2 = [] := rfl

/-- **The context is created** right behind the acknowledgement. -/
lemma inv_callConnect {past : List Event} {proto : UInt8} {nounce : List UInt8}
    (hi : Inv C s h) (hh : h = past ++ [.acked proto nounce]) (hs : s.stopped = false) :
    Inv C (callConnect C o s).1 (h ++ (callConnect C o s).2) := by
  unfold callConnect
  split_ifs
  · generalize hr : sstpPppdStart C.user C.password (sstpPppdCreate o.magic) = r
    have hups : ups r.2 = [] := by rw [← hr, ups_start]
    have hbase := hi.base
    have hd : During C.env (some r.1) false { s with pppd := some r.1 } (h ++ [.created]) := by
      refine ⟨⟨hbase.justify hs ⟨past, proto, nounce, hh⟩, ?_, hbase.mode, hbase.nounce,
        hbase.room, ?_, ?_, ?_⟩, fun _ => by simp, rfl, by simp [readySince]⟩
      · intro halive f hmem
        simp only [List.mem_append, List.mem_singleton, reduceCtorEq, or_false] at hmem
        exact hbase.alive hs f hmem
      · simpa [lastAcked] using hbase.acked
      · simpa [lastKeys] using hbase.keys
      · rw [hh]
        simp [lastAcked]
    have hforward : Keeps Session.stopped (During C.env (some r.1) false)
        (update fun s => { s with st := { s.st with forward := true } }) := by
      intro s h hs hd
      rw [update, List.append_nil]
      exact hd.steady ⟨⟨rfl, rfl, rfl⟩, rfl, rfl⟩ rfl rfl rfl
    obtain ⟨b', hd', hsame⟩ := during_performAll (o := o) hd hs rfl (.inl hups)
    rw [hsame hups] at hd'
    have hrest : ∀ g : Part, seq (fun s => ({ s with pppd := some r.1 }, [.created])) g s =
        ((g { s with pppd := some r.1 }).1, .created :: (g { s with pppd := some r.1 }).2) :=
      fun g => andThen_running hs
    rw [hrest, List.append_cons]
    have hendpoint : ∀ ctx, some r.1 = some ctx → Endpoint C ctx := by
      intro ctx heq
      cases heq
      exact ⟨o.magic, [], by rw [← hr]; rfl⟩
    refine During.inv (p := some r.1) (b := false) ?_ (fun _ _ _ => rfl) hendpoint
    cases hstop : (forEach Session.stopped (perform C o) r.2
        { s with pppd := some r.1 }).1.stopped with
    | true => rwa [seq, andThen_stopped hstop]
    | false =>
      rw [seq, andThen_running hstop, ← List.append_assoc]
      exact hforward _ _ hstop hd'
  · exact keeps_inv (fun _ _ => keeps_fail _ _ _) s h hs hi

/-- The handlers that the loop calls keep the keys. -/
lemma handled_keys {i : State.Input} {r : Handled} (hr : State.handled C.env s.st i = some r)
    (hi : ∀ send recv, i ≠ .mppeKeys send recv) :
    r.st.mppeSendKey = s.st.mppeSendKey ∧ r.st.mppeRecvKey = s.st.mppeRecvKey := by
  cases i with
  | start =>
    cases hr
    unfold State.sstpStateStart
    split_ifs <;> exact ⟨rfl, rfl⟩
  | accept =>
    cases hr
    unfold State.sstpStateAccept
    split_ifs
    · cases C.env.certHash s.st.proto <;> exact ⟨rfl, rfl⟩
    · exact ⟨rfl, rfl⟩
  | mppeKeys send recv => exact absurd rfl (hi send recv)
  | timeout =>
    cases hr
    unfold State.sstpStateTimeout
    split_ifs <;> exact ⟨rfl, rfl⟩
  | recv packet tail attrs =>
    simp only [State.handled, State.sstpStateHandlePacket] at hr
    split at hr
    · cases hr
    · cases hr
      exact ⟨rfl, rfl⟩
    · split_ifs at hr
      obtain ⟨payload, -, rfl⟩ := Option.map_eq_some_iff.mp hr
      exact ⟨rfl, rfl⟩
    · cases hr
      exact ⟨rfl, rfl⟩
    · unfold State.sstpStateHandleCtrl at hr
      split_ifs at hr
      iterate 4
        obtain ⟨b, -, rfl⟩ := Option.map_eq_some_iff.mp hr
        cases b <;> exact ⟨rfl, rfl⟩
      all_goals
        cases hr
        exact ⟨rfl, rfl⟩
  | _ =>
    cases hr
    exact ⟨rfl, rfl⟩

lemma keeps_update {r : Handled} (hst : Steady s.st r.st) (hi : Inv C s h) :
    Inv C { s with st := r.st } h :=
  (hi.during.steady (t := { s with st := r.st }) hst rfl rfl rfl).inv hi.once hi.endpoint

lemma keeps_signal {signal : Signal} (hne : signal ≠ .connect) :
    Keeps Session.stopped (Inv C) (iosStateCb C o signal) := by
  cases signal with
  | connect => exact absurd rfl hne
  | established => exact Keeps.skip
  | _ => exact keeps_inv fun _ _ => keeps_callEnded

/-- A message that does not bind. -/
lemma keeps_plainMessage {m : Message} (hm : messageKind m ≠ some .connected) :
    Keeps Session.stopped (Inv C) (sendMessage C o m) := by
  refine keeps_inv fun p b s h hs hd => keeps_sendMessage hs hd ?_
  intro certHash heq
  rw [heq] at hm
  exact absurd rfl hm

/-- Every handler but that of the acknowledgement. -/
lemma inv_handle {r : Handled} (hs : s.stopped = false) (hi : Inv C s h)
    (hst : Steady s.st r.st) (hsignals : .connect ∉ r.signals)
    (hsends : ∀ m, r.sends = some m → messageKind m ≠ some .connected) :
    Inv C (handle C o r s).1 (h ++ (handle C o r s).2) := by
  unfold handle
  rw [seq_update hs]
  refine (Keeps.andThen (Keeps.forEach fun signal hmem => keeps_signal ?_) (Keeps.andThen ?_ ?_)) _ _
    hs (keeps_update hst hi)
  · rintro rfl
    exact hsignals hmem
  · cases r.forwards with
    | none => exact Keeps.skip
    | some frame => exact keeps_pppStep _
  · cases hm : r.sends with
    | none => exact Keeps.skip
    | some m => exact keeps_plainMessage (hsends m hm)

/-- **An acknowledgement** is stored, and the PPP context is created. -/
lemma inv_acked {proto : UInt8} {nounce : List UInt8} (hs : s.stopped = false)
    (hi : Inv C s h) (hn : nounce.length = 32) :
    Inv C (handle C o ⟨{ s.st with proto := proto, nounce := nounce }, none, [.connect], none⟩
        s).1 (h ++ (handle C o ⟨{ s.st with proto := proto, nounce := nounce }, none, [.connect],
        none⟩ s).2) := by
  have hbase := hi.base
  have hinv : Inv C { s with st := { s.st with proto := proto, nounce := nounce } }
      (h ++ [.acked proto nounce]) := by
    refine ⟨⟨hbase.justify hs trivial, ?_, hbase.mode, hn, hbase.room, ?_, ?_, ?_⟩, ?_, ?_,
      hi.endpoint⟩
    · intro halive f hmem
      simp only [List.mem_append, List.mem_singleton, reduceCtorEq, or_false] at hmem
      exact hbase.alive hs f hmem
    · intro a ha
      rw [lastAcked_acked] at ha
      exact (Option.some.inj ha).symm
    · simpa [lastKeys] using hbase.keys
    · simp
    · simpa using hi.created
    · simpa [readySince] using hi.once
  have hcall := inv_callConnect (o := o) hinv rfl hs
  unfold handle
  rw [seq_update hs]
  simp only [forEach, seq, andThen_skip, iosStateCb]
  rw [andThen_emit (by exact hs), List.append_cons]
  exact hcall

/-- **The handler of an input** keeps the invariant. -/
lemma keeps_handleInput {i : State.Input} (hkeys : ∀ send recv, i ≠ .mppeKeys send recv)
    (haccept : i ≠ .accept) : Keeps Session.stopped (Inv C) (handleInput C o i) := by
  intro s h hs hi
  unfold handleInput
  cases hr : State.handled C.env s.st i with
  | none =>
    exact (hi.during.plain (t := { s with stopped := true }) (e := .broken) hs trivial trivial rfl
      rfl rfl (fun hfalse => by cases hfalse)).inv hi.once hi.endpoint
  | some r =>
    have hsteady := handled_keys hr hkeys
    dsimp only
    cases handled_spec hr with
    | start hi' hmode =>
      exact inv_handle hs hi ⟨.refl _, rfl, rfl⟩ List.not_mem_nil fun m heq => by
        cases heq
        decide
    | accept certHash hi' => exact absurd hi' haccept
    | noHash hi' => exact absurd hi' haccept
    | acked proto nounce hack => exact inv_acked hs hi (length_acknowledged hack)
    | answers st' m hi' hack hm hkept =>
      refine inv_handle hs hi ⟨hkept, hsteady.1, hsteady.2⟩ List.not_mem_nil fun m' heq => ?_
      cases heq
      rw [hm]
      decide
    | quiet st' signals forwards hi' hack hkept hforward hconnect =>
      exact inv_handle hs hi ⟨hkept, hsteady.1, hsteady.2⟩ hconnect fun m heq => by cases heq

lemma step_inv (i : Input) (hi : Inv C s h) :
    Inv C (step C s i).1 (h ++ (step C s i).2) := by
  unfold step
  cases hs : s.stopped with
  | true =>
    rw [if_pos rfl, List.append_nil]
    exact hi
  | false =>
    rw [if_neg Bool.false_ne_true]
    cases i with
    | recv packet tail o =>
      exact keeps_handleInput (fun _ _ heq => by cases heq) (fun heq => by cases heq) s h hs hi
    | timeout o =>
      exact keeps_handleInput (fun _ _ heq => by cases heq) (fun heq => by cases heq) s h hs hi
    | recvFail => exact keeps_inv (fun _ _ => keeps_callEnded) s h hs hi
    | sendComplete status =>
      dsimp only
      split_ifs
      · rwa [List.append_nil]
      · exact keeps_inv (fun _ _ => keeps_callEnded) s h hs hi
    | writeIp packet o => exact keeps_pppStep _ s h hs hi

lemma inv_begin (o : Outside) : Inv C (begin C o).1 (begin C o).2 := by
  have h0 : Inv C ⟨State.sstpStateCreate .client, sstpBuffCreate 16384, none, false, false⟩
      [] := by
    refine ⟨⟨each_nil _, fun _ _ => List.not_mem_nil, rfl, ?_, ?_, ?_, rfl, ?_⟩, ?_, ?_, ?_⟩
    · exact List.length_replicate
    · rw [max_create]
      decide
    · intro a ha
      cases ha
    · simp
    · simp
    · simp
    · intro ctx heq
      cases heq
  have h1 := keeps_handleInput (o := o) (i := .start) (fun _ _ heq => by cases heq)
    (fun heq => by cases heq) _ _ rfl h0
  rwa [List.nil_append] at h1

lemma inv_run (o : Outside) (inputs : List Input) : Inv C (run (step C) (begin C o).1 inputs).1
    ((begin C o).2 ++ (run (step C) (begin C o).1 inputs).2) :=
  run_inv_all (Inv C) (fun _ _ i hi => step_inv i hi) (inv_begin o) inputs

end Proofs

/-- **The session does nothing without its cause**, in every run: nothing happens after it has
failed; PPP frames and IP packets come out once an acknowledgement has created the PPP context; the
Call-Connected message binds the nonce of the last acknowledgement, the certificate for its hash
protocol, and the keys of the last CHAP response; and the tunnel is reported ready right behind
that message, once for a context, with CCP settled and an address. -/
theorem session_justified (C : Config) (o : Outside) (inputs : List Input) :
    Each (Justified C.env) ((begin C o).2 ++ (run (step C) (begin C o).1 inputs).2) :=
  (inv_run o inputs).base.justified

/-- **The PPP context of a session** is that of an endpoint on its own. A run of the endpoint takes
inputs after what ends a session, too; so what every run of the endpoint keeps, a session has. -/
theorem session_endpoint (C : Config) (o : Outside) (inputs : List Input) {ctx : Pppd}
    (hctx : (run (step C) (begin C o).1 inputs).1.pppd = some ctx) : Endpoint C ctx :=
  (inv_run o inputs).endpoint ctx hctx

end SstpClient.Establish
