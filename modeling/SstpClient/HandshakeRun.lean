import SstpClient.Handshake

/-!
The handshake in a run: a handler keeps the invariant, and its messages signal what happened exactly
as long as no write of theirs blocks.
-/

namespace SstpClient.Handshake

open SstpClient.Lib.Machine SstpClient.Buffer SstpClient.StreamSpec SstpClient.StateSpec
open SstpClient.ControlMsg
open SstpClient.State (Env Event Message Session Handled Input txBuf sstpCreate)

section Step

variable {E : Env} {c c' : Session} {ts : List Step} {i : Input} {events : List Event}

/-! ### A handler -/

/-- A handler that sends nothing. -/
lemma Inv.quiet (h : Inv E c ts) (hplace : c.stream.place = .idle) {r : Handled}
    (hspec : HandledSpec E c.st i r) (hs : r.sends = none) :
    Inv E (State.handle E c r).1
      (ts ++ [⟨c, i, (State.handle E c r).1, (State.handle E c r).2⟩]) := by
  have hnone := h.waits_none hplace
  have hready := h.ready.of_spec hspec
  have heq : State.handle E c r = ({ c with st := r.st },
      r.signals.map .signal ++ (r.forwards.map Event.forward).toList) := by
    unfold State.handle
    rw [hs]
  have hforwards : ∀ call, endsIn call (r.forwards.map Event.forward).toList = [] := fun call => by
    cases r.forwards <;> rfl
  have hends : ∀ call, endsIn call (r.signals.map .signal ++
      (r.forwards.map Event.forward).toList) = [] := fun call => by
    rw [endsIn_append, endsIn_signals, hforwards]
    rfl
  have hmode : r.st.mode = .client := by
    cases hspec with
    | start hi hmode => exact hmode
    | accept certHash hi hmode hcert => exact hmode
    | noHash hi hmode hcert => exact hmode
    | acked proto nounce hack => exact h.mode
    | answers st' m hi hack hm hkept hforward => exact hkept.mode.trans h.mode
    | quiet st' signals forwards hi hack hkept hforward hconnect => exact hkept.mode.trans h.mode
  rw [heq]
  refine h.keep hready hmode (h.distinct.perm (.refl _) rfl) (le_refl _)
    (fun kind hi call message => ?_)
    (fun kind hi _ => ?_) (fun kind call _ => hends call) (fun call _ => hends call)
    (fun u hu => .inl hu) (fun m hm => absurd hm (hnone m)) fun m kind hm => absurd hm (hnone m)
  · rw [List.mem_append, not_or]
    constructor
    · simp
    · cases r.forwards <;> simp
  · cases hspec with
    | start hi' hmode => cases hs
    | accept certHash hi' hmode hcert => cases hs
    | noHash hi' hmode hcert =>
      subst hi'
      cases hi
      exact ⟨rfl, hcert, rfl⟩
    | acked proto nounce hack =>
      cases i with
      | start => cases hack
      | accept => cases hack
      | _ => cases hi
    | answers st' m hi' hack hm hkept hforward => cases hs
    | quiet st' signals forwards hi' hack hkept hforward hconnect =>
      rw [hi' h.mode] at hi
      cases hi

/-- A message that is not one of the handshake. -/
lemma Inv.answers (h : Inv E c ts) (hplace : c.stream.place = .idle) (hi : inputKind i = none)
    {st' : State.SstpState} {m : Message} (hm : messageKind m = none) (hkept : Kept c.st st')
    (hready' : Ready (State.handOver E { c with st := st' } m).1) :
    Inv E (State.handOver E { c with st := st' } m).1
      (ts ++ [⟨c, i, (State.handOver E { c with st := st' } m).1,
        (State.handOver E { c with st := st' } m).2⟩]) := by
  have hnone := h.waits_none hplace
  have hsized : Sized m := fun certHash heq => by
    rw [heq] at hm
    cases hm
  have hready : Ready { c with st := st' } := ⟨h.ready.max, hkept.nounce ▸ h.ready.nounce⟩
  obtain ⟨b, hb, -⟩ := hready.handed (E := E) hsized
  have hfresh : ∀ kind call, Handed kind call ts → call ≠ c.stream.calls := fun kind call hh hcall =>
    (h.bound call (le_of_eq hcall.symm)).2 kind hh
  have husers := users_idle hplace
  by_cases hev : c.stream.evSend = none
  · rw [handOver_idle hb hev] at hready' ⊢
    refine h.keep hready' (hkept.mode.trans h.mode) ?_ (Nat.le_succ _)
      (fun kind hk => by rw [hi] at hk; cases hk) (fun kind hk => by rw [hi] at hk; cases hk)
      (fun kind call _ => rfl) (fun call _ => rfl) (fun u hu => ?_)
      (fun m' hm' => ?_) fun m kind hm => absurd hm (hnone m)
    · refine h.distinct.called txBuf ?_ rfl
      rw [husers, users_writing rfl]
    · rw [users_writing rfl] at hu
      rw [husers]
      rcases List.mem_cons.mp hu with rfl | hu
      · exact .inr (le_refl _)
      · exact .inl hu
    · cases hm'
      exact .inr ⟨hm, _, le_refl _, rfl⟩
  · obtain ⟨cell, cache, cells, ev, heq⟩ := handOver_pending hb hev
    have hends : ∀ call, call ≠ c.stream.calls → endsIn call
        (.init (c.stream.send.any fun op => op.buf = txBuf) ::
          .handed c.stream.calls (StreamSpec.remaining b) ::
          .stream (.returned c.stream.calls .inprog) ::
          (State.afterSend m .inprog st').2.map .signal) = [] := by
      intro call hne
      have hsig : endsIn call ((State.afterSend m .inprog st').2.map .signal) = [] :=
        endsIn_signals _
      unfold endsIn at hsig ⊢
      simp only [List.filterMap_cons, if_neg (Ne.symm hne), hsig]
    rw [heq] at hready' ⊢
    refine h.keep hready' ?_ ?_ (Nat.le_succ _)
      (fun kind hk => by rw [hi] at hk; cases hk) (fun kind hk => by rw [hi] at hk; cases hk)
      (fun kind call hh => hends call (hfresh kind call hh))
      (fun call hle => hends call (Nat.ne_of_gt hle)) (fun u hu => ?_)
      (fun m' hm' => by cases hm') fun m kind hm => absurd hm (hnone m)
    · exact ((kept_afterSend m .inprog st').1.mode.trans hkept.mode).trans h.mode
    · refine h.distinct.called txBuf ?_ rfl
      rw [husers, users_idle rfl]
      exact perm_use_append _ _
    · rw [users_idle rfl] at hu
      rw [husers]
      rcases List.mem_cons.mp ((perm_use_append _ _).mem_iff.mp hu) with rfl | hu
      · exact .inr (le_refl _)
      · exact .inl hu

/-- A message of the handshake is handed over. -/
lemma Inv.opens (h : Inv E c ts) (hplace : c.stream.place = .idle) {m : Message} {kind : Kind}
    (hi : inputKind i = some kind) (hm : messageKind m = some kind) (hsized : Sized m)
    (hev : c.stream.evSend = none) (hready' : Ready (State.handOver E c m).1) :
    Inv E (State.handOver E c m).1
      (ts ++ [⟨c, i, (State.handOver E c m).1, (State.handOver E c m).2⟩]) := by
  obtain ⟨b, hb, -⟩ := h.ready.handed (E := E) hsized
  have husers := users_idle hplace
  rw [handOver_idle hb hev] at hready' ⊢
  obtain ⟨hnoEnds, hnotHanded⟩ := h.bound c.stream.calls (le_refl _)
  have hnew : ∀ kind' call', (inputKind i = some kind' ∧ ∃ message : List UInt8,
      Event.handed call' message ∈ ([.init (c.stream.send.any fun op => op.buf = txBuf),
        .handed c.stream.calls (StreamSpec.remaining b)] : List Event)) ↔
          kind' = kind ∧ call' = c.stream.calls := by
    intro kind' call'
    rw [hi]
    constructor
    · rintro ⟨hk, message, hmem⟩
      simp at hmem
      exact ⟨(Option.some.inj hk).symm, hmem.1⟩
    · rintro ⟨rfl, rfl⟩
      exact ⟨rfl, StreamSpec.remaining b, by simp⟩
  refine ⟨hready', h.mode, ?_, fun t ht kind' hk hp => ?_, fun call hle => ?_, fun m' hm' => ?_,
    fun kind' call hh => ?_⟩
  · refine h.distinct.called txBuf ?_ rfl
    rw [husers, users_writing rfl]
  · rcases List.mem_append.mp ht with ht | ht
    · exact h.sent t ht kind' hk hp
    · cases List.mem_singleton.mp ht
      exact .inl ⟨c.stream.calls, StreamSpec.remaining b, by simp⟩
  · obtain ⟨hnone, hnot⟩ := h.bound call (le_trans (Nat.le_succ _) hle)
    rw [ends_snoc, hnone]
    refine ⟨rfl, fun kind' hh => ?_⟩
    rcases handed_snoc.mp hh with hh | hh
    · exact hnot kind' hh
    · exact absurd ((hnew kind' call).mp hh).2 (Nat.ne_of_gt hle)
  · cases hm'
    refine ⟨c.stream.calls, rfl, fun kind' => ?_⟩
    rw [handed_snoc, hm]
    refine ⟨fun hh => ?_, fun heq => .inr ((hnew kind' _).mpr ⟨(Option.some.inj heq).symm, rfl⟩)⟩
    rcases hh with hh | hh
    · exact absurd hh (hnotHanded kind')
    · exact congrArg some ((hnew kind' _).mp hh).1.symm
  · rw [ends_snoc, told_snoc]
    have hnil : endsIn call ([.init (c.stream.send.any fun op => op.buf = txBuf),
        .handed c.stream.calls (StreamSpec.remaining b)] : List Event) = [] := rfl
    dsimp only
    rw [hnil, if_pos rfl, List.append_nil, List.append_nil]
    rcases handed_snoc.mp hh with hh | hh
    · rcases h.handed kind' call hh with ⟨-, -, -, m', hm', -⟩ | ⟨hu, he, ht⟩
      · exact absurd hm' (h.waits_none hplace m')
      · refine .inr ⟨fun u hmem => ?_, he, ht⟩
        rw [users_writing rfl] at hmem
        rcases List.mem_cons.mp hmem with rfl | hmem
        · rintro rfl
          exact hnotHanded kind' hh
        · exact hu u (husers ▸ hmem)
    · obtain ⟨rfl, rfl⟩ := (hnew kind' call).mp hh
      -- the call had not been made
      exact .inl ⟨hnoEnds, told_eq_nil hnoEnds, rfl, m, rfl, hm⟩

/-! ### Every step -/

/-- What an event that asks for a message of the handshake does when it is sent. -/
lemma handle_kind (hplace : c.stream.place = .idle)
    (hi : i = .start ∨ i = .accept ∧ (E.certHash c.st.proto).isSome) (hmode : c.st.mode = .client) :
    ∃ m kind, inputKind i = some kind ∧ messageKind m = some kind ∧ Sized m ∧
      State.step E c i = State.handOver E c m := by
  rcases hi with rfl | ⟨rfl, hcert⟩
  · refine ⟨.connectReq, .request, rfl, rfl, fun _ heq => (by cases heq), ?_⟩
    simp only [State.step]
    rw [if_pos hplace]
    simp only [State.handled, State.sstpStateStart]
    rw [if_pos hmode]
    rfl
  · obtain ⟨certHash, hcert⟩ := Option.isSome_iff_exists.mp hcert
    refine ⟨.connected certHash, .connected, rfl, rfl,
      fun _ heq => (by cases heq; exact certHash.property), ?_⟩
    simp only [State.step]
    rw [if_pos hplace]
    simp only [State.handled, State.sstpStateAccept]
    rw [if_pos hmode, hcert]
    rfl

/-- **What a step preserves** in which no message of the handshake blocks. -/
theorem inv_step (h : Inv E c ts) (hC : NotBlocked E c i) :
    Inv E (State.step E c i).1 (ts ++ [⟨c, i, (State.step E c i).1, (State.step E c i).2⟩]) := by
  have hready' := ready_step (E := E) h.ready i
  cases StateSpec.step_spec E c i with
  | still heq hevents =>
    rw [heq, hevents]
    rw [heq] at hready'
    by_cases hp : inputKind i = none ∨ c.stream.place ≠ .idle
    · exact h.stays hp hready' (fun _ => rfl) (by simp)
    · -- what asks for a message at rest does not go by unseen
      push Not at hp
      obtain ⟨kind, hkind⟩ := Option.ne_none_iff_exists'.mp hp.1
      have hne : (State.step E c i).2 ≠ [] := by
        cases i with
        | start =>
          obtain ⟨m, -, -, -, hm, hstep⟩ := handle_kind (E := E) hp.2 (.inl rfl) h.mode
          obtain ⟨b, hb, -⟩ := h.ready.handed (E := E) hm
          rw [hstep, handOver_eq hb]
          exact List.cons_ne_nil _ _
        | accept =>
          by_cases hcert : (E.certHash c.st.proto).isSome
          · obtain ⟨m, -, -, -, hm, hstep⟩ := handle_kind (E := E) hp.2 (.inr ⟨rfl, hcert⟩) h.mode
            obtain ⟨b, hb, -⟩ := h.ready.handed (E := E) hm
            rw [hstep, handOver_eq hb]
            exact List.cons_ne_nil _ _
          · simp only [State.step]
            rw [if_pos hp.2]
            simp only [State.handled, State.sstpStateAccept]
            rw [if_pos h.mode, Option.not_isSome_iff_eq_none.mp hcert]
            exact List.cons_ne_nil _ _
        | _ => cases hkind
      exact absurd hevents hne
  | stream j hi hbuild hsend heq =>
    subst hi
    have hstep : State.step E c (.stream j) = State.streamStep c (Stream.step c.stream j) := heq
    rw [hstep] at hready' ⊢
    exact h.stream hC hready'
  | overrun hplace hh heq hevents =>
    have hi : inputKind i = none := by
      cases i with
      | start => cases hh
      | accept => cases hh
      | _ => rfl
    rw [heq, hevents]
    rw [heq] at hready'
    exact h.stays (.inl hi) hready' (fun _ => rfl) (by simp)
  | ran r hplace hh hspec heq =>
    have hstep : State.step E c i = State.handle E c r := heq
    rw [hstep] at hready' ⊢
    cases hspec with
    | start hi hmode =>
      refine h.opens hplace (by rw [hi]; rfl) rfl (fun _ heq => (by cases heq)) ?_ hready'
      exact hC.free hplace (.inl hi)
    | accept certHash hi hmode hcert =>
      refine h.opens hplace (by rw [hi]; rfl) rfl
        (fun _ heq => (by cases heq; exact certHash.property)) ?_ hready'
      exact hC.free hplace (.inr ⟨hi, by rw [hcert]; rfl⟩)
    | noHash hi hmode hcert => exact h.quiet hplace (.noHash hi hmode hcert) rfl
    | acked proto nounce hack => exact h.quiet hplace (.acked proto nounce hack) rfl
    | answers st' m hi hack hm hkept hforward => exact h.answers hplace hi hm hkept hready'
    | quiet st' signals forwards hi hack hkept hforward hconnect =>
      exact h.quiet hplace (.quiet st' signals forwards hi hack hkept hforward hconnect) rfl

/-- After `SSTP_INPROG` the call is aborted. -/
lemma afterSend_inprog {m : Message} {kind : Kind} (hm : messageKind m = some kind)
    (st : State.SstpState) : (State.afterSend m .inprog st).2 = [.abort] := by
  cases m with
  | connectReq => rfl
  | connected certHash => rfl
  | _ => cases hm

/-- A message of the handshake that blocks is aborted while its write goes on. -/
lemma not_signalled {kind : Kind} {call : ℕ} {c' : Session}
    (hends : endsIn call events = [.inprog]) (hsig : signals events = [.abort])
    (hbefore : ends call ts = []) (hh : Handed kind call (ts ++ [⟨c, i, c', events⟩])) :
    ¬ Signalled E (ts ++ [⟨c, i, c', events⟩]) := by
  intro hgood
  have htold := hgood.told kind call hh
  rw [ends_snoc, told_snoc, hbefore, told_eq_nil hbefore] at htold
  dsimp only at htold
  rw [hends, hsig] at htold
  cases kind <;> cases htold

/-- **What a step spoils** in which a message of the handshake blocks. -/
theorem bad_step (h : Inv E c ts) (hC : ¬ NotBlocked E c i) :
    ¬ Signalled E (ts ++ [⟨c, i, (State.step E c i).1, (State.step E c i).2⟩]) := by
  by_cases hfree : c.stream.place = .idle →
      i = .start ∨ i = .accept ∧ (E.certHash c.st.proto).isSome → c.stream.evSend = none
  · have hgoes : ¬ ∀ m, c.waits = some m → (messageKind m).isSome →
        ∀ r, i = .stream (.write r) → ¬ r.Blocked := fun hgoes => hC ⟨hfree, hgoes⟩
    push Not at hgoes
    obtain ⟨m, hm, hsome, r, rfl, hr⟩ := hgoes
    obtain ⟨kind, hkind⟩ := Option.isSome_iff_exists.mp hsome
    obtain ⟨call, hplace, hiff⟩ := h.waiting m hm
    have hh : Handed kind call ts := (hiff kind).mpr hkind
    obtain ⟨a, cell, cache, cells, ev, hw⟩ := sslWrite_blocked txBuf call 10 hr
    have hstep : State.step E c (.stream (.write r)) =
        State.streamStep c (Stream.sslWrite c.stream txBuf call 10 .handler r) := by
      simp only [State.step, Stream.step, hplace]
    rw [hw, streamStep_returned hm rfl rfl] at hstep
    rw [hstep]
    refine not_signalled ?_ ?_ ?_ (handed_snoc.mpr (.inl hh))
    · rw [endsIn_append, endsIn_signals, List.append_nil]
      simp [endsIn]
    · rw [signals_append, signals_stream, signals_map, List.nil_append, afterSend_inprog hkind]
    · rcases h.handed kind call hh with ⟨he, -⟩ | ⟨hu, -⟩
      · exact he
      · exact absurd rfl (hu (txBuf, call) (users_writing hplace ▸ List.mem_cons_self))
  · push Not at hfree
    obtain ⟨hplace, hi, hev⟩ := hfree
    obtain ⟨m, kind, hik, hkind, hsized, hstep⟩ := handle_kind hplace hi h.mode
    obtain ⟨b, hb, -⟩ := h.ready.handed (E := E) hsized
    obtain ⟨cell, cache, cells, ev, heq⟩ := handOver_pending hb hev
    rw [hstep, heq, afterSend_inprog hkind]
    refine not_signalled (by simp [endsIn]) rfl
      (h.bound _ (le_refl _)).1 (handed_snoc.mpr (.inr ⟨hik, StreamSpec.remaining b, ?_⟩))
    simp

end Step

/-! ### Whole runs -/

lemma inv_create (E : Env) (bufs : ℕ → Buff) : Inv E (sstpCreate .client bufs) [] where
  ready := ready_create .client bufs
  mode := rfl
  distinct := distinct_init _
  sent := fun t ht => (List.not_mem_nil ht).elim
  bound := fun call _ => ⟨rfl, fun kind ⟨t, ht, _⟩ => List.not_mem_nil ht⟩
  waiting := fun m hm => by cases hm
  handed := fun kind call ⟨t, ht, _⟩ => (List.not_mem_nil ht).elim

/-- **Aborted is what failed, established what was written**, all along a run, exactly when no
message of the handshake blocks. -/
theorem signalled_iff_notBlocked (E : Env) (bufs : ℕ → Buff) (inputs : List Input) :
    (∀ js, js <+: inputs → Signalled E (trace (State.step E) (sstpCreate .client bufs) js)) ↔
      Along (State.step E) (NotBlocked E) (sstpCreate .client bufs) inputs := by
  rw [← along_traced]
  exact run_always_iff (Inv E) (fun _ ts => Signalled E ts) (fun _ _ h => h.signalled)
    (fun c ts i h hC => inv_step h hC) (fun c ts i h hC => bad_step h hC) (inv_create E bufs)

/-- A Call-Connect-Request whose write blocks: the call is aborted. -/
theorem blocked_request_aborted : ¬ ∀ js, js <+: [.start, .stream (.write .wantWrite)] →
    Signalled plainEnv (trace (State.step plainEnv)
      (sstpCreate .client fun _ => sstpBuffCreate 0) js) := by
  intro hall
  have h0 := inv_create plainEnv fun _ => sstpBuffCreate 0
  have hC : NotBlocked plainEnv (sstpCreate .client fun _ => sstpBuffCreate 0) .start :=
    ⟨fun _ _ => rfl, fun m hm => by cases hm⟩
  obtain ⟨m, kind, -, hkind, hm, hstep⟩ := handle_kind (E := plainEnv)
    (c := sstpCreate .client fun _ => sstpBuffCreate 0) rfl (.inl rfl) rfl
  obtain ⟨b, hb, -⟩ := h0.ready.handed (E := plainEnv) hm
  have h1 := inv_step h0 hC
  have hbad : ¬ NotBlocked plainEnv
      (State.step plainEnv (sstpCreate .client fun _ => sstpBuffCreate 0) .start).1
      (.stream (.write .wantWrite)) := by
    rw [hstep, handOver_idle hb rfl]
    exact fun hn => hn.goesOn m rfl (by rw [hkind]; rfl) .wantWrite rfl (.inr rfl)
  have hgood := hall _ (List.prefix_refl _)
  rw [trace_cons, trace_cons, trace_nil] at hgood
  exact bad_step h1 hbad hgood

end SstpClient.Handshake
