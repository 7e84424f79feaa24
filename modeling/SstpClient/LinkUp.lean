import SstpClient.MppeKeys

/-!
When `SSTP_PPP_UP` means an authenticated link.

The notification waits for CCP and for an address, and is made once. It does not look at LCP,
at CHAP or at the keys: that these came before depends on the order of the server's frames.
-/

namespace SstpClient.LinkUp

open SstpClient.Lib.Bytes SstpClient.Lib.Machine SstpClient.Ppp SstpClient.PppSpec
open SstpClient.MppeKeys (somePrims)

/-- The contexts in which `SSTP_PPP_UP` is notified. -/
def ups (outs : List Out) : List Pppd :=
  outs.filterMap fun
    | .notify .up ctx => some ctx
    | _ => none

@[simp] lemma ups_nil : ups [] = [] := rfl

@[simp] lemma ups_append (o o' : List Out) : ups (o ++ o') = ups o ++ ups o' :=
  List.filterMap_append

/-! ### The frames that complete the negotiation -/

/-- An IPCP frame after which CCP is settled and there is an address. -/
def CompletesIpcp (p : List UInt8) (ctx : Pppd) : Prop :=
  4 ≤ p.length ∧
    ((ctx.ccpDone = false ∧ ctx.authDone = true ∧ ctx.ipConfigured = true ∧ ctx.localIp ≠ 0) ∨
      (p.getD 0 0 = fsmConfAck ∧ (ctx.ccpDone = true ∨ ctx.authDone = true) ∧
        (readOptions setLocalIp p ctx).localIp ≠ 0))

/-- A CCP frame that settles CCP. -/
def SettlesCcp (p : List UInt8) : Prop :=
  4 ≤ p.length ∧ ((p.getD 0 0 = fsmConfReq ∧ (body p).length ≤ 64) ∨ p.getD 0 0 = fsmConfAck ∨
    p.getD 0 0 = fsmConfRej ∨ p.getD 0 0 = fsmConfNak)

/-- The input is the first frame that completes the negotiation. -/
def Completes (ctx : Pppd) : Input → Prop
  | .frame bytes _ =>
    ctx.upNotified = false ∧ ∃ p,
      (parseFrame bytes = some (protoIpcp, p) ∧ CompletesIpcp p ctx) ∨
      (parseFrame bytes = some (protoCcp, p) ∧ SettlesCcp p ∧ ctx.ipConfigured = true ∧
        ctx.localIp ≠ 0)
  | .sendIp _ => False

/-! ### Parts that do not notify -/

/-- A part that does not notify and leaves the flag alone. -/
structure Quiet (f : Act) : Prop where
  upNotified : ∀ ctx, (f ctx).1.upNotified = ctx.upNotified
  ups : ∀ ctx, ups (f ctx).2 = []

lemma Quiet.seq {f g : Act} (hf : Quiet f) (hg : Quiet g) : Quiet (f.seq g) := by
  refine ⟨fun ctx => ?_, fun ctx => ?_⟩
  · rw [seq_fst, hg.upNotified, hf.upNotified]
  · rw [seq_snd, ups_append, hf.ups, hg.ups, List.append_nil]

lemma quiet_skip : Quiet skip := ⟨fun _ => rfl, fun _ => rfl⟩

lemma quiet_notify {e : PppdEvent} (h : e ≠ .up) : Quiet (notify e) := by
  refine ⟨fun _ => rfl, fun _ => ?_⟩
  cases e with
  | up => exact absurd rfl h
  | _ => rfl

lemma quiet_update (h : Pppd → Pppd) (hh : ∀ ctx, (h ctx).upNotified = ctx.upNotified) :
    Quiet (update h) := ⟨hh, fun _ => rfl⟩

lemma ups_pppSendFrame (proto : ℕ) (payload : List UInt8) :
    ups (pppSendFrame proto payload).2 = [] := by
  unfold pppSendFrame
  split_ifs <;> rfl

lemma quiet_sendFrame (proto : ℕ) (payload : List UInt8) : Quiet (sendFrame proto payload) :=
  ⟨fun _ => rfl, fun _ => ups_pppSendFrame _ _⟩

lemma quiet_sendLcpConfReq : Quiet sendLcpConfReq :=
  ⟨fun _ => rfl, fun _ => ups_pppSendFrame _ _⟩

lemma quiet_sendIpcpConfReq : Quiet sendIpcpConfReq :=
  ⟨fun _ => rfl, fun _ => ups_pppSendFrame _ _⟩

lemma quiet_sendCcpConfReq : Quiet sendCcpConfReq :=
  ⟨fun _ => rfl, fun _ => ups_pppSendFrame _ _⟩

lemma composes_quiet : Composes Quiet where
  skip := quiet_skip
  seq := Quiet.seq
  ofForall := by
    intro f h
    refine ⟨fun ctx => ?_, fun ctx => ?_⟩
    · obtain ⟨g, hg, heq⟩ := h ctx
      rw [heq, hg.upNotified]
    · obtain ⟨g, hg, heq⟩ := h ctx
      rw [heq, hg.ups]

lemma quiet_handleLcp (buf : List UInt8) : Quiet (handleLcp buf) :=
  composes_quiet.handleLcp (quiet_sendFrame _) quiet_sendLcpConfReq
    (quiet_update _ fun _ => rfl) (quiet_notify (by decide)) buf

variable (P : Prims)

lemma quiet_iosPppdAuth : Quiet (iosPppdAuth P) := by
  refine composes_quiet.ofForall fun ctx => ?_
  unfold iosPppdAuth
  cases P.mppeGet ctx.chap with
  | none => exact ⟨skip, quiet_skip, rfl⟩
  | some keys =>
    exact ⟨_, quiet_update (fun ctx => { ctx with mppe := sstpPppdSetMppeKeys keys ctx.mppe })
      fun _ => rfl, rfl⟩

lemma quiet_chapRespond (peerChallenge buf : List UInt8) :
    Quiet (chapRespond P peerChallenge buf) := by
  refine composes_quiet.ofForall fun ctx => ?_
  have hset : Quiet (update (setChap (buf.getD 1 0) (chapOf P peerChallenge buf ctx))) :=
    quiet_update _ fun _ => rfl
  have hauth : Quiet (notify .auth) := quiet_notify (by decide)
  exact ⟨_, hset.seq ((quiet_sendFrame _ _).seq (hauth.seq (quiet_iosPppdAuth P))), rfl⟩

lemma quiet_handleChap (peerChallenge buf : List UInt8) : Quiet (handleChap P peerChallenge buf) :=
  composes_quiet.handleChap P (quiet_update _ fun _ => rfl) quiet_sendCcpConfReq
    (quiet_notify (by decide)) (quiet_chapRespond P peerChallenge buf)

lemma quiet_mppeDecrypt (d : Direction) (buf : List UInt8) : Quiet (mppeDecrypt P d buf) := by
  refine ⟨fun ctx => ?_, fun ctx => ?_⟩
  · unfold mppeDecrypt
    split_ifs <;> rfl
  · unfold mppeDecrypt
    split_ifs
    · rfl
    · dsimp only
      split
      · split_ifs <;> rfl
      · rfl

lemma quiet_handleMppe (buf : List UInt8) : Quiet (handleMppe P buf) := by
  refine composes_quiet.ofForall fun ctx => ?_
  unfold handleMppe
  split_ifs
  · exact ⟨skip, quiet_skip, rfl⟩
  · split
    · exact ⟨emit .hang, ⟨fun _ => rfl, fun _ => rfl⟩, rfl⟩
    · exact ⟨_, quiet_mppeDecrypt P _ buf, rfl⟩

/-! ### Parts that may notify -/

/-- The notification is made, in a context that has what `ctx` has of LCP and the keys. -/
structure Notified (ctx : Pppd) (r : Pppd × List Out) : Prop where
  upNotified : r.1.upNotified = true
  ups : ∃ c, ups r.2 = [c] ∧ c.lcpOpened = ctx.lcpOpened ∧
    c.mppe.keysSet = ctx.mppe.keysSet ∧ c.ccpDone = true ∧ c.localIp ≠ 0

/-- The notification is not made. -/
structure Waits (ctx : Pppd) (r : Pppd × List Out) : Prop where
  upNotified : r.1.upNotified = ctx.upNotified
  ups : ups r.2 = []

lemma Quiet.waits {f : Act} (hf : Quiet f) (ctx : Pppd) : Waits ctx (f ctx) :=
  ⟨hf.upNotified ctx, hf.ups ctx⟩

section Seq

variable {f g : Act} {ctx : Pppd}

lemma Waits.seq (hf : Waits ctx (f ctx)) (hg : Waits (f ctx).1 (g (f ctx).1)) :
    Waits ctx (f.seq g ctx) := by
  refine ⟨by rw [seq_fst, hg.upNotified, hf.upNotified], ?_⟩
  rw [seq_snd, ups_append, hf.ups, hg.ups, List.append_nil]

lemma Notified.seq (hf : Notified ctx (f ctx)) (hg : Waits (f ctx).1 (g (f ctx).1)) :
    Notified ctx (f.seq g ctx) := by
  obtain ⟨c, hc, hrest⟩ := hf.ups
  refine ⟨by rw [seq_fst, hg.upNotified, hf.upNotified], c, ?_, hrest⟩
  rw [seq_snd, ups_append, hc, hg.ups, List.append_nil]

lemma Waits.then_notified (hf : Waits ctx (f ctx)) (hlcp : (f ctx).1.lcpOpened = ctx.lcpOpened)
    (hkeys : (f ctx).1.mppe.keysSet = ctx.mppe.keysSet)
    (hg : Notified (f ctx).1 (g (f ctx).1)) : Notified ctx (f.seq g ctx) := by
  obtain ⟨c, hc, hc1, hc2, hc3⟩ := hg.ups
  refine ⟨hg.upNotified, c, ?_, hc1.trans hlcp, hc2.trans hkeys, hc3⟩
  rw [seq_snd, ups_append, hf.ups, hc, List.nil_append]

end Seq

/-- What `maybe_notify_up` asks for. -/
def Ready (ctx : Pppd) : Prop :=
  ctx.upNotified = false ∧ ctx.ipConfigured = true ∧ ctx.localIp ≠ 0

lemma maybeNotifyUp_ready {ctx : Pppd} (h : Ready ctx) (hccp : ctx.ccpDone = true) :
    maybeNotifyUp ctx = (setUpNotified ctx, [.notify .up (setUpNotified ctx)]) := by
  obtain ⟨hup, hip, hlocal⟩ := h
  unfold maybeNotifyUp
  rw [if_neg (by simp [hup]), if_neg (by simp [hip, hlocal]), if_neg (by simp [hccp])]
  rfl

lemma maybeNotifyUp_notified {ctx : Pppd} (h : Ready ctx) (hccp : ctx.ccpDone = true) :
    Notified ctx (maybeNotifyUp ctx) := by
  rw [maybeNotifyUp_ready h hccp]
  exact ⟨rfl, _, rfl, rfl, rfl, hccp, h.2.2⟩

lemma maybeNotifyUp_waits {ctx : Pppd} (h : ¬ (Ready ctx ∧ ctx.ccpDone = true)) :
    maybeNotifyUp ctx = (ctx, []) := by
  unfold maybeNotifyUp
  split_ifs with hup hip hccp
  · rfl
  · rfl
  · exfalso
    rw [not_or] at hip
    exact h ⟨⟨by simpa using hup, not_not.mp hip.1, hip.2⟩, hccp⟩
  · rfl

/-- `ccp_finished` up to its call of `maybe_notify_up`. -/
def ccpSettled : Act := fun ctx =>
  if ctx.ccpDone then (ctx, [])
  else ((update setCcpDone).seq (if ctx.authDone then sendIpcpConfReq else skip)) ctx

lemma ccpFinished_eq : ccpFinished = ccpSettled.seq maybeNotifyUp := by
  funext ctx
  by_cases hccp : ctx.ccpDone = true
  · have hsettled : ccpSettled ctx = (ctx, []) := if_pos hccp
    rw [ccpFinished, if_pos hccp, Act.seq, hsettled]
    rfl
  · have hsettled : ccpSettled ctx =
        ((update setCcpDone).seq (if ctx.authDone then sendIpcpConfReq else skip)) ctx :=
      if_neg hccp
    rw [ccpFinished, if_neg hccp]
    simp only [Act.seq, hsettled, List.append_assoc]

lemma ccpSettled_fst (ctx : Pppd) :
    ∃ id, (ccpSettled ctx).1 = { ctx with ccpDone := true, ipcpId := id } := by
  unfold ccpSettled
  split_ifs with hccp hauth
  · exact ⟨ctx.ipcpId, by rw [← hccp]⟩
  · exact ⟨_, rfl⟩
  · exact ⟨_, rfl⟩

lemma waits_ccpSettled (ctx : Pppd) : Waits ctx (ccpSettled ctx) := by
  unfold ccpSettled
  split_ifs
  · exact ⟨rfl, rfl⟩
  · exact ((quiet_update setCcpDone fun _ => rfl).seq quiet_sendIpcpConfReq).waits ctx
  · exact ((quiet_update setCcpDone fun _ => rfl).seq quiet_skip).waits ctx

lemma notified_ccpFinished {ctx : Pppd} (h : Ready ctx) : Notified ctx (ccpFinished ctx) := by
  obtain ⟨id, hid⟩ := ccpSettled_fst ctx
  rw [ccpFinished_eq]
  refine (waits_ccpSettled ctx).then_notified (by rw [hid]) (by rw [hid]) ?_
  rw [hid]
  exact maybeNotifyUp_notified h rfl

lemma ccpFinished_not_ready {ctx : Pppd} (h : ¬ Ready ctx) :
    ccpFinished ctx = ccpSettled ctx := by
  obtain ⟨id, hid⟩ := ccpSettled_fst ctx
  have hnot : ¬ (Ready (ccpSettled ctx).1 ∧ (ccpSettled ctx).1.ccpDone = true) := by
    rw [hid]
    exact fun hr => h hr.1
  rw [ccpFinished_eq, Act.seq, maybeNotifyUp_waits hnot, List.append_nil]

/-! ### The options of an IPCP packet -/

lemma ipcpOptions_keeps {set : UInt8 → ℕ → Pppd → Pppd} {α : Type} (proj : Pppd → α)
    (hset : ∀ t v ctx, proj (set t v ctx) = proj ctx) (buf : List UInt8) (fuel pos : ℕ)
    (ctx : Pppd) : proj (ipcpOptions set buf fuel pos ctx) = proj ctx := by
  induction fuel generalizing pos ctx with
  | zero => rfl
  | succ fuel ih =>
    simp only [ipcpOptions]
    split_ifs
    · rfl
    · rw [ih, hset]
    · rw [ih]
    · rfl

/-- What the options do not touch. -/
def untouched (ctx : Pppd) : Bool × Bool × Bool × Bool × Bool :=
  (ctx.upNotified, ctx.ccpDone, ctx.lcpOpened, ctx.mppe.keysSet, ctx.ipConfigured)

lemma untouched_setLocalIp (t : UInt8) (v : ℕ) (ctx : Pppd) :
    untouched (setLocalIp t v ctx) = untouched ctx := by
  unfold setLocalIp
  split_ifs <;> rfl

lemma untouched_setPeerIp (t : UInt8) (v : ℕ) (ctx : Pppd) :
    untouched (setPeerIp t v ctx) = untouched ctx := by
  unfold setPeerIp
  split_ifs <;> rfl

lemma localIp_setLocalIp {t : UInt8} {v : ℕ} {ctx ctx' : Pppd} (h : ctx.localIp = ctx'.localIp) :
    (setLocalIp t v ctx).localIp = (setLocalIp t v ctx').localIp := by
  unfold setLocalIp
  split_ifs
  · rfl
  · exact h
  · exact h
  · exact h

/-- The address read depends on no other field. -/
lemma localIp_readOptions (buf : List UInt8) {ctx ctx' : Pppd} (h : ctx.localIp = ctx'.localIp) :
    (readOptions setLocalIp buf ctx).localIp = (readOptions setLocalIp buf ctx').localIp := by
  have hloop : ∀ fuel pos, ∀ c c' : Pppd, c.localIp = c'.localIp →
      (ipcpOptions setLocalIp (body buf) fuel pos c).localIp =
        (ipcpOptions setLocalIp (body buf) fuel pos c').localIp := by
    intro fuel
    induction fuel with
    | zero => exact fun _ _ _ hc => hc
    | succ fuel ih =>
      intro pos c c' hc
      simp only [ipcpOptions]
      split_ifs
      · exact hc
      · exact ih _ _ _ (localIp_setLocalIp hc)
      · exact ih _ _ _ hc
      · exact hc
  exact hloop _ _ _ _ h

/-! ### The handlers that may notify -/

lemma untouched_readOptions {set : UInt8 → ℕ → Pppd → Pppd}
    (hset : ∀ t v ctx, untouched (set t v ctx) = untouched ctx) (buf : List UInt8) (ctx : Pppd) :
    untouched (readOptions set buf ctx) = untouched ctx :=
  ipcpOptions_keeps untouched hset _ _ _ _

lemma quiet_readOptions {set : UInt8 → ℕ → Pppd → Pppd}
    (hset : ∀ t v ctx, untouched (set t v ctx) = untouched ctx) (buf : List UInt8) :
    Quiet (update (readOptions set buf)) :=
  quiet_update _ fun ctx => congrArg Prod.fst (untouched_readOptions hset buf ctx)

/-- The acknowledgement notifies if CCP is settled and an address is there. -/
lemma ipcpAcked_spec (ctx : Pppd) :
    (ctx.upNotified = false ∧ ctx.ccpDone = true ∧ ctx.localIp ≠ 0 →
        Notified ctx (ipcpAcked ctx)) ∧
      (¬ (ctx.upNotified = false ∧ ctx.ccpDone = true ∧ ctx.localIp ≠ 0) →
        Waits ctx (ipcpAcked ctx)) := by
  constructor
  · rintro ⟨hup, hccp, hip⟩
    unfold ipcpAcked
    rw [if_pos hip]
    have hset : Waits ctx (update setIpConfigured ctx) := ⟨rfl, rfl⟩
    refine hset.then_notified rfl rfl (maybeNotifyUp_notified ?_ hccp)
    exact ⟨hup, rfl, hip⟩
  · intro hnot
    unfold ipcpAcked
    split_ifs with hip
    · have hset : Waits ctx (update setIpConfigured ctx) := ⟨rfl, rfl⟩
      refine hset.seq ?_
      rw [update_eq, maybeNotifyUp_waits]
      · exact ⟨rfl, rfl⟩
      · rintro ⟨⟨hup, -, -⟩, hccp⟩
        exact hnot ⟨hup, hccp, hip⟩
    · exact ⟨rfl, rfl⟩

/-- The condition on which the `switch` of `handle_ipcp` notifies. -/
def SwitchCompletes (buf : List UInt8) (ctx : Pppd) : Prop :=
  buf.getD 0 0 = fsmConfAck ∧ ctx.upNotified = false ∧ ctx.ccpDone = true ∧
    (readOptions setLocalIp buf ctx).localIp ≠ 0

lemma ipcpSwitch_notified {buf : List UInt8} {ctx : Pppd} (h : SwitchCompletes buf ctx) :
    Notified ctx (ipcpSwitch buf ctx) := by
  obtain ⟨hcode, hup, hccp, hip⟩ := h
  have hkeep := untouched_readOptions untouched_setLocalIp buf ctx
  simp only [untouched, Prod.mk.injEq] at hkeep
  have hne : ¬ buf.getD 0 0 = fsmConfReq := by
    rw [hcode]
    decide
  unfold ipcpSwitch
  rw [if_neg hne, if_pos hcode]
  refine ((quiet_readOptions untouched_setLocalIp buf).waits ctx).then_notified hkeep.2.2.1
    hkeep.2.2.2.1 ((ipcpAcked_spec _).1 ⟨?_, ?_, hip⟩)
  · exact hkeep.1.trans hup
  · exact hkeep.2.1.trans hccp

lemma ipcpSwitch_waits {buf : List UInt8} {ctx : Pppd} (h : ¬ SwitchCompletes buf ctx) :
    Waits ctx (ipcpSwitch buf ctx) := by
  unfold ipcpSwitch
  split_ifs with hreq h128 hack hnak
  · exact ((quiet_readOptions untouched_setPeerIp buf).seq quiet_skip).waits ctx
  · exact ((quiet_readOptions untouched_setPeerIp buf).seq (quiet_sendFrame _ _)).waits ctx
  · have hkeep := untouched_readOptions untouched_setLocalIp buf ctx
    simp only [untouched, Prod.mk.injEq] at hkeep
    refine ((quiet_readOptions untouched_setLocalIp buf).waits ctx).seq ((ipcpAcked_spec _).2 ?_)
    rintro ⟨hup, hccp, hip⟩
    exact h ⟨hack, hkeep.1.symm.trans hup, hkeep.2.1.symm.trans hccp, hip⟩
  · exact ((quiet_readOptions untouched_setLocalIp buf).seq quiet_sendIpcpConfReq).waits ctx
  · exact quiet_skip.waits ctx

lemma waits_mppeDisable (ctx : Pppd) : Waits ctx (update mppeDisable ctx) := ⟨rfl, rfl⟩

/-- Peers that skip CCP: the part of `handle_ipcp` before its `switch` may notify itself, or it
settles CCP, or it does nothing. -/
lemma ipcpBeforeCcp_spec (ctx : Pppd) :
    (ctx.ccpDone = false ∧ ctx.authDone = true ∧ Ready ctx ∧ Notified ctx (ipcpBeforeCcp ctx)) ∨
      (¬ (ctx.ccpDone = false ∧ ctx.authDone = true ∧ Ready ctx) ∧
        Waits ctx (ipcpBeforeCcp ctx) ∧
        ∃ id enabled, (ipcpBeforeCcp ctx).1 =
          { ctx with
              ccpDone := ctx.ccpDone || ctx.authDone, ipcpId := id,
              mppe := { ctx.mppe with enabled := enabled } }) := by
  unfold ipcpBeforeCcp
  split_ifs with hskip
  · have hccp : ctx.ccpDone = false := by simpa using hskip.1
    by_cases hready : Ready ctx
    · refine .inl ⟨hccp, hskip.2, hready, (waits_mppeDisable ctx).then_notified rfl rfl ?_⟩
      exact notified_ccpFinished hready
    · have heq : ccpFinished (mppeDisable ctx) = ccpSettled (mppeDisable ctx) :=
        ccpFinished_not_ready hready
      obtain ⟨id, hid⟩ := ccpSettled_fst (mppeDisable ctx)
      refine .inr ⟨fun h => hready h.2.2, (waits_mppeDisable ctx).seq ?_, id, false, ?_⟩
      · rw [update_eq, heq]
        exact waits_ccpSettled _
      · have hdone : (ctx.ccpDone || ctx.authDone) = true := by rw [hskip.2, Bool.or_true]
        rw [seq_fst, update_eq, heq, hid, hdone]
        rfl
  · refine .inr ⟨fun h => hskip ⟨by simp [h.1], h.2.1⟩, ⟨rfl, rfl⟩, ctx.ipcpId, ctx.mppe.enabled, ?_⟩
    have hdone : (ctx.ccpDone || ctx.authDone) = ctx.ccpDone := by
      cases hc : ctx.ccpDone <;> cases ha : ctx.authDone <;> simp [hc, ha] at hskip ⊢
    rw [hdone]

lemma handleIpcp_notified {buf : List UInt8} {ctx : Pppd} (hup : ctx.upNotified = false)
    (h : CompletesIpcp buf ctx) : Notified ctx (handleIpcp buf ctx) := by
  obtain ⟨h4, h⟩ := h
  unfold handleIpcp
  rw [if_neg (by omega)]
  rcases ipcpBeforeCcp_spec ctx with ⟨-, -, -, hn⟩ | ⟨hnot, hw, id, enabled, heq⟩
  · refine hn.seq (ipcpSwitch_waits ?_)
    rintro ⟨-, hup', -⟩
    rw [hn.upNotified] at hup'
    cases hup'
  · rcases h with ⟨hccp, hauth, hip, hlocal⟩ | ⟨hcode, hccp, hlocal⟩
    · exact absurd ⟨hccp, hauth, hup, hip, hlocal⟩ hnot
    · have hsame : (ipcpBeforeCcp ctx).1.localIp = ctx.localIp := by rw [heq]
      refine hw.then_notified (by rw [heq]) (by rw [heq]) (ipcpSwitch_notified ⟨hcode, ?_, ?_, ?_⟩)
      · rw [heq]
        exact hup
      · rw [heq]
        simpa using hccp
      · rwa [localIp_readOptions buf hsame]

lemma handleIpcp_waits {buf : List UInt8} {ctx : Pppd}
    (h : ¬ (ctx.upNotified = false ∧ CompletesIpcp buf ctx)) : Waits ctx (handleIpcp buf ctx) := by
  unfold handleIpcp
  split_ifs with h4
  · exact quiet_skip.waits ctx
  · rcases ipcpBeforeCcp_spec ctx with ⟨hccp, hauth, hready, -⟩ | ⟨hnot, hw, id, enabled, heq⟩
    · exact absurd ⟨hready.1, by omega, .inl ⟨hccp, hauth, hready.2⟩⟩ h
    · refine hw.seq (ipcpSwitch_waits ?_)
      rintro ⟨hcode, hup, hccp, hlocal⟩
      have hsame : (ipcpBeforeCcp ctx).1.localIp = ctx.localIp := by rw [heq]
      rw [localIp_readOptions buf hsame] at hlocal
      rw [heq] at hup hccp
      exact h ⟨hup, by omega, .inr ⟨hcode, by simpa using hccp, hlocal⟩⟩

lemma keysSet_mppeInitKeys (m : Mppe) : (mppeInitKeys P m).keysSet = m.keysSet := by
  unfold mppeInitKeys
  split_ifs <;> rfl

/-- A part before `ccp_finished` that leaves its flags alone. -/
structure BeforeFinished (f : Act) : Prop where
  quiet : Quiet f
  untouched : ∀ ctx, untouched (f ctx).1 = untouched ctx
  localIp : ∀ ctx, (f ctx).1.localIp = ctx.localIp

section Finished

variable {P} {f : Act} {ctx : Pppd}

lemma BeforeFinished.ready_iff (hf : BeforeFinished f) (ctx : Pppd) :
    Ready (f ctx).1 ↔ Ready ctx := by
  have hkeep := hf.untouched ctx
  simp only [LinkUp.untouched, Prod.mk.injEq] at hkeep
  unfold Ready
  rw [hkeep.1, hkeep.2.2.2.2, hf.localIp ctx]

lemma BeforeFinished.notified (hf : BeforeFinished f) (h : Ready ctx) :
    Notified ctx ((f.seq ccpFinished) ctx) := by
  have hkeep := hf.untouched ctx
  simp only [LinkUp.untouched, Prod.mk.injEq] at hkeep
  exact (hf.quiet.waits ctx).then_notified hkeep.2.2.1 hkeep.2.2.2.1
    (notified_ccpFinished ((hf.ready_iff ctx).mpr h))

lemma BeforeFinished.waits (hf : BeforeFinished f) (h : ¬ Ready ctx) :
    Waits ctx ((f.seq ccpFinished) ctx) := by
  refine (hf.quiet.waits ctx).seq ?_
  rw [ccpFinished_not_ready fun hr => h ((hf.ready_iff ctx).mp hr)]
  exact waits_ccpSettled _

end Finished

lemma beforeFinished_mppeDisable : BeforeFinished (update mppeDisable) :=
  ⟨quiet_update _ fun _ => rfl, fun _ => rfl, fun _ => rfl⟩

lemma beforeFinished_mppeInit : BeforeFinished (update (mppeInit P)) := by
  refine ⟨quiet_update _ fun _ => rfl, fun ctx => ?_, fun _ => rfl⟩
  simp only [untouched, update_eq, mppeInit, keysSet_mppeInitKeys]

lemma beforeFinished_sendFrame_seq {f : Act} (hf : BeforeFinished f) (payload : List UInt8) :
    BeforeFinished ((sendFrame protoCcp payload).seq f) := by
  refine ⟨(quiet_sendFrame _ _).seq hf.quiet, fun ctx => ?_, fun ctx => ?_⟩
  · rw [seq_fst, hf.untouched, sendFrame_fst]
  · rw [seq_fst, hf.localIp, sendFrame_fst]

/-- `handle_ccp` ignores the packet, or calls `ccp_finished` after a part that leaves the flags
alone. -/
lemma handleCcp_eq (buf : List UInt8) :
    (SettlesCcp buf ∧ ∃ f, BeforeFinished f ∧ handleCcp P buf = f.seq ccpFinished) ∨
      (¬ SettlesCcp buf ∧ handleCcp P buf = skip) := by
  unfold handleCcp
  split_ifs with h4 hreq h64 hack hrej
  · exact .inr ⟨fun h => by have := h.1; omega, rfl⟩
  · refine .inr ⟨?_, rfl⟩
    rintro ⟨-, ⟨-, h⟩ | h | h | h⟩
    · omega
    · exact absurd (hreq.symm.trans h) (by decide)
    · exact absurd (hreq.symm.trans h) (by decide)
    · exact absurd (hreq.symm.trans h) (by decide)
  · refine .inl ⟨⟨by omega, .inl ⟨hreq, by omega⟩⟩, _,
      beforeFinished_sendFrame_seq (beforeFinished_mppeInit P) (reply buf fsmConfAck), ?_⟩
    funext ctx
    simp only [Act.seq, List.append_assoc]
  · exact .inl ⟨⟨by omega, .inr (.inl hack)⟩, _, beforeFinished_mppeInit P, rfl⟩
  · exact .inl ⟨⟨by omega, .inr (.inr hrej)⟩, _, beforeFinished_mppeDisable, rfl⟩
  · refine .inr ⟨?_, rfl⟩
    rintro ⟨-, ⟨h, -⟩ | h | h⟩
    · exact hreq h
    · exact hack h
    · exact hrej h

/-! ### One step -/

lemma frame_notified {ctx : Pppd} {bytes peerChallenge : List UInt8}
    (h : Completes ctx (.frame bytes peerChallenge)) :
    Notified ctx (pppDispatch P peerChallenge bytes ctx) := by
  obtain ⟨hup, p, ⟨hp, hc⟩ | ⟨hp, hc, hip, hlocal⟩⟩ := h
  · have heq : pppDispatch P peerChallenge bytes ctx = handleIpcp p ctx := by
      rw [pppDispatch, hp]
      rfl
    rw [heq]
    exact handleIpcp_notified hup hc
  · have heq : pppDispatch P peerChallenge bytes ctx = handleCcp P p ctx := by
      rw [pppDispatch, hp]
      rfl
    rw [heq]
    rcases handleCcp_eq P p with ⟨-, f, hf, hccp⟩ | ⟨hnot, -⟩
    · rw [hccp]
      exact hf.notified ⟨hup, hip, hlocal⟩
    · exact absurd hc hnot

lemma frame_waits {ctx : Pppd} {bytes peerChallenge : List UInt8}
    (h : ¬ Completes ctx (.frame bytes peerChallenge)) :
    Waits ctx (pppDispatch P peerChallenge bytes ctx) := by
  unfold pppDispatch
  cases hp : parseFrame bytes with
  | none => exact quiet_skip.waits ctx
  | some pp =>
    obtain ⟨proto, p⟩ := pp
    dsimp only
    split_ifs with hlcp hchap hipcp hccp
    · exact (quiet_handleLcp p).waits ctx
    · exact (quiet_handleChap P peerChallenge p).waits ctx
    · subst hipcp
      exact handleIpcp_waits fun hc => h ⟨hc.1, p, .inl ⟨hp, hc.2⟩⟩
    · subst hccp
      rcases handleCcp_eq P p with ⟨hs, f, hf, heq⟩ | ⟨-, heq⟩
      · rw [heq]
        exact hf.waits fun hr => h ⟨hr.1, p, .inr ⟨hp, hs, hr.2⟩⟩
      · rw [heq]
        exact quiet_skip.waits ctx
    · exact (quiet_handleMppe P p).waits ctx
    · exact ⟨rfl, rfl⟩
    · exact quiet_skip.waits ctx

lemma sendIp_waits (ip : List UInt8) (ctx : Pppd) : Waits ctx (sstpPppdSendIp P ip ctx).2 := by
  unfold sstpPppdSendIp pppSendIpPlainOrMppe
  split_ifs
  · exact ⟨rfl, rfl⟩
  · exact ⟨rfl, ups_pppSendFrame _ _⟩
  · exact ⟨rfl, ups_pppSendFrame _ _⟩

/-- **The notification** is made by the first frame that completes the negotiation, and by no
other input. -/
theorem step_up (ctx : Pppd) (i : Input) :
    (Completes ctx i → Notified ctx (step P ctx i)) ∧
      (¬ Completes ctx i → Waits ctx (step P ctx i)) := by
  cases i with
  | frame bytes peerChallenge => exact ⟨frame_notified P, frame_waits P⟩
  | sendIp ip => exact ⟨False.elim, fun _ => sendIp_waits P ip ctx⟩

/-! ### Authentication -/

/-- A Challenge that `handle_chap` answers with a Response. -/
def Challenged : Input → Prop
  | .frame bytes _ => ∃ p, parseFrame bytes = some (protoChap, p) ∧ AnswersChallenge p
  | .sendIp _ => False

/-- A Success. -/
def Succeeded : Input → Prop
  | .frame bytes _ =>
    ∃ p, parseFrame bytes = some (protoChap, p) ∧ 5 ≤ p.length ∧ p.getD 0 0 = chapSuccess
  | .sendIp _ => False

/-- A Success came after a Challenge that was answered. -/
def Authenticated (seen : List Input) : Prop :=
  ∃ challenge success, [challenge, success].Sublist seen ∧ Challenged challenge ∧ Succeeded success

lemma length_chapResponseBody_le {chap : Chap}
    (h : chap.challenge.length = 16 ∧ chap.response.length = 8 ∧ chap.ntResponse.length = 24)
    (id : UInt8) (username : List UInt8) : (chapResponseBody id chap username).length ≤ mru := by
  have hname : (username.take 200).length ≤ 200 := List.length_take_le _ _
  simp only [chapResponseBody, List.length_append, List.length_cons, List.length_nil,
    length_toBe16, h.1, h.2.1, h.2.2]
  unfold mru
  omega

/-! ### Runs -/

/-- The endpoint and what it was given so far. -/
structure Link where
  ctx : Pppd
  seen : List Input

/-- What the endpoint does, and what it was given before. -/
structure Event where
  out : Out
  seen : List Input
  deriving DecidableEq

def linkStep (s : Link) (i : Input) : Link × List Event :=
  (⟨(step P s.ctx i).1, s.seen ++ [i]⟩, (step P s.ctx i).2.map fun o => ⟨o, s.seen⟩)

/-- After `sstp_pppd_start`. -/
def started (magic : ℕ) (user password : List UInt8) : Link :=
  ⟨(sstpPppdStart user password (sstpPppdCreate magic)).1, []⟩

/-- `SSTP_PPP_UP` comes once at most, and with LCP opened, the client authenticated, the keys set,
CCP settled and an address. -/
structure UpAuthenticated (events : List Event) : Prop where
  once : (ups (events.map Event.out)).length ≤ 1
  link : ∀ c seen, ⟨.notify .up c, seen⟩ ∈ events →
    c.lcpOpened = true ∧ Authenticated seen ∧ c.mppe.keysSet = true ∧ c.ccpDone = true ∧
      c.localIp ≠ 0

/-- The condition on a step: an input that completes the negotiation finds LCP opened, the keys
set and the client authenticated. -/
def InOrder (s : Link) (i : Input) : Prop :=
  Completes s.ctx i →
    s.ctx.lcpOpened = true ∧ s.ctx.mppe.keysSet = true ∧ Authenticated s.seen

/-- The notifications made were proper ones, and none was made before the flag was set. -/
def Inv (s : Link) (events : List Event) : Prop :=
  UpAuthenticated events ∧ (s.ctx.upNotified = false → ups (events.map Event.out) = [])

lemma mem_ups {c : Pppd} {outs : List Out} : c ∈ ups outs ↔ .notify .up c ∈ outs := by
  unfold ups
  rw [List.mem_filterMap]
  constructor
  · rintro ⟨o, ho, heq⟩
    split at heq
    · cases heq
      exact ho
    · cases heq
  · exact fun h => ⟨_, h, rfl⟩

lemma ups_linkStep (s : Link) (i : Input) :
    ups ((linkStep P s i).2.map Event.out) = ups (step P s.ctx i).2 := by
  simp only [linkStep, List.map_map]
  congr 1
  exact List.map_id _

lemma mem_linkStep {s : Link} {i : Input} {c : Pppd} {seen : List Input}
    (h : ⟨.notify .up c, seen⟩ ∈ (linkStep P s i).2) : c ∈ ups (step P s.ctx i).2 ∧ seen = s.seen := by
  obtain ⟨o, ho, heq⟩ := List.mem_map.mp h
  rw [Event.mk.injEq] at heq
  obtain ⟨rfl, rfl⟩ := heq
  exact ⟨mem_ups.mpr ho, rfl⟩

variable {P}

lemma linkStep_inv {s : Link} {events : List Event} {i : Input} (h : Inv s events)
    (hC : InOrder s i) : Inv (linkStep P s i).1 (events ++ (linkStep P s i).2) := by
  obtain ⟨⟨honce, hlink⟩, hnone⟩ := h
  by_cases hc : Completes s.ctx i
  · obtain ⟨hup', c, hups, hlcp, hkeys, hccp, hip⟩ := (step_up P s.ctx i).1 hc
    have hup : s.ctx.upNotified = false := by
      cases i with
      | frame bytes peerChallenge => exact hc.1
      | sendIp ip => exact hc.elim
    obtain ⟨hlcp', hkeys', hauth⟩ := hC hc
    have hnew : ups ((events ++ (linkStep P s i).2).map Event.out) = [c] := by
      rw [List.map_append, ups_append, ups_linkStep, hups, hnone hup, List.nil_append]
    refine ⟨⟨by rw [hnew]; exact le_refl 1, fun c' seen hmem => ?_⟩, fun hfalse => ?_⟩
    · rcases List.mem_append.mp hmem with hmem | hmem
      · exact hlink c' seen hmem
      · obtain ⟨hmem', rfl⟩ := mem_linkStep P hmem
        rw [hups, List.mem_singleton] at hmem'
        subst hmem'
        exact ⟨hlcp.trans hlcp', hauth, hkeys.trans hkeys', hccp, hip⟩
    · exact absurd (hup'.symm.trans hfalse) (by decide)
  · obtain ⟨hup', hups⟩ := (step_up P s.ctx i).2 hc
    have hsame : ups ((events ++ (linkStep P s i).2).map Event.out) =
        ups (events.map Event.out) := by
      rw [List.map_append, ups_append, ups_linkStep, hups, List.append_nil]
    refine ⟨⟨by rwa [hsame], fun c seen hmem => ?_⟩, fun hfalse => ?_⟩
    · rcases List.mem_append.mp hmem with hmem | hmem
      · exact hlink c seen hmem
      · have hmem := (mem_linkStep P hmem).1
        rw [hups] at hmem
        cases hmem
    · rw [hsame]
      exact hnone (hup'.symm.trans hfalse)

/-- A step out of order notifies on a link that is not authenticated. -/
lemma linkStep_outOfOrder {s : Link} {events : List Event} {i : Input} (hC : ¬ InOrder s i) :
    ¬ UpAuthenticated (events ++ (linkStep P s i).2) := by
  intro h
  refine hC fun hc => ?_
  obtain ⟨-, c, hups, hlcp, hkeys, -, -⟩ := (step_up P s.ctx i).1 hc
  have hmem : .notify .up c ∈ (step P s.ctx i).2 :=
    mem_ups.mp (hups ▸ List.mem_singleton_self c)
  obtain ⟨hlcp', hauth, hkeys', -⟩ := h.link c s.seen
    (List.mem_append_right _ (List.mem_map.mpr ⟨_, hmem, rfl⟩))
  exact ⟨hlcp.symm.trans hlcp', hkeys.symm.trans hkeys', hauth⟩

variable (P)

/-- **Link-up means an authenticated link** exactly in the runs in which the frame that completes
the negotiation comes after LCP was opened, the keys were set and a Success answered the
Response. -/
theorem upAuthenticated_iff_inOrder (magic : ℕ) (user password : List UInt8)
    (inputs : List Input) :
    UpAuthenticated (run (linkStep P) (started magic user password) inputs).2 ↔
      Along (linkStep P) InOrder (started magic user password) inputs := by
  have h0 : Inv (started magic user password) [] := ⟨⟨by simp, by simp⟩, fun _ => rfl⟩
  refine run_good_iff Inv UpAuthenticated (fun s h hi => hi.1) (fun h o hg => ?_)
    (fun s h i => linkStep_inv) (fun s h i _ => linkStep_outOfOrder) h0
  refine ⟨?_, fun c seen hmem => hg.link c seen (List.mem_append_left _ hmem)⟩
  have honce := hg.once
  rw [List.map_append, ups_append, List.length_append] at honce
  omega

/-! ### A server that skips LCP and CHAP -/

/-- A Configure-Request for CCP and an acknowledgement of the address 10.0.0.1. -/
def skipping : List Input :=
  [.frame [0xff, 0x03, 0x80, 0xfd, 1, 1, 0, 4] [],
    .frame [0xff, 0x03, 0x80, 0x21, 2, 1, 0, 10, 3, 6, 10, 0, 0, 1] []]

/-- **Two frames are enough** for the notification: LCP is not opened, nobody is authenticated. -/
theorem skipping_not_upAuthenticated :
    ¬ UpAuthenticated (run (linkStep somePrims) (started 0 [] []) skipping).2 := by
  intro h
  have hmem : ⟨.notify .up (run (linkStep somePrims) (started 0 [] []) skipping).1.ctx,
      skipping.take 1⟩ ∈ (run (linkStep somePrims) (started 0 [] []) skipping).2 :=
    List.mem_of_getLast? rfl
  exact Bool.false_ne_true (h.link _ _ hmem).1

end SstpClient.LinkUp
