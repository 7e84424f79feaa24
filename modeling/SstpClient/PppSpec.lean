import SstpClient.Ppp

/-!
What each handler does to the MPPE keys, and which frames carry MPPE packets.
-/

namespace SstpClient.PppSpec

open SstpClient.Lib.Bytes SstpClient.Lib.Machine SstpClient.Lib.Ratchet SstpClient.Ppp

/-! ### Parts of handlers -/

section Parts

variable (f g : Act) (ctx : Pppd)

@[simp] lemma seq_fst : (f.seq g ctx).1 = (g (f ctx).1).1 := rfl

@[simp] lemma seq_snd : (f.seq g ctx).2 = (f ctx).2 ++ (g (f ctx).1).2 := rfl

@[simp] lemma update_eq (h : Pppd → Pppd) : update h ctx = (h ctx, []) := rfl

@[simp] lemma skip_eq : skip ctx = (ctx, []) := rfl

@[simp] lemma emit_eq (o : Out) : emit o ctx = (ctx, [o]) := rfl

@[simp] lemma notify_eq (e : PppdEvent) : notify e ctx = (ctx, [.notify e ctx]) := rfl

@[simp] lemma sendFrame_fst (proto : ℕ) (payload : List UInt8) :
    (sendFrame proto payload ctx).1 = ctx := rfl

end Parts

/-- What `ppp_send_frame` builds is a frame of its protocol. -/
lemma parseFrame_of_proto {proto : ℕ} (h : proto < 65536)
    (heven : UInt8.ofNat (proto / 256) &&& 1 = 0) (p : List UInt8) :
    parseFrame ([0xff, 0x03] ++ toBe16 proto ++ p) = some (proto, p) := by
  have hstrip : stripAddress ([0xff, 0x03] ++ toBe16 proto ++ p) =
      UInt8.ofNat (proto / 256) :: UInt8.ofNat proto :: p := rfl
  have hlen : ([0xff, 0x03] ++ toBe16 proto ++ p).length = p.length + 4 := by
    simp only [List.length_append, length_toBe16, List.length_cons, List.length_nil]
    omega
  rw [parseFrame, hlen, if_neg (by omega), hstrip, if_neg (by simp), protocol,
    if_neg (not_not.mpr heven), be16_ofNat, Nat.mod_eq_of_lt h]

/-! ### What holds of the parts holds of a handler -/

/-- A property of parts that holds of what is put together from parts that have it. -/
structure Composes (R : Act → Prop) : Prop where
  skip : R skip
  seq : ∀ {f g}, R f → R g → R (f.seq g)
  /-- A part that looks at the context first. -/
  ofForall : ∀ {f : Act}, (∀ ctx, ∃ g, R g ∧ f ctx = g ctx) → R f

section Composes

variable {R : Act → Prop} (hR : Composes R) (P : Prims)
include hR

lemma Composes.handleLcp (hsend : ∀ payload, R (sendFrame protoLcp payload))
    (hreq : R sendLcpConfReq) (hopen : R (update setLcpOpened)) (hdown : R (notify .down))
    (buf : List UInt8) : R (handleLcp buf) := by
  refine hR.ofForall fun ctx => ?_
  unfold Ppp.handleLcp
  split_ifs
  · exact ⟨_, hR.skip, rfl⟩
  · exact ⟨_, hR.skip, rfl⟩
  · exact ⟨_, hR.seq (hsend _) hR.skip, rfl⟩
  · exact ⟨_, hR.seq (hsend _) hreq, rfl⟩
  · exact ⟨_, hopen, rfl⟩
  · exact ⟨_, hreq, rfl⟩
  · exact ⟨_, hR.seq (hsend _) hdown, rfl⟩
  · exact ⟨_, hR.skip, rfl⟩
  · exact ⟨_, hsend _, rfl⟩
  · exact ⟨_, hR.skip, rfl⟩

lemma Composes.handleChap (hdone : R (update setAuthDone)) (hreq : R sendCcpConfReq)
    (hfail : R (notify .authFail)) {peerChallenge buf : List UInt8}
    (hrespond : R (chapRespond P peerChallenge buf)) : R (handleChap P peerChallenge buf) := by
  unfold Ppp.handleChap
  split_ifs
  · exact hR.skip
  · exact hR.seq hdone hreq
  · exact hfail
  · exact hR.skip
  · exact hR.skip
  · exact hrespond

lemma Composes.maybeNotifyUp (hset : R (update setUpNotified)) (hup : R (notify .up)) :
    R maybeNotifyUp := by
  refine hR.ofForall fun ctx => ?_
  unfold Ppp.maybeNotifyUp
  split_ifs
  · exact ⟨_, hR.skip, rfl⟩
  · exact ⟨_, hR.skip, rfl⟩
  · exact ⟨_, hR.seq hset hup, rfl⟩
  · exact ⟨_, hR.skip, rfl⟩

lemma Composes.ccpFinished (hset : R (update setCcpDone)) (hreq : R sendIpcpConfReq)
    (hup : R Ppp.maybeNotifyUp) : R ccpFinished := by
  refine hR.ofForall fun ctx => ?_
  unfold Ppp.ccpFinished
  split_ifs
  · exact ⟨_, hup, rfl⟩
  · exact ⟨_, hR.seq hset (hR.seq hreq hup), rfl⟩
  · exact ⟨_, hR.seq hset (hR.seq hR.skip hup), rfl⟩

lemma Composes.ipcpAcked (hset : R (update setIpConfigured)) (hup : R Ppp.maybeNotifyUp) :
    R ipcpAcked := by
  refine hR.ofForall fun ctx => ?_
  unfold Ppp.ipcpAcked
  split_ifs
  · exact ⟨_, hR.seq hset hup, rfl⟩
  · exact ⟨_, hR.skip, rfl⟩

lemma Composes.ipcpSwitch {buf : List UInt8} (hpeer : R (update (readOptions setPeerIp buf)))
    (hlocal : R (update (readOptions setLocalIp buf)))
    (hsend : ∀ payload, R (sendFrame protoIpcp payload)) (hreq : R sendIpcpConfReq)
    (hacked : R Ppp.ipcpAcked) : R (ipcpSwitch buf) := by
  unfold Ppp.ipcpSwitch
  split_ifs
  · exact hR.seq hpeer hR.skip
  · exact hR.seq hpeer (hsend _)
  · exact hR.seq hlocal hacked
  · exact hR.seq hlocal hreq
  · exact hR.skip

end Composes

/-- The MPPE packets among the frames. -/
def mppeFrames (outs : List Out) : List (List UInt8) :=
  outs.filterMap fun
    | .frame bytes => if (bytes.drop 2).take 2 = toBe16 protoMppe then some bytes else none
    | _ => none

@[simp] lemma mppeFrames_nil : mppeFrames [] = [] := rfl

@[simp] lemma mppeFrames_append (o o' : List Out) :
    mppeFrames (o ++ o') = mppeFrames o ++ mppeFrames o' := List.filterMap_append

/-- No MPPE packet is sent, and no loop goes on for ever. -/
structure Silent (outs : List Out) : Prop where
  frames : mppeFrames outs = []
  ends : .hang ∉ outs

lemma silent_nil : Silent [] := ⟨rfl, by simp⟩

lemma Silent.append {o o' : List Out} (h : Silent o) (h' : Silent o') : Silent (o ++ o') := by
  refine ⟨by rw [mppeFrames_append, h.frames, h'.frames, List.append_nil], fun hmem => ?_⟩
  rcases List.mem_append.mp hmem with hmem | hmem
  · exact h.ends hmem
  · exact h'.ends hmem

/-- A control frame is no MPPE packet. -/
lemma silent_pppSendFrame {proto : ℕ} (h : toBe16 proto ≠ toBe16 protoMppe)
    (payload : List UInt8) : Silent (pppSendFrame proto payload).2 := by
  unfold pppSendFrame
  split_ifs
  · exact silent_nil
  · have htake : (([0xff, 0x03] ++ toBe16 proto ++ payload).drop 2).take 2 = toBe16 proto := rfl
    refine ⟨?_, by simp⟩
    simp only [mppeFrames, List.filterMap_cons, htake, if_neg h, List.filterMap_nil]

/-- A part of a handler that leaves the MPPE keys alone, sends no MPPE packet and ends. -/
structure NoMppe (f : Act) : Prop where
  mppe : ∀ ctx, (f ctx).1.mppe = ctx.mppe
  silent : ∀ ctx, Silent (f ctx).2

lemma NoMppe.seq {f g : Act} (hf : NoMppe f) (hg : NoMppe g) : NoMppe (f.seq g) := by
  refine ⟨fun ctx => ?_, fun ctx => ?_⟩
  · rw [seq_fst, hg.mppe, hf.mppe]
  · exact (hf.silent ctx).append (hg.silent _)

lemma noMppe_skip : NoMppe skip := ⟨fun _ => rfl, fun _ => silent_nil⟩

lemma noMppe_notify (e : PppdEvent) : NoMppe (notify e) := ⟨fun _ => rfl, fun _ => ⟨rfl, by simp⟩⟩

lemma noMppe_update (h : Pppd → Pppd) (hh : ∀ ctx, (h ctx).mppe = ctx.mppe) : NoMppe (update h) :=
  ⟨hh, fun _ => silent_nil⟩

lemma noMppe_sendFrame {proto : ℕ} (h : toBe16 proto ≠ toBe16 protoMppe) (payload : List UInt8) :
    NoMppe (sendFrame proto payload) :=
  ⟨fun _ => rfl, fun _ => silent_pppSendFrame h payload⟩

lemma composes_noMppe : Composes NoMppe where
  skip := noMppe_skip
  seq := NoMppe.seq
  ofForall := by
    intro f h
    refine ⟨fun ctx => ?_, fun ctx => ?_⟩
    · obtain ⟨g, hg, heq⟩ := h ctx
      rw [heq, hg.mppe]
    · obtain ⟨g, hg, heq⟩ := h ctx
      rw [heq]
      exact hg.silent ctx

lemma noMppe_sendLcpConfReq : NoMppe sendLcpConfReq :=
  ⟨fun _ => rfl, fun _ => silent_pppSendFrame (by decide) _⟩

lemma noMppe_sendIpcpConfReq : NoMppe sendIpcpConfReq :=
  ⟨fun _ => rfl, fun _ => silent_pppSendFrame (by decide) _⟩

lemma noMppe_sendCcpConfReq : NoMppe sendCcpConfReq :=
  ⟨fun _ => rfl, fun _ => silent_pppSendFrame (by decide) _⟩

lemma noMppe_maybeNotifyUp : NoMppe maybeNotifyUp :=
  composes_noMppe.maybeNotifyUp (noMppe_update _ fun _ => rfl) (noMppe_notify .up)

lemma noMppe_ccpFinished : NoMppe ccpFinished :=
  composes_noMppe.ccpFinished (noMppe_update _ fun _ => rfl) noMppe_sendIpcpConfReq
    noMppe_maybeNotifyUp

/-! ### Handlers that leave the keys alone -/

lemma noMppe_handleLcp (buf : List UInt8) : NoMppe (handleLcp buf) :=
  composes_noMppe.handleLcp (noMppe_sendFrame (by decide)) noMppe_sendLcpConfReq
    (noMppe_update _ fun _ => rfl) (noMppe_notify .down) buf

lemma ipcpOptions_mppe {set : UInt8 → ℕ → Pppd → Pppd}
    (hset : ∀ t v ctx, (set t v ctx).mppe = ctx.mppe) (buf : List UInt8) (fuel pos : ℕ)
    (ctx : Pppd) : (ipcpOptions set buf fuel pos ctx).mppe = ctx.mppe := by
  induction fuel generalizing pos ctx with
  | zero => rfl
  | succ fuel ih =>
    simp only [ipcpOptions]
    split_ifs
    · rfl
    · rw [ih, hset]
    · rw [ih]
    · rfl

lemma readOptions_mppe {set : UInt8 → ℕ → Pppd → Pppd}
    (hset : ∀ t v ctx, (set t v ctx).mppe = ctx.mppe) (buf : List UInt8) (ctx : Pppd) :
    (readOptions set buf ctx).mppe = ctx.mppe := ipcpOptions_mppe hset _ _ _ _

lemma setPeerIp_mppe (t : UInt8) (v : ℕ) (ctx : Pppd) : (setPeerIp t v ctx).mppe = ctx.mppe := by
  unfold setPeerIp
  split_ifs <;> rfl

lemma setLocalIp_mppe (t : UInt8) (v : ℕ) (ctx : Pppd) : (setLocalIp t v ctx).mppe = ctx.mppe := by
  unfold setLocalIp
  split_ifs <;> rfl

lemma noMppe_ipcpAcked : NoMppe ipcpAcked :=
  composes_noMppe.ipcpAcked (noMppe_update _ fun _ => rfl) noMppe_maybeNotifyUp

lemma noMppe_ipcpSwitch (buf : List UInt8) : NoMppe (ipcpSwitch buf) :=
  composes_noMppe.ipcpSwitch (noMppe_update _ (readOptions_mppe setPeerIp_mppe buf))
    (noMppe_update _ (readOptions_mppe setLocalIp_mppe buf)) (noMppe_sendFrame (by decide))
    noMppe_sendIpcpConfReq noMppe_ipcpAcked

/-! ### Handlers that touch the keys -/

/-- `handle_ccp` runs `mppe_init_keys`. -/
def InitsKeys (buf : List UInt8) : Prop :=
  4 ≤ buf.length ∧
    (buf.getD 0 0 = fsmConfReq ∧ (body buf).length ≤ 64 ∨ buf.getD 0 0 = fsmConfAck)

/-- `handle_chap` answers a challenge. -/
def AnswersChallenge (buf : List UInt8) : Prop :=
  5 ≤ buf.length ∧ buf.getD 0 0 = chapChallenge ∧ 16 ≤ (buf.getD 4 0).toNat ∧
    5 + (buf.getD 4 0).toNat ≤ buf.length

instance (buf : List UInt8) : Decidable (InitsKeys buf) := by
  unfold InitsKeys
  infer_instance

instance (buf : List UInt8) : Decidable (AnswersChallenge buf) := by
  unfold AnswersChallenge
  infer_instance

variable (P : Prims)

/-- The keys with which `handle_chap` leaves the context, if it sets any. -/
def chapKeys (peerChallenge buf : List UInt8) (ctx : Pppd) : Option (List UInt8 × List UInt8) :=
  if AnswersChallenge buf then P.mppeGet (chapOf P peerChallenge buf ctx) else none

lemma mppe_disable_seq {f : Act} (hf : NoMppe f) (ctx : Pppd) :
    ((update mppeDisable).seq f ctx).1.mppe = { ctx.mppe with enabled := false } ∧
      Silent ((update mppeDisable).seq f ctx).2 := by
  rw [seq_fst, hf.mppe]
  exact ⟨rfl, silent_nil.append (hf.silent _)⟩

lemma mppe_handleIpcp (buf : List UInt8) (ctx : Pppd) :
    ((handleIpcp buf ctx).1.mppe = ctx.mppe ∨
        (handleIpcp buf ctx).1.mppe = { ctx.mppe with enabled := false }) ∧
      Silent (handleIpcp buf ctx).2 := by
  unfold handleIpcp
  split_ifs
  · exact ⟨.inl rfl, silent_nil⟩
  · have hswitch := noMppe_ipcpSwitch buf
    rw [seq_fst, hswitch.mppe, seq_snd]
    unfold ipcpBeforeCcp
    split_ifs
    · obtain ⟨hm, hs⟩ := mppe_disable_seq noMppe_ccpFinished ctx
      exact ⟨.inr hm, hs.append (hswitch.silent _)⟩
    · exact ⟨.inl rfl, silent_nil.append (hswitch.silent _)⟩

lemma mppe_init_seq {f : Act} (hf : NoMppe f) (ctx : Pppd) :
    ((update (mppeInit P)).seq f ctx).1.mppe = mppeInitKeys P ctx.mppe ∧
      Silent ((update (mppeInit P)).seq f ctx).2 := by
  rw [seq_fst, hf.mppe]
  exact ⟨rfl, silent_nil.append (hf.silent _)⟩

lemma mppe_handleCcp_init {buf : List UInt8} (h : InitsKeys buf) (ctx : Pppd) :
    (handleCcp P buf ctx).1.mppe = mppeInitKeys P ctx.mppe ∧ Silent (handleCcp P buf ctx).2 := by
  have hinit := mppe_init_seq P noMppe_ccpFinished ctx
  obtain ⟨h4, ⟨hreq, h64⟩ | hack⟩ := h
  · unfold handleCcp
    rw [if_neg (by omega), if_pos hreq, if_neg (by omega)]
    exact ⟨hinit.1, (silent_pppSendFrame (by decide) _).append hinit.2⟩
  · unfold handleCcp
    have hne : ¬ buf.getD 0 0 = fsmConfReq := by
      rw [hack]
      decide
    rw [if_neg (by omega), if_neg hne, if_pos hack]
    exact hinit

lemma mppe_handleCcp_other {buf : List UInt8} (h : ¬ InitsKeys buf) (ctx : Pppd) :
    ((handleCcp P buf ctx).1.mppe = ctx.mppe ∨
        (handleCcp P buf ctx).1.mppe = { ctx.mppe with enabled := false }) ∧
      Silent (handleCcp P buf ctx).2 := by
  unfold handleCcp
  split_ifs with h4 hreq h64 hack
  · exact ⟨.inl rfl, silent_nil⟩
  · exact ⟨.inl rfl, silent_nil⟩
  · exact absurd ⟨by omega, .inl ⟨hreq, by omega⟩⟩ h
  · exact absurd ⟨by omega, .inr hack⟩ h
  · obtain ⟨hm, hs⟩ := mppe_disable_seq noMppe_ccpFinished ctx
    exact ⟨.inr hm, hs⟩
  · exact ⟨.inl rfl, silent_nil⟩

lemma mppe_iosPppdAuth (ctx : Pppd) :
    (iosPppdAuth P ctx).1.mppe = (match P.mppeGet ctx.chap with
      | none => ctx.mppe
      | some keys => sstpPppdSetMppeKeys keys ctx.mppe) ∧ (iosPppdAuth P ctx).2 = [] := by
  unfold iosPppdAuth
  cases P.mppeGet ctx.chap <;> exact ⟨rfl, rfl⟩

lemma mppe_handleChap (peerChallenge buf : List UInt8) (ctx : Pppd) :
    (handleChap P peerChallenge buf ctx).1.mppe = (match chapKeys P peerChallenge buf ctx with
      | none => ctx.mppe
      | some keys => sstpPppdSetMppeKeys keys ctx.mppe) ∧
      Silent (handleChap P peerChallenge buf ctx).2 := by
  by_cases h : AnswersChallenge buf
  · have hkeys : chapKeys P peerChallenge buf ctx = P.mppeGet (chapOf P peerChallenge buf ctx) :=
      if_pos h
    obtain ⟨h5, hcode, h16, hlen⟩ := h
    unfold handleChap
    rw [if_neg (by omega), if_neg (not_not.mpr hcode), if_neg (by omega), hkeys]
    have hauth := mppe_iosPppdAuth P
      (setChap (buf.getD 1 0) (chapOf P peerChallenge buf ctx) ctx)
    refine ⟨hauth.1, ?_⟩
    simp only [chapRespond, seq_snd, update_eq, sendFrame_fst, notify_eq, hauth.2]
    exact silent_nil.append ((silent_pppSendFrame (by decide) _).append ⟨rfl, by simp⟩)
  · have hkeys : chapKeys P peerChallenge buf ctx = none := if_neg h
    rw [hkeys]
    unfold handleChap
    split_ifs with h5 hcode hsucc hfail hsize
    · exact ⟨rfl, silent_nil⟩
    · have hno := (noMppe_update setAuthDone fun _ => rfl).seq noMppe_sendCcpConfReq
      exact ⟨hno.mppe ctx, hno.silent ctx⟩
    · exact ⟨rfl, (noMppe_notify .authFail).silent ctx⟩
    · exact ⟨rfl, silent_nil⟩
    · exact ⟨rfl, silent_nil⟩
    · exact absurd ⟨by omega, not_not.mp hcode, by omega, by omega⟩ h

/-! ### The loop of `handle_mppe` -/

lemma ccountOf_lt (buf : List UInt8) : ccountOf buf < 4096 := by
  have h1 : (buf.getD 0 0 &&& 0x0f).toNat ≤ 15 := by
    rw [UInt8.toNat_and]
    exact Nat.and_le_right
  have h2 := (buf.getD 1 0).toNat_lt
  unfold ccountOf
  omega

/-- **The loop ends** for every count of twelve bits, after as many steps as the counts are
apart. -/
theorem catchUp_eq {ccount : ℕ} (h : ccount < 4096) {d : Direction} (hd : d.ccount < 4096) :
    catchUp P ccount 4096 d = some ((advance P)^[gap 4096 d.ccount ccount] d) :=
  loopUntil_counter (fun _ => rfl) h hd (gap_lt (by decide)).le

lemma mppeDecrypt_spec (d : Direction) (buf : List UInt8) (ctx : Pppd) :
    (∃ k, (mppeDecrypt P d buf ctx).1 =
        { ctx with mppe := { ctx.mppe with recv := { d with rc4 := k } } }) ∧
      Silent (mppeDecrypt P d buf ctx).2 := by
  unfold mppeDecrypt
  split_ifs with hover
  · exact ⟨⟨d.rc4, rfl⟩, rfl, by simp⟩
  · refine ⟨⟨_, rfl⟩, ?_⟩
    dsimp only
    split
    · split_ifs
      · exact ⟨rfl, by simp⟩
      · exact silent_nil
    · exact silent_nil

lemma ccount_iterate (n : ℕ) {d : Direction} (hd : d.ccount < 4096) :
    ((advance P)^[n] d).ccount < 4096 := by
  cases n with
  | zero => exact hd
  | succ n =>
    rw [Function.iterate_succ_apply']
    exact Nat.mod_lt _ (by decide)

lemma handleMppe_recv (buf : List UInt8) (ctx : Pppd) :
    (∃ d, (handleMppe P buf ctx).1.mppe = { ctx.mppe with recv := d }) ∧
      mppeFrames (handleMppe P buf ctx).2 = [] := by
  unfold handleMppe
  split_ifs
  · exact ⟨⟨ctx.mppe.recv, rfl⟩, rfl⟩
  · split
    · exact ⟨⟨ctx.mppe.recv, rfl⟩, rfl⟩
    · next d _ =>
      obtain ⟨⟨k, hk⟩, hs⟩ := mppeDecrypt_spec P d buf ctx
      exact ⟨⟨_, by rw [hk]⟩, hs.frames⟩

/-- `handle_mppe` touches the receiving direction only, whose count stays one of twelve bits. -/
lemma mppe_handleMppe (buf : List UInt8) {ctx : Pppd} (hd : ctx.mppe.recv.ccount < 4096) :
    (∃ d, (handleMppe P buf ctx).1 = { ctx with mppe := { ctx.mppe with recv := d } } ∧
      d.ccount < 4096) ∧ Silent (handleMppe P buf ctx).2 := by
  unfold handleMppe
  split_ifs
  · exact ⟨⟨ctx.mppe.recv, rfl, hd⟩, silent_nil⟩
  · rw [catchUp_eq P (ccountOf_lt buf) hd]
    obtain ⟨⟨k, hk⟩, hs⟩ := mppeDecrypt_spec P
      ((advance P)^[gap 4096 ctx.mppe.recv.ccount (ccountOf buf)] ctx.mppe.recv) buf ctx
    exact ⟨⟨_, hk, ccount_iterate P _ hd⟩, hs⟩

/-! ### One step -/

/-- The keys a step sets. -/
def derivedKeys (ctx : Pppd) : Input → Option (List UInt8 × List UInt8)
  | .frame bytes peerChallenge =>
    match parseFrame bytes with
    | some (proto, p) => if proto = protoChap then chapKeys P peerChallenge p ctx else none
    | none => none
  | .sendIp _ => none

/-- The step runs `mppe_init_keys`. -/
def Reinits : Input → Prop
  | .frame bytes _ => ∃ p, parseFrame bytes = some (protoCcp, p) ∧ InitsKeys p
  | .sendIp _ => False

/-- The frame that carries `ip` under the keys `d`. -/
def sentPacket (d : Direction) (ip : List UInt8) : List UInt8 :=
  [0xff, 0x03] ++ toBe16 protoMppe ++
    ([0x90 ||| UInt8.ofNat (d.ccount / 256), UInt8.ofNat d.ccount] ++
      (rc4 P d.rc4 (toBe16 protoIp ++ ip)).1)

/-- What a step can do to the MPPE state, and the MPPE packets it sends. -/
inductive MppeStep (ctx : Pppd) (i : Input) (m' : Mppe) (frames : List (List UInt8)) : Prop
  | derived (keys : List UInt8 × List UInt8) (hkeys : derivedKeys P ctx i = some keys)
    (hinit : ¬ Reinits i) (hm : m' = sstpPppdSetMppeKeys keys ctx.mppe) (hf : frames = [])
  | inited (hkeys : derivedKeys P ctx i = none) (hinit : Reinits i)
    (hm : m' = mppeInitKeys P ctx.mppe) (hf : frames = [])
  | sent (ip : List UInt8) (hi : i = .sendIp ip) (henabled : ctx.mppe.enabled = true)
    (hsize : 0 < ip.length ∧ ip.length ≤ mru - 4)
    (hm : ∃ k, m' = { ctx.mppe with send := { advance P ctx.mppe.send with rc4 := k } })
    (hf : frames = [sentPacket P (advance P ctx.mppe.send) ip])
  | other (hkeys : derivedKeys P ctx i = none) (hinit : ¬ Reinits i)
    (hsend : m'.send = ctx.mppe.send) (hset : m'.keysSet = ctx.mppe.keysSet)
    (henabled : m'.enabled = true → ctx.mppe.enabled = true) (hf : frames = [])

lemma frame_mppeStep (bytes peerChallenge : List UInt8) (ctx : Pppd) :
    MppeStep P ctx (.frame bytes peerChallenge) (pppDispatch P peerChallenge bytes ctx).1.mppe
      (mppeFrames (pppDispatch P peerChallenge bytes ctx).2) := by
  unfold pppDispatch
  cases hp : parseFrame bytes with
  | none =>
    refine .other (by simp only [derivedKeys, hp]) ?_ rfl rfl (fun h => h) rfl
    rintro ⟨p, hp', -⟩
    simp [hp] at hp'
  | some pp =>
    obtain ⟨proto, p⟩ := pp
    -- only CHAP derives keys, only CCP runs `mppe_init_keys`
    have hkeys : proto ≠ protoChap → derivedKeys P ctx (.frame bytes peerChallenge) = none := by
      intro hne
      simp only [derivedKeys, hp, if_neg hne]
    have hinit : proto ≠ protoCcp → ¬ Reinits (.frame bytes peerChallenge) := by
      rintro hne ⟨p', hp', -⟩
      rw [hp, Option.some.injEq, Prod.mk.injEq] at hp'
      exact hne hp'.1
    dsimp only
    split_ifs with hlcp hchap hipcp hccp hmppe hip
    · subst hlcp
      have hno := noMppe_handleLcp p
      exact .other (hkeys (by decide)) (hinit (by decide)) (by rw [hno.mppe]) (by rw [hno.mppe])
        (by rw [hno.mppe]; exact fun h => h) (hno.silent ctx).frames
    · subst hchap
      obtain ⟨hm, hs⟩ := mppe_handleChap P peerChallenge p ctx
      have hd : derivedKeys P ctx (.frame bytes peerChallenge) = chapKeys P peerChallenge p ctx := by
        simp only [derivedKeys, hp, if_true]
      cases hk : chapKeys P peerChallenge p ctx with
      | none =>
        rw [hk] at hm hd
        exact .other hd (hinit (by decide)) (by rw [hm]) (by rw [hm]) (by rw [hm]; exact fun h => h)
          hs.frames
      | some keys =>
        rw [hk] at hm hd
        exact .derived keys hd (hinit (by decide)) hm hs.frames
    · subst hipcp
      obtain ⟨hm, hs⟩ := mppe_handleIpcp p ctx
      rcases hm with hm | hm
      · exact .other (hkeys (by decide)) (hinit (by decide)) (by rw [hm]) (by rw [hm])
          (by rw [hm]; exact fun h => h) hs.frames
      · exact .other (hkeys (by decide)) (hinit (by decide)) (by rw [hm]) (by rw [hm])
          (by rw [hm]; exact fun h => by cases h) hs.frames
    · subst hccp
      by_cases hin : InitsKeys p
      · obtain ⟨hm, hs⟩ := mppe_handleCcp_init P hin ctx
        exact .inited (hkeys (by decide)) ⟨p, hp, hin⟩ hm hs.frames
      · have hnot : ¬ Reinits (.frame bytes peerChallenge) := by
          rintro ⟨p', hp', hin'⟩
          rw [hp, Option.some.injEq, Prod.mk.injEq] at hp'
          exact hin (hp'.2 ▸ hin')
        obtain ⟨hm | hm, hs⟩ := mppe_handleCcp_other P hin ctx
        · exact .other (hkeys (by decide)) hnot (by rw [hm]) (by rw [hm])
            (by rw [hm]; exact fun h => h) hs.frames
        · exact .other (hkeys (by decide)) hnot (by rw [hm]) (by rw [hm])
            (by rw [hm]; exact fun h => by cases h) hs.frames
    · subst hmppe
      obtain ⟨⟨d, hm⟩, hf⟩ := handleMppe_recv P p ctx
      exact .other (hkeys (by decide)) (hinit (by decide)) (by rw [hm]) (by rw [hm])
        (by rw [hm]; exact fun h => h) hf
    · subst hip
      exact .other (hkeys (by decide)) (hinit (by decide)) rfl rfl (fun h => h) rfl
    · exact .other (hkeys hchap) (hinit hccp) rfl rfl (fun h => h) rfl

lemma pppSendFrame_mppe {payload : List UInt8} (h : payload.length ≤ mru) :
    pppSendFrame protoMppe payload =
      (true, [.frame ([0xff, 0x03] ++ toBe16 protoMppe ++ payload)]) := by
  unfold pppSendFrame
  rw [if_neg (by omega)]

@[simp] lemma length_rc4 (k : Rc4Key) (data : List UInt8) : (rc4 P k data).1.length = data.length := by
  simp [rc4]

/-- Sending an IP packet while MPPE is enabled. -/
lemma sendIp_enabled {ip : List UInt8} {ctx : Pppd} (henabled : ctx.mppe.enabled = true)
    (hsize : 0 < ip.length ∧ ip.length ≤ mru - 4) :
    ∃ k, sstpPppdSendIp P ip ctx =
      (true, { ctx with mppe := { ctx.mppe with send := { advance P ctx.mppe.send with rc4 := k } } },
        [.frame (sentPacket P (advance P ctx.mppe.send) ip)]) := by
  refine ⟨(rc4 P (advance P ctx.mppe.send).rc4 (toBe16 protoIp ++ ip)).2, ?_⟩
  have hlen : ([0x90 ||| UInt8.ofNat ((advance P ctx.mppe.send).ccount / 256),
      UInt8.ofNat (advance P ctx.mppe.send).ccount] ++
        (rc4 P (advance P ctx.mppe.send).rc4 (toBe16 protoIp ++ ip)).1).length ≤ mru := by
    simp only [List.length_append, length_rc4, length_toBe16, List.length_cons, List.length_nil]
    unfold mru at hsize ⊢
    omega
  unfold sstpPppdSendIp pppSendIpPlainOrMppe
  rw [if_neg (by omega), if_neg (by simp [henabled])]
  simp only [pppSendFrame_mppe hlen]
  rfl

lemma sendIp_mppeStep (ip : List UInt8) (ctx : Pppd) :
    MppeStep P ctx (.sendIp ip) (sstpPppdSendIp P ip ctx).2.1.mppe
      (mppeFrames (sstpPppdSendIp P ip ctx).2.2) := by
  by_cases hsize : 0 < ip.length ∧ ip.length ≤ mru - 4
  · cases henabled : ctx.mppe.enabled with
    | true =>
      obtain ⟨k, hk⟩ := sendIp_enabled P henabled hsize
      rw [hk]
      exact .sent ip rfl henabled hsize ⟨k, rfl⟩ rfl
    | false =>
      have hplain : sstpPppdSendIp P ip ctx =
          ((pppSendFrame protoIp ip).1, ctx, (pppSendFrame protoIp ip).2) := by
        unfold sstpPppdSendIp pppSendIpPlainOrMppe
        rw [if_neg (by omega), if_pos (by simp [henabled])]
      rw [hplain]
      exact .other rfl (fun h => h) rfl rfl (fun h => h)
        (silent_pppSendFrame (by decide) ip).frames
  · have hfail : sstpPppdSendIp P ip ctx = (false, ctx, []) := by
      unfold sstpPppdSendIp pppSendIpPlainOrMppe
      rw [if_pos (by omega)]
    rw [hfail]
    exact .other rfl (fun h => h) rfl rfl (fun h => h) rfl

/-- Every step is one of these. -/
theorem step_mppe (ctx : Pppd) (i : Input) :
    MppeStep P ctx i (step P ctx i).1.mppe (mppeFrames (step P ctx i).2) := by
  cases i with
  | frame bytes peerChallenge => exact frame_mppeStep P bytes peerChallenge ctx
  | sendIp ip => exact sendIp_mppeStep P ip ctx

/-! ### No step hangs -/

lemma recv_mppeInitKeys {m : Mppe} (h : m.recv.ccount < 4096) :
    (mppeInitKeys P m).recv.ccount < 4096 := by
  unfold mppeInitKeys
  split_ifs
  · exact Nat.lt_of_le_of_lt (le_refl 0xfff) (by decide)
  · exact h

lemma recv_pppDispatch (peerChallenge bytes : List UInt8) {ctx : Pppd}
    (h : ctx.mppe.recv.ccount < 4096) :
    (pppDispatch P peerChallenge bytes ctx).1.mppe.recv.ccount < 4096 ∧
      .hang ∉ (pppDispatch P peerChallenge bytes ctx).2 := by
  unfold pppDispatch
  cases hp : parseFrame bytes with
  | none => exact ⟨h, silent_nil.ends⟩
  | some pp =>
    obtain ⟨proto, p⟩ := pp
    dsimp only
    split_ifs
    · have hno := noMppe_handleLcp p
      exact ⟨by rwa [hno.mppe], (hno.silent ctx).ends⟩
    · obtain ⟨hm, hs⟩ := mppe_handleChap P peerChallenge p ctx
      refine ⟨?_, hs.ends⟩
      rw [hm]
      split
      · exact h
      · exact h
    · obtain ⟨hm | hm, hs⟩ := mppe_handleIpcp p ctx
      · exact ⟨by rwa [hm], hs.ends⟩
      · exact ⟨by rwa [hm], hs.ends⟩
    · by_cases hin : InitsKeys p
      · obtain ⟨hm, hs⟩ := mppe_handleCcp_init P hin ctx
        exact ⟨hm ▸ recv_mppeInitKeys P h, hs.ends⟩
      · obtain ⟨hm | hm, hs⟩ := mppe_handleCcp_other P hin ctx
        · exact ⟨by rwa [hm], hs.ends⟩
        · exact ⟨by rwa [hm], hs.ends⟩
    · obtain ⟨⟨d, hm, hd⟩, hs⟩ := mppe_handleMppe P p h
      exact ⟨by rwa [hm], hs.ends⟩
    · exact ⟨h, by simp⟩
    · exact ⟨h, silent_nil.ends⟩

/-- The count of the receiving direction stays one of twelve bits, so that every step ends. -/
theorem step_ends (ctx : Pppd) (i : Input) (h : ctx.mppe.recv.ccount < 4096) :
    (step P ctx i).1.mppe.recv.ccount < 4096 ∧ .hang ∉ (step P ctx i).2 := by
  cases i with
  | frame bytes peerChallenge => exact recv_pppDispatch P peerChallenge bytes h
  | sendIp ip =>
    unfold step sstpPppdSendIp pppSendIpPlainOrMppe
    have hends : ∀ proto payload, .hang ∉ (pppSendFrame proto payload).2 := by
      intro proto payload
      unfold pppSendFrame
      split_ifs <;> simp
    dsimp only
    split_ifs
    · exact ⟨h, by simp⟩
    · exact ⟨h, hends _ _⟩
    · exact ⟨h, hends _ _⟩

end SstpClient.PppSpec
