import SstpClient.LinkUp
import SstpClient.MppeKeys

/-!
What an acknowledged MPPE request is worth.

`handle_ccp` acknowledges a request before it looks for keys, and `mppe_init_keys` does nothing
without them. Once enabled, MPPE is disabled by a refusal that comes late; the shortcut for peers
that skip CCP does not apply any more.
-/

namespace SstpClient.CcpAck

open SstpClient.Lib.Bytes SstpClient.Lib.Machine SstpClient.Lib.Ratchet
open SstpClient.Ppp SstpClient.PppSpec SstpClient.LinkUp

/-! ### What is seen -/

/-- The types of the options of a CCP packet, `n` at most. -/
def optionTypes : ℕ → List UInt8 → List UInt8
  | n + 1, type :: olen :: rest =>
    if olen.toNat < 2 then [] else type :: optionTypes n (rest.drop (olen.toNat - 2))
  | _, _ => []

/-- MPPE is among the options of the packet. -/
def AsksMppe (packet : List UInt8) : Prop := ciMppc ∈ optionTypes packet.length (packet.drop 4)

instance (packet : List UInt8) : Decidable (AsksMppe packet) :=
  inferInstanceAs (Decidable (_ ∈ _))

/-- A CCP Configure-Ack with the MPPE option is sent. -/
def IsAck : Out → Prop
  | .frame bytes =>
    ∃ r, parseFrame bytes = some (protoCcp, r) ∧ r.getD 0 0 = fsmConfAck ∧ AsksMppe r
  | _ => False

def Acked (outs : List Out) : Prop := ∃ o ∈ outs, IsAck o

/-- The client acknowledges an MPPE request. -/
def Acks : Input → Prop
  | .frame bytes _ => ∃ p, parseFrame bytes = some (protoCcp, p) ∧ 4 ≤ p.length ∧
      p.getD 0 0 = fsmConfReq ∧ (body p).length ≤ 64 ∧ AsksMppe (body p)
  | .sendIp _ => False

/-- The peer refuses. -/
def Refuses : Input → Prop
  | .frame bytes _ => ∃ p, parseFrame bytes = some (protoCcp, p) ∧ 4 ≤ p.length ∧
      (p.getD 0 0 = fsmConfRej ∨ p.getD 0 0 = fsmConfNak)
  | .sendIp _ => False

section Keys

variable (P : Prims)

/-- A session key: `mppe_init_keys` makes the first one, and every packet the next. -/
inductive SessionKey : List UInt8 → Prop
  | initial (master : List UInt8) : SessionKey (P.newKeyFromSha master master)
  | next (master session : List UInt8) (h : SessionKey session) :
    SessionKey (rc4 P ⟨P.newKeyFromSha master session, 0⟩ (P.newKeyFromSha master session)).1

/-- MPPE is enabled, both directions have their session key, and the MPPE frames of the peer are
decrypted. -/
structure Able (ctx : Pppd) : Prop where
  enabled : ctx.mppe.enabled = true
  send : SessionKey P ctx.mppe.send.session
  recv : SessionKey P ctx.mppe.recv.session
  decrypts : ∀ p : List UInt8, 3 ≤ p.length → ∃ d, catchUp P (ccountOf p) 4096 ctx.mppe.recv = some d ∧
    SessionKey P d.session ∧ handleMppe P p ctx = mppeDecrypt P d p ctx

/-- What is promised of a run up to now. -/
def Promise (ctx : Pppd) (outs : List Out) : Prop := Acked outs → Able P ctx

/-- The machine, and whether an MPPE request has been acknowledged. -/
def watched (s : Pppd × Prop) (i : Input) : (Pppd × Prop) × List Out :=
  (((step P s.1 i).1, s.2 ∨ Acks i), (step P s.1 i).2)

/-- The condition on a step: a request that is acknowledged finds the keys set, and after one the
peer does not refuse. -/
def Keyed (s : Pppd × Prop) (i : Input) : Prop :=
  (Acks i → s.1.mppe.keysSet = true) ∧ (s.2 → ¬ Refuses i)

end Keys

/-! ### Handlers that acknowledge nothing -/

/-- A part of a handler that sends no acknowledgement, and does not take back that CCP is done. -/
structure AcksNothing (f : Act) : Prop where
  done : ∀ ctx : Pppd, ctx.ccpDone = true → (f ctx).1.ccpDone = true
  acks : ∀ ctx, ¬ Acked (f ctx).2

lemma acked_append {o o' : List Out} : Acked (o ++ o') ↔ Acked o ∨ Acked o' := by
  unfold Acked
  simp only [List.mem_append, or_and_right, exists_or]

lemma not_acked_nil : ¬ Acked [] := by
  rintro ⟨o, ho, -⟩
  cases ho

lemma not_acked_notify (e : PppdEvent) (ctx : Pppd) : ¬ Acked [.notify e ctx] := by
  rintro ⟨o, ho, hack⟩
  rw [List.mem_singleton.mp ho] at hack
  exact hack

lemma AcksNothing.seq {f g : Act} (hf : AcksNothing f) (hg : AcksNothing g) :
    AcksNothing (f.seq g) := by
  refine ⟨fun ctx h => hg.done _ (hf.done ctx h), fun ctx => ?_⟩
  rw [seq_snd, acked_append, not_or]
  exact ⟨hf.acks ctx, hg.acks _⟩

lemma acksNothing_skip : AcksNothing skip := ⟨fun _ h => h, fun _ => not_acked_nil⟩

lemma acksNothing_notify (e : PppdEvent) : AcksNothing (notify e) :=
  ⟨fun _ h => h, fun ctx => not_acked_notify e ctx⟩

lemma acksNothing_update (h : Pppd → Pppd)
    (hh : ∀ ctx, ctx.ccpDone = true → (h ctx).ccpDone = true) :
    AcksNothing (update h) := ⟨hh, fun _ => not_acked_nil⟩

/-- A frame of another protocol, or of another code. -/
lemma not_acked_pppSendFrame {proto : ℕ} (h : proto < 65536)
    (heven : UInt8.ofNat (proto / 256) &&& 1 = 0) {payload : List UInt8}
    (hne : proto ≠ protoCcp ∨ payload.getD 0 0 ≠ fsmConfAck) :
    ¬ Acked (pppSendFrame proto payload).2 := by
  unfold pppSendFrame
  split_ifs
  · exact not_acked_nil
  · rintro ⟨o, ho, hack⟩
    rw [List.mem_singleton.mp ho] at hack
    obtain ⟨r, hr, hcode, -⟩ := hack
    rw [parseFrame_of_proto h heven] at hr
    cases hr
    rcases hne with hne | hne
    · exact hne rfl
    · exact hne hcode

lemma acksNothing_sendFrame {proto : ℕ} (h : proto < 65536)
    (heven : UInt8.ofNat (proto / 256) &&& 1 = 0) (hne : proto ≠ protoCcp) (payload : List UInt8) : AcksNothing (sendFrame proto payload) :=
  ⟨fun _ h => h, fun _ => not_acked_pppSendFrame h heven (.inl hne)⟩

lemma composes_acksNothing : Composes AcksNothing where
  skip := acksNothing_skip
  seq := AcksNothing.seq
  ofForall := by
    intro f h
    refine ⟨fun ctx hdone => ?_, fun ctx => ?_⟩
    · obtain ⟨g, hg, heq⟩ := h ctx
      rw [heq]
      exact hg.done ctx hdone
    · obtain ⟨g, hg, heq⟩ := h ctx
      rw [heq]
      exact hg.acks ctx

lemma acksNothing_sendLcpConfReq : AcksNothing sendLcpConfReq :=
  ⟨fun _ h => h, fun _ => not_acked_pppSendFrame (by decide) (by decide) (.inl (by decide))⟩

lemma acksNothing_sendIpcpConfReq : AcksNothing sendIpcpConfReq :=
  ⟨fun _ h => h, fun _ => not_acked_pppSendFrame (by decide) (by decide) (.inl (by decide))⟩

/-- The request of the client itself is a CCP packet, but no acknowledgement. -/
lemma acksNothing_sendCcpConfReq : AcksNothing sendCcpConfReq :=
  ⟨fun _ h => h, fun _ => not_acked_pppSendFrame (by decide) (by decide) (.inr (by
    unfold confReq
    exact (by decide : fsmConfReq ≠ fsmConfAck)))⟩

lemma acksNothing_maybeNotifyUp : AcksNothing maybeNotifyUp :=
  composes_acksNothing.maybeNotifyUp (acksNothing_update _ fun _ h => h) (acksNothing_notify .up)

lemma acksNothing_ccpFinished : AcksNothing ccpFinished :=
  composes_acksNothing.ccpFinished (acksNothing_update _ fun _ _ => rfl)
    acksNothing_sendIpcpConfReq acksNothing_maybeNotifyUp

lemma acksNothing_handleLcp (buf : List UInt8) : AcksNothing (handleLcp buf) :=
  composes_acksNothing.handleLcp (acksNothing_sendFrame (by decide) (by decide) (by decide))
    acksNothing_sendLcpConfReq (acksNothing_update _ fun _ h => h) (acksNothing_notify .down) buf

lemma acksNothing_ipcpSwitch (buf : List UInt8) : AcksNothing (ipcpSwitch buf) := by
  have hread : ∀ {set : UInt8 → ℕ → Pppd → Pppd},
      (∀ t v ctx, untouched (set t v ctx) = untouched ctx) →
        AcksNothing (update (readOptions set buf)) := by
    intro set hset
    refine acksNothing_update _ fun ctx h => ?_
    have hkeep := untouched_readOptions hset buf ctx
    simp only [untouched, Prod.mk.injEq] at hkeep
    rw [hkeep.2.1]
    exact h
  exact composes_acksNothing.ipcpSwitch (hread untouched_setPeerIp) (hread untouched_setLocalIp)
    (acksNothing_sendFrame (by decide) (by decide) (by decide)) acksNothing_sendIpcpConfReq
    (composes_acksNothing.ipcpAcked (acksNothing_update _ fun _ h => h) acksNothing_maybeNotifyUp)

lemma acksNothing_handleIpcp (buf : List UInt8) : AcksNothing (handleIpcp buf) := by
  unfold handleIpcp
  split_ifs
  · exact acksNothing_skip
  · refine AcksNothing.seq (composes_acksNothing.ofForall fun ctx => ?_)
      (acksNothing_ipcpSwitch buf)
    unfold ipcpBeforeCcp
    split_ifs
    · exact ⟨_, (acksNothing_update mppeDisable fun _ h => h).seq acksNothing_ccpFinished, rfl⟩
    · exact ⟨_, acksNothing_skip, rfl⟩

section AcksNothing

variable (P : Prims)

lemma acksNothing_handleChap (peerChallenge buf : List UInt8) :
    AcksNothing (handleChap P peerChallenge buf) := by
  have hauth : AcksNothing (iosPppdAuth P) := by
    refine composes_acksNothing.ofForall fun ctx => ?_
    unfold iosPppdAuth
    cases P.mppeGet ctx.chap with
    | none => exact ⟨_, acksNothing_skip, rfl⟩
    | some keys =>
      exact ⟨_, acksNothing_update
        (fun ctx => { ctx with mppe := sstpPppdSetMppeKeys keys ctx.mppe })
        (fun _ h => h), rfl⟩
  have hsend : ∀ payload, AcksNothing (sendFrame protoChap payload) :=
    acksNothing_sendFrame (by decide) (by decide) (by decide)
  refine composes_acksNothing.handleChap P (acksNothing_update _ fun _ h => h)
    acksNothing_sendCcpConfReq (acksNothing_notify .authFail)
    (composes_acksNothing.ofForall fun ctx => ⟨(update (setChap (buf.getD 1 0)
      (chapOf P peerChallenge buf ctx))).seq ((sendFrame protoChap (chapResponseBody (buf.getD 1 0)
        (chapOf P peerChallenge buf ctx) ctx.username)).seq ((notify .auth).seq (iosPppdAuth P))),
      ?_, rfl⟩)
  have hset : AcksNothing (update (setChap (buf.getD 1 0) (chapOf P peerChallenge buf ctx))) :=
    acksNothing_update _ fun _ h => h
  exact hset.seq ((hsend _).seq ((acksNothing_notify .auth).seq hauth))

lemma acksNothing_handleMppe (buf : List UInt8) : AcksNothing (handleMppe P buf) := by
  refine composes_acksNothing.ofForall fun ctx => ?_
  unfold handleMppe
  split_ifs
  · exact ⟨_, acksNothing_skip, rfl⟩
  · cases catchUp P (ccountOf buf) 4096 ctx.mppe.recv with
    | none =>
      refine ⟨emit .hang, ⟨fun _ h => h, fun _ => ?_⟩, rfl⟩
      rintro ⟨o, ho, hack⟩
      rw [List.mem_singleton.mp ho] at hack
      exact hack
    | some d =>
      refine ⟨mppeDecrypt P d buf, ⟨fun ctx h => ?_, fun ctx => ?_⟩, rfl⟩
      · obtain ⟨⟨k, hk⟩, -⟩ := mppeDecrypt_spec P d buf ctx
        rw [hk]
        exact h
      · rintro ⟨o, ho, hack⟩
        unfold mppeDecrypt at ho
        split_ifs at ho
        · rw [List.mem_singleton.mp ho] at hack
          exact hack
        · dsimp only at ho
          split at ho
          · split_ifs at ho
            · rw [List.mem_singleton.mp ho] at hack
              exact hack
            · cases ho
          · cases ho

end AcksNothing

/-! ### Handling a CCP packet -/

section Ccp

variable (P : Prims) {p : List UInt8} {ctx : Pppd}

/-- The answer has the options of the request. -/
lemma asksMppe_reply (p : List UInt8) : AsksMppe (reply p fsmConfAck) ↔ AsksMppe (body p) := by
  unfold AsksMppe reply
  rw [List.length_set, List.drop_set_of_lt (by decide)]

/-- A packet with an option is not empty. -/
lemma ne_nil_of_asksMppe {p : List UInt8} (h : AsksMppe p) : p ≠ [] := by
  rintro rfl
  cases h

/-- **What is sent** is an acknowledgement exactly when the request asks for MPPE. -/
lemma acked_reply (h64 : (body p).length ≤ 64) :
    Acked (pppSendFrame protoCcp (reply p fsmConfAck)).2 ↔ AsksMppe (body p) := by
  have hlen : ¬ mru < (reply p fsmConfAck).length := by
    unfold reply mru
    rw [List.length_set]
    omega
  unfold pppSendFrame
  rw [if_neg hlen]
  constructor
  · rintro ⟨o, ho, hack⟩
    rw [List.mem_singleton.mp ho] at hack
    obtain ⟨r, hr, -, hasks⟩ := hack
    rw [parseFrame_of_proto (by decide) (by decide)] at hr
    cases hr
    exact (asksMppe_reply p).mp hasks
  · intro hasks
    refine ⟨_, List.mem_singleton_self _, _, parseFrame_of_proto (by decide) (by decide) _, ?_,
      (asksMppe_reply p).mpr hasks⟩
    have hne := ne_nil_of_asksMppe hasks
    unfold reply
    cases hb : body p with
    | nil => exact absurd hb hne
    | cons b bs => rfl

/-- After a packet that settles CCP, CCP is done. -/
lemma ccpDone_ccpFinished (ctx : Pppd) : (ccpFinished ctx).1.ccpDone = true := by
  obtain ⟨id, hid⟩ := ccpSettled_fst ctx
  have hup : AcksNothing maybeNotifyUp := acksNothing_maybeNotifyUp
  rw [ccpFinished_eq, seq_fst]
  exact hup.done _ (by rw [hid])

/-- What `handle_ccp` can do. -/
inductive CcpSpec (p : List UInt8) (ctx : Pppd) (r : Pppd × List Out) : Prop
  | request (h4 : 4 ≤ p.length) (hcode : p.getD 0 0 = fsmConfReq) (h64 : (body p).length ≤ 64)
    (hm : r.1.mppe = mppeInitKeys P ctx.mppe) (hdone : r.1.ccpDone = true)
    (hack : Acked r.2 ↔ AsksMppe (body p))
  | acked (hcode : p.getD 0 0 = fsmConfAck) (hm : r.1.mppe = mppeInitKeys P ctx.mppe)
    (hdone : r.1.ccpDone = true) (hack : ¬ Acked r.2)
  | refused (h4 : 4 ≤ p.length) (hcode : p.getD 0 0 = fsmConfRej ∨ p.getD 0 0 = fsmConfNak)
    (hm : r.1.mppe = { ctx.mppe with enabled := false }) (hdone : r.1.ccpDone = true)
    (hack : ¬ Acked r.2)
  | other (hreq : ¬ (4 ≤ p.length ∧ p.getD 0 0 = fsmConfReq ∧ (body p).length ≤ 64))
    (hrefuse : ¬ (4 ≤ p.length ∧ (p.getD 0 0 = fsmConfRej ∨ p.getD 0 0 = fsmConfNak)))
    (heq : r = (ctx, []))

theorem ccp_spec (p : List UInt8) (ctx : Pppd) : CcpSpec P p ctx (handleCcp P p ctx) := by
  have hinit := (mppe_init_seq P noMppe_ccpFinished ctx).1
  have hdisable := (mppe_disable_seq noMppe_ccpFinished ctx).1
  unfold handleCcp
  split_ifs with h4 hreq h64 hack hrefuse
  · exact .other (fun h => by omega) (fun h => by omega) rfl
  · refine .other (fun h => by omega) (fun h => ?_) rfl
    rw [hreq] at h
    exact absurd h.2 (by decide)
  · refine .request (by omega) hreq (by omega) hinit (ccpDone_ccpFinished _) ?_
    rw [seq_snd, acked_append]
    refine (or_iff_left ?_).trans (acked_reply (by omega))
    exact ((acksNothing_update (mppeInit P) fun _ h => h).seq acksNothing_ccpFinished).acks ctx
  · exact .acked hack hinit (ccpDone_ccpFinished _)
      (((acksNothing_update (mppeInit P) fun _ h => h).seq acksNothing_ccpFinished).acks ctx)
  · exact .refused (by omega) hrefuse hdisable (ccpDone_ccpFinished _)
      (((acksNothing_update mppeDisable fun _ h => h).seq acksNothing_ccpFinished).acks ctx)
  · exact .other (fun h => hreq h.2.1) (fun h => hrefuse h.2) rfl

end Ccp

/-! ### One step -/

section Step

variable (P : Prims)

/-- What a step can do to MPPE: the keys may be set, initialised or used, or it is disabled, by a
refusal or because CCP has been skipped. -/
inductive Change (ctx : Pppd) (i : Input) (ctx' : Pppd) : Prop
  | same (hm : ctx'.mppe = ctx.mppe) (hacks : ¬ Acks i) (hrefuses : ¬ Refuses i)
  | keys (keys : List UInt8 × List UInt8) (hm : ctx'.mppe = sstpPppdSetMppeKeys keys ctx.mppe)
    (hacks : ¬ Acks i) (hrefuses : ¬ Refuses i)
  | init (hm : ctx'.mppe = mppeInitKeys P ctx.mppe) (hdone : ctx'.ccpDone = true)
    (hrefuses : ¬ Refuses i)
  | refused (hm : ctx'.mppe = { ctx.mppe with enabled := false }) (hacks : ¬ Acks i)
    (hrefuses : Refuses i)
  | skipped (hm : ctx'.mppe = { ctx.mppe with enabled := false }) (hdone : ctx.ccpDone = false)
    (hacks : ¬ Acks i) (hrefuses : ¬ Refuses i)
  | sent (k : Rc4Key)
    (hm : ctx'.mppe = { ctx.mppe with send := { advance P ctx.mppe.send with rc4 := k } })
    (hacks : ¬ Acks i) (hrefuses : ¬ Refuses i)
  | received (n : ℕ) (k : Rc4Key)
    (hm : ctx'.mppe = { ctx.mppe with recv := { (advance P)^[n] ctx.mppe.recv with rc4 := k } })
    (hacks : ¬ Acks i) (hrefuses : ¬ Refuses i)

variable {P} {ctx : Pppd}

/-- What only CCP does. -/
lemma not_acks_of_proto {bytes peerChallenge p : List UInt8} {proto : ℕ}
    (hp : parseFrame bytes = some (proto, p)) (hne : proto ≠ protoCcp) :
    ¬ Acks (.frame bytes peerChallenge) ∧ ¬ Refuses (.frame bytes peerChallenge) := by
  constructor
  · rintro ⟨p', hp', -⟩
    rw [hp] at hp'
    cases hp'
    exact hne rfl
  · rintro ⟨p', hp', -⟩
    rw [hp] at hp'
    cases hp'
    exact hne rfl

/-- What CCP does, of its packet. -/
lemma acks_iff {bytes peerChallenge p : List UInt8} (hp : parseFrame bytes = some (protoCcp, p)) :
    Acks (.frame bytes peerChallenge) ↔ 4 ≤ p.length ∧ p.getD 0 0 = fsmConfReq ∧
      (body p).length ≤ 64 ∧ AsksMppe (body p) := by
  constructor
  · rintro ⟨p', hp', h⟩
    rw [hp] at hp'
    cases hp'
    exact h
  · exact fun h => ⟨p, hp, h⟩

lemma refuses_iff {bytes peerChallenge p : List UInt8} (hp : parseFrame bytes = some (protoCcp, p)) :
    Refuses (.frame bytes peerChallenge) ↔ 4 ≤ p.length ∧
      (p.getD 0 0 = fsmConfRej ∨ p.getD 0 0 = fsmConfNak) := by
  constructor
  · rintro ⟨p', hp', h⟩
    rw [hp] at hp'
    cases hp'
    exact h
  · exact fun h => ⟨p, hp, h⟩

lemma change_ccp {bytes peerChallenge p : List UInt8}
    (hp : parseFrame bytes = some (protoCcp, p)) :
    Change P ctx (.frame bytes peerChallenge) (handleCcp P p ctx).1 ∧
      (Acked (handleCcp P p ctx).2 ↔ Acks (.frame bytes peerChallenge)) := by
  rw [acks_iff hp]
  have hnot : ∀ {code : UInt8}, p.getD 0 0 = code → ¬ (code = fsmConfRej ∨ code = fsmConfNak) →
      ¬ Refuses (.frame bytes peerChallenge) := by
    intro code hcode hne hrefuses
    exact hne (hcode ▸ ((refuses_iff hp).mp hrefuses).2)
  have hnack : p.getD 0 0 ≠ fsmConfReq → ¬ Acks (.frame bytes peerChallenge) := fun hne hacks =>
    hne ((acks_iff hp).mp hacks).2.1
  cases ccp_spec P p ctx with
  | request h4 hcode h64 hm hdone hack =>
    exact ⟨.init hm hdone (hnot hcode (by decide)),
      hack.trans ⟨fun h => ⟨h4, hcode, h64, h⟩, fun h => h.2.2.2⟩⟩
  | acked hcode hm hdone hack =>
    refine ⟨.init hm hdone (hnot hcode (by decide)), iff_of_false hack fun h => ?_⟩
    exact absurd (hcode.symm.trans h.2.1) (by decide)
  | refused h4 hcode hm hdone hack =>
    have hne : p.getD 0 0 ≠ fsmConfReq := by
      rcases hcode with hcode | hcode <;> rw [hcode] <;> decide
    exact ⟨.refused hm (hnack hne) ((refuses_iff hp).mpr ⟨h4, hcode⟩),
      iff_of_false hack fun h => hne h.2.1⟩
  | other hreq hrefuse heq =>
    rw [heq]
    refine ⟨.same rfl (fun h => hreq ?_) (fun h => hrefuse ((refuses_iff hp).mp h)),
      iff_of_false not_acked_nil fun h => hreq ⟨h.1, h.2.1, h.2.2.1⟩⟩
    obtain ⟨h4, hcode, h64, -⟩ := (acks_iff hp).mp h
    exact ⟨h4, hcode, h64⟩

lemma change_ipcp (p : List UInt8) :
    (handleIpcp p ctx).1.mppe = ctx.mppe ∨
      (handleIpcp p ctx).1.mppe = { ctx.mppe with enabled := false } ∧ ctx.ccpDone = false := by
  unfold handleIpcp
  split_ifs
  · exact .inl rfl
  · rw [seq_fst, (noMppe_ipcpSwitch p).mppe]
    unfold ipcpBeforeCcp
    split_ifs with h
    · exact .inr ⟨(mppe_disable_seq noMppe_ccpFinished ctx).1, by simpa using h.1⟩
    · exact .inl rfl

lemma change_frame (bytes peerChallenge : List UInt8) (h : ctx.mppe.recv.ccount < 4096) :
    Change P ctx (.frame bytes peerChallenge) (pppDispatch P peerChallenge bytes ctx).1 ∧
      (Acked (pppDispatch P peerChallenge bytes ctx).2 ↔ Acks (.frame bytes peerChallenge)) := by
  unfold pppDispatch
  cases hp : parseFrame bytes with
  | none =>
    have hacks : ¬ Acks (.frame bytes peerChallenge) := by
      rintro ⟨p, hp', -⟩
      cases hp.symm.trans hp'
    refine ⟨.same rfl hacks ?_, iff_of_false not_acked_nil hacks⟩
    rintro ⟨p, hp', -⟩
    cases hp.symm.trans hp'
  | some pp =>
    obtain ⟨proto, p⟩ := pp
    have hother : proto ≠ protoCcp →
        ¬ Acks (.frame bytes peerChallenge) ∧ ¬ Refuses (.frame bytes peerChallenge) :=
      not_acks_of_proto hp
    dsimp only
    split_ifs with hlcp hchap hipcp hccp hmppe hip
    · obtain ⟨hacks, hrefuses⟩ := hother (by rw [hlcp]; decide)
      exact ⟨.same ((noMppe_handleLcp p).mppe ctx) hacks hrefuses,
        iff_of_false ((acksNothing_handleLcp p).acks ctx) hacks⟩
    · obtain ⟨hacks, hrefuses⟩ := hother (by rw [hchap]; decide)
      refine ⟨?_, iff_of_false ((acksNothing_handleChap P peerChallenge p).acks ctx) hacks⟩
      have hm := (mppe_handleChap P peerChallenge p ctx).1
      cases hk : chapKeys P peerChallenge p ctx with
      | none =>
        rw [hk] at hm
        exact .same hm hacks hrefuses
      | some keys =>
        rw [hk] at hm
        exact .keys keys hm hacks hrefuses
    · obtain ⟨hacks, hrefuses⟩ := hother (by rw [hipcp]; decide)
      refine ⟨?_, iff_of_false ((acksNothing_handleIpcp p).acks ctx) hacks⟩
      rcases change_ipcp p with hm | ⟨hm, hdone⟩
      · exact .same hm hacks hrefuses
      · exact .skipped hm hdone hacks hrefuses
    · subst hccp
      exact change_ccp hp
    · obtain ⟨hacks, hrefuses⟩ := hother (by rw [hmppe]; decide)
      refine ⟨?_, iff_of_false ((acksNothing_handleMppe P p).acks ctx) hacks⟩
      unfold handleMppe
      split_ifs
      · exact .same rfl hacks hrefuses
      · rw [catchUp_eq P (ccountOf_lt p) h]
        obtain ⟨⟨k, hk⟩, -⟩ := mppeDecrypt_spec P
          ((advance P)^[gap 4096 ctx.mppe.recv.ccount (ccountOf p)] ctx.mppe.recv) p ctx
        exact .received _ k (congrArg Pppd.mppe hk) hacks hrefuses
    · obtain ⟨hacks, hrefuses⟩ := hother (by rw [hip]; decide)
      refine ⟨.same rfl hacks hrefuses, iff_of_false ?_ hacks⟩
      rintro ⟨o, ho, hack⟩
      rw [List.mem_singleton.mp ho] at hack
      exact hack
    · obtain ⟨hacks, hrefuses⟩ := hother hccp
      exact ⟨.same rfl hacks hrefuses, iff_of_false not_acked_nil hacks⟩

/-- **Every step** is one of these, and acknowledges what it is asked to. -/
theorem step_change (i : Input) (h : ctx.mppe.recv.ccount < 4096) :
    Change P ctx i (step P ctx i).1 ∧ (Acked (step P ctx i).2 ↔ Acks i) := by
  cases i with
  | frame bytes peerChallenge => exact change_frame bytes peerChallenge h
  | sendIp ip =>
    have hnot : ∀ proto, proto < 65536 → UInt8.ofNat (proto / 256) &&& 1 = 0 → proto ≠ protoCcp →
        ∀ payload, ¬ Acked (pppSendFrame proto payload).2 := fun proto h heven hne payload =>
      not_acked_pppSendFrame h heven (.inl hne)
    unfold step sstpPppdSendIp pppSendIpPlainOrMppe
    dsimp only
    split_ifs
    · exact ⟨.same rfl id id, iff_of_false not_acked_nil id⟩
    · exact ⟨.sent _ rfl id id, iff_of_false (hnot _ (by decide) (by decide) (by decide) _) id⟩
    · exact ⟨.same rfl id id, iff_of_false (hnot _ (by decide) (by decide) (by decide) _) id⟩

/-- That CCP is done is not taken back. -/
theorem ccpDone_step (i : Input) (h : ctx.ccpDone = true) : (step P ctx i).1.ccpDone = true := by
  cases i with
  | frame bytes peerChallenge =>
    unfold step pppDispatch
    dsimp only
    cases hp : parseFrame bytes with
    | none => exact h
    | some pp =>
      obtain ⟨proto, p⟩ := pp
      dsimp only
      split_ifs
      · exact (acksNothing_handleLcp p).done ctx h
      · exact (acksNothing_handleChap P peerChallenge p).done ctx h
      · exact (acksNothing_handleIpcp p).done ctx h
      · cases ccp_spec P p ctx with
        | request h4 hcode h64 hm hdone hack => exact hdone
        | acked hcode hm hdone hack => exact hdone
        | refused h4 hcode hm hdone hack => exact hdone
        | other hreq hrefuse heq => rwa [heq]
      · exact (acksNothing_handleMppe P p).done ctx h
      · exact h
      · exact h
  | sendIp ip =>
    unfold step sstpPppdSendIp pppSendIpPlainOrMppe
    dsimp only
    split_ifs <;> exact h

end Step

/-! ### The invariant -/

section Inv

variable (P : Prims)

/-- What holds of every reachable context: MPPE is enabled only with keys. -/
structure Sound (ctx : Pppd) : Prop where
  count : ctx.mppe.recv.ccount < 4096
  keysSet : ctx.mppe.enabled = true → ctx.mppe.keysSet = true
  send : ctx.mppe.enabled = true → SessionKey P ctx.mppe.send.session
  recv : ctx.mppe.enabled = true → SessionKey P ctx.mppe.recv.session

variable {P} {ctx ctx' : Pppd} {i : Input}

lemma sessionKey_advance {d : Direction} (h : SessionKey P d.session) :
    SessionKey P (advance P d).session := .next d.master d.session h

lemma sessionKey_iterate {d : Direction} (h : SessionKey P d.session) (n : ℕ) :
    SessionKey P ((advance P)^[n] d).session := by
  induction n with
  | zero => exact h
  | succ n ih =>
    rw [Function.iterate_succ_apply']
    exact sessionKey_advance ih

/-- A frame of MPPE is decrypted while MPPE is enabled. -/
lemma Sound.able (h : Sound P ctx) (henabled : ctx.mppe.enabled = true) : Able P ctx := by
  refine ⟨henabled, h.send henabled, h.recv henabled, fun p hp => ?_⟩
  have hcatch := catchUp_eq P (ccountOf_lt p) h.count
  refine ⟨_, hcatch, sessionKey_iterate (h.recv henabled) _, ?_⟩
  unfold handleMppe
  rw [if_neg (by rw [henabled]; simp; omega), hcatch]

lemma Sound.init (h : ctx'.mppe = mppeInitKeys P ctx.mppe) (hkeys : ctx.mppe.keysSet = true) :
    Sound P ctx' ∧ ctx'.mppe.enabled = true := by
  unfold mppeInitKeys at h
  rw [if_pos hkeys] at h
  refine ⟨⟨?_, fun _ => ?_, fun _ => ?_, fun _ => ?_⟩, ?_⟩
  · rw [h]
    exact (by decide : 0xfff < 4096)
  · rw [h]
    exact hkeys
  · rw [h]
    exact .initial _
  · rw [h]
    exact .initial _
  · rw [h]

/-- **A step** keeps the keys sound. -/
theorem sound_step (h : Sound P ctx) (i : Input) : Sound P (step P ctx i).1 := by
  cases (step_change i h.count).1 with
  | same hm hacks hrefuses =>
    exact ⟨hm ▸ h.count, hm ▸ h.keysSet, hm ▸ h.send, hm ▸ h.recv⟩
  | keys keys hm hacks hrefuses =>
    exact ⟨hm ▸ h.count, fun _ => hm ▸ rfl, hm ▸ h.send, hm ▸ h.recv⟩
  | init hm hdone hrefuses =>
    by_cases hkeys : ctx.mppe.keysSet = true
    · exact (Sound.init hm hkeys).1
    · unfold mppeInitKeys at hm
      rw [if_neg hkeys] at hm
      exact ⟨hm ▸ h.count, hm ▸ h.keysSet, hm ▸ h.send, hm ▸ h.recv⟩
  | refused hm hacks hrefuses => exact ⟨hm ▸ h.count, hm ▸ nofun, hm ▸ nofun, hm ▸ nofun⟩
  | skipped hm hdone hacks hrefuses => exact ⟨hm ▸ h.count, hm ▸ nofun, hm ▸ nofun, hm ▸ nofun⟩
  | sent k hm hacks hrefuses =>
    exact ⟨hm ▸ h.count, hm ▸ h.keysSet, hm ▸ fun he => sessionKey_advance (h.send he), hm ▸ h.recv⟩
  | received n k hm hacks hrefuses =>
    exact ⟨hm ▸ ccount_iterate P n h.count, hm ▸ h.keysSet, hm ▸ h.send,
      hm ▸ fun he => sessionKey_iterate (h.recv he) n⟩

/-- What holds along a run that meets the condition. -/
structure Kept (s : Pppd × Prop) (outs : List Out) : Prop where
  sound : Sound P s.1
  acked : Acked outs ↔ s.2
  able : s.2 → s.1.mppe.enabled = true ∧ s.1.ccpDone = true

/-- **A step that meets the condition** keeps MPPE enabled: a request is acknowledged with keys, a
refusal does not come, and CCP is not skipped any more. -/
theorem kept_step {s : Pppd × Prop} {outs : List Out} (h : Kept (P := P) s outs) {i : Input}
    (hi : Keyed s i) : Kept (P := P) (watched P s i).1 (outs ++ (watched P s i).2) := by
  obtain ⟨hchange, hacks⟩ := step_change (P := P) i h.sound.count
  refine ⟨sound_step h.sound i, acked_append.trans (or_congr h.acked hacks), fun hor => ?_⟩
  -- what was so before the step is so after it, unless the step disables MPPE
  have hold : ¬ Acks i → s.1.mppe.enabled = true ∧ (step P s.1 i).1.ccpDone = true := fun hnot =>
    have ⟨henabled, hdone⟩ := h.able (hor.resolve_right hnot)
    ⟨henabled, ccpDone_step i hdone⟩
  cases hchange with
  | same hm hacks hrefuses => exact hm ▸ hold hacks
  | keys keys hm hacks hrefuses => exact ⟨hm ▸ (hold hacks).1, (hold hacks).2⟩
  | init hm hdone hrefuses =>
    refine ⟨(Sound.init hm ?_).2, hdone⟩
    rcases hor with hacked | hacks
    · exact h.sound.keysSet (h.able hacked).1
    · exact hi.1 hacks
  | refused hm hacks hrefuses => exact absurd hrefuses (hi.2 (hor.resolve_right hacks))
  | skipped hm hdone hacks hrefuses =>
    exact absurd ((h.able (hor.resolve_right hacks)).2) (by rw [hdone]; decide)
  | sent k hm hacks hrefuses => exact ⟨hm ▸ (hold hacks).1, (hold hacks).2⟩
  | received n k hm hacks hrefuses => exact ⟨hm ▸ (hold hacks).1, (hold hacks).2⟩

/-- **A step that does not** leaves an acknowledged request without MPPE. -/
theorem not_promise {s : Pppd × Prop} {outs : List Out} (h : Kept (P := P) s outs) {i : Input}
    (hi : ¬ Keyed s i) :
    ¬ Promise P (watched P s i).1.1 (outs ++ (watched P s i).2) := by
  obtain ⟨hchange, hacks⟩ := step_change (P := P) i h.sound.count
  intro hpromise
  have hable : s.2 ∨ Acks i → (step P s.1 i).1.mppe.enabled = true := fun hor =>
    (hpromise (acked_append.mpr (hor.imp h.acked.mpr hacks.mpr))).enabled
  refine hi ⟨fun hreq => ?_, fun hacked hrefuses => ?_⟩
  · by_contra hkeys
    cases hchange with
    | init hm hdone hrefuses =>
      have henabled := hable (.inr hreq)
      unfold mppeInitKeys at hm
      rw [if_neg hkeys] at hm
      exact hkeys (h.sound.keysSet (hm ▸ henabled))
    | same hm hnot hrefuses => exact hnot hreq
    | keys keys hm hnot hrefuses => exact hnot hreq
    | refused hm hnot hrefuses => exact hnot hreq
    | skipped hm hdone hnot hrefuses => exact hnot hreq
    | sent k hm hnot hrefuses => exact hnot hreq
    | received n k hm hnot hrefuses => exact hnot hreq
  · cases hchange with
    | refused hm hnot _ =>
      have henabled := hable (.inl hacked)
      rw [hm] at henabled
      cases henabled
    | same hm hnot hno => exact hno hrefuses
    | keys keys hm hnot hno => exact hno hrefuses
    | init hm hdone hno => exact hno hrefuses
    | skipped hm hdone hnot hno => exact hno hrefuses
    | sent k hm hnot hno => exact hno hrefuses
    | received n k hm hnot hno => exact hno hrefuses

end Inv

/-! ### The main result -/

section Main

variable (P : Prims)

/-- Watching a run does not change it. -/
lemma run_watched (s : Pppd × Prop) (inputs : List Input) :
    (run (watched P) s inputs).1.1 = (run (step P) s.1 inputs).1 ∧
      (run (watched P) s inputs).2 = (run (step P) s.1 inputs).2 := by
  induction inputs generalizing s with
  | nil => exact ⟨rfl, rfl⟩
  | cons i inputs ih =>
    rw [run_cons, run_cons]
    exact ⟨(ih _).1, congrArg ((step P s.1 i).2 ++ ·) (ih _).2⟩

/-- The context after `sstp_pppd_start`. -/
def startedWith (magic : ℕ) (user password : List UInt8) : Pppd :=
  (sstpPppdStart user password (sstpPppdCreate magic)).1

/-- **When an acknowledged MPPE request can be served**: throughout a run from the start, exactly
when every request acknowledged in it finds the keys set, and none is followed by a refusal. -/
theorem promise_iff (magic : ℕ) (user password : List UInt8) (inputs : List Input) :
    (∀ js, js <+: inputs → Promise P (run (step P) (startedWith magic user password) js).1
      (run (step P) (startedWith magic user password) js).2) ↔
      Along (watched P) Keyed (startedWith magic user password, False) inputs := by
  have h0 : Kept (P := P) (startedWith magic user password, False) [] := by
    refine ⟨⟨?_, nofun, nofun, nofun⟩, iff_of_false not_acked_nil id, False.elim⟩
    exact (by decide : 0 < 4096)
  rw [← run_always_iff (h := []) (fun s outs => Kept (P := P) s outs)
    (fun s outs => Promise P s.1 outs)
    (fun s outs h hacked => h.sound.able (h.able (h.acked.mp hacked)).1)
    (fun s outs i h hi => kept_step h hi) (fun s outs i h hi => not_promise h hi) h0]
  refine forall_congr' fun js => imp_congr_right fun _ => ?_
  obtain ⟨hctx, houts⟩ := run_watched P (startedWith magic user password, False) js
  rw [hctx, List.nil_append, houts]

end Main

/-! ### A request before the challenge -/

/-- A CCP Configure-Request for stateless 128-bit MPPE. -/
def mppeRequest : Input :=
  .frame [0xff, 0x03, 0x80, 0xfd, 1, 1, 0, 10, 18, 6, 0x01, 0x00, 0x00, 0x40] []

/-- **A request before the challenge** is acknowledged, and MPPE stays off. -/
theorem earlyRequest_not_promise :
    ¬ Promise MppeKeys.somePrims
      (run (step MppeKeys.somePrims) (startedWith 0 [] []) [mppeRequest]).1
      (run (step MppeKeys.somePrims) (startedWith 0 [] []) [mppeRequest]).2 := by
  intro hpromise
  refine absurd (hpromise ?_).enabled (by decide +kernel)
  refine ⟨.frame [0xff, 0x03, 0x80, 0xfd, 2, 1, 0, 10, 18, 6, 0x01, 0x00, 0x00, 0x40],
    by decide +kernel, _, rfl, rfl, by decide⟩

end SstpClient.CcpAck
