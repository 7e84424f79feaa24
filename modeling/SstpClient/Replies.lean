import SstpClient.LinkUp
import SstpClient.MsChap

/-!
The control packets that the endpoint sends.

Requests and the CHAP response are built with their length. An acknowledgement and the answer to an
echo are the received bytes with another code, and have the length field of the peer.
-/

namespace SstpClient.Replies

open SstpClient.Lib.Bytes SstpClient.Lib.Machine SstpClient.Ppp SstpClient.PppSpec
open SstpClient.LinkUp SstpClient.MsChap

/-! ### What is promised -/

/-- The protocols of control packets. -/
def Control (proto : ℕ) : Prop :=
  proto = protoLcp ∨ proto = protoChap ∨ proto = protoIpcp ∨ proto = protoCcp

instance (proto : ℕ) : Decidable (Control proto) := inferInstanceAs (Decidable (_ ∨ _ ∨ _ ∨ _))

/-- The protocol and the payload of a control packet. -/
def controlPacket : Out → Option (ℕ × List UInt8)
  | .frame bytes => match parseFrame bytes with
    | some (proto, p) => if Control proto then some (proto, p) else none
    | none => none
  | _ => none

def controlPackets (outs : List Out) : List (ℕ × List UInt8) := outs.filterMap controlPacket

def lengthField (p : List UInt8) : ℕ := be16 (p.getD 2 0) (p.getD 3 0)

structure WellFormed (p : List UInt8) : Prop where
  header : 4 ≤ p.length
  length : lengthField p = p.length

/-- What is asked of a packet that is sent when `i` happens. -/
structure Proper (i : Input) (q : ℕ × List UInt8) : Prop where
  wellFormed : WellFormed q.2
  /-- A Configure-Ack has the identifier and the options of the request. -/
  repeats : q.1 ≠ protoChap → q.2.getD 0 0 = fsmConfAck → ∃ bytes peerChallenge request,
    i = .frame bytes peerChallenge ∧ parseFrame bytes = some (q.1, request) ∧
      request.getD 0 0 = fsmConfReq ∧ q.2.getD 1 0 = request.getD 1 0 ∧
      q.2.drop 4 = (body request).drop 4

/-- All control packets are proper. -/
def AllProper (i : Input) (outs : List Out) : Prop := ∀ q ∈ controlPackets outs, Proper i q

/-- The length field of a packet can be true. -/
def Consistent (p : List UInt8) : Prop := 4 ≤ lengthField p ∧ lengthField p ≤ p.length

instance (p : List UInt8) : Decidable (Consistent p) := inferInstanceAs (Decidable (_ ∧ _))

/-- The packet is answered by a copy of itself. -/
def Copied (proto : ℕ) (p : List UInt8) : Prop :=
  4 ≤ p.length ∧
    ((proto = protoLcp ∧ p.getD 0 0 = fsmConfReq ∧ (body p).length ≤ 256) ∨
      (proto = protoLcp ∧ p.getD 0 0 = fsmEchoReq ∧ (body p).length ≤ 64) ∨
      (proto = protoIpcp ∧ p.getD 0 0 = fsmConfReq ∧ (body p).length ≤ 128) ∨
      (proto = protoCcp ∧ p.getD 0 0 = fsmConfReq ∧ (body p).length ≤ 64))

instance (proto : ℕ) (p : List UInt8) : Decidable (Copied proto p) :=
  inferInstanceAs (Decidable (_ ∧ (_ ∨ _ ∨ _ ∨ _)))

/-! ### Packets and their copies -/

section Packets

variable {i : Input} {p : List UInt8} {proto : ℕ}

/-- Only a Configure-Ack has to repeat anything. -/
lemma proper_of_code (h : WellFormed p) (hcode : p.getD 0 0 ≠ fsmConfAck) : Proper i (proto, p) :=
  ⟨h, fun _ hack => absurd hack hcode⟩

lemma length_reply (p : List UInt8) (code : UInt8) :
    (reply p code).length = min (lengthField p) p.length := by
  unfold reply
  rw [List.length_set]
  exact List.length_take

/-- A copy differs in the code only. -/
lemma getD_reply {code : UInt8} {k : ℕ} (h0 : k ≠ 0) (hk : k < (reply p code).length) :
    (reply p code).getD k 0 = p.getD k 0 := by
  have hfield : k < lengthField p := by
    rw [length_reply] at hk
    exact lt_of_lt_of_le hk (Nat.min_le_left _ _)
  rw [List.getD_eq_getElem?_getD, List.getD_eq_getElem?_getD]
  have hbody : body p = p.take (lengthField p) := rfl
  unfold reply
  rw [List.getElem?_set_ne h0.symm, hbody, List.getElem?_take_of_lt hfield]

lemma code_reply {code : UInt8} (h : 0 < (reply p code).length) : (reply p code).getD 0 0 = code := by
  unfold reply at h ⊢
  rw [List.length_set] at h
  rw [List.getD_eq_getElem?_getD, List.getElem?_set_self h]
  rfl

lemma lengthField_reply {code : UInt8} (h : 4 ≤ (reply p code).length) :
    lengthField (reply p code) = lengthField p := by
  unfold lengthField
  rw [getD_reply (by decide) (by omega), getD_reply (by decide) (by omega)]

/-- **A copy is well formed** exactly if the packet's length field can be true. -/
lemma wellFormed_reply_iff (code : UInt8) :
    WellFormed (reply p code) ↔ Consistent p := by
  constructor
  · rintro ⟨hheader, hlength⟩
    rw [lengthField_reply hheader, length_reply] at hlength
    rw [length_reply] at hheader
    exact ⟨hheader.trans (Nat.min_le_left _ _), hlength.le.trans (Nat.min_le_right _ _)⟩
  · rintro ⟨hfour, hle⟩
    have hlen : (reply p code).length = lengthField p := by
      rw [length_reply, Nat.min_eq_left hle]
    have hheader : 4 ≤ (reply p code).length := hlen ▸ hfour
    exact ⟨hheader, (lengthField_reply hheader).trans hlen.symm⟩

/-- **An acknowledgement** is proper exactly if the length field of the request can be true. -/
lemma proper_ack_iff {bytes peerChallenge : List UInt8} (hp : parseFrame bytes = some (proto, p))
    (hreq : p.getD 0 0 = fsmConfReq) :
    Proper (.frame bytes peerChallenge) (proto, reply p fsmConfAck) ↔ Consistent p := by
  rw [← wellFormed_reply_iff fsmConfAck]
  refine ⟨Proper.wellFormed, fun hwf => ⟨hwf, fun _ _ => ?_⟩⟩
  have hheader := hwf.header
  have hoptions : (reply p fsmConfAck).drop 4 = (body p).drop 4 := by
    unfold reply
    rw [List.drop_set_of_lt (by decide)]
  exact ⟨bytes, peerChallenge, p, rfl, hp, hreq, getD_reply (by decide) (by omega), hoptions⟩

/-- The magic number of an answered echo is behind the header. -/
lemma wellFormed_splice_iff {q : List UInt8} (h8 : 8 ≤ q.length) (magic : ℕ) :
    WellFormed (splice q 4 (toBe32 magic)) ↔ WellFormed q := by
  have hlen : (splice q 4 (toBe32 magic)).length = q.length :=
    length_splice (by rw [length_toBe32]; omega)
  have hget : ∀ k, k < 4 → (splice q 4 (toBe32 magic)).getD k 0 = q.getD k 0 := by
    intro k hk
    rw [List.getD_eq_getElem?_getD, getElem?_splice_lt (by omega) hk, ← List.getD_eq_getElem?_getD]
  have hfield : lengthField (splice q 4 (toBe32 magic)) = lengthField q := by
    unfold lengthField
    rw [hget 2 (by decide), hget 3 (by decide)]
  constructor
  · rintro ⟨hheader, hlength⟩
    exact ⟨hlen ▸ hheader, hfield.symm.trans (hlength.trans hlen)⟩
  · rintro ⟨hheader, hlength⟩
    exact ⟨hlen.symm ▸ hheader, hfield.trans (hlength.trans hlen.symm)⟩

end Packets

/-! ### What is put out -/

section Outs

variable {i : Input} {outs outs' : List Out}

@[simp] lemma allProper_nil : AllProper i [] := nofun

@[simp] lemma allProper_append :
    AllProper i (outs ++ outs') ↔ AllProper i outs ∧ AllProper i outs' := by
  unfold AllProper controlPackets
  rw [List.filterMap_append]
  exact List.forall_mem_append

/-- Nothing of it is a control packet. -/
lemma allProper_of_none (h : ∀ o ∈ outs, controlPacket o = none) : AllProper i outs := by
  unfold AllProper controlPackets
  rw [List.filterMap_eq_nil_iff.mpr h]
  nofun

@[simp] lemma allProper_notify (e : PppdEvent) (ctx : Pppd) : AllProper i [.notify e ctx] :=
  allProper_of_none fun _ ho => by
    rw [List.mem_singleton.mp ho]
    rfl

lemma parse_control {proto : ℕ} (h : Control proto) (p : List UInt8) :
    parseFrame ([0xff, 0x03] ++ toBe16 proto ++ p) = some (proto, p) := by
  rcases h with rfl | rfl | rfl | rfl <;> exact parseFrame_of_proto (by decide) (by decide) p

/-- **A control packet is sent.** -/
lemma allProper_sendFrame {proto : ℕ} (h : Control proto) {p : List UInt8} (hp : p.length ≤ mru)
    (ctx : Pppd) : AllProper i (sendFrame proto p ctx).2 ↔ Proper i (proto, p) := by
  have hpacket : controlPacket (.frame ([0xff, 0x03] ++ toBe16 proto ++ p)) = some (proto, p) := by
    unfold controlPacket
    dsimp only
    rw [parse_control h]
    exact if_pos h
  unfold AllProper controlPackets sendFrame pppSendFrame
  dsimp only
  rw [if_neg (not_lt.mpr hp), List.filterMap_cons_some hpacket]
  exact List.forall_mem_singleton

lemma allProper_seq {f g : Act} {ctx : Pppd} :
    AllProper i (f.seq g ctx).2 ↔ AllProper i (f ctx).2 ∧ AllProper i (g (f ctx).1).2 :=
  allProper_append

/-- A part that sends proper control packets only. -/
def Sends (i : Input) (f : Act) : Prop := ∀ ctx, AllProper i (f ctx).2

lemma composes_sends : Composes (Sends i) where
  skip := fun _ => allProper_nil
  seq := fun hf hg ctx => allProper_seq.mpr ⟨hf ctx, hg _⟩
  ofForall := by
    intro f h ctx
    obtain ⟨g, hg, heq⟩ := h ctx
    rw [heq]
    exact hg ctx

lemma sends_update (h : Pppd → Pppd) : Sends i (update h) := fun _ => allProper_nil

lemma sends_notify (e : PppdEvent) : Sends i (notify e) := fun _ => allProper_notify e _

/-- **A request** has its length. -/
lemma proper_confReq {proto : ℕ} {id : UInt8} {options : List UInt8} (h : options.length ≤ 64) :
    Proper i (proto, confReq id options) := by
  have hlen : (confReq id options).length = 4 + options.length := by
    unfold confReq
    rw [List.length_append]
    rfl
  have hcode : fsmConfReq ≠ fsmConfAck := by decide
  refine proper_of_code ⟨by omega, ?_⟩ hcode
  change be16 (UInt8.ofNat ((4 + options.length) / 256)) (UInt8.ofNat (4 + options.length)) = _
  rw [be16_ofNat, hlen, Nat.mod_eq_of_lt (by omega)]

lemma sends_confReq {proto : ℕ} (hproto : Control proto) {f : Act}
    (hf : ∀ ctx, ∃ id options, options.length ≤ 64 ∧
      (f ctx).2 = (sendFrame proto (confReq id options) ctx).2) : Sends i f := by
  intro ctx
  obtain ⟨id, options, hlen, heq⟩ := hf ctx
  have hsize : (confReq id options).length ≤ mru := by
    unfold confReq mru
    rw [List.length_append]
    change 4 + options.length ≤ 1400
    omega
  rw [heq]
  exact (allProper_sendFrame hproto hsize ctx).mpr (proper_confReq hlen)

lemma sends_lcpConfReq : Sends i sendLcpConfReq :=
  sends_confReq (.inl rfl) fun _ => ⟨_, _, Nat.le_of_ble_eq_true rfl, rfl⟩

lemma sends_ipcpConfReq : Sends i sendIpcpConfReq :=
  sends_confReq (.inr (.inr (.inl rfl))) fun _ => ⟨_, _, Nat.le_of_ble_eq_true rfl, rfl⟩

lemma sends_ccpConfReq : Sends i sendCcpConfReq :=
  sends_confReq (.inr (.inr (.inr rfl))) fun _ => ⟨_, _, Nat.le_of_ble_eq_true rfl, rfl⟩

lemma sends_notifyUp : Sends i maybeNotifyUp :=
  composes_sends.maybeNotifyUp (sends_update _) (sends_notify _)

lemma sends_ccpFinished : Sends i ccpFinished :=
  composes_sends.ccpFinished (sends_update _) sends_ipcpConfReq sends_notifyUp

lemma sends_beforeCcp : Sends i ipcpBeforeCcp := by
  refine composes_sends.ofForall fun ctx => ?_
  unfold ipcpBeforeCcp
  split_ifs
  · exact ⟨_, composes_sends.seq (sends_update _) sends_ccpFinished, rfl⟩
  · exact ⟨_, composes_sends.skip, rfl⟩

end Outs

/-! ### The handlers -/

section Handlers

variable {bytes peerChallenge p : List UInt8} {ctx : Pppd}

lemma copied_lcp : Copied protoLcp p ↔ 4 ≤ p.length ∧
    (p.getD 0 0 = fsmConfReq ∧ (body p).length ≤ 256 ∨
      p.getD 0 0 = fsmEchoReq ∧ (body p).length ≤ 64) := by
  simp only [Copied, protoLcp, protoIpcp, protoCcp, true_and, Nat.reduceEqDiff, false_and, or_false]

lemma copied_ipcp : Copied protoIpcp p ↔
    4 ≤ p.length ∧ p.getD 0 0 = fsmConfReq ∧ (body p).length ≤ 128 := by
  simp only [Copied, protoLcp, protoIpcp, protoCcp, true_and, Nat.reduceEqDiff, false_and, or_false,
    false_or]

lemma copied_ccp : Copied protoCcp p ↔
    4 ≤ p.length ∧ p.getD 0 0 = fsmConfReq ∧ (body p).length ≤ 64 := by
  simp only [Copied, protoLcp, protoIpcp, protoCcp, true_and, Nat.reduceEqDiff, false_and, false_or]

/-- Other protocols have no such answers. -/
lemma not_copied {proto : ℕ} (hlcp : proto ≠ protoLcp) (hipcp : proto ≠ protoIpcp)
    (hccp : proto ≠ protoCcp) : ¬ Copied proto p := by
  rintro ⟨-, ⟨h, -⟩ | ⟨h, -⟩ | ⟨h, -⟩ | ⟨h, -⟩⟩
  · exact hlcp h
  · exact hlcp h
  · exact hipcp h
  · exact hccp h

/-- The answer to an echo, with the magic number. -/
lemma proper_echo_iff {i : Input} (magic : ℕ) :
    Proper i (protoLcp, if 8 ≤ (reply p fsmEchoRep).length
      then splice (reply p fsmEchoRep) 4 (toBe32 magic) else reply p fsmEchoRep) ↔
        Consistent p := by
  rw [← wellFormed_reply_iff fsmEchoRep]
  have hcode : WellFormed (reply p fsmEchoRep) → (reply p fsmEchoRep).getD 0 0 ≠ fsmConfAck := by
    intro hwf
    have hheader := hwf.header
    rw [code_reply (by omega)]
    decide
  split_ifs with h8
  · have hfirst : (splice (reply p fsmEchoRep) 4 (toBe32 magic)).getD 0 0 =
        (reply p fsmEchoRep).getD 0 0 := by
      rw [List.getD_eq_getElem?_getD, getElem?_splice_lt (by omega) (by decide),
        ← List.getD_eq_getElem?_getD]
    rw [← wellFormed_splice_iff h8 magic]
    refine ⟨Proper.wellFormed, fun hwf => proper_of_code hwf ?_⟩
    rw [hfirst]
    exact hcode ((wellFormed_splice_iff h8 magic).mp hwf)
  · exact ⟨Proper.wellFormed, fun hwf => proper_of_code hwf (hcode hwf)⟩

/-- The answer to a Terminate-Request. -/
lemma proper_termAck {i : Input} (id : UInt8) : Proper i (protoLcp, [fsmTermAck, id, 0, 4]) := by
  have hfield : be16 0 4 = 4 := by decide
  have hcode : fsmTermAck ≠ fsmConfAck := by decide
  exact proper_of_code ⟨Nat.le_refl 4, hfield⟩ hcode

/-- A copy is not longer than what is copied. -/
lemma length_reply_le {code : UInt8} {n : ℕ} (h : (body p).length ≤ n) (hn : n ≤ mru) :
    (reply p code).length ≤ mru := by
  unfold reply
  rw [List.length_set]
  exact h.trans hn

lemma lcp_iff (hp : parseFrame bytes = some (protoLcp, p)) :
    AllProper (.frame bytes peerChallenge) (handleLcp p ctx).2 ↔
      (Copied protoLcp p → Consistent p) := by
  have hlcp : Control protoLcp := .inl rfl
  unfold handleLcp
  rw [copied_lcp]
  by_cases h4 : p.length < 4
  · rw [if_pos h4]
    exact iff_of_true allProper_nil fun hc => absurd hc.1 (not_le.mpr h4)
  rw [if_neg h4]
  have hfour := not_lt.mp h4
  by_cases hreq : p.getD 0 0 = fsmConfReq
  · have hnecho : p.getD 0 0 ≠ fsmEchoReq := by rw [hreq]; decide
    rw [if_pos hreq]
    by_cases hlong : 256 < (body p).length
    · rw [if_pos hlong]
      refine iff_of_true allProper_nil ?_
      rintro ⟨-, ⟨-, hle⟩ | ⟨hecho, -⟩⟩
      · exact absurd hle (not_le.mpr hlong)
      · exact absurd hecho hnecho
    · rw [if_neg hlong]
      have hle := not_lt.mp hlong
      have hrest : AllProper (.frame bytes peerChallenge)
          ((if ctx.lcpOpened = true then skip else sendLcpConfReq) ctx).2 := by
        split_ifs
        · exact allProper_nil
        · exact sends_lcpConfReq ctx
      rw [allProper_seq, allProper_sendFrame hlcp (length_reply_le hle (by decide)),
        proper_ack_iff hp hreq]
      exact ⟨fun h _ => h.1, fun h => ⟨h ⟨hfour, .inl ⟨hreq, hle⟩⟩, hrest⟩⟩
  rw [if_neg hreq]
  by_cases hecho : p.getD 0 0 = fsmEchoReq
  · rw [if_neg (by rw [hecho]; decide), if_neg (by rw [hecho]; decide),
      if_neg (by rw [hecho]; decide), if_pos hecho]
    split_ifs with hlong
    · refine iff_of_true allProper_nil ?_
      rintro ⟨-, ⟨hcode, -⟩ | ⟨-, hle⟩⟩
      · exact absurd hcode hreq
      · exact absurd hle (not_le.mpr hlong)
    · have hle := not_lt.mp hlong
      have hsize : (if 8 ≤ (reply p fsmEchoRep).length
          then splice (reply p fsmEchoRep) 4 (toBe32 ctx.magic) else reply p fsmEchoRep).length ≤
            mru := by
        split_ifs with h8
        · rw [length_splice (by rw [length_toBe32]; omega)]
          exact length_reply_le hle (by decide)
        · exact length_reply_le hle (by decide)
      rw [allProper_sendFrame hlcp hsize, proper_echo_iff]
      exact ⟨fun h _ => h, fun h => h ⟨hfour, .inr ⟨hecho, hle⟩⟩⟩
  · refine iff_of_true ?_ ?_
    · rw [if_neg hecho]
      split_ifs
      · exact allProper_nil
      · exact sends_lcpConfReq ctx
      · exact allProper_seq.mpr ⟨(allProper_sendFrame hlcp (Nat.le_of_ble_eq_true rfl) ctx).mpr
          (proper_termAck _), allProper_notify _ _⟩
      · exact allProper_nil
    · rintro ⟨-, ⟨hcode, -⟩ | ⟨hcode, -⟩⟩
      · exact absurd hcode hreq
      · exact absurd hcode hecho

lemma ipcp_iff (hp : parseFrame bytes = some (protoIpcp, p)) :
    AllProper (.frame bytes peerChallenge) (handleIpcp p ctx).2 ↔
      (Copied protoIpcp p → Consistent p) := by
  have hipcp : Control protoIpcp := .inr (.inr (.inl rfl))
  unfold handleIpcp
  rw [copied_ipcp]
  by_cases h4 : p.length < 4
  · rw [if_pos h4]
    exact iff_of_true allProper_nil fun hc => absurd hc.1 (not_le.mpr h4)
  rw [if_neg h4, allProper_seq, and_iff_right (sends_beforeCcp ctx)]
  have hfour := not_lt.mp h4
  unfold ipcpSwitch
  by_cases hreq : p.getD 0 0 = fsmConfReq
  · rw [if_pos hreq, allProper_seq, and_iff_right (sends_update _ _)]
    split_ifs with hlong
    · exact iff_of_true allProper_nil fun hc => absurd hc.2.2 (not_le.mpr hlong)
    · have hle := not_lt.mp hlong
      rw [allProper_sendFrame hipcp (length_reply_le hle (by decide)), proper_ack_iff hp hreq]
      exact ⟨fun h _ => h, fun h => h ⟨hfour, hreq, hle⟩⟩
  · rw [if_neg hreq]
    refine iff_of_true ?_ fun hc => absurd hc.2.1 hreq
    split_ifs
    · exact composes_sends.seq (sends_update _)
        (composes_sends.ipcpAcked (sends_update _) sends_notifyUp) _
    · exact composes_sends.seq (sends_update _) sends_ipcpConfReq _
    · exact allProper_nil

section Keys

variable (P : Prims)

lemma ccp_iff (hp : parseFrame bytes = some (protoCcp, p)) :
    AllProper (.frame bytes peerChallenge) (handleCcp P p ctx).2 ↔
      (Copied protoCcp p → Consistent p) := by
  have hccp : Control protoCcp := .inr (.inr (.inr rfl))
  have hinit : Sends (.frame bytes peerChallenge) ((update (mppeInit P)).seq ccpFinished) :=
    composes_sends.seq (sends_update _) sends_ccpFinished
  unfold handleCcp
  rw [copied_ccp]
  by_cases h4 : p.length < 4
  · rw [if_pos h4]
    exact iff_of_true allProper_nil fun hc => absurd hc.1 (not_le.mpr h4)
  rw [if_neg h4]
  by_cases hreq : p.getD 0 0 = fsmConfReq
  · rw [if_pos hreq]
    split_ifs with hlong
    · exact iff_of_true allProper_nil fun hc => absurd hc.2.2 (not_le.mpr hlong)
    · have hle := not_lt.mp hlong
      rw [allProper_seq, and_iff_left (hinit _),
        allProper_sendFrame hccp (length_reply_le hle (by decide)), proper_ack_iff hp hreq]
      exact ⟨fun h _ => h, fun h => h ⟨not_lt.mp h4, hreq, hle⟩⟩
  · rw [if_neg hreq]
    refine iff_of_true ?_ fun hc => absurd hc.2.1 hreq
    split_ifs
    · exact hinit ctx
    · exact composes_sends.seq (sends_update _) sends_ccpFinished _
    · exact allProper_nil

/-- **The CHAP response** has its length. -/
lemma sends_handleChap (C : Crypto) {i : Input} (hrandom : peerChallenge.length = 16) :
    Sends i (handleChap (withMsChap C P) peerChallenge p) := by
  have hauth : Sends i (iosPppdAuth (withMsChap C P)) := by
    intro ctx
    unfold iosPppdAuth
    cases (withMsChap C P).mppeGet ctx.chap <;> exact allProper_nil
  refine composes_sends.handleChap _ (sends_update _) sends_ccpConfReq (sends_notify _)
    (composes_sends.ofForall fun ctx => ?_)
  obtain ⟨chap, hchap⟩ : ∃ chap, chap = chapOf (withMsChap C P) peerChallenge p ctx := ⟨_, rfl⟩
  have hlen : chap.challenge.length = 16 ∧ chap.response.length = 8 ∧ chap.ntResponse.length = 24 := by
    rw [hchap]
    exact ⟨hrandom, List.length_replicate, length_ntResponse C _ _ _ _⟩
  have hproper : Proper i (protoChap, chapResponseBody (p.getD 1 0) chap ctx.username) := by
    have hread := readResponse_body hlen.1 hlen.2.1 hlen.2.2 (p.getD 1 0) ctx.username
    unfold readResponse at hread
    split_ifs at hread with h
    exact ⟨⟨le_trans (by decide) h.2.2.2, h.2.1⟩, fun hne => absurd rfl hne⟩
  have hsend : Sends i (sendFrame protoChap (chapResponseBody (p.getD 1 0) chap ctx.username)) :=
    fun c => (allProper_sendFrame (.inr (.inl rfl)) (length_chapResponseBody_le hlen _ _) c).mpr
      hproper
  rw [hchap] at hsend
  exact ⟨_, composes_sends.seq (sends_update _) (composes_sends.seq hsend
    (composes_sends.seq (sends_notify _) hauth)), rfl⟩

/-- No frame is sent for an MPPE packet. -/
lemma sends_handleMppe {i : Input} : Sends i (handleMppe P p) := by
  intro ctx
  unfold handleMppe
  split_ifs
  · exact allProper_nil
  · split
    · exact allProper_of_none fun _ ho => by rw [List.mem_singleton.mp ho]; rfl
    · unfold mppeDecrypt
      split_ifs
      · exact allProper_of_none fun _ ho => by rw [List.mem_singleton.mp ho]; rfl
      · dsimp only
        split
        · split_ifs
          · exact allProper_of_none fun _ ho => by rw [List.mem_singleton.mp ho]; rfl
          · exact allProper_nil
        · exact allProper_nil

/-- IP packets are no control packets. -/
lemma allProper_sendIp {i : Input} (ip : List UInt8) (ctx : Pppd) :
    AllProper i (sstpPppdSendIp P ip ctx).2.2 := by
  have hframe : ∀ (proto : ℕ) (payload : List UInt8), proto = protoIp ∨ proto = protoMppe →
      AllProper i (pppSendFrame proto payload).2 := by
    intro proto payload hproto
    unfold pppSendFrame
    split_ifs
    · exact allProper_nil
    · refine allProper_of_none fun o ho => ?_
      rw [List.mem_singleton.mp ho]
      unfold controlPacket
      rcases hproto with rfl | rfl
      · dsimp only
        rw [parseFrame_of_proto (by decide) (by decide)]
        exact if_neg (by decide)
      · dsimp only
        rw [parseFrame_of_proto (by decide) (by decide)]
        exact if_neg (by decide)
  unfold sstpPppdSendIp pppSendIpPlainOrMppe
  split_ifs
  · exact allProper_nil
  · exact hframe _ _ (.inr rfl)
  · exact hframe _ _ (.inl rfl)

end Keys

end Handlers

/-! ### Whole runs -/

/-- What happens to the endpoint; the random bytes of a challenge are sixteen. -/
inductive Event
  | frame (bytes : List UInt8) (random : { r : List UInt8 // r.length = 16 })
  | sendIp (packet : List UInt8)

def Event.input : Event → Input
  | .frame bytes random => .frame bytes random.val
  | .sendIp packet => .sendIp packet

/-- The condition on an event: a packet that is answered by a copy of itself has a length field that
can be true. -/
def Answerable : Event → Prop
  | .frame bytes _ => ∀ proto p, parseFrame bytes = some (proto, p) → Copied proto p → Consistent p
  | .sendIp _ => True

section Run

variable (C : Crypto) (P : Prims)

def receive (ctx : Pppd) (e : Event) : Pppd × List Out := step (withMsChap C P) ctx e.input

/-- **One event.** -/
theorem receive_iff (ctx : Pppd) (e : Event) :
    AllProper e.input (receive C P ctx e).2 ↔ Answerable e := by
  cases e with
  | sendIp packet => exact iff_of_true (allProper_sendIp _ packet ctx) trivial
  | frame bytes random =>
    unfold receive Event.input step pppDispatch Answerable
    dsimp only
    cases hp : parseFrame bytes with
    | none => exact iff_of_true allProper_nil nofun
    | some pp =>
      obtain ⟨proto, p⟩ := pp
      have hone : (∀ proto' p', some (proto, p) = some (proto', p') → Copied proto' p' →
          Consistent p') ↔ (Copied proto p → Consistent p) := by
        constructor
        · exact fun h => h proto p rfl
        · rintro h proto' p' heq
          obtain ⟨rfl, rfl⟩ := Prod.mk.inj (Option.some.inj heq)
          exact h
      rw [hone]
      dsimp only
      by_cases hlcp : proto = protoLcp
      · subst hlcp
        exact lcp_iff hp
      by_cases hchap : proto = protoChap
      · subst hchap
        exact iff_of_true (sends_handleChap P C random.property ctx) fun hc =>
          absurd hc (not_copied (by decide) (by decide) (by decide))
      by_cases hipcp : proto = protoIpcp
      · subst hipcp
        exact ipcp_iff hp
      by_cases hccp : proto = protoCcp
      · subst hccp
        exact ccp_iff _ hp
      rw [if_neg hlcp, if_neg hchap, if_neg hipcp, if_neg hccp]
      refine iff_of_true ?_ fun hc => absurd hc (not_copied hlcp hipcp hccp)
      split_ifs
      · exact sends_handleMppe _ ctx
      · exact allProper_of_none fun _ ho => by rw [List.mem_singleton.mp ho]; rfl
      · exact allProper_nil

/-- Whatever is sent from the start on is proper. -/
structure ProperRun (magic : ℕ) (user password : List UInt8) (events : List Event) : Prop where
  start : ∀ i, AllProper i (sstpPppdStart user password (sstpPppdCreate magic)).2
  steps : ∀ t ∈ trace (receive C P) (sstpPppdStart user password (sstpPppdCreate magic)).1 events,
    AllProper t.input.input t.events

lemma steps_iff (ctx : Pppd) (events : List Event) :
    (∀ t ∈ trace (receive C P) ctx events, AllProper t.input.input t.events) ↔
      ∀ e ∈ events, Answerable e := by
  induction events generalizing ctx with
  | nil =>
    rw [trace_nil]
    exact iff_of_true (List.forall_mem_nil _) (List.forall_mem_nil _)
  | cons e events ih =>
    rw [trace_cons, List.forall_mem_cons, List.forall_mem_cons, ih]
    dsimp only
    rw [receive_iff]

/-- **Well-formed control packets**, exactly if no packet that is answered by a copy of itself has a
length field below 4 or beyond its end. -/
theorem properRun_iff (magic : ℕ) (user password : List UInt8) (events : List Event) :
    ProperRun C P magic user password events ↔ ∀ e ∈ events, Answerable e := by
  have hstart : ∀ i, AllProper i (sstpPppdStart user password (sstpPppdCreate magic)).2 := fun _ =>
    composes_sends.seq (sends_update _) (composes_sends.seq (sends_notify _) sends_lcpConfReq) _
  exact ⟨fun h => (steps_iff C P _ events).mp h.steps,
    fun h => ⟨hstart, (steps_iff C P _ events).mpr h⟩⟩

end Run

/-- An LCP Configure-Request of four bytes that says it has twenty. -/
def overlong : Event :=
  .frame [0xff, 0x03, 0xc0, 0x21, 1, 7, 0, 20] (zeros 16)

/-- **The length field of the peer** is sent back to it. -/
theorem overlong_not_proper :
    ¬ ∀ (C : Crypto) (P : Prims) (magic : ℕ) (user password : List UInt8) (events : List Event),
      ProperRun C P magic user password events := by
  intro h
  have hproper := (h (tellingCrypto []) MppeKeys.somePrims 0 [] [] [overlong]).steps
  have hone := hproper _ List.mem_cons_self (protoLcp, [2, 7, 0, 20]) (by decide)
  exact absurd hone.wellFormed.length (by decide)

end SstpClient.Replies
