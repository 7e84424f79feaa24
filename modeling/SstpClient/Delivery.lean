import SstpClient.MppeSync
import SstpClient.PppMem
import SstpClient.Reassembly
import SstpClient.Teardown
import SstpClient.WireRun

/-!
From the socket to the application.

`sstp_recv_cont` takes packets out of the stream, `sstp_state_handle_packet` takes the frames out of
the packets, and `ppp_dispatch` the IP packets out of the frames. If the other end numbers its MPPE
packets from the place of the key chain where this end stands, all it sends comes out in order,
however the reads cut the stream.
-/

namespace SstpClient.Delivery

open SstpClient.Lib.Bytes SstpClient.Lib.Footprint SstpClient.Packet SstpClient.PacketImage
open SstpClient.Recv SstpClient.Reassembly
open SstpClient.Ppp (Prims Pppd Mppe Direction mru protoIp sstpPppdSendIp pppSendIpPlainOrMppe
  pppSendFrame)
open SstpClient.PppSpec (parseFrame_of_proto sendIp_enabled)
open SstpClient.MppeKeys SstpClient.MppeSync
open SstpClient.State (SstpState Signal Message sstpStateHandlePacket)

/-! ### What is sent -/

/-- What an end sends while the call is up. -/
inductive Item
  | ip (packet : List UInt8)
  | echoRequest
  | echoReply
  deriving DecidableEq

section Send

variable (P : Prims)

def framesOf (outs : List Ppp.Out) : List (List UInt8) :=
  outs.filterMap fun
    | .frame bytes => some bytes
    | _ => none

/-- The packet of an item, if the item is taken: `sstp_pppd_send_ip` refuses some IP packets. -/
def send (ctx : Pppd) : Item → Pppd × List (Item × List UInt8)
  | .ip p => ((sstpPppdSendIp P p ctx).2.1,
      (framesOf (sstpPppdSendIp P p ctx).2.2).map fun f => (.ip p, Wire.packet f))
  | .echoRequest => (ctx, [(.echoRequest, image .echoRequest [])])
  | .echoReply => (ctx, [(.echoReply, image .echoReply [])])

end Send

/-! ### What is received -/

/-- The receive side, the state machine and the PPP context. -/
structure Receiver where
  rx : Rx
  st : SstpState
  ctx : Pppd

inductive Event
  | rx (e : RxEvent)
  | signal (e : Signal)
  /-- A control message is sent. -/
  | send (m : Message)
  /-- What the PPP layer does. -/
  | out (o : Ppp.Out)
  /-- Memory outside the buffer is read. -/
  | overrun
  deriving DecidableEq

/-- The socket is ready: how `SSL_read` goes, what the array of `sstp_state_connect_ack` or
`sstp_state_connect_nak` holds, and the random bytes a CHAP response would take. -/
structure Call where
  outcomes : List SslRead
  attrs : Attrs
  peerChallenge : List UInt8

section Receive

variable (P : Prims)

/-- `sstp_state_handle_packet`, where `forward_cb` is `sstp_pppd_send`. -/
def handlePacket (s : Receiver) (len : ℤ) (c : Call) : Receiver × List Event :=
  match sstpStateHandlePacket s.st len (listMem s.rx.buf.data) c.attrs with
  | none => (s, [.overrun])
  | some h =>
    let s := { s with st := h.st }
    let events : List Event := h.signals.map .signal ++ (h.sends.map Event.send).toList
    match h.forwards with
    | none => (s, events)
    | some frame =>
      let r := Ppp.step P s.ctx (.frame frame c.peerChallenge)
      ({ s with ctx := r.1 }, events ++ r.2.map .out)

/-- `sstp_recv_cont`; the reset of the buffer behind the handler leaves its bytes alone. -/
def step (s : Receiver) (c : Call) : Receiver × List Event :=
  let r := recvReady s.rx c.outcomes
  let s := { s with rx := r.1 }
  match delivered r.2 with
  | [] => (s, r.2.map .rx)
  | (_, len, _) :: _ => ((handlePacket P s len c).1, r.2.map .rx ++ (handlePacket P s len c).2)

end Receive

/-- What is seen from outside of the receive side. -/
def effectsOf (events : List Event) : List Event :=
  events.filter fun
    | .rx _ => false
    | _ => true

/-- What is seen of an item that is received. -/
def Item.effects : Item → List Event
  | .ip p => [.out (.ip p)]
  | .echoRequest => [.send .echoReply]
  | .echoReply => []

@[simp] lemma effectsOf_append (es es' : List Event) :
    effectsOf (es ++ es') = effectsOf es ++ effectsOf es' := List.filter_append ..

@[simp] lemma effectsOf_rx (es : List RxEvent) : effectsOf (es.map .rx) = [] := by
  induction es with
  | nil => rfl
  | cons e es ih => exact ih

@[simp] lemma effectsOf_effects (i : Item) : effectsOf i.effects = i.effects := by
  cases i <;> rfl

/-! ### One IP packet -/

section Transport

variable (P : Prims)

/-- An end that sends and one that receives: MPPE is off at the first, or they are at the same place
of a chain of keys. -/
def Matched (a b : Mppe) : Prop :=
  a.enabled = false ∨ a.enabled = true ∧ b.enabled = true ∧
    ∃ master n, AtPlace P master n a.send ∧ AtPlace P master n b.recv

/-- An end with these receiving keys takes the frame for the packet, and `d` are its keys then. -/
def Yields (b : Mppe) (frame p : List UInt8) (d : Direction) : Prop :=
  ∀ (ctx : Pppd) (peerChallenge : List UInt8), ctx.mppe.enabled = b.enabled →
    ctx.mppe.recv = b.recv → Ppp.step P ctx (.frame frame peerChallenge) =
      ({ ctx with mppe := { ctx.mppe with recv := d } }, [.ip p])

/-- From `b` on, the entries of `rest` are received as what they were sent as, and behind them the
end stands where `a` sends. -/
inductive Behind (a : Mppe) : Mppe → List (Item × List UInt8) → Prop
  | level {b : Mppe} (h : Matched P a b) : Behind a b []
  | ip {b : Mppe} {p frame : List UInt8} {d : Direction} {rest : List (Item × List UInt8)}
      (hlen : frame.length ≤ mru + 4) (hstep : Yields P b frame p d)
      (h : Behind a { b with recv := d } rest) : Behind a b ((.ip p, Wire.packet frame) :: rest)
  | echoRequest {b : Mppe} {rest : List (Item × List UInt8)} (h : Behind a b rest) :
      Behind a b ((.echoRequest, image .echoRequest []) :: rest)
  | echoReply {b : Mppe} {rest : List (Item × List UInt8)} (h : Behind a b rest) :
      Behind a b ((.echoReply, image .echoReply []) :: rest)

variable {P}

/-- MPPE is off: the frame says itself what it carries. -/
lemma send_plain {a : Pppd} (h : a.mppe.enabled = false) {p : List UInt8} (hsize : Sendable p) :
    sstpPppdSendIp P p a = (true, a, [.frame ([0xff, 0x03] ++ toBe16 protoIp ++ p)]) := by
  unfold Sendable mru at hsize
  have hfits : pppSendFrame protoIp p =
      (true, [.frame ([0xff, 0x03] ++ toBe16 protoIp ++ p)]) := by
    unfold pppSendFrame mru
    rw [if_neg (by omega)]
  unfold sstpPppdSendIp pppSendIpPlainOrMppe mru
  rw [if_neg (by omega), if_pos (by simp [h]), hfits]

/-- A packet that is taken leaves the receiving keys alone. -/
lemma send_taken {p : List UInt8} (hsize : Sendable p) (a : Pppd) :
    ∃ a' frame, sstpPppdSendIp P p a = (true, a', [.frame frame]) ∧ frame ≠ [] ∧
      a'.mppe.enabled = a.mppe.enabled ∧ a'.mppe.recv = a.mppe.recv := by
  cases henabled : a.mppe.enabled with
  | false => exact ⟨a, _, send_plain henabled hsize, by simp, henabled, rfl⟩
  | true =>
    obtain ⟨k, hk⟩ := sendIp_enabled P henabled hsize
    exact ⟨_, _, hk, by simp [PppSpec.sentPacket], henabled, rfl⟩

lemma send_refused {p : List UInt8} (hsize : ¬ Sendable p) (a : Pppd) :
    sstpPppdSendIp P p a = (false, a, []) := by
  unfold Sendable at hsize
  unfold sstpPppdSendIp pppSendIpPlainOrMppe
  rw [if_pos (by omega)]

lemma length_packetAt (master : List UInt8) (n : ℕ) (p : List UInt8) :
    (packetAt P master n p).length = 8 + p.length := by
  unfold packetAt
  simp only [List.length_append, List.length_cons, List.length_nil, length_toBe16,
    PppSpec.length_rc4]
  omega

lemma yields_plain (b : Mppe) (p : List UInt8) :
    Yields P b ([0xff, 0x03] ++ toBe16 protoIp ++ p) p b.recv := by
  intro ctx peerChallenge _ hrecv
  rw [Ppp.step, Ppp.pppDispatch, parseFrame_of_proto (by decide) (by decide), ← hrecv]
  rfl

/-- What becomes of the receiving keys depends on them alone. -/
lemma handleMppe_ip {buf p : List UInt8} {ctx : Pppd}
    (h : (Ppp.handleMppe P buf ctx).2 = [.ip p]) :
    ∃ d, Ppp.catchUp P (Ppp.ccountOf buf) 4096 ctx.mppe.recv = some d ∧
      (Ppp.handleMppe P buf ctx).1 = { ctx with
        mppe := { ctx.mppe with recv := { d with rc4 := (Ppp.rc4 P d.rc4 (buf.drop 2)).2 } } } := by
  by_cases hshort : buf.length < 3 ∨ ¬ ctx.mppe.enabled
  · rw [Ppp.handleMppe, if_pos hshort] at h
    cases h
  · rw [Ppp.handleMppe, if_neg hshort] at h
    rw [Ppp.handleMppe, if_neg hshort]
    cases hcatch : Ppp.catchUp P (Ppp.ccountOf buf) 4096 ctx.mppe.recv with
    | none =>
      rw [hcatch] at h
      cases h
    | some d =>
      rw [hcatch] at h
      refine ⟨d, rfl, ?_⟩
      dsimp only at h ⊢
      by_cases hlong : mru + 16 < buf.length - 2
      · rw [Ppp.mppeDecrypt, if_pos hlong] at h
        cases h
      · rw [Ppp.mppeDecrypt, if_neg hlong]

/-- The next packet of the chain. -/
lemma yields_packetAt {b : Mppe} (henabled : b.enabled = true) {master : List UInt8} {n : ℕ}
    (hplace : AtPlace P master n b.recv) {p : List UInt8} (hsize : Sendable p) :
    ∃ d, AtPlace P master (n + 1) d ∧ Yields P b (packetAt P master (n + 1) p) p d := by
  have hone : ∀ ctx : Pppd, ctx.mppe.enabled = b.enabled → ctx.mppe.recv = b.recv →
      (Ppp.handleMppe P (mppePacket P master (n + 1) p) ctx).2 = [.ip p] ∧
        AtPlace P master (n + 1)
          (Ppp.handleMppe P (mppePacket P master (n + 1) p) ctx).1.mppe.recv := by
    intro ctx hctx hrecv
    obtain ⟨h, hout⟩ := handleMppe_mppePacket (show 0 < 4095 by decide)
      ⟨hctx.trans henabled, hrecv ▸ hplace⟩ hsize
    exact ⟨hout, h.place⟩
  -- some end with these keys shows what they become
  obtain ⟨hout, hplace'⟩ := hone { Ppp.sstpPppdCreate 0 with mppe := b } rfl rfl
  obtain ⟨d, hcatch, hctx⟩ := handleMppe_ip hout
  rw [hctx] at hplace'
  refine ⟨_, hplace', fun ctx peerChallenge henabled' hrecv => ?_⟩
  obtain ⟨hout', -⟩ := hone ctx henabled' hrecv
  obtain ⟨d', hcatch', hctx'⟩ := handleMppe_ip hout'
  rw [hrecv] at hcatch'
  cases hcatch.symm.trans hcatch'
  rw [Ppp.step, Ppp.pppDispatch, parseFrame_packetAt]
  exact Prod.ext hctx' hout'

/-- **One IP packet** that is taken comes out as it went in, and both ends stay at the same place. -/
lemma Matched.send_eq {a : Pppd} {b : Mppe} (h : Matched P a.mppe b) {p : List UInt8}
    (hsize : Sendable p) :
    ∃ a' d frame, sstpPppdSendIp P p a = (true, a', [.frame frame]) ∧
      frame.length ≤ mru + 4 ∧ Yields P b frame p d ∧ Matched P a'.mppe { b with recv := d } := by
  have hp : p.length ≤ mru - 4 := hsize.2
  obtain hoff | ⟨hon, hb, master, n, hsend, hrecv⟩ := h
  · refine ⟨a, b.recv, _, send_plain hoff hsize, ?_, yields_plain b p, .inl hoff⟩
    simp only [List.length_append, List.length_cons, List.length_nil, length_toBe16]
    unfold mru at hp ⊢
    omega
  · obtain ⟨k, hk⟩ := sendIp_enabled P hon hsize
    rw [sentPacket_eq hsend] at hk
    obtain ⟨d, hd, hstep⟩ := yields_packetAt hb hrecv hsize
    refine ⟨_, d, _, hk, ?_, hstep, .inr ⟨hon, hb, master, n + 1, ?_, hd⟩⟩
    · rw [length_packetAt]
      unfold mru at hp ⊢
      omega
    · exact (atPlace_advance hsend).1.setRc4 k

/-- What is sent next is received behind the rest. -/
lemma Behind.send {a : Pppd} {b : Mppe} {rest : List (Item × List UInt8)}
    (h : Behind P a.mppe b rest) (i : Item) :
    Behind P (send P a i).1.mppe b (rest ++ (send P a i).2) := by
  induction h with
  | level h =>
    rw [List.nil_append]
    cases i with
    | ip p =>
      by_cases hsize : Sendable p
      · obtain ⟨a', d, frame, hsend, hlen, hstep, hmatched⟩ := h.send_eq hsize
        have heq : Delivery.send P a (.ip p) = (a', [(.ip p, Wire.packet frame)]) := by
          simp only [Delivery.send, hsend]
          rfl
        rw [heq]
        exact .ip hlen hstep (.level hmatched)
      · have heq : Delivery.send P a (.ip p) = (a, []) := by
          simp only [Delivery.send, send_refused hsize]
          rfl
        rw [heq]
        exact .level h
    | echoRequest => exact .echoRequest (.level h)
    | echoReply => exact .echoReply (.level h)
  | ip hlen hstep _ ih => exact .ip hlen hstep ih
  | echoRequest _ ih => exact .echoRequest ih
  | echoReply _ ih => exact .echoReply ih

lemma wellFormed_packet {frame : List UInt8} (h : frame.length ≤ mru + 4) :
    WellFormed (Wire.packet frame) := by
  unfold mru at h
  have hlen : (Wire.packet frame).length = 4 + frame.length := by
    unfold Wire.packet
    rw [List.length_append, List.length_append, length_htons]
    rfl
  refine ⟨by omega, by omega, ?_⟩
  have hmod : ((4 + (frame.length : ℤ)) % 65536).toNat = 4 + frame.length := by omega
  have hfield : be16 ((Wire.packet frame).getD 2 0) ((Wire.packet frame).getD 3 0) =
      be16 (UInt8.ofNat (((4 + (frame.length : ℤ)) % 65536).toNat / 256))
        (UInt8.ofNat ((4 + (frame.length : ℤ)) % 65536).toNat) := rfl
  rw [hfield, be16_ofNat, hmod, hlen, Nat.mod_eq_of_lt (by omega)]

lemma wellFormed_image (type : SstpMsg) : WellFormed (image type []) := by
  have hlen : (image type []).length = 8 := length_image type []
  have hfield : be16 ((image type []).getD 2 0) ((image type []).getD 3 0) =
      be16 (UInt8.ofNat (8 / 256)) (UInt8.ofNat 8) := rfl
  exact ⟨by omega, by omega, by rw [hfield, be16_ofNat, hlen]⟩

lemma Behind.congr {a a' b b' : Mppe} {rest : List (Item × List UInt8)} (h : Behind P a b rest)
    (ha : a'.enabled = a.enabled ∧ a'.send = a.send)
    (hb : b'.enabled = b.enabled ∧ b'.recv = b.recv) : Behind P a' b' rest := by
  induction h generalizing b' with
  | level h =>
    refine .level ?_
    unfold Matched at h ⊢
    rwa [ha.1, ha.2, hb.1, hb.2]
  | @ip _ _ _ d _ hlen hstep _ ih =>
    refine .ip (d := d) hlen (fun ctx peerChallenge henabled hrecv => ?_) (ih ⟨hb.1, rfl⟩)
    exact hstep ctx peerChallenge (henabled.trans hb.1) (hrecv.trans hb.2)
  | echoRequest _ ih => exact .echoRequest (ih hb)
  | echoReply _ ih => exact .echoReply (ih hb)

lemma Behind.wellFormed {a b : Mppe} {rest : List (Item × List UInt8)} (h : Behind P a b rest) :
    ∀ p ∈ rest.map Prod.snd, WellFormed p := by
  induction h with
  | level h => exact fun p hp => (List.not_mem_nil hp).elim
  | ip hlen _ _ ih => exact List.forall_mem_cons.mpr ⟨wellFormed_packet hlen, ih⟩
  | echoRequest _ ih => exact List.forall_mem_cons.mpr ⟨wellFormed_image _, ih⟩
  | echoReply _ ih => exact List.forall_mem_cons.mpr ⟨wellFormed_image _, ih⟩

end Transport

end SstpClient.Delivery
