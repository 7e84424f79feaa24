import SstpClient.Inject
import SstpClient.MppeSync
import SstpClient.Packet

/-!
An IP packet on its way from the tunnel interface to the transmit queue.

`sstp_ios_session_write_ip`, `ios_inject_cb`, `sstp_pppd_send_ip` and `ppp_send_frame` each have a
limit of their own. The smallest one is four bytes below the MTU of the interface.
-/

namespace SstpClient.Uplink

open SstpClient.Lib.Bytes SstpClient.Lib.Machine SstpClient.Buffer SstpClient.Packet
open SstpClient.Ppp SstpClient.PppSpec SstpClient.MppeSync
open SstpClient.MppeKeys (somePrims)

/-! ### The transmit queue -/

/-- `sstp_pkt_update`. -/
def sstpPktUpdate (b : Buff) : Option Buff := b.write 2 (htons b.len)

/-- `ppp_enqueue_raw`, with what it adds to the queue. `none`: memory outside the buffer would be
written. -/
def pppEnqueueRaw (frame : List UInt8) : Option (Status × List Buff) :=
  if frame.length = 0 then some (.fail, [])
  else
    let r := sstpPktInit (sstpBuffCreate (frame.length + 64)) .data
    if r.1 ≠ .okay then some (.fail, [])
    else do
      let b ← r.2.write r.2.len frame
      let b ← sstpPktUpdate { b with len := b.len + frame.length }
      return (.okay, [b])

variable (P : Prims)

/-- `sstp_pppd_send_ip` down to the queue. -/
def enqueueIp (ctx : Pppd) (ip : List UInt8) : Option (Status × List Buff) :=
  match sstpPppdSendIp P ip ctx with
  | (true, _, [.frame bytes]) => pppEnqueueRaw bytes
  | _ => some (.fail, [])

/-! ### From the socket to the queue -/

/-- The socket between the two threads, and the PPP context; the session is ready. -/
structure Session where
  inject : Inject.Session
  ctx : Pppd

inductive Event
  | inject (e : Inject.Event)
  /-- `sstp_pppd_send_ip` in a context, with its result and what it added to the queue. -/
  | sendIp (ctx : Pppd) (packet : List UInt8) (result : Option (Status × List Buff))
  | ppp (o : Out)

inductive Input
  | inject (i : Inject.Input)
  /-- A frame from the server, with the random bytes a response to it would take. -/
  | frame (bytes peerChallenge : List UInt8)

/-- `ios_inject_cb` passes on the packets it has read. -/
def passOn : Pppd → List Inject.Event → Pppd × List Event
  | ctx, [] => (ctx, [])
  | ctx, .sent packet :: es =>
    let r := passOn (sstpPppdSendIp P packet ctx).2.1 es
    (r.1, .inject (.sent packet) :: .sendIp ctx packet (enqueueIp P ctx packet) :: r.2)
  | ctx, e :: es => ((passOn ctx es).1, .inject e :: (passOn ctx es).2)

def step (s : Session) : Input → Session × List Event
  | .inject i =>
    let r := Inject.step s.inject i
    (⟨r.1, (passOn P s.ctx r.2).1⟩, (passOn P s.ctx r.2).2)
  | .frame bytes peerChallenge =>
    let r := pppDispatch P peerChallenge bytes s.ctx
    ({ s with ctx := r.1 }, r.2.map .ppp)

def started (magic : ℕ) (user password : List UInt8) : Session :=
  ⟨Inject.init, (sstpPppdStart user password (sstpPppdCreate magic)).1⟩

/-! ### What is promised -/

/-- The MTU of the tunnel interface. -/
def tunnelMtu : ℕ := 1400

/-- The frame has the packet in it: as it is, or encrypted under the next key. -/
def FrameOf (ctx : Pppd) (ip frame : List UInt8) : Prop :=
  if ctx.mppe.enabled then
    ∃ p, parseFrame frame = some (protoMppe, p) ∧
      ccountOf p = (advance P ctx.mppe.send).ccount ∧
      protocol (rc4 P (advance P ctx.mppe.send).rc4 (p.drop 2)).1 = some (protoIp, ip)
  else parseFrame frame = some (protoIp, ip)

/-- The buffer is an SSTP data packet with the packet in it, not yet sent. -/
def Carries (ctx : Pppd) (ip : List UInt8) (b : Buff) : Prop :=
  ∃ frame, FrameOf P ctx ip frame ∧ b.off = 0 ∧ b.len = 4 + frame.length ∧
    b.data.take b.len.toNat = [protoVer, 0] ++ htons b.len ++ frame

/-- Whenever the packet was accepted by `sstp_ios_session_write_ip` and read whole by
`ios_inject_cb`, it is queued, in one SSTP data packet. -/
def GetsThrough (ip : List UInt8) : Prop :=
  ∀ magic user password inputs,
    .inject (.accepted ip) ∈ (run (step P) (started magic user password) inputs).2 →
    ∀ ctx result, .sendIp ctx ip result ∈ (run (step P) (started magic user password) inputs).2 →
      ∃ b, result = some (.okay, [b]) ∧ Carries P ctx ip b

/-! ### A frame in a data packet -/

lemma pktInit_data {b : Buff} (h : 4 ≤ b.max) :
    ∃ b', sstpPktInit b .data = (.okay, b') ∧ b'.len = 4 ∧ b'.off = 0 ∧ b'.max = b.max ∧
      b'.data.take 2 = [protoVer, 0] := by
  have hspace : sstpBuffSpace (sstpBuffReset b) 4 = .okay := by
    rw [space_eq_okay, max_reset]
    change (0 : ℤ) + 4 ≤ b.max
    omega
  have hsize : 4 ≤ b.data.length := by
    unfold Buff.max at h
    omega
  have hflags : (splice b.data 0 [protoVer, 0]).length = b.data.length := by
    rw [length_splice (by simp; omega)]
  refine ⟨setLength ⟨0, 0, splice b.data 0 [protoVer, 0]⟩ 4, ?_, rfl, rfl, ?_, ?_⟩
  · unfold sstpPktInit
    rw [if_neg (not_not.mpr hspace)]
    rfl
  · change ((splice (splice _ 0 _) 2 (htons 4)).length : ℤ) = b.data.length
    rw [length_splice (by rw [length_htons, hflags]; omega), hflags]
  · change (splice (splice _ 0 _) 2 (htons 4)).take 2 = _
    rw [take_splice_of_le (by omega) (le_refl 2)]
    rfl

/-- **A frame behind the header** of a data packet, of which `n` bytes are counted: the packet that
the buffer holds. -/
lemma packet_of_frame {b : Buff} {frame : List UInt8} {n : ℕ} (hlen : b.len = 4)
    (htake : b.data.take 2 = [protoVer, 0]) (hfits : 4 + frame.length ≤ b.max)
    (hn : n ≤ frame.length) :
    ∃ b1 b2, b.write b.len frame = some b1 ∧ b1.len = 4 ∧ b1.max = b.max ∧
      sstpPktUpdate { b1 with len := b1.len + n } = some b2 ∧ b2.off = b.off ∧ b2.len = 4 + n ∧
        b2.max = b.max ∧
          b2.data.take b2.len.toNat = [protoVer, 0] ++ htons (4 + n) ++ frame.take n := by
  have hsize : 4 + frame.length ≤ b.data.length := by
    unfold Buff.max at hfits
    omega
  obtain ⟨d, hd⟩ : ∃ d, d = splice b.data 4 frame := ⟨_, rfl⟩
  have hdsize : d.length = b.data.length := by rw [hd, length_splice hsize]
  have hwrite : b.write b.len frame = some { b with data := d } := by
    rw [write_of_le (by omega) (by omega), hlen, hd]
    rfl
  have hupdate : sstpPktUpdate ⟨4 + n, b.off, d⟩ =
      some ⟨4 + n, b.off, splice d 2 (htons (4 + n))⟩ := by
    refine write_of_le (by decide) ?_
    rw [length_htons, Buff.max, hdsize]
    push_cast
    omega
  refine ⟨⟨b.len, b.off, d⟩, ⟨4 + n, b.off, splice d 2 (htons (4 + n))⟩, hwrite, hlen, ?_,
    by dsimp only; rw [hlen]; exact hupdate, rfl, rfl, ?_, ?_⟩
  · unfold Buff.max
    rw [hdsize]
  · unfold Buff.max
    rw [length_splice (by rw [length_htons]; omega), hdsize]
  · have hfront : d.take 2 = [protoVer, 0] := by
      rw [hd, take_splice_of_le (by omega) (by decide), htake]
    have hback : (d.drop 4).take n = frame.take n := by
      have hwhole : (d.drop 4).take frame.length = frame := by
        rw [hd, drop_take_splice (by omega)]
      calc (d.drop 4).take n
          = ((d.drop 4).take frame.length).take n := by rw [List.take_take, Nat.min_eq_left hn]
        _ = frame.take n := by rw [hwhole]
    have hnat : ((4 : ℤ) + n).toNat = 4 + n := by omega
    dsimp only
    rw [hnat, splice, hfront, ← List.append_assoc, List.take_append,
      List.take_of_length_le (by simp)]
    congr 1
    rw [← hback]
    congr 1
    simp

/-- **A frame is queued** behind the header of a data packet. -/
lemma pppEnqueueRaw_eq {frame : List UInt8} (h : 0 < frame.length) :
    ∃ b, pppEnqueueRaw frame = some (.okay, [b]) ∧ b.off = 0 ∧ b.len = 4 + frame.length ∧
      b.data.take b.len.toNat = [protoVer, 0] ++ htons b.len ++ frame := by
  have hmax := max_create (frame.length + 64)
  push_cast at hmax
  obtain ⟨b, hinit, hlen, hoff, hsize, htake⟩ :=
    pktInit_data (b := sstpBuffCreate (frame.length + 64)) (by omega)
  obtain ⟨b1, b2, hwrite, -, -, hupdate, hoff2, hlen2, -, hdata⟩ :=
    packet_of_frame hlen htake (by omega) (le_refl frame.length)
  refine ⟨b2, ?_, hoff2.trans hoff, hlen2, ?_⟩
  · unfold pppEnqueueRaw
    rw [if_neg (by omega)]
    dsimp only
    rw [hinit, if_neg (not_not.mpr rfl)]
    dsimp only
    rw [hwrite]
    change (sstpPktUpdate _).bind _ = _
    rw [hupdate]
    rfl
  · rw [hdata, hlen2, List.take_length]

/-! ### Within the limit -/

section Limit

variable {P} {ctx : Pppd} {ip : List UInt8}

/-- The frame of a packet within the limit. -/
lemma sendIp_frame (h : Sendable ip) :
    ∃ ctx' frame, sstpPppdSendIp P ip ctx = (true, ctx', [.frame frame]) ∧ 0 < frame.length ∧
      FrameOf P ctx ip frame := by
  have hpos : ∀ proto (p : List UInt8), 0 < ([0xff, 0x03] ++ toBe16 proto ++ p).length := by
    intro proto p
    rw [List.length_append]
    exact Nat.add_pos_left (by rw [List.length_append, length_toBe16]; decide) _
  cases henabled : ctx.mppe.enabled with
  | true =>
    obtain ⟨k, hk⟩ := sendIp_enabled P henabled h
    have hcount : (advance P ctx.mppe.send).ccount < 4096 := Nat.mod_lt _ (by decide)
    refine ⟨_, _, hk, hpos _ _, ?_⟩
    unfold FrameOf
    rw [if_pos henabled]
    refine ⟨_, parseFrame_of_proto (by decide) (by decide) _, ccountOf_flags hcount _, ?_⟩
    change protocol (rc4 P _ (rc4 P _ _).1).1 = _
    rw [rc4_rc4]
    rfl
  | false =>
    have hsize := h.2
    refine ⟨ctx, [0xff, 0x03] ++ toBe16 protoIp ++ ip, ?_, hpos _ _, ?_⟩
    · unfold sstpPppdSendIp pppSendIpPlainOrMppe pppSendFrame
      unfold Sendable at h
      rw [if_neg (by omega), if_pos (by simp [henabled]), if_neg (by omega)]
    · unfold FrameOf
      rw [if_neg (by simp [henabled])]
      exact parseFrame_of_proto (by decide) (by decide) ip

/-- **Within the limit** one data packet is queued. -/
lemma enqueueIp_of_sendable (h : Sendable ip) :
    ∃ b, enqueueIp P ctx ip = some (.okay, [b]) ∧ Carries P ctx ip b := by
  obtain ⟨ctx', frame, hsend, hpos, hframe⟩ := sendIp_frame (P := P) h
  obtain ⟨b, hqueue, hoff, hlen, hdata⟩ := pppEnqueueRaw_eq hpos
  refine ⟨b, ?_, frame, hframe, hoff, hlen, hdata⟩
  unfold enqueueIp
  rw [hsend]
  exact hqueue

/-- Above it the packet is dropped. -/
lemma enqueueIp_of_long (h : mru - 4 < ip.length) : enqueueIp P ctx ip = some (.fail, []) := by
  unfold enqueueIp sstpPppdSendIp pppSendIpPlainOrMppe
  rw [if_pos (.inr h)]

end Limit

/-! ### Whole runs -/

section Runs

variable {P} {ip : List UInt8}

/-- What every call of `sstp_pppd_send_ip` adds to the queue. -/
def Enqueued (P : Prims) (e : Event) : Prop :=
  ∀ ctx packet result, e = .sendIp ctx packet result → result = enqueueIp P ctx packet

lemma passOn_enqueued (ctx : Pppd) (es : List Inject.Event) :
    ∀ e ∈ (passOn P ctx es).2, Enqueued P e := by
  have hinject : ∀ e, Enqueued P (.inject e) := fun e ctx packet result heq => by cases heq
  induction es generalizing ctx with
  | nil =>
    intro e he
    cases he
  | cons i es ih =>
    intro e he
    cases i with
    | sent packet =>
      rcases List.mem_cons.mp he with rfl | he
      · exact hinject _
      rcases List.mem_cons.mp he with rfl | he
      · intro ctx' packet' result heq
        cases heq
        rfl
      · exact ih _ e he
    | accepted packet =>
      rcases List.mem_cons.mp he with rfl | he
      · exact hinject _
      · exact ih ctx e he
    | refused packet =>
      rcases List.mem_cons.mp he with rfl | he
      · exact hinject _
      · exact ih ctx e he

lemma step_enqueued (s : Session) (i : Input) : ∀ e ∈ (step P s i).2, Enqueued P e := by
  cases i with
  | inject i => exact passOn_enqueued s.ctx _
  | frame bytes peerChallenge =>
    intro e he ctx packet result heq
    obtain ⟨o, -, rfl⟩ := List.mem_map.mp he
    cases heq

lemma run_enqueued (s : Session) (inputs : List Input) :
    ∀ e ∈ (run (step P) s inputs).2, Enqueued P e := by
  induction inputs generalizing s with
  | nil =>
    intro e he
    cases he
  | cons i is ih =>
    intro e he
    rcases List.mem_append.mp he with he | he
    · exact step_enqueued s i e he
    · exact ih _ e he

/-- Written and read at one go. -/
def atOneGo (ip : List UInt8) : List Input :=
  [.inject (.writeHeader ip 4), .inject (.writePayload ip.length), .inject .read, .inject .read]

lemma run_atOneGo (h : Inject.Sized ip) (ctx : Pppd) :
    (run (step P) ⟨Inject.init, ctx⟩ (atOneGo ip)).2 =
      [.inject (.accepted ip), .inject (.sent ip), .sendIp ctx ip (enqueueIp P ctx ip)] := by
  obtain ⟨hpos, hle⟩ := h
  have hwrite : Inject.step Inject.init (.writeHeader ip 4) =
      (⟨toBe32 ip.length, .payload ip, none⟩, []) := by
    change Inject.writeIpHeader Inject.init ip 4 = _
    unfold Inject.writeIpHeader
    rw [if_neg (by omega)]
    rfl
  have hpayload : Inject.step ⟨toBe32 ip.length, .payload ip, none⟩ (.writePayload ip.length) =
      (⟨toBe32 ip.length ++ ip, .idle, none⟩, [.accepted ip]) := by
    change Inject.writeIpPayload _ ip ip.length = _
    unfold Inject.writeIpPayload
    dsimp only
    rw [List.take_length, if_neg (not_not.mpr rfl)]
  have hheader : Inject.step ⟨toBe32 ip.length ++ ip, .idle, none⟩ .read =
      (⟨ip, .idle, some ip.length⟩, []) :=
    Inject.injectRead_header (s := ⟨toBe32 ip.length ++ ip, .idle, none⟩) rfl hpos hle rfl
  have hpacket : Inject.step ⟨ip, .idle, some ip.length⟩ .read = (⟨[], .idle, none⟩, [.sent ip]) :=
    Inject.injectRead_packet (s := ⟨ip, .idle, some ip.length⟩) rfl (List.append_nil ip).symm
  simp only [atOneGo, run_cons, run_nil, step, hwrite, hpayload, hheader, hpacket, passOn,
    List.append_nil, List.nil_append, List.cons_append]

/-- A packet above the limit is accepted and read, and goes no further. -/
lemma not_getsThrough (h : Inject.Sized ip) (hlong : mru - 4 < ip.length) :
    ¬ GetsThrough P ip := by
  intro hthrough
  have hrun := run_atOneGo (P := P) h (sstpPppdStart [] [] (sstpPppdCreate 0)).1
  obtain ⟨b, hb, -⟩ := hthrough 0 [] [] (atOneGo ip)
    (by rw [started, hrun]; exact List.mem_cons_self) _ _
    (by rw [started, hrun]; exact List.mem_cons_of_mem _ (List.mem_cons_of_mem _ List.mem_cons_self))
  rw [enqueueIp_of_long hlong] at hb
  cases hb

end Runs

/-- **A packet within the MTU gets through** exactly when it is four bytes below it. -/
theorem getsThrough_iff (ip : List UInt8) (hmtu : 0 < ip.length ∧ ip.length ≤ tunnelMtu) :
    GetsThrough P ip ↔ ip.length ≤ mru - 4 := by
  constructor
  · intro h
    by_contra hlong
    exact not_getsThrough ⟨hmtu.1, hmtu.2.trans (by decide)⟩ (not_le.mp hlong) h
  · intro hle magic user password inputs _ ctx result hsent
    rw [run_enqueued _ _ _ hsent ctx ip result rfl]
    exact enqueueIp_of_sendable ⟨hmtu.1, hle⟩

/-- The longest packet that does. -/
theorem getsThrough_iff_longest : GetsThrough somePrims (List.replicate (mru - 4) 0x45) := by
  refine (getsThrough_iff somePrims (List.replicate (mru - 4) 0x45) ?_).mpr ?_
  · rw [List.length_replicate]
    decide
  · rw [List.length_replicate]

/-- **A packet as long as the MTU** is accepted, read and dropped. -/
theorem mtu_not_getsThrough : ¬ GetsThrough somePrims (List.replicate tunnelMtu 0x45) := by
  have hlen : (List.replicate tunnelMtu (0x45 : UInt8)).length = tunnelMtu := List.length_replicate
  refine not_getsThrough ⟨?_, ?_⟩ ?_
  · rw [hlen]
    decide
  · rw [hlen]
    decide
  · rw [hlen]
    decide

end SstpClient.Uplink
