import SstpClient.Delivery

/-!
What the receiver makes of one packet of the stream, and of one call of `sstp_recv_cont` on a wire
that grows.
-/

namespace SstpClient.Delivery

open SstpClient.Lib.Footprint SstpClient.Lib.Footprint.ReadProg SstpClient.Buffer SstpClient.Packet
open SstpClient.PacketImage SstpClient.Recv SstpClient.Reassembly SstpClient.PppMem
open SstpClient.Ppp (Prims Mppe)
open SstpClient.State (sstpStateHandlePacket sstpStateHandleCtrl)

/-! ### One packet of the stream -/

section Handle

variable {P : Prims} {s : Receiver}

/-- A data packet in the buffer. -/
lemma handle_data (hforward : s.st.forward = true) {frame : List UInt8}
    (hdata : Wire.packet frame <+: s.rx.buf.data) (c : Call) :
    handlePacket P s (Wire.packet frame).length c =
      ({ s with ctx := (Ppp.step P s.ctx (.frame frame c.peerChallenge)).1 },
        (Ppp.step P s.ctx (.frame frame c.peerChallenge)).2.map .out) := by
  have hlen : (Wire.packet frame).length = 4 + frame.length := by
    unfold Wire.packet
    rw [List.length_append, List.length_append, length_htons]
    rfl
  have hholds : Holds s.rx.buf.data 0 (Wire.packet frame) := (holds_zero _).mono hdata
  have hflags : (cell 1 : ReadProg UInt8 UInt8).eval (listMem s.rx.buf.data) = some 0 :=
    hholds.eval_cell 1 rfl (by omega)
  have htype : (sstpPktType (Wire.packet frame).length).eval (listMem s.rx.buf.data) =
      some (.data, none) := by
    unfold sstpPktType
    rw [if_neg (by omega), eval_bind, hflags]
    rfl
  have hpayload : (readBytes 4 ((Wire.packet frame).length - 4 : ℤ).toNat).eval
      (listMem s.rx.buf.data) = some frame := by
    have hrest : Holds s.rx.buf.data 4 frame := hholds.drop 4 rfl
    have hn : ((Wire.packet frame).length - 4 : ℤ).toNat = frame.length := by omega
    rw [hn, hrest.eval_readBytes (le_refl _), List.take_length]
  have hhandled : sstpStateHandlePacket s.st (Wire.packet frame).length (listMem s.rx.buf.data)
      c.attrs = some ⟨s.st, none, [], some frame⟩ := by
    unfold sstpStateHandlePacket
    rw [htype]
    simp only [hforward, if_true, hpayload, Option.map_some]
  unfold handlePacket
  rw [hhandled]
  rfl

lemma handle_ctrl {type : SstpMsg} (hdata : image type [] <+: s.rx.buf.data) (c : Call) :
    sstpStateHandlePacket s.st (image type []).length (listMem s.rx.buf.data) c.attrs =
      sstpStateHandleCtrl s.st (image type []).length (listMem s.rx.buf.data) c.attrs
        type.code := by
  obtain ⟨tail, htail⟩ := hdata
  unfold sstpStateHandlePacket
  rw [← htail, Teardown.type_image]

lemma handle_echoRequest (hdata : image .echoRequest [] <+: s.rx.buf.data) (c : Call) :
    handlePacket P s (image .echoRequest []).length c = (s, [.send .echoReply]) := by
  unfold handlePacket
  rw [handle_ctrl hdata]
  rfl

lemma handle_echoReply (hdata : image .echoReply [] <+: s.rx.buf.data) (c : Call) :
    handlePacket P s (image .echoReply []).length c =
      ({ s with st := { s.st with echo := 0 } }, []) := by
  unfold handlePacket
  rw [handle_ctrl hdata]
  rfl

/-- Receiving leaves the sending keys alone. -/
structure KeepsSend (a b : Mppe) : Prop where
  enabled : b.enabled = a.enabled
  send : b.send = a.send

/-- **The next packet** is handled as what it was sent as. -/
lemma handle_next {a : Mppe} {e : Item × List UInt8} {rest : List (Item × List UInt8)}
    (hforward : s.st.forward = true) (h : Behind P a s.ctx.mppe (e :: rest))
    (hdata : e.2 <+: s.rx.buf.data) (c : Call) :
    ∃ s', handlePacket P s e.2.length c = (s', e.1.effects) ∧ s'.rx = s.rx ∧
      s'.st.forward = true ∧ Behind P a s'.ctx.mppe rest ∧ KeepsSend s.ctx.mppe s'.ctx.mppe := by
  cases h with
  | @ip _ p frame d _ hlen hstep h =>
    have hhandle := handle_data (P := P) hforward hdata c
    rw [hstep s.ctx c.peerChallenge rfl rfl] at hhandle
    exact ⟨_, hhandle, rfl, hforward, h, rfl, rfl⟩
  | echoRequest h => exact ⟨s, handle_echoRequest hdata c, rfl, hforward, h, rfl, rfl⟩
  | echoReply h => exact ⟨_, handle_echoReply hdata c, rfl, hforward, h, rfl, rfl⟩

end Handle

/-! ### A wire that grows

A call that finds a part of the stream on the wire goes as one that finds more of it there, where
`SSL_read` yields what has come so far. -/

/-- The outcome on a longer wire that yields the same bytes. -/
def limit (num : ℤ) (wire : List UInt8) : SslRead → SslRead
  | .avail n =>
    if num ≤ 0 then .avail n
    else if wire = [] then .wantRead
    else .avail (min n (wire.length - 1))
  | r => r

def limits (b : Buff) (wire : List UInt8) : List SslRead → List SslRead
  | [] => []
  | r :: rs => limit (recvLen b - b.off) wire r :: match recvPass b wire r with
    | .again b' wire' => limits b' wire' rs
    | _ => []

/-- The pass with `later` behind the wire. -/
def grow (later : List UInt8) : Pass → Pass
  | .again b wire => .again b (wire ++ later)
  | .done status b wire => .done status b (wire ++ later)
  | .overrun => .overrun

section Grow

variable (later : List UInt8)

lemma sslRead_limit (num : ℤ) (wire : List UInt8) (r : SslRead) :
    sslRead num (wire ++ later) (limit num wire r) = sslRead num wire r := by
  cases r with
  | avail n =>
    by_cases hnum : num ≤ 0
    · simp only [limit, sslRead, if_pos hnum]
    · by_cases hwire : wire = []
      · simp only [limit, sslRead, if_neg hnum, if_pos hwire]
      · have hpos := List.length_pos_iff.mpr hwire
        have hne : wire ++ later ≠ [] := List.append_ne_nil_of_left_ne_nil hwire _
        have hle : min num.toNat (min n (wire.length - 1) + 1) ≤ wire.length := by omega
        have htake : wire.take (min num.toNat (min n (wire.length - 1) + 1)) =
            wire.take (min num.toNat (n + 1)) := by
          rw [List.take_eq_take_iff]
          omega
        simp only [limit, sslRead, if_neg hnum, if_neg hwire, if_neg hne]
        rw [List.take_append_of_le_length hle, htake]
  | wantRead => rfl
  | wantWrite => rfl
  | error => rfl

lemma recvPass_limit (b : Buff) (wire : List UInt8) (r : SslRead) :
    recvPass b (wire ++ later) (limit (recvLen b - b.off) wire r) =
      grow later (recvPass b wire r) := by
  simp only [recvPass, sslRead_limit]
  cases hr : sslRead (recvLen b - b.off) wire r with
  | none bytes =>
    obtain ⟨-, -, -, hwire⟩ := sslRead_bytes hr
    have hle : bytes.length ≤ wire.length := by
      have := congrArg List.length hwire
      rw [List.length_append] at this
      omega
    dsimp only
    rw [List.drop_append_of_le_length hle]
    cases Buff.write { b with len := recvLen b } b.off bytes with
    | none => rfl
    | some b' =>
      dsimp only
      split_ifs <;> rfl
  | wantRead => rfl
  | wantWrite => rfl
  | error => rfl

lemma recv_limits (b : Buff) (wire : List UInt8) (rs : List SslRead) :
    sstpStreamRecvSstp b (wire ++ later) (limits b wire rs) =
      { sstpStreamRecvSstp b wire rs with wire := (sstpStreamRecvSstp b wire rs).wire ++ later } := by
  induction rs generalizing b wire with
  | nil => rfl
  | cons r rs ih =>
    rw [limits, sstpStreamRecvSstp, recvPass_limit, sstpStreamRecvSstp]
    cases recvPass b wire r with
    | again b' wire' =>
      dsimp only [grow]
      rw [ih]
    | done status b' wire' => rfl
    | overrun => rfl

lemma passes_limits {b : Buff} {wire : List UInt8} {rs : List SslRead}
    (h : Passes Waits b wire rs) : Passes Waits b (wire ++ later) (limits b wire rs) := by
  induction rs generalizing b wire with
  | nil => trivial
  | cons r rs ih =>
    obtain ⟨hr, hrest⟩ := h
    refine ⟨fun bytes hbytes => hr bytes ?_, ?_⟩
    · rwa [sslRead_limit] at hbytes
    · rw [recvPass_limit]
      cases hp : recvPass b wire r with
      | again b' wire' =>
        rw [hp] at hrest
        exact ih hrest
      | done status b' wire' => trivial
      | overrun => trivial

lemma recvReady_limits (s : Rx) (rs : List SslRead) :
    recvReady { s with wire := s.wire ++ later } (limits s.buf s.wire rs) =
      ({ (recvReady s rs).1 with wire := (recvReady s rs).1.wire ++ later }, (recvReady s rs).2) := by
  cases ha : s.armed with
  | false => simp [recvReady, sstpRecvCont, ha]
  | true =>
    simp only [recvReady, sstpRecvCont, ha, if_true, recv_limits]
    split <;> rfl

end Grow

lemma limit_eq_error {num : ℤ} {wire : List UInt8} {r : SslRead} (h : limit num wire r = .error) :
    r = .error := by
  cases r with
  | avail n =>
    unfold limit at h
    split_ifs at h
  | wantRead => cases h
  | wantWrite => cases h
  | error => rfl

lemma error_not_mem_limits {b : Buff} {wire : List UInt8} {rs : List SslRead}
    (h : SslRead.error ∉ rs) : ∀ r ∈ limits b wire rs, r ≠ .error := by
  induction rs generalizing b wire with
  | nil => exact fun r hr => (List.not_mem_nil hr).elim
  | cons r rs ih =>
    rw [List.mem_cons, not_or] at h
    refine List.forall_mem_cons.mpr ⟨fun he => h.1 (limit_eq_error he).symm, ?_⟩
    cases recvPass b wire r with
    | again b' wire' => exact ih h.2
    | done status b' wire' => exact fun r hr => (List.not_mem_nil hr).elim
    | overrun => exact fun r hr => (List.not_mem_nil hr).elim

/-! ### One call -/

/-- A call delivers a packet at most, and its bytes stay in the buffer. -/
lemma delivered_ready (s : Rx) (rs : List SslRead) :
    delivered (recvReady s rs).2 = [] ∨
      ∃ off len, delivered (recvReady s rs).2 =
        [(off, len, (recvReady s rs).1.buf.data.take len.toNat)] := by
  unfold recvReady sstpRecvCont
  split_ifs with ha
  · dsimp only
    split
    · refine .inr ⟨(sstpStreamRecvSstp s.buf s.wire rs).buf.off,
        (sstpStreamRecvSstp s.buf s.wire rs).buf.len, ?_⟩
      rw [delivered_append, delivered_requests]
      rfl
    · exact .inl (delivered_requests _)
    · exact .inl (by rw [delivered_append, delivered_requests]; rfl)
    · exact .inl (by rw [delivered_append, delivered_requests]; rfl)
  · exact .inl rfl

/-- **One call** takes the next packet out of the stream or leaves it there. -/
lemma ready_pending {s : Rx} {rest : List (List UInt8)} {later : List UInt8} {rs : List SslRead}
    (hrest : ∀ p ∈ rest, WellFormed p) (ha : s.armed = true)
    (h : Pending rest s.buf (s.wire ++ later)) (hC : Passes Waits s.buf s.wire rs)
    (herr : SslRead.error ∉ rs) :
    (recvReady s rs).1.armed = true ∧
      (delivered (recvReady s rs).2 = [] ∧
          Pending rest (recvReady s rs).1.buf ((recvReady s rs).1.wire ++ later) ∨
        ∃ p ps, rest = p :: ps ∧ delivered (recvReady s rs).2 = [((p.length : ℤ), (p.length : ℤ), p)] ∧
          p <+: (recvReady s rs).1.buf.data ∧
          Pending ps (recvReady s rs).1.buf ((recvReady s rs).1.wire ++ later)) := by
  have hinv : Reassembly.Inv rest { s with wire := s.wire ++ later } [] :=
    ⟨[], rest, rfl, rfl, fun _ => h⟩
  obtain ⟨⟨front, rest', hsplit, hdel, hpend⟩, harmed⟩ := ready_inv hrest hinv ha
    (passes_limits later hC)
  have hgrown := recvReady_limits later s rs
  unfold recvReady at hgrown
  rw [hgrown] at hdel hpend harmed
  rw [List.nil_append] at hdel
  have harmed' := harmed (error_not_mem_limits herr)
  have hpend' := hpend harmed'
  refine ⟨harmed', ?_⟩
  change delivered (recvReady s rs).2 = _ at hdel
  cases front with
  | nil =>
    rw [List.nil_append] at hsplit
    rw [hsplit]
    exact .inl ⟨hdel, hpend'⟩
  | cons p front =>
    rcases delivered_ready s rs with hnone | ⟨off, len, hone⟩
    · rw [hnone] at hdel
      cases hdel
    · rw [hone] at hdel
      obtain ⟨hp, hfront⟩ := List.cons.inj hdel
      have hnil : front = [] := List.map_eq_nil_iff.mp hfront.symm
      rw [Prod.mk.injEq, Prod.mk.injEq] at hp
      obtain ⟨rfl, rfl, hbytes⟩ := hp
      rw [hbytes] at hone
      rw [hnil] at hsplit
      exact .inr ⟨p, rest', hsplit, hone, hbytes ▸ List.take_prefix _ _, hpend'⟩

end SstpClient.Delivery
