import SstpClient.Packet
import SstpClient.Lib.Machine

/-!
Receiving SSTP packets: `sstp_stream_recv_sstp` and `sstp_recv_cont` of `sstp-stream.c`, with
what `sstp_state_recv` of `sstp-state.c` does to the receive buffer.

The bytes the server has sent and nobody has read stand on a wire. How many of them one call
of `SSL_read` returns, and whether it would rather block, is an input.
-/

namespace SstpClient.Recv

open SstpClient.Lib.Bytes SstpClient.Lib.Machine SstpClient.Buffer SstpClient.Packet

/-! ### Reading from the stream -/

/-- How one call of `SSL_read` goes: `avail n` makes `n + 1` bytes of the wire available. -/
inductive SslRead
  | avail (n : ℕ) | wantRead | wantWrite | error
  deriving DecidableEq, Repr

inductive SslError
  | none (bytes : List UInt8) | wantRead | wantWrite | error

/-- `SSL_read` of at most `num` bytes. A request for no bytes is an error, and with nothing on
the wire the call would block. -/
def sslRead (num : ℤ) (wire : List UInt8) : SslRead → SslError
  | .avail n =>
    if num ≤ 0 then .error
    else if wire = [] then .wantRead
    else .none (wire.take (min num.toNat (n + 1)))
  | .wantRead => .wantRead
  | .wantWrite => .wantWrite
  | .error => .error

inductive Pass
  | again (b : Buff) (wire : List UInt8)
  | done (status : Status) (b : Buff) (wire : List UInt8)
  | overrun

/-- `buf->len` at the head of the loop: the header first, then the entire packet. -/
def recvLen (b : Buff) : ℤ := if 4 ≤ b.off then sstpPktLen b else 4

/-- One pass of the loop; `overrun` when `SSL_read` writes outside the buffer. -/
def recvPass (b : Buff) (wire : List UInt8) (r : SslRead) : Pass :=
  let b := { b with len := recvLen b }
  match sslRead (b.len - b.off) wire r with
  | .none bytes =>
    match b.write b.off bytes with
    | none => .overrun
    | some b =>
      let b := { b with off := b.off + bytes.length }
      if b.off < sstpPktLen b then .again b (wire.drop bytes.length)
      else .done .okay b (wire.drop bytes.length)
  | .wantRead => .done .inprog b wire
  | .wantWrite => .done .inprog b wire
  | .error => .done .fail b wire

/-- What a call of `sstp_stream_recv_sstp` does: its status (`none`: memory outside the buffer
was written), the buffer and the wire it leaves, and what it asked `SSL_read` for, as pairs
of `buf->off` and the number of bytes. -/
structure RecvCall where
  status : Option Status
  buf : Buff
  wire : List UInt8
  requests : List (ℤ × ℤ)

/-- `sstp_stream_recv_sstp`. Past the outcomes it is given, `SSL_read` would block. -/
def sstpStreamRecvSstp (b : Buff) (wire : List UInt8) : List SslRead → RecvCall
  | [] => ⟨some .inprog, { b with len := recvLen b }, wire, [(b.off, recvLen b - b.off)]⟩
  | r :: rs =>
    match recvPass b wire r with
    | .again b' wire' =>
      let call := sstpStreamRecvSstp b' wire' rs
      { call with requests := (b.off, recvLen b - b.off) :: call.requests }
    | .done status b' wire' => ⟨some status, b', wire', [(b.off, recvLen b - b.off)]⟩
    | .overrun => ⟨none, b, wire, [(b.off, recvLen b - b.off)]⟩

/-! ### The receive side -/

structure Rx where
  buf : Buff
  wire : List UInt8
  armed : Bool

/-- An event for `sstp_recv_cont`: the socket is ready and `SSL_read` goes as listed, or the
timeout of the event has passed. -/
inductive RxInput
  | ready (outcomes : List SslRead)
  | timeout

inductive RxEvent
  | request (off num : ℤ)
  | packet (off len : ℤ) (bytes : List UInt8)
  | failed
  | overrun
  deriving DecidableEq

/-- `sstp_recv_cont` with `sstp_state_recv`: a packet is handled and the buffer is reset, and so
it is when a timeout is answered by an echo request. -/
def sstpRecvCont (s : Rx) (i : RxInput) : Rx × List RxEvent :=
  if s.armed then
    match i with
    | .timeout => ({ s with buf := sstpBuffReset s.buf }, [])
    | .ready outcomes =>
      let call := sstpStreamRecvSstp s.buf s.wire outcomes
      let requests := call.requests.map fun r => RxEvent.request r.1 r.2
      match call.status with
      | some .okay => (⟨sstpBuffReset call.buf, call.wire, true⟩,
          requests ++ [.packet call.buf.off call.buf.len (call.buf.data.take call.buf.len.toNat)])
      | some .inprog => (⟨call.buf, call.wire, true⟩, requests)
      | some _ => (⟨call.buf, call.wire, false⟩, requests ++ [.failed])
      | none => (⟨call.buf, call.wire, false⟩, requests ++ [.overrun])
  else (s, [])

def sstpStreamSetrecv (data wire : List UInt8) : Rx := ⟨sstpBuffReset ⟨0, 0, data⟩, wire, true⟩

/-! ### Conditions on the passes of a call -/

/-- Each pass of a call meets `P`, a condition on the buffer and the wire before it and on how
`SSL_read` goes. -/
def Passes (P : Buff → List UInt8 → SslRead → Prop) (b : Buff) (wire : List UInt8) :
    List SslRead → Prop
  | [] => True
  | r :: rs => P b wire r ∧ match recvPass b wire r with
    | .again b' wire' => Passes P b' wire' rs
    | _ => True

/-- `Passes` at each call of a run. -/
def AtCalls (P : Buff → List UInt8 → SslRead → Prop) (s : Rx) : RxInput → Prop
  | .ready outcomes => s.armed → Passes P s.buf s.wire outcomes
  | .timeout => True

lemma passes_and {P : Buff → List UInt8 → SslRead → Prop} {Q : SslRead → Prop} {b : Buff}
    {wire : List UInt8} {rs : List SslRead} (hP : Passes P b wire rs) (hQ : ∀ r ∈ rs, Q r) :
    Passes (fun b wire r => P b wire r ∧ Q r) b wire rs := by
  induction rs generalizing b wire with
  | nil => trivial
  | cons r rs ih =>
    obtain ⟨hr, hrest⟩ := hP
    refine ⟨⟨hr, hQ r List.mem_cons_self⟩, ?_⟩
    cases hp : recvPass b wire r with
    | again b' wire' =>
      rw [hp] at hrest
      exact ih hrest fun r' hr' => hQ r' (List.mem_cons_of_mem _ hr')
    | done status b' wire' => trivial
    | overrun => trivial

/-! ### What a pass does -/

def placed (b : Buff) (bytes : List UInt8) : Buff :=
  ⟨recvLen b, b.off + bytes.length, splice b.data b.off.toNat bytes⟩

@[simp] lemma recvLen_setLen (b : Buff) (n : ℤ) : recvLen { b with len := n } = recvLen b := rfl

lemma sslRead_bytes {num : ℤ} {wire bytes : List UInt8} {r : SslRead}
    (h : sslRead num wire r = .none bytes) :
    0 < num ∧ 0 < bytes.length ∧ bytes.length ≤ num ∧ bytes ++ wire.drop bytes.length = wire := by
  cases r with
  | avail n =>
    unfold sslRead at h
    split_ifs at h with h0 hw
    cases h
    have hpos : 0 < wire.length := List.length_pos_iff.mpr hw
    refine ⟨by omega, by simp; omega, by simp; omega, ?_⟩
    rw [List.length_take]
    conv_rhs => rw [← List.take_append_drop (min num.toNat (n + 1)) wire]
    congr 1
    rcases Nat.le_total (min num.toNat (n + 1)) wire.length with hle | hle
    · rw [Nat.min_eq_left hle]
    · rw [Nat.min_eq_right hle, List.drop_length, List.drop_of_length_le hle]
  | wantRead => cases h
  | wantWrite => cases h
  | error => cases h

lemma pktLen_placed {b : Buff} {bytes : List UInt8} (h4 : 4 ≤ b.off) (hmax : b.off ≤ b.max) :
    sstpPktLen (placed b bytes) = sstpPktLen b := by
  have hn : b.off.toNat ≤ b.data.length := by
    unfold Buff.max at hmax
    omega
  have hbyte : ∀ i < 4, (placed b bytes).byte i = b.byte i := by
    intro i hi
    simp only [Buff.byte, placed, List.getD_eq_getElem?_getD]
    rw [getElem?_splice_lt hn (by omega)]
  rw [sstpPktLen, sstpPktLen, hbyte 2 (by omega), hbyte 3 (by omega)]

lemma max_placed {b : Buff} {bytes : List UInt8} (h0 : 0 ≤ b.off)
    (hfit : b.off + bytes.length ≤ b.max) : (placed b bytes).max = b.max := by
  unfold Buff.max at *
  rw [placed, length_splice (by omega)]

/-- A pass that reads bytes which fit goes on or ends by the length field it then sees. -/
lemma recvPass_of_bytes {b : Buff} {wire bytes : List UInt8} {r : SslRead}
    (h : sslRead (recvLen b - b.off) wire r = .none bytes) (h0 : 0 ≤ b.off)
    (hfit : b.off + bytes.length ≤ b.max) :
    recvPass b wire r =
      if b.off + bytes.length < sstpPktLen (placed b bytes) then
        .again (placed b bytes) (wire.drop bytes.length)
      else .done .okay (placed b bytes) (wire.drop bytes.length) := by
  have hw : Buff.write { b with len := recvLen b } b.off bytes =
      some { b with len := recvLen b, data := splice b.data b.off.toNat bytes } :=
    write_of_le h0 hfit
  simp only [recvPass, h, hw]
  rfl

/-- Otherwise the call is over, and the buffer keeps its bytes. -/
lemma recvPass_of_no_bytes {b : Buff} {wire : List UInt8} {r : SslRead}
    (h : ∀ bytes, sslRead (recvLen b - b.off) wire r ≠ .none bytes) :
    ∃ status, (status = .inprog ∨ status = .fail) ∧
      recvPass b wire r = .done status { b with len := recvLen b } wire := by
  cases hr : sslRead (recvLen b - b.off) wire r with
  | none bytes => exact absurd hr (h bytes)
  | wantRead => exact ⟨.inprog, .inl rfl, by simp only [recvPass, hr]⟩
  | wantWrite => exact ⟨.inprog, .inl rfl, by simp only [recvPass, hr]⟩
  | error => exact ⟨.fail, .inr rfl, by simp only [recvPass, hr]⟩

/-! ### Rules for the loop -/

section Loop

variable {P : Buff → List UInt8 → SslRead → Prop} (Inv : Buff → List UInt8 → Prop)

/-- **Loop rule.** If each pass that goes on keeps `Inv`, a call whose passes all meet `P` asks
`SSL_read` from states that meet `Inv` only, and ends as one last pass from such a state. -/
theorem call_inv
    (hstep : ∀ b w r b' w', Inv b w → P b w r → recvPass b w r = .again b' w' → Inv b' w')
    {b : Buff} {w : List UInt8} {rs : List SslRead} (h : Inv b w) (hP : Passes P b w rs) :
    (∀ q ∈ (sstpStreamRecvSstp b w rs).requests, ∃ b' w', Inv b' w' ∧
      q = (b'.off, recvLen b' - b'.off)) ∧
    ∃ b' w' r, Inv b' w' ∧ (P b' w' r ∨ r = .wantRead) ∧
      match recvPass b' w' r with
      | .again _ _ => False
      | .done status b'' w'' => (sstpStreamRecvSstp b w rs).status = some status ∧
          (sstpStreamRecvSstp b w rs).buf = b'' ∧ (sstpStreamRecvSstp b w rs).wire = w''
      | .overrun => (sstpStreamRecvSstp b w rs).status = none ∧
          (sstpStreamRecvSstp b w rs).buf = b' := by
  induction rs generalizing b w with
  | nil =>
    refine ⟨fun q hq => ⟨b, w, h, List.mem_singleton.mp hq⟩, b, w, .wantRead, h, .inr rfl, ?_⟩
    exact ⟨rfl, rfl, rfl⟩
  | cons r rs ih =>
    obtain ⟨hr, hrest⟩ := hP
    cases hp : recvPass b w r with
    | again b' w' =>
      rw [hp] at hrest
      obtain ⟨hreq, hend⟩ := ih (hstep b w r b' w' h hr hp) hrest
      simp only [sstpStreamRecvSstp, hp]
      refine ⟨fun q hq => ?_, hend⟩
      rcases List.mem_cons.mp hq with rfl | hq
      · exact ⟨b, w, h, rfl⟩
      · exact hreq q hq
    | done status b' w' =>
      simp only [sstpStreamRecvSstp, hp]
      refine ⟨fun q hq => ⟨b, w, h, List.mem_singleton.mp hq⟩, b, w, r, h, .inl hr, ?_⟩
      rw [hp]
      exact ⟨rfl, rfl, rfl⟩
    | overrun =>
      simp only [sstpStreamRecvSstp, hp]
      refine ⟨fun q hq => ⟨b, w, h, List.mem_singleton.mp hq⟩, b, w, r, h, .inl hr, ?_⟩
      rw [hp]
      exact ⟨trivial, rfl⟩

/-- A call with a pass that does not meet `P` comes to such a pass from a state that meets
`Inv`, and from there on does what a call from that state does. -/
theorem call_breaks
    (hstep : ∀ b w r b' w', Inv b w → P b w r → recvPass b w r = .again b' w' → Inv b' w')
    {b : Buff} {w : List UInt8} {rs : List SslRead} (h : Inv b w) (hP : ¬ Passes P b w rs) :
    ∃ b' w' r rs', Inv b' w' ∧ ¬ P b' w' r ∧
      (sstpStreamRecvSstp b w rs).status = (sstpStreamRecvSstp b' w' (r :: rs')).status ∧
      (sstpStreamRecvSstp b w rs).buf = (sstpStreamRecvSstp b' w' (r :: rs')).buf ∧
      ∀ q ∈ (sstpStreamRecvSstp b' w' (r :: rs')).requests,
        q ∈ (sstpStreamRecvSstp b w rs).requests := by
  induction rs generalizing b w with
  | nil => exact absurd trivial hP
  | cons r rs ih =>
    by_cases hr : P b w r
    · cases hp : recvPass b w r with
      | again b' w' =>
        have hrest : ¬ Passes P b' w' rs := fun hrest => hP ⟨hr, by rw [hp]; exact hrest⟩
        obtain ⟨b1, w1, r1, rs1, h1, hr1, hst, hbuf, hreq⟩ :=
          ih (hstep b w r b' w' h hr hp) hrest
        refine ⟨b1, w1, r1, rs1, h1, hr1, ?_⟩
        simp only [sstpStreamRecvSstp, hp] at hst hbuf ⊢
        exact ⟨hst, hbuf, fun q hq => List.mem_cons_of_mem _ (hreq q hq)⟩
      | done status b' w' => exact absurd ⟨hr, by rw [hp]; trivial⟩ hP
      | overrun => exact absurd ⟨hr, by rw [hp]; trivial⟩ hP
    · exact ⟨b, w, r, rs, h, hr, rfl, rfl, fun q hq => hq⟩

end Loop

end SstpClient.Recv
