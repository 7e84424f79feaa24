import SstpClient.Recv

/-!
When packets come out of the stream as they went in.

The loop ends when the length field does not exceed what has been read, also before the
length field has been read: then it is made of bytes an earlier packet left there. The
packets are delivered as they were sent, however the stream is cut, exactly as long as the
field does not happen to be that small after a read that ends inside a header.
-/

namespace SstpClient.Reassembly

open SstpClient.Lib.Bytes SstpClient.Lib.Machine SstpClient.Buffer SstpClient.Packet
open SstpClient.Recv

/-! ### What is sent and what is delivered -/

/-- A packet whose header says its length. -/
structure WellFormed (p : List UInt8) : Prop where
  header : 4 ≤ p.length
  size : p.length ≤ 16384
  length : be16 (p.getD 2 0) (p.getD 3 0) = p.length

/-- The packets handed on: `buf->off`, `buf->len` and the first `buf->len` bytes. -/
def delivered (events : List RxEvent) : List (ℤ × ℤ × List UInt8) :=
  events.filterMap fun
    | .packet off len bytes => some (off, len, bytes)
    | _ => none

/-- What there is to deliver. -/
def expected (packets : List (List UInt8)) : List (ℤ × ℤ × List UInt8) :=
  packets.map fun p => (p.length, p.length, p)

/-- The socket is ready, and the calls of `SSL_read` go as listed. -/
def recvReady (s : Rx) (outcomes : List SslRead) : Rx × List RxEvent :=
  sstpRecvCont s (.ready outcomes)

/-- The receive side after the calls: the packets come in one stream, to a buffer that holds
`data`. -/
def receive (packets : List (List UInt8)) (data : List UInt8) (calls : List (List SslRead)) :
    Rx × List RxEvent :=
  run recvReady (sstpStreamSetrecv data packets.flatten) calls

/-- The packets are reassembled over the calls: those delivered are the first ones, each once
and in order, receiving goes on, and when the wire is used up none is missing. -/
structure Reassembles (packets : List (List UInt8)) (data : List UInt8)
    (calls : List (List SslRead)) : Prop where
  inOrder : delivered (receive packets data calls).2 <+: expected packets
  armed : (receive packets data calls).1.armed
  complete : (receive packets data calls).1.wire = [] →
    delivered (receive packets data calls).2 = expected packets

/-- The condition on a pass: when it ends inside a header, the length field the buffer then
holds exceeds the number of bytes read. -/
def Waits (b : Buff) (wire : List UInt8) (r : SslRead) : Prop :=
  ∀ bytes, sslRead (recvLen b - b.off) wire r = .none bytes → b.off + bytes.length < 4 →
    b.off + bytes.length < sstpPktLen (placed b bytes)

/-- The passes of each call on the way wait for the length field. -/
def Clean (packets : List (List UInt8)) (data : List UInt8) (calls : List (List SslRead)) : Prop :=
  Along recvReady (fun s outcomes => AtCalls Waits s (.ready outcomes))
    (sstpStreamSetrecv data packets.flatten) calls

@[simp] lemma delivered_append (e e' : List RxEvent) :
    delivered (e ++ e') = delivered e ++ delivered e' := List.filterMap_append

@[simp] lemma delivered_requests (l : List (ℤ × ℤ)) :
    delivered (l.map fun r => RxEvent.request r.1 r.2) = [] := by
  induction l with
  | nil => rfl
  | cons r l ih => exact ih

/-! ### The packet being read -/

/-- The bytes read into the buffer and those on the wire are the packets of `rest`, and the
first of these is not complete. -/
structure Pending (rest : List (List UInt8)) (b : Buff) (wire : List UInt8) : Prop where
  size : b.max = 16384
  nonneg : 0 ≤ b.off
  bytes : b.data.take b.off.toNat ++ wire = rest.flatten
  inside : b.off = 0 ∨ ∃ p ps, rest = p :: ps ∧ b.off < p.length

lemma pending_reset {b : Buff} {rest : List (List UInt8)} (hmax : b.max = 16384) :
    Pending rest (sstpBuffReset b) rest.flatten :=
  ⟨hmax, le_refl 0, rfl, .inl rfl⟩

lemma pending_setLen {rest : List (List UInt8)} {b : Buff} {wire : List UInt8}
    (h : Pending rest b wire) (n : ℤ) : Pending rest { b with len := n } wire :=
  ⟨h.size, h.nonneg, h.bytes, h.inside⟩

/-- The length field, once it has been read. -/
lemma pktLen_of_take {b : Buff} {p : List UInt8} {n : ℕ} (hp : WellFormed p) (h4 : 4 ≤ n)
    (h : b.data.take n = p.take n) : sstpPktLen b = p.length := by
  have hbyte : ∀ i < 4, b.byte i = p.getD i 0 := by
    intro i hi
    have hget := congrArg (·[i]?) h
    simp only [List.getElem?_take, show i < n by omega, if_true] at hget
    simp only [Buff.byte, List.getD_eq_getElem?_getD, hget]
  rw [sstpPktLen, hbyte 2 (by omega), hbyte 3 (by omega), hp.length]

/-- A list that is shorter than the first part of a concatenation is a prefix of that part. -/
lemma eq_take_of_append {a w p q : List UInt8} (h : a ++ w = p ++ q) (hle : a.length ≤ p.length) :
    a = p.take a.length := by
  have ht := congrArg (List.take a.length) h
  rwa [List.take_left, List.take_append_of_le_length hle] at ht

section Packet

variable {p : List UInt8} {ps : List (List UInt8)} {b : Buff} {wire : List UInt8}

lemma Pending.off_lt (hp : WellFormed p) (h : Pending (p :: ps) b wire) : b.off < p.length := by
  rcases h.inside with h0 | ⟨p', ps', heq, hlt⟩
  · have := hp.header
    omega
  · cases heq
    exact hlt

/-- What has been read of the first packet. -/
lemma Pending.take_eq (hp : WellFormed p) (h : Pending (p :: ps) b wire) :
    b.data.take b.off.toNat = p.take b.off.toNat := by
  have hlt := h.off_lt hp
  have hnonneg := h.nonneg
  have hsize := h.size
  have hle := hp.size
  unfold Buff.max at hsize
  have hlen : (b.data.take b.off.toNat).length = b.off.toNat := by
    rw [List.length_take]
    omega
  have htake := eq_take_of_append h.bytes (by rw [hlen]; omega)
  rwa [hlen] at htake

lemma Pending.recvLen_eq (hp : WellFormed p) (h : Pending (p :: ps) b wire) :
    recvLen b = if 4 ≤ b.off then (p.length : ℤ) else 4 := by
  unfold recvLen
  split_ifs with h4
  · exact pktLen_of_take hp (by omega) (h.take_eq hp)
  · rfl

/-- A pass that reads bytes leaves the packets as they are, and does not read past the first. -/
lemma placed_pending (hp : WellFormed p) (h : Pending (p :: ps) b wire) {r : SslRead}
    {bytes : List UInt8} (hr : sslRead (recvLen b - b.off) wire r = .none bytes) :
    b.off + bytes.length ≤ p.length ∧ (placed b bytes).max = 16384 ∧
      (placed b bytes).data.take (b.off + bytes.length).toNat ++ wire.drop bytes.length =
        (p :: ps).flatten := by
  obtain ⟨-, -, hle, hwire⟩ := sslRead_bytes hr
  have hlen := h.recvLen_eq hp
  have hlt := h.off_lt hp
  have hnonneg := h.nonneg
  have hsize := h.size
  have hheader := hp.header
  have hpsize := hp.size
  have hroom : b.off + bytes.length ≤ p.length := by
    split_ifs at hlen with h4 <;> omega
  have hfit : b.off + bytes.length ≤ b.max := by omega
  refine ⟨hroom, (max_placed hnonneg hfit).trans hsize, ?_⟩
  have htake : (placed b bytes).data.take (b.off + bytes.length).toNat =
      b.data.take b.off.toNat ++ bytes := by
    have hn : (b.off + bytes.length).toNat = b.off.toNat + bytes.length := by omega
    rw [hn]
    unfold Buff.max at hsize
    exact take_splice (by omega)
  rw [htake, List.append_assoc, hwire, h.bytes]

lemma pktLen_placed_eq (hp : WellFormed p) (h : Pending (p :: ps) b wire) {r : SslRead}
    {bytes : List UInt8} (hr : sslRead (recvLen b - b.off) wire r = .none bytes)
    (h4 : 4 ≤ b.off + bytes.length) : sstpPktLen (placed b bytes) = p.length := by
  obtain ⟨hroom, hmax, hbytes⟩ := placed_pending hp h hr
  have hpsize := hp.size
  unfold Buff.max at hmax
  have hlen : ((placed b bytes).data.take (b.off + bytes.length).toNat).length =
      (b.off + bytes.length).toNat := by
    rw [List.length_take]
    omega
  have htake := eq_take_of_append hbytes (by rw [hlen]; omega)
  rw [hlen] at htake
  exact pktLen_of_take hp (by omega) htake

/-- How a pass over the bytes of a packet goes on: inside the header by what the length field
happens to be, behind it until the packet is complete. -/
lemma recvPass_pending (hp : WellFormed p) (h : Pending (p :: ps) b wire) {r : SslRead}
    {bytes : List UInt8} (hr : sslRead (recvLen b - b.off) wire r = .none bytes) :
    recvPass b wire r =
      if b.off + bytes.length < sstpPktLen (placed b bytes) then
        .again (placed b bytes) (wire.drop bytes.length)
      else .done .okay (placed b bytes) (wire.drop bytes.length) := by
  obtain ⟨hroom, -, -⟩ := placed_pending hp h hr
  have hpsize := hp.size
  have hsize := h.size
  exact recvPass_of_bytes hr h.nonneg (by omega)

/-- The complete packet. -/
lemma placed_complete (hp : WellFormed p) (h : Pending (p :: ps) b wire) {r : SslRead}
    {bytes : List UInt8} (hr : sslRead (recvLen b - b.off) wire r = .none bytes)
    (hend : b.off + bytes.length = p.length) :
    (placed b bytes).len = p.length ∧ (placed b bytes).data.take p.length = p ∧
      wire.drop bytes.length = ps.flatten := by
  obtain ⟨-, hmax, hbytes⟩ := placed_pending hp h hr
  obtain ⟨-, -, hle, -⟩ := sslRead_bytes hr
  have hlen := h.recvLen_eq hp
  have hheader := hp.header
  have hpsize := hp.size
  have hn : (b.off + bytes.length).toNat = p.length := by omega
  rw [hn, List.flatten_cons] at hbytes
  unfold Buff.max at hmax
  have htlen : ((placed b bytes).data.take p.length).length = p.length := by
    rw [List.length_take]
    omega
  have happ := List.append_inj hbytes htlen
  refine ⟨?_, happ.1, happ.2⟩
  change recvLen b = _
  split_ifs at hlen with h4 <;> omega

end Packet

/-! ### One pass -/

lemma no_bytes_of_nil {b : Buff} {wire : List UInt8} (h : Pending [] b wire) (r : SslRead)
    (bytes : List UInt8) : sslRead (recvLen b - b.off) wire r ≠ .none bytes := by
  intro hr
  obtain ⟨-, hpos, -, hwire⟩ := sslRead_bytes hr
  have hnil : wire = [] := (List.append_eq_nil_iff.mp h.bytes).2
  rw [hnil] at hwire
  have hb : bytes = [] := (List.append_eq_nil_iff.mp hwire).1
  simp [hb] at hpos

/-- Something is always asked for. -/
lemma request_pos {rest : List (List UInt8)} (hrest : ∀ p ∈ rest, WellFormed p) {b : Buff}
    {w : List UInt8} (h : Pending rest b w) : 0 < recvLen b - b.off := by
  rcases h.inside with h0 | ⟨p, ps, rfl, hlt⟩
  · have hlen : recvLen b = 4 := by
      unfold recvLen
      rw [if_neg (by omega)]
    omega
  · have hlen := h.recvLen_eq (hrest p List.mem_cons_self)
    split_ifs at hlen with h4 <;> omega

/-- A pass ends without bytes because the call would block, or has failed. -/
lemma pass_no_bytes {rest : List (List UInt8)} (hrest : ∀ p ∈ rest, WellFormed p) {b : Buff}
    {w : List UInt8} {r : SslRead} (h : Pending rest b w)
    (hno : ∀ bytes, sslRead (recvLen b - b.off) w r ≠ .none bytes) :
    ∃ status b', (status = .inprog ∨ status = .fail ∧ r = .error) ∧
      recvPass b w r = .done status b' w ∧ Pending rest b' w := by
  cases r with
  | avail n =>
    have hpos := request_pos hrest h
    have hblock : sslRead (recvLen b - b.off) w (.avail n) = .wantRead := by
      by_contra hne
      by_cases hw : w = []
      · exact hne (by rw [sslRead, if_neg (by omega), if_pos hw])
      · exact hno _ (by rw [sslRead, if_neg (by omega), if_neg hw])
    exact ⟨.inprog, { b with len := recvLen b }, .inl rfl, by simp only [recvPass, hblock],
      pending_setLen h _⟩
  | wantRead => exact ⟨.inprog, _, .inl rfl, rfl, pending_setLen h _⟩
  | wantWrite => exact ⟨.inprog, _, .inl rfl, rfl, pending_setLen h _⟩
  | error => exact ⟨.fail, _, .inr ⟨rfl, rfl⟩, rfl, pending_setLen h _⟩

lemma pass_pending {rest : List (List UInt8)} (hrest : ∀ p ∈ rest, WellFormed p) {b b' : Buff}
    {w w' : List UInt8} {r : SslRead} (h : Pending rest b w)
    (hpass : recvPass b w r = .again b' w') : Pending rest b' w' := by
  by_cases hbytes : ∃ bytes, sslRead (recvLen b - b.off) w r = .none bytes
  · obtain ⟨bytes, hr⟩ := hbytes
    cases rest with
    | nil => exact absurd hr (no_bytes_of_nil h r bytes)
    | cons p ps =>
      have hp := hrest p List.mem_cons_self
      obtain ⟨hroom, hmax, hflat⟩ := placed_pending hp h hr
      rw [recvPass_pending hp h hr] at hpass
      split_ifs at hpass with hlt
      cases hpass
      have hnonneg := h.nonneg
      have hheader := hp.header
      refine ⟨hmax, by simp only [placed]; omega, hflat, .inr ⟨p, ps, rfl, ?_⟩⟩
      change b.off + bytes.length < p.length
      by_cases h4 : 4 ≤ b.off + bytes.length
      · rwa [pktLen_placed_eq hp h hr h4] at hlt
      · omega
  · obtain ⟨status, -, hd⟩ := recvPass_of_no_bytes fun bytes hb => hbytes ⟨bytes, hb⟩
    rw [hd] at hpass
    cases hpass

/-- How a call ends: with the first packet, or without a packet and nothing lost. -/
lemma pass_ends {rest : List (List UInt8)} (hrest : ∀ p ∈ rest, WellFormed p) {b : Buff}
    {w : List UInt8} {r : SslRead} (h : Pending rest b w) (hP : Waits b w r) :
    (∃ b' w', recvPass b w r = .again b' w') ∨
    (∃ p ps b', rest = p :: ps ∧ recvPass b w r = .done .okay b' ps.flatten ∧ b'.max = 16384 ∧
      b'.off = p.length ∧ b'.len = p.length ∧ b'.data.take p.length = p) ∨
    ∃ status b', (status = .inprog ∨ status = .fail ∧ r = .error) ∧
      recvPass b w r = .done status b' w ∧ Pending rest b' w := by
  by_cases hbytes : ∃ bytes, sslRead (recvLen b - b.off) w r = .none bytes
  · obtain ⟨bytes, hr⟩ := hbytes
    cases rest with
    | nil => exact absurd hr (no_bytes_of_nil h r bytes)
    | cons p ps =>
      have hp := hrest p List.mem_cons_self
      obtain ⟨hroom, hmax, hflat⟩ := placed_pending hp h hr
      rw [recvPass_pending hp h hr]
      split_ifs with hlt
      · exact .inl ⟨_, _, rfl⟩
      · have h4 : 4 ≤ b.off + bytes.length := by
          by_contra h4
          exact hlt (hP bytes hr (by omega))
        rw [pktLen_placed_eq hp h hr h4] at hlt
        obtain ⟨hlen, htake, hdrop⟩ := placed_complete hp h hr (by omega)
        refine .inr (.inl ⟨p, ps, placed b bytes, rfl, by rw [hdrop], hmax, ?_, hlen, htake⟩)
        change b.off + bytes.length = _
        omega
  · exact .inr (.inr (pass_no_bytes hrest h fun bytes hb => hbytes ⟨bytes, hb⟩))

/-- A pass that does not wait hands on less than a header. -/
lemma pass_premature {rest : List (List UInt8)} (hrest : ∀ p ∈ rest, WellFormed p) {b : Buff}
    {w : List UInt8} {r : SslRead} (h : Pending rest b w) (hP : ¬ Waits b w r) :
    ∃ b' w', recvPass b w r = .done .okay b' w' ∧ b'.off < 4 := by
  simp only [Waits, not_forall] at hP
  obtain ⟨bytes, hr, hlt, hge⟩ := hP
  cases rest with
  | nil => exact absurd hr (no_bytes_of_nil h r bytes)
  | cons p ps =>
    have hp := hrest p List.mem_cons_self
    exact ⟨placed b bytes, w.drop bytes.length, by rw [recvPass_pending hp h hr, if_neg hge], hlt⟩

/-! ### One call -/

/-- What has been delivered is the first packets, and as long as the receive event is set
the others are still to come. -/
def Inv (packets : List (List UInt8)) (s : Rx) (events : List RxEvent) : Prop :=
  ∃ front rest, packets = front ++ rest ∧ delivered events = expected front ∧
    (s.armed = true → Pending rest s.buf s.wire)

/-- A call whose passes wait delivers the next packet or nothing, and receiving goes on unless
`SSL_read` fails. -/
lemma ready_inv {packets : List (List UInt8)} (hpk : ∀ p ∈ packets, WellFormed p) {s : Rx}
    {events : List RxEvent} {outcomes : List SslRead} (h : Inv packets s events)
    (ha : s.armed = true) (hP : Passes Waits s.buf s.wire outcomes) :
    Inv packets (sstpRecvCont s (.ready outcomes)).1
        (events ++ (sstpRecvCont s (.ready outcomes)).2) ∧
      ((∀ r ∈ outcomes, r ≠ .error) → (sstpRecvCont s (.ready outcomes)).1.armed = true) := by
  obtain ⟨front, rest, rfl, hdel, hpend⟩ := h
  have hrest : ∀ p ∈ rest, WellFormed p := fun p hp => hpk p (List.mem_append_right _ hp)
  obtain ⟨-, b, w, r, hb, hr, hend⟩ := call_inv (Pending rest)
    (fun b w r b' w' hb _ => pass_pending hrest hb) (hpend ha) (passes_and hP fun r hr => hr)
  have hwaits : Waits b w r := by
    rcases hr with hr | rfl
    · exact hr.1
    · intro bytes hbytes
      cases hbytes
  simp only [sstpRecvCont, ha, if_true]
  rcases pass_ends hrest hb hwaits with ⟨b', w', hp⟩ |
    ⟨p, ps, b', rfl, hp, hmax, hoff, hlen, htake⟩ | ⟨status, b', hst, hp, hb'⟩
  · rw [hp] at hend
    exact hend.elim
  · -- the packet is complete
    rw [hp] at hend
    obtain ⟨hst, rfl, hw⟩ := hend
    rw [hst]
    refine ⟨⟨front ++ [p], ps, by simp, ?_, fun _ => ?_⟩, fun _ => rfl⟩
    · have hbytes : List.take (Int.toNat (p.length : ℤ)) (sstpStreamRecvSstp s.buf s.wire
          outcomes).buf.data = p := by rw [Int.toNat_natCast, htake]
      rw [delivered_append, delivered_append, delivered_requests, hdel, hoff, hlen, hbytes]
      simp [expected, delivered]
    · rw [hw]
      exact pending_reset hmax
  · rw [hp] at hend
    obtain ⟨hcall, rfl, hw⟩ := hend
    rw [hcall]
    rcases hst with rfl | ⟨rfl, herr⟩
    · refine ⟨⟨front, rest, rfl, ?_, fun _ => by rw [hw]; exact hb'⟩, fun _ => rfl⟩
      rw [delivered_append, delivered_requests, hdel, List.append_nil]
    · refine ⟨⟨front, rest, rfl, ?_, fun hf => absurd hf (by simp)⟩, fun hne => ?_⟩
      · rw [delivered_append, delivered_append, delivered_requests, hdel]
        simp [delivered]
      · rcases hr with hr | hr
        · exact absurd herr (hne r hr.2)
        · rw [herr] at hr
          cases hr

/-- A call with a pass that does not wait hands on less than a header, which is no packet. -/
lemma ready_premature {packets : List (List UInt8)} (hpk : ∀ p ∈ packets, WellFormed p) {s : Rx}
    {events : List RxEvent} {outcomes : List SslRead} (h : Inv packets s events)
    (ha : s.armed = true) (hP : ¬ Passes Waits s.buf s.wire outcomes) :
    ¬ delivered (events ++ (sstpRecvCont s (.ready outcomes)).2) <+: expected packets := by
  obtain ⟨front, rest, rfl, hdel, hpend⟩ := h
  have hrest : ∀ p ∈ rest, WellFormed p := fun p hp => hpk p (List.mem_append_right _ hp)
  obtain ⟨b, w, r, rs, hb, hr, hst, hbuf, -⟩ := call_breaks (Pending rest)
    (fun b w r b' w' hb _ => pass_pending hrest hb) (hpend ha) hP
  obtain ⟨b', w', hp, hoff⟩ := pass_premature hrest hb hr
  simp only [sstpStreamRecvSstp, hp] at hst hbuf
  intro hpre
  have hmem : (b'.off, b'.len, b'.data.take b'.len.toNat) ∈ expected (front ++ rest) := by
    refine hpre.subset ?_
    simp only [sstpRecvCont, ha, if_true, hst, hbuf, delivered_append]
    simp [delivered]
  obtain ⟨p, hp, heq⟩ := List.mem_map.mp hmem
  have hheader := (hpk p hp).header
  have hlen : (p.length : ℤ) = b'.off := congrArg Prod.fst heq
  omega

/-! ### The run -/

lemma step_inv {packets : List (List UInt8)} (hpk : ∀ p ∈ packets, WellFormed p) {s : Rx}
    {events : List RxEvent} {outcomes : List SslRead} (h : Inv packets s events)
    (hC : AtCalls Waits s (.ready outcomes)) :
    Inv packets (sstpRecvCont s (.ready outcomes)).1
        (events ++ (sstpRecvCont s (.ready outcomes)).2) ∧
      ((∀ r ∈ outcomes, r ≠ .error) → s.armed = true →
        (sstpRecvCont s (.ready outcomes)).1.armed = true) := by
  cases ha : s.armed with
  | false =>
    have hs : sstpRecvCont s (.ready outcomes) = (s, []) := by simp [sstpRecvCont, ha]
    rw [hs, List.append_nil]
    exact ⟨h, fun _ hf => absurd hf (by simp)⟩
  | true =>
    obtain ⟨hinv, harmed⟩ := ready_inv hpk h ha (hC ha)
    exact ⟨hinv, fun hne _ => harmed hne⟩

section Run

variable {packets : List (List UInt8)} {data : List UInt8} {calls : List (List SslRead)}

lemma setrecv_inv (hdata : data.length = 16384) :
    Inv packets (sstpStreamSetrecv data packets.flatten) [] := by
  refine ⟨[], packets, rfl, rfl, fun _ => pending_reset ?_⟩
  unfold Buff.max
  rw [hdata]
  rfl

lemma inOrder_iff_clean (hpk : ∀ p ∈ packets, WellFormed p) (hdata : data.length = 16384) :
    delivered (receive packets data calls).2 <+: expected packets ↔ Clean packets data calls := by
  refine run_good_iff (Inv packets) (fun events => delivered events <+: expected packets)
    ?_ ?_ ?_ ?_ (setrecv_inv hdata)
  · rintro s events ⟨front, rest, rfl, hdel, -⟩
    rw [hdel, expected, expected, List.map_append]
    exact List.prefix_append _ _
  · intro events more hg
    rw [delivered_append] at hg
    exact (List.prefix_append _ _).trans hg
  · intro s events outcomes h hC
    exact (step_inv hpk h hC).1
  · intro s events outcomes h hC
    simp only [AtCalls, Classical.not_imp] at hC
    exact ready_premature hpk h hC.1 hC.2

/-- Clean calls without an error keep receiving. -/
lemma clean_armed (hpk : ∀ p ∈ packets, WellFormed p) (hdata : data.length = 16384)
    (hcalls : ∀ outcomes ∈ calls, SslRead.error ∉ outcomes) (hC : Clean packets data calls) :
    Inv packets (receive packets data calls).1 (receive packets data calls).2 ∧
      (receive packets data calls).1.armed = true := by
  refine run_inv (fun s events => Inv packets s events ∧ s.armed = true) ?_
    ⟨setrecv_inv hdata, rfl⟩ (along_and hC hcalls)
  rintro s events outcomes ⟨h, ha⟩ ⟨hC, herr⟩
  obtain ⟨h', ha'⟩ := step_inv hpk h hC
  exact ⟨h', ha' (fun r hr he => herr (he ▸ hr)) ha⟩

/-- Nothing is missing when the wire is used up: a packet begun would leave bytes on it. -/
lemma complete_of_inv (hpk : ∀ p ∈ packets, WellFormed p) {s : Rx} {events : List RxEvent}
    (h : Inv packets s events) (ha : s.armed = true) (hw : s.wire = []) :
    delivered events = expected packets := by
  obtain ⟨front, rest, rfl, hdel, hpend⟩ := h
  have hb := hpend ha
  cases rest with
  | nil => rw [hdel, List.append_nil]
  | cons p ps =>
    exfalso
    have hp := hpk p (List.mem_append_right _ List.mem_cons_self)
    have hlen := congrArg List.length hb.bytes
    have hlt := hb.off_lt hp
    have hnonneg := hb.nonneg
    rw [hw, List.append_nil, List.flatten_cons, List.length_append, List.length_take] at hlen
    omega

/-- **Reassembly.** Well-formed packets are reassembled over calls of `SSL_read` that return
bytes or would block exactly when each call that ends inside a header leaves a length field
that exceeds what has been read. -/
theorem reassembles_iff_clean (hpk : ∀ p ∈ packets, WellFormed p) (hdata : data.length = 16384)
    (hcalls : ∀ outcomes ∈ calls, SslRead.error ∉ outcomes) :
    Reassembles packets data calls ↔ Clean packets data calls := by
  constructor
  · intro h
    exact (inOrder_iff_clean hpk hdata).mp h.inOrder
  · intro hC
    obtain ⟨hinv, ha⟩ := clean_armed hpk hdata hcalls hC
    exact ⟨(inOrder_iff_clean hpk hdata).mpr hC, ha, complete_of_inv hpk hinv ha⟩

end Run

/-- An Echo-Request. -/
def echoRequest : List UInt8 := [0x10, 0x01, 0x00, 0x08, 0x00, 0x08, 0x00, 0x00]

lemma echoRequest_wellFormed : ∀ p ∈ [echoRequest], WellFormed p := by
  intro p hp
  rw [List.mem_singleton.mp hp]
  exact ⟨by decide, by decide, by decide⟩

theorem reassembles_iff_clean_echoRequest :
    Reassembles [echoRequest] (sstpBuffCreate 16384).data [[.avail 3, .wantRead], [.avail 3]] ↔
      Clean [echoRequest] (sstpBuffCreate 16384).data [[.avail 3, .wantRead], [.avail 3]] :=
  reassembles_iff_clean echoRequest_wellFormed List.length_replicate (by decide)

/-- One byte of it, read into a buffer whose bytes 2 and 3 are zero, is taken for a packet. -/
lemma firstByte_delivered {data : List UInt8} (hdata : data.length = 16384)
    (h2 : data.getD 2 0 = 0) (h3 : data.getD 3 0 = 0) :
    ¬ Reassembles [echoRequest] data [[.avail 0], [.avail 6]] := by
  intro h
  obtain ⟨hpass, -⟩ := (inOrder_iff_clean echoRequest_wellFormed hdata).mp h.inOrder
  have hoff : (sstpStreamSetrecv data [echoRequest].flatten).buf.off = 0 := rfl
  have hlt := (hpass rfl).1 [0x10] rfl (by rw [hoff]; decide)
  have hbyte : ∀ i, 1 ≤ i → data.getD i 0 = 0 →
      (placed (sstpStreamSetrecv data [echoRequest].flatten).buf [0x10]).byte i = 0 := by
    intro i hi hz
    rw [List.getD_eq_getElem?_getD] at hz
    simp only [Buff.byte, placed, List.getD_eq_getElem?_getD]
    rw [hoff]
    rw [getElem?_splice_ge (by change 0 + 1 ≤ data.length; omega) (by change 0 + 1 ≤ i; omega)]
    exact hz
  rw [sstpPktLen, hbyte 2 (by decide) h2, hbyte 3 (by decide) h3, hoff] at hlt
  exact absurd hlt (by decide)

/-- **Not every cut is harmless:** a fresh buffer and a first read of one byte. -/
theorem firstByte_not_reassembles :
    (∀ p ∈ [echoRequest], WellFormed p) ∧
      ¬ Reassembles [echoRequest] (sstpBuffCreate 16384).data [[.avail 0], [.avail 6]] := by
  refine ⟨echoRequest_wellFormed, firstByte_delivered List.length_replicate ?_ ?_⟩
  · exact List.getD_replicate _ (by decide)
  · exact List.getD_replicate _ (by decide)

end SstpClient.Reassembly
