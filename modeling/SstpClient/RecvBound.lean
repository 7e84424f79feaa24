import SstpClient.Recv

/-!
When receiving stays inside the receive buffer.

The reader asks for four bytes and then for what the length field of the header says; no
length is compared with the size of the buffer. Every request and every position stays
inside exactly as long as no header that gets complete declares more than the buffer holds.
-/

namespace SstpClient.RecvBound

open SstpClient.Lib.Bytes SstpClient.Lib.Machine SstpClient.Buffer SstpClient.Packet
open SstpClient.Recv

/-! ### Staying inside -/

/-- The event asks for and keeps to positions inside a buffer of `max` bytes. -/
def InBounds (max : ℤ) : RxEvent → Prop
  | .request off num => 0 ≤ off ∧ off ≤ max ∧ num ≤ max - off
  | .packet off _ _ => 0 ≤ off ∧ off ≤ max
  | .failed => True
  | .overrun => False

/-- All events of the run are in bounds, and so is the position in every state on the way. -/
def StaysInBounds (max : ℤ) (s : Rx) (inputs : List RxInput) : Prop :=
  (∀ e ∈ (run sstpRecvCont s inputs).2, InBounds max e) ∧
    ∀ is, is <+: inputs → 0 ≤ (run sstpRecvCont s is).1.buf.off ∧
      (run sstpRecvCont s is).1.buf.off ≤ max

/-- The condition on a pass: a header that it completes declares at most what the buffer
holds. -/
def HeaderFits (b : Buff) (wire : List UInt8) (r : SslRead) : Prop :=
  ∀ bytes, sslRead (recvLen b - b.off) wire r = .none bytes →
    b.off < 4 → 4 ≤ b.off + bytes.length → sstpPktLen (placed b bytes) ≤ b.max

/-- The reader stands in the header, or in a packet that fits. -/
structure InPacket (max : ℤ) (b : Buff) : Prop where
  size : b.max = max
  nonneg : 0 ≤ b.off
  body : 4 ≤ b.off → b.off < sstpPktLen b ∧ sstpPktLen b ≤ max

section Bound

variable {max : ℤ}

lemma InPacket.recvLen_le {b : Buff} (h : InPacket max b) (h4 : 4 ≤ max) : recvLen b ≤ max := by
  unfold recvLen
  split_ifs with ho
  · exact (h.body ho).2
  · exact h4

lemma InPacket.off_lt {b : Buff} (h : InPacket max b) : b.off < recvLen b := by
  unfold recvLen
  split_ifs with ho
  · exact (h.body ho).1
  · omega

lemma inPacket_setLen {b : Buff} (h : InPacket max b) (n : ℤ) :
    InPacket max { b with len := n } := ⟨h.size, h.nonneg, h.body⟩

/-! ### One pass -/

lemma pass_inPacket (h4 : 4 ≤ max) {b b' : Buff} {w w' : List UInt8} {r : SslRead}
    (h : InPacket max b) (hP : HeaderFits b w r) (hp : recvPass b w r = .again b' w') :
    InPacket max b' := by
  by_cases hbytes : ∃ bytes, sslRead (recvLen b - b.off) w r = .none bytes
  · obtain ⟨bytes, hr⟩ := hbytes
    obtain ⟨-, -, hle, -⟩ := sslRead_bytes hr
    have hlen := h.recvLen_le h4
    have hfit : b.off + bytes.length ≤ b.max := by rw [h.size]; omega
    rw [recvPass_of_bytes hr h.nonneg hfit] at hp
    split_ifs at hp with hlt
    cases hp
    have hnonneg := h.nonneg
    refine ⟨(max_placed h.nonneg hfit).trans h.size, by simp only [placed]; omega, fun hoff => ⟨hlt, ?_⟩⟩
    by_cases hb : 4 ≤ b.off
    · rw [pktLen_placed hb (by omega)]
      exact (h.body hb).2
    · have := hP bytes hr (by omega) hoff
      rwa [h.size] at this
  · obtain ⟨status, -, hd⟩ := recvPass_of_no_bytes fun bytes hb => hbytes ⟨bytes, hb⟩
    rw [hd] at hp
    cases hp

/-- How a call ends that came this far: with a whole packet at most, and ready to go on if it
would block. -/
lemma pass_ends (h4 : 4 ≤ max) {b : Buff} {w : List UInt8} {r : SslRead} (h : InPacket max b) :
    (∃ b' w', recvPass b w r = .again b' w') ∨
    (∃ b' w', recvPass b w r = .done .okay b' w' ∧ b'.max = max ∧ 0 ≤ b'.off ∧ b'.off ≤ max) ∨
    ∃ status b' w', (status = .inprog ∨ status = .fail) ∧
      recvPass b w r = .done status b' w' ∧ InPacket max b' := by
  by_cases hbytes : ∃ bytes, sslRead (recvLen b - b.off) w r = .none bytes
  · obtain ⟨bytes, hr⟩ := hbytes
    obtain ⟨-, -, hle, -⟩ := sslRead_bytes hr
    have hlen := h.recvLen_le h4
    have hfit : b.off + bytes.length ≤ b.max := by rw [h.size]; omega
    rw [recvPass_of_bytes hr h.nonneg hfit]
    split_ifs with hlt
    · exact .inl ⟨_, _, rfl⟩
    · have hnonneg := h.nonneg
      have hoff : (placed b bytes).off = b.off + bytes.length := rfl
      exact .inr (.inl ⟨_, _, rfl, (max_placed h.nonneg hfit).trans h.size, by omega, by omega⟩)
  · obtain ⟨status, hs, hd⟩ := recvPass_of_no_bytes fun bytes hb => hbytes ⟨bytes, hb⟩
    exact .inr (.inr ⟨status, _, _, hs, hd, inPacket_setLen h _⟩)

/-- A pass that completes a header which declares too much goes on, and asks for too much. -/
lemma pass_exceeds (h4 : 4 ≤ max) {b : Buff} {w : List UInt8} {r : SslRead} (h : InPacket max b)
    (hP : ¬ HeaderFits b w r) :
    ∃ b' w', recvPass b w r = .again b' w' ∧ 0 ≤ b'.off ∧ max - b'.off < recvLen b' - b'.off := by
  simp only [HeaderFits, not_forall, not_le] at hP
  obtain ⟨bytes, hr, hlt, hge, hbig⟩ := hP
  obtain ⟨-, -, hle, -⟩ := sslRead_bytes hr
  have hlen : recvLen b = 4 := by unfold recvLen; rw [if_neg (by omega)]
  have hsize := h.size
  have hfit : b.off + bytes.length ≤ b.max := by omega
  have hoff : (placed b bytes).off = b.off + bytes.length := rfl
  refine ⟨placed b bytes, w.drop bytes.length, ?_, by omega, ?_⟩
  · rw [recvPass_of_bytes hr h.nonneg hfit, if_pos (by omega)]
  · have hlen' : recvLen (placed b bytes) = sstpPktLen (placed b bytes) := by
      unfold recvLen
      rw [if_pos (by omega)]
    omega

/-! ### One event -/

/-- Between two events the position is inside, and as long as the receive event is set the
reader stands in a packet that fits. -/
structure RxInBounds (max : ℤ) (s : Rx) : Prop where
  off : 0 ≤ s.buf.off ∧ s.buf.off ≤ max
  armed : s.armed → InPacket max s.buf

lemma InPacket.off_le {b : Buff} (h : InPacket max b) (h4 : 4 ≤ max) :
    0 ≤ b.off ∧ b.off ≤ max := by
  have h1 := h.off_lt
  have h2 := h.recvLen_le h4
  exact ⟨h.nonneg, by omega⟩

lemma inPacket_reset {b : Buff} (h : b.max = max) : InPacket max (sstpBuffReset b) := by
  refine ⟨h, le_refl 0, fun h0 => ?_⟩
  rw [off_reset] at h0
  omega

lemma request_inBounds (h4 : 4 ≤ max) {b : Buff} (h : InPacket max b) :
    InBounds max (.request b.off (recvLen b - b.off)) := by
  have h1 := h.off_le h4
  have h2 := h.recvLen_le h4
  exact ⟨h1.1, h1.2, by omega⟩

/-- A call whose passes all meet the condition keeps inside. -/
lemma ready_inBounds (h4 : 4 ≤ max) {s : Rx} {outcomes : List SslRead} (h : RxInBounds max s)
    (ha : s.armed = true) (hP : Passes HeaderFits s.buf s.wire outcomes) :
    RxInBounds max (sstpRecvCont s (.ready outcomes)).1 ∧
      ∀ e ∈ (sstpRecvCont s (.ready outcomes)).2, InBounds max e := by
  obtain ⟨hreq, b, w, r, hb, -, hend⟩ := call_inv (fun b _ => InPacket max b)
    (fun b w r b' w' => pass_inPacket h4) (h.armed ha) hP
  -- every request is made from a state inside
  have hrequests : ∀ e ∈ (sstpStreamRecvSstp s.buf s.wire outcomes).requests.map
      (fun r => RxEvent.request r.1 r.2), InBounds max e := by
    intro e he
    obtain ⟨q, hq, rfl⟩ := List.mem_map.mp he
    obtain ⟨b', -, hb', rfl⟩ := hreq q hq
    exact request_inBounds h4 hb'
  simp only [sstpRecvCont, ha, if_true]
  rcases pass_ends h4 hb (w := w) (r := r) with ⟨b', w', hp⟩ | ⟨b', w', hp, hmax, hoff⟩ |
    ⟨status, b', w', rfl | rfl, hp, hb'⟩
  · rw [hp] at hend
    exact hend.elim
  · rw [hp] at hend
    obtain ⟨hst, rfl, -⟩ := hend
    rw [hst]
    refine ⟨⟨⟨le_refl 0, by simp only [off_reset]; omega⟩, fun _ => inPacket_reset hmax⟩, ?_⟩
    intro e he
    rcases List.mem_append.mp he with he | he
    · exact hrequests e he
    · rw [List.mem_singleton.mp he]
      exact hoff
  · rw [hp] at hend
    obtain ⟨hst, rfl, -⟩ := hend
    rw [hst]
    exact ⟨⟨hb'.off_le h4, fun _ => hb'⟩, hrequests⟩
  · rw [hp] at hend
    obtain ⟨hst, rfl, -⟩ := hend
    rw [hst]
    refine ⟨⟨hb'.off_le h4, fun hf => absurd hf (by simp)⟩, ?_⟩
    intro e he
    rcases List.mem_append.mp he with he | he
    · exact hrequests e he
    · rw [List.mem_singleton.mp he]
      trivial

/-- The requests of a call are among the events. -/
lemma request_mem {s : Rx} {outcomes : List SslRead} (ha : s.armed = true) {q : ℤ × ℤ}
    (hq : q ∈ (sstpStreamRecvSstp s.buf s.wire outcomes).requests) :
    RxEvent.request q.1 q.2 ∈ (sstpRecvCont s (.ready outcomes)).2 := by
  have hmem := List.mem_map_of_mem (f := fun r : ℤ × ℤ => RxEvent.request r.1 r.2) hq
  simp only [sstpRecvCont, ha, if_true]
  split
  · exact List.mem_append_left _ hmem
  · exact hmem
  · exact List.mem_append_left _ hmem
  · exact List.mem_append_left _ hmem

/-- A call with a pass that does not meet the condition asks for more than there is room for. -/
lemma ready_exceeds (h4 : 4 ≤ max) {s : Rx} {outcomes : List SslRead} (h : RxInBounds max s)
    (ha : s.armed = true) (hP : ¬ Passes HeaderFits s.buf s.wire outcomes) :
    ∃ e ∈ (sstpRecvCont s (.ready outcomes)).2, ¬ InBounds max e := by
  obtain ⟨b, w, r, rs, hb, hr, -, -, hreq⟩ := call_breaks (fun b _ => InPacket max b)
    (fun b w r b' w' => pass_inPacket h4) (h.armed ha) hP
  obtain ⟨b', w', hp, -, hbig⟩ := pass_exceeds h4 hb hr
  have hfirst : (b'.off, recvLen b' - b'.off) ∈ (sstpStreamRecvSstp b w (r :: rs)).requests := by
    simp only [sstpStreamRecvSstp, hp]
    refine List.mem_cons_of_mem _ ?_
    cases rs with
    | nil => exact List.mem_cons_self
    | cons r' rs =>
      rw [sstpStreamRecvSstp]
      cases recvPass b' w' r' <;> exact List.mem_cons_self
  exact ⟨_, request_mem ha (hreq _ hfirst), fun hin => absurd hin.2.2 (by omega)⟩

lemma step_inBounds (h4 : 4 ≤ max) {s : Rx} {i : RxInput} (h : RxInBounds max s)
    (hC : AtCalls HeaderFits s i) :
    RxInBounds max (sstpRecvCont s i).1 ∧ ∀ e ∈ (sstpRecvCont s i).2, InBounds max e := by
  cases ha : s.armed with
  | false =>
    have hs : sstpRecvCont s i = (s, []) := by simp [sstpRecvCont, ha]
    rw [hs]
    exact ⟨h, by simp⟩
  | true =>
    cases i with
    | ready outcomes => exact ready_inBounds h4 h ha (hC ha)
    | timeout =>
      have hs : sstpRecvCont s .timeout = ({ s with buf := sstpBuffReset s.buf }, []) := by
        simp [sstpRecvCont, ha]
      rw [hs]
      refine ⟨⟨⟨le_refl 0, ?_⟩, fun _ => inPacket_reset (h.armed ha).size⟩, by simp⟩
      simp only [off_reset]
      omega

/-! ### The run -/

lemma run_inBounds (h4 : 4 ≤ max) {s : Rx} {inputs : List RxInput} (h : RxInBounds max s)
    (hC : Along sstpRecvCont (AtCalls HeaderFits) s inputs) :
    RxInBounds max (run sstpRecvCont s inputs).1 := by
  exact run_inv (fun s (_ : List RxEvent) => RxInBounds max s)
    (fun s _ i h hC => (step_inBounds h4 h hC).1) (h := []) h hC

lemma events_inBounds_iff (h4 : 4 ≤ max) {s : Rx} {inputs : List RxInput} (h : RxInBounds max s) :
    (∀ e ∈ (run sstpRecvCont s inputs).2, InBounds max e) ↔
      Along sstpRecvCont (AtCalls HeaderFits) s inputs := by
  refine run_good_iff (fun s h => RxInBounds max s ∧ ∀ e ∈ h, InBounds max e)
    (fun h => ∀ e ∈ h, InBounds max e) (fun s h hi => hi.2)
    (fun h o hg e he => hg e (List.mem_append_left _ he)) ?_ ?_ (h := []) ⟨h, by simp⟩
  · rintro s h i ⟨hs, hh⟩ hC
    obtain ⟨hs', he'⟩ := step_inBounds h4 hs hC
    refine ⟨hs', fun e he => ?_⟩
    rcases List.mem_append.mp he with he | he
    · exact hh e he
    · exact he' e he
  · rintro s h i ⟨hs, -⟩ hC hg
    cases i with
    | timeout => exact hC trivial
    | ready outcomes =>
      simp only [AtCalls, Classical.not_imp] at hC
      obtain ⟨e, he, hbad⟩ := ready_exceeds h4 hs hC.1 hC.2
      exact hbad (hg e (List.mem_append_right _ he))

end Bound

lemma setrecv_inBounds {data : List UInt8} (hdata : data.length = 16384) (wire : List UInt8) :
    RxInBounds 16384 (sstpStreamSetrecv data wire) := by
  have hmax : (⟨0, 0, data⟩ : Buff).max = 16384 := by
    unfold Buff.max
    rw [hdata]
    rfl
  have hoff : (sstpStreamSetrecv data wire).buf.off = 0 := rfl
  exact ⟨⟨by omega, by omega⟩, fun _ => inPacket_reset hmax⟩

/-- **Receiving stays inside the buffer** exactly when no header that gets complete on the way
declares more than the 16384 bytes there are. -/
theorem recv_inBounds_iff {data : List UInt8} (hdata : data.length = 16384) (wire : List UInt8)
    (inputs : List RxInput) :
    StaysInBounds 16384 (sstpStreamSetrecv data wire) inputs ↔
      Along sstpRecvCont (AtCalls HeaderFits) (sstpStreamSetrecv data wire) inputs := by
  have h0 := setrecv_inBounds hdata wire
  have h4 : (4 : ℤ) ≤ 16384 := by decide
  constructor
  · rintro ⟨hev, -⟩
    exact (events_inBounds_iff h4 h0).mp hev
  · intro hC
    refine ⟨(events_inBounds_iff h4 h0).mpr hC, ?_⟩
    rintro is ⟨js, rfl⟩
    exact (run_inBounds h4 h0 (along_append _ _ _ |>.mp hC).1).off

/-- A packet of six bytes, the header first. -/
theorem recv_inBounds_iff_packet :
    StaysInBounds 16384
      (sstpStreamSetrecv (sstpBuffCreate 16384).data [0x10, 0x00, 0x00, 0x06, 0x45, 0x00])
      [.ready [.avail 3, .avail 1]] := by
  refine (recv_inBounds_iff List.length_replicate [0x10, 0x00, 0x00, 0x06, 0x45, 0x00]
    [.ready [.avail 3, .avail 1]]).mpr ⟨fun _ => ⟨?_, ?_⟩, trivial⟩
  · intro bytes hread _ _
    cases hread
    decide +kernel
  · split
    · next b' wire' hpass =>
      rw [recvPass_of_bytes rfl le_rfl (by decide +kernel)] at hpass
      split_ifs at hpass
      cases hpass
      refine ⟨fun bytes _ hoff _ => absurd hoff (by decide +kernel), ?_⟩
      split <;> trivial
    · trivial

/-- A header that declares 65535 bytes is followed by a request for the other 65531. -/
lemma longHeader_exceeds {data : List UInt8} (hdata : data.length = 16384) :
    ¬ StaysInBounds 16384 (sstpStreamSetrecv data [0x10, 0x00, 0xff, 0xff]) [.ready [.avail 3]] := by
  rintro ⟨hev, -⟩
  have hin := setrecv_inBounds hdata [0x10, 0x00, 0xff, 0xff]
  have hbig : ¬ Passes HeaderFits (sstpStreamSetrecv data [0x10, 0x00, 0xff, 0xff]).buf
      [0x10, 0x00, 0xff, 0xff] [.avail 3] := by
    rintro ⟨hfits, -⟩
    have hoff : (sstpStreamSetrecv data [0x10, 0x00, 0xff, 0xff]).buf.off = 0 := rfl
    have hle := hfits [0x10, 0x00, 0xff, 0xff] rfl (by rw [hoff]; decide) (by rw [hoff]; decide)
    have hlen : sstpPktLen (placed (sstpStreamSetrecv data [0x10, 0x00, 0xff, 0xff]).buf
        [0x10, 0x00, 0xff, 0xff]) = (be16 0xff 0xff : ℕ) := rfl
    rw [hlen, (hin.armed rfl).size] at hle
    exact absurd hle (by decide)
  obtain ⟨e, he, hbad⟩ := ready_exceeds (by decide) hin rfl hbig
  refine hbad (hev e ?_)
  rw [run_cons, run_nil, List.append_nil]
  exact he

theorem longHeader_not_inBounds :
    ¬ StaysInBounds 16384 (sstpStreamSetrecv (sstpBuffCreate 16384).data [0x10, 0x00, 0xff, 0xff])
      [.ready [.avail 3]] :=
  longHeader_exceeds List.length_replicate

end SstpClient.RecvBound
