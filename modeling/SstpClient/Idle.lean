import SstpClient.Reassembly

/-!
What a receive timeout does to a packet that has come in part.

`sstp_state_recv` answers the timeout with an echo request and resets the receive buffer as after
a packet. The bytes of a packet that have been read are lost with it, so the timeout does not
break the stream exactly when there are none.
-/

namespace SstpClient.Idle

open SstpClient.Lib.Bytes SstpClient.Lib.Machine SstpClient.Buffer SstpClient.Packet
open SstpClient.Recv SstpClient.Reassembly

/-! ### The receive side with timeouts -/

/-- The socket is ready, or the timeout has passed; then `echo` is the number of echo requests that
have not been answered. -/
inductive Input
  | ready (outcomes : List SslRead)
  | timeout (echo : ℕ)

/-- `sstp_recv_cont` with `sstp_state_recv`. With more than four echo requests the call is aborted,
and the event is not set again. -/
def step (s : Rx) : Input → Rx × List RxEvent
  | .ready outcomes => sstpRecvCont s (.ready outcomes)
  | .timeout echo =>
    if 4 < echo then ({ s with armed := false }, []) else sstpRecvCont s .timeout

def Input.isReady : Input → Bool
  | .ready _ => true
  | .timeout _ => false

/-- The bytes of a packet read so far. -/
def held (s : Rx) : List UInt8 := s.buf.data.take s.buf.off.toNat

/-- The timeouts do not break the stream: each of them keeps the bytes read so far, and at every
point the packets delivered are those of the run without timeouts. -/
structure Undisturbed (s : Rx) (inputs : List Input) : Prop where
  keeps : ∀ js echo, js ++ [.timeout echo] <+: inputs →
    held (run step s (js ++ [.timeout echo])).1 = held (run step s js).1
  same : ∀ js, js <+: inputs →
    delivered (run step s js).2 = delivered (run step s (js.filter Input.isReady)).2

/-- The condition on a step: a timeout comes when no part of a packet is held. -/
def AtRest (s : Rx) : Input → Prop
  | .ready _ => True
  | .timeout _ => s.armed = true → s.buf.off = 0

/-- With echo requests that have been answered. -/
def Echoed (inputs : List Input) : Prop := ∀ echo, .timeout echo ∈ inputs → echo ≤ 4

/-! ### The buffer -/

/-- What has been read lies inside the buffer. -/
def Inside (b : Buff) : Prop := 0 ≤ b.off ∧ b.off ≤ b.max

lemma inside_recvPass {b : Buff} (wire : List UInt8) (r : SslRead) (h : Inside b) :
    match recvPass b wire r with
    | .again b' _ => Inside b'
    | .done _ b' _ => Inside b'
    | .overrun => True := by
  by_cases hbytes : ∃ bytes, sslRead (recvLen b - b.off) wire r = .none bytes
  · obtain ⟨bytes, hr⟩ := hbytes
    by_cases hfit : b.off + bytes.length ≤ b.max
    · have hplaced : Inside (placed b bytes) := by
        refine ⟨?_, ?_⟩
        · change 0 ≤ b.off + bytes.length
          have h0 := h.1
          omega
        · rw [max_placed h.1 hfit]
          exact hfit
      rw [recvPass_of_bytes hr h.1 hfit]
      split_ifs
      · exact hplaced
      · exact hplaced
    · have hw : Buff.write { b with len := recvLen b } b.off bytes = none :=
        if_neg fun hp => hfit hp.2
      have hover : recvPass b wire r = .overrun := by
        simp only [recvPass, hr, hw]
      rw [hover]
      trivial
  · obtain ⟨status, -, hd⟩ := recvPass_of_no_bytes fun bytes hb => hbytes ⟨bytes, hb⟩
    rw [hd]
    exact h

lemma inside_call {b : Buff} (wire : List UInt8) (rs : List SslRead) (h : Inside b) :
    Inside (sstpStreamRecvSstp b wire rs).buf := by
  induction rs generalizing b wire with
  | nil => exact h
  | cons r rs ih =>
    have hpass := inside_recvPass wire r h
    cases hp : recvPass b wire r with
    | again b' wire' =>
      rw [hp] at hpass
      simp only [sstpStreamRecvSstp, hp]
      exact ih wire' hpass
    | done status b' wire' =>
      rw [hp] at hpass
      simp only [sstpStreamRecvSstp, hp]
      exact hpass
    | overrun =>
      simp only [sstpStreamRecvSstp, hp]
      exact h

lemma inside_reset (b : Buff) : Inside (sstpBuffReset b) := ⟨le_refl 0, max_nonneg b⟩

lemma inside_step {s : Rx} (h : Inside s.buf) (i : Input) : Inside (step s i).1.buf := by
  cases i with
  | ready outcomes =>
    have hcall := inside_call s.wire outcomes h
    simp only [step, sstpRecvCont]
    split_ifs
    · split
      · exact inside_reset _
      · exact hcall
      · exact hcall
      · exact hcall
    · exact h
  | timeout echo =>
    simp only [step, sstpRecvCont]
    split_ifs
    · exact h
    · exact inside_reset _
    · exact h

lemma inside_run {s : Rx} (h : Inside s.buf) (inputs : List Input) :
    Inside (run step s inputs).1.buf := by
  induction inputs generalizing s with
  | nil => exact h
  | cons i is ih =>
    rw [run_cons]
    exact ih (inside_step h i)

/-! ### Runs with and without timeouts -/

/-- The same but for the length that is set before every read. -/
structure Same (s t : Rx) : Prop where
  off : t.buf.off = s.buf.off
  data : t.buf.data = s.buf.data
  wire : t.wire = s.wire
  armed : t.armed = s.armed

lemma Same.refl (s : Rx) : Same s s := ⟨rfl, rfl, rfl, rfl⟩

/-- A pass does not look at the length it finds. -/
lemma recvPass_setLen (b : Buff) (wire : List UInt8) (r : SslRead) (n : ℤ) :
    recvPass { b with len := n } wire r = recvPass b wire r := rfl

lemma call_setLen (b : Buff) (wire : List UInt8) (rs : List SslRead) (n : ℤ) :
    ∃ n', sstpStreamRecvSstp { b with len := n } wire rs =
      { sstpStreamRecvSstp b wire rs with
        buf := { (sstpStreamRecvSstp b wire rs).buf with len := n' } } ∧
      ((sstpStreamRecvSstp b wire rs).status ≠ none →
        n' = (sstpStreamRecvSstp b wire rs).buf.len) := by
  cases rs with
  | nil => exact ⟨_, rfl, fun _ => rfl⟩
  | cons r rs =>
    simp only [sstpStreamRecvSstp, recvPass_setLen]
    cases hp : recvPass b wire r with
    | again b' wire' => exact ⟨_, rfl, fun _ => rfl⟩
    | done status b' wire' => exact ⟨_, rfl, fun _ => rfl⟩
    | overrun => exact ⟨n, rfl, fun h => absurd rfl h⟩

/-- States that are the same read the same. -/
lemma same_ready {s t : Rx} (h : Same s t) (outcomes : List SslRead) :
    Same (step s (.ready outcomes)).1 (step t (.ready outcomes)).1 ∧
      (step s (.ready outcomes)).2 = (step t (.ready outcomes)).2 := by
  obtain ⟨⟨len, off, data⟩, wire, armed⟩ := s
  obtain ⟨⟨len', off', data'⟩, wire', armed'⟩ := t
  obtain ⟨hoff, hdata, hwire, harmed⟩ := h
  dsimp only at hoff hdata hwire harmed
  subst hoff hdata hwire harmed
  obtain ⟨n', hcall, hlen⟩ := call_setLen ⟨len, off', data'⟩ wire' outcomes len'
  have hcall' : sstpStreamRecvSstp ⟨len', off', data'⟩ wire' outcomes =
      { sstpStreamRecvSstp ⟨len, off', data'⟩ wire' outcomes with
        buf := { (sstpStreamRecvSstp ⟨len, off', data'⟩ wire' outcomes).buf with len := n' } } :=
    hcall
  simp only [step, sstpRecvCont]
  split_ifs
  · rw [hcall']
    cases hst : (sstpStreamRecvSstp ⟨len, off', data'⟩ wire' outcomes).status with
    | none => exact ⟨⟨rfl, rfl, rfl, rfl⟩, rfl⟩
    | some status =>
      rw [hlen (by rw [hst]; exact Option.some_ne_none _)]
      cases status <;> exact ⟨.refl _, rfl⟩
  · exact ⟨⟨rfl, rfl, rfl, rfl⟩, rfl⟩

/-- A timeout at rest changes nothing. -/
lemma same_timeout {s t : Rx} (h : Same s t) {echo : ℕ} (hecho : echo ≤ 4)
    (hrest : AtRest s (.timeout echo)) :
    Same (step s (.timeout echo)).1 t ∧ (step s (.timeout echo)).2 = [] := by
  simp only [step, sstpRecvCont]
  rw [if_neg (not_lt.mpr hecho)]
  split_ifs with harmed
  · exact ⟨⟨h.off.trans (hrest harmed), h.data, h.wire, h.armed⟩, rfl⟩
  · exact ⟨h, rfl⟩

/-! ### Whole runs -/

lemma along_front {s : Rx} {inputs js : List Input} {C : Rx → Input → Prop}
    (h : Along step C s inputs) (hpre : js <+: inputs) : Along step C s js := by
  obtain ⟨ks, rfl⟩ := hpre
  exact ((along_append s js ks).mp h).1

/-- **A timeout does not break the packet stream** exactly when no part of a packet is held, at
each timeout of the run. -/
theorem undisturbed_iff (data wire : List UInt8) (inputs : List Input) (hecho : Echoed inputs) :
    Undisturbed (sstpStreamSetrecv data wire) inputs ↔
      Along step AtRest (sstpStreamSetrecv data wire) inputs := by
  have hinside : Inside (sstpStreamSetrecv data wire).buf := inside_reset _
  generalize sstpStreamSetrecv data wire = s at *
  constructor
  · rintro ⟨hkeeps, -⟩
    by_contra hnot
    obtain ⟨js, i, ks, rfl, -, hi⟩ := exists_first hnot
    cases i with
    | ready outcomes => exact hi trivial
    | timeout echo =>
      refine hi fun harmed => ?_
      have hle : echo ≤ 4 := hecho echo (by simp)
      have hk := hkeeps js echo ⟨ks, by simp⟩
      obtain ⟨h0, hmax⟩ := inside_run hinside js
      rw [run_append, run_cons, run_nil] at hk
      simp only [step, sstpRecvCont] at hk
      rw [if_neg (not_lt.mpr hle), if_pos harmed] at hk
      have hlen := congrArg List.length hk
      unfold held sstpBuffReset at hlen
      unfold Buff.max at hmax
      rw [Int.toNat_zero, List.take_zero, List.length_nil, List.length_take] at hlen
      omega
  · intro hC
    have hboth : Along step (fun s i => AtRest s i ∧ ∀ echo, i = .timeout echo → echo ≤ 4) s
        inputs := along_and hC fun i hi echo heq => hecho echo (heq ▸ hi)
    have hsame : ∀ js, js <+: inputs → Same (run step s js).1
        (run step s (js.filter Input.isReady)).1 ∧
          delivered (run step s js).2 = delivered (run step s (js.filter Input.isReady)).2 := by
      intro js hpre
      refine run_filter Same Input.isReady delivered rfl delivered_append ?_ ?_ (.refl s)
        (along_front hboth hpre)
      · intro s t i h hp
        cases i with
        | ready outcomes =>
          obtain ⟨hR, hev⟩ := same_ready h outcomes
          exact ⟨hR, congrArg delivered hev⟩
        | timeout echo => cases hp
      · intro s t i h hp hi
        cases i with
        | ready outcomes => cases hp
        | timeout echo =>
          obtain ⟨hR, hev⟩ := same_timeout h (hi.2 echo rfl) hi.1
          exact ⟨hR, congrArg delivered hev⟩
    refine ⟨fun js echo hpre => ?_, fun js hpre => (hsame js hpre).2⟩
    have hlast := (along_append s js [.timeout echo]).mp (along_front hboth hpre)
    obtain ⟨hR, -⟩ := same_timeout (.refl (run step s js).1) (hlast.2.1.2 echo rfl) hlast.2.1.1
    rw [run_append, run_cons, run_nil]
    unfold held
    rw [← hR.off, ← hR.data]

/-- A data packet of eight bytes. -/
def packet : List UInt8 := [0x10, 0x00, 0x00, 0x08, 0x01, 0x02, 0x03, 0x04]

/-- A timeout while there is nothing to read. -/
theorem undisturbed_iff_idle : Echoed [.timeout 0, .ready [.avail 3, .avail 3]] ∧
    (Undisturbed (sstpStreamSetrecv (List.replicate 16384 0) packet)
        [.timeout 0, .ready [.avail 3, .avail 3]] ↔
      Along step AtRest (sstpStreamSetrecv (List.replicate 16384 0) packet)
        [.timeout 0, .ready [.avail 3, .avail 3]]) := by
  have hecho : Echoed [.timeout 0, .ready [.avail 3, .avail 3]] := by
    intro echo hmem
    simp at hmem
    omega
  exact ⟨hecho, undisturbed_iff _ _ _ hecho⟩

/-- A timeout between the header and the rest of a packet: the packet is delivered only in the run
without it. -/
lemma packet_lost (data : List UInt8) (h : 8 ≤ data.length) :
    delivered (run step (sstpStreamSetrecv data packet)
        [.ready [.avail 3], .ready [.avail 3]]).2 = [(8, 8, packet)] ∧
      delivered (run step (sstpStreamSetrecv data packet)
        [.ready [.avail 3], .timeout 0, .ready [.avail 3]]).2 = [] := by
  obtain ⟨p, rest, rfl, hp⟩ := exists_append h
  obtain ⟨d0, d1, d2, d3, d4, d5, d6, d7, rfl⟩ :
      ∃ d0 d1 d2 d3 d4 d5 d6 d7, p = [d0, d1, d2, d3, d4, d5, d6, d7] := by
    match p, hp with
    | [d0, d1, d2, d3, d4, d5, d6, d7], _ => exact ⟨d0, d1, d2, d3, d4, d5, d6, d7, rfl⟩
  have h4 : (4 : ℤ) ≤ rest.length + 1 + 1 + 1 + 1 + 1 + 1 + 1 + 1 := by omega
  have h8 : (8 : ℤ) ≤ rest.length + 1 + 1 + 1 + 1 + 1 + 1 + 1 + 1 := by omega
  constructor
  · simp [run, step, sstpRecvCont, sstpStreamSetrecv, sstpStreamRecvSstp, recvPass, recvLen,
      sslRead, packet, sstpBuffReset, Buff.write, Buff.max, Buff.byte, splice, sstpPktLen, be16,
      delivered, h4, h8]
  · simp [run, step, sstpRecvCont, sstpStreamSetrecv, sstpStreamRecvSstp, recvPass, recvLen,
      sslRead, packet, sstpBuffReset, Buff.write, Buff.max, Buff.byte, splice, sstpPktLen, be16,
      delivered, h4]

/-- The header of a packet, a timeout, and its four other bytes. -/
theorem partial_packet_lost :
    WellFormed packet ∧ Echoed [.ready [.avail 3], .timeout 0, .ready [.avail 3]] ∧
      ¬ Undisturbed (sstpStreamSetrecv (List.replicate 16384 0) packet)
        [.ready [.avail 3], .timeout 0, .ready [.avail 3]] := by
  refine ⟨⟨by decide, by decide, by decide⟩, fun echo hmem => ?_, fun h => ?_⟩
  · simp at hmem
    omega
  · obtain ⟨hwithout, hwith⟩ := packet_lost (List.replicate 16384 0)
      (by rw [List.length_replicate]; decide)
    have hsame := h.same _ (List.prefix_refl _)
    rw [hwith] at hsame
    change [] = delivered (run step _ [.ready [.avail 3], .ready [.avail 3]]).2 at hsame
    rw [hwithout] at hsame
    cases hsame

end SstpClient.Idle
