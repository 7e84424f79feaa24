import SstpClient.DeframeRun
import SstpClient.SnoopWatch

/-!
What the client learns from pppd in a run, however the frames are cut by the reads and whichever
sends block.
-/

namespace SstpClient.Snoop

open SstpClient.Lib.Machine SstpClient.Buffer
open SstpClient.Deframe (Encodes dataPacket)

/-! ### The calls and the plain de-framer -/

section Deframer

variable {φ : Phase}

/-- The context of the de-framer. -/
def deframer (s : Pppd) : Deframe.Pppd := ⟨s.toBuffs, s.first⟩

lemma last_send {notified : List Deframe.Out} {o : Deframe.Out} {sent : List (List UInt8)}
    (h : (notified ++ [o]).filter (· ≠ .start) = sent.map fun payload => .send (dataPacket payload))
    (ho : o ≠ .start) : ∃ packet, o = .send packet := by
  have hmem : o ∈ (notified ++ [o]).filter (· ≠ .start) := by simp [ho]
  rw [h] at hmem
  obtain ⟨payload, -, rfl⟩ := List.mem_map.mp hmem
  exact ⟨_, rfl⟩

/-- The de-framer's call has sent these payloads: so has the one with the check. -/
lemma recv_follows {s : Pppd} {chunk : List UInt8} {sent : List (List UInt8)}
    (hoff : s.rx.off = 0) (hroom : 4 ≤ s.tx.max) (hφ : φ ≠ .exited) (ha : Agrees φ s.auth)
    (hwhole : ∀ payload ∈ sent, Whole payload)
    (h : (Deframe.sstpPppdRecv (deframer s) chunk).2.filter (· ≠ .start) =
      sent.map fun payload => .send (dataPacket payload)) :
    ∃ r, Follows φ sent (Deframe.sstpPppdRecv (deframer s) chunk).1.toBuffs s.tx.max r ∧
      (Deframe.sstpPppdRecv (deframer s) chunk).1.first = false ∧
      (sstpPppdRecv s chunk []).1 = ⟨r.buffs, r.auth, false, waitOf r.status⟩ ∧
        reports (sstpPppdRecv s chunk []).2 = reports r.outs := by
  unfold Deframe.sstpPppdRecv deframer at h ⊢
  unfold sstpPppdRecv
  dsimp only at h ⊢
  cases hwrite : s.rx.write s.rx.len chunk with
  | none =>
    rw [hwrite] at h
    obtain ⟨packet, hpacket⟩ := last_send h (by decide)
    cases hpacket
  | some rx =>
    rw [hwrite] at h
    dsimp only at h ⊢
    by_cases hlen : rx.len + chunk.length ≤ 0
    · rw [if_pos hlen] at h
      obtain ⟨packet, hpacket⟩ := last_send h (by decide)
      cases hpacket
    · rw [if_neg hlen] at h
      rw [if_neg hlen, if_neg hlen]
      have hrx : rx.off = 0 := by rw [(write_eq_some hwrite).2.2.1]; exact hoff
      have hleft : left ⟨{ rx with len := rx.len + chunk.length }, s.tx⟩ + 1 =
          (rx.len + chunk.length).toNat + 1 := by
        unfold left
        dsimp only
        rw [hrx, sub_zero]
      cases hdata : Deframe.pppProcessData ⟨{ rx with len := rx.len + chunk.length }, s.tx⟩ with
      | none =>
        rw [hdata] at h
        obtain ⟨packet, hpacket⟩ := last_send h (by decide)
        cases hpacket
      | some d =>
        obtain ⟨status, c, packets⟩ := d
        rw [hdata] at h
        dsimp only at h ⊢
        have hpackets : packets = sent.map dataPacket := by
          have hsend : Function.Injective Deframe.Out.send := fun _ _ => Deframe.Out.send.inj
          rw [Deframe.filter_sends] at h
          exact List.map_injective_iff.mpr hsend (h.trans List.map_map.symm)
        rw [hpackets] at hdata
        have hfollows : Follows φ sent c s.tx.max
            (pppProcessData ⟨{ rx with len := rx.len + chunk.length }, s.tx⟩ s.auth []) := by
          unfold pppProcessData
          rw [hleft]
          exact loop_watch (b := ⟨_, sstpBuffReset s.tx⟩) hroom hφ ha hwhole hdata
        refine ⟨_, hfollows, rfl, rfl, ?_⟩
        cases s.first <;> rfl

end Deframer

/-! ### The run -/

section Run

variable {s : Pppd} {φ : Phase} {chunk next : List UInt8} {chunks later payloads : List (List UInt8)}

/-- Between two reads: what is left in the buffer and what is not yet read are the payloads. -/
structure Reading (s : Pppd) (φ : Phase) (next : List UInt8) (payloads : List (List UInt8)) :
    Prop where
  wait : s.wait = .read
  phase : φ ≠ .exited
  agrees : Agrees φ s.auth
  room : s.tx.max = 16384
  between : Deframe.Between (deframer s) next payloads

/-- **A read.** -/
lemma recv_watch (h : Reading s φ (chunk ++ next) payloads)
    (hpayloads : ∀ p ∈ payloads, 2 ≤ p.length ∧ p.length + 6 ≤ 16384)
    (hwhole : ∀ p ∈ payloads, Whole p) (hfits : Deframe.Fits (deframer s) chunk next)
    (hclear : Deframe.Clear (deframer s) chunk next) :
    ∃ sent rest, payloads = sent ++ rest ∧
      reports (sstpPppdRecv s chunk []).2 = (run watch φ sent).2 ∧
        (((run watch φ sent).1 = .exited ∧ (sstpPppdRecv s chunk []).1.wait = .nothing) ∨
          (Reading (sstpPppdRecv s chunk []).1 (run watch φ sent).1 next rest ∧
            deframer (sstpPppdRecv s chunk []).1 = (Deframe.sstpPppdRecv (deframer s) chunk).1)) := by
  have hroom : 4 ≤ s.tx.max := by rw [h.room]; decide
  have hoff : s.rx.off = 0 := by
    obtain ⟨ys, stale, k, hrx, -⟩ := h.between
    exact congrArg Buff.off hrx
  have hfit : ∀ p ∈ payloads, 2 ≤ p.length ∧ p.length + 6 ≤ (deframer s).tx.max := by
    intro p hp
    have hmax : (deframer s).tx.max = 16384 := h.room
    obtain ⟨h2, h6⟩ := hpayloads p hp
    exact ⟨h2, by omega⟩
  obtain ⟨sent, rest, rfl, hsent, -, hbetween⟩ :=
    Deframe.recv_between h.between hroom hfit hfits hclear
  obtain ⟨r, hfollows, hfirst, hctx, houts⟩ := recv_follows hoff hroom h.phase h.agrees
    (fun p hp => hwhole p (List.mem_append_left rest hp)) hsent
  refine ⟨sent, rest, rfl, houts.trans hfollows.outs, ?_⟩
  rw [hctx]
  by_cases hexit : (run watch φ sent).1 = .exited
  · exact .inl ⟨hexit, by rw [hfollows.exits hexit]; rfl⟩
  · obtain ⟨hstatus, hbuffs, hmax, hagrees⟩ := hfollows.goes hexit
    have hdeframer : (⟨r.buffs, false⟩ : Deframe.Pppd) =
        (Deframe.sstpPppdRecv (deframer s) chunk).1 := by
      rw [hbuffs, ← hfirst]
    refine .inr ⟨⟨?_, hexit, hagrees, ?_, ?_⟩, hdeframer⟩
    · rw [hstatus]
      rfl
    · rw [← h.room, ← hmax, ← hbuffs]
    · rwa [← hdeframer] at hbetween

/-- Nothing is read any more. -/
lemma run_nothing (h : s.wait = .nothing) (chunks : List (List UInt8)) :
    run step s (plainly chunks) = (s, []) := by
  induction chunks with
  | nil => rfl
  | cons chunk chunks ih =>
    have hstep : step s (.readable chunk []) = (s, []) := by simp [step, h]
    calc run step s (plainly (chunk :: chunks))
        = ((run step (step s (.readable chunk [])).1 (plainly chunks)).1,
            (step s (.readable chunk [])).2 ++
              (run step (step s (.readable chunk [])).1 (plainly chunks)).2) := run_cons _ _ _
      _ = (s, []) := by rw [hstep, ih, List.append_nil]

lemma plainly_watch (h : Reading s φ (chunks ++ later).flatten payloads)
    (hpayloads : ∀ p ∈ payloads, 2 ≤ p.length ∧ p.length + 6 ≤ 16384)
    (hwhole : ∀ p ∈ payloads, Whole p)
    (hfits : Deframe.Always Deframe.Fits (deframer s) (chunks ++ later))
    (hclear : Deframe.Always Deframe.Clear (deframer s) (chunks ++ later)) :
    reports (run step s (plainly chunks)).2 <+: (run watch φ payloads).2 ∧
      (later = [] → reports (run step s (plainly chunks)).2 = (run watch φ payloads).2) := by
  induction chunks generalizing s φ payloads with
  | nil =>
    refine ⟨List.nil_prefix, ?_⟩
    rintro rfl
    obtain ⟨-, -, -, -, -, hread⟩ := h.between
    rw [hread.resolve_right fun hne => hne rfl]
    rfl
  | cons chunk chunks ih =>
    obtain ⟨sent, rest, rfl, houts, hnext⟩ :=
      recv_watch h hpayloads hwhole hfits.1 hclear.1
    have hstep : step s (.readable chunk []) = sstpPppdRecv s chunk [] := if_pos h.wait
    have hrun : run step s (plainly (chunk :: chunks)) =
        ((run step (sstpPppdRecv s chunk []).1 (plainly chunks)).1,
          (sstpPppdRecv s chunk []).2 ++
            (run step (sstpPppdRecv s chunk []).1 (plainly chunks)).2) := by
      rw [← hstep]
      exact run_cons _ _ _
    have hreports : ∀ outs outs', reports (outs ++ outs') = reports outs ++ reports outs' :=
      fun _ _ => List.filter_append _ _
    rw [hrun, run_append, hreports, houts]
    dsimp only
    rcases hnext with ⟨hexit, hwait⟩ | ⟨hreading, hdeframer⟩
    · rw [run_nothing hwait, hexit, run_exited]
      exact ⟨List.prefix_rfl, fun _ => rfl⟩
    · obtain ⟨hfront, hall⟩ := ih hreading
        (fun p hp => hpayloads p (List.mem_append_right sent hp))
        (fun p hp => hwhole p (List.mem_append_right sent hp))
        (by rw [hdeframer]; exact hfits.2) (by rw [hdeframer]; exact hclear.2)
      refine ⟨List.prefix_append_right_inj _ |>.mpr hfront, fun hlater => ?_⟩
      rw [hall hlater]

/-- **What the client learns from pppd**, and what it sends: however the frames are cut by the reads
and whichever sends block, the packets go out once each and in order, the first response is
reported right before it, then the first packet of IPCP, and nothing else. -/
theorem run_watch {payloads frames later : List (List UInt8)} {inputs : List Input}
    (hpayloads : ∀ p ∈ payloads, 2 ≤ p.length ∧ p.length + 6 ≤ 16384)
    (hwhole : ∀ p ∈ payloads, Whole p) (hframes : List.Forall₂ Encodes payloads frames)
    (hsplit : (reads (started true) inputs ++ later).flatten = frames.flatten)
    (hfits : Deframe.Always Deframe.Fits (deframer (started true))
      (reads (started true) inputs ++ later))
    (hclear : Deframe.Always Deframe.Clear (deframer (started true))
      (reads (started true) inputs ++ later)) :
    reports (run step (started true) inputs).2 <+: (run watch .negotiating payloads).2 ∧
      (later = [] → (run step (started true) inputs).1.wait ≠ .send →
        reports (run step (started true) inputs).2 = (run watch .negotiating payloads).2) := by
  obtain ⟨hplain, -⟩ := run_plainly true inputs
  have hwire : (reads (started true) inputs ++ later).flatten = Deframe.wire payloads :=
    hsplit.trans (Deframe.flatten_frames hframes)
  have hbetween : Deframe.Between (deframer (started true))
      (reads (started true) inputs ++ later).flatten payloads := by
    refine ⟨[], List.replicate 16384 0, 0, rfl, hwire, ?_⟩
    cases payloads with
    | nil => exact .inl rfl
    | cons payload payloads => exact .inr (by simp [hwire, Deframe.wire_cons])
  have hstart : Reading (started true) .negotiating
      (reads (started true) inputs ++ later).flatten payloads :=
    ⟨rfl, by decide, ⟨rfl, rfl, rfl⟩, max_create 16384, hbetween⟩
  obtain ⟨hfront, hall⟩ := plainly_watch hstart hpayloads hwhole hfits hclear
  rw [hplain, reports, List.filter_append] at hfront hall
  refine ⟨(List.prefix_append _ _).trans hfront, fun hlater hwait => ?_⟩
  rw [← hall hlater, step_settled hwait]
  exact (List.append_nil _).symm

end Run

/-- A PAP request and an IPCP request, in one read. -/
def papPacket : List UInt8 := [0xc0, 0x23, 0x01, 0x01]
def papFrame : List UInt8 := [0x7e, 0xc0, 0x23, 0x7d, 0x21, 0x7d, 0x21, 0x7d, 0x29, 0x23, 0x7e]

def ipcpPacket : List UInt8 := [0x80, 0x21, 0x01, 0x01, 0x00, 0x04]
def ipcpFrame : List UInt8 :=
  [0x7e, 0x80, 0x21, 0x7d, 0x21, 0x7d, 0x21, 0x7d, 0x20, 0x7d, 0x24, 0xbb, 0x99, 0x7e]

/-- Zeros behind a frame do no harm. -/
lemma harmless_zeros {used next : List UInt8} (n : ℕ) :
    Deframe.Harmless used (List.replicate (n + 1) 0) next := by
  have hpeek : Deframe.Peek (List.replicate (n + 1) 0) := fun hesc => absurd hesc (by decide)
  refine ⟨fun _ => ?_, fun _ => List.cons_ne_nil _ _, fun _ _ => hpeek, fun _ _ _ _ _ hhead => ?_⟩
  · rwa [List.replicate_succ, List.dropWhile_cons_of_neg (by decide), ← List.replicate_succ]
  · cases hhead

theorem run_watch_pap :
    reports (run step (started true) [.readable (papFrame ++ ipcpFrame) []]).2 <+:
        (run watch .negotiating [papPacket, ipcpPacket]).2 ∧
      (([] : List (List UInt8)) = [] →
        (run step (started true) [.readable (papFrame ++ ipcpFrame) []]).1.wait ≠ .send →
          reports (run step (started true) [.readable (papFrame ++ ipcpFrame) []]).2 =
            (run watch .negotiating [papPacket, ipcpPacket]).2) := by
  have hframes : List.Forall₂ Encodes [papPacket, ipcpPacket] [papFrame, ipcpFrame] :=
    .cons ⟨64, _, rfl, rfl, rfl⟩ (.cons ⟨64, _, rfl, rfl, rfl⟩ .nil)
  have hreads : reads (started true) [.readable (papFrame ++ ipcpFrame) []] ++ [] =
      [papFrame ++ ipcpFrame] := rfl
  have hmax : (deframer (started true)).rx.max = 16384 := max_create 16384
  have hstale : Deframe.staleBytes (deframer (started true)) (papFrame ++ ipcpFrame) =
      List.replicate (16358 + 1) 0 := List.drop_replicate
  refine run_watch (by decide) (by decide) hframes ?_ ?_ ?_
  · rw [hreads]
    rfl
  · rw [hreads]
    refine ⟨⟨by decide, ?_⟩, trivial⟩
    rw [hmax]
    decide
  · rw [hreads]
    refine ⟨?_, trivial⟩
    unfold Deframe.Clear
    rw [hstale]
    exact harmless_zeros _

end SstpClient.Snoop
