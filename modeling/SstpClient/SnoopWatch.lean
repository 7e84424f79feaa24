import SstpClient.SnoopBlocked

/-!
What the client is to learn from the packets of pppd, and what it learns from those in the buffer.

The negotiation is a machine of four phases over whole packets. The check of a packet takes it to
the next phase, and the loop makes the rounds of the de-framer.
-/

namespace SstpClient.Snoop

open SstpClient.Lib.Footprint SstpClient.Lib.Machine SstpClient.Lib.Footprint.ReadProg
open SstpClient.Buffer SstpClient.Packet SstpClient.PacketBounds SstpClient.Fcs SstpClient.Ppp
open SstpClient.Uplink (sstpPktUpdate)
open SstpClient.Deframe (Buffs dataPacket)

/-! ### What the client is to learn -/

/-- The check reads nothing behind the packet. -/
def Whole (payload : List UInt8) : Prop :=
  (sstpPppdCheckAuth.eval (listMem payload)).isSome ∧ (sstpPppdIpup.eval (listMem payload)).isSome

instance (payload : List UInt8) : Decidable (Whole payload) :=
  inferInstanceAs (Decidable (_ = true ∧ _ = true))

/-- What a whole packet is. -/
def seen (payload : List UInt8) : Seen :=
  (sstpPppdCheckAuth.eval (listMem payload)).getD .nothing

example : seen ([0xff, 0x03, 0xc2, 0x23, 0x02, 0x01, 0x00, 0x36, 49] ++ List.replicate 49 7) =
    .response ⟨List.replicate 16 7, List.replicate 8 7, List.replicate 24 7, 7⟩ := by decide

def isIpcp (payload : List UInt8) : Bool := (sstpPppdIpup.eval (listMem payload)).getD false

/-- How far the negotiation has come. -/
inductive Phase
  | negotiating | authenticated | up | exited
  deriving DecidableEq

/-- The next packet of the negotiation: the first response is reported, and then the first packet of
IPCP, each right before it is sent. -/
def watch : Phase → List UInt8 → Phase × List Out
  | .negotiating, payload =>
    match seen payload with
    | .response chap => (.authenticated, [.auth chap, .send (dataPacket payload)])
    | .pap => (.authenticated, [.send (dataPacket payload)])
    | .tls => (.exited, [.die])
    | .delete | .nothing => (.negotiating, [.send (dataPacket payload)])
  | .authenticated, payload =>
    if isIpcp payload then (.up, [.up, .send (dataPacket payload)])
    else (.authenticated, [.send (dataPacket payload)])
  | .up, payload => (.up, [.send (dataPacket payload)])
  | .exited, _ => (.exited, [])

/-- The packets and the notifications about them. -/
def reports (outs : List Out) : List Out := outs.filter fun o => o ≠ .start ∧ o ≠ .unlink

/-! ### One packet -/

lemma protocolAt_ntohs {m : ℤ → Option UInt8} {buf hdr : ℤ} {proto : ℕ}
    (h : (protocolAt buf).eval m = some (proto, hdr)) (hproto : 256 ≤ proto) :
    (ntohs buf).eval m = some proto := by
  unfold protocolAt at h
  rw [eval_bind, eval_cell] at h
  obtain ⟨b0, hb0, h⟩ := Option.bind_eq_some_iff.mp h
  split_ifs at h with hodd
  · have := b0.toNat_lt
    cases h
    omega
  · rw [eval_bind, eval_cell] at h
    obtain ⟨b1, hb1, h⟩ := Option.bind_eq_some_iff.mp h
    cases h
    simp [ntohs, eval_bind, hb0, hb1]

/-- A packet that ends the authentication is none of IPCP. -/
lemma ipup_of_checkAuth {m : ℤ → Option UInt8} {r : Seen} (h : sstpPppdCheckAuth.eval m = some r)
    (hr : r ≠ .nothing) : sstpPppdIpup.eval m = some false := by
  unfold sstpPppdCheckAuth at h
  rw [eval_bind] at h
  obtain ⟨buf, hbuf, h⟩ := Option.bind_eq_some_iff.mp h
  rw [eval_bind] at h
  obtain ⟨⟨proto, hdr⟩, hproto, h⟩ := Option.bind_eq_some_iff.mp h
  have hipup : ∀ n : ℕ, 256 ≤ n → n ≠ protoIpcp → proto = n → sstpPppdIpup.eval m = some false := by
    rintro n h256 hne rfl
    unfold sstpPppdIpup
    rw [eval_bind, hbuf, Option.bind_some, eval_bind, protocolAt_ntohs hproto h256]
    simp [hne]
  dsimp only at h
  by_cases hchap : proto = protoChap
  · exact hipup _ (by decide) (by decide) hchap
  · by_cases heap : proto = protoEap
    · exact hipup _ (by decide) (by decide) heap
    · by_cases hpap : proto = protoPap
      · exact hipup _ (by decide) (by decide) hpap
      · rw [if_neg hchap, if_neg heap, if_neg hpap, eval_pure] at h
        exact absurd (Option.some.inj h).symm hr

/-- What the context keeps of the phase. -/
structure Agrees (φ : Phase) (a : Auth) : Prop where
  check : a.authCheck = true
  done : a.authDone = decide (φ ≠ .negotiating)
  up : a.ipUp = decide (φ = .up)

lemma Agrees.deltmp {φ : Phase} {a : Auth} (h : Agrees φ a) : Agrees φ (sstpPppdDeltmp a).1 := by
  unfold sstpPppdDeltmp
  split_ifs
  · exact ⟨h.check, h.done, h.up⟩
  · exact h

lemma deltmp_outs (a : Auth) : reports (sstpPppdDeltmp a).2 = [] ∧ .die ∉ (sstpPppdDeltmp a).2 := by
  unfold sstpPppdDeltmp
  split_ifs
  · exact ⟨rfl, by simp⟩
  · exact ⟨rfl, by simp⟩

/-- The packet is put out as the phase has it. -/
structure Watched (φ : Phase) (payload : List UInt8) (a : Auth) (outs : List Out) : Prop where
  goes : (watch φ payload).1 ≠ .exited
  lives : .die ∉ outs
  agrees : Agrees (watch φ payload).1 a
  outs : reports outs ++ [.send (dataPacket payload)] = (watch φ payload).2

/-- **One packet.** -/
lemma observe_watch {φ : Phase} {a : Auth} {payload : List UInt8} (hφ : φ ≠ .exited)
    (ha : Agrees φ a) (hwhole : Whole payload) (tail : List UInt8) :
    ∃ a' outs, observe a (payload ++ tail) = some (a', outs) ∧
      ((watch φ payload = (.exited, [.die]) ∧ outs = [.die]) ∨ Watched φ payload a' outs) := by
  obtain ⟨r, hr⟩ := Option.isSome_iff_exists.mp hwhole.1
  obtain ⟨u, hu⟩ := Option.isSome_iff_exists.mp hwhole.2
  have hseen : seen payload = r := by rw [seen, hr]; rfl
  have hipcp : isIpcp payload = u := by rw [isIpcp, hu]; rfl
  have hu' : r ≠ .nothing → u = false := fun hne =>
    Option.some.inj (hu.symm.trans (ipup_of_checkAuth hr hne))
  rw [← eval_append_of_isSome hwhole.1 tail] at hr
  rw [← eval_append_of_isSome hwhole.2 tail] at hu
  obtain ⟨hcheck, hdone, hup⟩ := ha
  cases φ with
  | negotiating =>
    have hobserve : observe a (payload ++ tail) = some (r.act a) := by
      have hdel : (sstpPppdDeltmp a).1.authDone = false := (Agrees.deltmp ⟨hcheck, hdone, hup⟩).done
      cases r with
      | response chap => simp [observe, Seen.act, hcheck, hdone, hup, hr, hu, hu']
      | delete => simp [observe, Seen.act, hcheck, hdone, hr, hdel]
      | pap =>
        have hup' : (sstpPppdDeltmp a).1.ipUp = false := (Agrees.deltmp ⟨hcheck, hdone, hup⟩).up
        simp [observe, Seen.act, hcheck, hdone, hup', hr, hu, hu']
      | tls => simp [observe, Seen.act, hcheck, hdone, hr]
      | nothing => simp [observe, Seen.act, hcheck, hdone, hr]
    refine ⟨(r.act a).1, (r.act a).2, hobserve, ?_⟩
    have hdel := Agrees.deltmp ⟨hcheck, hdone, hup⟩
    obtain ⟨houts, hdie⟩ := deltmp_outs a
    cases r with
    | response chap =>
      refine .inr ⟨by simp [watch, hseen], by simp [Seen.act], ?_, by simp [watch, hseen]; rfl⟩
      simp only [watch, hseen]
      exact ⟨hcheck, rfl, hup⟩
    | delete =>
      refine .inr ⟨by simp [watch, hseen], hdie, ?_, by simp [watch, hseen, Seen.act, houts]⟩
      simp only [watch, hseen]
      exact hdel
    | pap =>
      refine .inr ⟨by simp [watch, hseen], hdie, ?_, by simp [watch, hseen, Seen.act, houts]⟩
      simp only [watch, hseen]
      exact ⟨hdel.check, rfl, hdel.up⟩
    | tls => exact .inl ⟨by simp [watch, hseen], rfl⟩
    | nothing =>
      refine .inr ⟨by simp [watch, hseen], by simp [Seen.act], ?_, by simp [watch, hseen]; rfl⟩
      simp only [watch, hseen]
      exact ⟨hcheck, hdone, hup⟩
  | authenticated =>
    cases u with
    | true =>
      refine ⟨{ a with ipUp := true }, [.up], by simp [observe, hcheck, hdone, hup, hu], .inr ?_⟩
      refine ⟨by simp [watch, hipcp], by decide, ?_, by simp [watch, hipcp]; rfl⟩
      simp only [watch, hipcp, if_true]
      exact ⟨hcheck, hdone, rfl⟩
    | false =>
      refine ⟨a, [], by simp [observe, hcheck, hdone, hu], .inr ?_⟩
      refine ⟨by simp [watch, hipcp], by decide, ?_, by simp [watch, hipcp]; rfl⟩
      simp only [watch, hipcp]
      exact ⟨hcheck, hdone, hup⟩
  | up =>
    refine ⟨a, [], by simp [observe, hcheck, hdone, hup], .inr ⟨by simp [watch], by decide, ?_, rfl⟩⟩
    exact ⟨hcheck, hdone, hup⟩
  | exited => exact absurd rfl hφ

/-! ### The loop and the plain de-framer -/

section Deframer

variable {b c : Buffs} {a : Auth} {φ : Phase}

/-- The loop of the de-framer makes the same rounds. -/
lemma deframe_round (n : ℕ) (b : Buffs) : Deframe.processLoop (n + 1) b =
    (round b).bind fun
      | .ends status c => some (status, c, [])
      | .drops c => Deframe.processLoop n c
      | .frame c => (Deframe.processLoop n c).map fun r => (r.1, r.2.1, packetOf c :: r.2.2) := by
  unfold round
  rw [Deframe.processLoop]
  dsimp only
  split_ifs with hlt hinit heq
  · rfl
  · cases sstpFrameDecode (b.rx.data.drop b.rx.off.toNat) (b.rx.len - b.rx.off)
      ((sstpPktInit b.tx .data).2.max - (sstpPktInit b.tx .data).2.len) with
    | none => rfl
    | some d =>
      simp only [Option.bind_eq_bind, Option.bind_some]
      cases (sstpPktInit b.tx .data).2.write (sstpPktInit b.tx .data).2.len d.frame with
      | none => rfl
      | some tx =>
        simp only [Option.bind_some]
        split_ifs with hstatus hend
        · cases b.rx.write 0 ((b.rx.data.drop b.rx.off.toNat).take (b.rx.len - b.rx.off).toNat) with
          | none => rfl
          | some rx => rfl
        · rfl
        · cases sstpPktUpdate { tx with len := tx.len + d.size } with
          | none => rfl
          | some tx' =>
            simp only [Option.bind_some]
            exact Option.map_eq_bind.symm
  · rfl
  · rfl

/-- A round keeps the size of the transmit buffer, and does not fail where that has room. -/
lemma round_room {r : Round} (h : round b = some r) (hroom : 4 ≤ b.tx.max) :
    (∀ status c, r = .ends status c → status = .okay ∧ c.tx.max = b.tx.max) ∧
      ∀ c, r.next = some c → c.tx.max = b.tx.max := by
  obtain ⟨tx, hinit, -, -, hmax, -⟩ := SstpClient.Uplink.pktInit_data hroom
  unfold round at h
  rw [hinit] at h
  dsimp only at h
  split_ifs at h with hlt hnot heq
  · exact absurd rfl hnot
  · obtain ⟨d, -, h⟩ := Option.bind_eq_some_iff.mp h
    obtain ⟨tx1, hwrite, h⟩ := Option.bind_eq_some_iff.mp h
    have hmax1 : tx1.max = b.tx.max := (write_eq_some hwrite).2.2.2.trans hmax
    split_ifs at h with hstatus hend
    · obtain ⟨rx, -, h⟩ := Option.bind_eq_some_iff.mp h
      cases h
      refine ⟨fun status c hc => ?_, fun c hc => by cases hc⟩
      cases hc
      exact ⟨rfl, hmax1⟩
    · cases h
      refine ⟨fun status c hc => (by cases hc), fun c hc => ?_⟩
      cases hc
      exact hmax1
    · obtain ⟨tx2, hupdate, h⟩ := Option.bind_eq_some_iff.mp h
      cases h
      refine ⟨fun status c hc => (by cases hc), fun c hc => ?_⟩
      cases hc
      exact (write_eq_some hupdate).2.2.2.trans hmax1
  · cases h
    refine ⟨fun status c hc => ?_, fun c hc => by cases hc⟩
    cases hc
    exact ⟨rfl, rfl⟩
  · cases h
    refine ⟨fun status c hc => ?_, fun c hc => by cases hc⟩
    cases hc
    exact ⟨rfl, rfl⟩

lemma drop_dataPacket {payload data : List UInt8} {n : ℕ} (h : data.take n = dataPacket payload) :
    data.drop 4 = payload ++ data.drop n := by
  have hn : data = dataPacket payload ++ data.drop n := by rw [← h, List.take_append_drop]
  calc data.drop 4 = (dataPacket payload ++ data.drop n).drop 4 := congrArg (List.drop 4) hn
    _ = payload ++ data.drop n := rfl

lemma run_exited (payloads : List (List UInt8)) : run watch .exited payloads = (.exited, []) := by
  induction payloads with
  | nil => rfl
  | cons payload payloads ih =>
    rw [run_cons]
    simp only [watch, ih, List.nil_append]

/-- What has been done about the payloads, with the buffers behind them. -/
structure Follows (φ : Phase) (payloads : List (List UInt8)) (c : Buffs) (room : ℤ) (r : Result) :
    Prop where
  outs : reports r.outs = (run watch φ payloads).2
  goes : (run watch φ payloads).1 ≠ .exited → r.status = .okay ∧ r.buffs = c ∧ c.tx.max = room ∧
    Agrees (run watch φ payloads).1 r.auth
  exits : (run watch φ payloads).1 = .exited → r.status = .fail

/-- **The loop** sends the packets of the de-framer, with what the check reports of them. -/
lemma loop_watch {n : ℕ} {payloads : List (List UInt8)} {status : Status} (hroom : 4 ≤ b.tx.max)
    (hφ : φ ≠ .exited) (ha : Agrees φ a) (hwhole : ∀ payload ∈ payloads, Whole payload)
    (h : Deframe.processLoop n b = some (status, c, payloads.map dataPacket)) :
    Follows φ payloads c b.tx.max (processLoop n b a []) := by
  induction n generalizing b a φ payloads with
  | zero => cases h
  | succ n ih =>
    rw [deframe_round] at h
    obtain ⟨r, hround, h⟩ := Option.bind_eq_some_iff.mp h
    obtain ⟨hends, hnext⟩ := round_room hround hroom
    unfold processLoop
    rw [hround]
    cases r with
    | ends status' c' =>
      obtain ⟨rfl, hmax⟩ := hends _ _ rfl
      obtain ⟨-, hc, hpayloads⟩ := Prod.mk.inj (Option.some.inj h) |>.imp_right Prod.mk.inj
      obtain rfl : payloads = [] := List.map_eq_nil_iff.mp hpayloads.symm
      subst hc
      exact ⟨rfl, fun _ => ⟨rfl, rfl, hmax, ha⟩, fun hex => absurd hex hφ⟩
    | drops c' =>
      rw [← hnext c' rfl]
      exact ih (by rwa [hnext c' rfl]) hφ ha hwhole h
    | frame c' =>
      obtain ⟨⟨status', c'', packets⟩, hrest, heq⟩ := Option.map_eq_some_iff.mp h
      cases payloads with
      | nil => cases heq
      | cons payload payloads =>
        obtain ⟨rfl, rfl, hpackets⟩ : status' = status ∧ c'' = c ∧
            packetOf c' :: packets = dataPacket payload :: payloads.map dataPacket := by
          simpa using heq
        obtain ⟨hpacket, rfl⟩ := List.cons.inj hpackets
        have hmem := drop_dataPacket hpacket
        obtain ⟨hfirst, hlater⟩ := List.forall_mem_cons.mp hwhole
        obtain ⟨a', outs, hobserve, hwatch⟩ :=
          observe_watch hφ ha hfirst (c'.tx.data.drop c'.tx.len.toNat)
        rw [← hmem] at hobserve
        dsimp only
        rw [hobserve]
        dsimp only
        rcases hwatch with ⟨hexit, rfl⟩ | hwatched
        · have hrun : run watch φ (payload :: payloads) = (.exited, [.die]) := by
            rw [run_cons, hexit, run_exited]
            rfl
          rw [if_pos (List.mem_singleton_self _)]
          exact ⟨by rw [hrun]; rfl, fun hne => absurd (by rw [hrun]) hne, fun _ => rfl⟩
        · rw [if_neg hwatched.lives, List.headD_nil, if_neg (not_not.mpr rfl), hpacket]
          obtain ⟨houts, hgoes, hexit⟩ :=
            ih (by rwa [hnext c' rfl]) hwatched.goes hwatched.agrees hlater hrest
          rw [hnext c' rfl] at hgoes
          refine ⟨?_, hgoes, hexit⟩
          rw [run_cons, ← hwatched.outs, ← houts]
          simp [Result.behind, reports]

end Deframer

end SstpClient.Snoop
