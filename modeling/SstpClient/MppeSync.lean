import SstpClient.MppeKeys

/-!
Two endpoints stay synchronised over a channel that loses packets.

The sender stands at a place of its chain of keys, the receiver at an earlier or the same one,
and the coherency count of a packet tells the receiver how many keys to go on.
-/

namespace SstpClient.MppeSync

open SstpClient.Lib.Bytes SstpClient.Lib.Machine SstpClient.Lib.Ratchet
open SstpClient.Ppp SstpClient.PppSpec SstpClient.MppeKeys

section Sync

variable (P : Prims)

/-! ### Decrypting what was encrypted -/

lemma rc4_rc4 (k : Rc4Key) (data : List UInt8) : (rc4 P k (rc4 P k data).1).1 = data := by
  refine List.ext_getElem (by simp [rc4]) fun i h1 h2 => ?_
  simp only [rc4, List.getElem_mapIdx]
  rw [UInt8.xor_assoc, UInt8.xor_self, UInt8.xor_zero]

/-- The upper four bits of the count beside the flags A and D. -/
lemma flags_and_count : ∀ x < 16, ((0x90 ||| UInt8.ofNat x) &&& 0x0f).toNat = x := by decide

/-- An IP packet of a size `sstp_pppd_send_ip` takes. -/
def Sendable (ip : List UInt8) : Prop := 0 < ip.length ∧ ip.length ≤ mru - 4

/-- The MPPE packet inside the frame of `packetAt`. -/
def mppePacket (master : List UInt8) (n : ℕ) (ip : List UInt8) : List UInt8 :=
  [0x90 ||| UInt8.ofNat ((n - 1) % 4096 / 256), UInt8.ofNat ((n - 1) % 4096)] ++
    (rc4 P ⟨keyAt P master n, 0⟩ (toBe16 protoIp ++ ip)).1

lemma parseFrame_packetAt (master : List UInt8) (n : ℕ) (ip : List UInt8) :
    parseFrame (packetAt P master n ip) = some (protoMppe, mppePacket P master n ip) :=
  parseFrame_of_proto (by decide) (by decide) _

/-- The count behind the flags. -/
lemma ccountOf_flags {n : ℕ} (h : n < 4096) (enc : List UInt8) :
    ccountOf ([0x90 ||| UInt8.ofNat (n / 256), UInt8.ofNat n] ++ enc) = n := by
  have hhigh := flags_and_count (n / 256) (by omega)
  have hcount : ccountOf ([0x90 ||| UInt8.ofNat (n / 256), UInt8.ofNat n] ++ enc) =
      ((0x90 ||| UInt8.ofNat (n / 256)) &&& 0x0f).toNat * 256 + (UInt8.ofNat n).toNat := rfl
  rw [hcount, hhigh, UInt8.toNat_ofNat']
  omega

lemma ccountOf_mppePacket (master : List UInt8) (n : ℕ) (ip : List UInt8) :
    ccountOf (mppePacket P master n ip) = (n - 1) % 4096 :=
  ccountOf_flags (Nat.mod_lt _ (by decide)) _

variable {P} {master : List UInt8}

/-- A packet under the key the receiver is at. -/
lemma mppeDecrypt_mppePacket {d : Direction} {n : ℕ} (hrc4 : d.rc4 = ⟨keyAt P master n, 0⟩)
    {ip : List UInt8} (hsize : Sendable ip) (ctx : Pppd) :
    ∃ k, mppeDecrypt P d (mppePacket P master n ip) ctx =
      ({ ctx with mppe := { ctx.mppe with recv := { d with rc4 := k } } }, [.ip ip]) := by
  have hdrop : (mppePacket P master n ip).drop 2 =
      (rc4 P ⟨keyAt P master n, 0⟩ (toBe16 protoIp ++ ip)).1 := rfl
  have hlen : ¬ mru + 16 < (mppePacket P master n ip).length - 2 := by
    rw [← List.length_drop, hdrop, length_rc4, List.length_append, length_toBe16]
    unfold Sendable mru at hsize
    unfold mru
    omega
  have hplain : protocol (toBe16 protoIp ++ ip) = some (protoIp, ip) := rfl
  have hne : ip ≠ [] := List.length_pos_iff.mp hsize.1
  refine ⟨(rc4 P d.rc4 ((mppePacket P master n ip).drop 2)).2, ?_⟩
  rw [mppeDecrypt, if_neg hlen]
  simp only [hdrop, hrc4, rc4_rc4, hplain]
  rw [if_pos ⟨trivial, hne⟩]

/-! ### The receiver catches up -/

lemma atPlace_iterate {n : ℕ} {d : Direction} (h : AtPlace P master n d) (k : ℕ) :
    AtPlace P master (n + k) ((advance P)^[k] d) ∧
      (0 < k → ((advance P)^[k] d).rc4 = ⟨keyAt P master (n + k), 0⟩) := by
  induction k with
  | zero => exact ⟨h, fun h0 => absurd h0 (by decide)⟩
  | succ k ih =>
    rw [Function.iterate_succ_apply']
    obtain ⟨hplace, hrc4⟩ := atPlace_advance ih.1
    exact ⟨hplace, fun _ => hrc4⟩

variable (P) in
/-- The receiving direction is enabled and at place `n`. -/
structure ReceivesAt (master : List UInt8) (n : ℕ) (ctx : Pppd) : Prop where
  enabled : ctx.mppe.enabled = true
  place : AtPlace P master n ctx.mppe.recv

lemma handleMppe_mppePacket {n lost : ℕ} (hlost : lost < 4095) {ctx : Pppd}
    (h : ReceivesAt P master n ctx) {ip : List UInt8}
    (hsize : Sendable ip) :
    ReceivesAt P master (n + lost + 1)
        (handleMppe P (mppePacket P master (n + lost + 1) ip) ctx).1 ∧
      (handleMppe P (mppePacket P master (n + lost + 1) ip) ctx).2 = [.ip ip] := by
  have hcount := h.place.ccount
  have hd : ctx.mppe.recv.ccount < 4096 := hcount ▸ Nat.mod_lt _ (by decide)
  -- the count of the packet is that of its place
  have htarget : (n + lost + 1 - 1) % 4096 = (n + (lost + 1) + 4095) % 4096 := by omega
  have hgap : gap 4096 ctx.mppe.recv.ccount ((n + lost + 1 - 1) % 4096) = lost + 1 := by
    rw [hcount, htarget, gap_of_places (by omega) (by omega)]
    omega
  have hcatch : catchUp P (ccountOf (mppePacket P master (n + lost + 1) ip)) 4096 ctx.mppe.recv =
      some ((advance P)^[lost + 1] ctx.mppe.recv) := by
    rw [ccountOf_mppePacket, catchUp_eq P (Nat.mod_lt _ (by decide)) hd, hgap]
  obtain ⟨hplace, hrc4⟩ := atPlace_iterate h.place (lost + 1)
  obtain ⟨k, hk⟩ := mppeDecrypt_mppePacket (hrc4 (Nat.succ_pos lost)) hsize ctx
  have hlen : ¬ ((mppePacket P master (n + lost + 1) ip).length < 3 ∨ ¬ ctx.mppe.enabled) := by
    have hlen' : (mppePacket P master (n + lost + 1) ip).length = 2 + (2 + ip.length) := by
      rw [mppePacket, List.length_append, length_rc4, List.length_append, length_toBe16]
      rfl
    rw [hlen', h.enabled]
    simp only [not_true, or_false]
    omega
  have heq : handleMppe P (mppePacket P master (n + lost + 1) ip) ctx =
      mppeDecrypt P ((advance P)^[lost + 1] ctx.mppe.recv)
        (mppePacket P master (n + (lost + 1)) ip) ctx := by
    rw [handleMppe, if_neg hlen, hcatch]
    rfl
  rw [heq, hk]
  exact ⟨⟨h.enabled, hplace.setRc4 k⟩, rfl⟩

lemma step_packetAt {n lost : ℕ} (hlost : lost < 4095) {ctx : Pppd}
    (h : ReceivesAt P master n ctx) {ip : List UInt8}
    (hsize : Sendable ip) (peerChallenge : List UInt8) :
    ReceivesAt P master (n + lost + 1)
        (step P ctx (.frame (packetAt P master (n + lost + 1) ip) peerChallenge)).1 ∧
      (step P ctx (.frame (packetAt P master (n + lost + 1) ip) peerChallenge)).2 = [.ip ip] := by
  have heq : step P ctx (.frame (packetAt P master (n + lost + 1) ip) peerChallenge) =
      handleMppe P (mppePacket P master (n + lost + 1) ip) ctx := by
    rw [step, pppDispatch, parseFrame_packetAt]
    rfl
  rw [heq]
  exact handleMppe_mppePacket hlost h hsize

/-! ### The sender goes on -/

lemma run_sendIp {n : ℕ} {ctx : Pppd} (henabled : ctx.mppe.enabled = true)
    (hplace : AtPlace P master n ctx.mppe.send) {ips : List (List UInt8)}
    (hsize : ∀ ip ∈ ips, Sendable ip) :
    (run (step P) ctx (ips.map .sendIp)).2 =
      ips.mapIdx fun i ip => .frame (packetAt P master (n + 1 + i) ip) := by
  induction ips generalizing n ctx with
  | nil => rfl
  | cons ip ips ih =>
    obtain ⟨k, hk⟩ := sendIp_enabled P henabled (hsize ip List.mem_cons_self)
    have hstep : step P ctx (.sendIp ip) = (sstpPppdSendIp P ip ctx).2 := rfl
    have heq : (fun i ip => Out.frame (packetAt P master (n + 1 + (i + 1)) ip)) =
        fun i ip => Out.frame (packetAt P master (n + 1 + 1 + i) ip) := by
      funext i ip
      rw [show n + 1 + (i + 1) = n + 1 + 1 + i by omega]
    rw [List.map_cons, run_cons, hstep, hk, List.mapIdx_cons, heq, sentPacket_eq hplace]
    exact congrArg (List.cons _) (ih henabled ((atPlace_advance hplace).1.setRc4 k)
      fun ip' h' => hsize ip' (List.mem_cons_of_mem _ h'))

/-! ### What is received -/

variable (P)

/-- MPPE has just been initialised. -/
def Initialised (ctx : Pppd) : Prop :=
  ∃ m : Mppe, m.keysSet = true ∧ ctx.mppe = mppeInitKeys P m

/-- The frames an endpoint has sent, as they come to the other one. -/
def deliveries (peerChallenge : List UInt8) (outs : List Out) : List Input :=
  outs.filterMap fun
    | .frame bytes => some (.frame bytes peerChallenge)
    | _ => none

lemma deliveries_mapIdx (peerChallenge : List UInt8) (ips : List (List UInt8))
    (f : ℕ → List UInt8 → List UInt8) :
    deliveries peerChallenge (ips.mapIdx fun i ip => .frame (f i ip)) =
      ips.mapIdx fun i ip => .frame (f i ip) peerChallenge := by
  induction ips generalizing f with
  | nil => rfl
  | cons ip ips ih =>
    rw [List.mapIdx_cons, List.mapIdx_cons]
    exact congrArg (List.cons _) (ih fun i => f (i + 1))

variable {P}

lemma Initialised.enabled {ctx : Pppd} (h : Initialised P ctx) : ctx.mppe.enabled = true := by
  obtain ⟨m, hset, hm⟩ := h
  rw [hm, mppeInitKeys, if_pos hset]

lemma Initialised.send {ctx : Pppd} (h : Initialised P ctx) :
    AtPlace P ctx.mppe.send.master 0 ctx.mppe.send := by
  obtain ⟨m, hset, hm⟩ := h
  rw [hm, mppeInitKeys, if_pos hset]
  exact atPlace_init m.send

lemma Initialised.recv {ctx : Pppd} (h : Initialised P ctx) :
    AtPlace P ctx.mppe.recv.master 0 ctx.mppe.recv := by
  obtain ⟨m, hset, hm⟩ := h
  rw [hm, mppeInitKeys, if_pos hset]
  exact atPlace_init m.recv

/-- No received frame makes an endpoint hang. -/
lemma run_ends {ctx : Pppd} (h : ctx.mppe.recv.ccount < 4096) (inputs : List Input) :
    .hang ∉ (run (step P) ctx inputs).2 := by
  induction inputs generalizing ctx with
  | nil => exact List.not_mem_nil
  | cons i is ih =>
    obtain ⟨hcount, hends⟩ := step_ends P ctx i h
    rw [run_cons]
    intro hmem
    rcases List.mem_append.mp hmem with hmem | hmem
    · exact hends hmem
    · exact ih hcount hmem

/-- **The endpoints stay synchronised.** Packets sent after MPPE was initialised at both ends arrive
unchanged and in order, as long as fewer than 4095 in a row are lost before one that arrives;
and whatever frames the receiver gets, its loop ends. -/
theorem received_of_fewLost {a b : Pppd} (ha : Initialised P a) (hb : Initialised P b)
    (hmaster : a.mppe.send.master = b.mppe.recv.master) {ips : List (List UInt8)}
    (hips : ∀ ip ∈ ips, 1 ≤ ip.length ∧ ip.length ≤ 1396) {keep : List Bool}
    (hkeep : FewLost 4095 0 keep) (peerChallenge : List UInt8) :
    (run (step P) b
        (pick keep (deliveries peerChallenge (run (step P) a (ips.map .sendIp)).2))).2 =
      (pick keep ips).map .ip ∧
    ∀ inputs, .hang ∉ (run (step P) b inputs).2 := by
  refine ⟨?_, fun inputs => run_ends ?_ inputs⟩
  · rw [run_sendIp ha.enabled ha.send hips, deliveries_mapIdx, hmaster]
    have hstep : ∀ n lost (ctx : Pppd) ip, lost < 4095 →
        ReceivesAt P b.mppe.recv.master n ctx → Sendable ip →
        ReceivesAt P b.mppe.recv.master (n + lost + 1) (step P ctx
            (.frame (packetAt P b.mppe.recv.master (n + lost + 1) ip) peerChallenge)).1 ∧
          (step P ctx (.frame (packetAt P b.mppe.recv.master (n + lost + 1) ip)
            peerChallenge)).2 = [.ip ip] :=
      fun _ _ _ _ hlost hat hsize => step_packetAt hlost hat hsize peerChallenge
    have h0 : ReceivesAt P b.mppe.recv.master 0 b := ⟨hb.enabled, hb.recv⟩
    have hreceive := run_pick (ReceivesAt P b.mppe.recv.master) Sendable
      (fun n ip => Input.frame (packetAt P b.mppe.recv.master n ip) peerChallenge) Out.ip hstep
      hips h0 hkeep
    rwa [Nat.add_zero] at hreceive
  · rw [hb.recv.ccount]
    decide

end Sync

/-! ### Two packets, the first of which is lost -/

/-- An endpoint whose keys are those of `m`. -/
def initialised (m : Mppe) : Pppd :=
  { sstpPppdCreate 0 with mppe := mppeInitKeys somePrims m }

def clientKeys : Mppe :=
  sstpPppdSetMppeKeys (List.replicate 16 1, List.replicate 16 2) (sstpPppdCreate 0).mppe

def serverKeys : Mppe :=
  sstpPppdSetMppeKeys (List.replicate 16 2, List.replicate 16 1) (sstpPppdCreate 0).mppe

theorem received_of_fewLost_lossy :
    (run (step somePrims) (initialised serverKeys)
        (pick [false, true] (deliveries [] (run (step somePrims) (initialised clientKeys)
          ([[0x45], [0x46]].map .sendIp)).2))).2 = [.ip [0x46]] ∧
    ∀ inputs, .hang ∉ (run (step somePrims) (initialised serverKeys) inputs).2 :=
  received_of_fewLost ⟨clientKeys, rfl, rfl⟩ ⟨serverKeys, rfl, rfl⟩ rfl
    (by decide) (by decide) []

end SstpClient.MppeSync
