import SstpClient.PppSpec

/-!
When an MPPE send key is never used twice.

Each packet takes the next key of a chain that starts at the session key `mppe_init_keys`
makes. The chain is left when the keys are initialised again after a packet, or when a new
challenge replaces the master key; otherwise every packet has its own key and its own count.
-/

namespace SstpClient.MppeKeys

open SstpClient.Lib.Bytes SstpClient.Lib.Machine SstpClient.Ppp SstpClient.PppSpec

section Chain

variable (P : Prims)

/-! ### The chain of keys -/

/-- The key `n` steps after the initial session key of `master`. -/
def keyAt (master : List UInt8) : ℕ → List UInt8
  | 0 => P.newKeyFromSha master master
  | n + 1 =>
    let digest := P.newKeyFromSha master (keyAt master n)
    (rc4 P ⟨digest, 0⟩ digest).1

/-- The direction is `n` packets into the chain of `master`, which is its master key still. -/
structure AtPlace (master : List UInt8) (n : ℕ) (d : Direction) : Prop where
  master_eq : d.master = master
  session : d.session = keyAt P master n
  ccount : d.ccount = (n + 4095) % 4096

/-- The frame that carries `ip` as the `n`-th packet, counted from 1: its coherency count is
`n - 1` modulo 4096 and its key that after `n` steps. -/
def packetAt (master : List UInt8) (n : ℕ) (ip : List UInt8) : List UInt8 :=
  let ccount := (n - 1) % 4096
  [0xff, 0x03] ++ toBe16 protoMppe ++
    ([0x90 ||| UInt8.ofNat (ccount / 256), UInt8.ofNat ccount] ++
      (rc4 P ⟨keyAt P master n, 0⟩ (toBe16 protoIp ++ ip)).1)

variable {P} {master : List UInt8}

lemma atPlace_init (d : Direction) : AtPlace P d.master 0 (initDirection P d) := ⟨rfl, rfl, rfl⟩

lemma atPlace_advance {n : ℕ} {d : Direction} (h : AtPlace P master n d) :
    AtPlace P master (n + 1) (advance P d) ∧
      (advance P d).rc4 = ⟨keyAt P master (n + 1), 0⟩ := by
  have hsession : (advance P d).session = keyAt P master (n + 1) := by
    simp only [advance, mppeRekey, h.master_eq, h.session]
    rfl
  refine ⟨⟨h.master_eq, hsession, ?_⟩, ?_⟩
  · have hcount : (advance P d).ccount = (d.ccount + 1) % 4096 := rfl
    rw [hcount, h.ccount]
    omega
  · rw [← hsession]
    rfl

lemma AtPlace.setRc4 {n : ℕ} {d : Direction} (h : AtPlace P master n d) (k : Rc4Key) :
    AtPlace P master n { d with rc4 := k } := ⟨h.master_eq, h.session, h.ccount⟩

lemma sentPacket_eq {n : ℕ} {d : Direction} (h : AtPlace P master n d) (ip : List UInt8) :
    sentPacket P (advance P d) ip = packetAt P master (n + 1) ip := by
  obtain ⟨hplace, hrc4⟩ := atPlace_advance h
  have hcount : (advance P d).ccount = (n + 1 - 1) % 4096 := by
    rw [hplace.ccount]
    omega
  rw [sentPacket, packetAt, hrc4, hcount]

end Chain

/-! ### What is promised -/

section Runs

variable (P : Prims)

/-- A context in which MPPE has just been enabled for the first time. -/
structure FirstEnabled (ctx : Pppd) : Prop where
  enabled : ctx.mppe.enabled = true
  reached : ∃ magic user password inputs,
    Along (step P) (fun ctx _ => ctx.mppe.enabled = false)
      (sstpPppdStart user password (sstpPppdCreate magic)).1 inputs ∧
    ctx = (run (step P) (sstpPppdStart user password (sstpPppdCreate magic)).1 inputs).1

/-- After the events `outs` the MPPE packets sent are the first ones of the chain of `master`, and
the send direction stands behind the last of them. -/
def OnChain (master : List UInt8) (ctx : Pppd) (outs : List Out) : Prop :=
  (∃ ips : List (List UInt8), mppeFrames outs =
      ips.mapIdx fun i ip => packetAt P master (i + 1) ip) ∧
    AtPlace P master (mppeFrames outs).length ctx.mppe.send

/-- The condition on a step: a challenge that is answered yields the send key there is, and the
keys are not initialised again unless that changes nothing because no packet was sent. -/
def KeepsChain (ctx : Pppd) (i : Input) : Prop :=
  (∀ keys, derivedKeys P ctx i = some keys → keys.1 = ctx.mppe.send.master) ∧
    (Reinits i → ctx.mppe.keysSet = true →
      (ctx.mppe.send.session, ctx.mppe.send.ccount) =
        (P.newKeyFromSha ctx.mppe.send.master ctx.mppe.send.master, 0xfff))

variable {P}

/-! ### One step -/

lemma onChain_of_send {master : List UInt8} {ctx ctx' : Pppd} {outs new : List Out}
    (h : OnChain P master ctx outs) (hf : mppeFrames new = []) :
    OnChain P master ctx' (outs ++ new) ↔
      AtPlace P master (mppeFrames outs).length ctx'.mppe.send := by
  unfold OnChain
  rw [mppeFrames_append, hf, List.append_nil]
  exact ⟨fun h' => h'.2, fun h' => ⟨h.1, h'⟩⟩

lemma step_onChain {master : List UInt8} {ctx : Pppd} {outs : List Out} {i : Input}
    (h : OnChain P master ctx outs) :
    OnChain P master (step P ctx i).1 (outs ++ (step P ctx i).2) ↔ KeepsChain P ctx i := by
  obtain ⟨⟨ips, hips⟩, hplace⟩ := id h
  rcases step_mppe P ctx i with ⟨keys, hkeys, hinit, hm, hf⟩ | ⟨hkeys, hinit, hm, hf⟩ |
    ⟨ip, rfl, henabled, hsize, ⟨k, hm⟩, hf⟩ | ⟨hkeys, hinit, hsend, hset, -, hf⟩
  · -- new keys: the master key must stay
    rw [onChain_of_send h hf, hm]
    constructor
    · intro h'
      refine ⟨fun keys' hk => ?_, fun hr => absurd hr hinit⟩
      cases hkeys.symm.trans hk
      exact h'.master_eq.trans hplace.master_eq.symm
    · intro hC
      exact ⟨(hC.1 keys hkeys).trans hplace.master_eq, hplace.session, hplace.ccount⟩
  · rw [onChain_of_send h hf, hm]
    cases hset : ctx.mppe.keysSet with
    | false =>
      have hsame : mppeInitKeys P ctx.mppe = ctx.mppe := by
        unfold mppeInitKeys
        rw [if_neg (by simp [hset])]
      rw [hsame]
      exact ⟨fun _ => ⟨fun keys hk => by simp [hkeys] at hk, fun _ hs => by simp [hset] at hs⟩,
        fun _ => hplace⟩
    | true =>
      have hinit' : (mppeInitKeys P ctx.mppe).send = initDirection P ctx.mppe.send := by
        unfold mppeInitKeys
        rw [if_pos hset]
      rw [hinit']
      constructor
      · intro h'
        refine ⟨fun keys hk => by simp [hkeys] at hk, fun _ _ => ?_⟩
        rw [hplace.session, hplace.ccount, ← h'.session, ← h'.ccount]
        rfl
      · intro hC
        have hkeep := hC.2 hinit hset
        rw [Prod.mk.injEq] at hkeep
        refine ⟨hplace.master_eq, ?_, ?_⟩
        · exact hkeep.1.symm.trans hplace.session
        · exact hkeep.2.symm.trans hplace.ccount
  · -- a packet takes the next key
    refine ⟨fun _ => ⟨fun keys hk => absurd hk (by simp [derivedKeys]), fun hr => hr.elim⟩, fun _ => ?_⟩
    have hlen : (mppeFrames outs).length = ips.length := by rw [hips, List.length_mapIdx]
    have hnext := atPlace_advance hplace
    refine ⟨⟨ips ++ [ip], ?_⟩, ?_⟩
    · rw [mppeFrames_append, hf, sentPacket_eq hplace, hips, List.mapIdx_concat, List.length_mapIdx]
    · rw [mppeFrames_append, hf, hm, List.length_append]
      exact hnext.1.setRc4 k
  · rw [onChain_of_send h hf, hsend]
    exact ⟨fun _ => ⟨fun keys hk => by simp [hkeys] at hk, fun hr => absurd hr hinit⟩,
      fun _ => hplace⟩

/-- MPPE is enabled by initialising the keys. -/
lemma step_enables {ctx : Pppd} {i : Input} (h0 : ctx.mppe.enabled = false)
    (h1 : (step P ctx i).1.mppe.enabled = true) :
    AtPlace P (step P ctx i).1.mppe.send.master 0 (step P ctx i).1.mppe.send := by
  rcases step_mppe P ctx i with ⟨keys, hkeys, hinit, hm, hf⟩ | ⟨hkeys, hinit, hm, hf⟩ |
    ⟨ip, rfl, henabled, hsize, ⟨k, hm⟩, hf⟩ | ⟨hkeys, hinit, hsend, hset, henabled, hf⟩
  · rw [hm] at h1
    exact absurd h1 (by simp [sstpPppdSetMppeKeys, h0])
  · rw [hm] at h1 ⊢
    unfold mppeInitKeys at h1 ⊢
    split_ifs with hset
    · exact atPlace_init _
    · rw [if_neg hset, h0] at h1
      cases h1
  · rw [h0] at henabled
    cases henabled
  · rw [h0] at henabled
    exact absurd (henabled h1) (by simp)

lemma firstEnabled_atPlace {ctx : Pppd} (h : FirstEnabled P ctx) :
    AtPlace P ctx.mppe.send.master 0 ctx.mppe.send := by
  obtain ⟨henabled, magic, user, password, inputs, hbefore, rfl⟩ := h
  rcases List.eq_nil_or_concat inputs with rfl | ⟨is, i, rfl⟩
  · cases henabled
  · rw [List.concat_eq_append, along_append] at hbefore
    rw [List.concat_eq_append, run_append] at henabled ⊢
    exact step_enables hbefore.2.1 henabled

/-- **Send keys are used once** from the first enabling of MPPE on, each packet carrying the next
count and the next key and nothing moving the chain back, exactly as long as no challenge
replaces the key and no repeated negotiation starts the chain again. -/
theorem onChain_iff_keepsChain {ctx : Pppd} (h : FirstEnabled P ctx) (inputs : List Input) :
    (∀ is, is <+: inputs →
      OnChain P ctx.mppe.send.master (run (step P) ctx is).1 (run (step P) ctx is).2) ↔
      Along (step P) (KeepsChain P) ctx inputs := by
  have h0 : OnChain P ctx.mppe.send.master ctx [] := ⟨⟨[], rfl⟩, firstEnabled_atPlace h⟩
  exact run_inv_iff (OnChain P ctx.mppe.send.master) (fun _ _ _ => step_onChain) h0

end Runs

/-! ### A negotiation that is repeated -/

/-- Functions to run the model with. -/
def somePrims : Prims where
  newKeyFromSha master session := List.zipWith (· + ·) master session
  keystream key pos := key.getD (pos % 16) 0
  ntResponse _ _ _ _ := List.replicate 24 0
  mppeGet _ := some (List.replicate 16 1, List.replicate 16 2)

/-- The context after a challenge and the server's acknowledgement of MPPE. -/
def acknowledged : Pppd :=
  (run (step somePrims) (sstpPppdStart [] [] (sstpPppdCreate 0)).1
    [.frame ([0xff, 0x03, 0xc2, 0x23, 1, 1, 0, 21, 16] ++ List.replicate 16 0) [],
      .frame [0xff, 0x03, 0x80, 0xfd, 2, 1, 0, 4] []]).1

lemma acknowledged_firstEnabled : FirstEnabled somePrims acknowledged :=
  ⟨by decide +kernel, 0, [], [], _, by decide +kernel, rfl⟩

theorem onChain_iff_keepsChain_acknowledged :
    (∀ is, is <+: [Input.sendIp [0x45]] → OnChain somePrims acknowledged.mppe.send.master
      (run (step somePrims) acknowledged is).1 (run (step somePrims) acknowledged is).2) ↔
      Along (step somePrims) (KeepsChain somePrims) acknowledged [.sendIp [0x45]] :=
  onChain_iff_keepsChain acknowledged_firstEnabled [.sendIp [0x45]]

/-- **A Configure-Request after a packet** starts the chain again: the next packet has the count
and the key of the first. -/
theorem repeatedConfReq_not_onChain :
    FirstEnabled somePrims acknowledged ∧
      ¬ ∀ is, is <+: [.sendIp [0x45], .frame [0xff, 0x03, 0x80, 0xfd, 1, 1, 0, 4] [],
          .sendIp [0x46]] →
        OnChain somePrims acknowledged.mppe.send.master
          (run (step somePrims) acknowledged is).1 (run (step somePrims) acknowledged is).2 := by
  refine ⟨acknowledged_firstEnabled, fun h => ?_⟩
  have hplace := (h [.sendIp [0x45], .frame [0xff, 0x03, 0x80, 0xfd, 1, 1, 0, 4] []]
    ⟨[.sendIp [0x46]], rfl⟩).2.ccount
  exact absurd hplace (by decide +kernel)

end SstpClient.MppeKeys
