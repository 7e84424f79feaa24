import SstpClient.PacketImage
import SstpClient.State

/-!
The control messages in the transmit buffer.

Every message fits into the buffer, which keeps its size, so that building it does not fail.
Call-Connected has the nonce of the acknowledgement at a fixed place.
-/

namespace SstpClient.ControlMsg

open SstpClient.Lib.Bytes SstpClient.Buffer SstpClient.Packet SstpClient.PacketRoundTrip
open SstpClient.PacketImage SstpClient.StreamSpec SstpClient.State

variable {E : Env} {st : SstpState} {tx b : Buff} {type : SstpMsg} {as : List Attr}

/-! ### What a built packet sends -/

/-- A built packet is sent from its beginning to its end. -/
lemma Built.remaining (h : Built b type as) : StreamSpec.remaining b = image type as := by
  have htake := PacketImage.Built.take h
  unfold StreamSpec.remaining
  rw [h.off, sub_zero]
  exact htake

lemma length_data (type : UInt8) {nounce certHash : List UInt8} (hn : nounce.length = 32)
    (hc : certHash.length = 32) : (connectedData type nounce certHash).length = 100 := by
  have h0 : (List.replicate 100 (0 : UInt8)).length = 100 := List.length_replicate
  have h1 : (splice (List.replicate 100 0) 3 [type]).length = 100 := by
    rw [length_splice (by rw [h0]; exact (by decide : 3 + 1 ≤ 100)), h0]
  have h2 : (splice (splice (List.replicate 100 0) 3 [type]) 4 nounce).length = 100 := by
    rw [length_splice (by omega), h1]
  unfold connectedData
  rw [length_splice (by omega), h2]

/-- The nonce in the data of the attribute. -/
lemma nounce_data {type : UInt8} {nounce certHash : List UInt8} (hn : nounce.length = 32) :
    ((connectedData type nounce certHash).drop 4).take 32 = nounce := by
  have h0 : (List.replicate 100 (0 : UInt8)).length = 100 := List.length_replicate
  have h1 : (splice (List.replicate 100 0) 3 [type]).length = 100 := by
    rw [length_splice (by rw [h0]; exact (by decide : 3 + 1 ≤ 100)), h0]
  have h2 : (splice (splice (List.replicate 100 0) 3 [type]) 4 nounce).length = 100 := by
    rw [length_splice (by omega), h1]
  unfold connectedData
  have hread : ((splice (splice (List.replicate 100 0) 3 [type]) 4 nounce).drop 4).take
      nounce.length = nounce := drop_take_splice (by omega)
  rw [hn] at hread
  rw [List.take_drop, take_splice_of_le (by omega) (by omega), ← List.take_drop]
  exact hread

/-! ### Building succeeds -/

/-- A message with a certificate hash of the size it has. -/
def Sized (m : Message) : Prop := ∀ certHash, m = .connected certHash → certHash.length = 32

/-- **Call-Connected**: the packet with its one attribute, and the MAC written over it. -/
theorem construct_connected {certHash : List UInt8} (hmax : 112 ≤ tx.max)
    (hn : st.nounce.length = 32) (hc : certHash.length = 32) :
    ∃ b, construct E st tx (.connected certHash) = some (.okay, b) ∧ b.max = tx.max ∧
      StreamSpec.remaining b =
        splice (image .connected [(3, connectedData (hashType st.proto) st.nounce certHash)]) 80
          (E.cmac (hashType st.proto) st.mppeSendKey st.mppeRecvKey (image .connected
            [(3, connectedData (hashType st.proto) st.nounce certHash)])).val := by
  have hlen := length_data (hashType st.proto) hn hc
  obtain ⟨b1, hinit, hbuilt1, hmax1⟩ := built_init .connected (by decide)
    (show 8 ≤ tx.max by omega)
  have hlen1 : b1.len = 8 := hbuilt1.len
  obtain ⟨b2, hattr, hbuilt2, hmax2⟩ := built_attr hbuilt1 3
    (connectedData (hashType st.proto) st.nounce certHash) (by omega)
    (by rw [hlen, hlen1, hmax1]; omega) (by decide)
  have hbytes := hbuilt2.bytes
  have hsize : (image .connected
      [(3, connectedData (hashType st.proto) st.nounce certHash)]).length = 112 := by
    rw [length_image]
    simp [encodedSize, attrsSize, hlen]
  have htake := PacketImage.Built.take hbuilt2
  rw [List.nil_append] at htake hbytes
  generalize hmac : E.cmac (hashType st.proto) st.mppeSendKey st.mppeRecvKey (image .connected
    [(3, connectedData (hashType st.proto) st.nounce certHash)]) = mac
  generalize hpkt : image .connected
    [(3, connectedData (hashType st.proto) st.nounce certHash)] = pkt at *
  have hfit : 112 ≤ b2.data.length := by
    have hroom : 112 ≤ b2.max := by omega
    unfold Buff.max at hroom
    exact_mod_cast hroom
  have hmacLen := mac.property
  have hwrite : b2.write 80 mac.val = some { b2 with data := splice b2.data 80 mac.val } := by
    refine write_of_le (by decide) ?_
    unfold Buff.max
    omega
  have hlen2 : b2.len.toNat = 112 := by
    have hlen2 := hbuilt2.len
    rw [List.nil_append, ← length_image .connected, hpkt, hsize] at hlen2
    omega
  refine ⟨{ b2 with data := splice b2.data 80 mac.val }, ?_, ?_, ?_⟩
  · simp only [construct]
    rw [hinit, if_neg (not_not.mpr rfl)]
    dsimp only
    rw [hattr]
    dsimp only
    rw [if_neg (not_not.mpr rfl), htake, hmac, hwrite]
    rfl
  · rw [(write_eq_some hwrite).2.2.2, hmax2, hmax1]
  · -- the MAC lies inside the packet
    obtain ⟨rest, hrest⟩ := hbytes
    unfold StreamSpec.remaining
    dsimp only
    rw [hbuilt2.off, sub_zero, hlen2, Int.toNat_zero, List.drop_zero, ← hrest]
    have hinside : 80 + mac.val.length ≤ pkt.length := by omega
    rw [splice_append_left hinside]
    exact List.take_left' ((length_splice hinside).trans hsize)

/-- **Every message can be built**, and the buffer keeps its size. -/
theorem construct_okay {m : Message} (hmax : 112 ≤ tx.max) (hn : st.nounce.length = 32)
    (hm : Sized m) : ∃ b, construct E st tx m = some (.okay, b) ∧ b.max = tx.max := by
  have hinit : ∀ type, type ≠ SstpMsg.data →
      ∃ b, some (sstpPktInit tx type) = some (.okay, b) ∧ b.max = tx.max := by
    intro type ht
    obtain ⟨b, hb, -, hbmax⟩ := built_init type ht (show 8 ≤ tx.max by omega)
    exact ⟨b, congrArg some hb, hbmax⟩
  cases m with
  | connectReq =>
    obtain ⟨b1, hb1, hbuilt1, hmax1⟩ := built_init .connectReq (by decide)
      (show 8 ≤ tx.max by omega)
    have hlen1 : b1.len = 8 := hbuilt1.len
    obtain ⟨b2, hb2, -, hmax2⟩ := built_attr hbuilt1 1 (htons 1) (by decide)
      (by rw [hlen1, hmax1, length_htons]; omega) (by decide)
    refine ⟨b2, ?_, hmax2.trans hmax1⟩
    simp only [construct]
    rw [hb1, if_neg (not_not.mpr rfl)]
    exact hb2
  | connected certHash =>
    obtain ⟨b, hb, hbmax, -⟩ := construct_connected (E := E) hmax hn (hm certHash rfl)
    exact ⟨b, hb, hbmax⟩
  | echoRequest => exact hinit _ (by decide)
  | echoReply => exact hinit _ (by decide)
  | disconnect => exact hinit _ (by decide)
  | disconnectAck => exact hinit _ (by decide)

/-- The nonce in a Call-Connected message. -/
def nounceOf (message : List UInt8) : List UInt8 := (message.drop 16).take 32

/-- **Call-Connected carries the stored nonce.** -/
theorem nounceOf_connected {certHash mac : List UInt8} (hn : st.nounce.length = 32)
    (hc : certHash.length = 32) :
    nounceOf (splice (image .connected [(3, connectedData (hashType st.proto) st.nounce certHash)])
      80 mac) = st.nounce := by
  have hlen := length_data (hashType st.proto) hn hc
  have hsize : (image .connected
      [(3, connectedData (hashType st.proto) st.nounce certHash)]).length = 112 := by
    rw [length_image]
    simp [encodedSize, attrsSize, hlen]
  unfold nounceOf
  rw [List.take_drop, take_splice_of_le (by omega) (by omega), ← List.take_drop]
  have hdrop : (image .connected
      [(3, connectedData (hashType st.proto) st.nounce certHash)]).drop 16 =
        (connectedData (hashType st.proto) st.nounce certHash).drop 4 := by
    unfold image encodeAttrs
    rw [List.flatMap_singleton]
    rfl
  rw [hdrop]
  exact nounce_data hn

end SstpClient.ControlMsg
