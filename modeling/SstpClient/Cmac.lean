import SstpClient.StateSpec

/-!
The crypto binding: the compound MAC of `sstp-cmac.c`, and the Call-Connected message that carries
it.

A server has the keys of the client the other way round. With `SSTP_CMAC_SERVER` the two keys are put
together in the other order as well, so that both sides have the same key.
-/

namespace SstpClient.Cmac

open SstpClient.Lib.Bytes SstpClient.Buffer SstpClient.Packet SstpClient.PacketRoundTrip
open SstpClient.PacketImage SstpClient.ControlMsg SstpClient.State SstpClient.StateSpec
open SstpClient.Lib.Machine (run)

/-- `HMAC` with a key and a message, over SHA-1 and over SHA-256. -/
structure Hmac where
  sha1 : List UInt8 → List UInt8 → { d : List UInt8 // d.length = 20 }
  sha256 : List UInt8 → List UInt8 → { d : List UInt8 // d.length = 32 }

/-! ### The context -/

/-- `SSTP_CMAC_SHA256`. -/
def cmacSha256 : UInt8 := 0x02

def cmacServer : UInt8 := 0x04

/-- `struct cmac_ctx`. -/
structure CmacCtx where
  sendKey : List UInt8
  recvKey : List UInt8
  keyLen : ℕ
  seed : List UInt8
  flag : UInt8

/-- ASCII: "SSTP inner method derived CMK". -/
def seed : List UInt8 :=
  [0x53, 0x53, 0x54, 0x50, 0x20, 0x69, 0x6e, 0x6e, 0x65, 0x72, 0x20, 0x6d, 0x65, 0x74, 0x68, 0x6f,
    0x64, 0x20, 0x64, 0x65, 0x72, 0x69, 0x76, 0x65, 0x64, 0x20, 0x43, 0x4d, 0x4b]

def sstpCmacInit (flag : UInt8) : CmacCtx :=
  ⟨List.replicate 32 0, List.replicate 32 0, 0, seed, flag⟩

def sstpCmacSendKey (ctx : CmacCtx) (key : List UInt8) : CmacCtx :=
  let len := min key.length 32
  if 0 < len then { ctx with sendKey := splice ctx.sendKey 0 (key.take len), keyLen := len } else ctx

def sstpCmacRecvKey (ctx : CmacCtx) (key : List UInt8) : CmacCtx :=
  let len := min key.length 32
  if 0 < len then { ctx with recvKey := splice ctx.recvKey 0 (key.take len), keyLen := len } else ctx

/-- `sstp_cmac_makekey` on the array `key`, which need not be initialized; what is used of it. -/
def sstpCmacMakekey (ctx : CmacCtx) (key : List UInt8) : List UInt8 :=
  let server := cmacServer &&& ctx.flag ≠ 0
  if ctx.keyLen < 32 then
    let key := splice key (if server then 16 else 0) (ctx.sendKey.take 16)
    let key := splice key (if server then 0 else 16) (ctx.recvKey.take 16)
    key.take 32
  else
    (splice key 0 ((if server then ctx.recvKey else ctx.sendKey).take ctx.keyLen)).take ctx.keyLen

section Result

variable (H : Hmac)

/-- The length of the digest, and `HMAC` with it. -/
def digestLength (flag : UInt8) : ℕ := if cmacSha256 &&& flag ≠ 0 then 32 else 20

def hmac (flag : UInt8) (key msg : List UInt8) : List UInt8 :=
  if cmacSha256 &&& flag ≠ 0 then (H.sha256 key msg).1 else (H.sha1 key msg).1

/-- `sstp_cmac_result`: the key from the seed, the length in little endian and the number of the
round, and the MAC under it. -/
def sstpCmacResult (ctx : CmacCtx) (msg : List UInt8) : List UInt8 :=
  let key := sstpCmacMakekey ctx (List.replicate 64 0)
  let key := hmac H ctx.flag key
    (ctx.seed ++ [UInt8.ofNat (digestLength ctx.flag)] ++ [0] ++ [0x01])
  hmac H ctx.flag key msg

lemma length_hmac (flag : UInt8) (key msg : List UInt8) :
    (hmac H flag key msg).length = digestLength flag := by
  unfold hmac digestLength
  split_ifs
  · exact (H.sha256 key msg).2
  · exact (H.sha1 key msg).2

lemma digestLength_le (flag : UInt8) : digestLength flag ≤ 32 := by
  unfold digestLength
  split_ifs
  · decide
  · decide

/-- The context with both keys. -/
def keyed (flag : UInt8) (sendKey recvKey : List UInt8) : CmacCtx :=
  sstpCmacRecvKey (sstpCmacSendKey (sstpCmacInit flag) sendKey) recvKey

/-- What a session takes from outside, its MAC being `sstp_cmac_result`. -/
def cmacEnv (certHash : UInt8 → Option { h : List UInt8 // h.length = 32 }) : Env where
  certHash := certHash
  cmac type sendKey recvKey msg :=
    ⟨sstpCmacResult H (keyed type sendKey recvKey) msg,
      (length_hmac H _ _ _).trans_le (digestLength_le _)⟩

end Result

/-! ### Both sides have one key -/

section Exchange

variable {key x y : List UInt8}

/-- One half written after the other, in either order. -/
lemma halves (hkey : key.length = 64) (hx : x.length = 16) (hy : y.length = 16) :
    (splice (splice key 0 x) 16 y).take 32 = x ++ y ∧
      (splice (splice key 16 y) 0 x).take 32 = x ++ y := by
  have hfirst : (splice key 0 x).length = 64 := by rw [length_splice (by omega), hkey]
  constructor
  · have hlow : (splice key 0 x).take (0 + x.length) = key.take 0 ++ x :=
      take_splice (Nat.zero_le _)
    have hboth : (splice (splice key 0 x) 16 y).take (16 + y.length) =
        (splice key 0 x).take 16 ++ y := take_splice (by omega)
    rw [hx, List.take_zero, List.nil_append] at hlow
    rwa [hy, hlow] at hboth
  · have hhigh : ((splice key 16 y).drop 16).take y.length = y := drop_take_splice (by omega)
    rw [hy] at hhigh
    rw [splice, List.take_zero, List.nil_append, hx, Nat.zero_add, List.take_append, hx,
      List.take_of_length_le (by omega), hhigh]

/-- The two contexts of a call: the same length and seed, the keys exchanged. -/
structure Mirror (client server : CmacCtx) : Prop where
  send : server.sendKey = client.recvKey
  recv : server.recvKey = client.sendKey
  len : server.keyLen = client.keyLen
  seed : server.seed = client.seed
  isClient : cmacServer &&& client.flag = 0
  isServer : cmacServer &&& server.flag ≠ 0
  sha256 : cmacSha256 &&& server.flag = cmacSha256 &&& client.flag

variable {client server : CmacCtx}

/-- **One key**: `sstp_cmac_makekey` gives both sides the same. -/
theorem makekey_mirror (h : Mirror client server) (hkey : key.length = 64)
    (hs : client.sendKey.length = 32) (hr : client.recvKey.length = 32) :
    sstpCmacMakekey server key = sstpCmacMakekey client key := by
  obtain ⟨hclient, hserver⟩ := halves (x := client.sendKey.take 16) (y := client.recvKey.take 16)
    hkey (by rw [List.length_take]; omega) (by rw [List.length_take]; omega)
  have hnot : ¬ cmacServer &&& client.flag ≠ 0 := not_not.mpr h.isClient
  unfold sstpCmacMakekey
  simp only [if_pos h.isServer, if_neg hnot, h.len, h.send, h.recv]
  split_ifs
  · rw [hclient, hserver]
  · rfl

theorem result_mirror (H : Hmac) (h : Mirror client server) (hs : client.sendKey.length = 32)
    (hr : client.recvKey.length = 32) (msg : List UInt8) :
    sstpCmacResult H server msg = sstpCmacResult H client msg := by
  have hkey : sstpCmacMakekey server (List.replicate 64 0) =
      sstpCmacMakekey client (List.replicate 64 0) :=
    makekey_mirror h List.length_replicate hs hr
  have hhmac : ∀ k m, hmac H server.flag k m = hmac H client.flag k m := by
    intro k m
    unfold hmac
    rw [h.sha256]
  have hlength : digestLength server.flag = digestLength client.flag := by
    unfold digestLength
    rw [h.sha256]
  unfold sstpCmacResult
  simp only [hkey, hhmac, hlength, h.seed]

end Exchange

/-! ### The keys of a session -/

section Keyed

variable {sendKey recvKey : List UInt8}

/-- Keys of one length, as `sstp_state_mppe_keys` stores them. -/
lemma keyed_eq (hlen : sendKey.length = recvKey.length) (h32 : recvKey.length ≤ 32) (flag : UInt8) :
    keyed flag sendKey recvKey =
      ⟨splice (List.replicate 32 0) 0 sendKey, splice (List.replicate 32 0) 0 recvKey,
        recvKey.length, seed, flag⟩ := by
  have hs : min sendKey.length 32 = sendKey.length := by omega
  have hr : min recvKey.length 32 = recvKey.length := by omega
  unfold keyed sstpCmacSendKey sstpCmacRecvKey
  dsimp only
  rw [hs, hr, List.take_length, List.take_length]
  by_cases h0 : 0 < recvKey.length
  · have h0' : 0 < sendKey.length := by omega
    simp only [if_pos h0, if_pos h0']
    rfl
  · have hsnil : sendKey = [] := List.eq_nil_of_length_eq_zero (by omega)
    have hrnil : recvKey = [] := List.eq_nil_of_length_eq_zero (by omega)
    subst hsnil hrnil
    simp only [if_neg h0, splice_nil]
    rfl

lemma length_key {k : List UInt8} (h : k.length ≤ 32) :
    (splice (List.replicate 32 0) 0 k).length = 32 := by
  rw [length_splice (by rw [List.length_replicate]; omega), List.length_replicate]

/-- **The server's recomputation**: with the keys exchanged, the same MAC. -/
theorem result_exchanged (H : Hmac) (hlen : sendKey.length = recvKey.length)
    (h32 : recvKey.length ≤ 32) (proto : UInt8) (msg : List UInt8) :
    sstpCmacResult H (keyed (hashType proto ||| cmacServer) recvKey sendKey) msg =
      sstpCmacResult H (keyed (hashType proto) sendKey recvKey) msg := by
  have hflag : cmacServer &&& hashType proto = 0 ∧ cmacServer &&& (hashType proto ||| cmacServer) ≠ 0 ∧
      cmacSha256 &&& (hashType proto ||| cmacServer) = cmacSha256 &&& hashType proto := by
    unfold hashType
    split_ifs
    · decide
    · decide
  obtain ⟨hclient, hserver, hsha⟩ := hflag
  have hmirror : Mirror (keyed (hashType proto) sendKey recvKey)
      (keyed (hashType proto ||| cmacServer) recvKey sendKey) := by
    rw [keyed_eq hlen h32, keyed_eq hlen.symm (by omega)]
    exact ⟨rfl, rfl, hlen, rfl, hclient, hserver, hsha⟩
  refine result_mirror H hmirror ?_ ?_ msg
  · rw [keyed_eq hlen h32]
    exact length_key (by omega)
  · rw [keyed_eq hlen h32]
    exact length_key h32

end Keyed

/-! ### The message -/

/-- The header of Call-Connected and of its attribute. -/
def messageHeader : List UInt8 :=
  [protoVer, msgFlagCtrl] ++ htons 112 ++ htons SstpMsg.connected.code ++ htons 1 ++ [0, 3] ++ htons 104

/-- The client's message is as it has to be, and a server that clears the MAC, and computes it for
itself with its keys, finds it. -/
structure Binds (H : Hmac) (st : SstpState) (certHash message : List UInt8) : Prop where
  length : message.length = 112
  layout : ∃ mac, mac.length = digestLength (hashType st.proto) ∧
    message = messageHeader ++ [0, 0, 0, hashType st.proto] ++ st.nounce ++ certHash ++
      (mac ++ List.replicate (32 - mac.length) 0) ∧
    sstpCmacResult H (keyed (hashType st.proto ||| cmacServer) st.mppeRecvKey st.mppeSendKey)
      (splice message 80 (List.replicate 32 0)) = mac

lemma connectedData_eq {type : UInt8} {nounce certHash : List UInt8} (hn : nounce.length = 32)
    (hc : certHash.length = 32) :
    connectedData type nounce certHash =
      [0, 0, 0, type] ++ nounce ++ certHash ++ List.replicate 32 0 := by
  have h3 : splice (List.replicate 100 0) 3 [type] =
      [0, 0, 0, type] ++ (List.replicate 32 0 ++ List.replicate 64 0) := rfl
  have h4 : splice ([0, 0, 0, type] ++ (List.replicate 32 0 ++ List.replicate 64 0)) 4 nounce =
      [0, 0, 0, type] ++ (nounce ++ List.replicate 64 0) :=
    splice_append rfl (by rw [List.length_replicate, hn])
  have h64 : List.replicate 64 (0 : UInt8) = List.replicate 32 0 ++ List.replicate 32 0 := rfl
  have h36 : splice (([0, 0, 0, type] ++ nounce) ++ (List.replicate 32 0 ++ List.replicate 32 0)) 36
      certHash = ([0, 0, 0, type] ++ nounce) ++ (certHash ++ List.replicate 32 0) :=
    splice_append (by simp [hn]) (by rw [List.length_replicate, hc])
  unfold connectedData
  rw [h3, h4, h64, ← List.append_assoc, h36]
  simp only [List.append_assoc]

/-- The message before its MAC is written, in front of the place of the MAC. -/
lemma image_connected {type : UInt8} {nounce certHash : List UInt8} (hn : nounce.length = 32)
    (hc : certHash.length = 32) :
    image .connected [(3, connectedData type nounce certHash)] =
      (messageHeader ++ [0, 0, 0, type] ++ nounce ++ certHash) ++ List.replicate 32 0 := by
  have hlen := length_data type hn hc
  have hheader : image .connected [(3, connectedData type nounce certHash)] =
      messageHeader ++ connectedData type nounce certHash := by
    unfold image encodeAttrs
    rw [List.flatMap_singleton]
    unfold encodeAttr encodedSize attrsSize messageHeader
    simp [hlen]
  rw [hheader, connectedData_eq hn hc]
  simp only [List.append_assoc]

/-- **The message binds.** The MAC that is written over its place is found again. -/
lemma binds_message {H : Hmac} {st : SstpState} {certHash : List UInt8} (hn : st.nounce.length = 32)
    (hc : certHash.length = 32) (hkeys : st.mppeSendKey.length = st.mppeRecvKey.length)
    (h32 : st.mppeRecvKey.length ≤ 32) :
    Binds H st certHash
      (splice (image .connected [(3, connectedData (hashType st.proto) st.nounce certHash)]) 80
        (sstpCmacResult H (keyed (hashType st.proto) st.mppeSendKey st.mppeRecvKey)
          (image .connected [(3, connectedData (hashType st.proto) st.nounce certHash)]))) := by
  generalize hmac : sstpCmacResult H (keyed (hashType st.proto) st.mppeSendKey st.mppeRecvKey)
    (image .connected [(3, connectedData (hashType st.proto) st.nounce certHash)]) = mac
  have hmacLen : mac.length = digestLength (hashType st.proto) := by
    rw [← hmac, sstpCmacResult, length_hmac, keyed_eq hkeys h32]
  have hle := digestLength_le (hashType st.proto)
  rw [image_connected hn hc] at hmac ⊢
  obtain ⟨front, hfront⟩ : ∃ front, front =
      messageHeader ++ [0, 0, 0, hashType st.proto] ++ st.nounce ++ certHash := ⟨_, rfl⟩
  have h80 : front.length = 80 := by
    rw [hfront]
    simp only [List.length_append, hn, hc]
    rfl
  rw [← hfront] at hmac ⊢
  have hzeros : List.replicate 32 (0 : UInt8) =
      List.replicate mac.length 0 ++ List.replicate (32 - mac.length) 0 := by
    rw [List.replicate_append_replicate]
    congr 1
    omega
  have hwritten : splice (front ++ List.replicate 32 0) 80 mac =
      front ++ (mac ++ List.replicate (32 - mac.length) 0) := by
    rw [hzeros, splice_append h80 List.length_replicate]
  have hplace : (mac ++ List.replicate (32 - mac.length) (0 : UInt8)).length = 32 := by
    rw [List.length_append, List.length_replicate]
    omega
  have hcleared : splice (front ++ (mac ++ List.replicate (32 - mac.length) 0)) 80
      (List.replicate 32 0) = front ++ List.replicate 32 0 := by
    have hwhole : splice (front ++ ((mac ++ List.replicate (32 - mac.length) 0) ++ [])) 80
        (List.replicate 32 0) = front ++ (List.replicate 32 0 ++ []) :=
      splice_append h80 (hplace.trans List.length_replicate.symm)
    simpa using hwhole
  rw [hwritten]
  refine ⟨?_, mac, hmacLen, ?_, ?_⟩
  · rw [List.length_append, h80, hplace]
  · rw [hfront]
  · rw [hcleared, result_exchanged H hkeys h32]
    exact hmac

/-- **Crypto binding.** Whatever nonce, protocol, certificate hash and keys of one length are stored,
`sstp_state_accept` hands over one message, and it binds. -/
theorem accept_binds (H : Hmac) (certHash : UInt8 → Option { h : List UInt8 // h.length = 32 })
    {c : Session} (hplace : c.stream.place = .idle) (hmode : c.st.mode = .client)
    (hmax : 112 ≤ (c.stream.bufs txBuf).max) (hn : c.st.nounce.length = 32)
    (hkeys : c.st.mppeSendKey.length = c.st.mppeRecvKey.length)
    (h32 : c.st.mppeRecvKey.length ≤ 32) {hash : { h : List UInt8 // h.length = 32 }}
    (hcert : certHash c.st.proto = some hash) :
    ∃ message, Binds H c.st hash.1 message ∧
      ∀ call m, .handed call m ∈ (State.step (cmacEnv H certHash) c .accept).2 ↔
        call = c.stream.calls ∧ m = message := by
  obtain ⟨b, hb, -, hrem⟩ := construct_connected (E := cmacEnv H certHash) hmax hn hash.2
  have hhandled : State.handled (cmacEnv H certHash) c.st .accept =
      some ⟨c.st, some (.connected hash.1), [], none⟩ := by
    have hcert' : (cmacEnv H certHash).certHash c.st.proto = some hash := hcert
    simp only [State.handled, sstpStateAccept]
    rw [if_pos hmode, hcert']
  have hstep : State.step (cmacEnv H certHash) c .accept =
      State.handOver (cmacEnv H certHash) c (.connected hash.1) := by
    simp only [State.step]
    rw [if_pos hplace, hhandled]
    rfl
  refine ⟨StreamSpec.remaining b, ?_, fun call m => ?_⟩
  · rw [hrem]
    exact binds_message hn hash.2 hkeys h32
  · rw [hstep, handOver_eq hb]
    simp [State.streamStep]

/-- A digest to run with, of the key and of the message. -/
def mixHmac : Hmac :=
  let mix (key msg : List UInt8) (i : ℕ) : UInt8 :=
    (key ++ msg).foldl (fun a b => a * 31 + b) (UInt8.ofNat i)
  ⟨fun key msg => ⟨(List.range 20).map (mix key msg), by simp⟩,
    fun key msg => ⟨(List.range 32).map (mix key msg), by simp⟩⟩

def plainCertHash : UInt8 → Option { h : List UInt8 // h.length = 32 } :=
  fun _ => some ⟨List.replicate 32 7, rfl⟩

/-- A Call-Connect-Ack that asks for SHA-256, with a nonce. -/
def connectAck : List UInt8 :=
  [0x10, 0x01, 0x00, 0x30, 0x00, 0x02, 0x00, 0x01, 0x00, 0x04, 0x00, 0x28, 0x00, 0x00, 0x00, 0x02] ++
    (List.range 32).map UInt8.ofNat

/-- A session that has received it, and has keys of 16 bytes. -/
def keyedSession : Session :=
  (run (State.step (cmacEnv mixHmac plainCertHash)) (sstpCreate .client fun _ => sstpBuffCreate 0)
    [.recv connectAck [] fun _ => none,
      .mppeKeys (List.replicate 16 1) (List.replicate 16 2)]).1

theorem accept_binds_keyed :
    keyedSession.st.nounce = (List.range 32).map UInt8.ofNat ∧ keyedSession.st.proto = 2 ∧
    ∃ message, Binds mixHmac keyedSession.st (List.replicate 32 7) message ∧
      ∀ call m, .handed call m ∈
          (State.step (cmacEnv mixHmac plainCertHash) keyedSession .accept).2 ↔
        call = keyedSession.stream.calls ∧ m = message := by
  have hready : Ready keyedSession :=
    ready_step (ready_step (ready_create .client fun _ => sstpBuffCreate 0) _) _
  have hcert : plainCertHash keyedSession.st.proto = some ⟨List.replicate 32 7, rfl⟩ := rfl
  exact ⟨by decide +kernel, by decide +kernel, accept_binds mixHmac plainCertHash rfl rfl
    (by rw [hready.max]; decide) hready.nounce (by decide +kernel) (by decide +kernel) hcert⟩

end SstpClient.Cmac
