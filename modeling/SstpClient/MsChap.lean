import SstpClient.Lib.CString
import SstpClient.LinkUp
import SstpClient.MppeKeys

/-!
MS-CHAPv2, `sstp-mschapv2.c`, with `handle_chap` of `ios-pppd.c`.

The NT response is computed from the whole user name, whose domain is stripped. The packet has the
first 200 bytes of the name, so that an authenticator, who strips the domain of what it reads, may
come to another response.
-/

namespace SstpClient.MsChap

open SstpClient.Lib.Bytes SstpClient.Lib.Machine SstpClient.Lib.CString
open SstpClient.Ppp SstpClient.PppSpec SstpClient.LinkUp

/-! ### The NT response -/

/-- The functions of the cryptographic library. -/
structure Crypto where
  md4 : List UInt8 → { h : List UInt8 // h.length = 16 }
  sha1 : List UInt8 → { h : List UInt8 // h.length = 20 }
  /-- `DES_set_odd_parity`. -/
  oddParity : List UInt8 → List UInt8
  /-- `DES_ecb_encrypt`, of a key and a block. -/
  des : List UInt8 → List UInt8 → { b : List UInt8 // b.length = 8 }

section Response

variable (C : Crypto)

/-- `unicode_password`. -/
def unicodePassword (pass : List UInt8) : List UInt8 := (pass.take 256).flatMap fun b => [b, 0]

def sstpMschapv2NtPasswordHash (password : List UInt8) : List UInt8 :=
  (C.md4 (unicodePassword password)).val

/-- `setup_des_key`: seven bytes spread over eight. -/
def setupDesKey (key7 : List UInt8) : List UInt8 :=
  let k i := key7.getD i 0
  C.oddParity [k 0, (k 0 <<< 7) ||| (k 1 >>> 1), (k 1 <<< 6) ||| (k 2 >>> 2),
    (k 2 <<< 5) ||| (k 3 >>> 3), (k 3 <<< 4) ||| (k 4 >>> 4), (k 4 <<< 3) ||| (k 5 >>> 5),
    (k 5 <<< 2) ||| (k 6 >>> 6), k 6 <<< 1]

/-- `challenge_response`. -/
def challengeResponse (challenge passwordHash : List UInt8) : List UInt8 :=
  let zhash := passwordHash ++ List.replicate 5 0
  (C.des (setupDesKey C zhash) challenge).val ++
    (C.des (setupDesKey C (zhash.drop 7)) challenge).val ++
      (C.des (setupDesKey C (zhash.drop 14)) challenge).val

/-- The user name behind the last backslash. -/
def stripDomain (username : List UInt8) : List UInt8 :=
  match strrchr username 92 with
  | some s => s.drop 1
  | none => username

def sstpMschapv2ChallengeHash (peerChallenge authChallenge username : List UInt8) : List UInt8 :=
  (C.sha1 (peerChallenge ++ authChallenge ++ stripDomain username)).val.take 8

def sstpMschapv2GenerateNtResponse (authChallenge peerChallenge username password : List UInt8) :
    List UInt8 :=
  challengeResponse C (sstpMschapv2ChallengeHash C peerChallenge authChallenge username)
    (sstpMschapv2NtPasswordHash C password)

lemma length_challengeHash (peerChallenge authChallenge username : List UInt8) :
    (sstpMschapv2ChallengeHash C peerChallenge authChallenge username).length = 8 := by
  unfold sstpMschapv2ChallengeHash
  rw [List.length_take, (C.sha1 _).property]
  rfl

lemma length_ntResponse (authChallenge peerChallenge username password : List UInt8) :
    (sstpMschapv2GenerateNtResponse C authChallenge peerChallenge username password).length = 24 := by
  unfold sstpMschapv2GenerateNtResponse challengeResponse
  simp only [List.length_append, (C.des _ _).property]

/-- The response depends on the name without its domain only. -/
lemma ntResponse_congr {user user' : List UInt8} (h : stripDomain user = stripDomain user')
    (authChallenge peerChallenge password : List UInt8) :
    sstpMschapv2GenerateNtResponse C authChallenge peerChallenge user password =
      sstpMschapv2GenerateNtResponse C authChallenge peerChallenge user' password := by
  unfold sstpMschapv2GenerateNtResponse sstpMschapv2ChallengeHash
  rw [h]

end Response

/-! ### The authenticator -/

/-- What an authenticator reads out of a Response packet. -/
structure Response where
  peerChallenge : List UInt8
  ntResponse : List UInt8
  name : List UInt8

def readResponse (packet : List UInt8) : Option Response :=
  if packet.getD 0 0 = chapResponse ∧ be16 (packet.getD 2 0) (packet.getD 3 0) = packet.length ∧
      packet.getD 4 0 = 49 ∧ 54 ≤ packet.length then
    some ⟨(packet.drop 5).take 16, (packet.drop 29).take 24, packet.drop 54⟩
  else none

/-- The authenticator recomputes the response from the name and the password it knows. -/
def Accepts (C : Crypto) (challenge password : List UInt8) (r : Response) : Prop :=
  sstpMschapv2GenerateNtResponse C challenge r.peerChallenge r.name password = r.ntResponse

/-- The CHAP packet in a frame. -/
def chapPacket : Out → Option (List UInt8)
  | .frame bytes => match parseFrame bytes with
    | some (proto, p) => if proto = protoChap then some p else none
    | none => none
  | _ => none

def chapPackets (outs : List Out) : List (List UInt8) := outs.filterMap chapPacket

/-- The cryptographic functions of the endpoint, with those of MS-CHAPv2. -/
def withMsChap (C : Crypto) (P : Prims) : Prims :=
  { P with ntResponse := sstpMschapv2GenerateNtResponse C }

/-- The endpoint after `sstp_pppd_start` and the inputs. -/
def reached (P : Prims) (magic : ℕ) (user password : List UInt8) (inputs : List Input) : Pppd :=
  (run (step P) (sstpPppdStart user password (sstpPppdCreate magic)).1 inputs).1

/-- A challenge that is answered is answered by one Response, which is accepted, and the response
that was sent is the stored one. -/
structure Consistent (C : Crypto) (password challenge : List UInt8) (r : Pppd × List Out) :
  Prop where
  accepted : ∃ packet response, chapPackets r.2 = [packet] ∧ readResponse packet = some response ∧
    Accepts C challenge password response ∧ r.1.chap.ntResponse = response.ntResponse ∧
    r.1.chap.challenge = response.peerChallenge

/-- **What is asked** for a user: whatever the cryptographic functions, the password, what came
before and the challenges, the response is consistent. -/
def SelfConsistent (user : List UInt8) : Prop :=
  ∀ (C : Crypto) (P : Prims) (magic : ℕ) (password : List UInt8) (inputs : List Input)
    (bytes p peerChallenge : List UInt8), password.length ≤ 255 → peerChallenge.length = 16 →
    parseFrame bytes = some (protoChap, p) → AnswersChallenge p →
      Consistent C password ((p.drop 5).take 16)
        (step (withMsChap C P) (reached (withMsChap C P) magic user password inputs)
          (.frame bytes peerChallenge))

/-! ### The packet that is sent -/

/-- **The response is read back**, with the first 200 bytes of the name. -/
theorem readResponse_body {chap : Chap} (hchallenge : chap.challenge.length = 16)
    (hresponse : chap.response.length = 8) (hnt : chap.ntResponse.length = 24) (id : UInt8)
    (username : List UInt8) :
    readResponse (chapResponseBody id chap username) =
      some ⟨chap.challenge, chap.ntResponse, username.take 200⟩ := by
  generalize hname : username.take 200 = name
  have hsize : name.length ≤ 200 := by
    rw [← hname]
    exact List.length_take_le _ _
  obtain ⟨front, hfront⟩ : ∃ front, front =
      [chapResponse, id] ++ toBe16 (5 + 49 + name.length) ++ [49] := ⟨_, rfl⟩
  have hfive : front.length = 5 := by
    rw [hfront]
    rfl
  have hbody : chapResponseBody id chap username =
      front ++ (chap.challenge ++ (chap.response ++ (chap.ntResponse ++ ([chap.flags] ++ name)))) := by
    unfold chapResponseBody
    rw [hname, hfront]
    simp only [List.append_assoc]
  have hlen : (chapResponseBody id chap username).length = 54 + name.length := by
    rw [hbody]
    simp only [List.length_append, hfive, hchallenge, hresponse, hnt, List.length_singleton]
    omega
  have hfield : be16 ((chapResponseBody id chap username).getD 2 0)
      ((chapResponseBody id chap username).getD 3 0) = (chapResponseBody id chap username).length := by
    rw [hlen, hbody, hfront]
    refine (be16_ofNat _).trans ?_
    omega
  have hcode : (chapResponseBody id chap username).getD 0 0 = chapResponse := by
    rw [hbody, hfront]
    rfl
  have hvalue : (chapResponseBody id chap username).getD 4 0 = 49 := by
    rw [hbody, hfront]
    rfl
  unfold readResponse
  rw [if_pos ⟨hcode, hfield, hvalue, by omega⟩, hbody]
  have hpeer : (front ++ (chap.challenge ++ (chap.response ++ (chap.ntResponse ++
      ([chap.flags] ++ name))))).drop 5 = _ := List.drop_left' hfive
  have hread : (front ++ (chap.challenge ++ (chap.response ++ (chap.ntResponse ++
      ([chap.flags] ++ name))))).drop 29 = chap.ntResponse ++ ([chap.flags] ++ name) := by
    rw [← List.append_assoc, ← List.append_assoc]
    exact List.drop_left' (by simp only [List.length_append, hfive, hchallenge, hresponse])
  have hrest : (front ++ (chap.challenge ++ (chap.response ++ (chap.ntResponse ++
      ([chap.flags] ++ name))))).drop 54 = name := by
    rw [← List.append_assoc, ← List.append_assoc, ← List.append_assoc, ← List.append_assoc]
    exact List.drop_left' (by
      simp only [List.length_append, hfive, hchallenge, hresponse, hnt, List.length_singleton])
  rw [hpeer, hread, hrest, List.take_left' hchallenge, List.take_left' hnt]

lemma chapPackets_sent (packet : List UInt8) (ctx : Pppd) :
    chapPackets ([.frame ([0xff, 0x03] ++ toBe16 protoChap ++ packet)] ++ [.notify .auth ctx]) =
      [packet] := by
  have hpacket : chapPacket (.frame ([0xff, 0x03] ++ toBe16 protoChap ++ packet)) = some packet := by
    unfold chapPacket
    dsimp only
    rw [parseFrame_of_proto (by decide) (by decide)]
    exact if_pos rfl
  unfold chapPackets
  rw [List.singleton_append, List.filterMap_cons_some hpacket]
  rfl

section Step

variable {P : Prims} {ctx : Pppd} {bytes p peerChallenge : List UInt8}

/-- **A challenge that is answered**: the stored response is the one sent. -/
theorem step_challenged (hp : parseFrame bytes = some (protoChap, p)) (h : AnswersChallenge p)
    (hsize : (chapResponseBody (p.getD 1 0) (chapOf P peerChallenge p ctx) ctx.username).length ≤
      mru) :
    chapPackets (step P ctx (.frame bytes peerChallenge)).2 =
        [chapResponseBody (p.getD 1 0) (chapOf P peerChallenge p ctx) ctx.username] ∧
      (step P ctx (.frame bytes peerChallenge)).1.chap = chapOf P peerChallenge p ctx := by
  obtain ⟨h5, hcode, h16, hlen⟩ := h
  have heq : step P ctx (.frame bytes peerChallenge) = chapRespond P peerChallenge p ctx := by
    rw [step, pppDispatch, hp]
    change handleChap P peerChallenge p ctx = _
    rw [handleChap, if_neg (by omega), if_neg (not_not.mpr hcode), if_neg (by omega)]
  have hsent : (pppSendFrame protoChap (chapResponseBody (p.getD 1 0)
      (chapOf P peerChallenge p ctx) ctx.username)).2 = [.frame ([0xff, 0x03] ++ toBe16 protoChap ++
        chapResponseBody (p.getD 1 0) (chapOf P peerChallenge p ctx) ctx.username)] := by
    unfold pppSendFrame
    rw [if_neg (by omega)]
  have hauth : ∀ c, (iosPppdAuth P c).1.chap = c.chap ∧ (iosPppdAuth P c).2 = [] := by
    intro c
    unfold iosPppdAuth
    cases P.mppeGet c.chap <;> exact ⟨rfl, rfl⟩
  rw [heq]
  unfold chapRespond
  simp only [seq_fst, seq_snd, update_eq, sendFrame_fst, notify_eq, (hauth _).1, (hauth _).2]
  refine ⟨?_, rfl⟩
  change chapPackets ((pppSendFrame protoChap _).2 ++ _) = _
  rw [hsent]
  exact chapPackets_sent _ _

/-- A part of a handler that leaves the credentials alone. -/
def KeepsUser (f : Act) : Prop :=
  ∀ ctx, (f ctx).1.username = ctx.username ∧ (f ctx).1.password = ctx.password

lemma keepsUser_seq {f g : Act} (hf : KeepsUser f) (hg : KeepsUser g) : KeepsUser (f.seq g) :=
  fun ctx => ⟨(hg _).1.trans (hf ctx).1, (hg _).2.trans (hf ctx).2⟩

lemma composes_keepsUser : Composes KeepsUser where
  skip := fun _ => ⟨rfl, rfl⟩
  seq := keepsUser_seq
  ofForall := by
    intro f h ctx
    obtain ⟨g, hg, heq⟩ := h ctx
    rw [heq]
    exact hg ctx

lemma keepsUser_ccpFinished : KeepsUser ccpFinished :=
  composes_keepsUser.ccpFinished (fun _ => ⟨rfl, rfl⟩) (fun _ => ⟨rfl, rfl⟩)
    (composes_keepsUser.maybeNotifyUp (fun _ => ⟨rfl, rfl⟩) fun _ => ⟨rfl, rfl⟩)

lemma keepsUser_handleChap (buf : List UInt8) : KeepsUser (handleChap P peerChallenge buf) := by
  refine composes_keepsUser.handleChap P (fun _ => ⟨rfl, rfl⟩) (fun _ => ⟨rfl, rfl⟩)
    (fun _ => ⟨rfl, rfl⟩) fun ctx => ?_
  simp only [chapRespond, seq_fst, update_eq, sendFrame_fst, notify_eq]
  unfold iosPppdAuth
  cases P.mppeGet (setChap (buf.getD 1 0) (chapOf P peerChallenge buf ctx) ctx).chap <;>
    exact ⟨rfl, rfl⟩

lemma keepsUser_handleIpcp (buf : List UInt8) : KeepsUser (handleIpcp buf) := by
  have hread : ∀ {set : UInt8 → ℕ → Pppd → Pppd},
      (∀ t v ctx, (set t v ctx).username = ctx.username ∧ (set t v ctx).password = ctx.password) →
        KeepsUser (update (readOptions set buf)) := fun hset ctx =>
    ⟨ipcpOptions_keeps Pppd.username (fun t v ctx => (hset t v ctx).1) _ _ _ _,
      ipcpOptions_keeps Pppd.password (fun t v ctx => (hset t v ctx).2) _ _ _ _⟩
  have hpeer : KeepsUser (update (readOptions setPeerIp buf)) := hread fun t v ctx => by
    unfold setPeerIp
    split_ifs <;> exact ⟨rfl, rfl⟩
  have hlocal : KeepsUser (update (readOptions setLocalIp buf)) := hread fun t v ctx => by
    unfold setLocalIp
    split_ifs <;> exact ⟨rfl, rfl⟩
  have hup : KeepsUser maybeNotifyUp :=
    composes_keepsUser.maybeNotifyUp (fun _ => ⟨rfl, rfl⟩) fun _ => ⟨rfl, rfl⟩
  unfold handleIpcp
  split_ifs
  · exact composes_keepsUser.skip
  · refine keepsUser_seq (composes_keepsUser.ofForall fun ctx => ?_)
      (composes_keepsUser.ipcpSwitch hpeer hlocal (fun _ _ => ⟨rfl, rfl⟩) (fun _ => ⟨rfl, rfl⟩)
        (composes_keepsUser.ipcpAcked (fun _ => ⟨rfl, rfl⟩) hup))
    unfold ipcpBeforeCcp
    split_ifs
    · exact ⟨_, keepsUser_seq (fun _ => ⟨rfl, rfl⟩) keepsUser_ccpFinished, rfl⟩
    · exact ⟨_, composes_keepsUser.skip, rfl⟩

lemma keepsUser_handleCcp (buf : List UInt8) : KeepsUser (handleCcp P buf) := by
  unfold handleCcp
  split_ifs
  · exact composes_keepsUser.skip
  · exact composes_keepsUser.skip
  · exact keepsUser_seq (fun _ => ⟨rfl, rfl⟩)
      (keepsUser_seq (fun _ => ⟨rfl, rfl⟩) keepsUser_ccpFinished)
  · exact keepsUser_seq (fun _ => ⟨rfl, rfl⟩) keepsUser_ccpFinished
  · exact keepsUser_seq (fun _ => ⟨rfl, rfl⟩) keepsUser_ccpFinished
  · exact composes_keepsUser.skip

lemma keepsUser_handleMppe (buf : List UInt8) : KeepsUser (handleMppe P buf) := by
  intro ctx
  unfold handleMppe
  split_ifs
  · exact ⟨rfl, rfl⟩
  · cases catchUp P (ccountOf buf) 4096 ctx.mppe.recv with
    | none => exact ⟨rfl, rfl⟩
    | some d =>
      obtain ⟨⟨k, hk⟩, -⟩ := mppeDecrypt_spec P d buf ctx
      dsimp only
      rw [hk]
      exact ⟨rfl, rfl⟩

/-- **The credentials stay** as `sstp_pppd_start` has stored them. -/
theorem keepsUser_step (ctx : Pppd) (i : Input) :
    (step P ctx i).1.username = ctx.username ∧ (step P ctx i).1.password = ctx.password := by
  cases i with
  | frame bytes peerChallenge =>
    unfold step pppDispatch
    dsimp only
    cases hp : parseFrame bytes with
    | none => exact ⟨rfl, rfl⟩
    | some pp =>
      obtain ⟨proto, p⟩ := pp
      dsimp only
      split_ifs
      · exact composes_keepsUser.handleLcp (fun _ _ => ⟨rfl, rfl⟩) (fun _ => ⟨rfl, rfl⟩)
          (fun _ => ⟨rfl, rfl⟩) (fun _ => ⟨rfl, rfl⟩) p ctx
      · exact keepsUser_handleChap p ctx
      · exact keepsUser_handleIpcp p ctx
      · exact keepsUser_handleCcp p ctx
      · exact keepsUser_handleMppe p ctx
      · exact ⟨rfl, rfl⟩
      · exact ⟨rfl, rfl⟩
  | sendIp ip =>
    unfold step sstpPppdSendIp pppSendIpPlainOrMppe
    dsimp only
    split_ifs <;> exact ⟨rfl, rfl⟩

lemma credentials_reached (magic : ℕ) (user password : List UInt8) (inputs : List Input) :
    (reached P magic user password inputs).username = user.take 255 ∧
      (reached P magic user password inputs).password = password.take 255 :=
  run_inv_all (h := []) (fun ctx _ =>
    ctx.username = user.take 255 ∧ ctx.password = password.take 255)
    (fun ctx _ i h => ⟨(keepsUser_step ctx i).1.trans h.1, (keepsUser_step ctx i).2.trans h.2⟩)
    ⟨rfl, rfl⟩ inputs

end Step

/-! ### The main result -/

/-- The names are stripped to the same: the one that is hashed and the one that is sent. -/
def SameName (user : List UInt8) : Prop := stripDomain (user.take 200) = stripDomain user

instance (user : List UInt8) : Decidable (SameName user) := inferInstanceAs (Decidable (_ = _))

/-- Names that are sent whole. -/
lemma sameName_of_length_le {user : List UInt8} (h : user.length ≤ 200) : SameName user := by
  unfold SameName
  rw [List.take_of_length_le h]

/-- A name without a domain has to be sent whole. -/
lemma sameName_iff_of_notMem {user : List UInt8} (h : 92 ∉ user) :
    SameName user ↔ user.length ≤ 200 := by
  refine ⟨fun hsame => ?_, sameName_of_length_le⟩
  have hwhole : stripDomain user = user := by
    unfold stripDomain
    rw [strrchr_of_notMem h]
  have hpart : stripDomain (user.take 200) = user.take 200 := by
    unfold stripDomain
    rw [strrchr_of_notMem fun hmem => h (List.mem_of_mem_take hmem)]
  unfold SameName at hsame
  rw [hwhole, hpart] at hsame
  rw [← hsame]
  exact List.length_take_le _ _

/-- What a challenge leads to: a response that is read back, for the first 200 bytes of the name. -/
theorem response_read (C : Crypto) (P : Prims) (magic : ℕ) {user password : List UInt8}
    (hpassword : password.length ≤ 255) (huser : user.length ≤ 255) (inputs : List Input)
    {bytes p peerChallenge : List UInt8} (hpeer : peerChallenge.length = 16)
    (hp : parseFrame bytes = some (protoChap, p)) (h : AnswersChallenge p) :
    ∃ packet, chapPackets (step (withMsChap C P)
        (reached (withMsChap C P) magic user password inputs) (.frame bytes peerChallenge)).2 =
        [packet] ∧
      readResponse packet = some ⟨peerChallenge,
        sstpMschapv2GenerateNtResponse C ((p.drop 5).take 16) peerChallenge user password,
        user.take 200⟩ ∧
      (step (withMsChap C P) (reached (withMsChap C P) magic user password inputs)
          (.frame bytes peerChallenge)).1.chap.ntResponse =
        sstpMschapv2GenerateNtResponse C ((p.drop 5).take 16) peerChallenge user password ∧
      (step (withMsChap C P) (reached (withMsChap C P) magic user password inputs)
          (.frame bytes peerChallenge)).1.chap.challenge = peerChallenge := by
  obtain ⟨hname, hword⟩ := credentials_reached (P := withMsChap C P) magic user password inputs
  rw [List.take_of_length_le huser] at hname
  rw [List.take_of_length_le hpassword] at hword
  generalize reached (withMsChap C P) magic user password inputs = ctx at *
  have hchap : chapOf (withMsChap C P) peerChallenge p ctx = ⟨peerChallenge, List.replicate 8 0,
      sstpMschapv2GenerateNtResponse C ((p.drop 5).take 16) peerChallenge user password, 0⟩ := by
    unfold chapOf withMsChap
    rw [hname, hword]
  have hnt := length_ntResponse C ((p.drop 5).take 16) peerChallenge user password
  have hsize : (chapResponseBody (p.getD 1 0) (chapOf (withMsChap C P) peerChallenge p ctx)
      ctx.username).length ≤ mru :=
    length_chapResponseBody_le (by rw [hchap]; exact ⟨hpeer, List.length_replicate, hnt⟩) _ _
  obtain ⟨hpackets, hstored⟩ := step_challenged hp h hsize
  refine ⟨_, hpackets, ?_, ?_, ?_⟩
  · rw [hchap, hname]
    exact readResponse_body hpeer List.length_replicate hnt _ _
  · rw [hstored, hchap]
  · rw [hstored, hchap]

lemma selfConsistent_of_sameName {user : List UInt8} (huser : user.length ≤ 255)
    (h : SameName user) : SelfConsistent user := by
  intro C P magic password inputs bytes p peerChallenge hpassword hpeer hp hanswers
  obtain ⟨packet, hpackets, hread, hnt, hchallenge⟩ :=
    response_read C P magic hpassword huser inputs hpeer hp hanswers
  exact ⟨packet, _, hpackets, hread, ntResponse_congr C h _ _ _, hnt, hchallenge⟩

def zeros (n : ℕ) : { bytes : List UInt8 // bytes.length = n } :=
  ⟨List.replicate n 0, List.length_replicate⟩

/-- Functions under which the response shows its name: SHA-1 knows one string, and DES gives the
block back. -/
def tellingCrypto (known : List UInt8) : Crypto where
  md4 _ := zeros 16
  sha1 d := if d = known then ⟨List.replicate 20 1, List.length_replicate⟩ else zeros 20
  oddParity key := key
  des _ block := if h : block.length = 8 then ⟨block, h⟩ else zeros 8

lemma ntResponse_telling (known challenge peerChallenge user password : List UInt8) :
    (sstpMschapv2GenerateNtResponse (tellingCrypto known) challenge peerChallenge user
      password).take 8 =
        if peerChallenge ++ challenge ++ stripDomain user = known then List.replicate 8 1
        else List.replicate 8 0 := by
  have hhash := length_challengeHash (tellingCrypto known) peerChallenge challenge user
  have hdes : ∀ key, ((tellingCrypto known).des key
      (sstpMschapv2ChallengeHash (tellingCrypto known) peerChallenge challenge user)).val =
        sstpMschapv2ChallengeHash (tellingCrypto known) peerChallenge challenge user := by
    intro key
    unfold tellingCrypto at hhash ⊢
    dsimp only
    rw [dif_pos hhash]
  unfold sstpMschapv2GenerateNtResponse challengeResponse
  dsimp only
  rw [hdes, hdes, hdes, List.append_assoc, List.take_left' hhash]
  unfold sstpMschapv2ChallengeHash tellingCrypto
  dsimp only
  split_ifs <;> rfl

/-- A Challenge of sixteen zero bytes. -/
def zeroChallenge : List UInt8 := [1, 1, 0, 21, 16] ++ List.replicate 16 0

lemma not_selfConsistent (P : Prims) {user : List UInt8} (huser : user.length ≤ 255)
    (h : ¬ SameName user) : ¬ SelfConsistent user := by
  intro hall
  have hpeer : (List.replicate 16 (0 : UInt8)).length = 16 := List.length_replicate
  have hp : parseFrame ([0xff, 0x03, 0xc2, 0x23] ++ zeroChallenge) =
      some (protoChap, zeroChallenge) := by decide +kernel
  have hanswers : AnswersChallenge zeroChallenge := by decide +kernel
  have hzero : (zeroChallenge.drop 5).take 16 = List.replicate 16 0 := by decide +kernel
  obtain ⟨known, hknown⟩ : ∃ known, known =
      List.replicate 16 0 ++ List.replicate 16 0 ++ stripDomain user := ⟨_, rfl⟩
  obtain ⟨packet, response, hpackets, hread, haccepts, -⟩ :=
    hall (tellingCrypto known) P 0 [] [] _ _ _
    (by decide) hpeer hp hanswers
  obtain ⟨packet', hpackets', hread', -⟩ := response_read (tellingCrypto known) P 0
    (show ([] : List UInt8).length ≤ 255 by decide) huser [] hpeer hp hanswers
  have hsame : packet' = packet := by
    have heq := hpackets'.symm.trans hpackets
    exact (List.cons.inj heq).1
  rw [hsame, hread] at hread'
  cases hread'
  -- the name that is sent gives another hash than the one that was hashed
  have hfirst := congrArg (List.take 8) haccepts
  rw [ntResponse_telling, ntResponse_telling, hzero, if_pos hknown.symm, if_neg] at hfirst
  · exact absurd hfirst (by decide)
  · rw [hknown]
    exact fun heq => h (List.append_cancel_left heq)

/-- **When the response is self-consistent**, for a user name of 255 bytes at most: exactly when
its first 200 bytes have the same name behind their last backslash. -/
theorem selfConsistent_iff {user : List UInt8} (huser : user.length ≤ 255) :
    SelfConsistent user ↔ SameName user := by
  constructor
  · intro hall
    by_contra hnot
    exact not_selfConsistent MppeKeys.somePrims huser hnot hall
  · exact selfConsistent_of_sameName huser

/-- The user `D\User`. -/
theorem selfConsistent_iff_user : SelfConsistent [0x44, 0x5c, 0x55, 0x73, 0x65, 0x72] :=
  (selfConsistent_iff (by decide)).mpr (by decide)

/-- A name of 201 bytes is hashed whole and sent without its last byte. -/
theorem longName_not_selfConsistent : ¬ SelfConsistent (List.replicate 201 0x61) :=
  not_selfConsistent MppeKeys.somePrims (by rw [List.length_replicate]; decide) fun hsame => by
    have hdomain : 92 ∉ List.replicate 201 (0x61 : UInt8) := fun hmem =>
      absurd (List.eq_of_mem_replicate hmem) (by decide)
    rw [sameName_iff_of_notMem hdomain, List.length_replicate] at hsame
    exact absurd hsame (by decide)

end SstpClient.MsChap
