import SstpClient.Lib.Unicode
import SstpClient.MsChap

/-!
The MPPE keys, `sstp-chap.c`, and the text of the password that is hashed for them and for the NT
response.

The password is hashed as UTF-16LE, made from its bytes by a zero behind each. The keys of a server
come from the flags of a client that is sending.
-/

namespace SstpClient.ChapKeys

open SstpClient.Lib.CString SstpClient.Lib.Unicode
open SstpClient.Ppp SstpClient.MsChap

/-! ### The password -/

/-- The buffer of `sstp_chap_hash_pass` after its loop: each byte of the password at an even place
of zeros. -/
def convertToUnicode (pass : List UInt8) : List UInt8 :=
  (List.range pass.length).foldl (fun buf inx => buf.set (2 * inx) (pass.getD inx 0))
    (List.replicate 512 0)

/-- What `sstp_chap_hash_pass` gives to the first MD4. -/
def chapUnicode (pass : List UInt8) : List UInt8 := (convertToUnicode pass).take (2 * pass.length)

variable (C : Crypto)

def sstpChapHashPass (pass : List UInt8) : Option (List UInt8) :=
  if pass.length > 255 then none else some (C.md4 (C.md4 (chapUnicode pass)).val).val

/-- The loop, after `n` rounds. -/
lemma convert_rounds {pass : List UInt8} {n : ℕ} (h256 : n ≤ 256) (hn : n ≤ pass.length) :
    (List.range n).foldl (fun buf inx => buf.set (2 * inx) (pass.getD inx 0))
        (List.replicate 512 0) =
      ((pass.take n).flatMap fun b => [b, 0]) ++ List.replicate (512 - 2 * n) 0 := by
  induction n with
  | zero => rfl
  | succ n ih =>
    have hbyte : pass.take (n + 1) = pass.take n ++ [pass.getD n 0] := by
      rw [List.take_succ_eq_append_getElem hn, List.getD_eq_getElem _ _ hn]
    have hfront : ((pass.take n).flatMap fun b => [b, 0]).length = 2 * n := by
      rw [List.length_flatMap]
      simp only [List.length_cons, List.length_nil, List.map_const', List.sum_replicate,
        List.length_take, smul_eq_mul]
      omega
    obtain ⟨k, hk⟩ : ∃ k, 512 - 2 * n = k + 2 := ⟨510 - 2 * n, by omega⟩
    have hnext : 512 - 2 * (n + 1) = k := by omega
    rw [List.range_succ, List.foldl_append, ih (by omega) (Nat.le_of_succ_le hn), hbyte, List.flatMap_append,
      hk, hnext]
    rw [List.foldl_cons, List.foldl_nil, List.set_append_right _ _ hfront.le, hfront,
      Nat.sub_self, List.append_assoc]
    rfl

/-- **The loop puts a zero behind each byte.** -/
lemma chapUnicode_eq {pass : List UInt8} (h : pass.length ≤ 255) :
    chapUnicode pass = pass.flatMap fun b => [b, 0] := by
  have hlen : (pass.flatMap fun b => [b, (0 : UInt8)]).length = 2 * pass.length := by
    rw [List.length_flatMap]
    simp only [List.length_cons, List.length_nil, List.map_const', List.sum_replicate, smul_eq_mul]
    omega
  unfold chapUnicode convertToUnicode
  rw [convert_rounds (Nat.le_succ_of_le h) le_rfl, List.take_length, List.take_left' hlen]

lemma unicodePassword_eq {pass : List UInt8} (h : pass.length ≤ 255) :
    unicodePassword pass = pass.flatMap fun b => [b, 0] := by
  unfold unicodePassword
  rw [List.take_of_length_le (Nat.le_succ_of_le h)]

/-- **Both hashes are taken over the UTF-16LE** of a password exactly if it is ASCII, without a
NUL. -/
theorem fed_utf16le_iff (password : List Char) (h : (utf8 password).length ≤ 255) :
    (unicodePassword (cstr (utf8 password)) = utf16le password ∧
      chapUnicode (cstr (utf8 password)) = utf16le password) ↔ ∀ c ∈ password, Ascii c := by
  have hlen : (cstr (utf8 password)).length ≤ 255 := (length_cstr_le _).trans h
  rw [unicodePassword_eq hlen, chapUnicode_eq hlen, and_self, zeroExtended_eq_iff]

theorem fed_utf16le_iff_clientPass :
    (unicodePassword (cstr (utf8 "clientPass".toList)) = utf16le "clientPass".toList ∧
      chapUnicode (cstr (utf8 "clientPass".toList)) = utf16le "clientPass".toList) ↔
        ∀ c ∈ "clientPass".toList, Ascii c :=
  fed_utf16le_iff _ (by decide)

/-- **A Cyrillic password**: the two bytes of its letter become two code units. -/
theorem cyrillic_not_utf16le :
    ¬ ∀ password : List Char, (utf8 password).length ≤ 255 →
      unicodePassword (cstr (utf8 password)) = utf16le password ∧
        chapUnicode (cstr (utf8 password)) = utf16le password := by
  intro h
  have hfed := (h ['я'] (by decide)).1
  have hdiff : unicodePassword (cstr (utf8 ['я'])) ≠ utf16le ['я'] := by decide
  exact hdiff hfed

/-! ### The keys -/

def chapSending : UInt8 := 0x01

def chapServer : UInt8 := 0x02

/-- "This is the MPPE Master Key". -/
def magic1 : List UInt8 :=
  [0x54, 0x68, 0x69, 0x73, 0x20, 0x69, 0x73, 0x20, 0x74, 0x68, 0x65, 0x20, 0x4d, 0x50,
    0x50, 0x45, 0x20, 0x4d, 0x61, 0x73, 0x74, 0x65, 0x72, 0x20, 0x4b, 0x65, 0x79]

/-- "On the client side, this is the send key; on the server side, it is the receive key." -/
def magic2 : List UInt8 :=
  [0x4f, 0x6e, 0x20, 0x74, 0x68, 0x65, 0x20, 0x63, 0x6c, 0x69, 0x65, 0x6e, 0x74, 0x20,
    0x73, 0x69, 0x64, 0x65, 0x2c, 0x20, 0x74, 0x68, 0x69, 0x73, 0x20, 0x69, 0x73, 0x20,
    0x74, 0x68, 0x65, 0x20, 0x73, 0x65, 0x6e, 0x64, 0x20, 0x6b, 0x65, 0x79, 0x3b, 0x20,
    0x6f, 0x6e, 0x20, 0x74, 0x68, 0x65, 0x20, 0x73, 0x65, 0x72, 0x76, 0x65, 0x72, 0x20,
    0x73, 0x69, 0x64, 0x65, 0x2c, 0x20, 0x69, 0x74, 0x20, 0x69, 0x73, 0x20, 0x74, 0x68,
    0x65, 0x20, 0x72, 0x65, 0x63, 0x65, 0x69, 0x76, 0x65, 0x20, 0x6b, 0x65, 0x79, 0x2e]

/-- "On the client side, this is the receive key; on the server side, it is the send key." -/
def magic3 : List UInt8 :=
  [0x4f, 0x6e, 0x20, 0x74, 0x68, 0x65, 0x20, 0x63, 0x6c, 0x69, 0x65, 0x6e, 0x74, 0x20,
    0x73, 0x69, 0x64, 0x65, 0x2c, 0x20, 0x74, 0x68, 0x69, 0x73, 0x20, 0x69, 0x73, 0x20,
    0x74, 0x68, 0x65, 0x20, 0x72, 0x65, 0x63, 0x65, 0x69, 0x76, 0x65, 0x20, 0x6b, 0x65,
    0x79, 0x3b, 0x20, 0x6f, 0x6e, 0x20, 0x74, 0x68, 0x65, 0x20, 0x73, 0x65, 0x72, 0x76,
    0x65, 0x72, 0x20, 0x73, 0x69, 0x64, 0x65, 0x2c, 0x20, 0x69, 0x74, 0x20, 0x69, 0x73,
    0x20, 0x74, 0x68, 0x65, 0x20, 0x73, 0x65, 0x6e, 0x64, 0x20, 0x6b, 0x65, 0x79, 0x2e]

def sstpChapHashMaster (phash ntResp : List UInt8) (mlen : ℕ) : List UInt8 :=
  (C.sha1 (phash ++ ntResp ++ magic1)).val.take mlen

/-- The choice of `sstp_chap_hash_session`. -/
def magicOf (flag : UInt8) : List UInt8 :=
  if chapSending &&& flag ≠ 0 then
    if chapServer &&& flag ≠ 0 then magic3 else magic2
  else
    if chapServer &&& flag ≠ 0 then magic2 else magic3

/-- The text that is hashed to a session key. -/
def sessionText (master magic : List UInt8) : List UInt8 :=
  master ++ List.replicate 40 0x00 ++ magic ++ List.replicate 40 0xf2

def sstpChapHashSession (master : List UInt8) (flag : UInt8) : List UInt8 :=
  (C.sha1 (sessionText master (magicOf flag))).val.take 16

/-- The send and the receive key. -/
def sstpChapMppeGet (ctx : Chap) (password : List UInt8) (server : UInt8) :
    Option (List UInt8 × List UInt8) :=
  let flag := if server ≠ 0 then 0 ||| chapSending else 0
  match sstpChapHashPass C password with
  | none => none
  | some phash =>
    let master := sstpChapHashMaster C phash ctx.ntResponse 16
    let rkey := sstpChapHashSession C master flag
    let flag := flag ||| chapSending
    let skey := sstpChapHashSession C master flag
    some (skey, rkey)

/-! ### The two ends -/

/-- The master key of a password that is not too long. -/
def masterOf (ctx : Chap) (password : List UInt8) : List UInt8 :=
  sstpChapHashMaster C (C.md4 (C.md4 (chapUnicode password)).val).val ctx.ntResponse 16

/-- The keys of a client, in the words of the two constants. -/
lemma mppeGet_client (ctx : Chap) {password : List UInt8} (h : password.length ≤ 255) :
    sstpChapMppeGet C ctx password 0 =
      some ((C.sha1 (sessionText (masterOf C ctx password) magic2)).val.take 16,
        (C.sha1 (sessionText (masterOf C ctx password) magic3)).val.take 16) := by
  unfold sstpChapMppeGet sstpChapHashPass
  rw [if_neg (not_lt.mpr h)]
  rfl

/-- **The keys of a server**: the flag for sending is set from the start, and both are the client's
send key. -/
lemma mppeGet_server (ctx : Chap) {password : List UInt8} (h : password.length ≤ 255) :
    sstpChapMppeGet C ctx password 1 =
      some ((C.sha1 (sessionText (masterOf C ctx password) magic2)).val.take 16,
        (C.sha1 (sessionText (masterOf C ctx password) magic2)).val.take 16) := by
  unfold sstpChapMppeGet sstpChapHashPass
  rw [if_neg (not_lt.mpr h)]
  rfl

/-- The keys that one end sends with are those the other end receives with. -/
def Mirrored (ctx : Chap) (password : List UInt8) : Prop :=
  ∃ client server, sstpChapMppeGet C ctx password 0 = some client ∧
    sstpChapMppeGet C ctx password 1 = some server ∧
    server.1 = client.2 ∧ server.2 = client.1

/-- **Mirrored keys**, exactly if SHA-1 does not tell the two constants apart. -/
theorem mirrored_iff (ctx : Chap) (password : List UInt8) (h : password.length ≤ 255) :
    Mirrored C ctx password ↔
      (C.sha1 (sessionText (masterOf C ctx password) magic2)).val.take 16 =
        (C.sha1 (sessionText (masterOf C ctx password) magic3)).val.take 16 := by
  constructor
  · rintro ⟨client, server, hclient, hserver, hsend, -⟩
    rw [mppeGet_client C ctx h, Option.some_inj] at hclient
    rw [mppeGet_server C ctx h, Option.some_inj] at hserver
    subst hclient hserver
    exact hsend
  · intro heq
    exact ⟨_, _, mppeGet_client C ctx h, mppeGet_server C ctx h, heq, rfl⟩

/-- Functions of which the second hash tells the constants apart by a byte. -/
def byteCrypto : Crypto where
  md4 _ := zeros 16
  sha1 text := ⟨List.replicate 20 (text.getD 88 0), List.length_replicate⟩
  oddParity key := key
  des _ _ := zeros 8

theorem mirrored_iff_byteCrypto :
    Mirrored byteCrypto ⟨[], [], List.replicate 24 0, 0⟩ [97] ↔
      (byteCrypto.sha1 (sessionText (masterOf byteCrypto ⟨[], [], List.replicate 24 0, 0⟩ [97])
          magic2)).val.take 16 =
        (byteCrypto.sha1 (sessionText (masterOf byteCrypto ⟨[], [], List.replicate 24 0, 0⟩ [97])
          magic3)).val.take 16 :=
  mirrored_iff _ _ _ (by decide)

/-- The server sends with the key it receives with. -/
theorem server_not_mirrored :
    ¬ ∀ (C : Crypto) (ctx : Chap) (password : List UInt8), password.length ≤ 255 →
      Mirrored C ctx password := by
  intro h
  obtain ⟨client, server, hclient, hserver, hsend, -⟩ :=
    h byteCrypto ⟨[], [], List.replicate 24 0, 0⟩ [97] (by decide)
  rw [mppeGet_client _ _ (by decide), Option.some_inj] at hclient
  rw [mppeGet_server _ _ (by decide), Option.some_inj] at hserver
  subst hclient hserver
  exact absurd hsend (by decide)

end SstpClient.ChapKeys
