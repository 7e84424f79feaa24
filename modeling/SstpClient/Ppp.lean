import SstpClient.Lib.Bytes
import SstpClient.Lib.Machine
import SstpClient.Lib.Ratchet

/-!
The PPP endpoint inside the client, `ios-pppd.c`: LCP, MS-CHAPv2, CCP, IPCP and MPPE.

A handler takes the context to the next one and puts out what it does to the outside: frames
for the transmit queue, notifications, and IP packets for the application. The answer of
`ios_pppd_cb` to the notification that a response was sent, which sets the MPPE keys, is part
of the handler. Cryptographic functions are parameters.
-/

namespace SstpClient.Ppp

open SstpClient.Lib.Bytes SstpClient.Lib.Ratchet

/-! ### The context -/

structure Chap where
  challenge : List UInt8
  response : List UInt8
  ntResponse : List UInt8
  flags : UInt8
  deriving DecidableEq

/-- `RC4_KEY`: the key it was set from, and how much of its keystream has been used. -/
structure Rc4Key where
  key : List UInt8
  pos : ℕ
  deriving DecidableEq

/-- The keys of one direction: the fields `mppe_master_*`, `mppe_session_*`, `rc4_*` and
`mppe_*_ccount`. -/
structure Direction where
  master : List UInt8
  session : List UInt8
  rc4 : Rc4Key
  ccount : ℕ
  deriving DecidableEq

/-- The fields `mppe_enabled`, `mppe_keys_set` and those of the two directions. -/
structure Mppe where
  enabled : Bool
  keysSet : Bool
  send : Direction
  recv : Direction
  deriving DecidableEq

structure Prims where
  newKeyFromSha : List UInt8 → List UInt8 → List UInt8
  /-- The keystream of `RC4` for a key. -/
  keystream : List UInt8 → ℕ → UInt8
  /-- `sstp_mschapv2_generate_nt_response`, of the two challenges, user name and password. -/
  ntResponse : List UInt8 → List UInt8 → List UInt8 → List UInt8 → List UInt8
  /-- `sstp_chap_mppe_get` with the session's password: the send and the receive key. -/
  mppeGet : Chap → Option (List UInt8 × List UInt8)

inductive PppdEvent
  | down | up | authFail | auth | start
  deriving DecidableEq

/-- `struct sstp_pppd`, as far as the handlers use it. -/
structure Pppd where
  chap : Chap
  username : List UInt8
  password : List UInt8
  lcpId : UInt8
  chapId : UInt8
  ipcpId : UInt8
  ccpId : UInt8
  magic : ℕ
  lcpOpened : Bool
  authDone : Bool
  ipConfigured : Bool
  ccpDone : Bool
  upNotified : Bool
  localIp : ℕ
  peerIp : ℕ
  dns1 : ℕ
  dns2 : ℕ
  mppe : Mppe
  deriving DecidableEq

/-- What a handler does to the outside. -/
inductive Out
  | frame (bytes : List UInt8)
  /-- `ctx->notify`; the callback finds the context as it is then. -/
  | notify (event : PppdEvent) (ctx : Pppd)
  | ip (packet : List UInt8)
  /-- A fixed array is written past its end. -/
  | overrun
  /-- A loop that does not end. -/
  | hang
  deriving DecidableEq

abbrev Act := Pppd → Pppd × List Out

def Act.seq (f g : Act) : Act := fun ctx => ((g (f ctx).1).1, (f ctx).2 ++ (g (f ctx).1).2)

def emit (o : Out) : Act := fun ctx => (ctx, [o])

def notify (event : PppdEvent) : Act := fun ctx => (ctx, [.notify event ctx])

def update (f : Pppd → Pppd) : Act := fun ctx => (f ctx, [])

def skip : Act := fun ctx => (ctx, [])

/-! Assignments to single fields. -/

def setLcpOpened (ctx : Pppd) : Pppd := { ctx with lcpOpened := true }

def setAuthDone (ctx : Pppd) : Pppd := { ctx with authDone := true }

def setIpConfigured (ctx : Pppd) : Pppd := { ctx with ipConfigured := true }

def setCcpDone (ctx : Pppd) : Pppd := { ctx with ccpDone := true }

def setUpNotified (ctx : Pppd) : Pppd := { ctx with upNotified := true }

def setChap (id : UInt8) (chap : Chap) (ctx : Pppd) : Pppd := { ctx with chapId := id, chap := chap }

/-! ### Constants -/

def protoLcp : ℕ := 0xc021
def protoChap : ℕ := 0xc223
def protoIpcp : ℕ := 0x8021
def protoCcp : ℕ := 0x80fd
def protoMppe : ℕ := 0x003d
def protoIp : ℕ := 0x0021

def mru : ℕ := 1400

def fsmConfReq : UInt8 := 1
def fsmConfAck : UInt8 := 2
def fsmConfNak : UInt8 := 3
def fsmConfRej : UInt8 := 4
def fsmTermReq : UInt8 := 5
def fsmTermAck : UInt8 := 6
def fsmEchoReq : UInt8 := 9
def fsmEchoRep : UInt8 := 10

def chapChallenge : UInt8 := 1
def chapResponse : UInt8 := 2
def chapSuccess : UInt8 := 3
def chapFailure : UInt8 := 4

def ciMru : UInt8 := 1
def ciMagic : UInt8 := 5
def ciMppc : UInt8 := 18
def ciAddr : UInt8 := 3
def ciMsDns1 : UInt8 := 129
def ciMsDns2 : UInt8 := 131

section Handlers

variable (P : Prims)

/-! ### MPPE keys -/

/-- `RC4`: the bytes, and the key state after them. -/
def rc4 (k : Rc4Key) (data : List UInt8) : List UInt8 × Rc4Key :=
  (data.mapIdx fun i b => b ^^^ P.keystream k.key (k.pos + i), { k with pos := k.pos + data.length })

def mppeRekey (d : Direction) (initial : Bool) : Direction :=
  let digest := P.newKeyFromSha d.master d.session
  let session := if initial then digest else (rc4 P ⟨digest, 0⟩ digest).1
  { d with session := session, rc4 := ⟨session, 0⟩ }

/-- One direction after `mppe_init_keys`: the first packet advances the count to 0. -/
def initDirection (d : Direction) : Direction :=
  { mppeRekey P { d with session := d.master } true with ccount := 0xfff }

def mppeInitKeys (m : Mppe) : Mppe :=
  if m.keysSet then
    { m with enabled := true, send := initDirection P m.send, recv := initDirection P m.recv }
  else m

/-- The next count with its key. -/
def advance (d : Direction) : Direction :=
  { mppeRekey P d false with ccount := (d.ccount + 1) % 4096 }

def sstpPppdSetMppeKeys (keys : List UInt8 × List UInt8) (m : Mppe) : Mppe :=
  { m with
      keysSet := true, send := { m.send with master := keys.1 },
      recv := { m.recv with master := keys.2 } }

/-! ### Sending -/

/-- `ppp_send_frame`; false is `SSTP_FAIL`. -/
def pppSendFrame (proto : ℕ) (payload : List UInt8) : Bool × List Out :=
  if mru < payload.length then (false, [])
  else (true, [.frame ([0xff, 0x03] ++ toBe16 proto ++ payload)])

def sendFrame (proto : ℕ) (payload : List UInt8) : Act := fun ctx =>
  (ctx, (pppSendFrame proto payload).2)

/-- `ppp_send_ip_plain_or_mppe`. -/
def pppSendIpPlainOrMppe (ip : List UInt8) (ctx : Pppd) : Bool × Pppd × List Out :=
  if ip.length = 0 ∨ mru - 4 < ip.length then (false, ctx, [])
  else if ¬ ctx.mppe.enabled then
    ((pppSendFrame protoIp ip).1, ctx, (pppSendFrame protoIp ip).2)
  else
    let d := advance P ctx.mppe.send
    let enc := rc4 P d.rc4 (toBe16 protoIp ++ ip)
    let payload := [0x90 ||| UInt8.ofNat (d.ccount / 256), UInt8.ofNat d.ccount] ++ enc.1
    ((pppSendFrame protoMppe payload).1,
      { ctx with mppe := { ctx.mppe with send := { d with rc4 := enc.2 } } },
      (pppSendFrame protoMppe payload).2)

def sstpPppdSendIp (ip : List UInt8) (ctx : Pppd) : Bool × Pppd × List Out :=
  pppSendIpPlainOrMppe P ip ctx

def putOpt (type : UInt8) (val : List UInt8) : List UInt8 :=
  [type, UInt8.ofNat (2 + val.length)] ++ val

/-- A request with its length field. -/
def confReq (id : UInt8) (options : List UInt8) : List UInt8 :=
  [fsmConfReq, id] ++ toBe16 (4 + options.length) ++ options

def sendLcpConfReq : Act := fun ctx =>
  let ctx := { ctx with lcpId := ctx.lcpId + 1 }
  sendFrame protoLcp
    (confReq ctx.lcpId (putOpt ciMru (toBe16 mru) ++ putOpt ciMagic (toBe32 ctx.magic))) ctx

def sendIpcpConfReq : Act := fun ctx =>
  let ctx := { ctx with ipcpId := ctx.ipcpId + 1 }
  sendFrame protoIpcp
    (confReq ctx.ipcpId (putOpt ciAddr (toBe32 ctx.localIp) ++ putOpt ciMsDns1 (toBe32 ctx.dns1) ++
      putOpt ciMsDns2 (toBe32 ctx.dns2))) ctx

/-- Stateless (H) + 128-bit (S). -/
def sendCcpConfReq : Act := fun ctx =>
  let ctx := { ctx with ccpId := ctx.ccpId + 1 }
  sendFrame protoCcp (confReq ctx.ccpId (putOpt ciMppc [0x01, 0x00, 0x00, 0x40])) ctx

/-! ### The link comes up -/

def maybeNotifyUp : Act := fun ctx =>
  if ctx.upNotified then (ctx, [])
  else if ¬ ctx.ipConfigured ∨ ctx.localIp = 0 then (ctx, [])
  else if ¬ ctx.ccpDone then (ctx, [])
  else ((update setUpNotified).seq (notify .up)) ctx

def ccpFinished : Act := fun ctx =>
  if ctx.ccpDone then maybeNotifyUp ctx
  else
    ((update setCcpDone).seq
      ((if ctx.authDone then sendIpcpConfReq else skip).seq maybeNotifyUp)) ctx

def mppeDisable (ctx : Pppd) : Pppd := { ctx with mppe := { ctx.mppe with enabled := false } }

def mppeInit (ctx : Pppd) : Pppd := { ctx with mppe := mppeInitKeys P ctx.mppe }

/-! ### Received frames -/

/-- The bytes a handler takes into account: those the length field says, if there are as many. -/
def body (buf : List UInt8) : List UInt8 := buf.take (be16 (buf.getD 2 0) (buf.getD 3 0))

/-- A received request turned into its answer. -/
def reply (buf : List UInt8) (code : UInt8) : List UInt8 := (body buf).set 0 code

def handleLcp (buf : List UInt8) : Act := fun ctx =>
  if buf.length < 4 then (ctx, [])
  else if buf.getD 0 0 = fsmConfReq then
    if 256 < (body buf).length then (ctx, [])
    else ((sendFrame protoLcp (reply buf fsmConfAck)).seq
      (if ctx.lcpOpened then skip else sendLcpConfReq)) ctx
  else if buf.getD 0 0 = fsmConfAck then update setLcpOpened ctx
  else if buf.getD 0 0 = fsmConfNak ∨ buf.getD 0 0 = fsmConfRej then sendLcpConfReq ctx
  else if buf.getD 0 0 = fsmTermReq then
    ((sendFrame protoLcp [fsmTermAck, buf.getD 1 0, 0, 4]).seq (notify .down)) ctx
  else if buf.getD 0 0 = fsmEchoReq then
    if 64 < (body buf).length then (ctx, [])
    else
      let echo := reply buf fsmEchoRep
      sendFrame protoLcp
        (if 8 ≤ echo.length then splice echo 4 (toBe32 ctx.magic) else echo) ctx
  else (ctx, [])

/-- What `ios_pppd_cb` does to the context when it is told that a response was sent. Without keys
the session ends; here the endpoint goes on, as behind `.down` and `.authFail`, and a session's run
is one that takes no input after that. -/
def iosPppdAuth : Act := fun ctx =>
  match P.mppeGet ctx.chap with
  | none => (ctx, [])
  | some keys => ({ ctx with mppe := sstpPppdSetMppeKeys keys ctx.mppe }, [])

/-- What is stored of the response to the challenge in `buf`; `peerChallenge` is what
`RAND_bytes` yields. -/
def chapOf (peerChallenge buf : List UInt8) (ctx : Pppd) : Chap :=
  ⟨peerChallenge, List.replicate 8 0,
    P.ntResponse ((buf.drop 5).take 16) peerChallenge ctx.username ctx.password, 0⟩

/-- The response: its value is the stored one, and the name is cut at 200 bytes. -/
def chapResponseBody (id : UInt8) (chap : Chap) (username : List UInt8) : List UInt8 :=
  let name := username.take 200
  [chapResponse, id] ++ toBe16 (5 + 49 + name.length) ++ [49] ++
    (chap.challenge ++ chap.response ++ chap.ntResponse ++ [chap.flags]) ++ name

/-- The part of `handle_chap` that answers a challenge. -/
def chapRespond (peerChallenge buf : List UInt8) : Act := fun ctx =>
  let chap := chapOf P peerChallenge buf ctx
  ((update (setChap (buf.getD 1 0) chap)).seq
    ((sendFrame protoChap (chapResponseBody (buf.getD 1 0) chap ctx.username)).seq
      ((notify .auth).seq (iosPppdAuth P)))) ctx

def handleChap (peerChallenge buf : List UInt8) : Act :=
  if buf.length < 5 then skip
  else if buf.getD 0 0 ≠ chapChallenge then
    if buf.getD 0 0 = chapSuccess then
      (update setAuthDone).seq sendCcpConfReq
    else if buf.getD 0 0 = chapFailure then notify .authFail
    else skip
  else if (buf.getD 4 0).toNat < 16 ∨ buf.length < 5 + (buf.getD 4 0).toNat then skip
  else chapRespond P peerChallenge buf

/-- The loops of `handle_ipcp`: `set` is told each option of six bytes, by its type and value. -/
def ipcpOptions (set : UInt8 → ℕ → Pppd → Pppd) (buf : List UInt8) : ℕ → ℕ → Pppd → Pppd
  | 0, _, ctx => ctx
  | fuel + 1, pos, ctx =>
    if pos + 2 ≤ buf.length then
      let olen := (buf.getD (pos + 1) 0).toNat
      if olen < 2 ∨ buf.length < pos + olen then ctx
      else
        let value := be32 (buf.getD (pos + 2) 0) (buf.getD (pos + 3) 0) (buf.getD (pos + 4) 0)
          (buf.getD (pos + 5) 0)
        ipcpOptions set buf fuel (pos + olen) (if olen = 6 then set (buf.getD pos 0) value ctx else ctx)
    else ctx

def setPeerIp (type : UInt8) (value : ℕ) (ctx : Pppd) : Pppd :=
  if type = ciAddr then { ctx with peerIp := value } else ctx

def setLocalIp (type : UInt8) (value : ℕ) (ctx : Pppd) : Pppd :=
  if type = ciAddr then { ctx with localIp := value }
  else if type = ciMsDns1 then { ctx with dns1 := value }
  else if type = ciMsDns2 then { ctx with dns2 := value }
  else ctx

def readOptions (set : UInt8 → ℕ → Pppd → Pppd) (buf : List UInt8) (ctx : Pppd) : Pppd :=
  ipcpOptions set (body buf) (body buf).length 4 ctx

/-- Some servers skip CCP and jump to IPCP after auth. -/
def ipcpBeforeCcp : Act := fun ctx =>
  if ¬ ctx.ccpDone ∧ ctx.authDone then ((update mppeDisable).seq ccpFinished) ctx else (ctx, [])

/-- The end of an acknowledgement. -/
def ipcpAcked : Act := fun ctx =>
  if ctx.localIp ≠ 0 then
    ((update setIpConfigured).seq maybeNotifyUp) ctx
  else (ctx, [])

/-- The `switch` of `handle_ipcp`. -/
def ipcpSwitch (buf : List UInt8) : Act :=
  if buf.getD 0 0 = fsmConfReq then
    (update (readOptions setPeerIp buf)).seq
      (if 128 < (body buf).length then skip else sendFrame protoIpcp (reply buf fsmConfAck))
  else if buf.getD 0 0 = fsmConfAck then (update (readOptions setLocalIp buf)).seq ipcpAcked
  else if buf.getD 0 0 = fsmConfNak then
    (update (readOptions setLocalIp buf)).seq sendIpcpConfReq
  else skip

def handleIpcp (buf : List UInt8) : Act :=
  if buf.length < 4 then skip else ipcpBeforeCcp.seq (ipcpSwitch buf)

def handleCcp (buf : List UInt8) : Act :=
  if buf.length < 4 then skip
  else if buf.getD 0 0 = fsmConfReq then
    if 64 < (body buf).length then skip
    else (sendFrame protoCcp (reply buf fsmConfAck)).seq ((update (mppeInit P)).seq ccpFinished)
  else if buf.getD 0 0 = fsmConfAck then (update (mppeInit P)).seq ccpFinished
  else if buf.getD 0 0 = fsmConfRej ∨ buf.getD 0 0 = fsmConfNak then
    (update mppeDisable).seq ccpFinished
  else skip

/-- The catch-up loop of `handle_mppe`, given up after `fuel` turns. -/
def catchUp (ccount fuel : ℕ) (d : Direction) : Option Direction :=
  loopUntil (advance P) (fun d => d.ccount = ccount) fuel d

/-- The protocol field of a frame, of one byte or two, and what follows it. -/
def protocol : List UInt8 → Option (ℕ × List UInt8)
  | [] => none
  | [b] => if b &&& 1 ≠ 0 then some (b.toNat, []) else none
  | b :: b' :: bs => if b &&& 1 ≠ 0 then some (b.toNat, b' :: bs) else some (be16 b b', bs)

def ccountOf (buf : List UInt8) : ℕ := (buf.getD 0 0 &&& 0x0f).toNat * 256 + (buf.getD 1 0).toNat

/-- The part of `handle_mppe` behind the loop: `dec` is a fixed array. -/
def mppeDecrypt (d : Direction) (buf : List UInt8) : Act := fun ctx =>
  if mru + 16 < buf.length - 2 then
    ({ ctx with mppe := { ctx.mppe with recv := d } }, [.overrun])
  else
    let dec := rc4 P d.rc4 (buf.drop 2)
    ({ ctx with mppe := { ctx.mppe with recv := { d with rc4 := dec.2 } } },
      match protocol dec.1 with
      | some (proto, p) => if proto = protoIp ∧ p ≠ [] then [.ip p] else []
      | none => [])

def handleMppe (buf : List UInt8) : Act := fun ctx =>
  if buf.length < 3 ∨ ¬ ctx.mppe.enabled then (ctx, [])
  else
    match catchUp P (ccountOf buf) 4096 ctx.mppe.recv with
    | none => (ctx, [.hang])
    | some d => mppeDecrypt P d buf ctx

/-- The address and control field of a frame, where it is there, taken off. -/
def stripAddress (frame : List UInt8) : List UInt8 :=
  if frame.take 2 = [0xff, 0x03] then frame.drop 2 else frame

/-- What `ppp_dispatch` makes of a frame: its protocol and the rest. -/
def parseFrame (frame : List UInt8) : Option (ℕ × List UInt8) :=
  if frame.length < 3 then none
  else if (stripAddress frame).length < 2 then none
  else protocol (stripAddress frame)

def pppDispatch (peerChallenge frame : List UInt8) : Act :=
  match parseFrame frame with
  | none => skip
  | some (proto, p) =>
    if proto = protoLcp then handleLcp p
    else if proto = protoChap then handleChap P peerChallenge p
    else if proto = protoIpcp then handleIpcp p
    else if proto = protoCcp then handleCcp P p
    else if proto = protoMppe then handleMppe P p
    else if proto = protoIp then emit (.ip p)
    else skip

/-! ### The link -/

/-- `sstp_pppd_create`; the fields are zero. -/
def sstpPppdCreate (magic : ℕ) : Pppd where
  chap := ⟨List.replicate 16 0, List.replicate 8 0, List.replicate 24 0, 0⟩
  username := []
  password := []
  lcpId := 0
  chapId := 0
  ipcpId := 0
  ccpId := 0
  magic := magic
  lcpOpened := false
  authDone := false
  ipConfigured := false
  ccpDone := false
  upNotified := false
  localIp := 0
  peerIp := 0
  dns1 := 0
  dns2 := 0
  mppe := ⟨false, false, ⟨List.replicate 16 0, List.replicate 16 0, ⟨[], 0⟩, 0⟩,
    ⟨List.replicate 16 0, List.replicate 16 0, ⟨[], 0⟩, 0⟩⟩

def sstpPppdStart (user password : List UInt8) : Act :=
  (update fun ctx => { ctx with username := user.take 255, password := password.take 255 }).seq
    ((notify .start).seq sendLcpConfReq)

/-- What happens to the endpoint: a frame from the server, with the random bytes a response to it
would take, or an IP packet from the application. -/
inductive Input
  | frame (bytes : List UInt8) (peerChallenge : List UInt8)
  | sendIp (packet : List UInt8)
  deriving DecidableEq

def step (ctx : Pppd) : Input → Pppd × List Out
  | .frame bytes peerChallenge => pppDispatch P peerChallenge bytes ctx
  | .sendIp packet => (sstpPppdSendIp P packet ctx).2

end Handlers

end SstpClient.Ppp
