import SstpClient.Deframe
import SstpClient.PacketBounds

/-!
What the Linux client takes from the packets of pppd: `ppp_process_data` with
`sstp_pppd_check_auth` and `sstp_pppd_ipup` of `sstp-pppd.c`.

Without the plugin, the MPPE keys and the moment the link is up are read off the packets pppd sends.
A send may block; the loop goes on when `ppp_send_complete` is called.
-/

namespace SstpClient.Snoop

open SstpClient.Lib.Bytes SstpClient.Lib.Footprint SstpClient.Lib.Footprint.ReadProg
open SstpClient.Buffer SstpClient.Packet SstpClient.Fcs SstpClient.Ppp
open SstpClient.Uplink (sstpPktUpdate)
open SstpClient.Deframe (Buffs)

/-! ### Reading a packet -/

def protoPap : ℕ := 0xc023
def protoEap : ℕ := 0xc227

def mschapValueLen : UInt8 := 49

def eapResponse : UInt8 := 2
def eaptTls : UInt8 := 13
def eaptMschapv2 : UInt8 := 26

/-- Where the packet begins, behind an HDLC header. -/
def skipHdlc : ReadProg UInt8 ℤ := do
  let b0 ← cell 0
  if b0 = 0xff then
    let b1 ← cell 1
    return if b1 = 0x03 then 2 else 0
  else return 0

/-- The value of a response, as it is copied into `sstp_chap_st`. -/
def readChap (value : List UInt8) : Chap :=
  ⟨value.take 16, (value.drop 16).take 8, (value.drop 24).take 24, value.getD 48 0⟩

inductive Seen
  /-- An MS-CHAPv2 response, in CHAP or in EAP. -/
  | response (chap : Chap)
  /-- The file with the password is to be deleted. -/
  | delete
  | pap
  /-- EAP-TLS, which is not supported. -/
  | tls
  | nothing
  deriving DecidableEq

/-- The protocol, in one byte if that is odd, and where the header is behind it. -/
def protocolAt (buf : ℤ) : ReadProg UInt8 (ℕ × ℤ) := do
  let b0 ← cell buf
  if b0 &&& 0x01 ≠ 0 then return (b0.toNat, buf + 1)
  else
    let b1 ← cell (buf + 1)
    return (be16 b0 b1, buf + 2)

/-- `sstp_pppd_check_auth`, up to what it does about what it has seen. -/
def sstpPppdCheckAuth : ReadProg UInt8 Seen := do
  let buf ← skipHdlc
  let (proto, hdr) ← protocolAt buf
  let buf := hdr + 4
  if proto = protoChap then
    let code ← cell hdr
    if code = chapResponse then
      let size ← cell buf
      if size = mschapValueLen then return .response (readChap (← readBytes (buf + 1) 49))
      else return .delete
    else if code = chapFailure then return .nothing
    else return .delete
  else if proto = protoEap then
    let code ← cell hdr
    if code = eapResponse then
      let type ← cell buf
      if type = eaptMschapv2 then
        let op ← cell (buf + 1)
        if op = chapResponse then
          let size ← cell (buf + 5)
          if size = mschapValueLen then return .response (readChap (← readBytes (buf + 6) 49))
          else return .nothing
        else return .nothing
      else if type = eaptTls then return .tls
      else return .nothing
    else return .nothing
  else if proto = protoPap then return .pap
  else return .nothing

/-- `sstp_pppd_ipup`: whether the packet is one of IPCP. -/
def sstpPppdIpup : ReadProg UInt8 Bool := do
  let buf ← skipHdlc
  let proto ← ntohs buf
  return decide (proto = protoIpcp)

/-! ### The check -/

/-- What `sstp_pppd_st` keeps for the check. -/
structure Auth where
  chap : Chap
  ipUp : Bool
  authDone : Bool
  authCheck : Bool
  delFile : Bool
  deriving DecidableEq

inductive Out
  /-- `SSTP_PPP_START`, `SSTP_PPP_AUTH` with the response in `chap`, `SSTP_PPP_UP`, `SSTP_PPP_DOWN`. -/
  | start
  | auth (chap : Chap)
  | up
  | down
  /-- A packet for `sstp_stream_send`. -/
  | send (packet : List UInt8)
  /-- The file with the password is deleted. -/
  | unlink
  /-- `sstp_die`. -/
  | die
  /-- Memory outside a buffer is used. -/
  | fault
  deriving DecidableEq

def sstpPppdDeltmp (a : Auth) : Auth × List Out :=
  if a.delFile then ({ a with delFile := false }, [.unlink]) else (a, [])

def Seen.act (a : Auth) : Seen → Auth × List Out
  | .response chap => ({ a with chap := chap, authDone := true }, [.auth chap])
  | .delete => sstpPppdDeltmp a
  | .pap => ({ (sstpPppdDeltmp a).1 with authDone := true }, (sstpPppdDeltmp a).2)
  | .tls => (a, [.die])
  | .nothing => (a, [])

/-- What is done under `auth_check`, with the memory of the packet. -/
def observe (a : Auth) (mem : List UInt8) : Option (Auth × List Out) := do
  let (a, seen) ←
    if a.authCheck && !a.authDone then (sstpPppdCheckAuth.eval (listMem mem)).map (Seen.act a)
    else some (a, [])
  let (a, up) ←
    if a.authCheck && a.authDone && !a.ipUp then
      (sstpPppdIpup.eval (listMem mem)).map fun up =>
        if up then ({ a with ipUp := true }, [.up]) else (a, [])
    else some (a, [])
  return (a, seen ++ up)

/-! ### The loop -/

/-- How a round of the loop ends, up to the check. -/
inductive Round
  /-- The function returns. -/
  | ends (status : Status) (ctx : Buffs)
  /-- A segment is dropped. -/
  | drops (ctx : Buffs)
  /-- There is a packet in `tx_buf`. -/
  | frame (ctx : Buffs)

def round (ctx : Buffs) : Option Round :=
  let rx := ctx.rx
  if rx.off < rx.len then
    let init := sstpPktInit ctx.tx .data
    if init.1 ≠ .okay then some (.ends .fail ⟨rx, init.2⟩)
    else do
      let tx := init.2
      let d ← sstpFrameDecode (rx.data.drop rx.off.toNat) (rx.len - rx.off) (tx.max - tx.len)
      let tx ← tx.write tx.len d.frame
      if d.status ≠ .okay then
        if d.status = .overflow ∨ rx.len = rx.off + d.length then
          let moved := (rx.data.drop rx.off.toNat).take (rx.len - rx.off).toNat
          let rx ← rx.write 0 moved
          return .ends .okay ⟨{ rx with len := d.length, off := 0 }, tx⟩
        else return .drops ⟨{ rx with off := rx.off + d.length }, tx⟩
      else
        let tx ← sstpPktUpdate { tx with len := tx.len + d.size }
        return .frame ⟨{ rx with off := rx.off + d.length }, tx⟩
  else if rx.off = rx.len then some (.ends .okay ⟨sstpBuffReset rx, ctx.tx⟩)
  else some (.ends .okay ctx)

/-- The packet in `tx_buf`. -/
def packetOf (ctx : Buffs) : List UInt8 := ctx.tx.data.take ctx.tx.len.toNat

/-- What `ppp_process_data` returns, and what it has done. -/
structure Result where
  status : Status
  buffs : Buffs
  auth : Auth
  outs : List Out

def Result.behind (front : List Out) (r : Result) : Result := { r with outs := front ++ r.outs }

/-- The loop of `ppp_process_data`; `sends` is what the calls of `sstp_stream_send` return, `SSTP_OKAY`
behind the end of the list. -/
def processLoop : ℕ → Buffs → Auth → List Status → Result
  | 0, ctx, a, _ => ⟨.fail, ctx, a, [.fault]⟩
  | fuel + 1, ctx, a, sends =>
    match round ctx with
    | none => ⟨.fail, ctx, a, [.fault]⟩
    | some (.ends status ctx) => ⟨status, ctx, a, []⟩
    | some (.drops ctx) => processLoop fuel ctx a sends
    | some (.frame ctx) =>
      match observe a (ctx.tx.data.drop 4) with
      | none => ⟨.fail, ctx, a, [.fault]⟩
      | some (a, seen) =>
        -- the process is gone behind `sstp_die`
        if .die ∈ seen then ⟨.fail, ctx, a, seen⟩
        else
          let outs := seen ++ [.send (packetOf ctx)]
          if sends.headD .okay ≠ .okay then ⟨.inprog, ctx, a, outs⟩
          else (processLoop fuel ctx a sends.tail).behind outs

/-- How much of the receive buffer is left. -/
def left (ctx : Buffs) : ℕ := (ctx.rx.len - ctx.rx.off).toNat

/-- `ppp_process_data`. Each round leaves a byte behind it. -/
def pppProcessData (ctx : Buffs) (a : Auth) (sends : List Status) : Result :=
  processLoop (left ctx + 1) ⟨ctx.rx, sstpBuffReset ctx.tx⟩ a sends

/-! ### The calls -/

/-- What the context waits for: `ev_recv`, or `ppp_send_complete`. -/
inductive Wait
  | read | send | nothing
  deriving DecidableEq

/-- `sstp_pppd_st`. -/
structure Pppd extends Buffs where
  auth : Auth
  first : Bool
  wait : Wait

inductive Input
  /-- The socket is readable: what `read` returns. -/
  | readable (chunk : List UInt8) (sends : List Status)
  /-- The stream is done with the packet that blocked. -/
  | complete (sends : List Status)

def waitOf : Status → Wait
  | .okay => .read
  | .inprog => .send
  | _ => .nothing

/-- The context behind a call of `ppp_process_data`. -/
def settle (ctx : Pppd) (r : Result) : Pppd := ⟨r.buffs, r.auth, ctx.first, waitOf r.status⟩

/-- `sstp_pppd_recv`. -/
def sstpPppdRecv (ctx : Pppd) (chunk : List UInt8) (sends : List Status) : Pppd × List Out :=
  let notified := if ctx.first then [.start] else []
  match ctx.rx.write ctx.rx.len chunk with
  | none => ({ ctx with first := false, wait := .nothing }, notified ++ [.fault])
  | some rx =>
    let ctx : Pppd := ⟨⟨{ rx with len := rx.len + chunk.length }, ctx.tx⟩, ctx.auth, false, .nothing⟩
    if ctx.rx.len ≤ 0 then (ctx, notified ++ [.down])
    else
      let r := pppProcessData ctx.toBuffs ctx.auth sends
      (settle ctx r, notified ++ r.outs)

/-- `ppp_send_complete`. -/
def pppSendComplete (ctx : Pppd) (sends : List Status) : Pppd × List Out :=
  let r := pppProcessData ctx.toBuffs ctx.auth sends
  (settle ctx r, r.outs)

/-- What does not fit does not happen. -/
def step (ctx : Pppd) : Input → Pppd × List Out
  | .readable chunk sends => if ctx.wait = .read then sstpPppdRecv ctx chunk sends else (ctx, [])
  | .complete sends => if ctx.wait = .send then pppSendComplete ctx sends else (ctx, [])

/-- Behind `sstp_pppd_create` and `sstp_pppd_start`, with a password or not. -/
def started (password : Bool) : Pppd where
  rx := sstpBuffCreate 16384
  tx := sstpBuffCreate 16384
  auth := ⟨⟨List.replicate 16 0, List.replicate 8 0, List.replicate 24 0, 0⟩, false, false, password,
    password⟩
  first := true
  wait := .read

/-- What is read from pppd in the run. -/
def reads : Pppd → List Input → List (List UInt8)
  | _, [] => []
  | ctx, i :: is =>
    let rest := reads (step ctx i).1 is
    match i with
    | .readable chunk _ => if ctx.wait = .read then chunk :: rest else rest
    | .complete _ => rest

end SstpClient.Snoop
