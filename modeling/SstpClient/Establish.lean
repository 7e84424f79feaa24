import SstpClient.ControlMsg
import SstpClient.Lib.Handler
import SstpClient.LinkUp
import SstpClient.Provider
import SstpClient.StateSpec

/-!
The session behind the HTTP upgrade: the SSTP state machine, the PPP endpoint, and the callbacks
`ios_state_cb` and `ios_pppd_cb` of `sstp-ios.c` between them.

`sstp_ios_fail_ex` leaves the event loop with `longjmp`, so that nothing behind it runs. What the
session does is justified at each step by what it has done before: the tunnel is reported ready
right behind the Call-Connected message, which binds the nonce of the last acknowledgement, the
certificate, and the keys of the last CHAP response.
-/

namespace SstpClient.Establish

open SstpClient.Lib.Handler SstpClient.Buffer SstpClient.Packet
open SstpClient.Ppp (Prims Pppd PppdEvent sstpPppdCreate sstpPppdStart)
open SstpClient.State (Env Signal Message Handled SstpState)
open SstpClient.Provider (ErrorCode Stage Failure)

/-! ### The session -/

/-- The parts of `sstp_ios_session` that the callbacks use. -/
structure Session where
  st : SstpState
  /-- `tx_buf` of the state machine. -/
  tx : Buff
  pppd : Option Pppd
  ready : Bool
  /-- `sstp_ios_fail_ex` has left the event loop. -/
  stopped : Bool

inductive Event
  /-- A Call-Connect-Ack is acted on. -/
  | acked (proto : UInt8) (nounce : List UInt8)
  /-- A PPP context is created. -/
  | created
  | frame (bytes : List UInt8)
  /-- `on_packet`. -/
  | packet (bytes : List UInt8)
  /-- The keys derived from a CHAP response go to both layers. -/
  | keyed (keys : List UInt8 × List UInt8)
  /-- A control message is handed to `sstp_stream_send`. -/
  | handed (m : Message) (bytes : List UInt8)
  /-- `on_ready`, with the context whose addresses are reported. -/
  | ready (ctx : Pppd)
  /-- `on_fail`. -/
  | failed (f : Failure)
  /-- Memory outside a buffer is used, or a loop does not end. -/
  | broken
  deriving DecidableEq

/-- What is taken from outside while an event is handled: the array a parser leaves uninitialised,
random numbers, memory for a context, and what `sstp_stream_send` returns. -/
structure Outside where
  attrs : Attrs
  peerChallenge : List UInt8
  magic : ℕ
  allocated : Bool
  status : Status

inductive Input
  /-- A packet in the receive buffer, with what follows it there. -/
  | recv (packet tail : List UInt8) (o : Outside)
  | timeout (o : Outside)
  | recvFail
  /-- `sstp_state_send_complete`. -/
  | sendComplete (status : Status)
  /-- A packet out of the inject pipe. -/
  | writeIp (packet : List UInt8) (o : Outside)

abbrev Part := Act Session Event

/-- One part after the other; nothing runs behind `sstp_ios_fail_ex`. -/
def seq (f g : Part) : Part := andThen Session.stopped f g

def sstpIosFailEx (code : ErrorCode) (stage : Stage) (message : String) : Part := fun s =>
  ({ s with stopped := true }, [.failed ⟨code, stage, message⟩])

def sstpAttrStatusStr : ℕ → String
  | 1 => "Received Duplicate Attribute"
  | 2 => "Unrecognized Attribute"
  | 3 => "Invalid Attribute Length"
  | 4 => "Value of attribute is incorrect"
  | 9 => "Attribute is invalid or not supported"
  | 10 => "Attribute is missing"
  | 11 => "Invalid info attribute"
  | _ => "Unknown Status Attribute"

def sstpStateReason (st : SstpState) : String :=
  if st.established then sstpAttrStatusStr st.status else "Reason was not known"

/-- The user, and the cryptographic functions. -/
structure Config where
  env : Env
  prims : Prims
  user : List UInt8
  password : List UInt8

/-- The branch of `ios_state_cb` for everything that ends the call. -/
def callEnded : Part := fun s =>
  sstpIosFailEx .sstpControl .sstpControl (sstpStateReason s.st) s

/-- The signals of a message that is sent, which do not include `SSTP_CALL_CONNECT`. -/
def messageSignal : Signal → Part
  | .established => skip
  | _ => callEnded

section Callbacks

variable (C : Config) (o : Outside)

/-- A message is built in the transmit buffer and handed to `sstp_stream_send`, and the handler goes
on. -/
def sendMessage (m : Message) : Part := fun s =>
  match State.construct C.env s.st s.tx m with
  | none => ({ s with stopped := true }, [.broken])
  | some (built, b) =>
    if built ≠ .okay then
      forEach Session.stopped messageSignal (State.notBuilt m) { s with tx := b }
    else
      let r := State.afterSend m o.status s.st
      seq (emit (.handed m (StreamSpec.remaining b)))
        (seq (update fun s => { s with st := r.1 })
          (forEach Session.stopped messageSignal r.2)) { s with tx := b }

/-- `sstp_state_accept`. -/
def accept : Part := fun s =>
  match C.env.certHash s.st.proto with
  | some certHash => sendMessage C o (.connected certHash) s
  | none => callEnded s

/-- `ios_pppd_cb`. -/
def iosPppdCb (ctx : Pppd) : PppdEvent → Part
  | .start => skip
  | .down => sstpIosFailEx .networkLost .pppLcp "PPP connection terminated"
  | .authFail => sstpIosFailEx .authRejected .pppAuth "Authentication rejected by server"
  | .auth =>
    match C.prims.mppeGet ctx.chap with
    | none => sstpIosFailEx .mppeFailed .pppMppe "Could not derive MPPE keys"
    | some keys => seq (update fun s => { s with st := State.sstpStateMppeKeys s.st keys.1 keys.2 })
        (emit (.keyed keys))
  | .up => seq (accept C o) (seq (update fun s => { s with ready := true }) (emit (.ready ctx)))

def iosIpHandler (ip : List UInt8) : Part := if 0 < ip.length then emit (.packet ip) else skip

/-- What a handler of the PPP layer does to the outside. -/
def perform : Ppp.Out → Part
  | .frame bytes => emit (.frame bytes)
  | .ip packet => iosIpHandler packet
  | .notify event ctx => iosPppdCb C o ctx event
  | .overrun => emit .broken
  | .hang => emit .broken

/-- The PPP layer handles an input. -/
def pppStep (i : Ppp.Input) : Part := fun s =>
  match s.pppd with
  | none => (s, [])
  | some ctx =>
    let r := Ppp.step C.prims ctx i
    forEach Session.stopped (perform C o) r.2 { s with pppd := some r.1 }

/-- `ios_state_cb` for `SSTP_CALL_CONNECT`. -/
def callConnect : Part :=
  if o.allocated then
    let r := sstpPppdStart C.user C.password (sstpPppdCreate o.magic)
    seq (fun s => ({ s with pppd := some r.1 }, [.created]))
      (seq (forEach Session.stopped (perform C o) r.2)
        (update fun s => { s with st := { s.st with forward := true } }))
  else sstpIosFailEx .internal .pppLcp "Could not create PPP context"

/-- `ios_state_cb`, from the state machine. -/
def iosStateCb : Signal → Part
  | .connect => fun s => seq (emit (.acked s.st.proto s.st.nounce)) (callConnect C o) s
  | .established => skip
  | _ => callEnded

/-- A handler of the state machine. -/
def handle (h : Handled) : Part :=
  seq (update fun s => { s with st := h.st })
    (seq (forEach Session.stopped (iosStateCb C o) h.signals)
      (seq (match h.forwards with
          | some frame => pppStep C o (.frame frame o.peerChallenge)
          | none => skip)
        (match h.sends with
          | some m => sendMessage C o m
          | none => skip)))

end Callbacks

section Step

variable (C : Config)

/-- The handler of an input of the state machine. -/
def handleInput (o : Outside) (i : State.Input) : Part := fun s =>
  match State.handled C.env s.st i with
  | some h => handle C o h s
  | none => ({ s with stopped := true }, [.broken])

/-- An event of the loop, which is left once the session has failed. -/
def step (s : Session) (i : Input) : Session × List Event :=
  if s.stopped then (s, [])
  else
    match i with
    | .recv packet tail o => handleInput C o (.recv packet tail o.attrs) s
    | .timeout o => handleInput C o .timeout s
    | .recvFail => callEnded s
    | .sendComplete status => if status = .okay then (s, []) else callEnded s
    | .writeIp packet o => pppStep C o (.sendIp packet) s

/-- The end of `ios_http_done`: the state machine is created and started. -/
def begin (o : Outside) : Session × List Event :=
  handleInput C o .start
    ⟨State.sstpStateCreate .client, sstpBuffCreate 16384, none, false, false⟩

end Step

end SstpClient.Establish
