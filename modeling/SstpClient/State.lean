import SstpClient.ConnectMsg
import SstpClient.StreamSpec

/-!
The SSTP state machine, `sstp-state.c`, on top of the stream.

Every control message is built in the one transmit buffer and handed to `sstp_stream_send`. A
handler is its part up to that call, the message, and what it does when the call returns.
-/

namespace SstpClient.State

open SstpClient.Lib.Bytes SstpClient.Lib.Footprint SstpClient.Lib.Footprint.ReadProg
open SstpClient.Buffer SstpClient.Packet SstpClient.ConnectMsg SstpClient.Stream SstpClient.StreamSpec

/-! ### The state -/

inductive Mode
  | client | server
  deriving DecidableEq

/-- What `state_cb` is called with. -/
inductive Signal
  | abort | connect | established | disconnect
  /-- `SSTP_FAIL`, the status of a receive that failed. -/
  | fail
  deriving DecidableEq

structure SstpState where
  mode : Mode
  established : Bool
  proto : UInt8
  status : ℕ
  echo : ℕ
  nounce : List UInt8
  mppeSendKey : List UInt8
  mppeRecvKey : List UInt8
  /-- `forward_cb` is set. -/
  forward : Bool
  deriving DecidableEq

def sstpStateCreate (mode : Mode) : SstpState :=
  ⟨mode, false, 0, 0, 0, List.replicate 32 0, [], [], false⟩

structure Env where
  /-- `sstp_get_cert_hash` for a hash protocol. -/
  certHash : UInt8 → Option { h : List UInt8 // h.length = 32 }
  /-- `sstp_cmac_result` for a hash protocol, the keys and a message. -/
  cmac : UInt8 → List UInt8 → List UInt8 → List UInt8 → { mac : List UInt8 // mac.length ≤ 32 }

inductive Message
  | connectReq
  | connected (certHash : List UInt8)
  | echoRequest
  | echoReply
  | disconnect
  | disconnectAck
  deriving DecidableEq

/-- A handler up to its call of `sstp_stream_send`. -/
structure Handled where
  st : SstpState
  sends : Option Message
  signals : List Signal
  forwards : Option (List UInt8)

def Handled.quiet (st : SstpState) : Handled := ⟨st, none, [], none⟩

def hashType (proto : UInt8) : UInt8 := if proto &&& 0x02 ≠ 0 then 0x02 else 0x01

/-! ### Building a message -/

/-- The data of the Crypto-Binding attribute, its MAC still zero. -/
def connectedData (type : UInt8) (nounce certHash : List UInt8) : List UInt8 :=
  splice (splice (splice (List.replicate 100 0) 3 [type]) 4 nounce) 36 certHash

/-- The message in the transmit buffer. `none`: memory outside the buffer would be written. -/
def construct (E : Env) (st : SstpState) (tx : Buff) : Message → Option (Status × Buff)
  | .connectReq =>
    let r := sstpPktInit tx .connectReq
    if r.1 ≠ .okay then some r else sstpPktAttr r.2 1 (htons 1)
  | .connected certHash =>
    let type := hashType st.proto
    let r := sstpPktInit tx .connected
    if r.1 ≠ .okay then some r
    else
      match sstpPktAttr r.2 3 (connectedData type st.nounce certHash) with
      | none => none
      | some (status, b) =>
        if status ≠ .okay then some (status, b)
        else
          let mac := E.cmac type st.mppeSendKey st.mppeRecvKey (b.data.take b.len.toNat)
          (b.write 80 mac.val).map fun b => (.okay, b)
  | .echoRequest => some (sstpPktInit tx .echoRequest)
  | .echoReply => some (sstpPktInit tx .echoReply)
  | .disconnect => some (sstpPktInit tx .disconnect)
  | .disconnectAck => some (sstpPktInit tx .disconnectAck)

def afterSend (m : Message) (status : Status) (st : SstpState) : SstpState × List Signal :=
  match m with
  | .connectReq => (st, if status ≠ .okay then [.abort] else [])
  | .connected _ =>
    ({ st with established := true }, if status = .okay then [.established] else [.abort])
  | .echoRequest => ({ st with echo := st.echo + 1 }, [])
  | .echoReply => (st, [])
  | .disconnect => (st, [])
  | .disconnectAck => (st, [.disconnect])

def notBuilt (m : Message) : List Signal :=
  match m with
  | .connectReq => [.abort]
  | .connected _ => [.abort]
  | .disconnectAck => [.disconnect]
  | _ => []

/-! ### The handlers -/

section Handlers

variable (E : Env) (st : SstpState)

def sstpStateStart : Handled :=
  if st.mode = .client then ⟨st, some .connectReq, [], none⟩ else .quiet st

/-- `sstp_state_accept`, with `sstp_state_send_connect` up to the message. -/
def sstpStateAccept : Handled :=
  if st.mode = .client then
    match E.certHash st.proto with
    | some certHash => ⟨st, some (.connected certHash), [], none⟩
    | none => ⟨st, none, [.abort], none⟩
  else .quiet st

def sstpStateMppeKeys (send recv : List UInt8) : SstpState :=
  { st with mppeSendKey := send.take 32, mppeRecvKey := recv.take 32 }

/-- A received packet of `len` bytes in the memory `mem`; `attrs` is what the array on the stack
holds. `none` where a handler reads outside the memory. -/
def sstpStateHandleCtrl (len : ℤ) (mem : ℤ → Option UInt8) (attrs : Attrs) (type : ℕ) :
    Option Handled :=
  if type = SstpMsg.connectAck.code then
    ((sstpStateConnectAck len attrs).eval mem).map fun
      | none => ⟨st, none, [.abort], none⟩
      | some (proto, nounce) =>
        ⟨{ st with proto := proto, nounce := nounce }, none, [.connect], none⟩
  else if type = SstpMsg.connectNak.code then
    ((sstpStateConnectNak len attrs).eval mem).map fun
      | none => .quiet st
      | some status => ⟨{ st with status := status }, some .disconnect, [], none⟩
  else if type = SstpMsg.abort.code then
    ((sstpStateConnectNak len attrs).eval mem).map fun
      | none => .quiet st
      | some status => ⟨{ st with status := status }, none, [.abort], none⟩
  else if type = SstpMsg.disconnect.code then
    ((sstpStateConnectNak len attrs).eval mem).map fun
      | none => ⟨st, none, [.disconnect], none⟩
      | some status => ⟨{ st with status := status }, some .disconnectAck, [], none⟩
  else if type = SstpMsg.disconnectAck.code then some ⟨st, none, [.disconnect], none⟩
  else if type = SstpMsg.echoRequest.code then some ⟨st, some .echoReply, [], none⟩
  else if type = SstpMsg.echoReply.code then some (.quiet { st with echo := 0 })
  else some (.quiet st)

/-- `sstp_state_handle_packet`; a data packet without `forward_cb` calls a null pointer. -/
def sstpStateHandlePacket (len : ℤ) (mem : ℤ → Option UInt8) (attrs : Attrs) : Option Handled :=
  match (sstpPktType len).eval mem with
  | none => none
  | some (.unknown, _) => some (.quiet st)
  | some (.data, _) =>
    if st.forward then
      ((readBytes 4 (len - 4).toNat).eval mem).map fun payload => ⟨st, none, [], some payload⟩
    else none
  | some (.ctrl, none) => some (.quiet st)
  | some (.ctrl, some type) => sstpStateHandleCtrl st len mem attrs type

/-- `sstp_state_recv` for `SSTP_TIMEOUT`. -/
def sstpStateTimeout : Handled :=
  if 4 < st.echo then ⟨st, none, [.abort], none⟩ else ⟨st, some .echoRequest, [], none⟩

end Handlers

/-! ### The state machine and the stream -/

def txBuf : ℕ := 0

/-- The state machine, the stream, the handler that waits for `sstp_stream_send`, and the calls
whose callback is `sstp_state_send_complete`. -/
structure Session where
  st : SstpState
  stream : SstpStream
  waits : Option Message
  controls : List ℕ

inductive Event
  | stream (e : Stream.Event)
  /-- `sstp_pkt_init` on the transmit buffer, while an operation in the queue refers to it or not. -/
  | init (queued : Bool)
  | handed (call : ℕ) (message : List UInt8)
  | signal (e : Signal)
  | forward (payload : List UInt8)
  /-- Memory outside a buffer is used. -/
  | overrun
  deriving DecidableEq

inductive Input
  | start
  | accept
  | mppeKeys (send recv : List UInt8)
  | setForward
  /-- A packet in the receive buffer, with what follows it there. -/
  | recv (packet tail : List UInt8) (attrs : Attrs)
  | timeout
  | recvFail
  | stream (i : Stream.Input)

def sstpCreate (mode : Mode) (bufs : ℕ → Buff) : Session :=
  ⟨sstpStateCreate mode, Stream.init (Function.update bufs txBuf (sstpBuffCreate 16384)), none, []⟩

variable (E : Env)

def returned (events : List Stream.Event) : Option Status :=
  events.findSome? fun
    | .returned _ status => some status
    | _ => none

def sstpStateSendComplete (controls : List ℕ) (events : List Stream.Event) : List Signal :=
  events.filterMap fun
    | .completed call status => if call ∈ controls ∧ status ≠ .okay then some .abort else none
    | _ => none

/-- The handler goes on when `sstp_stream_send` returns. -/
def resume (s : Session) (events : List Stream.Event) : Session × List Signal :=
  match s.waits, returned events with
  | some m, some status =>
    ({ s with st := (afterSend m status s.st).1, waits := none }, (afterSend m status s.st).2)
  | _, _ => (s, [])

lemma resume_stream (s : Session) (events : List Stream.Event) :
    (resume s events).1.stream = s.stream := by
  unfold resume
  split
  · rfl
  · rfl

def streamStep (s : Session) (r : SstpStream × List Stream.Event) : Session × List Event :=
  let s := { s with stream := r.1 }
  ((resume s r.2).1, r.2.map .stream ++
    (sstpStateSendComplete s.controls r.2 ++ (resume s r.2).2).map .signal)

def handOver (s : Session) (m : Message) : Session × List Event :=
  let queued := s.stream.send.any fun op => op.buf = txBuf
  match construct E s.st (s.stream.bufs txBuf) m with
  | none => (s, [.init queued, .overrun])
  | some (status, b) =>
    let stream := { s.stream with bufs := Function.update s.stream.bufs txBuf b }
    if status ≠ .okay then
      ({ s with stream := stream }, .init queued :: (notBuilt m).map .signal)
    else
      let call := stream.calls
      let s := { s with stream := stream, waits := some m, controls := call :: s.controls }
      let r := streamStep s (sendFrom stream .handler txBuf 10)
      (r.1, .init queued :: .handed call (remaining b) :: r.2)

def handle (s : Session) (h : Handled) : Session × List Event :=
  let s := { s with st := h.st }
  let events : List Event := h.signals.map .signal ++ (h.forwards.map Event.forward).toList
  match h.sends with
  | none => (s, events)
  | some m => ((handOver E s m).1, events ++ (handOver E s m).2)

/-- What an event of the state machine does, up to the message. -/
def handled (st : SstpState) : Input → Option Handled
  | .start => some (sstpStateStart st)
  | .accept => some (sstpStateAccept E st)
  | .mppeKeys send recv => some (.quiet (sstpStateMppeKeys st send recv))
  | .setForward => some (.quiet { st with forward := true })
  | .recv packet tail attrs =>
    sstpStateHandlePacket st packet.length (listMem (packet ++ tail)) attrs
  | .timeout => some (sstpStateTimeout st)
  | .recvFail => some ⟨st, none, [.fail], none⟩
  | .stream _ => some (.quiet st)

/-- The events of the state machine come from the event loop. The transmit buffer belongs to the
state machine. What does not fit does not happen. -/
def step (s : Session) : Input → Session × List Event
  | .stream (.build buf content) =>
    if buf = txBuf then (s, []) else streamStep s (Stream.step s.stream (.build buf content))
  | .stream (.send buf timeout) =>
    if buf = txBuf then (s, []) else streamStep s (Stream.step s.stream (.send buf timeout))
  | .stream i => streamStep s (Stream.step s.stream i)
  | i =>
    if s.stream.place = .idle then
      match handled E s.st i with
      | none => (s, [.overrun])
      | some h => handle E s h
    else (s, [])

end SstpClient.State
