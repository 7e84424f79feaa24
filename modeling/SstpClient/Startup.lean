import SstpClient.BuffPrint
import SstpClient.Http
import SstpClient.HttpResponse
import SstpClient.Lib.Handler
import SstpClient.StreamSpec
import SstpClient.Trust

/-!
The way of a session to the SSTP state machine: the connect and the TLS handshake of
`sstp-stream.c`, the request and the response of `sstp-http.c`, and what `sstp-ios.c` does when
each of them is done.

Every part is driven by the event loop. An event is set anew by each part that waits, and the
operation of the connect stays at the head of the queue until the handshake is over.
-/

namespace SstpClient.Startup

open SstpClient.Lib.Bytes SstpClient.Lib.CString SstpClient.Lib.Machine SstpClient.Lib.Handler
open SstpClient.Buffer SstpClient.BuffPrint SstpClient.Http SstpClient.HttpResponse
open SstpClient.Recv (SslRead)
open SstpClient.Stream (Interest SslWrite)
open SstpClient.Tls (Library Params Peer Verify)

/-! ### The session -/

/-- The callback of an operation: `ios_connected` or `sstp_http_send_complete`. -/
inductive Complete
  | connected | httpSent
  deriving DecidableEq

inductive EventFn
  | connectComplete | handshakeCont | sendCont
  deriving DecidableEq

/-- `sstp_operation_st`, the buffer of which is that of the HTTP context. -/
structure Operation where
  complete : Complete
  timeout : ℕ
  deriving DecidableEq

structure Pending where
  interest : Interest
  timeout : ℕ
  fn : EventFn
  deriving DecidableEq

structure Session where
  send : List Operation
  sendCb : EventFn
  evSend : Option Pending
  evRecv : Option ℕ
  http : Option Buff
  /-- What the server has sent and nobody has read. -/
  wire : List UInt8
  control : Bool
  /-- `sstp_ios_fail_ex` has left the event loop. -/
  stopped : Bool

/-- How `SSL_do_handshake` goes: without an error it returns a number. -/
inductive Handshake
  | done (ret : ℤ) | wantRead | wantWrite | failed
  deriving DecidableEq

variable {Cert : Type}

inductive Event (Cert : Type)
  | tls (e : Tls.Event Cert)
  | handshook (r : Handshake)
  | connected (status : Status)
  /-- The `SSL_write`s of a call of `sstp_stream_send` have taken the bytes. -/
  | wrote (bytes : List UInt8)
  /-- The `SSL_read`s of a call of `sstp_stream_recv_http` have got the bytes. -/
  | received (bytes : List UInt8)
  | httpDone (status : Status)
  | broken

structure Config (Cert : Type) where
  lib : Library Cert
  params : Params
  peer : Peer Cert
  server : List UInt8
  uuid : List UInt8

/-- What the functions outside return while an event is handled. -/
structure Outside (Cert : Type) where
  setup : Status
  verifies : List (Verify Cert)
  handshake : Handshake
  httpCreate : Status
  /-- The `SSL_write`s of each call of `sstp_stream_send`. -/
  writes : List (List SslWrite)
  reads : List SslRead
  erange : Bool
  /-- `http_header_st array[32]` on the stack. -/
  array : { a : List HttpHeader // a.length = 32 }
  stateCreate : Status
  stateStart : Status

inductive Input (Cert : Type)
  | arrive (bytes : List UInt8)
  | sendReady (o : Outside Cert)
  | sendTimeout (o : Outside Cert)
  | recvReady (o : Outside Cert)
  | recvTimeout (o : Outside Cert)

instance (count : ℕ) (writes : List Write) : Decidable (InArrays count writes) := by
  unfold InArrays
  infer_instance

abbrev Part (Cert : Type) := Act Session (Event Cert)

def seq (f g : Part Cert) : Part Cert := andThen Session.stopped f g

def tlsEvents (es : List (Tls.Event Cert)) : Part Cert := fun s => (s, es.map .tls)

def sstpIosFailEx (failure : Provider.Failure) : Part Cert := fun s =>
  ({ s with stopped := true }, [.tls (.fail failure)])

/-! ### The stream -/

def sstpOperationAddWrite (event : Interest) (timeout : ℕ) (complete : Complete) (s : Session) :
    Session :=
  let s := { s with send := s.send ++ [⟨complete, timeout⟩] }
  if s.evSend.isSome then s else { s with evSend := some ⟨event, timeout, s.sendCb⟩ }

/-- How the loop of `sstp_stream_send` ends. -/
inductive Sent
  | done (status : Status) | blocked (event : Interest)

/-- The loop of `sstp_stream_send`, with the bytes that are taken. Past the outcomes it is given,
`SSL_write` would block. -/
def writeLoop (b : Buff) : List SslWrite → Sent × Buff × List UInt8
  | [] => (.blocked .write, b, [])
  | .written n :: rs =>
    let n := min n (b.len - b.off).toNat
    let bytes := (b.data.drop b.off.toNat).take n
    let b := { b with off := b.off + n }
    if b.off < b.len then
      let r := writeLoop b rs
      (r.1, r.2.1, bytes ++ r.2.2)
    else (.done .okay, b, bytes)
  | .wantRead :: _ => (.blocked .read, b, [])
  | .wantWrite :: _ => (.blocked .write, b, [])
  | .error :: _ => (.done .fail, b, [])

/-- `sstp_stream_send` of the buffer of the HTTP context. -/
def sstpStreamSend (complete : Complete) (timeout : ℕ) (writes : List SslWrite) (s : Session) :
    Status × Session × List (Event Cert) :=
  let s := { s with sendCb := .sendCont }
  if s.evSend.isSome then (.inprog, sstpOperationAddWrite .write timeout complete s, [])
  else
    match s.http with
    | none => (.fail, { s with stopped := true }, [.broken])
    | some b =>
      match writeLoop b writes with
      | (.done status, b, bytes) => (status, { s with http := some b }, [.wrote bytes])
      | (.blocked event, b, bytes) =>
        (.inprog, sstpOperationAddWrite event timeout complete { s with http := some b },
          [.wrote bytes])

/-- `sstp_stream_setrecv` for the response. -/
def sstpStreamSetrecv (timeout : ℕ) : Part Cert := fun s =>
  match s.http with
  | none => ({ s with stopped := true }, [.broken])
  | some b => ({ s with evRecv := some timeout, http := some (sstpBuffReset b) }, [])

/-! ### The callbacks -/

section Callbacks

variable (C : Config Cert) (o : Outside Cert)

/-- `ios_http_done`, which frees the HTTP context when the upgrade is done. -/
def iosHttpDone (status : Status) : Part Cert := fun s =>
  let r := Tls.iosHttpDone C.lib C.params C.peer status o.stateCreate o.stateStart
  ({ s with
      http := if status = .okay then none else s.http
      control := r.1 = .control
      stopped := r.1 = .failed }, .httpDone status :: r.2.map .tls)

def sstpHttpSendComplete (result : Status) : Part Cert :=
  if result ≠ .okay then iosHttpDone C o .fail else sstpStreamSetrecv 60

def sstpRecvHelloComplete (status : Status) : Part Cert := fun s =>
  if status ≠ .okay then iosHttpDone C o status s
  else
    match s.http with
    | none => ({ s with stopped := true }, [.broken])
    | some b =>
      let r := sstpHttpGet b.data o.erange o.array.1
      if InArrays 32 r.writes then
        iosHttpDone C o (if r.status ≠ .okay ∨ r.code ≠ 200 then .fail else .okay) s
      else ({ s with stopped := true }, [.broken])

/-- `sstp_http_handshake` for the client, with `sstp_http_send_hello`. -/
def sstpHttpHandshake (s : Session) : Status × Session × List (Event Cert) :=
  match s.http with
  | none => (.fail, { s with stopped := true }, [.broken])
  | some b =>
    match sstpHttpSendHello b C.server C.uuid with
    | none => (.fail, { s with stopped := true }, [.broken])
    | some (built, b) =>
      if built ≠ .okay then (built, { s with http := some b }, [])
      else
        let r := sstpStreamSend .httpSent 10 (o.writes.headD []) { s with http := some b }
        if r.1 = .okay then
          let r' := sstpHttpSendComplete C o .okay r.2.1
          (.inprog, r'.1, r.2.2 ++ r'.2)
        else r

def startHttp : Part Cert := fun s =>
  if o.httpCreate ≠ .okay then
    sstpIosFailEx ⟨.httpUpgrade, .httpUpgrade, "Could not create HTTP context"⟩ s
  else
    let r := sstpHttpHandshake C o { s with http := some (sstpBuffCreate 8192) }
    seq (fun _ => r.2)
      (if r.1 ≠ .okay ∧ r.1 ≠ .inprog then
        sstpIosFailEx ⟨.httpUpgrade, .httpUpgrade, "Could not start HTTP handshake"⟩
      else skip) s

/-- `ios_connected` behind the checks. -/
def upgrade : Part Cert := seq (tlsEvents [.stage .httpUpgrade]) (startHttp C o)

def iosConnected (status : Status) : Part Cert :=
  seq (emit (.connected status))
    (match status with
    | .timeout => sstpIosFailEx ⟨.tcpTimeout, .tcpTls, "TCP/TLS connect timed out"⟩
    | .connected =>
      seq (tlsEvents [.handshake])
        (if C.params.tlsMode = .system then
          match Tls.iosEvaluateSystemTrust C.lib C.peer C.params.verifyHost with
          | (some failure, es) => seq (tlsEvents es) (sstpIosFailEx failure)
          | (none, es) => seq (tlsEvents es) (upgrade C o)
        else upgrade C o)
    | _ => sstpIosFailEx (Tls.connectFailure C.lib C.params.tlsMode C.peer.verifyResult))

def complete (op : Operation) (status : Status) : Part Cert :=
  match op.complete with
  | .connected => iosConnected C o status
  | .httpSent => sstpHttpSendComplete C o status

/-! ### The events -/

def sstpSslHandshakeArm (event : Interest) (timeout : ℕ) : Part Cert :=
  update fun s => { s with evSend := some ⟨event, timeout, .handshakeCont⟩ }

/-- The end of `sstp_ssl_handshake_cont`. -/
def finish (op : Operation) (rest : List Operation) (status : Status) : Part Cert :=
  seq (update fun s => { s with evSend := none, send := rest }) (complete C o op status)

def sstpSslHandshakeCont (timedOut : Bool) : Part Cert := fun s =>
  match s.send with
  | [] => (s, [])
  | op :: rest =>
    let timeout := if 0 < op.timeout then op.timeout else 60
    if timedOut then finish C o op rest .fail s
    else
      seq (tlsEvents (o.verifies.map fun v =>
          .verified v (Tls.iosVerifyCallback C.lib (some C.params.session) v)))
        (seq (emit (.handshook o.handshake))
          (match o.handshake with
          | .done ret => finish C o op rest (if ret = 1 then .connected else .fail)
          | .wantRead => sstpSslHandshakeArm .read timeout
          | .wantWrite => sstpSslHandshakeArm .write timeout
          | .failed => finish C o op rest .fail)) s

def sstpConnectComplete (timedOut : Bool) : Part Cert := fun s =>
  match s.send with
  | [] => (s, [])
  | op :: rest =>
    if timedOut then complete C o op .timeout { s with send := rest }
    else if o.setup ≠ .okay then complete C o op .fail { s with send := rest }
    else sstpSslHandshakeCont C o false s

/-- The loop of `sstp_send_cont`, each call of `sstp_stream_send` with its `SSL_write`s. -/
def sendCont : List (List SslWrite) → Part Cert
  | [] => skip
  | writes :: more => fun s =>
    match s.send with
    | [] => (s, [])
    | op :: rest =>
      let r := sstpStreamSend op.complete op.timeout writes { s with send := rest }
      seq (fun _ => r.2)
        (if r.1 = .inprog then skip else seq (complete C o op r.1) (sendCont more)) s

/-- `sstp_send_cont`. Past the outcomes it is given, `SSL_write` would block. -/
def sstpSendCont : Part Cert := sendCont C o (o.writes ++ [[]])

/-- The event `ev_send`, which is not pending any more when its function is called. -/
def sendEvent (timedOut : Bool) : Part Cert := fun s =>
  match s.evSend with
  | none => (s, [])
  | some p =>
    let s := { s with evSend := none }
    match p.fn with
    | .connectComplete => sstpConnectComplete C o timedOut s
    | .handshakeCont => sstpSslHandshakeCont C o timedOut s
    | .sendCont => sstpSendCont C o s

/-- `sstp_recv_cont`, with `sstp_stream_recv_http`, which sets the event again when it would
block. -/
def sstpRecvCont (timedOut : Bool) : Part Cert := fun s =>
  match s.evRecv with
  | none => (s, [])
  | some timeout =>
    let s := { s with evRecv := none }
    if timedOut then sstpRecvHelloComplete C o .timeout s
    else
      match s.http with
      | none => ({ s with stopped := true }, [.broken])
      | some b =>
        match sstpStreamRecvHttp b s.wire o.reads with
        | (none, _) => ({ s with stopped := true }, [.broken])
        | (some status, b, wire) =>
          seq (fun s => ({ s with http := some b, wire := wire },
              [.received (s.wire.take (s.wire.length - wire.length))]))
            (if status = .inprog then update fun s => { s with evRecv := some timeout }
            else sstpRecvHelloComplete C o status) s

end Callbacks

/-! ### Runs -/

section Step

variable (C : Config Cert)

/-- An event of the loop, which is left when the session has failed. When the state machine runs, it
takes the stream over. -/
def step (s : Session) (i : Input Cert) : Session × List (Event Cert) :=
  if s.stopped || s.control then (s, [])
  else
    match i with
    | .arrive bytes => ({ s with wire := s.wire ++ bytes }, [])
    | .sendReady o => sendEvent C o false s
    | .sendTimeout o => sendEvent C o true s
    | .recvReady o => sstpRecvCont C o false s
    | .recvTimeout o => sstpRecvCont C o true s

end Step

/-- How the socket is made and `connect` goes: it returns 0, or with `EINPROGRESS`. -/
inductive Connect
  | made | inProgress | failed
  deriving DecidableEq

def sstpStreamConnect (c : Connect) (timeout : ℕ) (complete : Complete) (s : Session) :
    Status × Session :=
  match c with
  | .made => (.okay, s)
  | .inProgress =>
    (.inprog, sstpOperationAddWrite .write timeout complete { s with sendCb := .connectComplete })
  | .failed => (.fail, s)

/-- Behind `sstp_stream_create`, where `send_cb` is null. -/
def created : Session := ⟨[], .connectComplete, none, none, none, [], false, false⟩

/-- The end of `sstp_ios_session_start_ex`. -/
def sstpIosSessionStart (Cert : Type) (c : Connect) : Session × List (Event Cert) :=
  let r := sstpStreamConnect c 60 .connected created
  if r.1 ≠ .okay ∧ r.1 ≠ .inprog then
    sstpIosFailEx ⟨.tcpTimeout, .tcpTls, "Could not start TCP/TLS connect"⟩ r.2
  else (r.2, [])

end SstpClient.Startup
