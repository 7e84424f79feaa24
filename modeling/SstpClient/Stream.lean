import SstpClient.Buffer
import SstpClient.Lib.Machine

/-!
Sending on the TLS stream, `sstp-stream.c`.

Every call of `SSL_write` is a step, which is given the outcome of the call, and so is every call
of `sstp_stream_send` and the end of a completion callback: a callback may do anything between
its beginning and its end.
-/

namespace SstpClient.Stream

open SstpClient.Buffer

/-! ### The stream -/

/-- `SSL_write`, as `SSL_get_error` tells it. -/
inductive SslWrite
  | written (n : ℕ)
  | wantRead
  | wantWrite
  | error
  deriving DecidableEq

def SslWrite.Blocked (r : SslWrite) : Prop := r = .wantRead ∨ r = .wantWrite

instance (r : SslWrite) : Decidable r.Blocked := by
  unfold SslWrite.Blocked
  infer_instance

inductive Interest
  | read | write
  deriving DecidableEq

/-- `sstp_operation_st` at the address `cell`. The callback and its argument are known by the
number of the call that gave them. -/
structure Operation where
  cell : ℕ
  buf : ℕ
  call : ℕ
  timeout : ℕ
  deriving DecidableEq

/-- Who has called `sstp_stream_send`: a handler outside the stream, a completion callback, or
`sstp_send_cont`. The last two hold the operation at `cell`. -/
inductive Caller
  | handler
  | callback (cell : ℕ)
  | sendCont (cell : ℕ)
  deriving DecidableEq

/-- Where the program stands: in the event loop, in the completion callback of the operation at
`cell`, or before an `SSL_write` in `sstp_stream_send`. -/
inductive Place
  | idle
  | callback (cell : ℕ)
  | writing (buf call timeout : ℕ) (w : Caller)
  deriving DecidableEq

/-- The fields of `struct sstp_stream` that concern sending, and the buffers by their address. -/
structure SstpStream where
  bufs : ℕ → Buff
  send : List Operation
  cache : List ℕ
  evSend : Option Interest
  /-- The operations allocated so far. -/
  cells : ℕ
  /-- The calls of `sstp_stream_send` from outside so far. -/
  calls : ℕ
  place : Place

def init (bufs : ℕ → Buff) : SstpStream := ⟨bufs, [], [], none, 0, 0, .idle⟩

/-! ### What is seen -/

structure Attempt where
  call : ℕ
  buf : ℕ
  off : ℤ
  result : SslWrite
  bytes : List UInt8
  deriving DecidableEq

inductive Event
  | attempt (a : Attempt)
  | returned (call : ℕ) (status : Status)
  | completed (call : ℕ) (status : Status)
  deriving DecidableEq

inductive Input
  /-- The owner of a buffer gives it a new content. -/
  | build (buf : ℕ) (content : Buff)
  | send (buf timeout : ℕ)
  /-- The `SSL_write` the program stands before. -/
  | write (result : SslWrite)
  | ready
  | ret

/-! ### The functions -/

/-- `sstp_operation_get`: the address of a free operation. The rest of the cache is dropped, for
`op->next` has been cleared before it is read. -/
def sstpOperationGet (s : SstpStream) : ℕ × SstpStream :=
  match s.cache with
  | [] => (s.cells, { s with cells := s.cells + 1 })
  | cell :: _ => (cell, { s with cache := [] })

def sstpOperationAppend (head : List Operation) (item : Operation) : List Operation :=
  head ++ [item]

def sstpOperationAddWrite (s : SstpStream) (buf : ℕ) (event : Interest) (timeout call : ℕ) :
    SstpStream :=
  let cell := (sstpOperationGet s).1
  let s := (sstpOperationGet s).2
  let s := { s with send := sstpOperationAppend s.send ⟨cell, buf, call, timeout⟩ }
  if s.evSend.isSome then s else { s with evSend := some event }

/-- `sstp_stream_send` up to its first `SSL_write`, or to its end if the event is pending. -/
def sstpStreamSend (s : SstpStream) (buf call timeout : ℕ) (w : Caller) :
    SstpStream × Option Status :=
  if s.evSend.isSome then (sstpOperationAddWrite s buf .write timeout call, some .inprog)
  else ({ s with place := .writing buf call timeout w }, none)

/-- `sstp_stream_send` returns. In `sstp_send_cont` the callback follows, unless the operation was
queued again. -/
def leave (s : SstpStream) (w : Caller) (call : ℕ) (status : Status) : SstpStream × List Event :=
  match w with
  | .handler => ({ s with place := .idle }, [.returned call status])
  | .callback cell => ({ s with place := .callback cell }, [.returned call status])
  | .sendCont cell =>
    if status = .inprog then ({ s with place := .idle }, [])
    else ({ s with place := .callback cell }, [.completed call status])

def sendCont (s : SstpStream) : SstpStream × List Event :=
  match s.send with
  | [] => ({ s with place := .idle }, [])
  | op :: rest =>
    match sstpStreamSend { s with send := rest } op.buf op.call op.timeout (.sendCont op.cell) with
    | (s, some status) => leave s (.sendCont op.cell) op.call status
    | (s, none) => (s, [])

/-- One turn of the loop of `sstp_stream_send`. -/
def sslWrite (s : SstpStream) (buf call timeout : ℕ) (w : Caller) (result : SslWrite) :
    SstpStream × List Event :=
  let b := s.bufs buf
  match result with
  | .written n =>
    let n := min n (b.len - b.off).toNat
    let a : Attempt := ⟨call, buf, b.off, result, (b.data.drop b.off.toNat).take n⟩
    let s := { s with bufs := Function.update s.bufs buf { b with off := b.off + n } }
    if b.off + n < b.len then (s, [.attempt a])
    else ((leave s w call .okay).1, .attempt a :: (leave s w call .okay).2)
  | .wantRead =>
    let s := sstpOperationAddWrite s buf .read timeout call
    ((leave s w call .inprog).1,
      .attempt ⟨call, buf, b.off, result, []⟩ :: (leave s w call .inprog).2)
  | .wantWrite =>
    let s := sstpOperationAddWrite s buf .write timeout call
    ((leave s w call .inprog).1,
      .attempt ⟨call, buf, b.off, result, []⟩ :: (leave s w call .inprog).2)
  | .error =>
    ((leave s w call .fail).1, .attempt ⟨call, buf, b.off, result, []⟩ :: (leave s w call .fail).2)

/-- A call of `sstp_stream_send` from outside the stream. -/
def sendFrom (s : SstpStream) (w : Caller) (buf timeout : ℕ) : SstpStream × List Event :=
  match sstpStreamSend { s with calls := s.calls + 1 } buf s.calls timeout w with
  | (s', some status) => leave s' w s.calls status
  | (s', none) => (s', [])

/-- What does not fit the place the program stands at does not happen. -/
def step (s : SstpStream) (i : Input) : SstpStream × List Event :=
  match s.place, i with
  | .idle, .build buf content => ({ s with bufs := Function.update s.bufs buf content }, [])
  | .callback _, .build buf content => ({ s with bufs := Function.update s.bufs buf content }, [])
  | .idle, .send buf timeout => sendFrom s .handler buf timeout
  | .callback cell, .send buf timeout => sendFrom s (.callback cell) buf timeout
  | .writing buf call timeout w, .write result => sslWrite s buf call timeout w result
  | .idle, .ready => if s.evSend.isSome then sendCont { s with evSend := none } else (s, [])
  | .callback cell, .ret => sendCont { s with cache := cell :: s.cache }
  | _, _ => (s, [])

/-! ### Adding an operation -/

section AddWrite

variable (s : SstpStream) (buf : ℕ) (event : Interest) (timeout call : ℕ)

lemma sstpOperationGet_snd :
    ∃ cache cells, (sstpOperationGet s).2 = { s with cache := cache, cells := cells } := by
  unfold sstpOperationGet
  split
  · exact ⟨s.cache, s.cells + 1, rfl⟩
  · exact ⟨[], s.cells, rfl⟩

lemma sstpOperationAddWrite_eq :
    ∃ cell cache cells, sstpOperationAddWrite s buf event timeout call =
      { s with
          send := s.send ++ [⟨cell, buf, call, timeout⟩], cache := cache, cells := cells,
          evSend := s.evSend.or (some event) } := by
  obtain ⟨cache, cells, hget⟩ := sstpOperationGet_snd s
  refine ⟨(sstpOperationGet s).1, cache, cells, ?_⟩
  unfold sstpOperationAddWrite sstpOperationAppend
  simp only [hget]
  cases s.evSend <;> rfl

end AddWrite

/-! ### A call from outside -/

section Send

variable {s : SstpStream}

lemma sendFrom_free (hev : s.evSend = none) (w : Caller) (buf timeout : ℕ) :
    sendFrom s w buf timeout =
      ({ s with calls := s.calls + 1, place := .writing buf s.calls timeout w }, []) := by
  unfold sendFrom sstpStreamSend
  rw [if_neg (by simp [hev])]

lemma sendFrom_pending (hev : s.evSend.isSome) (w : Caller) (buf timeout : ℕ) :
    ∃ cell cache cells, sendFrom s w buf timeout =
      leave { s with
        send := s.send ++ [⟨cell, buf, s.calls, timeout⟩], cache := cache, cells := cells,
        evSend := s.evSend.or (some .write), calls := s.calls + 1 } w s.calls .inprog := by
  obtain ⟨cell, cache, cells, heq⟩ :=
    sstpOperationAddWrite_eq { s with calls := s.calls + 1 } buf .write timeout s.calls
  refine ⟨cell, cache, cells, ?_⟩
  unfold sendFrom sstpStreamSend
  rw [if_pos hev]
  dsimp only
  rw [heq]

end Send

end SstpClient.Stream
