import SstpClient.State
import SstpClient.TxQueue

/-!
The transmit queue of the PPP layer on top of the stream.

The queue hands over one frame at a time, and the stream writes it in as many pieces as `SSL_write`
takes. So what stands on the wire is at any time the first part of the data packets in the order in
which their frames were enqueued, and no packet is broken up by another one.
-/

namespace SstpClient.Wire

open SstpClient.Buffer SstpClient.Packet
open SstpClient.TxQueue (Queue handedOf enqueuedOf)
open SstpClient.Stream (SstpStream SslWrite)

/-! ### The queue and the stream -/

/-- The queue of the PPP context, and the stream; an item's buffer has the address of the item. -/
structure Sender where
  queue : Queue
  stream : SstpStream

inductive Event
  | queue (e : TxQueue.Event)
  | stream (e : Stream.Event)

inductive Input
  /-- `ppp_enqueue_raw`, from a handler. -/
  | enqueue (frame : List UInt8)
  /-- The `SSL_write` the program stands before. -/
  | write (result : SslWrite)
  /-- `ev_send` fires. -/
  | ready
  /-- `ppp_send_complete` returns. -/
  | ret
  deriving DecidableEq

def init (bufs : ℕ → Buff) : Sender := ⟨TxQueue.init, Stream.init bufs⟩

/-- `sstp_stream_send` for an item: it comes back at once, or stands before its first
`SSL_write`. -/
def submit (s : Sender) (a : ℕ) (buf : Buff) : Sender × List Event :=
  let r := Stream.step (Stream.step s.stream (.build a buf)).1 (.send a 1)
  let s := { s with stream := r.1 }
  match State.returned r.2 with
  | some status =>
    let q := TxQueue.step s.queue (.returned status)
    ({ s with queue := q.1 }, r.2.map .stream ++ q.2.map .queue)
  | none => (s, r.2.map .stream)

/-- What the queue hands over goes to the stream. -/
def handOn (s : Sender) (q : Queue × List TxQueue.Event) : Sender × List Event :=
  let s := { s with queue := q.1 }
  match handedOf q.2 with
  | [] => (s, q.2.map .queue)
  | (a, buf) :: _ => ((submit s a buf).1, q.2.map .queue ++ (submit s a buf).2)

/-- What the stream reports goes to the queue: the result of `sstp_stream_send`, and the call of
`ppp_send_complete`. -/
def answer (s : Sender) : Stream.Event → Sender × List Event
  | .attempt _ => (s, [])
  | .returned _ status => handOn s (TxQueue.step s.queue (.returned status))
  | .completed _ _ =>
    match s.queue.waiting with
    | [] => (s, [])
    | a :: _ => handOn s (TxQueue.step s.queue (.complete a))

def answers (s : Sender) : List Stream.Event → Sender × List Event
  | [] => (s, [])
  | e :: es =>
    ((answers (answer s e).1 es).1, .stream e :: (answer s e).2 ++ (answers (answer s e).1 es).2)

def streamStep (s : Sender) (i : Stream.Input) : Sender × List Event :=
  answers { s with stream := (Stream.step s.stream i).1 } (Stream.step s.stream i).2

/-- Frames are enqueued from the event loop. -/
def step (s : Sender) : Input → Sender × List Event
  | .enqueue frame =>
    if s.stream.place = .idle then handOn s (TxQueue.step s.queue (.enqueue frame)) else (s, [])
  | .write result => streamStep s (.write result)
  | .ready => streamStep s .ready
  | .ret => streamStep s .ret

/-! ### What is seen -/

def queueOf (events : List Event) : List TxQueue.Event :=
  events.filterMap fun
    | .queue e => some e
    | .stream _ => none

/-- The bytes that `SSL_write` has taken. -/
def wireOf (events : List Event) : List UInt8 :=
  events.flatMap fun
    | .stream (.attempt a) => a.bytes
    | _ => []

/-- The data packet of a frame. -/
def packet (frame : List UInt8) : List UInt8 :=
  [protoVer, 0] ++ htons (4 + frame.length) ++ frame

/-- What is to be sent. -/
def packetsOf (events : List Event) : List UInt8 :=
  ((enqueuedOf (queueOf events)).map fun e => packet e.2).flatten

@[simp] lemma queueOf_append (es es' : List Event) :
    queueOf (es ++ es') = queueOf es ++ queueOf es' := List.filterMap_append

@[simp] lemma queueOf_queue (es : List TxQueue.Event) : queueOf (es.map .queue) = es := by
  induction es with
  | nil => rfl
  | cons e es ih => exact congrArg (e :: ·) ih

@[simp] lemma queueOf_stream (es : List Stream.Event) : queueOf (es.map .stream) = [] := by
  induction es with
  | nil => rfl
  | cons e es ih => exact ih

@[simp] lemma wireOf_append (es es' : List Event) : wireOf (es ++ es') = wireOf es ++ wireOf es' :=
  List.flatMap_append

@[simp] lemma wireOf_queue (es : List TxQueue.Event) : wireOf (es.map .queue) = [] := by
  induction es with
  | nil => rfl
  | cons e es ih => exact ih

end SstpClient.Wire
