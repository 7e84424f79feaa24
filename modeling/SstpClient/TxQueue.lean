import SstpClient.Lib.LinkedList
import SstpClient.Uplink

/-!
The transmit queue of the PPP layer, `ppp_enqueue_raw`, `ppp_flush_start` and `ppp_send_complete`.

A frame waits in a linked list until `sstp_stream_send` takes it. Items are memory cells, and a cell
that is not held can be neither read nor released. Of the cells that are held, at most one is being
sent; the others are the list from `tx_head` to `tx_tail`.
-/

namespace SstpClient.TxQueue

open SstpClient.Lib.LinkedList SstpClient.Buffer SstpClient.Packet

/-- `ppp_tx_item_t`. -/
structure Item where
  next : Option ℕ
  buf : Buff

inductive Place
  | idle
  /-- In `sstp_stream_send`, which `ppp_flush_start` has called with this item. -/
  | sending (item : ℕ)
  deriving DecidableEq

/-- The fields `tx_` of `sstp_pppd_st`, and the memory. -/
structure Queue where
  /-- The items held: allocated, and not yet released. -/
  heap : ℕ → Option Item
  /-- The number of items allocated so far. -/
  items : ℕ
  txHead : Option ℕ
  txTail : Option ℕ
  txInflight : Option ℕ
  txBusy : Bool
  /-- The items that the stream has kept, and not yet completed. -/
  waiting : List ℕ
  place : Place

inductive Event
  | enqueued (item : ℕ) (frame : List UInt8)
  /-- `sstp_stream_send` is called. -/
  | handed (item : ℕ) (buf : Buff)
  /-- `sstp_stream_send` returns. -/
  | returned (item : ℕ) (status : Status)
  /-- `ppp_send_complete` is called. -/
  | completed (item : ℕ)
  | released (item : ℕ)
  /-- Memory is used that is not held. -/
  | invalid

/-- What happens, from outside. -/
inductive Input
  | enqueue (frame : List UInt8)
  | returned (status : Status)
  | complete (item : ℕ)

/-- `sstp_pppd_create`. -/
def init : Queue := ⟨fun _ => none, 0, none, none, none, false, [], .idle⟩

/-- `ppp_tx_free_item`. `none`: the item is not held. -/
def pppTxFreeItem (s : Queue) : Option ℕ → Option (Queue × List Event)
  | none => some (s, [])
  | some a =>
    if (s.heap a).isSome then some ({ s with heap := Function.update s.heap a none }, [.released a])
    else none

/-- `ppp_flush_start`, as far as the call of `sstp_stream_send`. -/
def pppFlushStart (s : Queue) : Option (Queue × List Event) :=
  if s.txBusy then some (s, [])
  else
    match s.txHead with
    | none => some (s, [])
    | some a =>
      (s.heap a).map fun item =>
        ({ s with
            txHead := item.next
            txTail := if item.next = none then none else s.txTail
            txInflight := some a
            txBusy := true
            place := .sending a },
          [.handed a item.buf])

/-- `ppp_flush_start`, after `sstp_stream_send` has returned. -/
def sendReturned (s : Queue) (a : ℕ) (status : Status) : Option (Queue × List Event) :=
  if status = .okay then do
    let r ← pppTxFreeItem s (some a)
    let r' ← pppFlushStart { r.1 with txInflight := none, txBusy := false, place := .idle }
    return (r'.1, r.2 ++ r'.2)
  else if status ≠ .inprog then do
    let r ← pppTxFreeItem s (some a)
    return ({ r.1 with txInflight := none, txBusy := false, place := .idle }, r.2)
  else some ({ s with waiting := a :: s.waiting, place := .idle }, [])

/-- `ppp_send_complete`. -/
def pppSendComplete (s : Queue) : Option (Queue × List Event) := do
  let r ← pppTxFreeItem s s.txInflight
  let r' ← pppFlushStart { r.1 with txInflight := none, txBusy := false }
  return (r'.1, r.2 ++ r'.2)

/-- The end of `ppp_enqueue_raw`: a new item behind the last one. -/
def link (s : Queue) (buf : Buff) : Option Queue :=
  let a := s.items
  let heap := Function.update s.heap a (some ⟨none, buf⟩)
  match s.txHead with
  | none => some { s with heap := heap, items := a + 1, txHead := some a, txTail := some a }
  | some _ => do
    let last ← s.txTail
    let item ← heap last
    return { s with
      heap := Function.update heap last (some { item with next := some a })
      items := a + 1
      txTail := some a }

/-- `ppp_enqueue_raw`. -/
def pppEnqueueRaw (s : Queue) (frame : List UInt8) : Option (Queue × List Event) :=
  match Uplink.pppEnqueueRaw frame with
  | some (.okay, [buf]) => do
    let a := s.items
    let r ← pppFlushStart (← link s buf)
    return (r.1, .enqueued a frame :: r.2)
  | some _ => some (s, [])
  | none => none

/-- What a step sees before the functions run, and what they do. -/
def outcome (s : Queue) (seen : List Event) (r : Option (Queue × List Event)) :
    Queue × List Event :=
  match r with
  | some (s', es) => (s', seen ++ es)
  | none => (s, seen ++ [.invalid])

/-- One call from outside, or one return to `ppp_flush_start`. Only a send that the stream has kept
is completed. -/
def step (s : Queue) (i : Input) : Queue × List Event :=
  match s.place, i with
  | _, .enqueue frame => outcome s [] (pppEnqueueRaw s frame)
  | .idle, .complete a =>
    if a ∈ s.waiting then
      outcome s [.completed a] (pppSendComplete { s with waiting := s.waiting.erase a })
    else (s, [])
  | .sending a, .returned status => outcome s [.returned a status] (sendReturned s a status)
  | _, _ => (s, [])

/-- The loop of `sstp_pppd_free`, in at most so many rounds. -/
def freeQueue : ℕ → Queue → Option (Queue × List Event)
  | rounds, s =>
    match s.txHead, rounds with
    | none, _ => some (s, [])
    | some _, 0 => none
    | some a, rounds + 1 => do
      let item ← s.heap a
      let r ← pppTxFreeItem { s with txHead := item.next } (some a)
      let r' ← freeQueue rounds r.1
      return (r'.1, r.2 ++ r'.2)

/-- `sstp_pppd_free`, up to the context itself. -/
def sstpPppdFree (s : Queue) : Option (Queue × List Event) := do
  let r ← pppTxFreeItem s s.txInflight
  let r' ← freeQueue s.items { r.1 with txInflight := none }
  return (r'.1, r.2 ++ r'.2)

/-! ### What is promised -/

def enqueuedOf (events : List Event) : List (ℕ × List UInt8) :=
  events.filterMap fun
    | .enqueued a frame => some (a, frame)
    | _ => none

def handedOf (events : List Event) : List (ℕ × Buff) :=
  events.filterMap fun
    | .handed a buf => some (a, buf)
    | _ => none

def returnedOf (events : List Event) : List (ℕ × Status) :=
  events.filterMap fun
    | .returned a status => some (a, status)
    | _ => none

def releasedOf (events : List Event) : List ℕ :=
  events.filterMap fun
    | .released a => some a
    | _ => none

/-- The frames that `ppp_enqueue_raw` takes. -/
def framesOf (inputs : List Input) : List (List UInt8) :=
  inputs.filterMap fun
    | .enqueue frame => if frame.length = 0 then none else some frame
    | _ => none

/-- The buffer is a data packet with the frame in it. -/
def Packed (frame : List UInt8) (b : Buff) : Prop :=
  b.off = 0 ∧ b.len = 4 + frame.length ∧
    b.data.take b.len.toNat = [protoVer, 0] ++ htons b.len ++ frame

/-- The item whose send goes on, in `sstp_stream_send` or kept by the stream. -/
def outstanding (s : Queue) : List ℕ :=
  match s.place with
  | .idle => s.waiting
  | .sending a => a :: s.waiting

/-- A send that neither is done nor goes on. -/
def Failed (status : Status) : Prop := status ≠ .okay ∧ status ≠ .inprog

/-- The send of the item has come to its end. -/
def Ended (events : List Event) (a : ℕ) : Prop :=
  .completed a ∈ events ∨ ∃ status, status ≠ .inprog ∧ .returned a status ∈ events

def nextOf (heap : ℕ → Option Item) (a : ℕ) : Option ℕ := (heap a).bind Item.next

/-- The queue as it should be, with the items and buffers that wait in it. -/
structure Orderly (s : Queue) (events : List Event) (queue : List (ℕ × Buff)) : Prop where
  /-- `tx_head` leads along the queue, and `tx_tail` is its last item. -/
  reach : Reach (nextOf s.heap) s.txHead (queue.map Prod.fst)
  tail : s.txTail = (queue.map Prod.fst).getLast?
  /-- What is enqueued is handed to the stream in that order, and then waits. -/
  order : List.Forall₂ (fun e h => e.1 = h.1 ∧ Packed e.2 h.2) (enqueuedOf events)
    (handedOf events ++ queue)
  /-- No item is enqueued or handed over twice. -/
  once : ((handedOf events ++ queue).map Prod.fst).Nodup
  single : (outstanding s).length ≤ 1
  inflight : s.txInflight = (outstanding s).head?
  busy : s.txBusy = true ↔ s.txInflight ≠ none
  /-- What is handed over is released or outstanding, and not both. -/
  released : ((handedOf events).map Prod.fst).Perm (releasedOf events ++ outstanding s)
  /-- An item is released when its send has come to its end. -/
  ended : ∀ h₁ a h₂, events = h₁ ++ .released a :: h₂ → Ended h₁ a
  /-- The queue stands still after a failed send only. -/
  stalled : s.place = .idle → s.txBusy = false → s.txHead ≠ none →
    ∃ a status, (returnedOf events).getLast? = some (a, status) ∧ Failed status
  valid : .invalid ∉ events
  /-- When the context ends, `sstp_pppd_free` releases each item that is left, one whose send is
  outstanding too, and then each has been released once. -/
  freed : ∃ s' last, sstpPppdFree s = some (s', last) ∧
    releasedOf (events ++ last) = (enqueuedOf events).map Prod.fst ∧ ∀ a, s'.heap a = none

section Step

variable {s : Queue}

lemma step_enqueue_eq (frame : List UInt8) :
    step s (.enqueue frame) = outcome s [] (pppEnqueueRaw s frame) := by
  unfold step
  cases s.place <;> rfl

lemma step_complete_eq (h : s.place = .idle) (a : ℕ) :
    step s (.complete a) =
      if a ∈ s.waiting then
        outcome s [.completed a] (pppSendComplete { s with waiting := s.waiting.erase a })
      else (s, []) := by
  unfold step
  rw [h]

lemma step_complete_sending {b : ℕ} (h : s.place = .sending b) (a : ℕ) :
    step s (.complete a) = (s, []) := by
  unfold step
  rw [h]

lemma step_returned_eq {a : ℕ} (h : s.place = .sending a) (status : Status) :
    step s (.returned status) = outcome s [.returned a status] (sendReturned s a status) := by
  unfold step
  rw [h]

lemma step_returned_idle (h : s.place = .idle) (status : Status) :
    step s (.returned status) = (s, []) := by
  unfold step
  rw [h]

end Step

end SstpClient.TxQueue
