import SstpClient.TxQueueRun
import SstpClient.WireSteps

/-!
Frames go out whole and in order, in every run without an error of `SSL_write`.
-/

namespace SstpClient.Wire

open SstpClient.Lib.Machine SstpClient.Buffer
open SstpClient.TxQueue (Queue handedOf enqueuedOf outstanding)

/-! ### The wire -/

/-- The packets of the frames are the bytes of the buffers that carry them. -/
lemma packets_eq {q : Queue} {events : List TxQueue.Event} {queue : List (ℕ × Buff)}
    (h : TxQueue.Account q events queue) :
    ((enqueuedOf events).map fun e => packet e.2).flatten =
      bytesOf (handedOf events) ++ bytesOf queue := by
  rw [← bytesOf_append]
  unfold bytesOf
  congr 1
  have hpairs := h.order
  generalize enqueuedOf events = es at hpairs
  generalize handedOf events ++ queue = hs at hpairs
  induction hpairs with
  | nil => rfl
  | cons hp _ ih =>
    rw [List.map_cons, List.map_cons, ih, remaining_packed hp.2]

section New

variable {s : Sender}

/-- Only `ppp_enqueue_raw` brings frames into the queue. -/
lemma queue_new {q : Queue} {i : TxQueue.Input} (hi : ∀ frame, i ≠ .enqueue frame) :
    enqueuedOf (TxQueue.step q i).2 = [] := by
  have houtcome : ∀ {q' : Queue} {e : TxQueue.Event} {o : Option (Queue × List TxQueue.Event)},
      enqueuedOf [e] = [] → (∀ q₁ es, o = some (q₁, es) → enqueuedOf es = []) →
      enqueuedOf (TxQueue.outcome q' [e] o).2 = [] := by
    intro q' e o he ho
    cases o with
    | none =>
      change enqueuedOf ([e] ++ [.invalid]) = []
      rw [TxQueue.enqueuedOf_append, he]
      rfl
    | some r =>
      change enqueuedOf ([e] ++ r.2) = []
      rw [TxQueue.enqueuedOf_append, he, ho r.1 r.2 rfl]
      rfl
  cases i with
  | enqueue frame => exact absurd rfl (hi frame)
  | complete a =>
    cases hplace : q.place with
    | idle =>
      rw [TxQueue.step_complete_eq hplace]
      split_ifs
      · exact houtcome rfl fun _ _ h => TxQueue.sendComplete_new h
      · rfl
    | sending b =>
      rw [TxQueue.step_complete_sending hplace]
      rfl
  | returned status =>
    cases hplace : q.place with
    | idle =>
      rw [TxQueue.step_returned_idle hplace]
      rfl
    | sending a =>
      rw [TxQueue.step_returned_eq hplace]
      exact houtcome rfl fun _ _ h => TxQueue.sendReturned_new h

lemma submit_new (a : ℕ) (buf : Buff) : enqueuedOf (queueOf (submit s a buf).2) = [] := by
  unfold submit
  dsimp only
  split
  · rw [queueOf_append, queueOf_stream, queueOf_queue, List.nil_append]
    exact queue_new nofun
  · rw [queueOf_stream]
    rfl

lemma handOn_new (r : Queue × List TxQueue.Event) :
    enqueuedOf (queueOf (handOn s r).2) = enqueuedOf r.2 := by
  unfold handOn
  dsimp only
  split
  · rw [queueOf_queue]
  · rw [queueOf_append, queueOf_queue, TxQueue.enqueuedOf_append, submit_new, List.append_nil]

lemma answer_new (e : Stream.Event) : enqueuedOf (queueOf (answer s e).2) = [] := by
  cases e with
  | attempt t => rfl
  | returned call status => exact (handOn_new _).trans (queue_new fun _ heq => by cases heq)
  | completed call status =>
    cases hwaiting : s.queue.waiting with
    | nil =>
      simp only [answer, hwaiting]
      rfl
    | cons a waiting =>
      simp only [answer, hwaiting]
      exact (handOn_new _).trans (queue_new fun _ heq => by cases heq)

lemma answers_new (es : List Stream.Event) : enqueuedOf (queueOf (answers s es).2) = [] := by
  induction es generalizing s with
  | nil => rfl
  | cons e es ih =>
    have happend : queueOf (answers s (e :: es)).2 =
        queueOf (answer s e).2 ++ queueOf (answers (answer s e).1 es).2 := queueOf_append _ _
    rw [happend, TxQueue.enqueuedOf_append, answer_new, ih]
    rfl

/-- What a step enqueues. -/
lemma packetsOf_step {events : List Event} (h : Inv s events) (i : Input) :
    packetsOf (step s i).2 =
      match i with
      | .enqueue frame => if s.stream.place = .idle ∧ frame ≠ [] then packet frame else []
      | _ => [] := by
  cases i with
  | enqueue frame =>
    by_cases hidle : s.stream.place = .idle
    · have heq : step s (.enqueue frame) = handOn s (TxQueue.step s.queue (.enqueue frame)) :=
        if_pos hidle
      obtain ⟨⟨queue, hacc⟩, -⟩ := TxQueue.step_inv h.queue (.enqueue frame)
      have hnew := TxQueue.step_frames (s := s.queue) (i := .enqueue frame)
        fun hmem => hacc.valid (List.mem_append_right _ hmem)
      have hmap : packetsOf (step s (.enqueue frame)).2 =
          ((TxQueue.framesOf [.enqueue frame]).map packet).flatten := by
        unfold packetsOf
        rw [heq, handOn_new, ← hnew, List.map_map]
        rfl
      rw [hmap]
      by_cases hne : frame = []
      · simp [hne, TxQueue.framesOf]
      · simp [hne, hidle, TxQueue.framesOf]
    · have heq : step s (.enqueue frame) = (s, []) := if_neg hidle
      rw [heq]
      exact (if_neg fun hb : s.stream.place = .idle ∧ frame ≠ [] => hidle hb.1).symm
  | write r => exact congrArg (fun l => (l.map fun e => packet e.2).flatten) (answers_new _)
  | ready => exact congrArg (fun l => (l.map fun e => packet e.2).flatten) (answers_new _)
  | ret => exact congrArg (fun l => (l.map fun e => packet e.2).flatten) (answers_new _)

end New

/-- Nothing is under way: the program is in the event loop, and the socket is not waited for. -/
def Quiet (s : Sender) : Prop := s.stream.place = .idle ∧ s.stream.evSend = none

lemma Inv.wire {s : Sender} {events : List Event} (h : Inv s events) :
    wireOf events <+: packetsOf events ∧ (Quiet s → wireOf events = packetsOf events) := by
  obtain ⟨⟨queue, hacc⟩, hstalled⟩ := h.queue
  have hpackets : packetsOf events = bytesOf (handedOf (queueOf events)) ++ bytesOf queue :=
    packets_eq hacc
  rw [hpackets]
  cases h.phase with
  | rests hq hs hwire =>
    rw [hwire]
    refine ⟨List.prefix_append _ _, fun _ => ?_⟩
    -- no send has failed, so the queue does not stand still with items in it
    have hinflight := hacc.rep.inflight
    rw [hq, Option.toList_eq_nil_iff] at hinflight
    have hbusy : s.queue.txBusy = false := by
      rw [hacc.rep.busy, hinflight]
      rfl
    have hidle : s.queue.place = .idle := by
      unfold outstanding at hq
      split at hq
      · next hplace => exact hplace
      · cases hq
    have hhead : s.queue.txHead = none := by
      by_contra hhead
      obtain ⟨a, status, hlast, hfailed⟩ := hstalled hidle hbusy hhead
      exact h.fine _ (List.mem_of_getLast? hlast) hfailed
    have hnil : queue = [] := by
      have hreach := hacc.rep.reach
      rw [hhead] at hreach
      cases queue with
      | nil => rfl
      | cons p queue => exact absurd hreach nofun
    rw [hnil]
    exact (List.append_nil _).symm
  | writing a w hs h0 houter hinner hwire =>
    obtain ⟨call, timeout, hplace⟩ := hs.place
    refine ⟨?_, fun hquiet => ?_⟩
    · rw [← hwire, List.append_assoc]
      exact List.prefix_append _ _
    · cases hquiet.1.symm.trans hplace
  | blocked a hs h0 hplace hwaiting hwire =>
    refine ⟨?_, fun hquiet => absurd hquiet.2 hs.evSend⟩
    rw [← hwire, List.append_assoc]
    exact List.prefix_append _ _

/-- **Frames go out whole and in order.** As long as no `SSL_write` fails, what stands on the wire is
the first part of the data packets of the frames in the order they were enqueued, however the
writes are split, blocked and taken up again; and when nothing is under way it is all of them. -/
theorem wire_packets (bufs : ℕ → Buff) {inputs : List Input}
    (hok : ∀ i ∈ inputs, i ≠ .write .error) :
    wireOf (run step (init bufs) inputs).2 <+: packetsOf (run step (init bufs) inputs).2 ∧
      (Quiet (run step (init bufs) inputs).1 →
        wireOf (run step (init bufs) inputs).2 = packetsOf (run step (init bufs) inputs).2) := by
  have hC : Along step (fun _ i => i ≠ .write .error) (init bufs) inputs := along_of_forall hok
  have hinv := run_inv Inv (fun s events i h hi => step_inv h hi) (init_inv bufs) hC
  rw [List.nil_append] at hinv
  exact hinv.wire

/-- Two frames; the first one is blocked after two bytes, and the second one waits for it. -/
def twoFrames : List Input :=
  [.enqueue [0x21], .write (.written 2), .write .wantWrite, .enqueue [0x22], .ready,
    .write (.written 9), .write (.written 9), .ret]

theorem wire_packets_twoFrames :
    wireOf (run step (init fun _ => sstpBuffCreate 0) twoFrames).2 <+:
        packetsOf (run step (init fun _ => sstpBuffCreate 0) twoFrames).2 ∧
      (Quiet (run step (init fun _ => sstpBuffCreate 0) twoFrames).1 →
        wireOf (run step (init fun _ => sstpBuffCreate 0) twoFrames).2 =
          packetsOf (run step (init fun _ => sstpBuffCreate 0) twoFrames).2) :=
  wire_packets _ (by decide)

end SstpClient.Wire
