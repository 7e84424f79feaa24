import SstpClient.Wire
import SstpClient.TxQueueHistory

/-!
The two parts of the sender on their own: what a step of the stream does with one operation, and
what a step of the queue hands over.
-/

namespace SstpClient.Wire

open SstpClient.Buffer
open SstpClient.TxQueue (Queue handedOf returnedOf outstanding Packed)
open SstpClient.Stream (SstpStream SslWrite Interest Caller)
open SstpClient.StreamSpec (remaining remaining_split remaining_eq_nil)

/-! ### The steps of the stream, with one operation -/

section Stream

variable {s : SstpStream} {a : ℕ} {w : Caller}

/-- The program is outside `sstp_stream_send`. -/
def Outside (s : SstpStream) : Prop := s.place = .idle ∨ ∃ cell, s.place = .callback cell

/-- The stream is empty and waits for nothing. -/
structure Free (s : SstpStream) : Prop where
  send : s.send = []
  evSend : s.evSend = none
  place : Outside s

/-- The stream writes the buffer at `a`, and nothing is queued. -/
structure Writing (s : SstpStream) (a : ℕ) (w : Caller) : Prop where
  send : s.send = []
  evSend : s.evSend = none
  place : ∃ call timeout, s.place = .writing a call timeout w

/-- The stream waits to go on with the buffer at `a`, and nothing else is queued. -/
structure Blocked (s : SstpStream) (a : ℕ) : Prop where
  send : ∃ op, s.send = [op] ∧ op.buf = a
  evSend : s.evSend ≠ none
  place : Outside s

/-- The caller is told the result by `sstp_stream_send` itself, and not by a callback. -/
def Outer (w : Caller) : Prop := ∀ cell, w ≠ .sendCont cell

lemma outer_handler : Outer .handler := nofun

lemma outer_callback (cell : ℕ) : Outer (.callback cell) := nofun

/-- **A send that finds the stream free** stands before its first `SSL_write`. -/
lemma Free.send_eq (h : Free s) (a : ℕ) (buf : Buff) :
    ∃ s' w, Stream.step (Stream.step s (.build a buf)).1 (.send a 1) = (s', []) ∧
      Writing s' a w ∧ Outer w ∧ s'.bufs a = buf := by
  have hbuild : Stream.step s (.build a buf) =
      ({ s with bufs := Function.update s.bufs a buf }, []) := by
    obtain hplace | ⟨cell, hplace⟩ := h.place
    · simp only [Stream.step, hplace]
    · simp only [Stream.step, hplace]
  obtain ⟨w, hw, hstep⟩ : ∃ w, Outer w ∧
      Stream.step { s with bufs := Function.update s.bufs a buf } (.send a 1) =
        Stream.sendFrom { s with bufs := Function.update s.bufs a buf } w a 1 := by
    obtain hplace | ⟨cell, hplace⟩ := h.place
    · exact ⟨.handler, outer_handler, by simp only [Stream.step, hplace]⟩
    · exact ⟨.callback cell, outer_callback cell, by simp only [Stream.step, hplace]⟩
  have hsend := Stream.sendFrom_free
    (s := { s with bufs := Function.update s.bufs a buf }) h.evSend w a 1
  refine ⟨{ s with
    bufs := Function.update s.bufs a buf, calls := s.calls + 1, place := .writing a s.calls 1 w },
    w, ?_, ⟨h.send, h.evSend, s.calls, 1, rfl⟩, hw, Function.update_self ..⟩
  rw [hbuild, hstep, hsend]

/-- How an `SSL_write` leaves the stream: the send goes on, it is done, or it is queued. -/
inductive Left (w : Caller) (a : ℕ) (s' : SstpStream) : List Stream.Event → Prop
  | goesOn (h : Writing s' a w) : Left w a s' []
  | done (call : ℕ) (hw : Outer w) (h : Free s') (hrest : remaining (s'.bufs a) = []) :
    Left w a s' [.returned call .okay]
  | completed (call : ℕ) (hw : ¬ Outer w) (h : Free s') (hrest : remaining (s'.bufs a) = []) :
    Left w a s' [.completed call .okay]
  | queued (call : ℕ) (hw : Outer w) (h : Blocked s' a) : Left w a s' [.returned call .inprog]
  | requeued (hw : ¬ Outer w) (h : Blocked s' a) : Left w a s' []

lemma left_okay {call : ℕ} (hsend : s.send = []) (hev : s.evSend = none)
    (hrest : remaining (s.bufs a) = []) :
    Left w a (Stream.leave s w call .okay).1 (Stream.leave s w call .okay).2 := by
  cases w with
  | handler => exact .done call outer_handler ⟨hsend, hev, .inl rfl⟩ hrest
  | callback cell => exact .done call (outer_callback cell) ⟨hsend, hev, .inr ⟨cell, rfl⟩⟩ hrest
  | sendCont cell =>
    exact .completed call (fun hw => hw cell rfl) ⟨hsend, hev, .inr ⟨cell, rfl⟩⟩ hrest

lemma left_blocked {call timeout : ℕ} (hsend : s.send = []) (event : Interest) :
    Left w a (Stream.leave (Stream.sstpOperationAddWrite s a event timeout call) w call .inprog).1
      (Stream.leave (Stream.sstpOperationAddWrite s a event timeout call) w call .inprog).2 := by
  obtain ⟨cell, cache, cells, heq⟩ := Stream.sstpOperationAddWrite_eq s a event timeout call
  have hqueue : ∃ op, s.send ++ [⟨cell, a, call, timeout⟩] = [op] ∧ op.buf = a := by
    rw [hsend]
    exact ⟨_, rfl, rfl⟩
  have hev : s.evSend.or (some event) ≠ none := by cases s.evSend <;> simp
  rw [heq]
  cases w with
  | handler => exact .queued call outer_handler ⟨hqueue, hev, .inl rfl⟩
  | callback cell => exact .queued call (outer_callback cell) ⟨hqueue, hev, .inr ⟨cell, rfl⟩⟩
  | sendCont cell => exact .requeued (fun hw => hw cell rfl) ⟨hqueue, hev, .inl rfl⟩

/-- **An `SSL_write`** takes the first bytes of what is left of the buffer. -/
lemma Writing.write_eq (h : Writing s a w) (h0 : 0 ≤ (s.bufs a).off) {r : SslWrite}
    (hr : r ≠ .error) :
    ∃ s' t es, Stream.step s (.write r) = (s', .attempt t :: es) ∧ Left w a s' es ∧
      t.bytes ++ remaining (s'.bufs a) = remaining (s.bufs a) ∧ 0 ≤ (s'.bufs a).off := by
  obtain ⟨call, timeout, hplace⟩ := h.place
  have hstep : Stream.step s (.write r) = Stream.sslWrite s a call timeout w r := by
    simp only [Stream.step, hplace]
  have hblocked : ∀ event, Stream.sslWrite s a call timeout w r =
      ((Stream.leave (Stream.sstpOperationAddWrite s a event timeout call) w call .inprog).1,
        .attempt ⟨call, a, (s.bufs a).off, r, []⟩ ::
          (Stream.leave (Stream.sstpOperationAddWrite s a event timeout call) w call .inprog).2) →
      ∃ s' t es, Stream.step s (.write r) = (s', .attempt t :: es) ∧ Left w a s' es ∧
        t.bytes ++ remaining (s'.bufs a) = remaining (s.bufs a) ∧ 0 ≤ (s'.bufs a).off := by
    intro event heq
    have hbufs : (Stream.leave (Stream.sstpOperationAddWrite s a event timeout call) w call
        .inprog).1.bufs = s.bufs := by
      obtain ⟨cell, cache, cells, hadd⟩ := Stream.sstpOperationAddWrite_eq s a event timeout call
      rw [hadd]
      cases w <;> rfl
    refine ⟨_, _, _, hstep.trans heq, left_blocked h.send event, ?_, ?_⟩
    · rw [hbufs]
      rfl
    · rw [hbufs]
      exact h0
  cases r with
  | written n =>
    obtain ⟨m, hm⟩ : ∃ m, m = min n ((s.bufs a).len - (s.bufs a).off).toNat := ⟨_, rfl⟩
    obtain ⟨b, hb⟩ : ∃ b, b = { s.bufs a with off := (s.bufs a).off + m } := ⟨_, rfl⟩
    have hsplit : ((s.bufs a).data.drop (s.bufs a).off.toNat).take m ++ remaining b =
        remaining (s.bufs a) := by
      rw [hb]
      exact (remaining_split h0 (by omega)).symm
    have hoff : 0 ≤ b.off := by
      rw [hb]
      dsimp only
      omega
    have hget : Function.update s.bufs a b a = b := Function.update_self ..
    have hwrite : Stream.sslWrite s a call timeout w (.written n) =
        if (s.bufs a).off + m < (s.bufs a).len then
          ({ s with bufs := Function.update s.bufs a b },
            [.attempt ⟨call, a, (s.bufs a).off, .written n,
              ((s.bufs a).data.drop (s.bufs a).off.toNat).take m⟩])
        else
          ((Stream.leave { s with bufs := Function.update s.bufs a b } w call .okay).1,
            .attempt ⟨call, a, (s.bufs a).off, .written n,
              ((s.bufs a).data.drop (s.bufs a).off.toNat).take m⟩ ::
              (Stream.leave { s with bufs := Function.update s.bufs a b } w call .okay).2) := by
      rw [hb, hm]
      rfl
    rw [hstep, hwrite]
    split_ifs with hlt
    · refine ⟨_, _, _, rfl, .goesOn ⟨h.send, h.evSend, call, timeout, hplace⟩, ?_, ?_⟩
      · dsimp only
        rw [hget]
        exact hsplit
      · dsimp only
        rw [hget]
        exact hoff
    · have hrest : remaining b = [] := remaining_eq_nil (by rw [hb]; dsimp only; omega)
      have hbufs : (Stream.leave { s with bufs := Function.update s.bufs a b } w call
          .okay).1.bufs a = b := by
        cases w <;> exact hget
      refine ⟨_, _, _, rfl, left_okay h.send h.evSend (by dsimp only; rw [hget]; exact hrest), ?_,
        ?_⟩
      · rw [hbufs]
        exact hsplit
      · rw [hbufs]
        exact hoff
  | wantRead => exact hblocked .read rfl
  | wantWrite => exact hblocked .write rfl
  | error => exact absurd rfl hr

lemma Writing.step_eq (h : Writing s a w) {i : Stream.Input} (hi : ∀ r, i ≠ .write r) :
    Stream.step s i = (s, []) := by
  obtain ⟨call, timeout, hplace⟩ := h.place
  exact StreamSpec.step_writing hplace hi

lemma Free.step_eq (h : Free s) {i : Stream.Input} (hi : (∃ r, i = .write r) ∨ i = .ready ∨ i = .ret) :
    (Stream.step s i).2 = [] ∧ Free (Stream.step s i).1 := by
  have hsame : (s, ([] : List Stream.Event)).2 = [] ∧ Free (s, ([] : List Stream.Event)).1 :=
    ⟨rfl, h⟩
  obtain ⟨hsend, hev, hplace | ⟨cell, hplace⟩⟩ := h
  · obtain ⟨r, rfl⟩ | rfl | rfl := hi
    · simpa only [Stream.step, hplace] using hsame
    · simpa only [Stream.step, hplace, hev, Option.isSome_none, Bool.false_eq_true, if_false] using hsame
    · simpa only [Stream.step, hplace] using hsame
  · obtain ⟨r, rfl⟩ | rfl | rfl := hi
    · simpa only [Stream.step, hplace] using hsame
    · simpa only [Stream.step, hplace] using hsame
    · have heq : Stream.step s .ret =
          ({ s with cache := cell :: s.cache, place := .idle }, []) := by
        simp only [Stream.step, hplace, Stream.sendCont, hsend]
      rw [heq]
      exact ⟨rfl, hsend, hev, .inl rfl⟩

/-- **A blocked send** is taken up again when the socket is ready, and queued again when a callback
ends before. -/
lemma Blocked.step_eq (h : Blocked s a) {i : Stream.Input}
    (hi : (∃ r, i = .write r) ∨ i = .ready ∨ i = .ret) :
    (Stream.step s i).2 = [] ∧ (Stream.step s i).1.bufs = s.bufs ∧
      (Blocked (Stream.step s i).1 a ∨ ∃ w, ¬ Outer w ∧ Writing (Stream.step s i).1 a w) := by
  have hsame : (s, ([] : List Stream.Event)).2 = [] ∧
      (s, ([] : List Stream.Event)).1.bufs = s.bufs ∧
      (Blocked (s, ([] : List Stream.Event)).1 a ∨
        ∃ w, ¬ Outer w ∧ Writing (s, ([] : List Stream.Event)).1 a w) :=
    ⟨rfl, rfl, .inl h⟩
  obtain ⟨⟨op, hsend, hop⟩, hev, hplace | ⟨cell, hplace⟩⟩ := h
  · obtain ⟨r, rfl⟩ | rfl | rfl := hi
    · simpa only [Stream.step, hplace] using hsame
    · have heq : Stream.step s .ready =
          ({ s with
              evSend := none, send := [],
              place := .writing op.buf op.call op.timeout (.sendCont op.cell) }, []) := by
        simp only [Stream.step, hplace, Stream.sendCont, Stream.sstpStreamSend, hsend,
          Option.isSome_iff_ne_none.mpr hev, if_true, Option.isSome_none, Bool.false_eq_true,
          if_false]
      rw [heq, hop]
      exact ⟨rfl, rfl, .inr ⟨_, fun hw => hw op.cell rfl, rfl, rfl, op.call, op.timeout, rfl⟩⟩
    · simpa only [Stream.step, hplace] using hsame
  · obtain ⟨r, rfl⟩ | rfl | rfl := hi
    · simpa only [Stream.step, hplace] using hsame
    · simpa only [Stream.step, hplace] using hsame
    · obtain ⟨s₁, hs₁⟩ : ∃ s₁ : SstpStream, s₁ = { s with cache := cell :: s.cache, send := [] } :=
        ⟨_, rfl⟩
      have hpend : s₁.evSend.isSome = true := by
        rw [hs₁]
        exact Option.isSome_iff_ne_none.mpr hev
      have heq : Stream.step s .ret =
          Stream.leave (Stream.sstpOperationAddWrite s₁ op.buf .write op.timeout op.call)
            (.sendCont op.cell) op.call .inprog := by
        rw [hs₁] at hpend ⊢
        simp only [Stream.step, hplace, Stream.sendCont, Stream.sstpStreamSend, hsend]
        rw [if_pos hpend]
      obtain ⟨cell', cache, cells, hadd⟩ :=
        Stream.sstpOperationAddWrite_eq s₁ op.buf .write op.timeout op.call
      rw [heq, hadd, hs₁]
      refine ⟨rfl, rfl, .inl ⟨⟨_, rfl, hop⟩, ?_, .inl rfl⟩⟩
      change s.evSend.or (some .write) ≠ none
      cases s.evSend <;> simp

end Stream

/-! ### The steps of the queue -/

section Queue

open SstpClient.TxQueue (pppFlushStart pppTxFreeItem link releasedOf Failed)

variable {q q' : Queue} {es : List TxQueue.Event}

/-- Nothing is handed over, or one item is and `sstp_stream_send` is called with it. -/
inductive Hands (q q' : Queue) (es : List TxQueue.Event) : Prop
  | nothing (hes : handedOf es = []) (hplace : q'.place = q.place)
  | item (a : ℕ) (buf : Buff) (hes : handedOf es = [(a, buf)]) (hplace : q'.place = .sending a)

lemma flushStart_hands (h : pppFlushStart q = some (q', es)) :
    Hands q q' es ∧ q'.waiting = q.waiting ∧ releasedOf es = [] ∧ returnedOf es = [] := by
  unfold pppFlushStart at h
  split_ifs at h
  · cases h
    exact ⟨.nothing rfl rfl, rfl, rfl, rfl⟩
  · split at h
    · cases h
      exact ⟨.nothing rfl rfl, rfl, rfl, rfl⟩
    · obtain ⟨item, -, heq⟩ := Option.map_eq_some_iff.mp h
      cases heq
      exact ⟨.item _ _ rfl rfl, rfl, rfl, rfl⟩

lemma link_same {buf : Buff} (h : link q buf = some q') :
    q'.place = q.place ∧ q'.waiting = q.waiting := by
  unfold link at h
  split at h
  · cases h
    exact ⟨rfl, rfl⟩
  · obtain ⟨last, -, h⟩ := Option.bind_eq_some_iff.mp h
    obtain ⟨item, -, h⟩ := Option.bind_eq_some_iff.mp h
    cases h
    exact ⟨rfl, rfl⟩

/-- **A frame is enqueued.** -/
lemma enqueue_hands {frame : List UInt8} (h : TxQueue.pppEnqueueRaw q frame = some (q', es)) :
    Hands q q' es ∧ q'.waiting = q.waiting ∧ releasedOf es = [] ∧ returnedOf es = [] := by
  unfold TxQueue.pppEnqueueRaw at h
  split at h
  · obtain ⟨q₁, hlink, h⟩ := Option.bind_eq_some_iff.mp h
    obtain ⟨r, hflush, h⟩ := Option.bind_eq_some_iff.mp h
    obtain ⟨hplace, hwaiting⟩ := link_same hlink
    obtain ⟨hhands, hwaiting', hreleased, hreturned⟩ := flushStart_hands hflush
    cases h
    refine ⟨?_, hwaiting'.trans hwaiting, hreleased, hreturned⟩
    cases hhands with
    | nothing hes hp => exact .nothing hes (hp.trans hplace)
    | item a buf hes hp => exact .item a buf hes hp
  · cases h
    exact ⟨.nothing rfl rfl, rfl, rfl, rfl⟩
  · cases h

/-- **The item sent is released**, and the next one is handed over. -/
lemma settled_hands {a : ℕ} {r r' : Queue × List TxQueue.Event} {q₁ : Queue}
    (hfree : pppTxFreeItem q (some a) = some r) (hflush : pppFlushStart q₁ = some r')
    (hplace : q₁.place = .idle) (hwaiting : q₁.waiting = r.1.waiting) :
    Hands { q with place := .idle } r'.1 (r.2 ++ r'.2) ∧ r'.1.waiting = q.waiting ∧
      releasedOf (r.2 ++ r'.2) = [a] ∧ returnedOf (r.2 ++ r'.2) = [] := by
  obtain ⟨hhands, hwaiting', hreleased, hreturned⟩ := flushStart_hands hflush
  unfold pppTxFreeItem at hfree
  dsimp only at hfree
  split_ifs at hfree
  cases hfree
  refine ⟨?_, hwaiting'.trans hwaiting, ?_, ?_⟩
  · cases hhands with
    | nothing hes hp => exact .nothing hes (hp.trans hplace)
    | item b buf hes hp => exact .item b buf hes hp
  · exact congrArg (a :: ·) hreleased
  · exact hreturned

/-- What was outstanding or is handed over is released or outstanding now. -/
lemma outstanding_eq {events : List TxQueue.Event} (h : TxQueue.Inv q events)
    (h' : TxQueue.Inv q' (events ++ es)) :
    outstanding q ++ (handedOf es).map Prod.fst = releasedOf es ++ outstanding q' := by
  obtain ⟨⟨queue, hacc⟩, -⟩ := h
  obtain ⟨⟨queue', hacc'⟩, -⟩ := h'
  have hreleased := hacc'.released
  rw [TxQueue.handedOf_append, TxQueue.releasedOf_append, List.map_append, hacc.released,
    List.append_assoc, List.append_assoc] at hreleased
  exact List.append_cancel_left hreleased

/-- After a send has ended: the queue rests, or the next item is handed over. -/
inductive Next (r : Queue × List TxQueue.Event) : Prop
  | rests (hes : handedOf r.2 = []) (hout : outstanding r.1 = [])
  | hands (a : ℕ) (buf : Buff) (hes : handedOf r.2 = [(a, buf)]) (hplace : r.1.place = .sending a)
      (hwaiting : r.1.waiting = [])

lemma Hands.next {c : Queue} {r : Queue × List TxQueue.Event} (h : Hands c r.1 r.2)
    (hplace : c.place = .idle) (hwaiting : r.1.waiting = []) : Next r := by
  cases h with
  | nothing hes hp =>
    refine .rests hes ?_
    unfold outstanding
    rw [hp, hplace]
    exact hwaiting
  | item a buf hes hp => exact .hands a buf hes hp hwaiting

/-- No step of an orderly queue uses memory that is not held. -/
lemma outcome_some {seen events : List TxQueue.Event} {o : Option (Queue × List TxQueue.Event)}
    (h : TxQueue.Inv (TxQueue.outcome q seen o).1 (events ++ (TxQueue.outcome q seen o).2)) :
    ∃ r, o = some r := by
  cases o with
  | some r => exact ⟨r, rfl⟩
  | none =>
    obtain ⟨⟨queue, hacc⟩, -⟩ := h
    exact absurd (List.mem_append_right _ (List.mem_append_right _ List.mem_cons_self)) hacc.valid

/-- **A send that was kept is completed.** -/
lemma complete_next {a : ℕ} {events : List TxQueue.Event} (h : TxQueue.Inv q events)
    (hplace : q.place = .idle) (hwaiting : q.waiting = [a]) :
    Next (TxQueue.step q (.complete a)) ∧ returnedOf (TxQueue.step q (.complete a)).2 = [] := by
  have hmem : a ∈ q.waiting := hwaiting ▸ List.mem_cons_self
  have h' := TxQueue.step_inv h (.complete a)
  rw [TxQueue.step_complete_eq hplace, if_pos hmem] at h' ⊢
  obtain ⟨⟨queue, hacc⟩, -⟩ := h
  obtain ⟨-, hinflight⟩ := hacc.kept hplace hmem
  obtain ⟨r, hr⟩ := outcome_some h'
  rw [hr]
  unfold TxQueue.pppSendComplete at hr
  obtain ⟨r₁, hfree, hr⟩ := Option.bind_eq_some_iff.mp hr
  obtain ⟨r₂, hflush, hr⟩ := Option.bind_eq_some_iff.mp hr
  cases hr
  dsimp only at hfree
  rw [hinflight] at hfree
  have hidle : r₁.1.place = .idle := by
    unfold pppTxFreeItem at hfree
    dsimp only at hfree
    split_ifs at hfree
    cases hfree
    exact hplace
  obtain ⟨hhands, hwaiting', -, hreturned⟩ := settled_hands hfree hflush hidle rfl
  refine ⟨Hands.next (c := { q with waiting := q.waiting.erase a, place := .idle })
    (r := TxQueue.outcome q [.completed a] (some (r₂.1, r₁.2 ++ r₂.2))) ?_ rfl ?_, hreturned⟩
  · cases hhands with
    | nothing hes hp => exact .nothing hes hp
    | item b buf hes hp => exact .item b buf hes hp
  · refine hwaiting'.trans ?_
    dsimp only
    rw [hwaiting, List.erase_cons_head]

/-- **`sstp_stream_send` is done at once.** -/
lemma returned_next {a : ℕ} {events : List TxQueue.Event} (h : TxQueue.Inv q events)
    (hplace : q.place = .sending a) (hwaiting : q.waiting = []) :
    Next (TxQueue.step q (.returned .okay)) ∧
      returnedOf (TxQueue.step q (.returned .okay)).2 = [(a, .okay)] := by
  have h' := TxQueue.step_inv h (.returned .okay)
  rw [TxQueue.step_returned_eq hplace] at h' ⊢
  obtain ⟨r, hr⟩ := outcome_some h'
  rw [hr]
  unfold TxQueue.sendReturned at hr
  rw [if_pos rfl] at hr
  obtain ⟨r₁, hfree, hr⟩ := Option.bind_eq_some_iff.mp hr
  obtain ⟨r₂, hflush, hr⟩ := Option.bind_eq_some_iff.mp hr
  cases hr
  obtain ⟨hhands, hwaiting', -, hreturned⟩ := settled_hands hfree hflush rfl rfl
  refine ⟨Hands.next (c := { q with place := .idle })
    (r := TxQueue.outcome q [.returned a .okay] (some (r₂.1, r₁.2 ++ r₂.2))) ?_ rfl
    (hwaiting'.trans hwaiting), congrArg ((a, Status.okay) :: ·) hreturned⟩
  cases hhands with
  | nothing hes hp => exact .nothing hes hp
  | item b buf hes hp => exact .item b buf hes hp

/-- The stream keeps the item. -/
lemma returned_inprog {a : ℕ} (hplace : q.place = .sending a) (hwaiting : q.waiting = []) :
    TxQueue.step q (.returned .inprog) =
      ({ q with waiting := [a], place := .idle }, [.returned a .inprog]) := by
  rw [TxQueue.step_returned_eq hplace]
  unfold TxQueue.sendReturned
  rw [if_neg nofun, if_neg (not_not.mpr rfl), hwaiting]
  rfl

/-- **A frame comes to the queue**: it waits, or it is handed over. -/
lemma enqueue_next {events : List TxQueue.Event} (h : TxQueue.Inv q events)
    (frame : List UInt8) :
    returnedOf (TxQueue.step q (.enqueue frame)).2 = [] ∧
      ((handedOf (TxQueue.step q (.enqueue frame)).2 = [] ∧
          (TxQueue.step q (.enqueue frame)).1.place = q.place ∧
          (TxQueue.step q (.enqueue frame)).1.waiting = q.waiting) ∨
        outstanding q = [] ∧ Next (TxQueue.step q (.enqueue frame))) := by
  have h' := TxQueue.step_inv h (.enqueue frame)
  have hout := outstanding_eq h h'
  rw [TxQueue.step_enqueue_eq] at h' hout ⊢
  obtain ⟨r, hr⟩ := outcome_some h'
  rw [hr] at hout ⊢
  obtain ⟨hhands, hwaiting, hreleased, hreturned⟩ := enqueue_hands hr
  refine ⟨hreturned, ?_⟩
  obtain ⟨⟨queue', hacc'⟩, -⟩ := h'
  rw [hr] at hacc'
  cases hhands with
  | nothing hes hp => exact .inl ⟨hes, hp, hwaiting⟩
  | item a buf hes hp =>
    -- with one item outstanding, no other one was
    change outstanding q ++ (handedOf r.2).map Prod.fst = releasedOf r.2 ++ outstanding r.1 at hout
    have hsingle : (outstanding r.1).length ≤ 1 := hacc'.single
    rw [hes, hreleased, List.nil_append] at hout
    rw [← hout, List.length_append, List.length_map, List.length_singleton] at hsingle
    have hnil : outstanding q = [] := List.eq_nil_of_length_eq_zero (by omega)
    have hnone : q.waiting = [] := by
      have hq := hnil
      unfold outstanding at hq
      split at hq
      · exact hq
      · cases hq
    exact .inr ⟨hnil, .hands a buf hes hp (hwaiting.trans hnone)⟩

/-- What is handed over is a data packet. -/
lemma handed_packed {a : ℕ} {buf : Buff} {events : List TxQueue.Event} (h : TxQueue.Inv q events)
    (hmem : (a, buf) ∈ handedOf events) : ∃ frame, Packed frame buf := by
  obtain ⟨⟨queue, hacc⟩, -⟩ := h
  obtain ⟨n, hn, hget⟩ := List.mem_iff_getElem.mp hmem
  have hlen := hacc.order.length_eq
  rw [List.length_append] at hlen
  have hpair := hacc.order.get (i := n) (by omega) (by rw [List.length_append]; omega)
  simp only [List.get_eq_getElem, List.getElem_append_left hn, hget] at hpair
  exact ⟨_, hpair.2⟩

end Queue

end SstpClient.Wire
