import SstpClient.WireParts

/-!
The queue and the stream together: in each phase of a send, what has been handed over is what
stands on the wire, with the rest of the buffer that is being written.
-/

namespace SstpClient.Wire

open SstpClient.Buffer
open SstpClient.TxQueue (Queue handedOf returnedOf outstanding Packed)
open SstpClient.Stream (SstpStream SslWrite Caller)
open SstpClient.StreamSpec (remaining)

/-! ### Both together -/

/-- The bytes of the buffers. -/
def bytesOf (handed : List (ℕ × Buff)) : List UInt8 := (handed.map fun p => remaining p.2).flatten

lemma bytesOf_append (h h' : List (ℕ × Buff)) : bytesOf (h ++ h') = bytesOf h ++ bytesOf h' := by
  unfold bytesOf
  rw [List.map_append, List.flatten_append]

lemma remaining_packed {frame : List UInt8} {b : Buff} (h : Packed frame b) :
    remaining b = packet frame := by
  obtain ⟨hoff, hlen, hdata⟩ := h
  unfold remaining packet
  rw [hoff, Int.sub_zero, Int.toNat_zero, List.drop_zero, hdata, hlen]

/-- The queue and the stream agree on what is sent, and the wire and what is left of the buffer in
hand make up what has been handed over. -/
inductive Phase (s : Sender) (handed : List (ℕ × Buff)) (wire : List UInt8) : Prop
  | rests (hq : outstanding s.queue = []) (hs : Free s.stream) (hwire : wire = bytesOf handed)
  | writing (a : ℕ) (w : Caller) (hs : Writing s.stream a w) (h0 : 0 ≤ (s.stream.bufs a).off)
      (houter : Outer w → s.queue.place = .sending a ∧ s.queue.waiting = [])
      (hinner : ¬ Outer w → s.queue.place = .idle ∧ s.queue.waiting = [a])
      (hwire : wire ++ remaining (s.stream.bufs a) = bytesOf handed)
  | blocked (a : ℕ) (hs : Blocked s.stream a) (h0 : 0 ≤ (s.stream.bufs a).off)
      (hplace : s.queue.place = .idle) (hwaiting : s.queue.waiting = [a])
      (hwire : wire ++ remaining (s.stream.bufs a) = bytesOf handed)

structure Inv (s : Sender) (events : List Event) : Prop where
  queue : TxQueue.Inv s.queue (queueOf events)
  fine : ∀ r ∈ returnedOf (queueOf events), ¬ TxQueue.Failed r.2
  phase : Phase s (handedOf (queueOf events)) (wireOf events)

section Steps

variable {s : Sender} {events : List Event}

/-- **What the queue hands over** is taken up by the free stream. -/
lemma handOn_inv {r : Queue × List TxQueue.Event} {l : List Event}
    (hq : TxQueue.Inv r.1 (queueOf l ++ r.2))
    (hfine : ∀ x ∈ returnedOf (queueOf l ++ r.2), ¬ TxQueue.Failed x.2) (hnext : Next r)
    (hs : Free s.stream) (hwire : wireOf l = bytesOf (handedOf (queueOf l))) :
    Inv (handOn s r).1 (l ++ (handOn s r).2) := by
  cases hnext with
  | rests hes hout =>
    have heq : handOn s r = ({ s with queue := r.1 }, r.2.map .queue) := by
      unfold handOn
      rw [hes]
    rw [heq]
    constructor
    · rwa [queueOf_append, queueOf_queue]
    · rwa [queueOf_append, queueOf_queue]
    · refine .rests hout hs ?_
      rw [wireOf_append, wireOf_queue, List.append_nil, hwire, queueOf_append, queueOf_queue,
        TxQueue.handedOf_append, hes, List.append_nil]
  | hands a buf hes hplace hwaiting =>
    obtain ⟨s', w, hsend, hwriting, houter, hbuf⟩ := hs.send_eq a buf
    have hsubmit : submit { s with queue := r.1 } a buf = (⟨r.1, s'⟩, []) := by
      unfold submit
      dsimp only
      rw [hsend]
      rfl
    have heq : handOn s r = (⟨r.1, s'⟩, r.2.map .queue ++ []) := by
      unfold handOn
      rw [hes]
      dsimp only
      rw [hsubmit]
    rw [heq, List.append_nil]
    have hhanded : handedOf (queueOf l ++ r.2) = handedOf (queueOf l) ++ [(a, buf)] := by
      rw [TxQueue.handedOf_append, hes]
    have hmem : (a, buf) ∈ handedOf (queueOf l ++ r.2) := by
      rw [hhanded]
      exact List.mem_append_right _ List.mem_cons_self
    obtain ⟨frame, hpacked⟩ := handed_packed hq hmem
    constructor
    · rwa [queueOf_append, queueOf_queue]
    · rwa [queueOf_append, queueOf_queue]
    · refine .writing a w hwriting ?_ (fun _ => ⟨hplace, hwaiting⟩) (fun hw => absurd houter hw) ?_
      · rw [hbuf, hpacked.1]
      · rw [wireOf_append, wireOf_queue, List.append_nil, hwire, queueOf_append, queueOf_queue,
          hhanded, bytesOf_append, hbuf]
        unfold bytesOf
        rw [List.map_singleton, List.flatten_singleton]

/-- The send of the item at `a` has ended with its last byte on the wire. -/
lemma ended_inv {es : List Stream.Event} {call a : ℕ} {w : Caller} {t : Stream.Attempt}
    (h : Inv s events) {s' : SstpStream}
    (houter : Outer w → s.queue.place = .sending a ∧ s.queue.waiting = [])
    (hinner : ¬ Outer w → s.queue.place = .idle ∧ s.queue.waiting = [a])
    (hwire : wireOf events ++ t.bytes = bytesOf (handedOf (queueOf events))) (hs : Free s')
    (hes : Outer w ∧ es = [.returned call .okay] ∨ ¬ Outer w ∧ es = [.completed call .okay]) :
    Inv (answers { s with stream := s' } (.attempt t :: es)).1
      (events ++ (answers { s with stream := s' } (.attempt t :: es)).2) := by
  have hseen : ∀ e : Stream.Event, wireOf [.stream (.attempt t), .stream e] = t.bytes ++
      wireOf [.stream e] := fun e => rfl
  obtain ⟨hw, rfl⟩ | ⟨hw, rfl⟩ := hes
  · obtain ⟨hplace, hwaiting⟩ := houter hw
    obtain ⟨hnext, hreturned⟩ := returned_next h.queue hplace hwaiting
    have hq := TxQueue.step_inv h.queue (.returned .okay)
    have hinv := handOn_inv (s := { s with stream := s' })
      (l := events ++ [.stream (.attempt t), .stream (.returned call .okay)])
      (r := TxQueue.step s.queue (.returned .okay))
      (by rw [queueOf_append]; exact (List.append_nil (queueOf events)).symm ▸ hq)
      (by
        rw [queueOf_append]
        change ∀ x ∈ returnedOf (queueOf events ++ [] ++ _), _
        rw [List.append_nil, TxQueue.returnedOf_append, hreturned]
        intro x hx
        rcases List.mem_append.mp hx with hx | hx
        · exact h.fine x hx
        · rw [List.mem_singleton.mp hx]
          exact fun hf => hf.1 rfl)
      hnext hs (by
        rw [wireOf_append, queueOf_append, hseen]
        change _ ++ (t.bytes ++ []) = bytesOf (handedOf (queueOf events ++ []))
        rw [List.append_nil, List.append_nil]
        exact hwire)
    rw [List.append_assoc] at hinv
    simpa [answers, answer] using hinv
  · obtain ⟨hplace, hwaiting⟩ := hinner hw
    obtain ⟨hnext, hreturned⟩ := complete_next h.queue hplace hwaiting
    have hq := TxQueue.step_inv h.queue (.complete a)
    have hinv := handOn_inv (s := { s with stream := s' })
      (l := events ++ [.stream (.attempt t), .stream (.completed call .okay)])
      (r := TxQueue.step s.queue (.complete a))
      (by rw [queueOf_append]; exact (List.append_nil (queueOf events)).symm ▸ hq)
      (by
        rw [queueOf_append]
        change ∀ x ∈ returnedOf (queueOf events ++ [] ++ _), _
        rw [List.append_nil, TxQueue.returnedOf_append, hreturned, List.append_nil]
        exact h.fine)
      hnext hs (by
        rw [wireOf_append, queueOf_append, hseen]
        change _ ++ (t.bytes ++ []) = bytesOf (handedOf (queueOf events ++ []))
        rw [List.append_nil, List.append_nil]
        exact hwire)
    rw [List.append_assoc] at hinv
    simpa [answers, answer, hwaiting] using hinv

/-- **An `SSL_write`** that does not fail. -/
lemma write_inv {a : ℕ} {w : Caller} {r : SslWrite} (h : Inv s events) (hs : Writing s.stream a w)
    (h0 : 0 ≤ (s.stream.bufs a).off)
    (houter : Outer w → s.queue.place = .sending a ∧ s.queue.waiting = [])
    (hinner : ¬ Outer w → s.queue.place = .idle ∧ s.queue.waiting = [a])
    (hwire : wireOf events ++ remaining (s.stream.bufs a) = bytesOf (handedOf (queueOf events)))
    (hr : r ≠ .error) :
    Inv (step s (.write r)).1 (events ++ (step s (.write r)).2) := by
  obtain ⟨s', t, es, hstep, hleft, hbytes, h0'⟩ := hs.write_eq h0 hr
  have heq : step s (.write r) = answers { s with stream := s' } (.attempt t :: es) := by
    change answers _ _ = _
    rw [hstep]
  rw [heq]
  rw [← hbytes, ← List.append_assoc] at hwire
  have hattempt : wireOf (events ++ [.stream (.attempt t)]) = wireOf events ++ t.bytes := by
    rw [wireOf_append]
    exact congrArg _ (List.append_nil t.bytes)
  have hnone : queueOf (events ++ [.stream (.attempt t)]) = queueOf events := by
    rw [queueOf_append]
    exact List.append_nil _
  cases hleft with
  | goesOn hs' =>
    change Inv { s with stream := s' } (events ++ [.stream (.attempt t)])
    refine ⟨by rw [hnone]; exact h.queue, by rw [hnone]; exact h.fine, ?_⟩
    rw [hnone, hattempt]
    exact .writing a w hs' h0' houter hinner hwire
  | done call hw hs' hrest =>
    rw [hrest, List.append_nil] at hwire
    exact ended_inv h houter hinner hwire hs' (.inl ⟨hw, rfl⟩)
  | completed call hw hs' hrest =>
    rw [hrest, List.append_nil] at hwire
    exact ended_inv h houter hinner hwire hs' (.inr ⟨hw, rfl⟩)
  | queued call hw hs' =>
    obtain ⟨hplace, hwaiting⟩ := houter hw
    have hkept := returned_inprog hplace hwaiting
    have hq := TxQueue.step_inv h.queue (.returned .inprog)
    rw [hkept] at hq
    have hanswers : answers { s with stream := s' } [.attempt t, .returned call .inprog] =
        (⟨{ s.queue with waiting := [a], place := .idle }, s'⟩,
          [.stream (.attempt t), .stream (.returned call .inprog),
            .queue (.returned a .inprog)]) := by
      simp only [answers, answer, handOn, hkept]
      rfl
    rw [hanswers]
    have hqueue : queueOf (events ++ [.stream (.attempt t), .stream (.returned call .inprog),
        .queue (.returned a .inprog)]) = queueOf events ++ [.returned a .inprog] := by
      rw [queueOf_append]
      rfl
    have hseen : wireOf (events ++ [.stream (.attempt t), .stream (.returned call .inprog),
        .queue (.returned a .inprog)]) = wireOf events ++ t.bytes := by
      rw [wireOf_append]
      exact congrArg _ (List.append_nil t.bytes)
    refine ⟨by rw [hqueue]; exact hq, ?_, ?_⟩
    · rw [hqueue, TxQueue.returnedOf_append]
      intro x hx
      rcases List.mem_append.mp hx with hx | hx
      · exact h.fine x hx
      · rw [List.mem_singleton.mp hx]
        exact fun hf => hf.2 rfl
    · rw [hqueue, hseen, TxQueue.handedOf_append]
      refine .blocked a hs' h0' rfl rfl ?_
      rw [hwire]
      exact congrArg bytesOf (List.append_nil _).symm
  | requeued hw hs' =>
    obtain ⟨hplace, hwaiting⟩ := hinner hw
    change Inv { s with stream := s' } (events ++ [.stream (.attempt t)])
    refine ⟨by rw [hnone]; exact h.queue, by rw [hnone]; exact h.fine, ?_⟩
    rw [hnone, hattempt]
    exact .blocked a hs' h0' hplace hwaiting hwire

/-- A step of the stream that is not seen. -/
lemma quiet_inv {i : Stream.Input} (h : Inv s events) (hes : (Stream.step s.stream i).2 = [])
    (hphase : Phase { s with stream := (Stream.step s.stream i).1 } (handedOf (queueOf events))
      (wireOf events)) :
    Inv (streamStep s i).1 (events ++ (streamStep s i).2) := by
  have heq : streamStep s i = ({ s with stream := (Stream.step s.stream i).1 }, []) := by
    unfold streamStep
    rw [hes]
    rfl
  rw [heq, List.append_nil]
  exact ⟨h.queue, h.fine, hphase⟩

/-- **The stream goes on.** -/
lemma streamStep_inv {i : Stream.Input} (h : Inv s events)
    (hi : (∃ r, r ≠ .error ∧ i = .write r) ∨ i = .ready ∨ i = .ret) :
    Inv (streamStep s i).1 (events ++ (streamStep s i).2) := by
  have hi' : (∃ r, i = .write r) ∨ i = .ready ∨ i = .ret :=
    hi.imp_left fun ⟨r, _, hr⟩ => ⟨r, hr⟩
  cases h.phase with
  | rests hq hs hwire =>
    obtain ⟨hes, hs'⟩ := hs.step_eq hi'
    exact quiet_inv h hes (.rests hq hs' hwire)
  | writing a w hs h0 houter hinner hwire =>
    obtain ⟨r, hr, rfl⟩ | hother := hi
    · exact write_inv h hs h0 houter hinner hwire hr
    · have hsame := hs.step_eq (i := i) fun r hr => by rcases hother with rfl | rfl <;> cases hr
      refine quiet_inv h (by rw [hsame]) ?_
      rw [hsame]
      exact .writing a w hs h0 houter hinner hwire
  | blocked a hs h0 hplace hwaiting hwire =>
    obtain ⟨hes, hbufs, hnext⟩ := hs.step_eq hi'
    refine quiet_inv h hes ?_
    rcases hnext with hs' | ⟨w, hw, hs'⟩
    · refine .blocked a hs' ?_ hplace hwaiting ?_
      · dsimp only
        rwa [hbufs]
      · dsimp only
        rwa [hbufs]
    · refine .writing a w hs' ?_ (fun houter => absurd houter hw) (fun _ => ⟨hplace, hwaiting⟩) ?_
      · dsimp only
        rwa [hbufs]
      · dsimp only
        rwa [hbufs]

/-- **A frame is enqueued.** -/
lemma enqueue_inv {frame : List UInt8} (h : Inv s events) (hidle : s.stream.place = .idle) :
    Inv (handOn s (TxQueue.step s.queue (.enqueue frame))).1
      (events ++ (handOn s (TxQueue.step s.queue (.enqueue frame))).2) := by
  have hq := TxQueue.step_inv h.queue (.enqueue frame)
  obtain ⟨hreturned, hnext⟩ := enqueue_next h.queue frame
  have hfine : ∀ x ∈ returnedOf (queueOf events ++ (TxQueue.step s.queue (.enqueue frame)).2),
      ¬ TxQueue.Failed x.2 := by
    rw [TxQueue.returnedOf_append, hreturned, List.append_nil]
    exact h.fine
  cases h.phase with
  | rests hout hs hwire =>
    refine handOn_inv hq hfine ?_ hs hwire
    rcases hnext with ⟨hes, hplace, hwaiting⟩ | ⟨-, hnext⟩
    · refine .rests hes ?_
      rw [← hout]
      unfold outstanding
      rw [hplace, hwaiting]
    · exact hnext
  | writing a w hs h0 houter hinner hwire =>
    obtain ⟨call, timeout, hplace⟩ := hs.place
    cases hidle.symm.trans hplace
  | blocked a hs h0 hplace hwaiting hwire =>
    have hout : outstanding s.queue = [a] := by
      unfold outstanding
      rw [hplace, hwaiting]
    rcases hnext with ⟨hes, hplace', hwaiting'⟩ | ⟨hnil, -⟩
    · have heq : handOn s (TxQueue.step s.queue (.enqueue frame)) =
          ({ s with queue := (TxQueue.step s.queue (.enqueue frame)).1 },
            (TxQueue.step s.queue (.enqueue frame)).2.map .queue) := by
        unfold handOn
        rw [hes]
      rw [heq]
      constructor
      · rwa [queueOf_append, queueOf_queue]
      · rwa [queueOf_append, queueOf_queue]
      · refine .blocked a hs h0 (hplace'.trans hplace) (hwaiting'.trans hwaiting) ?_
        rw [wireOf_append, wireOf_queue, List.append_nil, queueOf_append, queueOf_queue,
          TxQueue.handedOf_append, hes, List.append_nil]
        exact hwire
    · rw [hout] at hnil
      cases hnil

lemma step_inv {i : Input} (h : Inv s events) (hi : i ≠ .write .error) :
    Inv (step s i).1 (events ++ (step s i).2) := by
  cases i with
  | enqueue frame =>
    by_cases hidle : s.stream.place = .idle
    · have heq : step s (.enqueue frame) = handOn s (TxQueue.step s.queue (.enqueue frame)) :=
        if_pos hidle
      rw [heq]
      exact enqueue_inv h hidle
    · have heq : step s (.enqueue frame) = (s, []) := if_neg hidle
      rw [heq, List.append_nil]
      exact h
  | write r => exact streamStep_inv h (.inl ⟨r, fun hr => hi (hr ▸ rfl), rfl⟩)
  | ready => exact streamStep_inv h (.inr (.inl rfl))
  | ret => exact streamStep_inv h (.inr (.inr rfl))

end Steps

lemma init_inv (bufs : ℕ → Buff) : Inv (init bufs) [] :=
  ⟨TxQueue.init_inv, fun _ hr => (List.not_mem_nil hr).elim,
    .rests rfl ⟨rfl, rfl, .inl rfl⟩ rfl⟩

end SstpClient.Wire
