import SstpClient.TxQueueHistory

/-!
The transmit queue in a run: it is in order, and each call of `ppp_enqueue_raw` enqueues its
frame.
-/

namespace SstpClient.TxQueue

open SstpClient.Lib.Machine SstpClient.Buffer

variable {s : Queue} {queue : List (ℕ × Buff)}

/-! ### The queue is in order -/

lemma Account.orderly {events : List Event} (h : Account s events queue)
    (hstalled : Stalled s events) : Orderly s events queue := by
  have hnames := h.names
  have hfirst : (enqueuedOf events).map Prod.fst = List.range s.items := by
    have hpairs : List.Forall₂ (· = ·) ((enqueuedOf events).map Prod.fst)
        ((handedOf events ++ queue).map Prod.fst) :=
      List.forall₂_map_left_iff.mpr
        (List.forall₂_map_right_iff.mpr (h.order.imp fun _ _ hp => hp.1))
    rw [List.forall₂_eq_eq_eq] at hpairs
    exact hpairs.trans hnames
  constructor
  · exact h.rep.reach
  · exact h.rep.tail
  · exact h.order
  · rw [hnames]
    exact List.nodup_range
  · exact h.single
  · rw [← h.rep.inflight]
    cases s.txInflight <;> rfl
  · rw [h.rep.busy, Option.isSome_iff_ne_none]
  · rw [h.released]
  · exact h.ended
  · exact hstalled
  · exact h.valid
  · obtain ⟨s', hs', hfree⟩ := h.rep.free
    refine ⟨s', _, hs', ?_, hfree⟩
    rw [releasedOf_append, releasedOf_map_released, hfirst, ← hnames, List.map_append, h.released,
      List.append_assoc]

/-! ### Each call enqueues its frame -/

section Frames

variable {s s' : Queue} {events : List Event}

lemma txFreeItem_new {item : Option ℕ} (h : pppTxFreeItem s item = some (s', events)) :
    enqueuedOf events = [] := by
  unfold pppTxFreeItem at h
  split at h
  · cases h
    rfl
  · split_ifs at h
    cases h
    rfl

lemma flushStart_new (h : pppFlushStart s = some (s', events)) : enqueuedOf events = [] := by
  unfold pppFlushStart at h
  split_ifs at h
  · cases h
    rfl
  · split at h
    · cases h
      rfl
    · obtain ⟨item, -, heq⟩ := Option.map_eq_some_iff.mp h
      cases heq
      rfl

lemma sendComplete_new (h : pppSendComplete s = some (s', events)) : enqueuedOf events = [] := by
  unfold pppSendComplete at h
  obtain ⟨r, hfree, h⟩ := Option.bind_eq_some_iff.mp h
  obtain ⟨r', hflush, h⟩ := Option.bind_eq_some_iff.mp h
  cases h
  rw [enqueuedOf_append, txFreeItem_new hfree, flushStart_new hflush]
  rfl

lemma sendReturned_new {a : ℕ} {status : Status} (h : sendReturned s a status = some (s', events)) :
    enqueuedOf events = [] := by
  unfold sendReturned at h
  split_ifs at h
  · obtain ⟨r, hfree, h⟩ := Option.bind_eq_some_iff.mp h
    obtain ⟨r', hflush, h⟩ := Option.bind_eq_some_iff.mp h
    cases h
    rw [enqueuedOf_append, txFreeItem_new hfree, flushStart_new hflush]
    rfl
  · obtain ⟨r, hfree, h⟩ := Option.bind_eq_some_iff.mp h
    cases h
    exact txFreeItem_new hfree
  · cases h
    rfl

lemma enqueueRaw_new {frame : List UInt8} (h : pppEnqueueRaw s frame = some (s', events)) :
    (enqueuedOf events).map Prod.snd = framesOf [.enqueue frame] := by
  by_cases hlen : frame.length = 0
  · rw [enqueueRaw_empty hlen] at h
    cases h
    rw [List.length_eq_zero_iff.mp hlen]
    rfl
  · obtain ⟨buf, hraw, -⟩ := Uplink.pppEnqueueRaw_eq (Nat.pos_of_ne_zero hlen)
    unfold pppEnqueueRaw at h
    rw [hraw] at h
    obtain ⟨s₁, -, h⟩ := Option.bind_eq_some_iff.mp h
    obtain ⟨r, hflush, h⟩ := Option.bind_eq_some_iff.mp h
    cases h
    change frame :: (enqueuedOf r.2).map Prod.snd = _
    rw [flushStart_new hflush]
    have hne : frame ≠ [] := fun h => hlen (List.length_eq_zero_iff.mpr h)
    simp [framesOf, hne]

/-- What a step sees is enqueued by the functions alone. -/
lemma outcome_new {seen : List Event} {r : Option (Queue × List Event)} {frames : List (List UInt8)}
    (hseen : enqueuedOf seen = []) (hvalid : .invalid ∉ (outcome s seen r).2)
    (hr : ∀ s' es, r = some (s', es) → (enqueuedOf es).map Prod.snd = frames) :
    (enqueuedOf (outcome s seen r).2).map Prod.snd = frames := by
  cases r with
  | none => exact absurd (List.mem_append_right _ List.mem_cons_self) hvalid
  | some r =>
    change (enqueuedOf (seen ++ r.2)).map Prod.snd = frames
    rw [enqueuedOf_append, hseen]
    exact hr r.1 r.2 rfl

lemma step_frames {i : Input} (hvalid : .invalid ∉ (step s i).2) :
    (enqueuedOf (step s i).2).map Prod.snd = framesOf [i] := by
  cases i with
  | enqueue frame =>
    rw [step_enqueue_eq] at hvalid ⊢
    exact outcome_new rfl hvalid fun _ _ h => enqueueRaw_new h
  | complete a =>
    cases hplace : s.place with
    | idle =>
      rw [step_complete_eq hplace] at hvalid ⊢
      split_ifs at hvalid ⊢
      · exact outcome_new rfl hvalid fun _ _ h => congrArg _ (sendComplete_new h)
      · rfl
    | sending b =>
      rw [step_complete_sending hplace]
      rfl
  | returned status =>
    cases hplace : s.place with
    | idle =>
      rw [step_returned_idle hplace]
      rfl
    | sending a =>
      rw [step_returned_eq hplace] at hvalid ⊢
      exact outcome_new rfl hvalid fun _ _ h => congrArg _ (sendReturned_new h)

lemma run_frames (inputs : List Input) (h : Inv s events) :
    (enqueuedOf (run step s inputs).2).map Prod.snd = framesOf inputs := by
  induction inputs generalizing s events with
  | nil => rfl
  | cons i inputs ih =>
    have hinv := step_inv h i
    obtain ⟨⟨queue, hacc⟩, -⟩ := hinv
    have hvalid : .invalid ∉ (step s i).2 := fun hmem => hacc.valid (List.mem_append_right _ hmem)
    have happend : framesOf (i :: inputs) = framesOf [i] ++ framesOf inputs :=
      List.filterMap_append (l := [i])
    rw [run_cons, enqueuedOf_append, List.map_append, step_frames hvalid, ih (step_inv h i),
      happend]

end Frames

/-- **The transmit queue stays in order**, whatever is enqueued and however the stream answers:
frames go out in the order they came, each once and one at a time, no item is released while it is
sent, and the queue stands still after a failed send only. -/
theorem queue_orderly (inputs : List Input) :
    (enqueuedOf (run step init inputs).2).map Prod.snd = framesOf inputs ∧
      ∃ queue, Orderly (run step init inputs).1 (run step init inputs).2 queue := by
  have hinv := run_inv_all Inv (fun s h i hinv => step_inv hinv i) init_inv inputs
  rw [List.nil_append] at hinv
  obtain ⟨⟨queue, hacc⟩, hstalled⟩ := hinv
  exact ⟨run_frames inputs init_inv, queue, hacc.orderly hstalled⟩

end SstpClient.TxQueue
