import SstpClient.TxQueueList

/-!
What has happened to the transmit queue, and the queue as it is: each step keeps the account of
what was enqueued, handed to the stream and released.
-/

namespace SstpClient.TxQueue

open SstpClient.Lib.Machine SstpClient.Buffer

variable {s : Queue} {queue : List (ℕ × Buff)}

/-! ### The history -/

section History

variable {events new : List Event} {frame : List UInt8} {buf : Buff} {a : ℕ} {e : Event}

@[simp] lemma enqueuedOf_append :
    enqueuedOf (events ++ new) = enqueuedOf events ++ enqueuedOf new := List.filterMap_append

@[simp] lemma handedOf_append :
    handedOf (events ++ new) = handedOf events ++ handedOf new := List.filterMap_append

@[simp] lemma returnedOf_append :
    returnedOf (events ++ new) = returnedOf events ++ returnedOf new := List.filterMap_append

@[simp] lemma releasedOf_append :
    releasedOf (events ++ new) = releasedOf events ++ releasedOf new := List.filterMap_append

lemma releasedOf_map_released (as : List ℕ) : releasedOf (as.map .released) = as := by
  induction as with
  | nil => rfl
  | cons a as ih => exact congrArg (a :: ·) ih

/-- The state and what has happened so far, with the queue. -/
structure Account (s : Queue) (events : List Event) (queue : List (ℕ × Buff)) : Prop where
  rep : Rep s (outstanding s) queue
  order : List.Forall₂ (fun e h => e.1 = h.1 ∧ Packed e.2 h.2) (enqueuedOf events)
    (handedOf events ++ queue)
  names : (handedOf events ++ queue).map Prod.fst = List.range s.items
  released : (handedOf events).map Prod.fst = releasedOf events ++ outstanding s
  ended : ∀ h₁ a h₂, events = h₁ ++ .released a :: h₂ → Ended h₁ a
  valid : .invalid ∉ events

lemma Ended.mono (h : Ended events a) : Ended (events ++ new) a := by
  rcases h with h | ⟨status, hstatus, h⟩
  · exact .inl (List.mem_append_left _ h)
  · exact .inr ⟨status, hstatus, List.mem_append_left _ h⟩

lemma ended_concat (h : ∀ h₁ a h₂, events = h₁ ++ .released a :: h₂ → Ended h₁ a)
    (he : ∀ a, e = .released a → Ended events a) :
    ∀ h₁ a h₂, events ++ [e] = h₁ ++ .released a :: h₂ → Ended h₁ a := by
  intro h₁ a h₂ heq
  rcases split_concat heq with ⟨t, ht⟩ | ⟨rfl, hlast⟩
  · exact h h₁ a t ht
  · exact he a hlast.symm

/-- **One event more**, which is no release before its time. -/
lemma Account.snoc {s' : Queue} {queue' : List (ℕ × Buff)} (h : Account s events queue)
    (hrep : Rep s' (outstanding s') queue')
    (horder : List.Forall₂ (fun e h => e.1 = h.1 ∧ Packed e.2 h.2) (enqueuedOf (events ++ [e]))
      (handedOf (events ++ [e]) ++ queue'))
    (hnames : (handedOf (events ++ [e]) ++ queue').map Prod.fst = List.range s'.items)
    (hreleased : (handedOf (events ++ [e])).map Prod.fst =
      releasedOf (events ++ [e]) ++ outstanding s')
    (hended : ∀ a, e = .released a → Ended events a) (hvalid : e ≠ .invalid) :
    Account s' (events ++ [e]) queue' := by
  refine ⟨hrep, horder, hnames, hreleased, ended_concat h.ended hended, fun hmem => ?_⟩
  rcases List.mem_append.mp hmem with hmem | hmem
  · exact h.valid hmem
  · exact hvalid (List.mem_singleton.mp hmem).symm

/-- **What the stream reports** moves no item. -/
lemma Account.report (h : Account s events queue) (henqueued : enqueuedOf [e] = [])
    (hhanded : handedOf [e] = []) (hreleased : releasedOf [e] = []) (hvalid : e ≠ .invalid) :
    Account s (events ++ [e]) queue := by
  refine h.snoc h.rep ?_ ?_ ?_ (fun a he => ?_) hvalid
  · rw [enqueuedOf_append, henqueued, handedOf_append, hhanded, List.append_nil, List.append_nil]
    exact h.order
  · rw [handedOf_append, hhanded, List.append_nil]
    exact h.names
  · rw [handedOf_append, hhanded, releasedOf_append, hreleased, List.append_nil, List.append_nil]
    exact h.released
  · rw [he] at hreleased
    cases hreleased

/-- At most one send goes on. -/
lemma Account.single (h : Account s events queue) : (outstanding s).length ≤ 1 := by
  rw [← h.rep.inflight]
  exact Option.length_toList_le

/-- **A new item waits.** -/
lemma Account.link (h : Account s events queue) (hpacked : Packed frame buf) :
    ∃ s', link s buf = some s' ∧ s'.place = s.place ∧ s'.waiting = s.waiting ∧
      s'.txBusy = s.txBusy ∧
      Account s' (events ++ [.enqueued s.items frame]) (queue ++ [(s.items, buf)]) := by
  obtain ⟨s', hs', hitems, hplace, hwaiting, hbusy, hrep⟩ := h.rep.link buf
  have hout : outstanding s' = outstanding s := by
    unfold outstanding
    rw [hplace, hwaiting]
  refine ⟨s', hs', hplace, hwaiting, hbusy, h.snoc (hout ▸ hrep) ?_ ?_ ?_ (fun _ => nofun) nofun⟩
  · rw [enqueuedOf_append, handedOf_append, ← List.append_assoc]
    change List.Forall₂ _ (_ ++ [(s.items, frame)])
      (handedOf events ++ [] ++ queue ++ [(s.items, buf)])
    rw [List.append_nil]
    exact List.rel_append h.order (.cons ⟨rfl, hpacked⟩ .nil)
  · rw [handedOf_append, ← List.append_assoc, List.map_append]
    change ((handedOf events ++ []) ++ queue).map Prod.fst ++ [s.items] = _
    rw [List.append_nil, h.names, hitems, List.range_succ]
  · rw [handedOf_append, releasedOf_append, hout]
    change (handedOf events ++ []).map Prod.fst = releasedOf events ++ [] ++ outstanding s
    rw [List.append_nil, List.append_nil]
    exact h.released

/-- **The item sent is released** when its send has ended. -/
lemma Account.release (h : Account s events queue) (hout : outstanding s = [a])
    (hended : Ended events a) {waiting : List ℕ} (hwaiting : waiting = []) :
    pppTxFreeItem s (some a) = some (dropped s a, [.released a]) ∧
      Account { dropped s a with
        txInflight := none, txBusy := false, place := .idle, waiting := waiting }
        (events ++ [.released a]) queue := by
  subst hwaiting
  have hrep := h.rep
  rw [hout] at hrep
  obtain ⟨hdrop, hrep⟩ := hrep.release .idle []
  refine ⟨hdrop, h.snoc hrep ?_ ?_ ?_ (fun b hb => ?_) nofun⟩
  · rw [enqueuedOf_append, handedOf_append]
    change List.Forall₂ _ (enqueuedOf events ++ []) (handedOf events ++ [] ++ queue)
    rw [List.append_nil, List.append_nil]
    exact h.order
  · rw [handedOf_append]
    change (handedOf events ++ [] ++ queue).map Prod.fst = _
    rw [List.append_nil]
    exact h.names
  · rw [handedOf_append, releasedOf_append]
    change (handedOf events ++ []).map Prod.fst = releasedOf events ++ [a] ++ []
    rw [List.append_nil, List.append_nil, h.released, hout]
  · cases hb
    exact hended

/-- Nothing waits where nothing is sent. -/
def Running (s : Queue) : Prop := s.place = .idle → s.txBusy = false → s.txHead = none

/-- **The queue goes on**, with the first item that waits. -/
lemma Account.flush (h : Account s events queue) (hplace : s.place = .idle)
    (hwaiting : s.waiting = []) :
    ∃ s' new queue', pppFlushStart s = some (s', new) ∧ returnedOf new = [] ∧ Running s' ∧
      Account s' (events ++ new) queue' := by
  have hout : outstanding s = [] := by
    unfold outstanding
    rw [hplace, hwaiting]
  have hrep := h.rep
  rw [hout] at hrep
  cases queue with
  | nil =>
    refine ⟨s, [], [], hrep.flush_nil, rfl, fun _ _ => hrep.reach, ?_⟩
    rwa [List.append_nil]
  | cons p rest =>
    obtain ⟨s', hs', hitems, hwaiting', hplace', hrep'⟩ := hrep.flush
    have hout' : outstanding s' = [p.1] := by
      unfold outstanding
      rw [hplace', hwaiting', hwaiting]
    have happend :
        handedOf (events ++ [.handed p.1 p.2]) ++ rest = handedOf events ++ p :: rest := by
      rw [handedOf_append, List.append_assoc]
      rfl
    refine ⟨s', _, rest, hs', rfl, fun hidle => ?_,
      h.snoc (hout' ▸ hrep') ?_ ?_ ?_ (fun _ => nofun) nofun⟩
    · rw [hplace'] at hidle
      cases hidle
    · rw [happend, enqueuedOf_append]
      change List.Forall₂ _ (enqueuedOf events ++ []) _
      rw [List.append_nil]
      exact h.order
    · rw [happend, hitems]
      exact h.names
    · rw [handedOf_append, releasedOf_append, List.map_append, h.released, hout, hout']
      change releasedOf events ++ [] ++ [p.1] = releasedOf events ++ [] ++ [p.1]
      rfl

/-- The queue stands still after a failed send only. -/
def Stalled (s : Queue) (events : List Event) : Prop :=
  s.place = .idle → s.txBusy = false → s.txHead ≠ none →
    ∃ a status, (returnedOf events).getLast? = some (a, status) ∧ Failed status

lemma Running.stalled (h : Running s) : Stalled s events := fun hplace hbusy hhead =>
  absurd (h hplace hbusy) hhead

/-- After any step. -/
def Inv (s : Queue) (events : List Event) : Prop :=
  (∃ queue, Account s events queue) ∧ Stalled s events

lemma enqueueRaw_empty (h : frame.length = 0) : pppEnqueueRaw s frame = some (s, []) := by
  unfold pppEnqueueRaw Uplink.pppEnqueueRaw
  rw [if_pos h]

/-- No send goes on while the flag is clear. -/
lemma Account.free (h : Account s events queue) (hbusy : ¬ s.txBusy = true) :
    s.place = .idle ∧ s.waiting = [] := by
  rw [h.rep.busy, Bool.not_eq_true, Option.isSome_eq_false_iff, Option.isNone_iff_eq_none] at hbusy
  have hout := h.rep.inflight
  rw [hbusy, Option.toList_none] at hout
  unfold outstanding at hout
  cases hplace : s.place with
  | idle =>
    rw [hplace] at hout
    exact ⟨rfl, hout.symm⟩
  | sending a =>
    rw [hplace] at hout
    cases hout

lemma step_enqueue (h : Inv s events) (frame : List UInt8) :
    Inv (outcome s [] (pppEnqueueRaw s frame)).1
      (events ++ (outcome s [] (pppEnqueueRaw s frame)).2) := by
  obtain ⟨⟨queue, hacc⟩, hstalled⟩ := h
  by_cases hlen : frame.length = 0
  · rw [enqueueRaw_empty hlen]
    change Inv s (events ++ [])
    rw [List.append_nil]
    exact ⟨⟨queue, hacc⟩, hstalled⟩
  obtain ⟨buf, hraw, hpacked⟩ := Uplink.pppEnqueueRaw_eq (Nat.pos_of_ne_zero hlen)
  obtain ⟨s₁, hlink, hplace₁, hwaiting₁, hbusy₁, hacc₁⟩ := hacc.link hpacked
  have heq : ∀ s₂ new, pppFlushStart s₁ = some (s₂, new) →
      pppEnqueueRaw s frame = some (s₂, .enqueued s.items frame :: new) := by
    intro s₂ new hflush
    unfold pppEnqueueRaw
    rw [hraw]
    dsimp only
    rw [hlink, Option.bind_eq_bind, Option.bind_some, hflush]
    rfl
  by_cases hbusy : s.txBusy = true
  · -- a send goes on
    rw [heq _ _ (flush_busy (hbusy₁.trans hbusy))]
    refine ⟨⟨_, hacc₁⟩, fun _ hidle => ?_⟩
    cases hidle.symm.trans (hbusy₁.trans hbusy)
  · obtain ⟨hplace, hwaiting⟩ := hacc.free hbusy
    obtain ⟨s₂, new, queue', hflush, -, hrunning, hacc₂⟩ :=
      hacc₁.flush (hplace₁.trans hplace) (hwaiting₁.trans hwaiting)
    rw [heq _ _ hflush]
    refine ⟨⟨queue', ?_⟩, hrunning.stalled⟩
    rw [List.append_assoc] at hacc₂
    exact hacc₂

/-- The item kept by the stream is the one in flight. -/
lemma Account.kept (h : Account s events queue) (hplace : s.place = .idle) (hmem : a ∈ s.waiting) :
    s.waiting = [a] ∧ s.txInflight = some a := by
  have hout : outstanding s = s.waiting := by
    unfold outstanding
    rw [hplace]
  have hinflight := h.rep.inflight
  rw [hout] at hinflight
  rw [← hinflight, Option.mem_toList] at hmem
  rw [← hinflight, hmem]
  exact ⟨rfl, rfl⟩

lemma sendComplete_eq (hinflight : s.txInflight = some a) (hheld : (s.heap a).isSome) :
    pppSendComplete s =
      (pppFlushStart { dropped s a with txInflight := none, txBusy := false }).map
        fun r => (r.1, .released a :: r.2) := by
  unfold pppSendComplete
  rw [hinflight, txFreeItem_held hheld, Option.bind_eq_bind, Option.bind_some]
  exact (Option.map_eq_bind ..).symm

lemma step_complete (h : Inv s events) (hplace : s.place = .idle) (hmem : a ∈ s.waiting) :
    let r := outcome s [.completed a] (pppSendComplete { s with waiting := s.waiting.erase a })
    Inv r.1 (events ++ r.2) := by
  obtain ⟨⟨queue, hacc⟩, -⟩ := h
  obtain ⟨hwaiting, hinflight⟩ := hacc.kept hplace hmem
  have hout : outstanding s = [a] := by
    unfold outstanding
    rw [hplace, hwaiting]
  have herase : s.waiting.erase a = [] := by
    rw [hwaiting, List.erase_cons_head]
  have hacc₁ := hacc.report (e := .completed a) rfl rfl rfl nofun
  obtain ⟨hdrop, hacc₂⟩ := hacc₁.release hout
    (.inl (List.mem_append_right _ List.mem_cons_self)) herase
  obtain ⟨s₂, new, queue', hflush, -, hrunning, hacc₃⟩ := hacc₂.flush rfl herase
  have hheld : (s.heap a).isSome := (hacc.rep.held a).mpr (by
    rw [hout]
    exact List.mem_append_left _ List.mem_cons_self)
  rw [← hplace] at hflush
  rw [sendComplete_eq (s := { s with waiting := s.waiting.erase a }) hinflight hheld]
  rw [show pppFlushStart { dropped { s with waiting := s.waiting.erase a } a with
    txInflight := none, txBusy := false } = some (s₂, new) from hflush]
  refine ⟨⟨queue', ?_⟩, hrunning.stalled⟩
  rw [List.append_assoc, List.append_assoc] at hacc₃
  exact hacc₃

lemma sendReturned_okay (h : pppTxFreeItem s (some a) = some (dropped s a, [.released a])) :
    sendReturned s a .okay =
      (pppFlushStart { dropped s a with txInflight := none, txBusy := false, place := .idle }).map
        fun r => (r.1, .released a :: r.2) := by
  unfold sendReturned
  rw [if_pos rfl, h, Option.bind_eq_bind, Option.bind_some]
  exact (Option.map_eq_bind ..).symm

lemma sendReturned_failed {status : Status} (hstatus : Failed status)
    (h : pppTxFreeItem s (some a) = some (dropped s a, [.released a])) :
    sendReturned s a status =
      some ({ dropped s a with txInflight := none, txBusy := false, place := .idle },
        [.released a]) := by
  unfold sendReturned
  rw [if_neg hstatus.1, if_pos hstatus.2, h]
  rfl

lemma step_returned (h : Inv s events) (hplace : s.place = .sending a) (status : Status) :
    Inv (outcome s [.returned a status] (sendReturned s a status)).1
      (events ++ (outcome s [.returned a status] (sendReturned s a status)).2) := by
  obtain ⟨⟨queue, hacc⟩, -⟩ := h
  have hout : outstanding s = a :: s.waiting := by
    unfold outstanding
    rw [hplace]
  have hwaiting : s.waiting = [] := by
    have hsingle := hacc.single
    rw [hout, List.length_cons] at hsingle
    exact List.eq_nil_of_length_eq_zero (by omega)
  have hacc₁ := hacc.report (e := .returned a status) rfl rfl rfl nofun
  by_cases hinprog : status = .inprog
  · -- the stream keeps the item
    subst hinprog
    change Inv { s with waiting := a :: s.waiting, place := .idle } _
    refine ⟨⟨queue, ?_, hacc₁.order, hacc₁.names, ?_, hacc₁.ended, hacc₁.valid⟩, fun _ hbusy => ?_⟩
    · have hrep := hacc.rep
      rw [hout] at hrep
      exact ⟨hrep.reach, hrep.tail, hrep.bufs, hrep.held, hrep.nodup, hrep.allocated, hrep.inflight,
        hrep.busy⟩
    · rw [← hout]
      exact hacc₁.released
    · have hinflight := hacc.rep.inflight
      rw [hout] at hinflight
      have hnone : s.txInflight = none := by
        rw [← Option.isNone_iff_eq_none, ← Option.isSome_eq_false_iff, ← hacc.rep.busy]
        exact hbusy
      rw [hnone] at hinflight
      cases hinflight
  obtain ⟨hdrop, hacc₂⟩ := hacc₁.release (hout.trans (congrArg _ hwaiting))
    (.inr ⟨status, hinprog, List.mem_append_right _ List.mem_cons_self⟩) hwaiting
  by_cases hokay : status = .okay
  · subst hokay
    obtain ⟨s₂, new, queue', hflush, -, hrunning, hacc₃⟩ := hacc₂.flush rfl hwaiting
    rw [sendReturned_okay hdrop]
    rw [show pppFlushStart { dropped s a with
      txInflight := none, txBusy := false, place := .idle } = some (s₂, new) from hflush]
    refine ⟨⟨queue', ?_⟩, hrunning.stalled⟩
    rw [List.append_assoc, List.append_assoc] at hacc₃
    exact hacc₃
  · rw [sendReturned_failed ⟨hokay, hinprog⟩ hdrop]
    rw [List.append_assoc] at hacc₂
    refine ⟨⟨queue, hacc₂⟩, fun _ _ _ => ⟨a, status, ?_, hokay, hinprog⟩⟩
    change (returnedOf (events ++ [.returned a status, .released a])).getLast? = _
    rw [returnedOf_append]
    exact List.getLast?_concat

lemma step_inv (h : Inv s events) (i : Input) :
    Inv (step s i).1 (events ++ (step s i).2) := by
  have hsame : Inv s (events ++ []) := by rwa [List.append_nil]
  cases i with
  | enqueue frame =>
    rw [step_enqueue_eq]
    exact step_enqueue h frame
  | complete a =>
    cases hplace : s.place with
    | idle =>
      rw [step_complete_eq hplace]
      split_ifs with hmem
      · exact step_complete h hplace hmem
      · exact hsame
    | sending b =>
      rw [step_complete_sending hplace]
      exact hsame
  | returned status =>
    cases hplace : s.place with
    | idle =>
      rw [step_returned_idle hplace]
      exact hsame
    | sending a =>
      rw [step_returned_eq hplace]
      exact step_returned h hplace status

lemma init_inv : Inv init [] := by
  refine ⟨⟨[], ?_, .nil, rfl, rfl, fun h₁ a h₂ heq => ?_, List.not_mem_nil⟩, fun _ _ hhead => ?_⟩
  · constructor
    · rfl
    · rfl
    · intro p hp
      cases hp
    · intro a
      exact iff_of_false Bool.false_ne_true List.not_mem_nil
    · exact List.nodup_nil
    · intro a ha
      cases ha
    · rfl
    · rfl
  · exact absurd heq.symm (List.append_ne_nil_of_right_ne_nil _ (List.cons_ne_nil _ _))
  · exact absurd rfl hhead

end History

end SstpClient.TxQueue
