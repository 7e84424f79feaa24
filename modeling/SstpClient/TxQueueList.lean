import SstpClient.TxQueue

/-!
The items of the transmit queue in the memory: what each function of `ios-pppd.c` does to the list
from `tx_head` to `tx_tail` and to the items that are being sent.
-/

namespace SstpClient.TxQueue

open SstpClient.Lib.LinkedList SstpClient.Buffer

/-! ### The list in the memory -/

variable {s : Queue} {out : List ℕ} {queue : List (ℕ × Buff)}

/-- The memory holds the items being sent and those of the queue, linked in its order. -/
structure Rep (s : Queue) (out : List ℕ) (queue : List (ℕ × Buff)) : Prop where
  reach : Reach (nextOf s.heap) s.txHead (queue.map Prod.fst)
  tail : s.txTail = (queue.map Prod.fst).getLast?
  bufs : ∀ p ∈ queue, (s.heap p.1).map Item.buf = some p.2
  held : ∀ a, (s.heap a).isSome ↔ a ∈ out ++ queue.map Prod.fst
  nodup : (out ++ queue.map Prod.fst).Nodup
  allocated : ∀ a ∈ out ++ queue.map Prod.fst, a < s.items
  inflight : s.txInflight.toList = out
  busy : s.txBusy = s.txInflight.isSome

/-- The memory without an item. -/
def dropped (s : Queue) (a : ℕ) : Queue := { s with heap := Function.update s.heap a none }

lemma txFreeItem_held {a : ℕ} (h : (s.heap a).isSome) :
    pppTxFreeItem s (some a) = some (dropped s a, [.released a]) := by
  unfold pppTxFreeItem
  exact if_pos h

lemma isSome_dropped {a b : ℕ} : ((dropped s a).heap b).isSome ↔ b ≠ a ∧ (s.heap b).isSome := by
  change (Function.update s.heap a none b).isSome ↔ _
  by_cases hb : b = a
  · rw [hb, Function.update_self]
    exact iff_of_false (by decide) fun h => h.1 rfl
  · rw [Function.update_of_ne hb]
    exact (and_iff_right hb).symm

lemma heap_dropped {a b : ℕ} (h : b ≠ a) : (dropped s a).heap b = s.heap b :=
  Function.update_of_ne h ..

lemma nextOf_congr {heap heap' : ℕ → Option Item} {a : ℕ} (h : heap' a = heap a) :
    nextOf heap' a = nextOf heap a := by
  unfold nextOf
  rw [h]

/-- **The item sent is released.** -/
lemma Rep.release {a : ℕ} (h : Rep s [a] queue) (place : Place) (waiting : List ℕ) :
    pppTxFreeItem s (some a) = some (dropped s a, [.released a]) ∧
      Rep { dropped s a with
        txInflight := none, txBusy := false, place := place, waiting := waiting } [] queue := by
  obtain ⟨hnot, hnodup⟩ := List.nodup_cons.mp h.nodup
  have hne : ∀ b ∈ queue.map Prod.fst, b ≠ a := fun b hb he => hnot (he ▸ hb)
  refine ⟨txFreeItem_held ((h.held a).mpr (List.mem_append_left _ List.mem_cons_self)), ?_⟩
  constructor
  · exact h.reach.congr fun b hb => nextOf_congr (heap_dropped (hne b hb))
  · exact h.tail
  · intro p hp
    rw [← h.bufs p hp]
    exact congrArg _ (heap_dropped (hne p.1 (List.mem_map_of_mem hp)))
  · intro b
    refine isSome_dropped.trans ?_
    rw [h.held b, List.singleton_append, List.mem_cons, List.nil_append]
    constructor
    · rintro ⟨hb, hb' | hb'⟩
      · exact absurd hb' hb
      · exact hb'
    · exact fun hb => ⟨hne b hb, .inr hb⟩
  · exact hnodup
  · exact fun b hb => h.allocated b (List.mem_cons_of_mem a hb)
  · rfl
  · rfl

/-- **The first item of the queue is sent.** -/
lemma Rep.flush {a : ℕ} {buf : Buff} (h : Rep s [] ((a, buf) :: queue)) :
    ∃ s', pppFlushStart s = some (s', [.handed a buf]) ∧ s'.items = s.items ∧
      s'.waiting = s.waiting ∧ s'.place = .sending a ∧ Rep s' [a] queue := by
  have hbusy : ¬ s.txBusy = true := by
    rw [h.busy, Option.toList_eq_nil_iff.mp h.inflight]
    decide
  obtain ⟨hhead, hreach⟩ := reach_cons.mp h.reach
  obtain ⟨item, hitem, hbuf⟩ := Option.map_eq_some_iff.mp (h.bufs (a, buf) List.mem_cons_self)
  have hnext : nextOf s.heap a = item.next := by
    unfold nextOf
    rw [hitem]
    rfl
  rw [hnext] at hreach
  refine ⟨{ s with
    txHead := item.next, txTail := if item.next = none then none else s.txTail,
    txInflight := some a, txBusy := true, place := .sending a }, ?_, rfl, rfl, rfl, ?_⟩
  · unfold pppFlushStart
    rw [if_neg hbusy, hhead]
    dsimp only
    rw [hitem, Option.map_some, hbuf]
  constructor
  · exact hreach
  · cases hq : queue with
    | nil =>
      rw [hq] at hreach
      exact if_pos (reach_nil.mp hreach)
    | cons p rest =>
      rw [hq] at hreach
      have hsome : item.next ≠ none := by
        rw [(reach_cons.mp hreach).1]
        exact Option.some_ne_none p.1
      refine (if_neg hsome).trans (h.tail.trans ?_)
      rw [hq, List.map_cons, List.map_cons, List.getLast?_cons_cons]
  · exact fun p hp => h.bufs p (List.mem_cons_of_mem _ hp)
  · exact h.held
  · exact h.nodup
  · exact h.allocated
  · rfl
  · rfl

lemma flush_busy (h : s.txBusy = true) : pppFlushStart s = some (s, []) := by
  unfold pppFlushStart
  exact if_pos h

lemma Rep.flush_nil (h : Rep s [] []) : pppFlushStart s = some (s, []) := by
  unfold pppFlushStart
  split_ifs
  · rfl
  · rw [reach_nil.mp h.reach]

/-- A queue with one item more, by what the memory and the pointers are. -/
lemma Rep.snoc (h : Rep s out queue) {s' : Queue} {buf : Buff}
    (hbuf : ∀ b, b ≠ s.items → (s'.heap b).map Item.buf = (s.heap b).map Item.buf)
    (hnew : s'.heap s.items = some ⟨none, buf⟩)
    (hreach : Reach (nextOf s'.heap) s'.txHead (queue.map Prod.fst ++ [s.items]))
    (htail : s'.txTail = some s.items) (hitems : s'.items = s.items + 1)
    (hinflight : s'.txInflight = s.txInflight) (hbusy : s'.txBusy = s.txBusy) :
    Rep s' out (queue ++ [(s.items, buf)]) := by
  have hfresh : ∀ b ∈ out ++ queue.map Prod.fst, b ≠ s.items := fun b hb => (h.allocated b hb).ne
  have hmap : (queue ++ [(s.items, buf)]).map Prod.fst = queue.map Prod.fst ++ [s.items] :=
    List.map_append
  have hmem : ∀ b, b ∈ out ++ (queue.map Prod.fst ++ [s.items]) ↔
      b ∈ out ++ queue.map Prod.fst ∨ b = s.items := by
    intro b
    rw [← List.append_assoc, List.mem_append, List.mem_singleton]
  constructor
  · rw [hmap]
    exact hreach
  · rw [hmap, htail, List.getLast?_concat]
  · intro p hp
    rcases List.mem_append.mp hp with hp | hp
    · have hb : p.1 ∈ out ++ queue.map Prod.fst :=
        List.mem_append_right _ (List.mem_map_of_mem hp)
      rw [hbuf p.1 (hfresh p.1 hb)]
      exact h.bufs p hp
    · rw [List.mem_singleton.mp hp, hnew]
      rfl
  · intro b
    rw [hmap, hmem]
    by_cases hb : b = s.items
    · rw [hb, hnew]
      exact iff_of_true rfl (.inr rfl)
    · rw [← Option.isSome_map, hbuf b hb, Option.isSome_map, h.held b]
      exact (or_iff_left hb).symm
  · rw [hmap, ← List.append_assoc]
    refine List.nodup_append'.mpr ⟨h.nodup, List.nodup_singleton _, fun b hb hb' => ?_⟩
    exact hfresh b hb (List.mem_singleton.mp hb')
  · intro b hb
    rw [hmap, hmem] at hb
    rw [hitems]
    rcases hb with hb | rfl
    · exact Nat.lt_succ_of_lt (h.allocated b hb)
    · exact Nat.lt_succ_self _
  · rw [hinflight]
    exact h.inflight
  · rw [hbusy, hinflight]
    exact h.busy

/-- The memory with a new item that is linked nowhere. -/
def added (s : Queue) (buf : Buff) : ℕ → Option Item :=
  Function.update s.heap s.items (some ⟨none, buf⟩)

lemma added_new (buf : Buff) : added s buf s.items = some ⟨none, buf⟩ := Function.update_self ..

lemma added_old {b : ℕ} (buf : Buff) (h : b ≠ s.items) : added s buf b = s.heap b :=
  Function.update_of_ne h ..

lemma link_none (h : s.txHead = none) (buf : Buff) :
    link s buf = some { s with
      heap := added s buf
      items := s.items + 1
      txHead := some s.items
      txTail := some s.items } := by
  unfold link
  dsimp only
  rw [h]
  rfl

lemma link_some {first last : ℕ} {item : Item} {buf : Buff} (hhead : s.txHead = some first)
    (htail : s.txTail = some last) (hitem : added s buf last = some item) :
    link s buf = some { s with
      heap := Function.update (added s buf) last (some { item with next := some s.items })
      items := s.items + 1
      txTail := some s.items } := by
  unfold link
  dsimp only
  rw [hhead]
  dsimp only
  rw [htail, Option.bind_eq_bind, Option.bind_some]
  change (added s buf last).bind _ = _
  rw [hitem]
  rfl

/-- **A new item is linked** behind the last one. -/
lemma Rep.link (h : Rep s out queue) (buf : Buff) :
    ∃ s', link s buf = some s' ∧ s'.items = s.items + 1 ∧ s'.place = s.place ∧
      s'.waiting = s.waiting ∧ s'.txBusy = s.txBusy ∧ Rep s' out (queue ++ [(s.items, buf)]) := by
  have hfresh : ∀ b ∈ queue.map Prod.fst, b ≠ s.items := fun b hb =>
    (h.allocated b (List.mem_append_right _ hb)).ne
  have hreach := h.reach
  have hnodup := h.nodup.of_append_right
  rcases List.eq_nil_or_concat' (queue.map Prod.fst) with hq | ⟨before, last, hq⟩
  · -- the queue is empty
    rw [hq] at hreach
    refine ⟨_, link_none (reach_nil.mp hreach) buf, rfl, rfl, rfl, rfl,
      h.snoc (fun b hb => congrArg _ (added_old buf hb)) (added_new buf) ?_ rfl rfl rfl rfl⟩
    rw [hq]
    refine ⟨rfl, ?_⟩
    change (added s buf s.items).bind Item.next = none
    rw [added_new]
    rfl
  · -- the item goes behind the last one
    have hlast : last ∈ queue.map Prod.fst := hq ▸ List.mem_append_right _ List.mem_cons_self
    have hne : s.items ≠ last := (hfresh last hlast).symm
    obtain ⟨first, hfirst⟩ : ∃ first, s.txHead = some first := by
      cases hm : queue.map Prod.fst with
      | nil =>
        rw [hm] at hlast
        cases hlast
      | cons first rest =>
        rw [hm] at hreach
        exact ⟨first, (reach_cons.mp hreach).1⟩
    obtain ⟨item, hitem⟩ := Option.isSome_iff_exists.mp
      ((h.held last).mpr (List.mem_append_right _ hlast))
    have htail : s.txTail = some last := by rw [h.tail, hq, List.getLast?_concat]
    rw [hq] at hreach hnodup
    refine ⟨_, link_some hfirst htail ((added_old buf hne.symm).trans hitem), rfl, rfl, rfl, rfl,
      h.snoc ?_ ?_ ?_ rfl rfl rfl rfl⟩
    · intro b hb
      by_cases hb' : b = last
      · rw [hb', hitem]
        change (Function.update (added s buf) last _ last).map Item.buf = _
        rw [Function.update_self]
        rfl
      · rw [← added_old buf hb]
        exact congrArg _ (Function.update_of_ne hb' ..)
    · exact (Function.update_of_ne hne ..).trans (added_new buf)
    · rw [hq]
      refine hreach.snoc ?_ ?_ ?_
      · intro b hb
        have hb' : b ≠ last := fun he =>
          (List.nodup_append'.mp hnodup).2.2 hb (he ▸ List.mem_cons_self)
        refine nextOf_congr ((Function.update_of_ne hb' ..).trans (added_old buf ?_))
        exact hfresh b (hq ▸ List.mem_append_left _ hb)
      · change (Function.update (added s buf) last _ last).bind Item.next = some s.items
        rw [Function.update_self]
        rfl
      · change (Function.update (added s buf) last _ s.items).bind Item.next = none
        rw [Function.update_of_ne hne, added_new]
        rfl

/-! ### The end of the context -/

lemma freeQueue_eq {as : List ℕ} {rounds : ℕ} (hreach : Reach (nextOf s.heap) s.txHead as)
    (hheld : ∀ a, (s.heap a).isSome ↔ a ∈ as) (hnodup : as.Nodup) (hrounds : as.length ≤ rounds) :
    ∃ s', freeQueue rounds s = some (s', as.map .released) ∧ ∀ a, s'.heap a = none := by
  induction as generalizing s rounds with
  | nil =>
    refine ⟨s, ?_, fun a => ?_⟩
    · unfold freeQueue
      rw [reach_nil.mp hreach]
      rfl
    · exact Option.not_isSome_iff_eq_none.mp fun h => List.not_mem_nil ((hheld a).mp h)
  | cons a as ih =>
    obtain ⟨hhead, hnext⟩ := reach_cons.mp hreach
    obtain ⟨hnot, hnodup⟩ := List.nodup_cons.mp hnodup
    have hne : ∀ b ∈ as, b ≠ a := fun b hb he => hnot (he ▸ hb)
    have hsome : (s.heap a).isSome := (hheld a).mpr List.mem_cons_self
    obtain ⟨item, hitem⟩ := Option.isSome_iff_exists.mp hsome
    obtain ⟨rounds, rfl⟩ : ∃ n, rounds = n + 1 := Nat.exists_eq_add_one.mpr (by
      rw [List.length_cons] at hrounds
      omega)
    have hrest : nextOf s.heap a = item.next := by
      unfold nextOf
      rw [hitem]
      rfl
    rw [hrest] at hnext
    obtain ⟨s', hs', hfree⟩ := ih (s := dropped { s with txHead := item.next } a)
      (hnext.congr fun b hb => nextOf_congr (heap_dropped (hne b hb)))
      (fun b => by
        refine isSome_dropped.trans ?_
        change b ≠ a ∧ (s.heap b).isSome ↔ b ∈ as
        rw [hheld b, List.mem_cons]
        exact ⟨fun h => h.2.resolve_left h.1, fun h => ⟨hne b h, .inr h⟩⟩)
      hnodup (Nat.le_of_succ_le_succ hrounds)
    refine ⟨s', ?_, hfree⟩
    unfold freeQueue
    rw [hhead]
    dsimp only
    rw [hitem, Option.bind_eq_bind, Option.bind_some,
      txFreeItem_held (s := { s with txHead := item.next }) hsome,
      Option.bind_eq_bind, Option.bind_some, hs']
    rfl

/-- **What is left is released**, the item sent first. -/
lemma Rep.free (h : Rep s out queue) :
    ∃ s', sstpPppdFree s = some (s', (out ++ queue.map Prod.fst).map .released) ∧
      ∀ a, s'.heap a = none := by
  have hrounds : (queue.map Prod.fst).length ≤ s.items := by
    have hsub : queue.map Prod.fst ⊆ List.range s.items := fun a ha =>
      List.mem_range.mpr (h.allocated a (List.mem_append_right _ ha))
    have hle := (h.nodup.of_append_right.subperm hsub).length_le
    rwa [List.length_range] at hle
  unfold sstpPppdFree
  cases hinflight : s.txInflight with
  | none =>
    have hout : out = [] := by rw [← h.inflight, hinflight, Option.toList_none]
    have hheld := h.held
    rw [hout] at hheld
    obtain ⟨s', hs', hfree⟩ := freeQueue_eq (s := { s with txInflight := none }) h.reach hheld
      h.nodup.of_append_right hrounds
    refine ⟨s', ?_, hfree⟩
    rw [show pppTxFreeItem s none = some (s, []) from rfl, Option.bind_eq_bind, Option.bind_some,
      hs', hout]
    rfl
  | some a =>
    have hout : out = [a] := by rw [← h.inflight, hinflight, Option.toList_some]
    rw [hout] at h
    obtain ⟨hdrop, hrep⟩ := h.release s.place s.waiting
    obtain ⟨s', hs', hfree⟩ := freeQueue_eq (s := { dropped s a with txInflight := none })
      hrep.reach hrep.held hrep.nodup hrounds
    refine ⟨s', ?_, hfree⟩
    rw [hdrop, Option.bind_eq_bind, Option.bind_some, hs', hout]
    rfl

end SstpClient.TxQueue
