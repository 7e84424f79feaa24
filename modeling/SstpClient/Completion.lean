import SstpClient.StreamSpec

/-!
Completion callbacks, `sstp_stream_send` and `sstp_send_cont`.

A call goes from being made over being open, while it writes for the first time, and pending, while
its operation is queued or written again, to being settled. What is seen of it tells the stage, and
the queue holds the pending ones.
-/

namespace SstpClient.Completion

open SstpClient.Lib.Machine SstpClient.Buffer SstpClient.Stream SstpClient.StreamSpec

/-! ### The stages of a call -/

/-- Where a call is. -/
inductive Stage
  | fresh | opened | pending | settled
  deriving DecidableEq

/-- A status with which a call ends. -/
def Final (status : Status) : Prop := status = .okay ∨ status = .fail

/-- How a call goes on, and what is seen of it. -/
inductive Moves (call : ℕ) : Stage → List Event → Stage → Prop
  | stays (g : Stage) : Moves call g [] g
  | opens : Moves call .fresh [] .opened
  | queues : Moves call .fresh [.returned call .inprog] .pending
  | blocks : Moves call .opened [.returned call .inprog] .pending
  | ends (status : Status) (h : Final status) : Moves call .opened [.returned call status] .settled
  | completes (status : Status) (h : Final status) :
    Moves call .pending [.completed call status] .settled

/-- What has been seen of a call at a stage. -/
def Told (call : ℕ) (t : List Event) : Stage → Prop
  | .fresh => t = []
  | .opened => t = []
  | .pending => t = [.returned call .inprog]
  | .settled => ∃ status, Final status ∧
      (t = [.returned call status] ∨ t = [.returned call .inprog, .completed call status])

/-- **One step of a call.** -/
theorem told_moves {call : ℕ} {g g' : Stage} {t new : List Event} (h : Told call t g)
    (hmoves : Moves call g new g') : Told call (t ++ new) g' := by
  cases hmoves with
  | stays => rwa [List.append_nil]
  | opens => exact (List.append_nil t).trans h
  | queues =>
    have ht : t = [] := h
    rw [ht]
    rfl
  | blocks =>
    have ht : t = [] := h
    rw [ht]
    rfl
  | ends status hfinal =>
    have ht : t = [] := h
    rw [ht]
    exact ⟨status, hfinal, .inl rfl⟩
  | completes status hfinal =>
    have ht : t = [.returned call .inprog] := h
    rw [ht]
    exact ⟨status, hfinal, .inr rfl⟩

/-! ### The stages in the stream -/

/-- A write for a new call. -/
def openedBy : Caller → ℕ → List ℕ
  | .sendCont _, _ => []
  | _, call => [call]

/-- A write for an operation that `sstp_send_cont` has taken out of the queue. -/
def retriedBy : Caller → ℕ → List ℕ
  | .sendCont _, call => [call]
  | _, _ => []

/-- The call that is being made. -/
def opening (s : SstpStream) : List ℕ :=
  match s.place with
  | .writing _ call _ w => openedBy w call
  | _ => []

/-- The call whose operation is written again. -/
def retried (s : SstpStream) : List ℕ :=
  match s.place with
  | .writing _ call _ w => retriedBy w call
  | _ => []

/-- The calls in progress: those of the queue, and the one taken out of it. -/
def inProgress (s : SstpStream) : List ℕ := retried s ++ s.send.map Operation.call

def stage (s : SstpStream) (call : ℕ) : Stage :=
  if s.calls ≤ call then .fresh
  else if call ∈ opening s then .opened
  else if call ∈ inProgress s then .pending
  else .settled

/-- The event is about the call. -/
def about (call : ℕ) : Event → Bool
  | .attempt _ => false
  | .returned c _ => c = call
  | .completed c _ => c = call

/-- What is seen of a call. -/
def seen (call : ℕ) (events : List Event) : List Event := events.filter (about call)

lemma seen_append (call : ℕ) (events new : List Event) :
    seen call (events ++ new) = seen call events ++ seen call new := List.filter_append ..

lemma seen_attempt (call : ℕ) (a : Attempt) (events : List Event) :
    seen call (.attempt a :: events) = seen call events := rfl

lemma mem_seen {call : ℕ} {events : List Event} {e : Event} (h : about call e = true) :
    e ∈ seen call events ↔ e ∈ events := by
  unfold seen
  rw [List.mem_filter, h]
  exact and_iff_left rfl

/-- The calls in use are the one being made and those in progress. -/
lemma calls_users (s : SstpStream) : (users s).map Prod.snd = opening s ++ inProgress s := by
  have hsend : (s.send.map use).map Prod.snd = s.send.map Operation.call := by
    rw [List.map_map]
    rfl
  unfold users inProgress
  rw [List.map_append, hsend, ← List.append_assoc]
  refine congrArg (· ++ s.send.map Operation.call) ?_
  unfold writer opening retried
  cases s.place with
  | idle => rfl
  | callback cell => rfl
  | writing buf call timeout w => cases w <;> rfl

/-- What a step does to the calls. -/
inductive Effect (s s' : SstpStream) (new : List Event) : Prop
  | moved (hcalls : s'.calls = s.calls) (hopening : opening s' = opening s)
    (hprogress : (inProgress s').Perm (inProgress s)) (hnew : ∀ call, seen call new = [])
  | opens (hcalls : s'.calls = s.calls + 1) (hopening : opening s = [])
    (hopening' : opening s' = [s.calls]) (hprogress : inProgress s' = inProgress s)
    (hnew : new = [])
  | queues (hcalls : s'.calls = s.calls + 1) (hopening : opening s = []) (hopening' : opening s' = [])
    (hprogress : (inProgress s').Perm (s.calls :: inProgress s))
    (hnew : new = [.returned s.calls .inprog])
  | blocks (call : ℕ) (hcalls : s'.calls = s.calls) (hopening : opening s = [call])
    (hopening' : opening s' = []) (hprogress : (inProgress s').Perm (call :: inProgress s))
    (a : Attempt) (hnew : new = [.attempt a, .returned call .inprog])
  | ends (call : ℕ) (status : Status) (hfinal : Final status) (hcalls : s'.calls = s.calls)
    (hopening : opening s = [call]) (hopening' : opening s' = [])
    (hprogress : inProgress s' = inProgress s) (a : Attempt)
    (hnew : new = [.attempt a, .returned call status])
  | completes (call : ℕ) (status : Status) (hfinal : Final status) (hcalls : s'.calls = s.calls)
    (hopening : opening s = []) (hopening' : opening s' = [])
    (hprogress : inProgress s = call :: inProgress s') (a : Attempt)
    (hnew : new = [.attempt a, .completed call status])

section Effect

variable {s : SstpStream}

lemma effect_same (s : SstpStream) : Effect s s [] := .moved rfl rfl (.refl _) fun _ => rfl

/-- The calls of the queue with an operation more. -/
lemma perm_calls_append (ops : List Operation) (op : Operation) :
    ((ops ++ [op]).map Operation.call).Perm (op.call :: ops.map Operation.call) := by
  rw [List.map_append]
  exact List.perm_append_singleton _ _

/-- A call from outside: it is queued, or begins to write. -/
lemma effect_sendFrom {w : Caller} (hw : w = .handler ∨ ∃ cell, w = .callback cell)
    (hopening : opening s = []) (hretried : retried s = []) (buf timeout : ℕ) :
    Effect s (sendFrom s w buf timeout).1 (sendFrom s w buf timeout).2 := by
  by_cases hev : s.evSend.isSome
  · obtain ⟨cell, cache, cells, heq⟩ := sendFrom_pending hev w buf timeout
    have hprogress : ((s.send ++ [Operation.mk cell buf s.calls timeout]).map Operation.call).Perm
        (s.calls :: inProgress s) := by
      unfold inProgress
      rw [hretried]
      exact perm_calls_append _ _
    rw [heq]
    rcases hw with rfl | ⟨cell', rfl⟩
    · exact .queues rfl hopening rfl hprogress rfl
    · exact .queues rfl hopening rfl hprogress rfl
  · have hprogress : s.send.map Operation.call = inProgress s := by
      unfold inProgress
      rw [hretried]
      rfl
    rw [sendFrom_free (by simpa using hev)]
    rcases hw with rfl | ⟨cell, rfl⟩
    · exact .opens rfl hopening rfl hprogress rfl
    · exact .opens rfl hopening rfl hprogress rfl

/-- `sstp_send_cont` takes the first operation, and may put it back at the end. -/
lemma effect_sendCont (hopening : opening s = []) (hretried : retried s = [])
    (ev : Option Interest) (cache : List ℕ) :
    Effect s (sendCont { s with evSend := ev, cache := cache }).1
      (sendCont { s with evSend := ev, cache := cache }).2 := by
  have hprogress : inProgress s = s.send.map Operation.call := by
    unfold inProgress
    rw [hretried]
    rfl
  unfold sendCont
  split
  · next hsend =>
    exact .moved rfl hopening.symm (hprogress ▸ .refl _) fun _ => rfl
  · next op rest hsend =>
    have hsend' : s.send = op :: rest := hsend
    rw [hsend'] at hprogress
    unfold sstpStreamSend
    by_cases hev : ev.isSome = true
    · obtain ⟨cell, cache', cells, hadd⟩ := sstpOperationAddWrite_eq
        { s with evSend := ev, cache := cache, send := rest } op.buf .write op.timeout op.call
      dsimp only
      rw [if_pos hev, hadd]
      refine .moved rfl hopening.symm ?_ fun _ => rfl
      rw [hprogress]
      exact perm_calls_append _ _
    · dsimp only
      rw [if_neg hev]
      refine .moved rfl hopening.symm ?_ fun _ => rfl
      rw [hprogress]
      exact .refl _

lemma calls_writing {buf call timeout : ℕ} {w : Caller}
    (hplace : s.place = .writing buf call timeout w) :
    opening s = openedBy w call ∧ inProgress s = retriedBy w call ++ s.send.map Operation.call := by
  unfold inProgress opening retried
  rw [hplace]
  exact ⟨rfl, rfl⟩

/-- `sstp_stream_send` returns with a final status. -/
lemma effect_ended {buf call timeout : ℕ} {w : Caller} (hplace : s.place = .writing buf call timeout w)
    {s' : SstpStream} (hsend : s'.send = s.send) (hcalls : s'.calls = s.calls) {status : Status}
    (hfinal : Final status) (a : Attempt) :
    Effect s (leave s' w call status).1 (.attempt a :: (leave s' w call status).2) := by
  have hinprog : status ≠ .inprog := by
    rcases hfinal with rfl | rfl <;> decide
  obtain ⟨hopening, hprogress⟩ := calls_writing hplace
  unfold leave
  cases w with
  | handler =>
    refine .ends call status hfinal hcalls hopening rfl ?_ a rfl
    rw [hprogress, ← hsend]
    rfl
  | callback cell =>
    refine .ends call status hfinal hcalls hopening rfl ?_ a rfl
    rw [hprogress, ← hsend]
    rfl
  | sendCont cell =>
    dsimp only
    rw [if_neg hinprog]
    refine .completes call status hfinal hcalls hopening rfl ?_ a rfl
    rw [hprogress, ← hsend]
    rfl

/-- `SSL_write` blocks: the operation is queued. -/
lemma effect_blocked {buf call timeout : ℕ} {w : Caller}
    (hplace : s.place = .writing buf call timeout w) (event : Interest) (a : Attempt) :
    Effect s (leave (sstpOperationAddWrite s buf event timeout call) w call .inprog).1
      (.attempt a :: (leave (sstpOperationAddWrite s buf event timeout call) w call .inprog).2) := by
  obtain ⟨cell, cache, cells, hadd⟩ := sstpOperationAddWrite_eq s buf event timeout call
  have hperm : ((s.send ++ [Operation.mk cell buf call timeout]).map Operation.call).Perm
      (call :: s.send.map Operation.call) := perm_calls_append _ _
  obtain ⟨hopening, hprogress⟩ := calls_writing hplace
  rw [hadd]
  unfold leave
  cases w with
  | handler => exact .blocks call rfl hopening rfl (hprogress ▸ hperm) a rfl
  | callback cell => exact .blocks call rfl hopening rfl (hprogress ▸ hperm) a rfl
  | sendCont cell =>
    dsimp only
    rw [if_pos rfl]
    exact .moved rfl hopening.symm (hprogress ▸ hperm) fun _ => rfl

lemma effect_sslWrite {buf call timeout : ℕ} {w : Caller}
    (hplace : s.place = .writing buf call timeout w) (result : SslWrite) :
    Effect s (sslWrite s buf call timeout w result).1 (sslWrite s buf call timeout w result).2 := by
  cases result with
  | written n =>
    unfold sslWrite
    dsimp only
    split_ifs
    · exact .moved rfl rfl (.refl _) fun _ => rfl
    · refine effect_ended hplace ?_ ?_ (.inl rfl) _
      · rfl
      · rfl
  | wantRead => exact effect_blocked hplace .read _
  | wantWrite => exact effect_blocked hplace .write _
  | error => exact effect_ended hplace rfl rfl (.inr rfl) _

/-- **Every step** does one of these to the calls. -/
theorem step_effect (s : SstpStream) (i : Input) : Effect s (step s i).1 (step s i).2 := by
  have hout : ∀ {p : Place}, s.place = p → (∀ b c t w, p ≠ .writing b c t w) →
      opening s = [] ∧ retried s = [] := by
    intro p hplace hp
    unfold opening retried
    rw [hplace]
    cases p with
    | idle => exact ⟨rfl, rfl⟩
    | callback cell => exact ⟨rfl, rfl⟩
    | writing b c t w => exact absurd rfl (hp b c t w)
  unfold step
  split
  · exact .moved rfl rfl (.refl _) fun _ => rfl
  · exact .moved rfl rfl (.refl _) fun _ => rfl
  · next buf timeout hplace =>
    obtain ⟨hopening, hretried⟩ := hout hplace fun _ _ _ _ => nofun
    exact effect_sendFrom (.inl rfl) hopening hretried buf timeout
  · next cell buf timeout hplace =>
    obtain ⟨hopening, hretried⟩ := hout hplace fun _ _ _ _ => nofun
    exact effect_sendFrom (.inr ⟨cell, rfl⟩) hopening hretried buf timeout
  · next buf call timeout w result hplace => exact effect_sslWrite hplace result
  · next hplace =>
    obtain ⟨hopening, hretried⟩ := hout hplace fun _ _ _ _ => nofun
    split_ifs
    · exact effect_sendCont hopening hretried none s.cache
    · exact effect_same s
  · next cell hplace =>
    obtain ⟨hopening, hretried⟩ := hout hplace fun _ _ _ _ => nofun
    exact effect_sendCont hopening hretried s.evSend (cell :: s.cache)
  · exact effect_same s

end Effect

/-! ### Every call goes on as it may -/

section Calls

variable {s s' : SstpStream} {new : List Event}

/-- The numbers of the calls in use, in the state and before it. -/
lemma Distinct.numbers (h : Distinct s) :
    (∀ call ∈ opening s ++ inProgress s, call < s.calls) ∧ (opening s ++ inProgress s).Nodup := by
  rw [← calls_users]
  refine ⟨fun call hmem => ?_, h.nodup⟩
  obtain ⟨u, hu, rfl⟩ := List.mem_map.mp hmem
  exact h.fresh u hu

lemma stage_opening (h : Distinct s) {call : ℕ} (hmem : call ∈ opening s) :
    stage s call = .opened := by
  have hlt := (Distinct.numbers h).1 call (List.mem_append_left _ hmem)
  unfold stage
  rw [if_neg (Nat.not_le.mpr hlt), if_pos hmem]

lemma stage_inProgress (h : Distinct s) {call : ℕ} (hmem : call ∈ inProgress s) :
    stage s call = .pending := by
  obtain ⟨hlt, hnodup⟩ := Distinct.numbers h
  have hopening : call ∉ opening s := fun hopen =>
    (List.nodup_append.mp hnodup).2.2 call hopen call hmem rfl
  unfold stage
  rw [if_neg (Nat.not_le.mpr (hlt call (List.mem_append_right _ hmem))), if_neg hopening,
    if_pos hmem]

lemma stage_fresh {call : ℕ} (h : s.calls ≤ call) : stage s call = .fresh := if_pos h

lemma stage_settled {call : ℕ} (h : call < s.calls) (hopening : call ∉ opening s)
    (hprogress : call ∉ inProgress s) : stage s call = .settled := by
  unfold stage
  rw [if_neg (Nat.not_le.mpr h), if_neg hopening, if_neg hprogress]

/-- A call the step is not about. -/
lemma stage_congr {call : ℕ} (hcalls : s'.calls ≤ call ↔ s.calls ≤ call)
    (hopening : call ∈ opening s' ↔ call ∈ opening s)
    (hprogress : call ∈ inProgress s' ↔ call ∈ inProgress s) : stage s' call = stage s call := by
  unfold stage
  simp only [hcalls, hopening, hprogress]

/-- A call that the step is not about stays where it is. -/
lemma moves_other {call : ℕ} (hseen : seen call new = []) (hcalls : s'.calls ≤ call ↔ s.calls ≤ call)
    (hopening : call ∈ opening s' ↔ call ∈ opening s)
    (hprogress : call ∈ inProgress s' ↔ call ∈ inProgress s) :
    Moves call (stage s call) (seen call new) (stage s' call) := by
  rw [hseen, stage_congr hcalls hopening hprogress]
  exact .stays _

@[simp] lemma seen_returned_self (call : ℕ) (status : Status) :
    seen call [.returned call status] = [.returned call status] := by
  simp [seen, about]

@[simp] lemma seen_completed_self (call : ℕ) (status : Status) :
    seen call [.completed call status] = [.completed call status] := by
  simp [seen, about]

lemma seen_returned_of_ne {call c : ℕ} (h : call ≠ c) (status : Status) :
    seen call [.returned c status] = [] := by
  simp [seen, about, h.symm]

lemma seen_completed_of_ne {call c : ℕ} (h : call ≠ c) (status : Status) :
    seen call [.completed c status] = [] := by
  simp [seen, about, h.symm]

/-- **Every step** moves every call as it may. -/
theorem effect_moves (h : Distinct s) (h' : Distinct s') (heffect : Effect s s' new) (call : ℕ) :
    Moves call (stage s call) (seen call new) (stage s' call) := by
  cases heffect with
  | moved hcalls hopening hprogress hnew =>
    exact moves_other (hnew call) (by rw [hcalls]) (by rw [hopening]) hprogress.mem_iff
  | opens hcalls hopening hopening' hprogress hnew =>
    by_cases hc : call = s.calls
    · rw [hnew, hc, stage_fresh (le_refl _),
        stage_opening h' (by rw [hopening']; exact List.mem_cons_self)]
      exact .opens
    · exact moves_other (by rw [hnew]; rfl) (by omega) (by simp [hopening, hopening', hc])
        (by rw [hprogress])
  | queues hcalls hopening hopening' hprogress hnew =>
    by_cases hc : call = s.calls
    · rw [hnew, hc, stage_fresh (le_refl _),
        stage_inProgress h' (hprogress.mem_iff.mpr List.mem_cons_self), seen_returned_self]
      exact .queues
    · exact moves_other (by rw [hnew, seen_returned_of_ne hc]) (by omega)
        (by rw [hopening, hopening']) (hprogress.mem_iff.trans (by simp [hc]))
  | blocks c hcalls hopening hopening' hprogress a hnew =>
    by_cases hc : call = c
    · rw [hnew, seen_attempt, hc, stage_opening h (by rw [hopening]; exact List.mem_cons_self),
        stage_inProgress h' (hprogress.mem_iff.mpr List.mem_cons_self), seen_returned_self]
      exact .blocks
    · exact moves_other (by rw [hnew, seen_attempt, seen_returned_of_ne hc]) (by rw [hcalls])
        (by simp [hopening, hopening', hc]) (hprogress.mem_iff.trans (by simp [hc]))
  | ends c status hfinal hcalls hopening hopening' hprogress a hnew =>
    by_cases hc : call = c
    · have hmem : c ∈ opening s := by
        rw [hopening]
        exact List.mem_cons_self
      obtain ⟨hlt, hnodup⟩ := Distinct.numbers h
      have hnot : c ∉ inProgress s' := by
        rw [hprogress]
        exact fun hin => (List.nodup_append.mp hnodup).2.2 c hmem c hin rfl
      rw [hnew, seen_attempt, hc, stage_opening h hmem, stage_settled
        (by rw [hcalls]; exact hlt c (List.mem_append_left _ hmem))
        (by rw [hopening']; exact List.not_mem_nil) hnot, seen_returned_self]
      exact .ends status hfinal
    · exact moves_other (by rw [hnew, seen_attempt, seen_returned_of_ne hc]) (by rw [hcalls])
        (by simp [hopening, hopening', hc]) (by rw [hprogress])
  | completes c status hfinal hcalls hopening hopening' hprogress a hnew =>
    by_cases hc : call = c
    · have hmem : c ∈ inProgress s := by
        rw [hprogress]
        exact List.mem_cons_self
      obtain ⟨hlt, hnodup⟩ := Distinct.numbers h
      rw [hopening, List.nil_append, hprogress] at hnodup
      rw [hnew, seen_attempt, hc, stage_inProgress h hmem, stage_settled
        (by rw [hcalls]; exact hlt c (List.mem_append_right _ hmem))
        (by rw [hopening']; exact List.not_mem_nil) (List.nodup_cons.mp hnodup).1,
        seen_completed_self]
      exact .completes status hfinal
    · exact moves_other (by rw [hnew, seen_attempt, seen_completed_of_ne hc]) (by rw [hcalls])
        (by rw [hopening, hopening']) (by rw [hprogress]; simp [hc])

end Calls

/-! ### The event -/

/-- Outside the stream and its callbacks, and in a call a handler makes, an operation in the queue
has the event pending; nothing is written while it is. -/
structure Waiting (s : SstpStream) : Prop where
  idle : s.place = .idle → s.send ≠ [] → s.evSend.isSome = true
  writing : ∀ buf call timeout w, s.place = .writing buf call timeout w → s.evSend = none
  handler : ∀ buf call timeout, s.place = .writing buf call timeout .handler → s.send = []

section Waiting

variable {s : SstpStream}

/-- While a callback runs nothing is asked. -/
lemma waiting_callback {cell : ℕ} (h : s.place = .callback cell) : Waiting s :=
  ⟨fun hp => (by cases h.symm.trans hp), fun b c t w hp => (by cases h.symm.trans hp),
    fun b c t hp => (by cases h.symm.trans hp)⟩

lemma waiting_idle (hplace : s.place = .idle) (h : s.send ≠ [] → s.evSend.isSome = true) :
    Waiting s :=
  ⟨fun _ => h, fun b c t w hp => (by cases hplace.symm.trans hp),
    fun b c t hp => (by cases hplace.symm.trans hp)⟩

lemma isSome_addWrite (s : SstpStream) (buf : ℕ) (event : Interest) (timeout call : ℕ) :
    (sstpOperationAddWrite s buf event timeout call).evSend.isSome = true := by
  obtain ⟨cell, cache, cells, hadd⟩ := sstpOperationAddWrite_eq s buf event timeout call
  rw [hadd]
  cases s.evSend <;> rfl

lemma waiting_leave {w : Caller} {call : ℕ} {status : Status}
    (h : w = .handler ∨ status = .inprog → s.send ≠ [] → s.evSend.isSome = true) :
    Waiting (leave s w call status).1 := by
  unfold leave
  cases w with
  | handler => exact waiting_idle rfl (h (.inl rfl))
  | callback cell => exact waiting_callback rfl
  | sendCont cell =>
    dsimp only
    split_ifs with hstatus
    · exact waiting_idle rfl (h (.inr hstatus))
    · exact waiting_callback rfl

lemma waiting_sendFrom {w : Caller} (hw : ∀ cell, w ≠ .sendCont cell)
    (h : w = .handler → s.send ≠ [] → s.evSend.isSome = true) (buf timeout : ℕ) :
    Waiting (sendFrom s w buf timeout).1 := by
  unfold sendFrom sstpStreamSend
  split_ifs with hev
  · exact waiting_leave fun _ _ => isSome_addWrite _ _ _ _ _
  · have hnone : s.evSend = none := Option.not_isSome_iff_eq_none.mp hev
    refine ⟨fun hp => (by cases hp), fun _ _ _ _ _ => hnone, fun b c t hp => ?_⟩
    cases hp
    by_contra hne
    exact hev (h rfl hne)

lemma waiting_sendCont (s : SstpStream) : Waiting (sendCont s).1 := by
  unfold sendCont
  split
  · next hsend => exact waiting_idle rfl fun hne => absurd hsend hne
  · next op rest hsend =>
    unfold sstpStreamSend
    by_cases hev : s.evSend.isSome = true
    · dsimp only
      rw [if_pos hev]
      exact waiting_leave fun _ _ => isSome_addWrite _ _ _ _ _
    · dsimp only
      rw [if_neg hev]
      refine ⟨fun hp => (by cases hp), fun _ _ _ _ _ => Option.not_isSome_iff_eq_none.mp hev,
        fun b c t hp => (by cases hp)⟩

/-- **Every step** keeps the event pending for the queue. -/
theorem waiting_step (h : Waiting s) (i : Input) : Waiting (step s i).1 := by
  unfold step
  split
  · next buf content hplace => exact waiting_idle hplace (h.idle hplace)
  · next cell buf content hplace => exact waiting_callback hplace
  · next buf timeout hplace =>
      exact waiting_sendFrom (w := .handler) nofun (fun _ => h.idle hplace) buf timeout
  · next cell buf timeout hplace =>
      exact waiting_sendFrom (w := .callback cell) nofun nofun buf timeout
  · next buf call timeout w result hplace =>
    have hempty : w = .handler → s.send = [] := fun hw => h.handler buf call timeout (hw ▸ hplace)
    cases result with
    | written n =>
      unfold sslWrite
      dsimp only
      split_ifs
      · exact ⟨h.idle, h.writing, h.handler⟩
      · exact waiting_leave fun hor hne => absurd (hempty (hor.resolve_right (by decide))) hne
    | wantRead => exact waiting_leave fun _ _ => isSome_addWrite _ _ _ _ _
    | wantWrite => exact waiting_leave fun _ _ => isSome_addWrite _ _ _ _ _
    | error =>
      exact waiting_leave fun hor hne => absurd (hempty (hor.resolve_right (by decide))) hne
  · next hplace =>
    split_ifs
    · exact waiting_sendCont _
    · exact h
  · exact waiting_sendCont _
  · exact h

end Waiting

/-! ### The main result -/

/-- What holds of a stream and all that has been seen. -/
structure Inv (s : SstpStream) (events : List Event) : Prop where
  distinct : Distinct s
  waiting : Waiting s
  told : ∀ call, Told call (seen call events) (stage s call)

theorem inv_step {s : SstpStream} {events : List Event} (h : Inv s events) (i : Input) :
    Inv (step s i).1 (events ++ (step s i).2) := by
  have hdistinct := h.distinct.step (StreamSpec.step_spec s i)
  refine ⟨hdistinct, waiting_step h.waiting i, fun call => ?_⟩
  rw [seen_append]
  exact told_moves (h.told call) (effect_moves h.distinct hdistinct (step_effect s i) call)

lemma inv_init (bufs : ℕ → Buff) : Inv (Stream.init bufs) [] :=
  ⟨distinct_init bufs, waiting_idle rfl fun hne => absurd rfl hne, fun _ => rfl⟩

/-- What the callback of a call has been called with. -/
def completions (call : ℕ) (events : List Event) : List Status :=
  events.filterMap fun
    | .completed c status => if c = call then some status else none
    | _ => none

/-- In the event loop, or in a call that a handler makes. -/
def Outside (s : SstpStream) : Prop :=
  s.place = .idle ∨ ∃ buf call timeout, s.place = .writing buf call timeout .handler

/-- The callbacks and the queue match the calls. -/
structure Accounted (s : SstpStream) (events : List Event) : Prop where
  /-- A callback belongs to a call that returned `SSTP_INPROG`, and to no other result. -/
  asked : ∀ call status, .completed call status ∈ events →
    .returned call .inprog ∈ events ∧ ∀ result, .returned call result ∈ events → result = .inprog
  /-- A call has one callback at most. -/
  once : ∀ call, (completions call events).length ≤ 1
  /-- The calls in progress are those that wait for their callback, each once. -/
  nodup : (inProgress s).Nodup
  queue : ∀ call, call ∈ inProgress s ↔
    .returned call .inprog ∈ events ∧ ∀ status, .completed call status ∉ events
  /-- Outside the callbacks the calls in progress are those of the queue, and it has its event. -/
  outside : Outside s → inProgress s = s.send.map Operation.call ∧
    (s.send ≠ [] → s.evSend.isSome = true)

section Accounted

variable {s : SstpStream} {events : List Event} {call : ℕ}

lemma mem_returned {status : Status} :
    .returned call status ∈ seen call events ↔ .returned call status ∈ events :=
  mem_seen (by simp [about])

lemma mem_completed {status : Status} :
    .completed call status ∈ seen call events ↔ .completed call status ∈ events :=
  mem_seen (by simp [about])

lemma completions_seen (call : ℕ) (events : List Event) :
    completions call (seen call events) = completions call events := by
  unfold completions seen
  rw [List.filterMap_filter]
  refine List.filterMap_congr fun e _ => ?_
  cases e with
  | attempt a => rfl
  | returned c status => simp
  | completed c status => simp [about]

lemma not_final_inprog : ¬ Final .inprog := by
  rintro (h | h)
  · cases h
  · cases h

/-- A call whose callback has been called returned `SSTP_INPROG`. -/
lemma told_completed {t : List Event} {g : Stage} (h : Told call t g) {status : Status}
    (hmem : .completed call status ∈ t) :
    .returned call .inprog ∈ t ∧ ∀ result, .returned call result ∈ t → result = .inprog := by
  cases g with
  | fresh =>
    rw [show t = [] from h] at hmem
    cases hmem
  | opened =>
    rw [show t = [] from h] at hmem
    cases hmem
  | pending =>
    rw [show t = [.returned call .inprog] from h] at hmem
    cases List.mem_singleton.mp hmem
  | settled =>
    obtain ⟨final, hfinal, rfl | rfl⟩ := h
    · cases List.mem_singleton.mp hmem
    · refine ⟨List.mem_cons_self, fun result hresult => ?_⟩
      rcases List.mem_cons.mp hresult with heq | hresult
      · cases heq
        rfl
      · cases List.mem_singleton.mp hresult

lemma told_once {t : List Event} {g : Stage} (h : Told call t g) :
    (completions call t).length ≤ 1 := by
  cases g with
  | fresh =>
    rw [show t = [] from h]
    exact Nat.zero_le 1
  | opened =>
    rw [show t = [] from h]
    exact Nat.zero_le 1
  | pending =>
    rw [show t = [.returned call .inprog] from h]
    exact Nat.zero_le 1
  | settled =>
    obtain ⟨final, hfinal, rfl | rfl⟩ := h
    · exact Nat.zero_le 1
    · unfold completions
      simp

/-- A call waits for its callback exactly while it is pending. -/
lemma told_pending_iff {t : List Event} {g : Stage} (h : Told call t g) :
    g = .pending ↔ .returned call .inprog ∈ t ∧ ∀ status, .completed call status ∉ t := by
  cases g with
  | fresh =>
    rw [show t = [] from h]
    exact iff_of_false nofun fun hwait => List.not_mem_nil hwait.1
  | opened =>
    rw [show t = [] from h]
    exact iff_of_false nofun fun hwait => List.not_mem_nil hwait.1
  | pending =>
    rw [show t = [.returned call .inprog] from h]
    exact iff_of_true rfl ⟨List.mem_cons_self, fun status hmem =>
      by cases List.mem_singleton.mp hmem⟩
  | settled =>
    refine iff_of_false nofun fun hwait => ?_
    obtain ⟨final, hfinal, rfl | rfl⟩ := h
    · cases List.mem_singleton.mp hwait.1
      exact not_final_inprog hfinal
    · exact hwait.2 final (List.mem_cons_of_mem _ List.mem_cons_self)

lemma stage_pending_iff (h : Distinct s) : stage s call = .pending ↔ call ∈ inProgress s := by
  refine ⟨fun hstage => ?_, stage_inProgress h⟩
  unfold stage at hstage
  split_ifs at hstage with h1 h2 h3
  exact h3

/-- **The invariant accounts** for the callbacks and the queue. -/
theorem Inv.accounted (h : Inv s events) : Accounted s events where
  asked call status hmem := by
    obtain ⟨hasked, honly⟩ := told_completed (h.told call) (mem_completed.mpr hmem)
    exact ⟨mem_returned.mp hasked, fun result hresult => honly result (mem_returned.mpr hresult)⟩
  once call := by
    rw [← completions_seen]
    exact told_once (h.told call)
  nodup := by
    obtain ⟨-, hnodup⟩ := Distinct.numbers h.distinct
    exact (List.nodup_append.mp hnodup).2.1
  queue call := by
    rw [← stage_pending_iff h.distinct, told_pending_iff (h.told call), mem_returned]
    simp only [mem_completed]
  outside hout := by
    rcases hout with hplace | ⟨buf, c, timeout, hplace⟩
    · refine ⟨?_, h.waiting.idle hplace⟩
      unfold inProgress retried
      rw [hplace]
      rfl
    · refine ⟨?_, fun hne => absurd (h.waiting.handler buf c timeout hplace) hne⟩
      exact (calls_writing hplace).2

end Accounted

/-- **Send completions are neither lost nor duplicated**: in every run, whatever the outcomes of
`SSL_write` and whatever the callbacks send. -/
theorem completions_accounted (bufs : ℕ → Buff) (inputs : List Input) :
    Accounted (run step (Stream.init bufs) inputs).1 (run step (Stream.init bufs) inputs).2 :=
  (run_inv_all (h := []) Inv (fun _ _ i h => inv_step h i) (inv_init bufs) inputs).accounted

end SstpClient.Completion
