import SstpClient.Stream

/-!
When a blocked `SSL_write` is the next one tried.

`sstp_send_cont` takes the blocked operation off the queue, and if it blocks again puts it back
at the end; a completion callback may write past the queue. As long as neither finds another
operation in the queue, the blocked one stays at its head.
-/

namespace SstpClient.Retry

open SstpClient.Buffer SstpClient.Lib.Machine SstpClient.Stream

/-! ### The discipline -/

def attempts (events : List Event) : List Attempt :=
  events.filterMap fun
    | .attempt a => some a
    | _ => none

/-- The calls that returned `SSTP_INPROG`. -/
def accepted (events : List Event) : List ℕ :=
  events.filterMap fun
    | .returned call .inprog => some call
    | _ => none

/-- The calls for which `SSL_write` was called, once for each time. -/
def started (events : List Event) : List ℕ := (attempts events).map Attempt.call

/-- After a blocked attempt comes one on the same buffer at the same offset. -/
def Retries (a a' : Attempt) : Prop := a.result.Blocked → a'.buf = a.buf ∧ a'.off = a.off

instance (a a' : Attempt) : Decidable (Retries a a') := by
  unfold Retries
  infer_instance

/-- The accepted calls not yet started are `waiting`, and they are the last of those accepted. -/
def Waiting (events : List Event) (waiting : List ℕ) : Prop :=
  ∃ before, accepted events = before ++ waiting ∧ (∀ c ∈ before, c ∈ started events) ∧
    ∀ c ∈ waiting, c ∉ started events

/-- Blocked attempts are retried next, and the accepted calls that have been started are the first
of those accepted. -/
structure Discipline (events : List Event) : Prop where
  retries : (attempts events).IsChain Retries
  inOrder : ∃ waiting, Waiting events waiting

/-- The condition on a step: what blocks in `sstp_send_cont` or in a completion callback finds no
operation in the queue; a callback makes no call after one that blocked; and the buffer at the
head of the queue keeps its offset while the event is pending. -/
def Disciplined (s : SstpStream) : Input → Prop
  | .build buf content => ∀ op rest, s.evSend.isSome → s.send = op :: rest → op.buf = buf →
      content.off = (s.bufs buf).off
  | .send _ _ => ∀ cell, s.place = .callback cell → s.evSend = none
  | .write result => ∀ buf call timeout w, s.place = .writing buf call timeout w → w ≠ .handler →
      result.Blocked → s.send = []
  | .ready => True
  | .ret => True

/-! ### The invariant -/

/-- The next attempt, on `buf` at `off`, will be a retry if it has to be. -/
def NextRetry (events : List Event) (buf : ℕ) (off : ℤ) : Prop :=
  ∀ a ∈ (attempts events).getLast?, a.result.Blocked → buf = a.buf ∧ off = a.off

/-- No attempt is blocked. -/
def Unblocked (events : List Event) : Prop :=
  ∀ a ∈ (attempts events).getLast?, ¬ a.result.Blocked

/-- Whether the queue is held up, and which calls wait. -/
inductive Phase (s : SstpStream) (events : List Event) : List ℕ → Prop
  /-- Nothing is pending; in the event loop nothing is queued either. -/
  | free (hev : s.evSend = none)
      (hplace : s.place = .idle ∧ s.send = [] ∨ ∃ cell, s.place = .callback cell)
      (hlast : Unblocked events) : Phase s events (s.send.map Operation.call)
  /-- The event is pending and the blocked operation is at the head. -/
  | stuck (op : Operation) (rest : List Operation) (hsend : s.send = op :: rest)
      (hev : s.evSend.isSome)
      (hplace : s.place = .idle ∨ (∃ cell, s.place = .callback cell) ∧ rest = [])
      (hnext : NextRetry events op.buf (s.bufs op.buf).off) (hstarted : op.call ∈ started events) :
      Phase s events (rest.map Operation.call)
  /-- A call from outside is before an `SSL_write`. -/
  | fresh (buf call timeout : ℕ) (w : Caller) (hplace : s.place = .writing buf call timeout w)
      (hcaller : w = .handler ∧ s.send = [] ∨ ∃ cell, w = .callback cell) (hev : s.evSend = none)
      (hlast : Unblocked events) (hnew : call < s.calls ∧ call ∉ accepted events) :
      Phase s events (s.send.map Operation.call)
  /-- `sstp_send_cont` is before an `SSL_write`. -/
  | cont (buf call timeout cell : ℕ) (hplace : s.place = .writing buf call timeout (.sendCont cell))
      (hev : s.evSend = none) (hnext : NextRetry events buf (s.bufs buf).off)
      (hold : call ∈ accepted events) (waiting : List ℕ)
      (hwaiting : waiting = s.send.map Operation.call ∧ call ∈ started events ∨
        waiting = call :: s.send.map Operation.call) : Phase s events waiting

/-- The invariant of sending. -/
structure Inv (s : SstpStream) (events : List Event) : Prop where
  retries : (attempts events).IsChain Retries
  nodup : (accepted events).Nodup
  queued : ∀ op ∈ s.send, op.call ∈ accepted events
  bound : ∀ c, c ∈ accepted events ∨ c ∈ started events → c < s.calls
  phase : ∃ waiting, Phase s events waiting ∧ Waiting events waiting

lemma Inv.discipline {s : SstpStream} {events : List Event} (h : Inv s events) :
    Discipline events := by
  obtain ⟨waiting, -, hw⟩ := h.phase
  exact ⟨h.retries, waiting, hw⟩

/-! ### More events -/

section Events

variable {events : List Event}

@[simp] lemma attempts_append (e e' : List Event) :
    attempts (e ++ e') = attempts e ++ attempts e' := List.filterMap_append

@[simp] lemma accepted_append (e e' : List Event) :
    accepted (e ++ e') = accepted e ++ accepted e' := List.filterMap_append

@[simp] lemma started_append (e e' : List Event) :
    started (e ++ e') = started e ++ started e' := by
  unfold started
  rw [attempts_append, List.map_append]

/-- Events that are no attempts. -/
lemma nextRetry_append {buf : ℕ} {off : ℤ} {new : List Event} (hnew : attempts new = []) :
    NextRetry (events ++ new) buf off ↔ NextRetry events buf off := by
  unfold NextRetry
  rw [attempts_append, hnew, List.append_nil]

lemma Unblocked.nextRetry (h : Unblocked events) (buf : ℕ) (off : ℤ) :
    NextRetry events buf off := fun a ha hb => absurd hb (h a ha)

lemma getLast?_attempts {a : Attempt} {new : List Event} (hnew : attempts new = []) :
    (attempts (events ++ .attempt a :: new)).getLast? = some a := by
  have hone : attempts (.attempt a :: new) = [a] := by
    change a :: attempts new = [a]
    rw [hnew]
  rw [attempts_append, hone, List.getLast?_concat]

/-- After an attempt that is not blocked. -/
lemma unblocked_of_attempt {a : Attempt} {new : List Event} (hnew : attempts new = [])
    (ha : ¬ a.result.Blocked) : Unblocked (events ++ .attempt a :: new) := by
  intro a' ha'
  rw [getLast?_attempts hnew] at ha'
  cases ha'
  exact ha

lemma nextRetry_of_attempt {a : Attempt} {new : List Event} (hnew : attempts new = []) :
    NextRetry (events ++ .attempt a :: new) a.buf a.off := by
  intro a' ha' _
  rw [getLast?_attempts hnew] at ha'
  cases ha'
  exact ⟨rfl, rfl⟩

/-- An attempt where it has to be. -/
lemma isChain_attempt {a : Attempt} {new : List Event} (hnew : attempts new = [])
    (hchain : (attempts events).IsChain Retries) (hnext : NextRetry events a.buf a.off) :
    (attempts (events ++ .attempt a :: new)).IsChain Retries := by
  have hone : attempts (.attempt a :: new) = [a] := by
    change a :: attempts new = [a]
    rw [hnew]
  rw [attempts_append, hone, List.isChain_append]
  refine ⟨hchain, List.isChain_singleton a, fun x hx y hy hb => ?_⟩
  rw [List.head?_cons, Option.mem_some_iff] at hy
  subst hy
  exact hnext x hx hb

end Events

/-! ### Steps between attempts -/

variable {s : SstpStream} {events : List Event}

/-- A step that is not seen and leaves the queue alone. -/
lemma Inv.keep {s' : SstpStream} (h : Inv s events) (hsend : ∀ op ∈ s'.send, op ∈ s.send)
    (hcalls : s'.calls = s.calls)
    (hphase : ∀ waiting, Phase s events waiting → Phase s' events waiting) : Inv s' events := by
  obtain ⟨waiting, hp, hw⟩ := h.phase
  exact ⟨h.retries, h.nodup, fun op hop => h.queued op (hsend op hop),
    fun c hc => hcalls ▸ h.bound c hc, waiting, hphase waiting hp, hw⟩

lemma build_inv {buf : ℕ} {content : Buff} (h : Inv s events)
    (hC : Disciplined s (.build buf content)) (hplace : ∀ b c t w, s.place ≠ .writing b c t w) :
    Inv { s with bufs := Function.update s.bufs buf content } events := by
  refine h.keep (fun op hop => hop) rfl fun waiting hp => ?_
  cases hp with
  | free hev hpl hlast => exact .free (s := { s with bufs := _ }) hev hpl hlast
  | stuck op rest hsend hev hpl hnext hstarted =>
    have hoff : (Function.update s.bufs buf content op.buf).off = (s.bufs op.buf).off := by
      by_cases heq : op.buf = buf
      · rw [heq, Function.update_self]
        exact hC op rest hev hsend heq
      · rw [Function.update_of_ne heq]
    exact .stuck (s := { s with bufs := _ }) op rest hsend hev hpl (hoff ▸ hnext) hstarted
  | fresh b c t w hpl => exact absurd hpl (hplace b c t w)
  | cont b c t cell hpl => exact absurd hpl (hplace b c t (.sendCont cell))

/-- A call that returns `SSTP_INPROG` without an attempt. -/
lemma Waiting.accept {waiting : List ℕ} {call : ℕ} (h : Waiting events waiting)
    (hnew : call ∉ started events) :
    Waiting (events ++ [.returned call .inprog]) (waiting ++ [call]) := by
  obtain ⟨before, hacc, hbefore, hwait⟩ := h
  refine ⟨before, ?_, fun c hc => ?_, fun c hc => ?_⟩
  · rw [accepted_append, hacc, List.append_assoc]
    rfl
  · rw [started_append]
    exact List.mem_append_left _ (hbefore c hc)
  · rw [started_append]
    change c ∉ started events ++ []
    rw [List.append_nil]
    rcases List.mem_append.mp hc with hc | hc
    · exact hwait c hc
    · rw [List.mem_singleton.mp hc]
      exact hnew

lemma Inv.nodup_accept (h : Inv s events) {call : ℕ} (hnew : call ∉ accepted events) :
    (accepted events ++ [call]).Nodup := by
  refine List.nodup_append.mpr ⟨h.nodup, List.nodup_singleton call, fun a ha b hb => ?_⟩
  rw [List.mem_singleton.mp hb]
  exact fun heq => hnew (heq ▸ ha)

lemma call_free_inv (h : Inv s events) (hev : s.evSend = none) {w : Caller}
    (hw : s.place = .idle ∧ w = .handler ∨ ∃ cell, s.place = .callback cell ∧ w = .callback cell)
    (buf timeout : ℕ) :
    Inv (sendFrom s w buf timeout).1 (events ++ (sendFrom s w buf timeout).2) := by
  obtain ⟨waiting, hp, hwait⟩ := h.phase
  rw [sendFrom_free hev, List.append_nil]
  refine ⟨h.retries, h.nodup, h.queued, fun c hc => Nat.lt_succ_of_lt (h.bound c hc), waiting, ?_,
    hwait⟩
  have hnew : s.calls ∉ accepted events := fun hc => Nat.lt_irrefl _ (h.bound _ (.inl hc))
  cases hp with
  | free _ hpl hlast =>
    refine .fresh (s := { s with calls := _, place := _ }) buf s.calls timeout w rfl ?_ hev hlast
      ⟨Nat.lt_succ_self _, hnew⟩
    rcases hw with ⟨hidle, hw⟩ | ⟨cell, -, hw⟩
    · rcases hpl with ⟨-, hsend⟩ | ⟨cell, hcell⟩
      · exact .inl ⟨hw, hsend⟩
      · rw [hidle] at hcell
        cases hcell
    · exact .inr ⟨cell, hw⟩
  | stuck op rest _ hev' =>
    rw [hev] at hev'
    cases hev'
  | fresh _ _ _ _ hpl =>
    rcases hw with ⟨hidle, -⟩ | ⟨cell, hcell, -⟩
    · rw [hidle] at hpl
      cases hpl
    · rw [hcell] at hpl
      cases hpl
  | cont _ _ _ _ hpl =>
    rcases hw with ⟨hidle, -⟩ | ⟨cell, hcell, -⟩
    · rw [hidle] at hpl
      cases hpl
    · rw [hcell] at hpl
      cases hpl

lemma call_pending_inv (h : Inv s events) (hev : s.evSend.isSome) (hidle : s.place = .idle)
    (buf timeout : ℕ) :
    Inv (sendFrom s .handler buf timeout).1 (events ++ (sendFrom s .handler buf timeout).2) := by
  obtain ⟨waiting, hp, hwait⟩ := h.phase
  obtain ⟨cell, cache, cells, heq⟩ := sendFrom_pending hev .handler buf timeout
  have hacc : s.calls ∉ accepted events := fun hc => Nat.lt_irrefl _ (h.bound _ (.inl hc))
  have hstart : s.calls ∉ started events := fun hc => Nat.lt_irrefl _ (h.bound _ (.inr hc))
  have haccepted : accepted (events ++ [.returned s.calls .inprog]) = accepted events ++ [s.calls] :=
    accepted_append _ _
  have hstarted : started (events ++ [.returned s.calls .inprog]) = started events := by
    rw [started_append]
    exact List.append_nil _
  rw [heq]
  change Inv _ (events ++ [.returned s.calls .inprog])
  refine ⟨by rw [attempts_append]; exact (List.append_nil (attempts events)).symm ▸ h.retries,
    by rw [haccepted]; exact h.nodup_accept hacc, fun op hop => ?_, fun c hc => ?_,
    waiting ++ [s.calls], ?_,
    hwait.accept hstart⟩
  · rw [haccepted]
    rcases List.mem_append.mp hop with hop | hop
    · exact List.mem_append_left _ (h.queued op hop)
    · rw [List.mem_singleton.mp hop]
      exact List.mem_append_right _ (List.mem_singleton_self _)
  · rw [haccepted, hstarted] at hc
    rcases hc with hc | hc
    · rcases List.mem_append.mp hc with hc | hc
      · exact Nat.lt_succ_of_lt (h.bound c (.inl hc))
      · rw [List.mem_singleton.mp hc]
        exact Nat.lt_succ_self _
    · exact Nat.lt_succ_of_lt (h.bound c (.inr hc))
  · cases hp with
    | free hev' =>
      rw [hev'] at hev
      cases hev
    | stuck op rest hsend _ _ hnext hop =>
      have hmap : rest.map Operation.call ++ [s.calls] =
          (rest ++ [Operation.mk cell buf s.calls timeout]).map Operation.call := by
        rw [List.map_append]
        rfl
      rw [hmap]
      refine .stuck op _ (by rw [hsend]; rfl) (by cases hs : s.evSend <;> rfl) (.inl rfl)
        ((nextRetry_append rfl).mpr hnext) (by rw [hstarted]; exact hop)
    | fresh _ _ _ _ hpl =>
      rw [hidle] at hpl
      cases hpl
    | cont _ _ _ _ hpl =>
      rw [hidle] at hpl
      cases hpl

/-! ### The loop of `sstp_send_cont` -/

/-- The event fires. -/
lemma ready_inv (h : Inv s events) (hidle : s.place = .idle) (hev : s.evSend.isSome) :
    Inv (sendCont { s with evSend := none }).1
      (events ++ (sendCont { s with evSend := none }).2) := by
  obtain ⟨waiting, hp, hwait⟩ := h.phase
  cases hp with
  | free hev' =>
    rw [hev'] at hev
    cases hev
  | stuck op rest hsend _ _ hnext hop =>
    have heq : sendCont { s with evSend := none } =
        ({ s with
            send := rest, evSend := none,
            place := .writing op.buf op.call op.timeout (.sendCont op.cell) }, []) := by
      unfold sendCont
      simp only [hsend, sstpStreamSend]
      rfl
    rw [heq, List.append_nil]
    have hmem : op ∈ s.send := hsend ▸ List.mem_cons_self
    refine ⟨h.retries, h.nodup, fun op' hop' => h.queued op' ?_, h.bound, _, ?_, hwait⟩
    · rw [hsend]
      exact List.mem_cons_of_mem _ hop'
    · exact .cont (s := { s with send := rest, evSend := none, place := _ }) op.buf op.call
        op.timeout op.cell rfl rfl hnext (h.queued op hmem) _ (.inl ⟨rfl, hop⟩)
  | fresh _ _ _ _ hpl =>
    rw [hidle] at hpl
    cases hpl
  | cont _ _ _ _ hpl =>
    rw [hidle] at hpl
    cases hpl

/-- A completion callback returns. -/
lemma ret_inv (h : Inv s events) {cell : ℕ} (hcell : s.place = .callback cell) :
    Inv (sendCont { s with cache := cell :: s.cache }).1
      (events ++ (sendCont { s with cache := cell :: s.cache }).2) := by
  obtain ⟨waiting, hp, hwait⟩ := h.phase
  cases hp with
  | free hev hpl hlast =>
    by_cases hsend : s.send = []
    · have heq : sendCont { s with cache := cell :: s.cache } =
          ({ s with cache := cell :: s.cache, place := .idle }, []) := by
        unfold sendCont
        simp only [hsend]
      rw [heq, List.append_nil]
      refine ⟨h.retries, h.nodup, h.queued, h.bound, _, ?_, hwait⟩
      exact .free (s := { s with cache := _, place := .idle }) hev (.inl ⟨rfl, hsend⟩) hlast
    · obtain ⟨op, rest, hsend⟩ := List.exists_cons_of_ne_nil hsend
      have heq : sendCont { s with cache := cell :: s.cache } =
          ({ s with
              cache := cell :: s.cache, send := rest,
              place := .writing op.buf op.call op.timeout (.sendCont op.cell) }, []) := by
        unfold sendCont
        simp only [hsend, sstpStreamSend, hev]
        rfl
      rw [heq, List.append_nil]
      have hmem : op ∈ s.send := hsend ▸ List.mem_cons_self
      refine ⟨h.retries, h.nodup, fun op' hop' => h.queued op' ?_, h.bound, _, ?_, hwait⟩
      · rw [hsend]
        exact List.mem_cons_of_mem _ hop'
      · refine .cont (s := { s with cache := _, send := rest, place := _ }) op.buf op.call
          op.timeout op.cell rfl hev (hlast.nextRetry _ _) (h.queued op hmem) _ (.inr ?_)
        rw [hsend]
        rfl
  | stuck op rest hsend hev hpl hnext hop =>
    -- the callback's own send is pending: it is taken off the queue and put back
    have hrest : rest = [] := by
      rcases hpl with hidle | ⟨-, hrest⟩
      · rw [hcell] at hidle
        cases hidle
      · exact hrest
    subst hrest
    obtain ⟨cell', cache, cells, hadd⟩ := sstpOperationAddWrite_eq
      { s with cache := cell :: s.cache, send := [] } op.buf .write op.timeout op.call
    have heq : sendCont { s with cache := cell :: s.cache } =
        ({ s with
            send := [⟨cell', op.buf, op.call, op.timeout⟩], cache := cache, cells := cells,
            evSend := s.evSend.or (some .write), place := .idle }, []) := by
      unfold sendCont
      simp only [hsend, sstpStreamSend, if_pos hev, hadd]
      rfl
    rw [heq, List.append_nil]
    refine ⟨h.retries, h.nodup, fun op' hop' => ?_, h.bound, _, ?_, hwait⟩
    · rw [List.mem_singleton.mp hop']
      exact h.queued op (hsend ▸ List.mem_cons_self)
    · exact .stuck (s := { s with send := _, cache := _, cells := _, evSend := _, place := .idle })
        ⟨cell', op.buf, op.call, op.timeout⟩ [] rfl (by cases s.evSend <;> rfl) (.inl rfl) hnext hop
  | fresh _ _ _ _ hpl =>
    rw [hcell] at hpl
    cases hpl
  | cont _ _ _ _ hpl =>
    rw [hcell] at hpl
    cases hpl

/-! ### Attempts -/

/-- What is known before an `SSL_write`. -/
structure BeforeWrite (s : SstpStream) (events : List Event) (buf call : ℕ) (w : Caller) : Prop where
  pending : s.evSend = none
  next : NextRetry events buf (s.bufs buf).off
  handler : w = .handler → s.send = []
  old : ∀ cell, w = .sendCont cell → call ∈ accepted events
  new : (∀ cell, w ≠ .sendCont cell) → call ∉ accepted events
  bound : call < s.calls
  waiting : ∃ before, accepted events = before ++ s.send.map Operation.call ∧
    (∀ c ∈ before, c ∈ started events ∨ c = call) ∧
    ∀ c ∈ s.send.map Operation.call, c ∉ started events ∧ c ≠ call

lemma beforeWrite (h : Inv s events) {buf call timeout : ℕ} {w : Caller}
    (hplace : s.place = .writing buf call timeout w) : BeforeWrite s events buf call w := by
  obtain ⟨waiting, hp, before, hacc, hbefore, hwait⟩ := h.phase
  cases hp with
  | free hev hpl =>
    rcases hpl with ⟨hidle, -⟩ | ⟨cell, hcell⟩
    · rw [hplace] at hidle
      cases hidle
    · rw [hplace] at hcell
      cases hcell
  | stuck op rest hsend hev hpl =>
    rcases hpl with hidle | ⟨⟨cell, hcell⟩, -⟩
    · rw [hplace] at hidle
      cases hidle
    · rw [hplace] at hcell
      cases hcell
  | fresh buf' call' timeout' w' hpl hcaller hev hlast hnew =>
    rw [hplace] at hpl
    cases hpl
    refine ⟨hev, hlast.nextRetry _ _, fun hw => ?_, fun cell hw => ?_, fun _ => hnew.2, hnew.1,
      before, hacc, fun c hc => .inl (hbefore c hc), fun c hc => ⟨hwait c hc, ?_⟩⟩
    · rcases hcaller with ⟨-, hsend⟩ | ⟨cell, hcell⟩
      · exact hsend
      · rw [hw] at hcell
        cases hcell
    · rcases hcaller with ⟨hh, -⟩ | ⟨cell', hcell⟩
      · rw [hw] at hh
        cases hh
      · rw [hw] at hcell
        cases hcell
    · rintro rfl
      exact hnew.2 (hacc ▸ List.mem_append_right _ hc)
  | cont buf' call' timeout' cell' hpl hev hnext hold waiting hwaiting =>
    rw [hplace] at hpl
    cases hpl
    refine ⟨hev, hnext, (fun hw => by cases hw), fun _ _ => hold, fun hw => absurd rfl (hw cell'),
      h.bound call (.inl hold), ?_⟩
    rcases hwaiting with ⟨rfl, hstart⟩ | rfl
    · refine ⟨before, hacc, fun c hc => .inl (hbefore c hc), fun c hc => ⟨hwait c hc, ?_⟩⟩
      rintro rfl
      exact hwait c hc hstart
    · refine ⟨before ++ [call], by rw [hacc, List.append_assoc]; rfl, fun c hc => ?_, fun c hc => ?_⟩
      · rcases List.mem_append.mp hc with hc | hc
        · exact .inl (hbefore c hc)
        · exact .inr (List.mem_singleton.mp hc)
      · refine ⟨hwait c (List.mem_cons_of_mem _ hc), ?_⟩
        rintro rfl
        have hnd := h.nodup
        rw [hacc] at hnd
        exact (List.nodup_cons.mp (List.nodup_append.mp hnd).2.1).1 hc

section Attempt

variable {buf call timeout : ℕ} {w : Caller} {a : Attempt} {new : List Event}

/-- After the attempt what is queued behind it waits. -/
lemma BeforeWrite.waiting_attempt (h : BeforeWrite s events buf call w) (hcall : a.call = call)
    (hnew : attempts new = []) (hacc : accepted new = []) :
    Waiting (events ++ .attempt a :: new) (s.send.map Operation.call) := by
  obtain ⟨before, heq, hbefore, hwait⟩ := h.waiting
  have haccepted : accepted (.attempt a :: new) = [] := hacc
  have hstarted : started (.attempt a :: new) = [call] := by
    change a.call :: started new = [call]
    rw [started, hnew, hcall]
    rfl
  refine ⟨before, ?_, fun c hc => ?_, fun c hc => ?_⟩
  · rw [accepted_append, haccepted, List.append_nil, heq]
  · rw [started_append, hstarted, List.mem_append, List.mem_singleton]
    exact hbefore c hc
  · rw [started_append, hstarted, List.mem_append, List.mem_singleton]
    rintro (hc' | hc')
    · exact (hwait c hc).1 hc'
    · exact (hwait c hc).2 hc'

/-- An attempt after which nothing is newly accepted. -/
lemma inv_attempt {s' : SstpStream} (h : Inv s events) (hb : BeforeWrite s events buf call w)
    (hcall : a.call = call) (hbuf : a.buf = buf) (hoff : a.off = (s.bufs buf).off)
    (hnew : attempts new = []) (hacc : accepted new = [])
    (hqueued : ∀ op ∈ s'.send, op ∈ s.send ∨ op.call = call ∧ ∃ cell, w = .sendCont cell)
    (hcalls : s'.calls = s.calls)
    (hphase : ∃ waiting, Phase s' (events ++ .attempt a :: new) waiting ∧
      Waiting (events ++ .attempt a :: new) waiting) :
    Inv s' (events ++ .attempt a :: new) := by
  have haccepted : accepted (events ++ .attempt a :: new) = accepted events := by
    rw [accepted_append]
    change accepted events ++ accepted new = accepted events
    rw [hacc, List.append_nil]
  refine ⟨isChain_attempt hnew h.retries (hbuf ▸ hoff ▸ hb.next), by rw [haccepted]; exact h.nodup,
    fun op hop => ?_, fun c hc => ?_, hphase⟩
  · rw [haccepted]
    rcases hqueued op hop with hop | ⟨hop, cell, hcell⟩
    · exact h.queued op hop
    · exact hop ▸ hb.old cell hcell
  · rw [haccepted, started_append, List.mem_append] at hc
    rw [hcalls]
    rcases hc with hc | hc | hc
    · exact h.bound c (.inl hc)
    · exact h.bound c (.inr hc)
    · change c ∈ a.call :: started new at hc
      rw [started, hnew, hcall] at hc
      rw [List.mem_singleton.mp hc]
      exact hb.bound

/-- `sstp_stream_send` ends without queueing the buffer. -/
lemma leave_inv {s' : SstpStream} {status : Status} (h : Inv s events)
    (hb : BeforeWrite s events buf call w) (hcall : a.call = call) (hbuf : a.buf = buf)
    (hoff : a.off = (s.bufs buf).off) (ha : ¬ a.result.Blocked) (hstatus : status ≠ .inprog)
    (hsend : s'.send = s.send) (hev : s'.evSend = s.evSend) (hcalls : s'.calls = s.calls) :
    Inv (leave s' w call status).1 (events ++ .attempt a :: (leave s' w call status).2) := by
  have hsilent : attempts (leave s' w call status).2 = [] ∧ accepted (leave s' w call status).2 = [] ∧
      (leave s' w call status).1.send = s.send ∧ (leave s' w call status).1.evSend = none ∧
      (leave s' w call status).1.calls = s.calls ∧
      ((leave s' w call status).1.place = .idle ∧ (leave s' w call status).1.send = [] ∨
        ∃ cell, (leave s' w call status).1.place = .callback cell) := by
    have hret : accepted [.returned call status] = [] := by
      cases status <;> first | rfl | exact absurd rfl hstatus
    cases w with
    | handler => exact ⟨rfl, hret, hsend, hev.trans hb.pending, hcalls, .inl ⟨rfl, hsend.trans (hb.handler rfl)⟩⟩
    | callback cell => exact ⟨rfl, hret, hsend, hev.trans hb.pending, hcalls, .inr ⟨cell, rfl⟩⟩
    | sendCont cell =>
      simp only [leave, if_neg hstatus]
      exact ⟨rfl, rfl, hsend, hev.trans hb.pending, hcalls, .inr ⟨cell, rfl⟩⟩
  obtain ⟨hatt, hacc, hsend', hev', hcalls', hplace⟩ := hsilent
  refine inv_attempt h hb hcall hbuf hoff hatt hacc (fun op hop => .inl (hsend' ▸ hop)) hcalls'
    ⟨_, .free hev' hplace (unblocked_of_attempt hatt ha), ?_⟩
  rw [hsend']
  exact hb.waiting_attempt hcall hatt hacc

/-- A part of the buffer has been written. -/
lemma part_inv {s' : SstpStream} (h : Inv s events) (hb : BeforeWrite s events buf call w)
    (hplace : s.place = .writing buf call timeout w) (hcall : a.call = call) (hbuf : a.buf = buf)
    (hoff : a.off = (s.bufs buf).off) (ha : ¬ a.result.Blocked) (hsend : s'.send = s.send)
    (hev : s'.evSend = s.evSend) (hcalls : s'.calls = s.calls) (hplace' : s'.place = s.place) :
    Inv s' (events ++ [.attempt a]) := by
  have hlast : Unblocked (events ++ [.attempt a]) := unblocked_of_attempt rfl ha
  have hwait : Waiting (events ++ [.attempt a]) (s.send.map Operation.call) :=
    hb.waiting_attempt hcall rfl rfl
  have haccepted : accepted (events ++ [.attempt a]) = accepted events := by
    rw [accepted_append]
    exact List.append_nil _
  refine inv_attempt h hb hcall hbuf hoff rfl rfl (fun op hop => .inl (hsend ▸ hop)) hcalls
    ⟨_, ?_, hwait⟩
  rw [← hsend]
  cases w with
  | handler =>
    exact .fresh buf call timeout .handler (hplace'.trans hplace)
      (.inl ⟨rfl, hsend.trans (hb.handler rfl)⟩) (hev.trans hb.pending) hlast
      ⟨hcalls ▸ hb.bound, by rw [haccepted]; exact hb.new fun cell hc => by cases hc⟩
  | callback cell =>
    exact .fresh buf call timeout (.callback cell) (hplace'.trans hplace) (.inr ⟨cell, rfl⟩)
      (hev.trans hb.pending) hlast
      ⟨hcalls ▸ hb.bound, by rw [haccepted]; exact hb.new fun cell hc => by cases hc⟩
  | sendCont cell =>
    refine .cont buf call timeout cell (hplace'.trans hplace) (hev.trans hb.pending)
      (hlast.nextRetry _ _) (by rw [haccepted]; exact hb.old cell rfl) _ (.inl ⟨rfl, ?_⟩)
    rw [started_append, List.mem_append]
    exact .inr (List.mem_singleton.mpr hcall.symm)

/-- The state after a blocked attempt: nothing but the buffer is queued. -/
structure Queued (s s' : SstpStream) (buf call : ℕ) : Prop where
  send : ∃ cell timeout, s'.send = [⟨cell, buf, call, timeout⟩]
  pending : s'.evSend.isSome
  place : s'.place = .idle ∨ ∃ cell, s'.place = .callback cell
  bufs : s'.bufs = s.bufs
  calls : s'.calls = s.calls

lemma Queued.phase {s' : SstpStream} (hq : Queued s s' buf call) (hcall : a.call = call)
    (hbuf : a.buf = buf) (hoff : a.off = (s.bufs buf).off) (hnew : attempts new = []) :
    Phase s' (events ++ .attempt a :: new) [] := by
  obtain ⟨cell, timeout, hsend⟩ := hq.send
  refine .stuck ⟨cell, buf, call, timeout⟩ [] hsend hq.pending (hq.place.imp_right fun h => ⟨h, rfl⟩)
    ?_ ?_
  · have hnext : NextRetry (events ++ .attempt a :: new) a.buf a.off := nextRetry_of_attempt hnew
    rw [hq.bufs]
    rwa [hoff, hbuf] at hnext
  · rw [started_append, List.mem_append]
    exact .inr (hcall ▸ List.mem_cons_self)

/-- A retry that is blocked. -/
lemma queued_inv {s' : SstpStream} {cell : ℕ} (h : Inv s events)
    (hb : BeforeWrite s events buf call (.sendCont cell)) (hcall : a.call = call)
    (hbuf : a.buf = buf) (hoff : a.off = (s.bufs buf).off) (hempty : s.send = [])
    (hq : Queued s s' buf call) : Inv s' (events ++ [.attempt a]) := by
  have hwait : Waiting (events ++ [.attempt a]) (s.send.map Operation.call) :=
    hb.waiting_attempt hcall rfl rfl
  rw [hempty] at hwait
  refine inv_attempt h hb hcall hbuf hoff rfl rfl (fun op hop => .inr ?_) hq.calls
    ⟨[], hq.phase hcall hbuf hoff rfl, hwait⟩
  obtain ⟨cell', timeout, hsend⟩ := hq.send
  rw [hsend, List.mem_singleton] at hop
  exact ⟨hop ▸ rfl, cell, rfl⟩

/-- A call from outside that is blocked. -/
lemma accepted_inv {s' : SstpStream} (h : Inv s events) (hb : BeforeWrite s events buf call w)
    (hw : ∀ cell, w ≠ .sendCont cell) (hcall : a.call = call) (hbuf : a.buf = buf)
    (hoff : a.off = (s.bufs buf).off) (hempty : s.send = []) (hq : Queued s s' buf call) :
    Inv s' (events ++ [.attempt a, .returned call .inprog]) := by
  have haccepted : accepted (events ++ [.attempt a, .returned call .inprog]) =
      accepted events ++ [call] := accepted_append _ _
  have hstarted : started (events ++ [.attempt a, .returned call .inprog]) =
      started events ++ [call] := by
    rw [started_append]
    exact hcall ▸ rfl
  refine ⟨isChain_attempt rfl h.retries (hbuf ▸ hoff ▸ hb.next), ?_, fun op hop => ?_, fun c hc => ?_,
    [], hq.phase hcall hbuf hoff rfl, accepted events ++ [call], ?_, fun c hc => ?_, ?_⟩
  · rw [haccepted]
    exact h.nodup_accept (hb.new hw)
  · obtain ⟨cell', timeout, hsend⟩ := hq.send
    rw [hsend, List.mem_singleton] at hop
    rw [haccepted, hop]
    exact List.mem_append_right _ (List.mem_singleton_self _)
  · rw [haccepted, hstarted, List.mem_append, List.mem_append, List.mem_singleton] at hc
    rw [hq.calls]
    rcases hc with (hc | rfl) | (hc | rfl)
    · exact h.bound c (.inl hc)
    · exact hb.bound
    · exact h.bound c (.inr hc)
    · exact hb.bound
  · rw [haccepted, List.append_nil]
  · rw [hstarted, List.mem_append, List.mem_singleton]
    obtain ⟨before, heq, hbefore, -⟩ := hb.waiting
    rw [hempty, List.map_nil, List.append_nil] at heq
    rcases List.mem_append.mp hc with hc | hc
    · exact hbefore c (heq ▸ hc)
    · exact .inr (List.mem_singleton.mp hc)
  · exact fun c hc => absurd hc List.not_mem_nil

lemma blocked_inv {event : Interest} (h : Inv s events) (hb : BeforeWrite s events buf call w)
    (hcall : a.call = call) (hbuf : a.buf = buf) (hoff : a.off = (s.bufs buf).off)
    (hempty : s.send = []) :
    Inv (leave (sstpOperationAddWrite s buf event timeout call) w call .inprog).1
      (events ++ .attempt a ::
        (leave (sstpOperationAddWrite s buf event timeout call) w call .inprog).2) := by
  obtain ⟨cell', cache, cells, hadd⟩ := sstpOperationAddWrite_eq s buf event timeout call
  rw [hempty, hb.pending] at hadd
  rw [hadd]
  cases w with
  | handler =>
    exact accepted_inv h hb (fun cell hc => by cases hc) hcall hbuf hoff hempty
      ⟨⟨cell', timeout, rfl⟩, rfl, .inl rfl, rfl, rfl⟩
  | callback cell =>
    exact accepted_inv h hb (fun cell hc => by cases hc) hcall hbuf hoff hempty
      ⟨⟨cell', timeout, rfl⟩, rfl, .inr ⟨cell, rfl⟩, rfl, rfl⟩
  | sendCont cell =>
    exact queued_inv h hb hcall hbuf hoff hempty
      ⟨⟨cell', timeout, rfl⟩, rfl, .inl rfl, rfl, rfl⟩

end Attempt

lemma write_inv (h : Inv s events) {buf call timeout : ℕ} {w : Caller}
    (hplace : s.place = .writing buf call timeout w) {result : SslWrite}
    (hC : Disciplined s (.write result)) :
    Inv (sslWrite s buf call timeout w result).1
      (events ++ (sslWrite s buf call timeout w result).2) := by
  have hb := beforeWrite h hplace
  have hempty : result.Blocked → s.send = [] := fun hr => by
    by_cases hw : w = .handler
    · exact hb.handler hw
    · exact hC buf call timeout w hplace hw hr
  cases result with
  | written n =>
    have ha : ¬ (SslWrite.written n).Blocked := by simp [SslWrite.Blocked]
    unfold sslWrite
    dsimp only
    split_ifs with hpart
    · exact part_inv h hb hplace rfl rfl rfl ha rfl rfl rfl rfl
    · exact leave_inv h hb rfl rfl rfl ha (by decide) rfl rfl rfl
  | wantRead => exact blocked_inv h hb rfl rfl rfl (hempty (.inl rfl))
  | wantWrite => exact blocked_inv h hb rfl rfl rfl (hempty (.inr rfl))
  | error =>
    have ha : ¬ SslWrite.error.Blocked := by decide
    exact leave_inv h hb rfl rfl rfl ha (by decide) rfl rfl rfl

/-! ### Runs -/

lemma step_inv (h : Inv s events) {i : Input} (hC : Disciplined s i) :
    Inv (step s i).1 (events ++ (step s i).2) := by
  have hsame : Inv (s, ([] : List Event)).1 (events ++ (s, ([] : List Event)).2) := by
    rwa [List.append_nil]
  unfold step
  split
  · next hplace =>
    rw [List.append_nil]
    exact build_inv h hC fun b c t w hpl => by rw [hplace] at hpl; cases hpl
  · next hplace =>
    rw [List.append_nil]
    exact build_inv h hC fun b c t w hpl => by rw [hplace] at hpl; cases hpl
  · next hplace =>
    cases hev : s.evSend with
    | none => exact call_free_inv h hev (.inl ⟨hplace, rfl⟩) _ _
    | some e => exact call_pending_inv h (by rw [hev]; rfl) hplace _ _
  · next hplace =>
    exact call_free_inv h (hC _ hplace) (.inr ⟨_, hplace, rfl⟩) _ _
  · next hplace => exact write_inv h hplace hC
  · next hplace =>
    split_ifs with hev
    · exact ready_inv h hplace hev
    · exact hsame
  · next hplace => exact ret_inv h hplace
  · exact hsame

lemma init_inv (bufs : ℕ → Buff) : Inv (init bufs) [] := by
  refine ⟨List.isChain_nil, List.nodup_nil, by simp [init], by simp [accepted, started, attempts],
    [], .free (s := init bufs) rfl (.inl ⟨rfl, rfl⟩) (by simp [Unblocked, attempts]), [], rfl,
    by simp, by simp⟩

/-- **The retry discipline** is kept, and buffers are started in the order in which they were
accepted, when what blocks finds no other operation in the queue, no callback goes on sending
after it was blocked, and a buffer that is to be retried keeps its offset. -/
theorem discipline_of_disciplined (bufs : ℕ → Buff) {inputs : List Input}
    (hC : Along step Disciplined (init bufs) inputs) :
    Discipline (run step (init bufs) inputs).2 :=
  (run_inv Inv (fun _ _ _ h hC => step_inv h hC) (init_inv bufs) hC).discipline

/-! ### Two buffers -/

def twoBuffers (buf : ℕ) : Buff := ⟨2, 0, [0x10, UInt8.ofNat buf]⟩

/-- A buffer that is retried, with another accepted behind it. -/
theorem discipline_of_disciplined_retried :
    Discipline (run step (init twoBuffers)
      [.send 0 10, .write .wantWrite, .send 1 10, .ready, .write (.written 2), .ret,
        .write (.written 2)]).2 := by
  refine discipline_of_disciplined _ ⟨fun _ h => ?_, fun _ _ _ _ h hw => ?_, fun _ h => ?_, trivial,
    fun _ _ _ _ _ _ hb => absurd hb (by decide), trivial,
    fun _ _ _ _ _ _ hb => absurd hb (by decide), trivial⟩
  · cases h
  · cases h
    exact absurd rfl hw
  · cases h

/-- **A retry that is blocked again** goes behind the other buffer, which is written next. -/
theorem blockedTwice_not_discipline :
    ¬ Discipline (run step (init twoBuffers)
      [.send 0 10, .write .wantWrite, .send 1 10, .ready, .write .wantWrite, .ready,
        .write (.written 2)]).2 := by
  intro h
  exact absurd h.retries (by decide +kernel)

end SstpClient.Retry
