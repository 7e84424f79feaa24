import SstpClient.StateSpec

/-!
The receive timeouts and the echo requests, `sstp_state_recv`.

A timeout sends an Echo-Request and counts it, and the fifth one that is not answered is the last:
the next timeout aborts. Only an Echo-Reply sets the counter back. Data packets and the other
control packets do not, so an abort comes after silence exactly when no such packet comes between
six timeouts.
-/

namespace SstpClient.KeepAlive

open SstpClient.Lib.Bytes SstpClient.Lib.Footprint SstpClient.Lib.Machine
open SstpClient.Buffer SstpClient.Packet SstpClient.StreamSpec SstpClient.StateSpec
open SstpClient.State hiding step
open SstpClient.Stream (SstpStream)

/-! ### What is promised -/

/-- What `sstp_state_recv` is called for. -/
inductive Receipt
  | timeout
  /-- An Echo-Reply. -/
  | reply
  /-- Another packet, of data or of control. -/
  | packet
  deriving DecidableEq

def IsReply (packet tail : List UInt8) : Prop :=
  (sstpPktType packet.length).eval (listMem (packet ++ tail)) =
    some (.ctrl, some SstpMsg.echoReply.code)

instance (packet tail : List UInt8) : Decidable (IsReply packet tail) :=
  inferInstanceAs (Decidable (_ = _))

/-- What is received comes from the event loop. -/
def receipt (s : Session) : Input → Option Receipt
  | .timeout => if s.stream.place = .idle then some .timeout else none
  | .recv packet tail _ =>
    if s.stream.place = .idle then some (if IsReply packet tail then .reply else .packet) else none
  | _ => none

variable (E : Env)

/-- What is received along a run. -/
def receipts : Session → List Input → List Receipt
  | _, [] => []
  | s, i :: is => (receipt s i).toList ++ receipts (State.step E s i).1 is

/-- The call is aborted by a timeout after the inputs. -/
def Aborts (s : Session) (inputs : List Input) : Prop :=
  .signal .abort ∈ (State.step E (run (State.step E) s inputs).1 .timeout).2

/-- A timeout that aborts is the last of six receive events that are all timeouts. -/
def OnSilence (s : Session) (inputs : List Input) : Prop :=
  ∀ js, js ++ [Input.timeout] <+: inputs → Aborts E s js →
    List.replicate 6 .timeout <:+ receipts E s (js ++ [.timeout])

/-- The condition: between six timeouts without an Echo-Reply there is no packet. -/
def Uninterrupted (rs : List Receipt) : Prop :=
  ∀ before between after : List Receipt,
    rs = before ++ Receipt.timeout :: (between ++ Receipt.timeout :: after) →
      .reply ∉ between → 4 ≤ between.count .timeout → .packet ∉ between

/-! ### Timeouts and packets -/

/-- The timeouts since the last Echo-Reply. -/
def unanswered (rs : List Receipt) : ℕ :=
  rs.foldl (fun n r => match r with | .timeout => n + 1 | .reply => 0 | .packet => n) 0

section Receipts

variable {rs : List Receipt}

lemma unanswered_concat (rs : List Receipt) (r : Receipt) :
    unanswered (rs ++ [r]) =
      match r with
      | .timeout => unanswered rs + 1
      | .reply => 0
      | .packet => unanswered rs := by
  unfold unanswered
  exact List.foldl_concat _ _ _ _

/-- Without an Echo-Reply every timeout counts. -/
lemma unanswered_append (rs : List Receipt) {new : List Receipt} (h : .reply ∉ new) :
    unanswered (rs ++ new) = unanswered rs + new.count .timeout := by
  induction new using List.reverseRecOn with
  | nil => simp
  | append_singleton new r ih =>
    rw [List.mem_append, not_or] at h
    rw [← List.append_assoc, unanswered_concat, ih h.1, List.count_append]
    cases r with
    | timeout => simp [add_assoc]
    | reply => simp at h
    | packet => simp

/-- The first of the timeouts that count. -/
lemma exists_first_unanswered (h : 0 < unanswered rs) :
    ∃ before since, rs = before ++ Receipt.timeout :: since ∧ .reply ∉ since ∧
      unanswered rs = since.count .timeout + 1 := by
  induction rs using List.reverseRecOn with
  | nil => cases h
  | append_singleton rs r ih =>
    rw [unanswered_concat] at h ⊢
    cases r with
    | timeout =>
      by_cases hpos : 0 < unanswered rs
      · obtain ⟨before, since, rfl, hreply, heq⟩ := ih hpos
        exact ⟨before, since ++ [Receipt.timeout], by simp, by simpa using hreply, by simp [heq]⟩
      · exact ⟨rs, [], rfl, List.not_mem_nil, by simp at hpos ⊢; exact hpos⟩
    | reply => cases h
    | packet =>
      obtain ⟨before, since, rfl, hreply, heq⟩ := ih h
      exact ⟨before, since ++ [Receipt.packet], by simp, by simpa using hreply, by simp [heq]⟩

/-- Nothing but timeouts. -/
lemma eq_replicate {l : List Receipt} (hreply : .reply ∉ l) (hpacket : .packet ∉ l) :
    l = List.replicate l.length .timeout := by
  refine List.eq_replicate_of_mem fun r hr => ?_
  cases r with
  | timeout => rfl
  | reply => exact absurd hr hreply
  | packet => exact absurd hr hpacket

/-- **Six timeouts.** Between six timeouts without an Echo-Reply there is no packet exactly if each
timeout that is at least the sixth comes right after five others. -/
theorem uninterrupted_iff : Uninterrupted rs ↔ ∀ before after : List Receipt,
    rs = before ++ Receipt.timeout :: after → 5 ≤ unanswered before →
      List.replicate 5 .timeout <:+ before := by
  constructor
  · rintro h before after rfl hfive
    have hpos : 0 < unanswered before := by omega
    obtain ⟨first, since, rfl, hreply, heq⟩ := exists_first_unanswered hpos
    have hpacket := h first since after (by simp) hreply (by omega)
    have hall := eq_replicate hreply hpacket
    have hcount : since.count .timeout = since.length := by
      rw [hall]
      simp
    obtain ⟨n, hn⟩ := Nat.exists_eq_add_of_le (show 4 ≤ since.length by omega)
    refine ⟨first ++ List.replicate n .timeout, ?_⟩
    rw [hall, hn, List.append_assoc, List.replicate_append_replicate, ← List.replicate_succ]
    congr 2
    omega
  · intro h before between after heq hreply hfour hpacket
    obtain ⟨w, t, rfl, ht⟩ := split_last hpacket
    have hall : t = List.replicate t.length .timeout :=
      eq_replicate (fun hr => hreply (by simp [hr])) ht
    -- the timeout that is at most the fifth after the packet, and at least the sixth of all
    obtain ⟨j, rest, hj, hsplit, hcount⟩ : ∃ j rest, j ≤ 4 ∧
        t ++ Receipt.timeout :: after = List.replicate j .timeout ++ Receipt.timeout :: rest ∧
          4 ≤ w.count .timeout + j := by
      by_cases hlen : t.length ≤ 4
      · refine ⟨t.length, after, hlen, by rw [← hall], ?_⟩
        rw [hall] at hfour
        simpa using hfour
      · obtain ⟨n, hn⟩ := Nat.exists_eq_add_of_le (show 5 ≤ t.length by omega)
        refine ⟨4, List.replicate n .timeout ++ Receipt.timeout :: after, le_refl 4, ?_, by omega⟩
        rw [hall, hn, ← List.replicate_append_replicate, List.append_assoc]
        rfl
    have hlate := h (before ++ [Receipt.timeout] ++
      (w ++ Receipt.packet :: List.replicate j .timeout)) rest (by
        simp only [List.append_assoc, List.cons_append, List.nil_append, ← hsplit, heq])
    have hnone : Receipt.reply ∉ w ++ Receipt.packet :: List.replicate j .timeout := by
      simp only [List.mem_append, not_or] at hreply
      simp [hreply.1]
    rw [unanswered_append _ hnone, unanswered_concat] at hlate
    have hfive := hlate (by simp; omega)
    have hpacket : Receipt.packet :: List.replicate j .timeout <:+
        before ++ [Receipt.timeout] ++ (w ++ Receipt.packet :: List.replicate j .timeout) :=
      ⟨before ++ [Receipt.timeout] ++ w, by simp⟩
    have hinside := List.suffix_of_suffix_length_le hpacket hfive (by simp; omega)
    cases List.eq_of_mem_replicate (hinside.subset List.mem_cons_self)

end Receipts

/-! ### The echo counter -/

section Counter

variable {E} {c : Session} {i : Input}

/-- The echo request whose `sstp_stream_send` has not returned is not counted yet. -/
def uncounted (c : Session) : ℕ := if c.waits = some .echoRequest then 1 else 0

/-- The echo requests that have been sent. -/
def sent (c : Session) : ℕ := c.st.echo + uncounted c

/-- A handler waits only while its message is written. -/
def Waiting (c : Session) : Prop :=
  ∀ m, c.waits = some m → ∃ call, c.stream.place = .writing txBuf call 10 .handler

lemma Waiting.idle (h : Waiting c) (hplace : c.stream.place = .idle) : c.waits = none := by
  rw [Option.eq_none_iff_forall_ne_some]
  intro m hm
  obtain ⟨call, hp⟩ := h m hm
  cases hplace.symm.trans hp

lemma sent_of_idle (h : Waiting c) (hplace : c.stream.place = .idle) : sent c = c.st.echo := by
  simp [sent, uncounted, h.idle hplace]

/-- What the return of `sstp_stream_send` counts. -/
lemma echo_afterSend (m : Message) (status : Status) (st : SstpState) :
    (afterSend m status st).1.echo = st.echo + if m = .echoRequest then 1 else 0 := by
  cases m <;> rfl

/-- No handler waits: the stream counts nothing. -/
lemma sent_stream_free (hw : c.waits = none) (r : SstpStream × List Stream.Event) :
    Waiting (streamStep c r).1 ∧ sent (streamStep c r).1 = sent c := by
  have hres : resume { c with stream := r.1 } r.2 = ({ c with stream := r.1 }, []) := by
    unfold resume
    simp only [hw]
  unfold streamStep
  dsimp only
  rw [hres]
  refine ⟨fun m hm => ?_, rfl⟩
  rw [show c.waits = some m from hm] at hw
  cases hw

/-- **A step of the stream** keeps the number of echo requests: one is counted when its call
returns. -/
lemma sent_stream (h : Waiting c) (j : Stream.Input) :
    Waiting (streamStep c (Stream.step c.stream j)).1 ∧
      sent (streamStep c (Stream.step c.stream j)).1 = sent c := by
  cases hw : c.waits with
  | none => exact sent_stream_free hw _
  | some m =>
    obtain ⟨call, hplace⟩ := h m hw
    obtain heq | ⟨a, bufs, heq⟩ | ⟨a, s', status, -, heq⟩ := step_handler hplace j
    · rw [heq, streamStep_still]
      exact ⟨h, rfl⟩
    · rw [heq, streamStep_waits]
      exact ⟨fun m _ => ⟨call, hplace⟩, rfl⟩
    · -- the call returns: what the handler counts was not counted before
      have hret : returned [.attempt a, .returned call status] = some status := rfl
      rw [heq, streamStep_returned hw hret rfl]
      refine ⟨fun m hm => (by cases hm), ?_⟩
      simp [sent, uncounted, echo_afterSend, hw]

variable (E) in
/-- **A message that is handed over** is counted at once, or waits to be. -/
lemma sent_handOver (hready : Ready c) {m : Message} (hm : ControlMsg.Sized m) :
    Waiting (handOver E c m).1 ∧
      sent (handOver E c m).1 = c.st.echo + (if m = .echoRequest then 1 else 0) ∧
      (m = .echoRequest → .signal .abort ∉ (handOver E c m).2) := by
  obtain ⟨b, hb, -⟩ := hready.handed (E := E) hm
  by_cases hev : c.stream.evSend = none
  · rw [handOver_idle hb hev]
    refine ⟨fun _ _ => ⟨_, rfl⟩, ?_, by simp⟩
    simp [sent, uncounted]
  · obtain ⟨cell, cache, cells, ev, heq⟩ := handOver_pending hb hev
    rw [heq]
    refine ⟨fun m hm => (by cases hm), ?_, ?_⟩
    · simp [sent, uncounted, echo_afterSend]
    · rintro rfl
      simp [afterSend]

/-- **A handler that runs.** -/
lemma sent_handle (hready : Ready c) (hwaits : c.waits = none) {r : Handled}
    (hspec : HandledSpec E c.st i r) :
    Waiting (handle E c r).1 ∧
      sent (handle E c r).1 = r.st.echo + if r.sends = some .echoRequest then 1 else 0 := by
  unfold handle
  cases hs : r.sends with
  | none =>
    refine ⟨fun m hm => ?_, ?_⟩
    · rw [show c.waits = some m from hm] at hwaits
      cases hwaits
    · simp [sent, uncounted, hwaits]
  | some m =>
    obtain ⟨hwaiting, hsent, -⟩ :=
      sent_handOver E (hready.of_spec hspec) (sized_of_sends hspec hs)
    refine ⟨hwaiting, ?_⟩
    rw [hsent]
    simp

/-! ### The handlers -/

/-- The handler of a packet resets the counter for an Echo-Reply, and does not touch it for any
other packet. -/
lemma echo_handlePacket {st : SstpState} {packet tail : List UInt8} {attrs : Attrs} {r : Handled}
    (h : sstpStateHandlePacket st packet.length (listMem (packet ++ tail)) attrs = some r) :
    r.sends ≠ some .echoRequest ∧
      (IsReply packet tail ∧ r.st.echo = 0 ∨ ¬ IsReply packet tail ∧ r.st.echo = st.echo) := by
  unfold sstpStateHandlePacket at h
  unfold IsReply
  cases htype : (sstpPktType packet.length).eval (listMem (packet ++ tail)) with
  | none =>
    rw [htype] at h
    cases h
  | some t =>
    rw [htype] at h
    obtain ⟨kind, type⟩ := t
    cases kind with
    | unknown =>
      cases h
      simp [Handled.quiet]
    | data =>
      dsimp only at h
      split_ifs at h
      obtain ⟨payload, -, rfl⟩ := Option.map_eq_some_iff.mp h
      simp
    | ctrl =>
      cases type with
      | none =>
        cases h
        simp [Handled.quiet]
      | some type =>
        dsimp only at h
        unfold sstpStateHandleCtrl at h
        split_ifs at h with htack hnak habort hdisc hdack hreq hrep
        · obtain ⟨b, -, rfl⟩ := Option.map_eq_some_iff.mp h
          cases b <;> simp [htack, SstpMsg.code]
        · obtain ⟨b, -, rfl⟩ := Option.map_eq_some_iff.mp h
          cases b <;> simp [hnak, SstpMsg.code, Handled.quiet]
        · obtain ⟨b, -, rfl⟩ := Option.map_eq_some_iff.mp h
          cases b <;> simp [habort, SstpMsg.code, Handled.quiet]
        · obtain ⟨b, -, rfl⟩ := Option.map_eq_some_iff.mp h
          cases b <;> simp [hdisc, SstpMsg.code]
        · cases h
          simp [hdack, SstpMsg.code]
        · cases h
          simp [hreq, SstpMsg.code]
        · cases h
          simp [hrep, Handled.quiet]
        · cases h
          simp [hrep, Handled.quiet]

/-- An Echo-Reply is always acted on. -/
lemma handled_reply {packet tail : List UInt8} {attrs : Attrs} (h : IsReply packet tail) :
    handled E c.st (.recv packet tail attrs) = some (.quiet { c.st with echo := 0 }) := by
  unfold IsReply at h
  simp [handled, sstpStateHandlePacket, h, sstpStateHandleCtrl, SstpMsg.code]

/-- The other handlers. -/
lemma echo_handled {r : Handled} (h : handled E c.st i = some r) (ht : i ≠ .timeout)
    (hp : ∀ packet tail attrs, i ≠ .recv packet tail attrs) :
    r.sends ≠ some .echoRequest ∧ r.st.echo = c.st.echo := by
  cases i with
  | start =>
    cases h
    unfold sstpStateStart
    split_ifs <;> simp [Handled.quiet]
  | accept =>
    cases h
    unfold sstpStateAccept
    split_ifs
    · cases E.certHash c.st.proto <;> simp
    · simp [Handled.quiet]
  | timeout => exact absurd rfl ht
  | recv packet tail attrs => exact absurd rfl (hp packet tail attrs)
  | _ =>
    cases h
    simp [Handled.quiet, sstpStateMppeKeys]

end Counter

/-! ### The steps -/

/-- The echo requests sent, up to the five that a timeout looks for, are the timeouts since the last
Echo-Reply. -/
structure Counted (c : Session) (rs : List Receipt) : Prop where
  ready : Ready c
  waiting : Waiting c
  sent_eq : sent c = min 5 (unanswered rs)

section Step

variable {c : Session} {rs : List Receipt}

lemma Counted.echo (h : Counted c rs) (hplace : c.stream.place = .idle) :
    c.st.echo = min 5 (unanswered rs) := by
  rw [← h.sent_eq, sent_of_idle h.waiting hplace]

/-- Away from the event loop nothing is received. -/
lemma step_busy {i : Input} (hplace : c.stream.place ≠ .idle) (hi : ∀ j, i ≠ .stream j) :
    State.step E c i = (c, []) ∧ receipt c i = none := by
  cases i with
  | stream j => exact absurd rfl (hi j)
  | _ => simp [State.step, receipt, hplace]

/-- In the event loop a handler runs, or it overruns. -/
lemma step_idle {i : Input} (hplace : c.stream.place = .idle) (hi : ∀ j, i ≠ .stream j) :
    (handled E c.st i = none ∧ (State.step E c i).1 = c) ∨
      ∃ r, handled E c.st i = some r ∧ State.step E c i = handle E c r := by
  cases hh : handled E c.st i with
  | none =>
    refine .inl ⟨rfl, ?_⟩
    cases i with
    | stream j => exact absurd rfl (hi j)
    | _ => simp [State.step, hplace, hh]
  | some r =>
    refine .inr ⟨r, rfl, ?_⟩
    cases i with
    | stream j => exact absurd rfl (hi j)
    | _ => simp [State.step, hplace, hh]

/-- A handler that neither sends an echo request nor touches the counter. -/
lemma counted_handle {i : Input} {r : Handled} (h : Counted c rs) (hplace : c.stream.place = .idle)
    (hready : Ready (handle E c r).1) (hr : handled E c.st i = some r)
    (hsends : r.sends ≠ some .echoRequest) (hkeep : r.st.echo = c.st.echo) :
    Counted (handle E c r).1 rs := by
  obtain ⟨hwaiting, hsent⟩ := sent_handle h.ready (h.waiting.idle hplace) (handled_spec hr)
  rw [if_neg hsends, add_zero, hkeep, h.echo hplace] at hsent
  exact ⟨hready, hwaiting, hsent⟩

/-- **A timeout** is counted, unless there are five already. -/
lemma counted_timeout (h : Counted c rs) (hplace : c.stream.place = .idle) :
    Counted (State.step E c .timeout).1 (rs ++ [.timeout]) := by
  have hecho := h.echo hplace
  have hstep : State.step E c .timeout = handle E c (sstpStateTimeout c.st) := by
    simp [State.step, hplace, handled]
  have hspec : HandledSpec E c.st .timeout (sstpStateTimeout c.st) := handled_spec rfl
  obtain ⟨hwaiting, hsent⟩ := sent_handle h.ready (h.waiting.idle hplace) hspec
  refine ⟨ready_step h.ready _, hstep ▸ hwaiting, ?_⟩
  rw [hstep, hsent, unanswered_concat]
  unfold sstpStateTimeout
  split_ifs with hfive hsends hsends
  · cases hsends
  · dsimp only
    omega
  · dsimp only
    omega
  · exact absurd rfl hsends

/-- **A packet** leaves the count as it is, or sets it back. -/
lemma counted_recv (h : Counted c rs) (hplace : c.stream.place = .idle) (packet tail : List UInt8)
    (attrs : Attrs) : Counted (State.step E c (.recv packet tail attrs)).1
      (rs ++ [if IsReply packet tail then .reply else .packet]) := by
  have hecho := h.echo hplace
  have hready := ready_step (E := E) h.ready (.recv packet tail attrs)
  rcases step_idle E (i := .recv packet tail attrs) hplace (fun j hj => by cases hj) with
    ⟨hnone, heq⟩ | ⟨r, hr, heq⟩
  · have hnot : ¬ IsReply packet tail := fun hreply => by
      rw [handled_reply hreply] at hnone
      cases hnone
    rw [heq, if_neg hnot]
    exact ⟨h.ready, h.waiting, by rw [unanswered_concat, h.sent_eq]⟩
  · obtain ⟨hwaiting, hsent⟩ := sent_handle h.ready (h.waiting.idle hplace) (handled_spec hr)
    obtain ⟨hsends, hkind⟩ := echo_handlePacket hr
    rw [if_neg hsends, add_zero] at hsent
    rw [heq] at hready ⊢
    refine ⟨hready, hwaiting, ?_⟩
    rw [hsent, unanswered_concat]
    rcases hkind with ⟨hreply, hzero⟩ | ⟨hnot, hkeep⟩
    · rw [if_pos hreply, hzero]
      rfl
    · rw [if_neg hnot, hkeep, hecho]

/-- What is no receive event leaves the count as it is. -/
lemma counted_other {i : Input} (h : Counted c rs) (hplace : c.stream.place = .idle)
    (hi : ∀ j, i ≠ .stream j) (ht : i ≠ .timeout)
    (hp : ∀ packet tail attrs, i ≠ .recv packet tail attrs) :
    Counted (State.step E c i).1 rs := by
  have hready := ready_step (E := E) h.ready i
  rcases step_idle E hplace hi with ⟨-, heq⟩ | ⟨r, hr, heq⟩
  · rwa [heq]
  · obtain ⟨hsends, hkeep⟩ := echo_handled hr ht hp
    rw [heq] at hready ⊢
    exact counted_handle E h hplace hready hr hsends hkeep

/-- **Every step** counts what it receives. -/
lemma counted_step (h : Counted c rs) (i : Input) :
    Counted (State.step E c i).1 (rs ++ (receipt c i).toList) := by
  by_cases hstream : ∃ j, i = .stream j
  · obtain ⟨j, rfl⟩ := hstream
    have hready := ready_step (E := E) h.ready (.stream j)
    rw [show receipt c (.stream j) = none from rfl, Option.toList_none, List.append_nil]
    cases StateSpec.step_spec E c (.stream j) with
    | still heq hevents => rwa [heq]
    | overrun hplace hh heq hevents => rwa [heq]
    | stream j' hi hbuild hsend heq =>
      cases hi
      rw [congrArg Prod.fst heq] at hready ⊢
      obtain ⟨hwaiting, hsent⟩ := sent_stream h.waiting j
      exact ⟨hready, hwaiting, hsent.trans h.sent_eq⟩
    | ran r hplace hh hspec heq =>
      obtain ⟨hsends, hkeep⟩ := echo_handled hh (by simp) (by simp)
      rw [congrArg Prod.fst heq] at hready ⊢
      exact counted_handle E h hplace hready hh hsends hkeep
  · have hi : ∀ j, i ≠ .stream j := fun j hj => hstream ⟨j, hj⟩
    by_cases hplace : c.stream.place = .idle
    · cases i with
      | stream j => exact absurd rfl (hi j)
      | timeout =>
        rw [receipt, if_pos hplace]
        exact counted_timeout E h hplace
      | recv packet tail attrs =>
        rw [receipt, if_pos hplace]
        exact counted_recv E h hplace packet tail attrs
      | _ =>
        have hkeep := counted_other E h hplace hi (by simp) (by simp)
        simpa [receipt] using hkeep
    · obtain ⟨heq, hnone⟩ := step_busy E hplace hi
      rw [heq, hnone, Option.toList_none, List.append_nil]
      exact h

/-- **A timeout aborts** exactly when five have come since the last Echo-Reply. -/
lemma abort_iff (h : Counted c rs) :
    .signal .abort ∈ (State.step E c .timeout).2 ↔
      c.stream.place = .idle ∧ 5 ≤ unanswered rs := by
  by_cases hplace : c.stream.place = .idle
  · have hecho := h.echo hplace
    have hstep : State.step E c .timeout = handle E c (sstpStateTimeout c.st) := by
      simp [State.step, hplace, handled]
    rw [hstep]
    unfold sstpStateTimeout
    split_ifs with hfive
    · exact iff_of_true List.mem_cons_self ⟨hplace, by omega⟩
    · refine iff_of_false ?_ fun hn => by omega
      have hsized : ControlMsg.Sized .echoRequest := fun _ hm => by cases hm
      exact (sent_handOver E h.ready hsized).2.2 rfl
  · obtain ⟨heq, -⟩ := step_busy E (i := .timeout) hplace (by simp)
    rw [heq]
    exact iff_of_false List.not_mem_nil fun hn => hplace hn.1

end Step

/-! ### Whole runs -/

section Run

lemma receipts_append (s : Session) (is js : List Input) :
    receipts E s (is ++ js) = receipts E s is ++ receipts E (run (State.step E) s is).1 js := by
  induction is generalizing s with
  | nil => rfl
  | cons i is ih =>
    rw [List.cons_append, receipts, receipts, ih, List.append_assoc]
    rfl

lemma receipts_singleton (s : Session) (i : Input) : receipts E s [i] = (receipt s i).toList :=
  List.append_nil _

lemma receipts_timeout {s : Session} (hplace : s.stream.place = .idle) :
    receipts E s [.timeout] = [.timeout] := by
  rw [receipts_singleton, receipt, if_pos hplace]
  rfl

/-- **A run** counts what it receives. -/
lemma counted_run {s : Session} {rs : List Receipt} (h : Counted s rs) (inputs : List Input) :
    Counted (run (State.step E) s inputs).1 (rs ++ receipts E s inputs) := by
  induction inputs generalizing s rs with
  | nil => simpa [receipts] using h
  | cons i is ih =>
    rw [run_cons, receipts, ← List.append_assoc]
    exact ih (counted_step E h i)

lemma counted_create (mode : Mode) (bufs : ℕ → Buff) : Counted (sstpCreate mode bufs) [] where
  ready := ready_create mode bufs
  waiting := fun m hm => by cases hm
  sent_eq := rfl

/-- What has been received up to some receive event, has been received along a part of the run. -/
lemma exists_receipt {s : Session} {inputs : List Input} {before after : List Receipt} {r : Receipt}
    (h : receipts E s inputs = before ++ r :: after) :
    ∃ js i, js ++ [i] <+: inputs ∧ receipts E s js = before ∧
      receipt (run (State.step E) s js).1 i = some r := by
  induction inputs generalizing s before with
  | nil => simp [receipts] at h
  | cons i is ih =>
    rw [receipts] at h
    rcases split_append h with ⟨t, hfirst⟩ | ⟨t, rfl, hrest⟩
    · have hi : receipt s i = some r := Option.mem_toList.mp (by simp [hfirst])
      have hnil : before = [] := by
        rw [hi] at hfirst
        cases before with
        | nil => rfl
        | cons r' before => simp at hfirst
      exact ⟨[], i, ⟨is, rfl⟩, hnil.symm, hi⟩
    · obtain ⟨js, j, hfront, rfl, hj⟩ := ih hrest
      exact ⟨i :: js, j, (List.prefix_cons_inj i).mpr hfront, rfl, hj⟩

/-- A timeout that is received. -/
lemma receipt_timeout {s : Session} {i : Input} (h : receipt s i = some .timeout) :
    i = .timeout ∧ s.stream.place = .idle := by
  cases i with
  | timeout => simpa [receipt] using h
  | recv packet tail attrs =>
    simp only [receipt] at h
    split_ifs at h <;> cases h
  | _ => cases h

/-- **An abort comes after silence**, all along a run, exactly when no packet but an Echo-Reply
comes between six timeouts. -/
theorem onSilence_iff (E : Env) (mode : Mode) (bufs : ℕ → Buff) (inputs : List Input) :
    OnSilence E (sstpCreate mode bufs) inputs ↔
      Uninterrupted (receipts E (sstpCreate mode bufs) inputs) := by
  have habort : ∀ js, Aborts E (sstpCreate mode bufs) js ↔
      (run (State.step E) (sstpCreate mode bufs) js).1.stream.place = .idle ∧
        5 ≤ unanswered (receipts E (sstpCreate mode bufs) js) := fun js =>
    abort_iff E (counted_run E (counted_create mode bufs) js)
  have hsix : ∀ js, (run (State.step E) (sstpCreate mode bufs) js).1.stream.place = .idle →
      (List.replicate 6 .timeout <:+ receipts E (sstpCreate mode bufs) (js ++ [.timeout]) ↔
        List.replicate 5 .timeout <:+ receipts E (sstpCreate mode bufs) js) := by
    intro js hplace
    have hlast : List.replicate 6 Receipt.timeout = List.replicate 5 .timeout ++ [.timeout] := rfl
    rw [receipts_append, receipts_timeout E hplace, hlast, List.suffix_append_self_iff]
  rw [uninterrupted_iff]
  constructor
  · intro h before after heq hfive
    obtain ⟨js, i, hfront, rfl, hi⟩ := exists_receipt E heq
    obtain ⟨rfl, hplace⟩ := receipt_timeout hi
    exact (hsix js hplace).mp (h js hfront ((habort js).mpr ⟨hplace, hfive⟩))
  · intro h js hfront haborts
    obtain ⟨hplace, hfive⟩ := (habort js).mp haborts
    obtain ⟨after, rfl⟩ := hfront
    refine (hsix js hplace).mpr (h _ (receipts E
      (run (State.step E) (sstpCreate mode bufs) (js ++ [.timeout])).1 after) ?_ hfive)
    rw [receipts_append, receipts_append, receipts_timeout E hplace, List.append_assoc]
    rfl

/-- A timeout whose echo request is written at once. -/
def echoed : List Input := [.timeout, .stream (.write (.written 8))]

/-- No write is going on or waits. -/
structure Free (c : Session) : Prop where
  place : c.stream.place = .idle
  evSend : c.stream.evSend = none

variable {c : Session} {rs : List Receipt}

lemma free_echoed (h : Counted c rs) (hfree : Free c) (hfew : unanswered rs < 5) :
    Free (run (State.step E) c echoed).1 ∧ receipts E c echoed = [.timeout] := by
  have hecho := h.echo hfree.place
  have hmax : 8 ≤ (c.stream.bufs txBuf).max := by
    rw [h.ready.max]
    decide
  obtain ⟨b, hb, hbuilt, -⟩ := PacketImage.built_init .echoRequest (by decide) hmax
  have hstep : State.step E c .timeout = handOver E c .echoRequest := by
    have hnot : ¬ 4 < c.st.echo := by omega
    simp [State.step, hfree.place, handled, sstpStateTimeout, hnot, handle]
  have hbuild : construct E c.st (c.stream.bufs txBuf) .echoRequest = some (.okay, b) :=
    congrArg some hb
  rw [handOver_idle hbuild hfree.evSend] at hstep
  have hreceipts : receipts E c echoed = [.timeout] := by
    simp [echoed, receipts, receipt, hfree.place]
  refine ⟨?_, hreceipts⟩
  have hlen : b.len = 8 := hbuilt.len
  have hoff : b.off = 0 := hbuilt.off
  unfold echoed
  rw [run_cons, run_cons, run_nil, hstep]
  dsimp only
  simp only [State.step, Stream.step, Stream.sslWrite, Function.update_self, hlen, hoff]
  exact ⟨rfl, hfree.evSend⟩

/-- Timeouts whose echo requests are written at once, up to the five that are counted. -/
lemma free_timeouts (h : Counted c rs) (hfree : Free c) (n : ℕ) (hfew : unanswered rs + n ≤ 5) :
    Free (run (State.step E) c (List.replicate n echoed).flatten).1 ∧
      receipts E c (List.replicate n echoed).flatten = List.replicate n .timeout := by
  induction n generalizing c rs with
  | zero => exact ⟨hfree, rfl⟩
  | succ n ih =>
    obtain ⟨hfree', hone⟩ := free_echoed E h hfree (by omega)
    have hcounted := counted_run E h echoed
    rw [hone] at hcounted
    have hfew' : unanswered (rs ++ [.timeout]) + n ≤ 5 := by
      rw [unanswered_concat]
      dsimp only
      omega
    obtain ⟨hfree'', hrest⟩ := ih hcounted hfree' hfew'
    rw [List.replicate_succ, List.flatten_cons, run_append, receipts_append, hone, hrest]
    exact ⟨hfree'', rfl⟩

/-- A data packet without payload. -/
def data : Input := .recv [0x10, 0x00, 0x00, 0x04] [] fun _ => none

lemma data_spec (hplace : c.stream.place = .idle) :
    receipt c data = some .packet ∧ (State.step E c data).1.stream = c.stream := by
  have hnot : ¬ IsReply [0x10, 0x00, 0x00, 0x04] [] := by decide
  refine ⟨by simp [data, receipt, hplace, hnot], ?_⟩
  rcases step_idle E (i := data) hplace (fun j hj => by cases hj) with
    ⟨-, heq⟩ | ⟨r, hr, heq⟩
  · rw [heq]
  · have hsends : r.sends = none := by
      change (if c.st.forward then Option.map _ _ else none) = some r at hr
      split_ifs at hr
      obtain ⟨payload, -, rfl⟩ := Option.map_eq_some_iff.mp hr
      rfl
    rw [heq]
    simp [handle, hsends]

/-- Five echo requests, then a data packet, then a timeout: it aborts. -/
lemma interrupted (h : Counted c []) (hfree : Free c) :
    ¬ OnSilence E c ((.setForward :: (List.replicate 5 echoed).flatten ++ [data]) ++
      [.timeout]) := by
  have hset : receipt c .setForward = none ∧ Free (State.step E c .setForward).1 := by
    refine ⟨rfl, ?_, ?_⟩
    · simp [State.step, hfree.place, handled, handle, Handled.quiet]
    · simp [State.step, hfree.place, handled, handle, Handled.quiet, hfree.evSend]
  have hcounted := counted_step E h .setForward
  rw [hset.1] at hcounted
  obtain ⟨hfree', hfive⟩ := free_timeouts E hcounted hset.2 5 (by decide)
  obtain ⟨hpacket, hstream⟩ := data_spec E hfree'.place
  have hafter := counted_step E (counted_run E hcounted (List.replicate 5 echoed).flatten) data
  rw [hfive, hpacket] at hafter
  have hplace := hfree'.place
  rw [← hstream] at hplace
  have hrun : (run (State.step E) c (.setForward :: (List.replicate 5 echoed).flatten ++ [data])).1 =
      (State.step E (run (State.step E) (State.step E c .setForward).1
        (List.replicate 5 echoed).flatten).1 data).1 := by
    rw [run_append, run_cons, run_cons, run_nil]
  intro hsilence
  have hlast := hsilence _ (List.prefix_refl _) (by
    unfold Aborts
    rw [hrun, abort_iff E hafter]
    exact ⟨hplace, by decide⟩)
  rw [receipts_append, receipts_append, hrun, receipts, hset.1, hfive, run_cons,
    receipts_singleton, hpacket, receipts_timeout E hplace] at hlast
  revert hlast
  decide

/-- A call that is aborted although a data packet has just come. -/
theorem interrupted_not_onSilence :
    ¬ OnSilence plainEnv (sstpCreate .client fun _ => sstpBuffCreate 0)
      ((.setForward :: (List.replicate 5 echoed).flatten ++ [data]) ++ [.timeout]) :=
  interrupted plainEnv (counted_create .client _) ⟨rfl, rfl⟩

end Run

end SstpClient.KeepAlive
