import SstpClient.TxBuf

/-!
The two operations the invariant has to survive: one `SSL_write`, and a message that is built and
handed over.
-/

namespace SstpClient.TxBuf

open SstpClient.Buffer SstpClient.Packet SstpClient.StreamSpec SstpClient.State
open SstpClient.Stream (SstpStream Attempt sendFrom)

variable {s s' : SstpStream} {events new : List Event}

/-! ### One `SSL_write` -/

/-- Beside a call that writes the transmit buffer no other one refers to it. -/
lemma Inv.alone (h : Inv s events) {call : ℕ} {others : List (ℕ × ℕ)}
    (hu : users s = (txBuf, call) :: others) : ∀ u ∈ others, u.1 ≠ txBuf := by
  intro u hmem heq
  have hone := h.single
  rw [hu, List.countP_cons] at hone
  have hpos : 0 < others.countP fun u => u.1 = txBuf :=
    List.countP_pos_iff.mpr ⟨u, hmem, by simpa using heq⟩
  simp only [decide_true, if_true] at hone
  omega

section Wrote

variable {buf call timeout : ℕ} {w : Stream.Caller} {a : Attempt} {later : List Stream.Event}

/-- What an `SSL_write` tells is told of its call. -/
lemma wrote_tells (hw : Wrote s s' buf call a later) :
    (∀ e ∈ (Stream.Event.attempt a :: later).map Event.stream, ∀ c, Tells c e → c = call) ∧
      wire call ((Stream.Event.attempt a :: later).map Event.stream) = a.bytes ∧
      (∀ c message, .handed c message ∉ (Stream.Event.attempt a :: later).map Event.stream) ∧
      .init true ∉ (Stream.Event.attempt a :: later).map Event.stream ∧
      ∀ status, Ended call status ((Stream.Event.attempt a :: later).map Event.stream) ↔
        later = [.returned call status] ∨ later = [.completed call status] := by
  have hcall := hw.call_eq
  have hlater : later = [] ∨ ∃ status, later = [.returned call status] ∨
      later = [.completed call status] := by
    rcases hw.outcome with ⟨-, hl | hl⟩ | ⟨-, status, hl, -⟩
    · exact .inl hl
    · exact .inr ⟨.inprog, .inl hl⟩
    · exact .inr ⟨status, hl⟩
  rcases hlater with rfl | ⟨status, rfl | rfl⟩
  · exact ⟨by simp [Tells, hcall, eq_comm], by simp [wire, hcall], by simp, by simp, by simp [Ended]⟩
  · exact ⟨by simp [Tells, hcall, eq_comm], by simp [wire, hcall], by simp, by simp,
      by simp [Ended, eq_comm]⟩
  · exact ⟨by simp [Tells, hcall, eq_comm], by simp [wire, hcall], by simp, by simp,
      by simp [Ended, eq_comm]⟩

/-- The message of the call that writes: what is taken is the next part of it. -/
lemma Inv.message_wrote (h : Inv s events) (hplace : s.place = .writing buf call timeout w)
    (hw : Wrote s s' buf call a later) {message : List UInt8}
    (hmem : .handed call message ∈ events) :
    buf = txBuf ∧ message = wire call events ++ a.bytes ++ remaining (s'.bufs txBuf) := by
  have huser : (buf, call) ∈ users s := users_writing hplace ▸ List.mem_cons_self
  obtain ⟨hbuf, hmessage⟩ := h.rest _ huser message hmem
  obtain ⟨n, hn, hbytes, hbufs⟩ := hw.bytes
  dsimp only at hbuf
  subst hbuf
  refine ⟨rfl, ?_⟩
  rw [hbufs, Function.update_self, List.append_assoc, hbytes, ← remaining_split h.txOff hn]
  exact hmessage

/-- Other users of the transmit buffer find it unchanged. -/
lemma Inv.rest_wrote (h : Inv s events) (hplace : s.place = .writing buf call timeout w)
    (hw : Wrote s s' buf call a later) {u : ℕ × ℕ} (hu : u ∈ s.send.map use)
    (htx : u.1 = txBuf) : buf ≠ txBuf ∧ s'.bufs txBuf = s.bufs txBuf := by
  have hbuf : buf ≠ txBuf := by
    rintro rfl
    exact h.alone (users_writing hplace) u hu htx
  obtain ⟨n, -, -, hbufs⟩ := hw.bytes
  refine ⟨hbuf, ?_⟩
  rw [hbufs, Function.update_of_ne (Ne.symm hbuf)]

/-- Who uses a buffer after the write: the call goes on, or it has ended, with `SSTP_OKAY` only
when nothing is left. -/
lemma users_wrote (hplace : s.place = .writing buf call timeout w)
    (hw : Wrote s s' buf call a later) :
    ((users s').Perm ((buf, call) :: s.send.map use) ∧
        ¬ Ended call .okay ((Stream.Event.attempt a :: later).map Event.stream)) ∨
      ((users s').Perm (s.send.map use) ∧
        ((s'.bufs buf).len ≤ (s'.bufs buf).off ∨
          Ended call .fail ((Stream.Event.attempt a :: later).map Event.stream) ∧
          ¬ Ended call .okay ((Stream.Event.attempt a :: later).map Event.stream))) := by
  obtain ⟨-, -, -, -, hended⟩ := wrote_tells hw
  rw [hended, hended]
  have hu := users_writing hplace
  rcases hw.outcome with ⟨hperm, hl⟩ | ⟨hperm, status, hl, hstatus⟩
  · refine .inl ⟨hu ▸ hperm, ?_⟩
    rcases hl with rfl | rfl <;> simp
  · rw [hu] at hperm
    refine .inr ⟨hperm.cons_inv.symm, ?_⟩
    rcases hstatus with ⟨-, hle⟩ | rfl
    · exact .inl hle
    · exact .inr ⟨hl, by rcases hl with rfl | rfl <;> simp⟩

/-- The call that writes ends with `SSTP_OKAY` when the whole message is taken. -/
lemma Inv.complete_wrote (h : Inv s events) (hplace : s.place = .writing buf call timeout w)
    (hw : Wrote s s' buf call a later) {message : List UInt8} (hmem : .handed call message ∈ events)
    (hend : Ended call .okay
      (events ++ (Stream.Event.attempt a :: later).map Event.stream)) :
    wire call events ++ a.bytes = message := by
  obtain ⟨hbuf, hmessage⟩ := h.message_wrote hplace hw hmem
  rcases ended_append.mp hend with hend | hend
  · -- it had ended before: nothing was left to take
    have hdone := h.complete call message hmem hend
    rw [hdone, List.append_assoc] at hmessage
    have hnil := List.append_right_eq_self.mp hmessage.symm
    rw [hdone, (List.append_eq_nil_iff.mp hnil).1, List.append_nil]
  · rcases users_wrote hplace hw with ⟨-, hnot⟩ | ⟨-, hle | ⟨-, hnot⟩⟩
    · exact absurd hend hnot
    · rw [hmessage, remaining_eq_nil (hbuf ▸ hle), List.append_nil]
    · exact absurd hend hnot

/-- The call that writes fails, or has the whole message taken, or goes on. -/
lemma Inv.inUse_wrote (h : Inv s events) (hplace : s.place = .writing buf call timeout w)
    (hw : Wrote s s' buf call a later) {message : List UInt8}
    (hmem : .handed call message ∈ events) :
    Ended call .fail ((Stream.Event.attempt a :: later).map Event.stream) ∨
      wire call events ++ a.bytes = message ∨ (buf, call) ∈ users s' := by
  obtain ⟨hbuf, hmessage⟩ := h.message_wrote hplace hw hmem
  rcases users_wrote hplace hw with ⟨hperm, -⟩ | ⟨-, hle | ⟨hfail, -⟩⟩
  · exact .inr (.inr (hperm.mem_iff.mpr List.mem_cons_self))
  · rw [remaining_eq_nil (hbuf ▸ hle), List.append_nil] at hmessage
    exact .inr (.inl hmessage.symm)
  · exact .inl hfail

lemma Inv.wrote (h : Inv s events) (hplace : s.place = .writing buf call timeout w)
    (hw : Wrote s s' buf call a later) :
    Inv s' (events ++ (Stream.Event.attempt a :: later).map Event.stream) := by
  obtain ⟨htells, hwireNew, hhanded, hinit, hended⟩ := wrote_tells hw
  have hu := users_writing hplace
  have hcases := users_wrote hplace hw
  have hcomplete := fun {message} (hm : .handed call message ∈ events) =>
    h.complete_wrote hplace hw hm
  have hinUse := fun {message} (hm : .handed call message ∈ events) =>
    h.inUse_wrote hplace hw hm
  generalize hnew : (Stream.Event.attempt a :: later).map Event.stream = new at *
  have hold : ∀ {c message}, .handed c message ∈ events ++ new → .handed c message ∈ events :=
    fun hmem => (List.mem_append.mp hmem).resolve_right (hhanded _ _)
  have hother : ∀ {c}, c ≠ call → ∀ e ∈ new, ¬ Tells c e :=
    fun hc e he ht => hc (htells e he _ ht)
  have hwireOther : ∀ {c}, c ≠ call → wire c (events ++ new) = wire c events := fun hc => by
    rw [wire_append, wire_eq_nil (hother hc), List.append_nil]
  have hwireCall : wire call (events ++ new) = wire call events ++ a.bytes := by
    rw [wire_append, hwireNew]
  have hsubset : ∀ u ∈ users s', u = (buf, call) ∨ u ∈ s.send.map use := by
    intro u hmem
    rcases hcases with ⟨hperm, -⟩ | ⟨hperm, -⟩
    · exact List.mem_cons.mp (hperm.mem_iff.mp hmem)
    · exact .inr (hperm.mem_iff.mp hmem)
  refine ⟨?_, ?_, ?_, fun u hmem message hm => ?_, fun u hmem => ?_, fun e he c ht => ?_,
    fun c message hm => ?_, fun c message hm hend => ?_, fun c message hm => ?_⟩
  · rw [List.mem_append, not_or]
    exact ⟨h.exclusive, hinit⟩
  · obtain ⟨n, -, -, hbufs⟩ := hw.bytes
    have h0 := h.txOff
    rw [hbufs]
    by_cases hbuf : buf = txBuf
    · subst hbuf
      rw [Function.update_self]
      dsimp only
      omega
    · rwa [Function.update_of_ne (Ne.symm hbuf)]
  · have hone := h.single
    rw [hu, List.countP_cons] at hone
    rcases hcases with ⟨hperm, -⟩ | ⟨hperm, -⟩
    · rw [hperm.countP_eq, List.countP_cons]
      exact hone
    · rw [hperm.countP_eq]
      omega
  · -- what is left of each message
    have hm := hold hm
    by_cases hc : u.2 = call
    · obtain ⟨hbuf, hmessage⟩ := h.message_wrote hplace hw (hc ▸ hm)
      refine ⟨?_, by rw [hc, hwireCall]; exact hmessage⟩
      rcases hsubset u hmem with rfl | hmem
      · exact hbuf
      · exact (h.rest u (hu ▸ List.mem_cons_of_mem _ hmem) message hm).1
    · have hmem := (hsubset u hmem).resolve_left fun heq => hc (heq ▸ rfl)
      obtain ⟨htx, hmessage⟩ := h.rest u (hu ▸ List.mem_cons_of_mem _ hmem) message hm
      rw [hwireOther hc, (h.rest_wrote hplace hw hmem htx).2]
      exact ⟨htx, hmessage⟩
  · rw [hw.calls]
    rcases hsubset u hmem with rfl | hmem
    · exact h.usersBound _ (hu ▸ List.mem_cons_self)
    · exact h.usersBound u (hu ▸ List.mem_cons_of_mem _ hmem)
  · rw [hw.calls]
    rcases List.mem_append.mp he with he | he
    · exact h.bound e he c ht
    · rw [htells e he c ht]
      exact h.usersBound _ (hu ▸ List.mem_cons_self (a := (buf, call)))
  · have hm := hold hm
    by_cases hc : c = call
    · subst hc
      obtain ⟨-, hmessage⟩ := h.message_wrote hplace hw hm
      rw [hwireCall]
      exact ⟨_, hmessage.symm⟩
    · rw [hwireOther hc]
      exact h.begins c message hm
  · have hm := hold hm
    by_cases hc : c = call
    · subst hc
      rw [hwireCall]
      exact hcomplete hm hend
    · rw [hwireOther hc]
      exact h.complete c message hm
        ((ended_append.mp hend).resolve_right (not_ended (hother hc)))
  · have hm := hold hm
    by_cases hc : c = call
    · subst hc
      rcases hinUse hm with hfail | hdone | huser
      · exact .inl (ended_append.mpr (.inr hfail))
      · exact .inr (.inl (hwireCall.trans hdone))
      · exact .inr (.inr ⟨_, huser, rfl⟩)
    · rw [hwireOther hc]
      rcases h.inUse c message hm with hf | hdone | ⟨u, hmem, rfl⟩
      · exact .inl (ended_append.mpr (.inl hf))
      · exact .inr (.inl hdone)
      · rw [hu] at hmem
        have hmem := (List.mem_cons.mp hmem).resolve_left fun heq => hc (heq ▸ rfl)
        refine .inr (.inr ⟨u, ?_, rfl⟩)
        rcases hcases with ⟨hperm, -⟩ | ⟨hperm, -⟩
        · exact hperm.mem_iff.mpr (List.mem_cons_of_mem _ hmem)
        · exact hperm.mem_iff.mpr hmem

end Wrote

/-! ### Building and handing over -/

section HandOver

variable {E : Env} {st : SstpState} {m : Message} {b : Buff}

lemma off_pktInit (b : Buff) (type : SstpMsg) : (sstpPktInit b type).2.off = 0 := by
  unfold sstpPktInit
  dsimp only
  split_ifs <;> rfl

lemma off_pktAttr {b' : Buff} {type : UInt8} {data : List UInt8} {status : Status}
    (h : sstpPktAttr b type data = some (status, b')) : b'.off = b.off := by
  unfold sstpPktAttr at h
  dsimp only at h
  split_ifs at h
  · cases h
    rfl
  · cases h
    rfl
  · simp only [Option.bind_eq_bind, Option.bind_eq_some_iff] at h
    obtain ⟨b1, h1, b2, h2, b3, h3, b4, h4, heq⟩ := h
    cases heq
    rw [(write_eq_some h4).2.2.1, (write_eq_some h3).2.2.1, (write_eq_some h2).2.2.1,
      (write_eq_some h1).2.2.1]

/-- A built message is sent from its beginning. -/
lemma off_construct {tx : Buff} {status : Status} (h : construct E st tx m = some (status, b)) :
    b.off = 0 := by
  have hinit : ∀ type, some (sstpPktInit tx type) = some (status, b) → b.off = 0 := by
    intro type heq
    have hoff := off_pktInit tx type
    rwa [Option.some.inj heq] at hoff
  cases m with
  | connectReq =>
    simp only [construct] at h
    split_ifs at h
    · exact hinit _ h
    · exact (off_pktAttr h).trans (off_pktInit tx _)
  | connected certHash =>
    simp only [construct] at h
    split_ifs at h
    · exact hinit _ h
    · split at h
      · cases h
      · next r hattr =>
        have hoff := (off_pktAttr hattr).trans (off_pktInit tx _)
        split_ifs at h
        · cases h
          exact hoff
        · obtain ⟨b', hwrite, heq⟩ := Option.map_eq_some_iff.mp h
          cases heq
          rw [(write_eq_some hwrite).2.2.1]
          exact hoff
  | echoRequest => exact hinit _ h
  | echoReply => exact hinit _ h
  | disconnect => exact hinit _ h
  | disconnectAck => exact hinit _ h

/-- While nothing refers to the transmit buffer it may be given any content. -/
lemma Inv.rebuilt (h : Inv s events) (hfree : ∀ u ∈ users s, u.1 ≠ txBuf) (hoff : b.off = 0) :
    Inv { s with bufs := Function.update s.bufs txBuf b } events where
  exclusive := h.exclusive
  txOff := by
    dsimp only
    rw [Function.update_self, hoff]
  single := h.single
  rest := fun u hu message hmem => absurd (h.rest u hu message hmem).1 (hfree u hu)
  usersBound := h.usersBound
  bound := h.bound
  begins := h.begins
  complete := h.complete
  inUse := h.inUse

section Handed

variable {call : ℕ} {text : List UInt8} {later : List Stream.Event}

/-- What a message handed over tells is told of its call, of which nothing has been written. -/
lemma handed_tells (hlater : later = [] ∨ later = [.returned call .inprog]) :
    (∀ e ∈ Event.handed call text :: later.map Event.stream, ∀ c, Tells c e → c = call) ∧
      (∀ c, wire c (Event.handed call text :: later.map Event.stream) = []) ∧
      (∀ c message, .handed c message ∈ Event.handed call text :: later.map Event.stream →
        c = call ∧ message = text) ∧
      .init true ∉ Event.handed call text :: later.map Event.stream ∧
      ∀ c, ¬ Ended c .okay (Event.handed call text :: later.map Event.stream) := by
  rcases hlater with rfl | rfl
  · exact ⟨by simp [Tells], fun _ => rfl, by simp, by simp, by simp [Ended]⟩
  · exact ⟨by simp [Tells], fun _ => rfl, by simp, by simp, by simp [Ended]⟩

end Handed

/-- A message handed over: the whole of it is left to write. -/
lemma Inv.handed (h : Inv s events) (hfree : ∀ u ∈ users s, u.1 ≠ txBuf)
    (hplace : ∀ b c t w, s.place ≠ .writing b c t w) (hb : s.bufs txBuf = b) :
    Inv (sendFrom s .handler txBuf 10).1
      (events ++ .handed s.calls (remaining b) ::
        (sendFrom s .handler txBuf 10).2.map .stream) := by
  subst hb
  obtain ⟨hperm, hbufs, hcalls, hev⟩ := sendFrom_spec (s := s) (w := .handler)
    (fun cell hw => by cases hw) hplace txBuf 10
  obtain ⟨htells, hwireNew, hhanded, hinit, hended⟩ :=
    @handed_tells s.calls (remaining (s.bufs txBuf)) _ hev
  generalize hnew : (.handed s.calls (remaining (s.bufs txBuf)) ::
    (sendFrom s .handler txBuf 10).2.map Event.stream : List Event) = new at *
  have hold : ∀ {c message}, .handed c message ∈ events ++ new → .handed c message ∈ events ∨
      c = s.calls ∧ message = remaining (s.bufs txBuf) :=
    fun hmem => (List.mem_append.mp hmem).imp_right (hhanded _ _)
  have hlt : ∀ {c message}, .handed c message ∈ events → c ≠ s.calls :=
    fun hmem => Nat.ne_of_lt (h.bound _ hmem _ rfl)
  have hwire : ∀ c, wire c (events ++ new) = wire c events := fun c => by
    rw [wire_append, hwireNew, List.append_nil]
  have hnothing : wire s.calls events = [] := wire_eq_nil h.not_tells
  refine ⟨?_, hbufs ▸ h.txOff, ?_, fun u hu message hm => ?_, fun u hu => ?_,
    fun e he c ht => ?_, fun c message hm => ?_, fun c message hm hend => ?_,
    fun c message hm => ?_⟩
  · rw [List.mem_append, not_or]
    exact ⟨h.exclusive, hinit⟩
  · have hnone : (users s).countP (fun u => u.1 = txBuf) = 0 :=
      List.countP_eq_zero.mpr fun u hu => by simpa using hfree u hu
    rw [hperm.countP_eq, List.countP_cons, hnone]
    exact Nat.le_of_eq (by simp)
  · rw [hwire, hbufs]
    rcases List.mem_cons.mp (hperm.mem_iff.mp hu) with rfl | hu
    · rcases hold hm with hm | ⟨-, rfl⟩
      · exact absurd rfl (hlt hm)
      · exact ⟨rfl, by rw [hnothing, List.nil_append]⟩
    · rcases hold hm with hm | ⟨hcall, -⟩
      · exact h.rest u hu message hm
      · exact absurd hcall (Nat.ne_of_lt (h.usersBound u hu))
  · rw [hcalls]
    rcases List.mem_cons.mp (hperm.mem_iff.mp hu) with rfl | hu
    · exact Nat.lt_succ_self _
    · exact Nat.lt_succ_of_lt (h.usersBound u hu)
  · rw [hcalls]
    rcases List.mem_append.mp he with he | he
    · exact Nat.lt_succ_of_lt (h.bound e he c ht)
    · rw [htells e he c ht]
      exact Nat.lt_succ_self _
  · rw [hwire]
    rcases hold hm with hm | ⟨rfl, -⟩
    · exact h.begins c message hm
    · rw [hnothing]
      exact List.nil_prefix
  · rw [hwire]
    have hend := (ended_append.mp hend).resolve_right (hended c)
    rcases hold hm with hm | ⟨rfl, -⟩
    · exact h.complete c message hm hend
    · exact absurd hend (not_ended h.not_tells)
  · rw [hwire]
    rcases hold hm with hm | ⟨rfl, -⟩
    · rcases h.inUse c message hm with hf | hdone | ⟨u, hu, hcall⟩
      · exact .inl (ended_append.mpr (.inl hf))
      · exact .inr (.inl hdone)
      · exact .inr (.inr ⟨u, hperm.mem_iff.mpr (List.mem_cons_of_mem _ hu), hcall⟩)
    · exact .inr (.inr ⟨_, hperm.mem_iff.mpr List.mem_cons_self, rfl⟩)

end HandOver

end SstpClient.TxBuf
