import SstpClient.StateSpec

/-!
When the control messages go out as they were built.

They share one transmit buffer, which `sstp_pkt_init` empties for each of them, queued or not. As
long as no event asks for a message while an earlier one is queued, what `SSL_write` takes for
each message is the message.
-/

namespace SstpClient.TxBuf

open SstpClient.Lib.Footprint SstpClient.Buffer SstpClient.Packet SstpClient.ConnectMsg
open SstpClient.StreamSpec SstpClient.State
open SstpClient.Stream (SstpStream)

/-! ### What is promised -/

/-- The bytes `SSL_write` took for a call. -/
def wire (call : ℕ) (events : List Event) : List UInt8 :=
  events.flatMap fun
    | .stream (.attempt a) => if a.call = call then a.bytes else []
    | _ => []

/-- The call ended with `status`, at once or by its callback. -/
def Ended (call : ℕ) (status : Status) (events : List Event) : Prop :=
  .stream (.returned call status) ∈ events ∨ .stream (.completed call status) ∈ events

/-- The transmit buffer is built in only while nothing queued refers to it; for each message handed
over the bytes written are a part of it from its beginning, they are the message when the call
ended with `SSTP_OKAY`, and until they are, the call is in use or has failed. -/
structure Integrity (s : SstpStream) (events : List Event) : Prop where
  exclusive : .init true ∉ events
  begins : ∀ call message, .handed call message ∈ events → wire call events <+: message
  complete : ∀ call message, .handed call message ∈ events → Ended call .okay events →
    wire call events = message
  inUse : ∀ call message, .handed call message ∈ events →
    Ended call .fail events ∨ wire call events = message ∨ ∃ u ∈ users s, u.2 = call

/-- A control message is answered: its type, and the status it carries. -/
def Answered (type : ℕ) (status : Option (Option ℕ)) : Prop :=
  type = SstpMsg.echoRequest.code ∨
    ((type = SstpMsg.connectNak.code ∨ type = SstpMsg.disconnect.code) ∧
      ∃ n, status = some (some n))

/-- The event makes the state machine build a control message. -/
def Triggers (E : Env) (st : SstpState) : Input → Prop
  | .start => st.mode = .client
  | .accept => st.mode = .client ∧ (E.certHash st.proto).isSome
  | .timeout => st.echo ≤ 4
  | .recv packet tail attrs => ∃ type,
    (sstpPktType packet.length).eval (listMem (packet ++ tail)) = some (.ctrl, some type) ∧
      Answered type
        ((sstpStateConnectNak packet.length attrs).eval (listMem (packet ++ tail)))
  | _ => False

/-- The condition on a step: an event that makes the state machine build a message comes when no
queued operation refers to the transmit buffer. -/
def InTurn (E : Env) (s : Session) (i : Input) : Prop :=
  s.stream.place = .idle → Triggers E s.st i → ∀ op ∈ s.stream.send, op.buf ≠ txBuf

/-! ### Which events build a message -/

section Triggers

variable {E : Env} {st : SstpState}

/-- A handler that answers if it has read something. -/
lemma exists_map_iff {β : Type} {x : Option (Option β)} {f : Option β → Handled}
    (hnone : (f none).sends = none) (hsome : ∀ b, (f (some b)).sends.isSome) :
    (∃ h, x.map f = some h ∧ h.sends.isSome) ↔ ∃ b, x = some (some b) := by
  constructor
  · rintro ⟨h, hx, hs⟩
    obtain ⟨r, rfl, rfl⟩ := Option.map_eq_some_iff.mp hx
    cases r with
    | none =>
      rw [hnone] at hs
      cases hs
    | some b => exact ⟨b, rfl⟩
  · rintro ⟨b, rfl⟩
    exact ⟨f (some b), rfl, hsome b⟩

/-- A handler that never answers. -/
lemma not_exists_map {β : Type} {x : Option β} {f : β → Handled}
    (hnone : ∀ b, (f b).sends = none) : ¬ ∃ h, x.map f = some h ∧ h.sends.isSome := by
  rintro ⟨h, hx, hs⟩
  obtain ⟨b, -, rfl⟩ := Option.map_eq_some_iff.mp hx
  rw [hnone] at hs
  cases hs

lemma not_exists_some {h' : Handled} (hnone : h'.sends = none) :
    ¬ ∃ h, some h' = some h ∧ h.sends.isSome := by
  rintro ⟨h, heq, hs⟩
  cases heq
  rw [hnone] at hs
  cases hs

lemma not_answered {type : ℕ} {status : Option (Option ℕ)}
    (hreq : type ≠ SstpMsg.echoRequest.code) (hnak : type ≠ SstpMsg.connectNak.code)
    (hdisc : type ≠ SstpMsg.disconnect.code) : ¬ Answered type status := by
  rintro (h | ⟨h | h, -⟩)
  · exact hreq h
  · exact hnak h
  · exact hdisc h

lemma sends_handleCtrl {len : ℤ} {mem : ℤ → Option UInt8} {attrs : Attrs} {type : ℕ} :
    (∃ h, sstpStateHandleCtrl st len mem attrs type = some h ∧ h.sends.isSome) ↔
      Answered type ((sstpStateConnectNak len attrs).eval mem) := by
  unfold sstpStateHandleCtrl
  split_ifs with hack hnak habort hdisc hdack hreq hrep
  · subst hack
    refine iff_of_false (not_exists_map fun b => ?_)
      (not_answered (by decide) (by decide) (by decide))
    cases b <;> rfl
  · subst hnak
    rw [exists_map_iff rfl fun b => rfl]
    exact ⟨fun h => .inr ⟨.inl rfl, h⟩, fun h => (h.resolve_left (by decide)).2⟩
  · subst habort
    refine iff_of_false (not_exists_map fun b => ?_)
      (not_answered (by decide) (by decide) (by decide))
    cases b <;> rfl
  · subst hdisc
    rw [exists_map_iff rfl fun b => rfl]
    exact ⟨fun h => .inr ⟨.inr rfl, h⟩, fun h => (h.resolve_left (by decide)).2⟩
  · exact iff_of_false (not_exists_some rfl) (not_answered (by rw [hdack]; decide) hnak hdisc)
  · exact iff_of_true ⟨_, rfl, rfl⟩ (.inl hreq)
  · exact iff_of_false (not_exists_some rfl) (not_answered hreq hnak hdisc)
  · exact iff_of_false (not_exists_some rfl) (not_answered hreq hnak hdisc)

lemma sends_handlePacket {len : ℤ} {mem : ℤ → Option UInt8} {attrs : Attrs} :
    (∃ h, sstpStateHandlePacket st len mem attrs = some h ∧ h.sends.isSome) ↔
      ∃ type, (sstpPktType len).eval mem = some (.ctrl, some type) ∧
        Answered type ((sstpStateConnectNak len attrs).eval mem) := by
  unfold sstpStateHandlePacket
  cases htype : (sstpPktType len).eval mem with
  | none => simp
  | some r =>
    obtain ⟨kind, type⟩ := r
    cases kind with
    | unknown => exact iff_of_false (not_exists_some rfl) (by simp)
    | data =>
      refine iff_of_false ?_ (by simp)
      dsimp only
      split_ifs
      · exact not_exists_map fun _ => rfl
      · simp
    | ctrl =>
      cases type with
      | none => exact iff_of_false (not_exists_some rfl) (by simp)
      | some type =>
        dsimp only
        rw [sends_handleCtrl]
        exact ⟨fun h => ⟨type, rfl, h⟩, fun ⟨_, heq, h⟩ => by cases heq; exact h⟩

/-- **The events that build a message.** -/
lemma sends_iff_triggers (i : Input) :
    (∃ h, handled E st i = some h ∧ h.sends.isSome) ↔ Triggers E st i := by
  cases i with
  | start =>
    unfold handled sstpStateStart
    split_ifs with hmode
    · exact iff_of_true ⟨_, rfl, rfl⟩ hmode
    · exact iff_of_false (not_exists_some rfl) hmode
  | accept =>
    unfold handled sstpStateAccept
    split_ifs with hmode
    · cases hcert : E.certHash st.proto with
      | none => exact iff_of_false (not_exists_some rfl) (by simp [Triggers, hcert])
      | some certHash => exact iff_of_true ⟨_, rfl, rfl⟩ ⟨hmode, by simp [hcert]⟩
    · exact iff_of_false (not_exists_some rfl) fun h => hmode h.1
  | mppeKeys send recv => exact iff_of_false (not_exists_some rfl) fun h => h
  | setForward => exact iff_of_false (not_exists_some rfl) fun h => h
  | recv packet tail attrs => exact sends_handlePacket
  | timeout =>
    unfold handled sstpStateTimeout
    split_ifs with hecho
    · exact iff_of_false (not_exists_some rfl) fun h : st.echo ≤ 4 => by omega
    · exact iff_of_true ⟨_, rfl, rfl⟩ (not_lt.mp hecho)
  | recvFail => exact iff_of_false (not_exists_some rfl) fun h => h
  | stream i => exact iff_of_false (not_exists_some rfl) fun h => h

end Triggers

/-! ### The invariant -/

/-- An event that tells of the call. -/
def Tells (call : ℕ) : Event → Prop
  | .stream (.attempt a) => a.call = call
  | .stream (.returned c _) => c = call
  | .stream (.completed c _) => c = call
  | .handed c _ => c = call
  | _ => False

structure Inv (s : SstpStream) (events : List Event) : Prop where
  exclusive : .init true ∉ events
  txOff : 0 ≤ (s.bufs txBuf).off
  single : (users s).countP (fun u => u.1 = txBuf) ≤ 1
  /-- What is not yet written of a message is what is left of the transmit buffer. -/
  rest : ∀ u ∈ users s, ∀ message, .handed u.2 message ∈ events →
    u.1 = txBuf ∧ message = wire u.2 events ++ remaining (s.bufs txBuf)
  usersBound : ∀ u ∈ users s, u.2 < s.calls
  bound : ∀ e ∈ events, ∀ call, Tells call e → call < s.calls
  begins : ∀ call message, .handed call message ∈ events → wire call events <+: message
  complete : ∀ call message, .handed call message ∈ events → Ended call .okay events →
    wire call events = message
  inUse : ∀ call message, .handed call message ∈ events →
    Ended call .fail events ∨ wire call events = message ∨ ∃ u ∈ users s, u.2 = call

lemma Inv.integrity {s : SstpStream} {events : List Event} (h : Inv s events) :
    Integrity s events := ⟨h.exclusive, h.begins, h.complete, h.inUse⟩

/-! ### More events -/

section Events

variable {events new : List Event} {call : ℕ}

lemma wire_append : wire call (events ++ new) = wire call events ++ wire call new :=
  List.flatMap_append

lemma wire_eq_nil (h : ∀ e ∈ new, ¬ Tells call e) : wire call new = [] := by
  unfold wire
  rw [List.flatMap_eq_nil_iff]
  intro e he
  split
  · next a => exact if_neg (h _ he)
  · rfl

lemma ended_append {status : Status} :
    Ended call status (events ++ new) ↔ Ended call status events ∨ Ended call status new := by
  unfold Ended
  rw [List.mem_append, List.mem_append]
  tauto

lemma not_ended {status : Status} (h : ∀ e ∈ new, ¬ Tells call e) : ¬ Ended call status new := by
  rintro (hmem | hmem)
  · exact h _ hmem rfl
  · exact h _ hmem rfl

/-- Nothing is told of a call that has not been made. -/
lemma Inv.not_tells {s : SstpStream} (h : Inv s events) : ∀ e ∈ events, ¬ Tells s.calls e :=
  fun e he ht => Nat.lt_irrefl _ (h.bound e he _ ht)

end Events

variable {s s' : SstpStream} {events new : List Event}

/-- A step that tells of no call, or of a new one that is not handed over, and ends none. -/
lemma Inv.keep (h : Inv s events) (hinit : .init true ∉ new)
    (htx : s'.bufs txBuf = s.bufs txBuf) (hcalls : s.calls ≤ s'.calls)
    (hsingle : (users s').countP (fun u => u.1 = txBuf) ≤ 1)
    (husers : ∀ u ∈ users s', u ∈ users s ∨ s.calls ≤ u.2 ∧ u.2 < s'.calls)
    (hkept : ∀ u ∈ users s, u ∈ users s')
    (htells : ∀ e ∈ new, ∀ call, Tells call e → s.calls ≤ call ∧ call < s'.calls)
    (hhanded : ∀ call message, .handed call message ∉ new) : Inv s' (events ++ new) := by
  have hold : ∀ call message, .handed call message ∈ events ++ new →
      .handed call message ∈ events ∧ ∀ e ∈ new, ¬ Tells call e := by
    intro call message hmem
    have hmem := (List.mem_append.mp hmem).resolve_right (hhanded call message)
    refine ⟨hmem, fun e he ht => ?_⟩
    exact absurd (h.bound _ hmem call rfl) (not_lt.mpr (htells e he call ht).1)
  have hwire : ∀ call message, .handed call message ∈ events ++ new →
      wire call (events ++ new) = wire call events := by
    intro call message hmem
    rw [wire_append, wire_eq_nil (hold call message hmem).2, List.append_nil]
  refine ⟨?_, htx ▸ h.txOff, hsingle, fun u hu message hmem => ?_, fun u hu => ?_,
    fun e he call ht => ?_, fun call message hmem => ?_, fun call message hmem hend => ?_,
    fun call message hmem => ?_⟩
  · rw [List.mem_append, not_or]
    exact ⟨h.exclusive, hinit⟩
  · rw [hwire _ _ hmem, htx]
    rcases husers u hu with hu | ⟨hge, -⟩
    · exact h.rest u hu message (hold _ _ hmem).1
    · exact absurd (h.bound _ (hold _ _ hmem).1 _ rfl) (not_lt.mpr hge)
  · rcases husers u hu with hu | ⟨-, hlt⟩
    · exact Nat.lt_of_lt_of_le (h.usersBound u hu) hcalls
    · exact hlt
  · rcases List.mem_append.mp he with he | he
    · exact Nat.lt_of_lt_of_le (h.bound e he call ht) hcalls
    · exact (htells e he call ht).2
  · rw [hwire _ _ hmem]
    exact h.begins call message (hold _ _ hmem).1
  · rw [hwire _ _ hmem]
    obtain ⟨hmem, hnot⟩ := hold _ _ hmem
    exact h.complete call message hmem ((ended_append.mp hend).resolve_right (not_ended hnot))
  · rw [hwire _ _ hmem]
    rcases h.inUse call message (hold _ _ hmem).1 with hf | hw | ⟨u, hu, hcall⟩
    · exact .inl (ended_append.mpr (.inl hf))
    · exact .inr (.inl hw)
    · exact .inr (.inr ⟨u, hkept u hu, hcall⟩)

/-- Events that tell of no call. -/
lemma Inv.silent (h : Inv s events) (hinit : .init true ∉ new)
    (hnew : ∀ e ∈ new, ∀ call, ¬ Tells call e) : Inv s (events ++ new) :=
  h.keep hinit rfl (le_refl _) h.single (fun _ hu => .inl hu) (fun _ hu => hu)
    (fun e he call ht => absurd ht (hnew e he call)) fun call _ hmem => hnew _ hmem call rfl

end SstpClient.TxBuf
