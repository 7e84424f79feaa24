import SstpClient.Stream

/-!
What a step of the stream does to the buffers and to the calls that use them.

A call uses its buffer while `sstp_stream_send` writes it and while it is queued. A step takes on
a new call, goes on with one, or ends one; the others keep using their buffers.
-/

namespace SstpClient.StreamSpec

open SstpClient.Buffer SstpClient.Stream

/-- The buffer an operation refers to, and its call. -/
def use (op : Operation) : ℕ × ℕ := (op.buf, op.call)

lemma perm_use_append (ops : List Operation) (op : Operation) :
    ((ops ++ [op]).map use).Perm (use op :: ops.map use) := by
  rw [List.map_append]
  exact List.perm_append_singleton _ _

/-- The buffer being written, with the call it belongs to. -/
def writer (s : SstpStream) : List (ℕ × ℕ) :=
  match s.place with
  | .writing buf call _ _ => [(buf, call)]
  | _ => []

/-- The buffers in use, each with its call. -/
def users (s : SstpStream) : List (ℕ × ℕ) :=
  writer s ++ s.send.map use

variable {s : SstpStream}

lemma users_of_not_writing (h : ∀ b c t w, s.place ≠ .writing b c t w) :
    users s = s.send.map use := by
  unfold users writer
  split
  · next hplace => exact absurd hplace (h _ _ _ _)
  · rfl

lemma users_idle (h : s.place = .idle) : users s = s.send.map use :=
  users_of_not_writing fun b c t w hplace => by cases h.symm.trans hplace

/-- A call from outside: its buffer is in use from now on. -/
lemma sendFrom_spec {w : Caller} (hw : ∀ cell, w ≠ .sendCont cell)
    (h : ∀ b c t w, s.place ≠ .writing b c t w) (buf timeout : ℕ) :
    (users (sendFrom s w buf timeout).1).Perm ((buf, s.calls) :: users s) ∧
      (sendFrom s w buf timeout).1.bufs = s.bufs ∧
      (sendFrom s w buf timeout).1.calls = s.calls + 1 ∧
      ((sendFrom s w buf timeout).2 = [] ∨
        (sendFrom s w buf timeout).2 = [.returned s.calls .inprog]) := by
  rw [users_of_not_writing h]
  cases hev : s.evSend with
  | none =>
    rw [sendFrom_free hev]
    exact ⟨.refl _, rfl, rfl, .inl rfl⟩
  | some e =>
    obtain ⟨cell, cache, cells, heq⟩ := sendFrom_pending
      (Option.isSome_iff_exists.mpr ⟨e, hev⟩) w buf timeout
    rw [heq]
    have hperm : ((s.send ++ [Operation.mk cell buf s.calls timeout]).map use).Perm
        ((buf, s.calls) :: s.send.map use) := perm_use_append _ _
    cases w with
    | handler => exact ⟨hperm, rfl, rfl, .inr rfl⟩
    | callback cell' => exact ⟨hperm, rfl, rfl, .inr rfl⟩
    | sendCont cell' => exact absurd rfl (hw cell')

/-- `sstp_send_cont` between two writes: the same buffers are in use. -/
lemma sendCont_spec (h : ∀ b c t w, s.place ≠ .writing b c t w) :
    (users (sendCont s).1).Perm (users s) ∧ (sendCont s).1.bufs = s.bufs ∧
      (sendCont s).1.calls = s.calls ∧ (sendCont s).2 = [] := by
  rw [users_of_not_writing h]
  unfold sendCont
  split
  · next hsend =>
    rw [hsend]
    refine ⟨?_, rfl, rfl, rfl⟩
    simp [users, writer]
  · next op rest hsend =>
    rw [hsend]
    unfold sstpStreamSend
    by_cases hev : s.evSend.isSome
    · obtain ⟨cell, cache, cells, hadd⟩ := sstpOperationAddWrite_eq { s with send := rest } op.buf
        .write op.timeout op.call
      rw [if_pos hev]
      simp only [hadd, leave, if_true]
      exact ⟨perm_use_append rest ⟨cell, op.buf, op.call, op.timeout⟩, trivial, trivial, trivial⟩
    · rw [if_neg hev]
      exact ⟨.refl _, rfl, rfl, rfl⟩

/-- What is left to write of a buffer. -/
def remaining (b : Buff) : List UInt8 := (b.data.drop b.off.toNat).take (b.len - b.off).toNat

/-- What is left of a buffer begins with what is taken next. -/
lemma remaining_split {b : Buff} {n : ℕ} (h0 : 0 ≤ b.off) (hn : n ≤ (b.len - b.off).toNat) :
    remaining b = (b.data.drop b.off.toNat).take n ++ remaining { b with off := b.off + n } := by
  have hoff : (b.off + n).toNat = b.off.toNat + n := by omega
  have hlen : (b.len - (b.off + n)).toNat = (b.len - b.off).toNat - n := by omega
  unfold remaining
  rw [hoff, hlen, ← List.drop_drop, ← List.take_add, Nat.add_sub_cancel' hn]

lemma remaining_eq_nil {b : Buff} (h : b.len ≤ b.off) : remaining b = [] := by
  have hlen : (b.len - b.off).toNat = 0 := by omega
  unfold remaining
  rw [hlen, List.take_zero]

/-- An `SSL_write` takes the first `n` bytes of what is left; the call goes on, is queued, or
ends. -/
structure Wrote (s s' : SstpStream) (buf call : ℕ) (a : Attempt) (new : List Event) : Prop where
  call_eq : a.call = call
  calls : s'.calls = s.calls
  bytes : ∃ n : ℕ, n ≤ ((s.bufs buf).len - (s.bufs buf).off).toNat ∧
    a.bytes = ((s.bufs buf).data.drop (s.bufs buf).off.toNat).take n ∧
    s'.bufs = Function.update s.bufs buf { s.bufs buf with off := (s.bufs buf).off + n }
  outcome : ((users s').Perm (users s) ∧ (new = [] ∨ new = [.returned call .inprog])) ∨
    ((users s).Perm ((buf, call) :: users s') ∧
      ∃ status, (new = [.returned call status] ∨ new = [.completed call status]) ∧
        (status = .okay ∧ (s'.bufs buf).len ≤ (s'.bufs buf).off ∨ status = .fail))

lemma users_writing {buf call timeout : ℕ} {w : Caller}
    (h : s.place = .writing buf call timeout w) :
    users s = (buf, call) :: s.send.map use := by
  unfold users writer
  rw [h]
  rfl

section Write

variable {buf call timeout : ℕ} {w : Caller} (h : s.place = .writing buf call timeout w)
include h

lemma wrote_blocked {event : Interest} {a : Attempt} (hcall : a.call = call) (ha : a.bytes = []) :
    Wrote s (leave (sstpOperationAddWrite s buf event timeout call) w call .inprog).1 buf call a
      (leave (sstpOperationAddWrite s buf event timeout call) w call .inprog).2 := by
  obtain ⟨cell, cache, cells, hadd⟩ := sstpOperationAddWrite_eq s buf event timeout call
  have hperm : ((s.send ++ [Operation.mk cell buf call timeout]).map use).Perm (users s) := by
    rw [users_writing h]
    exact perm_use_append _ _
  have hbytes : ∃ n : ℕ, n ≤ ((s.bufs buf).len - (s.bufs buf).off).toNat ∧
      a.bytes = ((s.bufs buf).data.drop (s.bufs buf).off.toNat).take n ∧
      s.bufs = Function.update s.bufs buf { s.bufs buf with off := (s.bufs buf).off + n } := by
    refine ⟨0, Nat.zero_le _, by rw [ha, List.take_zero], ?_⟩
    rw [Nat.cast_zero, add_zero, Function.update_eq_self]
  rw [hadd]
  cases w with
  | handler => exact ⟨hcall, rfl, hbytes, .inl ⟨hperm, .inr rfl⟩⟩
  | callback cell' => exact ⟨hcall, rfl, hbytes, .inl ⟨hperm, .inr rfl⟩⟩
  | sendCont cell' => exact ⟨hcall, rfl, hbytes, .inl ⟨hperm, .inl rfl⟩⟩

lemma wrote_ended {s' : SstpStream} {a : Attempt} {status : Status} (hcall : a.call = call)
    (hsend : s'.send = s.send) (hcalls : s'.calls = s.calls)
    (hbytes : ∃ n : ℕ, n ≤ ((s.bufs buf).len - (s.bufs buf).off).toNat ∧
      a.bytes = ((s.bufs buf).data.drop (s.bufs buf).off.toNat).take n ∧
      s'.bufs = Function.update s.bufs buf { s.bufs buf with off := (s.bufs buf).off + n })
    (hstatus : status = .okay ∧ (s'.bufs buf).len ≤ (s'.bufs buf).off ∨ status = .fail) :
    Wrote s (leave s' w call status).1 buf call a (leave s' w call status).2 := by
  have hne : status ≠ .inprog := by
    rcases hstatus with ⟨rfl, -⟩ | rfl
    · decide
    · decide
  have husers : users s = (buf, call) :: s'.send.map use := by
    rw [users_writing h, hsend]
  cases w with
  | handler =>
    exact ⟨hcall, hcalls, hbytes, .inr ⟨husers ▸ .refl _, status, .inl rfl, hstatus⟩⟩
  | callback cell =>
    exact ⟨hcall, hcalls, hbytes, .inr ⟨husers ▸ .refl _, status, .inl rfl, hstatus⟩⟩
  | sendCont cell =>
    simp only [leave, if_neg hne]
    exact ⟨hcall, hcalls, hbytes, .inr ⟨husers ▸ .refl _, status, .inr rfl, hstatus⟩⟩

/-- **One `SSL_write`.** -/
theorem sslWrite_spec (result : SslWrite) :
    ∃ a new, (sslWrite s buf call timeout w result).2 = .attempt a :: new ∧
      Wrote s (sslWrite s buf call timeout w result).1 buf call a new := by
  cases result with
  | written n =>
    unfold sslWrite
    dsimp only
    split_ifs with hpart
    · refine ⟨_, _, rfl, rfl, rfl, ⟨_, Nat.min_le_right _ _, rfl, rfl⟩, .inl ⟨?_, .inl rfl⟩⟩
      rw [users_writing h]
      exact users_writing (s := { s with bufs := _ }) h ▸ .refl _
    · refine ⟨_, _, rfl, wrote_ended h rfl rfl rfl ⟨_, Nat.min_le_right _ _, rfl, rfl⟩
        (.inl ⟨rfl, ?_⟩)⟩
      dsimp only
      rw [Function.update_self]
      exact not_lt.mp hpart
  | wantRead => exact ⟨_, _, rfl, wrote_blocked h rfl rfl⟩
  | wantWrite => exact ⟨_, _, rfl, wrote_blocked h rfl rfl⟩
  | error =>
    refine ⟨_, _, rfl, wrote_ended h rfl rfl rfl ⟨0, Nat.zero_le _, rfl, ?_⟩ (.inr rfl)⟩
    rw [Nat.cast_zero, add_zero, Function.update_eq_self]

end Write

/-! ### Every step -/

/-- What a step can be. -/
inductive StepSpec (s : SstpStream) (i : Input) (s' : SstpStream) (events : List Event) : Prop
  | built (buf : ℕ) (content : Buff) (hi : i = .build buf content)
      (hbufs : s'.bufs = Function.update s.bufs buf content) (husers : users s' = users s)
      (hcalls : s'.calls = s.calls) (hevents : events = [])
  | called (buf timeout : ℕ) (hi : i = .send buf timeout)
      (husers : (users s').Perm ((buf, s.calls) :: users s)) (hbufs : s'.bufs = s.bufs)
      (hcalls : s'.calls = s.calls + 1)
      (hevents : events = [] ∨ events = [.returned s.calls .inprog])
  | wrote (buf call timeout : ℕ) (w : Caller) (hplace : s.place = .writing buf call timeout w)
      (a : Attempt) (new : List Event) (hevents : events = .attempt a :: new)
      (hwrote : Wrote s s' buf call a new)
  | moved (husers : (users s').Perm (users s)) (hbufs : s'.bufs = s.bufs)
      (hcalls : s'.calls = s.calls) (hevents : events = [])

/-- **Every step** is one of these. -/
theorem step_spec (s : SstpStream) (i : Input) : StepSpec s i (step s i).1 (step s i).2 := by
  have hsame : StepSpec s i s [] := .moved (.refl _) rfl rfl rfl
  unfold step
  split
  · next buf content hplace => exact .built buf content rfl rfl rfl rfl rfl
  · next buf content hplace => exact .built buf content rfl rfl rfl rfl rfl
  · next buf timeout hplace =>
    obtain ⟨hu, hb, hc, he⟩ := sendFrom_spec (s := s) (w := .handler) (fun cell hw => by cases hw)
      (fun b c t w hp => by cases hplace.symm.trans hp) buf timeout
    exact .called buf timeout rfl hu hb hc he
  · next cell buf timeout hplace =>
    obtain ⟨hu, hb, hc, he⟩ := sendFrom_spec (s := s) (w := .callback cell)
      (fun cell hw => by cases hw) (fun b c t w hp => by cases hplace.symm.trans hp) buf timeout
    exact .called buf timeout rfl hu hb hc he
  · next buf call timeout w result hplace =>
    obtain ⟨a, new, he, hw⟩ := sslWrite_spec hplace result
    exact .wrote buf call timeout w hplace a new he hw
  · next hplace =>
    split_ifs
    · have hnot : ∀ b c t w, ({ s with evSend := none } : SstpStream).place ≠ .writing b c t w :=
        fun b c t w hp => by cases hplace.symm.trans hp
      obtain ⟨hu, hb, hc, he⟩ := sendCont_spec hnot
      exact .moved hu hb hc he
    · exact hsame
  · next cell hplace =>
    have hnot : ∀ b c t w,
        ({ s with cache := cell :: s.cache } : SstpStream).place ≠ .writing b c t w :=
      fun b c t w hp => by cases hplace.symm.trans hp
    obtain ⟨hu, hb, hc, he⟩ := sendCont_spec hnot
    exact .moved hu hb hc he
  · exact hsame

/-! ### Calls are told apart -/

/-- Each call in use has a number of its own, and one that has been given. -/
structure Distinct (s : SstpStream) : Prop where
  fresh : ∀ u ∈ users s, u.2 < s.calls
  nodup : ((users s).map Prod.snd).Nodup

section Distinct

variable {s' : SstpStream}

lemma distinct_init (bufs : ℕ → Buff) : Distinct (Stream.init bufs) :=
  ⟨fun _ hu => (List.not_mem_nil hu).elim, List.nodup_nil⟩

lemma Distinct.perm (h : Distinct s) (hu : (users s').Perm (users s)) (hc : s'.calls = s.calls) :
    Distinct s' :=
  ⟨fun u hmem => hc ▸ h.fresh u (hu.mem_iff.mp hmem), (hu.map _).nodup_iff.mpr h.nodup⟩

lemma Distinct.called (h : Distinct s) (buf : ℕ) (hu : (users s').Perm ((buf, s.calls) :: users s))
    (hc : s'.calls = s.calls + 1) : Distinct s' := by
  refine ⟨fun u hmem => ?_, ?_⟩
  · rw [hc]
    rcases List.mem_cons.mp (hu.mem_iff.mp hmem) with rfl | hmem
    · exact Nat.lt_succ_self _
    · exact Nat.lt_succ_of_lt (h.fresh u hmem)
  · rw [(hu.map Prod.snd).nodup_iff, List.map_cons, List.nodup_cons]
    refine ⟨fun hmem => ?_, h.nodup⟩
    obtain ⟨u, hmem, heq⟩ := List.mem_map.mp hmem
    exact Nat.lt_irrefl _ (heq ▸ h.fresh u hmem)

/-- A call that ends is not in use afterwards. -/
lemma Distinct.ended (h : Distinct s) {u : ℕ × ℕ} (hu : (users s).Perm (u :: users s'))
    (hc : s'.calls = s.calls) : Distinct s' ∧ ∀ v ∈ users s', v.2 ≠ u.2 := by
  have hnodup := (hu.map Prod.snd).nodup_iff.mp h.nodup
  rw [List.map_cons, List.nodup_cons] at hnodup
  refine ⟨⟨fun v hmem => hc ▸ h.fresh v (hu.mem_iff.mpr (List.mem_cons_of_mem _ hmem)), hnodup.2⟩,
    fun v hmem heq => hnodup.1 (heq ▸ List.mem_map_of_mem hmem)⟩

/-- **Every step** keeps the calls apart. -/
theorem Distinct.step (h : Distinct s) {i : Input} {events : List Event}
    (hspec : StepSpec s i s' events) : Distinct s' := by
  cases hspec with
  | built buf content hi hbufs husers hcalls hevents => exact h.perm (husers ▸ .refl _) hcalls
  | called buf timeout hi husers hbufs hcalls hevents => exact h.called buf husers hcalls
  | wrote buf call timeout w hplace a new hevents hwrote =>
    rcases hwrote.outcome with ⟨hperm, -⟩ | ⟨hperm, -⟩
    · exact h.perm hperm hwrote.calls
    · exact (h.ended hperm hwrote.calls).1
  | moved husers hbufs hcalls hevents => exact h.perm husers hcalls

end Distinct

/-! ### A call from a handler -/

section Handler

variable (buf call timeout : ℕ)

/-- A write for a handler that does not block: it goes on, or the call returns. -/
lemma sslWrite_handler {r : SslWrite} (hr : ¬ r.Blocked) :
    ∃ a bufs, sslWrite s buf call timeout .handler r = ({ s with bufs := bufs }, [.attempt a]) ∨
      ∃ status, (status = .okay ∨ status = .fail) ∧
        sslWrite s buf call timeout .handler r =
          ({ s with bufs := bufs, place := .idle }, [.attempt a, .returned call status]) := by
  cases r with
  | written n =>
    unfold sslWrite
    dsimp only
    split_ifs
    · exact ⟨_, _, .inl rfl⟩
    · exact ⟨_, _, .inr ⟨.okay, .inl rfl, rfl⟩⟩
  | wantRead => exact absurd (.inl rfl) hr
  | wantWrite => exact absurd (.inr rfl) hr
  | error => exact ⟨_, s.bufs, .inr ⟨.fail, .inr rfl, rfl⟩⟩

/-- A write for a handler that blocks: the call is queued, and returns. -/
lemma sslWrite_blocked {r : SslWrite} (hr : r.Blocked) :
    ∃ a cell cache cells ev, sslWrite s buf call timeout .handler r =
      ({ s with
          send := s.send ++ [⟨cell, buf, call, timeout⟩], cache := cache, cells := cells,
          evSend := ev, place := .idle }, [.attempt a, .returned call .inprog]) := by
  rcases hr with rfl | rfl
  · obtain ⟨cell, cache, cells, hadd⟩ := sstpOperationAddWrite_eq s buf .read timeout call
    unfold sslWrite
    dsimp only
    rw [hadd]
    exact ⟨_, cell, cache, cells, _, rfl⟩
  · obtain ⟨cell, cache, cells, hadd⟩ := sstpOperationAddWrite_eq s buf .write timeout call
    unfold sslWrite
    dsimp only
    rw [hadd]
    exact ⟨_, cell, cache, cells, _, rfl⟩

variable {buf call timeout} in
/-- Before a write nothing else happens. -/
lemma step_writing {w : Caller} (hplace : s.place = .writing buf call timeout w) {i : Input}
    (hi : ∀ r, i ≠ .write r) : step s i = (s, []) := by
  cases i with
  | write r => exact absurd rfl (hi r)
  | _ => simp only [step, hplace]

variable {buf call timeout} in
/-- **While a handler writes**, a step does nothing, or it is a write with which the call goes on or
returns. -/
lemma step_handler (hplace : s.place = .writing buf call timeout .handler) (i : Input) :
    step s i = (s, []) ∨ (∃ a bufs, step s i = ({ s with bufs := bufs }, [.attempt a])) ∨
      ∃ a s' status, s'.place = .idle ∧ step s i = (s', [.attempt a, .returned call status]) := by
  by_cases hi : ∃ r, i = .write r
  · obtain ⟨r, rfl⟩ := hi
    have hstep : step s (.write r) = sslWrite s buf call timeout .handler r := by
      simp only [step, hplace]
    rw [hstep]
    by_cases hr : r.Blocked
    · obtain ⟨a, cell, cache, cells, ev, heq⟩ := sslWrite_blocked (s := s) buf call timeout hr
      exact .inr (.inr ⟨a, _, .inprog, rfl, heq⟩)
    · obtain ⟨a, bufs, heq | ⟨status, -, heq⟩⟩ := sslWrite_handler (s := s) buf call timeout hr
      · exact .inr (.inl ⟨a, bufs, heq⟩)
      · exact .inr (.inr ⟨a, _, status, rfl, heq⟩)
  · exact .inl (step_writing hplace fun r hr => hi ⟨r, hr⟩)

end Handler

end SstpClient.StreamSpec
