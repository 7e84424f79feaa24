import SstpClient.StateSpec
import SstpClient.Lib.Machine

/-!
What the two messages of the handshake signal.

Each of them is handed to `sstp_stream_send`, which returns at once or leaves the rest to a
callback. The handler takes every return but `SSTP_OKAY` for a failure, also the one that says
that the write goes on; so it signals what happened exactly as long as no such write blocks.
-/

namespace SstpClient.Handshake

open SstpClient.Lib.Machine SstpClient.Buffer SstpClient.StreamSpec SstpClient.StateSpec
open SstpClient.State (Env Signal Event Message Session Input txBuf)
open SstpClient.Stream (SstpStream)

/-! ### What is promised -/

abbrev Step := Taken Session Input Event

/-- The status with which a call ends in a step: its return, or its callback. -/
def endsIn (call : ℕ) (events : List Event) : List Status :=
  events.filterMap fun
    | .stream (.returned c status) => if c = call then some status else none
    | .stream (.completed c status) => if c = call then some status else none
    | _ => none

def ends (call : ℕ) (ts : List Step) : List Status := ts.flatMap fun t => endsIn call t.events

/-- What is signalled where the call returns and where its callback is called. -/
def told (call : ℕ) (ts : List Step) : List Signal :=
  ts.flatMap fun t => if endsIn call t.events = [] then [] else signals t.events

/-- The call is that of a message of the handshake. -/
def Handed (kind : Kind) (call : ℕ) (ts : List Step) : Prop :=
  ∃ t ∈ ts, inputKind t.input = some kind ∧ ∃ message, .handed call message ∈ t.events

/-- What is to be signalled for a call that ended so: at once, or after `SSTP_INPROG`. -/
def wanted : Kind → List Status → List Signal
  | _, [] => []
  | _, [.inprog] => []
  | .request, [.okay] => []
  | .request, [.inprog, .okay] => []
  | .connected, [.okay] => [.established]
  | .connected, [.inprog, .okay] => [.established]
  | _, _ => [.abort]

/-- A message that is asked for is handed over, or its hash failed and the call is aborted; and for
each one handed over what is signalled is what the write came to. -/
structure Signalled (E : Env) (ts : List Step) : Prop where
  sent : ∀ t ∈ ts, ∀ kind, inputKind t.input = some kind → t.before.stream.place = .idle →
    (∃ call message, .handed call message ∈ t.events) ∨
      (kind = .connected ∧ E.certHash t.before.st.proto = none ∧ signals t.events = [.abort])
  told : ∀ kind call, Handed kind call ts → told call ts = wanted kind (ends call ts)

/-- The condition on a step: a message of the handshake is handed over only while no write is
pending, and its own write does not block. -/
structure NotBlocked (E : Env) (c : Session) (i : Input) : Prop where
  free : c.stream.place = .idle → i = .start ∨ i = .accept ∧ (E.certHash c.st.proto).isSome →
    c.stream.evSend = none
  goesOn : ∀ m, c.waits = some m → (messageKind m).isSome → ∀ r, i = .stream (.write r) → ¬ r.Blocked

/-! ### More steps -/

section Append

variable {ts : List Step} {t : Step} {call : ℕ} {kind : Kind}

lemma ends_snoc : ends call (ts ++ [t]) = ends call ts ++ endsIn call t.events := by
  unfold ends
  rw [List.flatMap_append, List.flatMap_singleton]

lemma told_snoc : told call (ts ++ [t]) =
    told call ts ++ if endsIn call t.events = [] then [] else signals t.events := by
  unfold told
  rw [List.flatMap_append, List.flatMap_singleton]

lemma handed_snoc : Handed kind call (ts ++ [t]) ↔ Handed kind call ts ∨
    (inputKind t.input = some kind ∧ ∃ message, .handed call message ∈ t.events) := by
  unfold Handed
  constructor
  · rintro ⟨u, hu, h⟩
    rcases List.mem_append.mp hu with hu | hu
    · exact .inl ⟨u, hu, h⟩
    · cases List.mem_singleton.mp hu
      exact .inr h
  · rintro (⟨u, hu, h⟩ | h)
    · exact ⟨u, List.mem_append_left _ hu, h⟩
    · exact ⟨t, List.mem_append_right _ (List.mem_singleton_self t), h⟩

lemma handed_snoc_of_none (ht : inputKind t.input = none) :
    Handed kind call (ts ++ [t]) ↔ Handed kind call ts := by
  rw [handed_snoc, ht]
  exact or_iff_left fun h => by cases h.1

@[simp] lemma endsIn_append (events new : List Event) :
    endsIn call (events ++ new) = endsIn call events ++ endsIn call new := List.filterMap_append

@[simp] lemma endsIn_signals (l : List Signal) : endsIn call (l.map .signal) = [] := by
  unfold endsIn
  rw [List.filterMap_map]
  exact List.filterMap_eq_nil_iff.mpr fun e _ => rfl

/-- Nothing is told of a call that has not ended. -/
lemma told_eq_nil (h : ends call ts = []) : told call ts = [] := by
  unfold ends at h
  unfold told
  rw [List.flatMap_eq_nil_iff] at h ⊢
  exact fun t ht => if_pos (h t ht)

end Append

/-! ### The invariant -/

/-- A call of the handshake is being written, or it has ended and what was due has been
signalled. -/
structure Inv (E : Env) (c : Session) (ts : List Step) : Prop where
  ready : Ready c
  mode : c.st.mode = .client
  distinct : Distinct c.stream
  sent : ∀ t ∈ ts, ∀ kind, inputKind t.input = some kind → t.before.stream.place = .idle →
    (∃ call message, .handed call message ∈ t.events) ∨
      (kind = .connected ∧ E.certHash t.before.st.proto = none ∧ signals t.events = [.abort])
  bound : ∀ call, c.stream.calls ≤ call → ends call ts = [] ∧ ∀ kind, ¬ Handed kind call ts
  waiting : ∀ m, c.waits = some m → ∃ call, c.stream.place = .writing txBuf call 10 .handler ∧
    ∀ kind, Handed kind call ts ↔ messageKind m = some kind
  handed : ∀ kind call, Handed kind call ts →
    (ends call ts = [] ∧ told call ts = [] ∧ c.stream.place = .writing txBuf call 10 .handler ∧
      ∃ m, c.waits = some m ∧ messageKind m = some kind) ∨
    ((∀ u ∈ users c.stream, u.2 ≠ call) ∧ (ends call ts = [.okay] ∨ ends call ts = [.fail]) ∧
      told call ts = wanted kind (ends call ts))

lemma Inv.signalled {E : Env} {c : Session} {ts : List Step} (h : Inv E c ts) :
    Signalled E ts := by
  refine ⟨h.sent, fun kind call hh => ?_⟩
  rcases h.handed kind call hh with ⟨hends, htold, -⟩ | ⟨-, -, htold⟩
  · rw [hends, htold]
    cases kind <;> rfl
  · exact htold

section Step

variable {E : Env} {c c' : Session} {ts : List Step} {i : Input} {events : List Event}

lemma Inv.waits_none (h : Inv E c ts) (hplace : c.stream.place = .idle) (m : Message) :
    c.waits ≠ some m := by
  intro hw
  obtain ⟨call, hp, -⟩ := h.waiting m hw
  cases hplace.symm.trans hp

/-- While no message of the handshake is being written, none of their calls is in use. -/
lemma Inv.not_user (h : Inv E c ts) (hw : ∀ m, c.waits = some m → messageKind m = none)
    {kind : Kind} {call : ℕ} (hh : Handed kind call ts) : ∀ u ∈ users c.stream, u.2 ≠ call := by
  rcases h.handed kind call hh with ⟨-, -, -, m, hm, hkind⟩ | ⟨hu, -⟩
  · rw [hw m hm] at hkind
    cases hkind
  · exact hu

/-- A step that neither hands over a message of the handshake nor ends the call of one. -/
lemma Inv.keep (h : Inv E c ts) (hready : Ready c') (hmode : c'.st.mode = .client)
    (hdistinct : Distinct c'.stream) (hcalls : c.stream.calls ≤ c'.stream.calls)
    (hhanded : ∀ kind, inputKind i = some kind → ∀ call message, .handed call message ∉ events)
    (hsent : ∀ kind, inputKind i = some kind → c.stream.place = .idle →
      kind = .connected ∧ E.certHash c.st.proto = none ∧ signals events = [.abort])
    (hends : ∀ kind call, Handed kind call ts → endsIn call events = [])
    (hnew : ∀ call, c'.stream.calls ≤ call → endsIn call events = [])
    (husers : ∀ u ∈ users c'.stream, u ∈ users c.stream ∨ c.stream.calls ≤ u.2)
    (hwaits : ∀ m, c'.waits = some m → c.waits = some m ∧ c'.stream.place = c.stream.place ∨
      messageKind m = none ∧ ∃ call, c.stream.calls ≤ call ∧
        c'.stream.place = .writing txBuf call 10 .handler)
    (hopen : ∀ m kind, c.waits = some m → messageKind m = some kind →
      c'.waits = some m ∧ c'.stream.place = c.stream.place) :
    Inv E c' (ts ++ [⟨c, i, c', events⟩]) := by
  have hold : ∀ kind call, Handed kind call (ts ++ [⟨c, i, c', events⟩]) ↔ Handed kind call ts := by
    intro kind call
    rw [handed_snoc]
    refine ⟨fun hh => hh.resolve_right ?_, .inl⟩
    rintro ⟨hi, message, hmem⟩
    exact hhanded kind hi call message hmem
  refine ⟨hready, hmode, hdistinct, fun t ht kind hi hplace => ?_, fun call hle => ?_,
    fun m hm => ?_, fun kind call hh => ?_⟩
  · rcases List.mem_append.mp ht with ht | ht
    · exact h.sent t ht kind hi hplace
    · cases List.mem_singleton.mp ht
      exact .inr (hsent kind hi hplace)
  · obtain ⟨hnone, hnot⟩ := h.bound call (le_trans hcalls hle)
    rw [ends_snoc, hnone, hnew call hle]
    exact ⟨rfl, fun kind hh => hnot kind ((hold kind call).mp hh)⟩
  · rcases hwaits m hm with ⟨hm, hplace⟩ | ⟨hkind, call, hle, hplace⟩
    · obtain ⟨call, hp, hiff⟩ := h.waiting m hm
      exact ⟨call, hplace.trans hp, fun kind => (hold kind call).trans (hiff kind)⟩
    · refine ⟨call, hplace, fun kind => ?_⟩
      rw [hold, hkind]
      exact iff_of_false ((h.bound call hle).2 kind) (by simp)
  · have hh := (hold kind call).mp hh
    have hlt : call < c.stream.calls := by
      by_contra hle
      exact (h.bound call (not_lt.mp hle)).2 kind hh
    rw [ends_snoc, told_snoc, hends kind call hh, List.append_nil, if_pos rfl, List.append_nil]
    rcases h.handed kind call hh with ⟨he, ht, hplace, m, hm, hkind⟩ | ⟨hu, he, ht⟩
    · obtain ⟨hm', hplace'⟩ := hopen m kind hm hkind
      exact .inl ⟨he, ht, hplace'.trans hplace, m, hm', hkind⟩
    · refine .inr ⟨fun u hmem => ?_, he, ht⟩
      rcases husers u hmem with hmem | hle
      · exact hu u hmem
      · exact Nat.ne_of_gt (Nat.lt_of_lt_of_le hlt hle)

/-! ### A step of the stream -/

/-- The calls that end in a step of the stream are in use, or made in it. -/
lemma endsIn_stream {s s' : SstpStream} {j : Stream.Input} {new : List Stream.Event} {call : ℕ}
    (hspec : StreamSpec.StepSpec s j s' new) (hne : endsIn call (new.map .stream) ≠ []) :
    (∃ u ∈ users s, u.2 = call) ∨ call = s.calls ∧ s.calls < s'.calls := by
  have hone : ∀ {c : ℕ} {status : Status} {e : Stream.Event},
      e = .returned c status ∨ e = .completed c status → endsIn call [.stream e] ≠ [] →
        c = call := by
    intro c status e he hne
    by_contra hc
    rcases he with rfl | rfl
    · exact hne (by simp [endsIn, hc])
    · exact hne (by simp [endsIn, hc])
  cases hspec with
  | built buf content hi hbufs husers hcalls hevents =>
    subst hevents
    exact absurd rfl hne
  | called buf timeout hi husers hbufs hcalls hevents =>
    rcases hevents with rfl | rfl
    · exact absurd rfl hne
    · exact .inr ⟨(hone (.inl rfl) hne).symm, hcalls ▸ Nat.lt_succ_self _⟩
  | wrote buf c timeout w hplace a new hevents hwrote =>
    subst hevents
    have huser : (buf, c) ∈ users s := users_writing hplace ▸ List.mem_cons_self
    refine .inl ⟨_, huser, ?_⟩
    have hlater : new = [] ∨ ∃ status e, new = [e] ∧
        (e = .returned c status ∨ e = .completed c status) := by
      rcases hwrote.outcome with ⟨-, rfl | rfl⟩ | ⟨-, status, rfl | rfl, -⟩
      · exact .inl rfl
      · exact .inr ⟨.inprog, _, rfl, .inl rfl⟩
      · exact .inr ⟨status, _, rfl, .inl rfl⟩
      · exact .inr ⟨status, _, rfl, .inr rfl⟩
    rcases hlater with rfl | ⟨status, e, rfl, he⟩
    · exact absurd rfl hne
    · exact hone he hne
  | moved husers hbufs hcalls hevents =>
    subst hevents
    exact absurd rfl hne

/-- The calls in use after a step of the stream. -/
lemma users_stream {s s' : SstpStream} {j : Stream.Input} {new : List Stream.Event}
    (hspec : StreamSpec.StepSpec s j s' new) :
    s.calls ≤ s'.calls ∧ ∀ u ∈ users s', u ∈ users s ∨ s.calls ≤ u.2 := by
  cases hspec with
  | built buf content hi hbufs husers hcalls hevents =>
    exact ⟨le_of_eq hcalls.symm, fun u hu => .inl (husers ▸ hu)⟩
  | called buf timeout hi husers hbufs hcalls hevents =>
    refine ⟨hcalls ▸ Nat.le_succ _, fun u hu => ?_⟩
    rcases List.mem_cons.mp (husers.mem_iff.mp hu) with rfl | hu
    · exact .inr (le_refl _)
    · exact .inl hu
  | wrote buf c timeout w hplace a new hevents hwrote =>
    refine ⟨le_of_eq hwrote.calls.symm, fun u hu => .inl ?_⟩
    rcases hwrote.outcome with ⟨hperm, -⟩ | ⟨hperm, -⟩
    · exact hperm.mem_iff.mp hu
    · exact hperm.mem_iff.mpr (List.mem_cons_of_mem _ hu)
  | moved husers hbufs hcalls hevents =>
    exact ⟨le_of_eq hcalls.symm, fun u hu => .inl (husers.mem_iff.mp hu)⟩

/-- As long as no message of the handshake is being written, what the stream does is of no
concern. -/
lemma Inv.stream_free (h : Inv E c ts) (hw : ∀ m, c.waits = some m → messageKind m = none)
    {j : Stream.Input} {r : SstpStream × List Stream.Event}
    (hspec : StreamSpec.StepSpec c.stream j r.1 r.2)
    (hplace : State.returned r.2 = none → ∀ m, c.waits = some m → r.1.place = c.stream.place)
    (hready : Ready (State.streamStep c r).1) :
    Inv E (State.streamStep c r).1
      (ts ++ [⟨c, .stream j, (State.streamStep c r).1, (State.streamStep c r).2⟩]) := by
  obtain ⟨hstream, hkept, -⟩ := streamStep_fst c r
  have hends : ∀ call, endsIn call (State.streamStep c r).2 =
      endsIn call (r.2.map .stream) := by
    intro call
    unfold State.streamStep
    dsimp only
    rw [endsIn_append, endsIn_signals, List.append_nil]
  obtain ⟨hcalls, husers⟩ := users_stream hspec
  refine h.keep hready ?_ ?_ ?_ (fun kind hi => by cases hi) (fun kind hi => by cases hi)
    (fun kind call hh => ?_) (fun call hle => ?_) ?_ (fun m hm => ?_) fun m kind hm hkind => ?_
  · rw [hkept.mode]
    exact h.mode
  · rw [hstream]
    exact h.distinct.step hspec
  · rw [hstream]
    exact hcalls
  · rw [hends]
    by_contra hne
    rcases endsIn_stream hspec hne with ⟨u, hu, hcall⟩ | ⟨rfl, -⟩
    · exact h.not_user hw hh u hu hcall
    · exact (h.bound _ (le_refl _)).2 kind hh
  · rw [hends]
    rw [hstream] at hle
    by_contra hne
    rcases endsIn_stream hspec hne with ⟨u, hu, rfl⟩ | ⟨rfl, hlt⟩
    · exact absurd (h.distinct.fresh u hu) (not_lt.mpr (le_trans hcalls hle))
    · exact absurd hlt (not_lt.mpr hle)
  · rw [hstream]
    exact husers
  · obtain ⟨hm, hret⟩ := waits_streamStep hm
    rw [hstream]
    exact .inl ⟨hm, hplace hret m hm⟩
  · rw [hw m hm] at hkind
    cases hkind

/-- What follows the return of a message of the handshake is what is wanted, unless it was told
that the write goes on. -/
lemma afterSend_wanted {m : Message} {kind : Kind} (hm : messageKind m = some kind) {status : Status}
    (hstatus : status = .okay ∨ status = .fail) (st : State.SstpState) :
    (State.afterSend m status st).2 = wanted kind [status] := by
  cases m with
  | connectReq =>
    cases hm
    rcases hstatus with rfl | rfl <;> rfl
  | connected certHash =>
    cases hm
    rcases hstatus with rfl | rfl <;> rfl
  | _ => cases hm

/-- A step that takes no handler further: what is being written stays so. -/
lemma Inv.stays (h : Inv E c ts) {bufs : ℕ → Buff} {new : List Event}
    (hi : inputKind i = none ∨ c.stream.place ≠ .idle)
    (hready : Ready { c with stream := { c.stream with bufs := bufs } })
    (hnew : ∀ call, endsIn call new = []) (hhanded : ∀ call message, .handed call message ∉ new) :
    Inv E { c with stream := { c.stream with bufs := bufs } }
      (ts ++ [⟨c, i, { c with stream := { c.stream with bufs := bufs } }, new⟩]) := by
  refine h.keep hready h.mode ?_ (le_refl _) (fun kind _ => hhanded) (fun kind hkind hplace => ?_)
    (fun kind call _ => hnew call) (fun call _ => hnew call) (fun u hu => .inl hu)
    (fun m hm => .inl ⟨hm, rfl⟩) fun m kind hm _ => ⟨hm, rfl⟩
  · exact h.distinct.perm (.refl _) rfl
  · rcases hi with hi | hi
    · rw [hi] at hkind
      cases hkind
    · exact absurd hplace hi

/-- The call of a message of the handshake returns. -/
lemma Inv.closes (h : Inv E c ts) {m : Message} {kind : Kind} {call : ℕ} (hw : c.waits = some m)
    (hkind : messageKind m = some kind) (hplace : c.stream.place = .writing txBuf call 10 .handler)
    {status : Status} (hstatus : status = .okay ∨ status = .fail) {bufs : ℕ → Buff}
    {a : Stream.Attempt} {j : Stream.Input} {c' : Session} {new : List Event}
    (heq : State.streamStep c ({ c.stream with bufs := bufs, place := .idle },
      [.attempt a, .returned call status]) = (c', new)) (hready : Ready c') :
    Inv E c' (ts ++ [⟨c, .stream j, c', new⟩]) := by
  have hafter := afterSend_wanted hkind hstatus c.st
  rw [streamStep_returned hw rfl rfl] at heq
  obtain ⟨rfl, rfl⟩ := Prod.mk.inj heq
  have hends : ∀ call', endsIn call' ([Stream.Event.attempt a, .returned call status].map .stream ++
      (State.afterSend m status c.st).2.map .signal) = if call = call' then [status] else [] := by
    intro call'
    rw [endsIn_append, endsIn_signals, List.append_nil]
    by_cases hc : call = call'
    · simp [endsIn, hc]
    · simp [endsIn, hc]
  have hperm : (users c.stream).Perm ((txBuf, call) ::
      users { c.stream with bufs := bufs, place := .idle }) := by
    rw [users_writing hplace, users_idle rfl]
  obtain ⟨hdistinct, hgone⟩ := h.distinct.ended hperm rfl
  refine ⟨hready, ?_, hdistinct, fun t ht kind' hi hp => ?_, fun call' hle => ?_,
    fun m' hm' => ?_, fun kind' call' hh => ?_⟩
  · exact (kept_afterSend m status c.st).1.mode.trans h.mode
  · rcases List.mem_append.mp ht with ht | ht
    · exact h.sent t ht kind' hi hp
    · cases List.mem_singleton.mp ht
      cases hi
  · obtain ⟨hnone, hnot⟩ := h.bound call' hle
    have hlt : call < c.stream.calls :=
      h.distinct.fresh (txBuf, call) (hperm.mem_iff.mpr List.mem_cons_self)
    rw [ends_snoc, hnone]
    refine ⟨?_, fun kind' hh => hnot kind' ((handed_snoc_of_none rfl).mp hh)⟩
    dsimp only
    rw [hends, if_neg (Nat.ne_of_lt (Nat.lt_of_lt_of_le hlt hle))]
    rfl
  · cases hm'
  · have hh := (handed_snoc_of_none rfl).mp hh
    rw [ends_snoc, told_snoc]
    dsimp only
    rw [hends]
    rcases h.handed kind' call' hh with ⟨he, ht, hp, m', hm', hkind'⟩ | ⟨hu, he, ht⟩
    · -- this is the call that returns
      cases hplace.symm.trans hp
      cases hw.symm.trans hm'
      cases hkind.symm.trans hkind'
      rw [if_pos rfl, he, ht, List.nil_append, List.nil_append, if_neg (List.cons_ne_nil _ _),
        signals_append, signals_stream, signals_map, List.nil_append, hafter]
      refine .inr ⟨hgone, ?_, rfl⟩
      rcases hstatus with rfl | rfl
      · exact .inl rfl
      · exact .inr rfl
    · have hne : call ≠ call' := hu (txBuf, call) (hperm.mem_iff.mpr List.mem_cons_self)
      rw [if_neg hne, if_pos rfl, List.append_nil, List.append_nil]
      exact .inr ⟨fun u hmem => hu u (hperm.mem_iff.mpr (List.mem_cons_of_mem _ hmem)), he, ht⟩

/-- What a step of the stream preserves. -/
lemma Inv.stream (h : Inv E c ts) {j : Stream.Input} (hC : NotBlocked E c (.stream j))
    (hready : Ready (State.streamStep c (Stream.step c.stream j)).1) :
    Inv E (State.streamStep c (Stream.step c.stream j)).1
      (ts ++ [⟨c, .stream j, (State.streamStep c (Stream.step c.stream j)).1,
        (State.streamStep c (Stream.step c.stream j)).2⟩]) := by
  have hspec := StreamSpec.step_spec c.stream j
  by_cases hw : ∀ m, c.waits = some m → messageKind m = none
  · refine h.stream_free hw hspec (fun hret m hm => ?_) hready
    obtain ⟨call, hplace, -⟩ := h.waiting m hm
    obtain heq | ⟨a, bufs, heq⟩ | ⟨a, s', status, -, heq⟩ := step_handler hplace j
    · rw [heq]
    · rw [heq]
    · rw [heq] at hret
      cases hret
  · push Not at hw
    obtain ⟨m, hm, hne⟩ := hw
    obtain ⟨kind, hkind⟩ := Option.ne_none_iff_exists'.mp hne
    obtain ⟨call, hplace, -⟩ := h.waiting m hm
    have hnotIdle : c.stream.place ≠ .idle := fun hp => by cases hplace.symm.trans hp
    by_cases hj : ∃ r, j = .write r
    · obtain ⟨r, rfl⟩ := hj
      have hstep : Stream.step c.stream (.write r) =
          Stream.sslWrite c.stream txBuf call 10 .handler r := by
        simp only [Stream.step, hplace]
      have hr := hC.goesOn m hm (by rw [hkind]; rfl) r rfl
      obtain ⟨a, bufs, heq | ⟨status, hstatus, heq⟩⟩ := sslWrite_handler txBuf call 10 hr
      · rw [hstep, heq, streamStep_waits] at hready ⊢
        exact h.stays (.inl rfl) hready (fun _ => rfl) (by simp)
      · rw [hstep, heq] at hready ⊢
        exact h.closes hm hkind hplace hstatus rfl hready
    · rw [step_writing hplace fun r hr => hj ⟨r, hr⟩, streamStep_still] at hready ⊢
      exact h.stays (.inl rfl) hready (fun _ => rfl) (by simp)

end Step

end SstpClient.Handshake
