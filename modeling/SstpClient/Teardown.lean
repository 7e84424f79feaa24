import SstpClient.PacketBounds
import SstpClient.StateSpec
import SstpClient.Lib.Machine

/-!
Call-Abort and Call-Disconnect, `sstp_state_handle_ctrl`.

Both are acted on through `sstp_state_connect_nak`: an abort is signalled, and a disconnect is
acknowledged, only when a status could be taken out of the packet. Whether it can is decided by
the chain of headers that `sstp_pkt_parse` follows.
-/

namespace SstpClient.Teardown

open SstpClient.Lib.Bytes SstpClient.Lib.Footprint SstpClient.Lib.Footprint.ReadProg
open SstpClient.Lib.Machine SstpClient.Buffer SstpClient.Packet SstpClient.PacketRoundTrip
open SstpClient.PacketBounds SstpClient.PacketImage SstpClient.ConnectMsg SstpClient.ControlMsg
open SstpClient.State SstpClient.StateSpec SstpClient.StreamSpec
open SstpClient.Stream (SslWrite SstpStream)

/-! ### What is asked -/

/-- The messages that end a call. -/
inductive Ending
  | abort | disconnect
  deriving DecidableEq

def Ending.msg : Ending → SstpMsg
  | .abort => .abort
  | .disconnect => .disconnect

def Ending.signal : Ending → Signal
  | .abort => .abort
  | .disconnect => .disconnect

/-- The call is torn down: one signal, and before it the acknowledgement of a disconnect. -/
structure TornDown (e : Ending) (events : List Event) : Prop where
  once : signals events = [e.signal]
  acked : e = .disconnect → ∃ before call after,
    events = before ++ .handed call (image .disconnectAck []) :: after ∧ signals before = []

/-- The handler, with the writes it makes. -/
def answer (E : Env) (c : Session) (packet tail : List UInt8) (attrs : Attrs) (rs : List SslWrite) :
    Session × List Event :=
  run (step E) c (.recv packet tail attrs :: rs.map fun r => .stream (.write r))

/-- Whatever the writes come to, as long as one that succeeds takes a byte, the handler returns
and the call is torn down. Its message has eight bytes, so that it writes eight times at most. -/
def Answered (E : Env) (c : Session) (e : Ending) (packet tail : List UInt8) (attrs : Attrs) :
    Prop :=
  ∀ rs : List SslWrite, .written 0 ∉ rs → 8 ≤ rs.length →
    (answer E c packet tail attrs rs).1.stream.place = .idle ∧
      TornDown e (answer E c packet tail attrs rs).2

/-- **When there is a status** for a packet of `size` bytes and `nattr` attributes, in the buffer
`bs`: it is long enough for an attribute, every header of the chain has a type that exists, the
last of type Status-Info declares eight bytes or more, and twelve bytes follow its place. -/
def HasStatus (bs : List UInt8) (nattr size : ℕ) : Prop :=
  14 ≤ size ∧ ∃ es e, chain bs nattr 8 = some (some es) ∧ lastOf es attrStatusInfo = some e ∧
    8 ≤ e.length ∧ e.pos + 12 ≤ bs.length

/-! ### What the packet is read as -/

section Read

variable {type : SstpMsg} {as : List Attr} {tail : List UInt8} {attrs : Attrs}

lemma ntohs_htons {bs : List UInt8} {p n : ℕ} (hn : n < 65536) (h0 : bs[p]? = (htons n)[0]?)
    (h1 : bs[p + 1]? = (htons n)[1]?) : (ntohs p).eval (listMem bs) = some n := by
  have hmod : ((n : ℤ) % 65536).toNat = n := by omega
  have hlo : listMem bs ((p : ℤ) + 1) = (htons n)[1]? := by
    rw [← h1, ← listMem_natCast, Nat.cast_add, Nat.cast_one]
  unfold ntohs
  rw [eval_bind, eval_cell, listMem_natCast, h0]
  change (eval _ _) = _
  rw [eval_bind, eval_cell, hlo]
  change some (be16 (UInt8.ofNat (((n : ℤ) % 65536).toNat / 256))
    (UInt8.ofNat ((n : ℤ) % 65536).toNat)) = _
  rw [hmod, be16_ofNat, Nat.mod_eq_of_lt hn]

lemma flags_image : listMem (image type as ++ tail) 1 = some msgFlagCtrl := rfl

lemma type_image : (sstpPktType (image type as).length).eval (listMem (image type as ++ tail)) =
    some (.ctrl, some type.code) := by
  have hlen : ¬ (0 ≤ ((image type as).length : ℤ) ∧ ((image type as).length : ℤ) < 4) := by
    have := length_image type as
    unfold encodedSize at this
    omega
  have hcode : type.code < 65536 := by cases type <;> decide
  have htype : (ntohs 4).eval (listMem (image type as ++ tail)) = some type.code :=
    ntohs_htons (p := 4) hcode rfl rfl
  unfold sstpPktType
  rw [if_neg hlen, eval_bind, eval_cell, flags_image, Option.bind_some, if_pos (by decide),
    eval_bind, htype]
  rfl

lemma count_image (hcount : as.length < 65536) :
    (ntohs 6).eval (listMem (image type as ++ tail)) = some as.length :=
  ntohs_htons (p := 6) hcount rfl rfl

/-- A packet that says how long it is has fewer attributes than the field can count. -/
lemma count_lt (hsize : encodedSize as < 65536) : as.length < 65536 := by
  have hle : as.length ≤ attrsSize as := by
    clear hsize
    induction as with
    | nil => exact Nat.zero_le _
    | cons a as ih =>
      have hcons : attrsSize (a :: as) = 4 + a.2.length + attrsSize as := rfl
      rw [hcons, List.length_cons]
      omega
  unfold encodedSize at hsize
  omega

/-- `sstp_pkt_parse` of the packet. -/
lemma parse_image (hsize : encodedSize as < 65536) :
    (sstpPktParse (image type as).length attrs).eval (listMem (image type as ++ tail)) =
      if encodedSize as < 14 then some none
      else (chain (image type as ++ tail) as.length 8).map fun r =>
        r.map fun es => (setAttrs (clearAttrs attrs) es, endOff 8 es) := by
  unfold sstpPktParse
  rw [length_image]
  split_ifs with h h' h'
  · rfl
  · omega
  · omega
  · rw [eval_bind, eval_cell, flags_image, Option.bind_some, if_neg (by decide), eval_bind,
      count_image (count_lt hsize), Option.bind_some, parseLoop_eq_chain]

/-- **The status** of the last Status-Info attribute is read when the attribute says that it is there
and the bytes are. -/
lemma status_isSome_iff {bs : List UInt8} {n : ℕ} {es : List Entry} {e : Entry}
    (hchain : chain bs n 8 = some (some es)) (hlast : lastOf es attrStatusInfo = some e) :
    (∃ status, (eval (listMem bs) (do
      let alen ← sstpAttrLen e.pos
      if alen < 4 then return none
      else
        let status ← readBytes (sstpAttrData e.pos + 4) 4
        return some (ntohl status) : ReadProg UInt8 (Option ℕ))) = some (some status)) ↔
      8 ≤ e.length ∧ e.pos + 12 ≤ bs.length := by
  have hlength := lastOf_length hchain hlast
  have hpos : 0 ≤ e.pos + 2 := (ntohs_isSome.mp (by rw [hlength]; rfl)).1
  have hread : ((readBytes (sstpAttrData e.pos + 4) 4).eval (listMem bs)).isSome ↔
      e.pos + 12 ≤ bs.length := by
    rw [readBytes_isSome, or_iff_right (by decide)]
    unfold sstpAttrData
    push_cast
    omega
  rw [eval_bind, attrLen_eval hlength, Option.bind_some]
  split_ifs with h4
  · constructor
    · rintro ⟨status, hstatus⟩
      cases hstatus
    · omega
  · rw [eval_bind, ← hread]
    cases (readBytes (sstpAttrData e.pos + 4) 4).eval (listMem bs) with
    | none => simp
    | some bytes =>
      simp only [Option.bind_some, eval_pure, Option.isSome_some, and_true]
      exact ⟨fun _ => by omega, fun _ => ⟨_, rfl⟩⟩

/-- **`sstp_state_connect_nak` takes a status** exactly when there is one. -/
theorem nak_isSome_iff (hsize : encodedSize as < 65536) :
    (∃ status, (sstpStateConnectNak (image type as).length attrs).eval
      (listMem (image type as ++ tail)) = some (some status)) ↔
        HasStatus (image type as ++ tail) as.length (encodedSize as) := by
  generalize hbs : image type as ++ tail = bs
  have hparse := @parse_image type as tail attrs hsize
  rw [hbs] at hparse
  unfold sstpStateConnectNak
  rw [eval_bind, hparse]
  unfold HasStatus
  by_cases hshort : encodedSize as < 14
  · rw [if_pos hshort]
    constructor
    · rintro ⟨status, hstatus⟩
      cases hstatus
    · rintro ⟨h14, -⟩
      omega
  rw [if_neg hshort]
  cases hchain : chain bs as.length 8 with
  | none =>
    constructor
    · rintro ⟨status, hstatus⟩
      cases hstatus
    · rintro ⟨-, es, e, h, -⟩
      cases h
  | some r =>
    cases r with
    | none =>
      constructor
      · rintro ⟨status, hstatus⟩
        cases hstatus
      · rintro ⟨-, es, e, h, -⟩
        cases h
    | some es =>
      have hset : setAttrs (clearAttrs attrs) es attrStatusInfo =
          (lastOf es attrStatusInfo).map Entry.pos := by
        unfold setAttrs clearAttrs
        rw [if_pos (by decide), Option.or_none]
      simp only [Option.map_some, Option.bind_some, hset]
      cases hlast : lastOf es attrStatusInfo with
      | none =>
        constructor
        · rintro ⟨status, hstatus⟩
          cases hstatus
        · rintro ⟨-, es', e, h, hlast', -⟩
          cases h
          cases hlast.symm.trans hlast'
      | some e =>
        refine (status_isSome_iff hchain hlast).trans
          ⟨fun h => ⟨by omega, es, e, rfl, hlast, h⟩, ?_⟩
        rintro ⟨-, es', e', h, hlast', hrest⟩
        cases h
        cases hlast.symm.trans hlast'
        exact hrest

/-- Only a packet with attributes has a status. -/
lemma not_hasStatus_bare {bs : List UInt8} : ¬ HasStatus bs 0 (encodedSize []) := by
  rintro ⟨h14, -⟩
  exact absurd h14 (by decide)

end Read

/-! ### What the handler does -/

section Handler

variable {E : Env} {c : Session} {e : Ending} {as : List Attr} {tail : List UInt8} {attrs : Attrs}

/-- What the handlers of the two messages make of what `sstp_state_connect_nak` returns. -/
def acted (e : Ending) (st : SstpState) : Option ℕ → Handled
  | none => ⟨st, none, if e = .disconnect then [.disconnect] else [], none⟩
  | some status =>
    if e = .disconnect then ⟨{ st with status := status }, some .disconnectAck, [], none⟩
    else ⟨{ st with status := status }, none, [.abort], none⟩

lemma handled_recv :
    handled E c.st (.recv (image e.msg as) tail attrs) =
      ((sstpStateConnectNak (image e.msg as).length attrs).eval
        (listMem (image e.msg as ++ tail))).map (acted e c.st) := by
  unfold handled sstpStateHandlePacket
  dsimp only
  rw [type_image]
  dsimp only
  unfold sstpStateHandleCtrl
  cases e with
  | abort =>
    rw [if_neg (by decide), if_neg (by decide), if_pos (by rfl)]
    refine congrArg (Option.map · _) (funext fun r => ?_)
    cases r <;> rfl
  | disconnect =>
    rw [if_neg (by decide), if_neg (by decide), if_neg (by decide), if_pos (by rfl)]
    refine congrArg (Option.map · _) (funext fun r => ?_)
    cases r <;> rfl

lemma step_recv (hplace : c.stream.place = .idle) (packet : List UInt8) :
    step E c (.recv packet tail attrs) = match handled E c.st (.recv packet tail attrs) with
      | none => (c, [.overrun])
      | some h => handle E c h := by
  unfold step
  exact if_pos hplace

/-- A write the program does not stand before does nothing. -/
lemma run_idle (hplace : c.stream.place = .idle) (rs : List SslWrite) :
    (run (step E) c (rs.map fun r => .stream (.write r))).1.stream.place = .idle ∧
      (run (step E) c (rs.map fun r => .stream (.write r))).2 = [] := by
  have hstep : ∀ r, step E c (.stream (.write r)) = (c, []) := by
    intro r
    have hsame : Stream.step c.stream (.write r) = (c.stream, []) := by
      unfold Stream.step
      rw [hplace]
    unfold step
    dsimp only
    rw [hsame, streamStep_still]
  induction rs with
  | nil => exact ⟨hplace, rfl⟩
  | cons r rs ih =>
    rw [List.map_cons, run_cons, hstep]
    exact ih

/-- Once `sstp_stream_send` has returned, the rest of the writes do not happen. -/
lemma run_returned (hwaits : c.waits = some .disconnectAck) {s' : SstpStream} {a : Stream.Attempt}
    {call : ℕ} {status : Status} {r : SslWrite} (rs : List SslWrite) (hidle : s'.place = .idle)
    (hstep : Stream.step c.stream (.write r) = (s', [.attempt a, .returned call status])) :
    (run (step E) c ((r :: rs).map fun r => .stream (.write r))).1.stream.place = .idle ∧
      signals (run (step E) c ((r :: rs).map fun r => .stream (.write r))).2 = [.disconnect] := by
  have hret : returned [.attempt a, .returned call status] = some status := rfl
  have hfirst : step E c (.stream (.write r)) =
      ({ c with stream := s', waits := none },
        [.stream (.attempt a), .stream (.returned call status), .signal .disconnect]) :=
    (congrArg (streamStep c) hstep).trans (streamStep_returned hwaits hret rfl)
  obtain ⟨hend, hrest⟩ :=
    run_idle (E := E) (c := { c with stream := s', waits := none }) hidle rs
  rw [List.map_cons, run_cons, hfirst, hrest]
  exact ⟨hend, rfl⟩

/-- The offset of a buffer of which `n` bytes more have been taken. -/
def offAfter (b : Buff) (n : ℕ) : ℤ := b.off + (min n (b.len - b.off).toNat : ℕ)

/-- Bytes are left: the loop goes on behind those that were taken. -/
lemma sslWrite_more {s : SstpStream} {call n : ℕ}
    (h : offAfter (s.bufs txBuf) n < (s.bufs txBuf).len) :
    ∃ a s', Stream.sslWrite s txBuf call 10 .handler (.written n) = (s', [.attempt a]) ∧
      s'.place = s.place ∧
      s'.bufs txBuf = { s.bufs txBuf with off := offAfter (s.bufs txBuf) n } := by
  unfold offAfter at h
  unfold Stream.sslWrite
  dsimp only
  rw [if_pos h]
  refine ⟨_, _, rfl, rfl, ?_⟩
  dsimp only
  rw [Function.update_self]
  rfl

/-- The last bytes are taken. -/
lemma sslWrite_whole {s : SstpStream} {call n : ℕ}
    (h : ¬ offAfter (s.bufs txBuf) n < (s.bufs txBuf).len) :
    ∃ a s', Stream.sslWrite s txBuf call 10 .handler (.written n) =
      (s', [.attempt a, .returned call .okay]) ∧ s'.place = .idle := by
  unfold offAfter at h
  unfold Stream.sslWrite
  dsimp only
  rw [if_neg h]
  exact ⟨_, _, rfl, rfl⟩

/-- `sstp_stream_send` of the acknowledgement returns after as many writes as there are bytes left,
if not before, and the signal follows. By induction on the writes. -/
lemma run_writing {call : ℕ} {rs : List SslWrite}
    (hplace : c.stream.place = .writing txBuf call 10 .handler)
    (hwaits : c.waits = some .disconnectAck) (hrs : .written 0 ∉ rs) (hpos : 0 < rs.length)
    (hlen : (c.stream.bufs txBuf).len - (c.stream.bufs txBuf).off ≤ rs.length) :
    (run (step E) c (rs.map fun r => .stream (.write r))).1.stream.place = .idle ∧
      signals (run (step E) c (rs.map fun r => .stream (.write r))).2 = [.disconnect] := by
  induction rs generalizing c with
  | nil => exact absurd hpos (Nat.lt_irrefl 0)
  | cons r rs ih =>
    rw [List.mem_cons, not_or] at hrs
    have hwrite : Stream.step c.stream (.write r) =
        Stream.sslWrite c.stream txBuf call 10 .handler r := by
      unfold Stream.step
      rw [hplace]
    by_cases hblocked : r.Blocked
    · obtain ⟨a, cell, cache, cells, ev, hsent⟩ :=
        sslWrite_blocked (s := c.stream) txBuf call 10 hblocked
      exact run_returned hwaits rs rfl (hwrite.trans hsent)
    cases r with
    | wantRead => exact absurd (.inl rfl) hblocked
    | wantWrite => exact absurd (.inr rfl) hblocked
    | error => exact run_returned hwaits rs rfl hwrite
    | written n =>
      have hn : n ≠ 0 := fun hn => hrs.1 (by rw [hn])
      by_cases hmore : offAfter (c.stream.bufs txBuf) n < (c.stream.bufs txBuf).len
      · obtain ⟨a, s', hsent, hplace', hbuf⟩ := @sslWrite_more c.stream call n hmore
        have hfirst : step E c (.stream (.write (.written n))) =
            ({ c with stream := s' }, [.stream (.attempt a)]) := by
          exact (congrArg (streamStep c) (hwrite.trans hsent)).trans streamStep_waits
        unfold offAfter at hbuf hmore
        have hrest : (s'.bufs txBuf).len - (s'.bufs txBuf).off ≤ rs.length := by
          rw [List.length_cons] at hlen
          rw [hbuf]
          dsimp only
          omega
        have hleft : 0 < (s'.bufs txBuf).len - (s'.bufs txBuf).off := by
          rw [hbuf]
          dsimp only
          omega
        rw [List.map_cons, run_cons, hfirst]
        exact ih (c := { c with stream := s' }) (hplace'.trans hplace) hwaits hrs.2
          (by omega) hrest
      · obtain ⟨a, s', hsent, hidle⟩ := @sslWrite_whole c.stream call n hmore
        exact run_returned hwaits rs hidle (hwrite.trans hsent)

/-- The acknowledgement is handed over, and the signal follows. -/
lemma tornDown_disconnectAck (h : Ready c) {rs : List SslWrite}
    (hrs : .written 0 ∉ rs) (hlen : 8 ≤ rs.length) {c' : Session} {new : List Event}
    (heq : handOver E c .disconnectAck = (c', new)) :
    (run (step E) c' (rs.map fun r => .stream (.write r))).1.stream.place = .idle ∧
      TornDown .disconnect (new ++ (run (step E) c' (rs.map fun r => .stream (.write r))).2) := by
  obtain ⟨b, hinit, hbuilt, -⟩ := built_init (b := c.stream.bufs txBuf) .disconnectAck (by decide)
    (by rw [h.max]; decide)
  have hb : construct E c.st (c.stream.bufs txBuf) .disconnectAck = some (.okay, b) :=
    congrArg some hinit
  have hmsg : StreamSpec.remaining b = image .disconnectAck [] := Built.remaining hbuilt
  cases hev : c.stream.evSend with
  | none =>
    rw [handOver_idle hb hev, hmsg] at heq
    obtain ⟨rfl, rfl⟩ := Prod.mk.inj heq
    have hsize : b.len - b.off ≤ rs.length := by
      rw [hbuilt.len, hbuilt.off]
      have height : encodedSize [] = 8 := rfl
      rw [height]
      omega
    refine (run_writing rfl rfl hrs (by omega) (by
      dsimp only
      rw [Function.update_self]
      exact hsize)).imp id fun hsignals => ⟨?_, fun _ => ⟨[_], _, _, rfl, rfl⟩⟩
    rw [signals_append, hsignals]
    rfl
  | some i =>
    obtain ⟨cell, cache, cells, ev, hqueued⟩ := handOver_pending hb (by rw [hev]; exact nofun)
    rw [hqueued, hmsg] at heq
    obtain ⟨rfl, rfl⟩ := Prod.mk.inj heq
    refine (run_idle rfl rs).imp id fun hnone => ⟨?_, fun _ => ⟨[_], _, _, rfl, rfl⟩⟩
    rw [hnone, List.append_nil]
    rfl

/-- With a status the handler ends the call. -/
theorem answered_of_status (h : Ready c) (hplace : c.stream.place = .idle) {status : ℕ}
    (hstatus : (sstpStateConnectNak (image e.msg as).length attrs).eval
      (listMem (image e.msg as ++ tail)) = some (some status)) :
    Answered E c e (image e.msg as) tail attrs := by
  intro rs hrs hlen
  unfold answer
  rw [run_cons, step_recv hplace, handled_recv, hstatus]
  cases e with
  | abort =>
    obtain ⟨hend, hnone⟩ := run_idle (E := E) (c := { c with st := { c.st with status := status } })
      hplace rs
    refine ⟨hend, ?_, nofun⟩
    refine (signals_append [.signal .abort] _).trans ?_
    exact congrArg (fun new => signals [.signal .abort] ++ signals new) hnone
  | disconnect =>
    have hready : Ready { c with st := { c.st with status := status } } := ⟨h.max, h.nounce⟩
    exact tornDown_disconnectAck hready hrs hlen rfl

/-- Without one an abort is not signalled, and a disconnect is not acknowledged. -/
theorem not_answered (hplace : c.stream.place = .idle)
    (hstatus : ∀ status, (sstpStateConnectNak (image e.msg as).length attrs).eval
      (listMem (image e.msg as ++ tail)) ≠ some (some status)) :
    ¬ Answered E c e (image e.msg as) tail attrs := by
  intro hanswered
  obtain ⟨-, honce, hacked⟩ := hanswered (List.replicate 8 .error) (by decide) (by decide)
  unfold answer at honce hacked
  rw [run_cons, step_recv hplace, handled_recv] at honce hacked
  cases hnak : (sstpStateConnectNak (image e.msg as).length attrs).eval
      (listMem (image e.msg as ++ tail)) with
  | none =>
    rw [hnak] at honce
    obtain ⟨-, hnone⟩ := run_idle (E := E) hplace (List.replicate 8 .error)
    dsimp only [Option.map_none] at honce
    rw [hnone] at honce
    cases honce
  | some r =>
    cases r with
    | some status => exact hstatus status hnak
    | none =>
      rw [hnak] at honce hacked
      obtain ⟨-, hnone⟩ := run_idle (E := E) hplace (List.replicate 8 .error)
      cases e with
      | abort =>
        change signals (_ ++ (run (step E) c _).2) = _ at honce
        rw [hnone] at honce
        cases honce
      | disconnect =>
        obtain ⟨before, call, after, heq, -⟩ := hacked rfl
        change [Event.signal .disconnect] ++ (run (step E) c _).2 = _ at heq
        rw [hnone] at heq
        have hmem : Event.handed call (image .disconnectAck []) ∈ [Event.signal .disconnect] := by
          rw [← List.append_nil [Event.signal .disconnect], heq]
          exact List.mem_append_right _ List.mem_cons_self
        cases List.mem_singleton.mp hmem

end Handler

/-! ### The main result -/

section Main

variable {E : Env} {mode : Mode} {bufs : ℕ → Buff} {is : List Input}

/-- **When a message ends the call**, in every session that has been reached: exactly when there is
a status in it. -/
theorem answered_iff
    (hplace : (run (step E) (sstpCreate mode bufs) is).1.stream.place = .idle) (e : Ending)
    {as : List Attr} (hsize : encodedSize as < 65536) (tail : List UInt8) (attrs : Attrs) :
    Answered E (run (step E) (sstpCreate mode bufs) is).1 e (image e.msg as) tail attrs ↔
      HasStatus (image e.msg as ++ tail) as.length (encodedSize as) := by
  have hready : Ready (run (step E) (sstpCreate mode bufs) is).1 :=
    run_inv_all (h := []) (fun c _ => Ready c) (fun _ _ i h => ready_step h i)
      (ready_create mode bufs) is
  rw [← @nak_isSome_iff e.msg as tail attrs hsize]
  constructor
  · intro hanswered
    by_contra hnot
    exact not_answered hplace (fun status hstatus => hnot ⟨status, hstatus⟩) hanswered
  · rintro ⟨status, hstatus⟩
    exact answered_of_status hready hplace hstatus

end Main

/-! ### Packets of one attribute, and of none -/

/-- A packet with the status as its only attribute has one. -/
lemma hasStatus_single {type : SstpMsg} {data : List UInt8} (h8 : 8 ≤ data.length)
    (hsize : data.length < 65536 - 12) (tail : List UInt8) :
    HasStatus (image type [(2, data)] ++ tail) 1 (encodedSize [(2, data)]) := by
  have hencoded : encodedSize [(2, data)] = 12 + data.length := by
    simp only [encodedSize, attrsSize, List.map_cons, List.map_nil, List.sum_cons, List.sum_nil]
    omega
  have hbytes := length_image type [(2, data)]
  have htype : listMem (image type [(2, data)] ++ tail) (8 + 1) = some 2 := rfl
  have hlength : (ntohs (8 + 2)).eval (listMem (image type [(2, data)] ++ tail)) =
      some (data.length + 4) :=
    ntohs_htons (p := 10) (by omega) rfl rfl
  refine ⟨by omega, [⟨8, attrStatusInfo, data.length + 4⟩], _, ?_, rfl, by dsimp only; omega, ?_⟩
  · unfold chain
    simp only [htype, Option.bind_eq_bind, Option.bind_some]
    rw [dif_pos (by decide), hlength]
    rfl
  · rw [List.length_append, hbytes, hencoded]
    push_cast
    omega

/-- A Call-Connect-Ack with a nonce, and the keys. -/
def opening : List Input :=
  [.recv ([0x10, 0x01, 0x00, 0x30, 0x00, 0x02, 0x00, 0x01, 0x00, 0x04, 0x00, 0x28, 0x00, 0x00,
      0x00, 0x02] ++ List.replicate 32 1) [] fun _ => none,
    .mppeKeys (List.replicate 16 1) (List.replicate 16 2)]

/-- The status of a disconnect, behind them. -/
theorem answered_iff_status :
    Answered plainEnv (run (step plainEnv) (sstpCreate .client fun _ => sstpBuffCreate 0) opening).1
      .disconnect (image .disconnect [(2, List.replicate 8 0)]) [] fun _ => none :=
  (@answered_iff plainEnv .client (fun _ => sstpBuffCreate 0) opening rfl .disconnect _ (by decide)
    [] _).mpr (hasStatus_single (by decide) (by decide) [])

/-- A Call-Abort without attributes, of eight bytes, is not signalled. -/
theorem bareAbort_not_answered :
    ¬ Answered plainEnv (sstpCreate .client fun _ => sstpBuffCreate 0) .abort (image .abort []) []
      fun _ => none :=
  @not_answered plainEnv _ .abort [] [] _ rfl fun status hstatus =>
    not_hasStatus_bare ((nak_isSome_iff (by decide)).mp ⟨status, hstatus⟩)

end SstpClient.Teardown
