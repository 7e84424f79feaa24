import SstpClient.Recv

/-!
Receiving the HTTP response, `sstp_stream_recv_http`.

Whether the header is complete is looked up at the end of what has been received, after every
`SSL_read`. A header that ends inside what one `SSL_read` returns is not seen, and an empty line of
bare line feeds is taken for its end.
-/

namespace SstpClient.HttpResponse

open SstpClient.Lib.Bytes SstpClient.Lib.Machine SstpClient.Buffer SstpClient.Recv

/-! ### The receiver -/

/-- The byte `k` places before the position of the buffer. -/
def byteBefore (b : Buff) (k : ℕ) : UInt8 := b.byte (b.off - k).toNat

def sstpHttpHeaderComplete (b : Buff) : Bool :=
  (4 ≤ b.off && byteBefore b 4 == 13 && byteBefore b 3 == 10 && byteBefore b 2 == 13 &&
    byteBefore b 1 == 10) ||
  (2 ≤ b.off && byteBefore b 2 == 10 && byteBefore b 1 == 10)

/-- One pass of the loop of `sstp_stream_recv_http`. -/
def recvHttpPass (b : Buff) (wire : List UInt8) (r : SslRead) : Pass :=
  match sslRead (b.max - b.off) wire r with
  | .none bytes =>
    match b.write b.off bytes with
    | none => .overrun
    | some b =>
      let b := { b with off := b.off + bytes.length }
      if sstpHttpHeaderComplete b then .done .okay b (wire.drop bytes.length)
      else .again b (wire.drop bytes.length)
  | .wantRead => .done .inprog b wire
  | .wantWrite => .done .inprog b wire
  | .error => .done .fail b wire

/-- `sstp_stream_recv_http`. Past the outcomes it is given, `SSL_read` would block. -/
def sstpStreamRecvHttp (b : Buff) (wire : List UInt8) :
    List SslRead → Option Status × Buff × List UInt8
  | [] => (some .inprog, b, wire)
  | r :: rs =>
    match recvHttpPass b wire r with
    | .again b' wire' => sstpStreamRecvHttp b' wire' rs
    | .done status b' wire' => (some status, b', wire')
    | .overrun => (none, b, wire)

/-- A call has returned, with so many bytes in the buffer. -/
structure Returned where
  status : Option Status
  received : ℤ
  deriving DecidableEq

/-- `sstp_recv_cont`: the event stays set as long as the call does not complete. -/
def step (s : Rx) (outcomes : List SslRead) : Rx × List Returned :=
  if s.armed then
    let call := sstpStreamRecvHttp s.buf s.wire outcomes
    (⟨call.2.1, call.2.2, call.1 = some .inprog⟩, [⟨call.1, call.2.1.off⟩])
  else (s, [])

/-! ### What is promised -/

/-- The empty line at the end of the header. -/
def terminator : List UInt8 := [13, 10, 13, 10]

/-- A response that fits the buffer: the header up to its first empty line, and what follows. -/
structure Response where
  header : List UInt8
  rest : List UInt8
  ends : terminator <:+ header
  first : ∀ n < header.length, ¬ terminator <:+ header.take n
  fits : header.length + rest.length ≤ 8192

def Response.bytes (R : Response) : List UInt8 := R.header ++ R.rest

/-- The call that receives the last byte of the header succeeds, and none before. -/
def Recognised (R : Response) (calls : List Returned) : Prop :=
  ∀ c ∈ calls, c.status = some .okay ↔ (R.header.length : ℤ) ≤ c.received

/-- Where the `SSL_read`s of a call end that finds `n` bytes in the buffer, up to the first one that
reads nothing. -/
def readEnds : ℕ → List UInt8 → List SslRead → List ℕ
  | _, _, [] => []
  | n, wire, r :: rs =>
    match sslRead (8192 - n) wire r with
    | .none bytes => (n + bytes.length) :: readEnds (n + bytes.length) (wire.drop bytes.length) rs
    | _ => []

/-- The bytes end with an empty line, of bare line feeds or not. -/
def EmptyLine (bs : List UInt8) : Prop := terminator <:+ bs ∨ [10, 10] <:+ bs

/-- The condition on where the reads of a call end: not behind two line feeds inside the header, and
if one of them reaches its end, one of those that do is behind an empty line. -/
structure AtEmptyLine (R : Response) (ends : List ℕ) : Prop where
  early : ∀ n ∈ ends, n < R.header.length → ¬ [10, 10] <:+ R.bytes.take n
  late : (∃ n ∈ ends, R.header.length ≤ n) →
    ∃ n ∈ ends, R.header.length ≤ n ∧ EmptyLine (R.bytes.take n)

/-- The condition on a call. -/
def Split (R : Response) (s : Rx) (outcomes : List SslRead) : Prop :=
  s.armed → AtEmptyLine R (readEnds s.buf.off.toNat s.wire outcomes)

instance (bs : List UInt8) : Decidable (EmptyLine bs) := inferInstanceAs (Decidable (_ ∨ _))

/-! ### The end of what has been received -/

/-- A word at the end, byte by byte. -/
lemma suffix_iff_getD {w l : List UInt8} : w <:+ l ↔ w.length ≤ l.length ∧
    ∀ k, 0 < k → k ≤ w.length → l.getD (l.length - k) 0 = w.getD (w.length - k) 0 := by
  rw [List.suffix_iff_eq_drop]
  have hget : ∀ k, (l.drop (l.length - w.length)).getD k 0 = l.getD (l.length - w.length + k) 0 := by
    intro k
    simp only [List.getD_eq_getElem?_getD, List.getElem?_drop]
  constructor
  · intro h
    have hlen := congrArg List.length h
    rw [List.length_drop] at hlen
    refine ⟨by omega, fun k h0 hk => ?_⟩
    have hpos : l.length - k = l.length - w.length + (w.length - k) := by omega
    rw [hpos, ← hget, ← h]
  · rintro ⟨hle, hall⟩
    refine List.ext_getElem (by rw [List.length_drop]; omega) fun k h1 h2 => ?_
    have hpos : l.length - w.length + k = l.length - (w.length - k) := by omega
    have hback : w.length - (w.length - k) = k := by omega
    rw [← List.getD_eq_getElem _ 0, ← List.getD_eq_getElem _ 0, hget, hpos,
      hall _ (by omega) (by omega), hback]

/-- **The check of the program** looks for an empty line at the end. -/
lemma headerComplete_iff {b : Buff} {n : ℕ} (hoff : b.off = n) (hn : n ≤ b.data.length) :
    sstpHttpHeaderComplete b = true ↔ EmptyLine (b.data.take n) := by
  have hlen : (b.data.take n).length = n := List.length_take_of_le hn
  have hbyte : ∀ k, 0 < k → k ≤ n → (b.data.take n).getD (n - k) 0 = byteBefore b k := by
    intro k h0 hk
    have hpos : ((n : ℤ) - k).toNat = n - k := by omega
    simp only [byteBefore, Buff.byte, hoff, hpos, List.getD_eq_getElem?_getD]
    rw [List.getElem?_take_of_lt (by omega)]
  have hword : ∀ w : List UInt8, w <:+ b.data.take n ↔ w.length ≤ n ∧
      ∀ k, 0 < k → k ≤ w.length → byteBefore b k = w.getD (w.length - k) 0 := by
    intro w
    rw [suffix_iff_getD, hlen]
    refine and_congr_right fun hle => forall_congr' fun k => imp_congr_right fun h0 =>
      imp_congr_right fun hk => ?_
    rw [hbyte k h0 (by omega)]
  unfold EmptyLine sstpHttpHeaderComplete
  rw [hword, hword, hoff]
  simp only [Bool.or_eq_true, Bool.and_eq_true, decide_eq_true_eq, beq_iff_eq]
  refine or_congr ⟨?_, ?_⟩ ⟨?_, ?_⟩
  · rintro ⟨⟨⟨⟨h4, hb4⟩, hb3⟩, hb2⟩, hb1⟩
    refine ⟨by exact_mod_cast h4, fun k h0 hk => ?_⟩
    change k ≤ 4 at hk
    interval_cases k <;> assumption
  · rintro ⟨h4, hall⟩
    exact ⟨⟨⟨⟨by exact_mod_cast h4, hall 4 (by decide) (by decide)⟩, hall 3 (by decide) (by decide)⟩,
      hall 2 (by decide) (by decide)⟩, hall 1 (by decide) (by decide)⟩
  · rintro ⟨⟨h2, hb2⟩, hb1⟩
    refine ⟨by exact_mod_cast h2, fun k h0 hk => ?_⟩
    change k ≤ 2 at hk
    interval_cases k <;> assumption
  · rintro ⟨h2, hall⟩
    exact ⟨⟨by exact_mod_cast h2, hall 2 (by decide) (by decide)⟩, hall 1 (by decide) (by decide)⟩

/-! ### One call -/

section Call

variable {R : Response}

/-- The bytes received stand in the buffer, the others on the wire. -/
structure Filled (R : Response) (n : ℕ) (b : Buff) (wire : List UInt8) : Prop where
  size : b.data.length = 8192
  off : b.off = n
  le : n ≤ R.bytes.length
  got : b.data.take n = R.bytes.take n
  wire_eq : wire = R.bytes.drop n

lemma Response.length_le (R : Response) : R.bytes.length ≤ 8192 := by
  unfold Response.bytes
  rw [List.length_append]
  exact R.fits

/-- What the passes of a call come to: the first end of a read behind an empty line, or the last
one. -/
def stop (R : Response) : ℕ → List ℕ → Bool × ℕ
  | n, [] => (false, n)
  | _, n :: ends => if EmptyLine (R.bytes.take n) then (true, n) else stop R n ends

lemma Filled.room {n : ℕ} {b : Buff} {wire : List UInt8} (h : Filled R n b wire) :
    b.max - b.off = 8192 - n := by
  rw [h.off]
  unfold Buff.max
  rw [h.size]
  rfl

/-- A pass that reads. -/
lemma filled_pass {n : ℕ} {b : Buff} {wire bytes : List UInt8} {r : SslRead}
    (h : Filled R n b wire) (hr : sslRead (8192 - n) wire r = .none bytes) :
    ∃ b', Filled R (n + bytes.length) b' (wire.drop bytes.length) ∧
      recvHttpPass b wire r =
        if EmptyLine (R.bytes.take (n + bytes.length)) then .done .okay b' (wire.drop bytes.length)
        else .again b' (wire.drop bytes.length) := by
  obtain ⟨-, hpos, hle, hsplit⟩ := sslRead_bytes hr
  have hmax : b.max - b.off = 8192 - n := h.room
  have hroom : n + bytes.length ≤ b.data.length := by
    rw [h.size]
    omega
  have hwrite : b.write b.off bytes = some { b with data := splice b.data n bytes } := by
    rw [write_of_le (by rw [h.off]; omega) (by rw [h.off]; unfold Buff.max; omega), h.off]
    rfl
  have htake : R.bytes.take (n + bytes.length) = R.bytes.take n ++ bytes := by
    rw [List.take_add, ← h.wire_eq, ← hsplit, List.take_left]
  have hfilled : Filled R (n + bytes.length)
      ⟨b.len, b.off + bytes.length, splice b.data n bytes⟩ (wire.drop bytes.length) := by
    refine ⟨?_, ?_, ?_, ?_, ?_⟩
    · rw [length_splice hroom, h.size]
    · rw [h.off]
      push_cast
      rfl
    · have hwire := congrArg List.length h.wire_eq
      have hbytes := congrArg List.length hsplit
      rw [List.length_drop] at hwire
      rw [List.length_append] at hbytes
      have hn := h.le
      omega
    · rw [take_splice (by omega), h.got, htake]
    · rw [h.wire_eq, List.drop_drop]
  refine ⟨_, hfilled, ?_⟩
  have hcheck := headerComplete_iff hfilled.off (by rw [hfilled.size]; omega)
  rw [hfilled.got] at hcheck
  unfold recvHttpPass
  rw [hmax, hr]
  dsimp only
  rw [hwrite]
  dsimp only
  exact if_congr hcheck rfl rfl

/-- A pass that does not read. -/
lemma pass_of_no_bytes {n : ℕ} {b : Buff} {wire : List UInt8} {r : SslRead} (h : Filled R n b wire)
    (hr : ∀ bytes, sslRead (8192 - n) wire r ≠ .none bytes) :
    ∃ status, status ≠ .okay ∧ recvHttpPass b wire r = .done status b wire := by
  have hmax : b.max - b.off = 8192 - n := h.room
  unfold recvHttpPass
  rw [hmax]
  cases hread : sslRead (8192 - n) wire r with
  | none bytes => exact absurd hread (hr bytes)
  | wantRead => exact ⟨.inprog, by decide, rfl⟩
  | wantWrite => exact ⟨.inprog, by decide, rfl⟩
  | error => exact ⟨.fail, by decide, rfl⟩

/-- **A call** comes to the first read that ends behind an empty line. -/
theorem call_stop {n : ℕ} {b : Buff} {wire : List UInt8} (h : Filled R n b wire)
    (outcomes : List SslRead) :
    Filled R (stop R n (readEnds n wire outcomes)).2 (sstpStreamRecvHttp b wire outcomes).2.1
        (sstpStreamRecvHttp b wire outcomes).2.2 ∧
      ((sstpStreamRecvHttp b wire outcomes).1 = some .okay ↔
        (stop R n (readEnds n wire outcomes)).1 = true) := by
  induction outcomes generalizing n b wire with
  | nil => exact ⟨h, by simp [sstpStreamRecvHttp, readEnds, stop]⟩
  | cons r rs ih =>
    by_cases hread : ∃ bytes, sslRead (8192 - n) wire r = .none bytes
    · obtain ⟨bytes, hr⟩ := hread
      obtain ⟨b', hfilled, hpass⟩ := filled_pass h hr
      simp only [sstpStreamRecvHttp, readEnds, hr, hpass, stop]
      split_ifs with hempty
      · exact ⟨hfilled, by simp⟩
      · exact ih hfilled
    · have hno : ∀ bytes, sslRead (8192 - n) wire r ≠ .none bytes :=
        fun bytes hr => hread ⟨bytes, hr⟩
      obtain ⟨status, hstatus, hpass⟩ := pass_of_no_bytes h hno
      have hends : readEnds n wire (r :: rs) = [] := by
        unfold readEnds
        split
        · next bytes hr => exact absurd hr (hno bytes)
        · rfl
      simp only [sstpStreamRecvHttp, hpass, hends, stop]
      exact ⟨h, by simp [hstatus]⟩

/-! ### Where the reads end -/

/-- Every read ends behind the one before. -/
lemma pairwise_readEnds (n : ℕ) (wire : List UInt8) (outcomes : List SslRead) :
    (n :: readEnds n wire outcomes).Pairwise (· < ·) := by
  induction outcomes generalizing n wire with
  | nil => simp [readEnds]
  | cons r rs ih =>
    unfold readEnds
    split
    · next bytes hr =>
      obtain ⟨-, hpos, -⟩ := sslRead_bytes hr
      have hrest := ih (n + bytes.length) (wire.drop bytes.length)
      refine List.pairwise_cons.mpr ⟨fun m hm => ?_, hrest⟩
      rcases List.mem_cons.mp hm with rfl | hm
      · omega
      · have hlt := (List.pairwise_cons.mp hrest).1 m hm
        omega
    · exact List.pairwise_singleton _ _

variable {n : ℕ} {ends : List ℕ}

/-- Inside the header an empty line is one of bare line feeds. -/
lemma emptyLine_early (h : n < R.header.length) :
    EmptyLine (R.bytes.take n) ↔ [10, 10] <:+ R.bytes.take n := by
  have htake : R.bytes.take n = R.header.take n := List.take_append_of_le_length h.le
  unfold EmptyLine
  rw [htake]
  exact or_iff_right (R.first n h)

lemma stop_fst : (stop R n ends).1 = true ↔ ∃ m ∈ ends, EmptyLine (R.bytes.take m) := by
  induction ends generalizing n with
  | nil => simp [stop]
  | cons m ends ih =>
    unfold stop
    split_ifs with hempty
    · simp [hempty]
    · simp [ih, hempty]

lemma le_stop (h : (n :: ends).Pairwise (· < ·)) : n ≤ (stop R n ends).2 := by
  induction ends generalizing n with
  | nil => exact le_refl n
  | cons m ends ih =>
    obtain ⟨hlt, hrest⟩ := List.pairwise_cons.mp h
    have hm := hlt m List.mem_cons_self
    unfold stop
    split_ifs with hempty
    · exact hm.le
    · exact hm.le.trans (ih hrest)

/-- **The header is seen where it ends**, exactly if the reads end at empty lines as they should. -/
theorem stop_iff (h : (n :: ends).Pairwise (· < ·)) (hn : n < R.header.length) :
    ((stop R n ends).1 = true ↔ R.header.length ≤ (stop R n ends).2) ↔ AtEmptyLine R ends := by
  induction ends generalizing n with
  | nil =>
    refine iff_of_true ?_ ⟨fun m hm => (List.not_mem_nil hm).elim, fun ⟨m, hm, _⟩ => by cases hm⟩
    simp [stop, hn]
  | cons m ends ih =>
    obtain ⟨-, hrest⟩ := List.pairwise_cons.mp h
    have hlater : ∀ k ∈ ends, m < k := (List.pairwise_cons.mp hrest).1
    by_cases hm : m < R.header.length
    · by_cases hempty : EmptyLine (R.bytes.take m)
      · -- the call succeeds inside the header
        have hstop : stop R n (m :: ends) = (true, m) := if_pos hempty
        rw [hstop]
        refine iff_of_false (fun hiff => ?_) fun hends => ?_
        · exact absurd (hiff.mp rfl) (not_le.mpr hm)
        · exact hends.early m List.mem_cons_self hm ((emptyLine_early hm).mp hempty)
      · have hstop : stop R n (m :: ends) = stop R m ends := if_neg hempty
        rw [hstop, ih hrest hm]
        constructor
        · intro hends
          refine ⟨fun k hk hlt => ?_, ?_⟩
          · rcases List.mem_cons.mp hk with rfl | hk
            · rwa [← emptyLine_early hlt]
            · exact hends.early k hk hlt
          · rintro ⟨k, hk, hle⟩
            rcases List.mem_cons.mp hk with rfl | hk
            · exact absurd hle (not_le.mpr hm)
            · obtain ⟨j, hj, hends⟩ := hends.late ⟨k, hk, hle⟩
              exact ⟨j, List.mem_cons_of_mem _ hj, hends⟩
        · intro hends
          refine ⟨fun k hk => hends.early k (List.mem_cons_of_mem _ hk), ?_⟩
          rintro ⟨k, hk, hle⟩
          obtain ⟨j, hj, hjle, hjempty⟩ := hends.late ⟨k, List.mem_cons_of_mem _ hk, hle⟩
          rcases List.mem_cons.mp hj with rfl | hj
          · exact absurd hjle (not_le.mpr hm)
          · exact ⟨j, hj, hjle, hjempty⟩
    · -- the header is complete: the rest of the call has to come to an empty line
      have hall : ∀ k ∈ m :: ends, R.header.length ≤ k := by
        intro k hk
        rcases List.mem_cons.mp hk with rfl | hk
        · exact not_lt.mp hm
        · exact (not_lt.mp hm).trans (hlater k hk).le
      have hle : R.header.length ≤ (stop R n (m :: ends)).2 := by
        unfold stop
        split_ifs
        · exact not_lt.mp hm
        · exact (not_lt.mp hm).trans (le_stop hrest)
      rw [iff_true_right hle, stop_fst]
      constructor
      · rintro ⟨k, hk, hempty⟩
        exact ⟨fun j hj hlt => absurd (hall j hj) (not_le.mpr hlt),
          fun _ => ⟨k, hk, hall k hk, hempty⟩⟩
      · intro hends
        obtain ⟨k, hk, -, hempty⟩ := hends.late ⟨m, List.mem_cons_self, not_lt.mp hm⟩
        exact ⟨k, hk, hempty⟩

end Call

/-! ### Whole runs -/

section Run

variable (R : Response)

/-- As long as the event is set, the header is not complete. -/
def Waits (s : Rx) : Prop :=
  s.armed → ∃ n, Filled R n s.buf s.wire ∧ n < R.header.length

variable {R} {s : Rx}

lemma split_iff {n : ℕ} (h : Filled R n s.buf s.wire) (harmed : s.armed = true)
    (outcomes : List SslRead) :
    Split R s outcomes ↔ AtEmptyLine R (readEnds n s.wire outcomes) := by
  have hoff : s.buf.off.toNat = n := by
    rw [h.off]
    rfl
  unfold Split
  rw [hoff]
  exact ⟨fun hs => hs harmed, fun hs _ => hs⟩

/-- **One call** does what is promised exactly if its reads end as they should. -/
lemma recognised_step {n : ℕ} (h : Filled R n s.buf s.wire) (hn : n < R.header.length)
    (harmed : s.armed = true) (outcomes : List SslRead) :
    Recognised R (step s outcomes).2 ↔ Split R s outcomes := by
  obtain ⟨hfilled, hokay⟩ := call_stop h outcomes
  rw [split_iff h harmed, ← stop_iff (pairwise_readEnds n s.wire outcomes) hn, ← hokay]
  unfold Recognised step
  rw [if_pos harmed]
  dsimp only
  rw [List.forall_mem_singleton]
  dsimp only
  rw [hfilled.off, Nat.cast_le]

lemma waits_step (h : Waits R s) {outcomes : List SslRead} (hsplit : Split R s outcomes) :
    Waits R (step s outcomes).1 := by
  by_cases harmed : s.armed
  · obtain ⟨n, hfilled, hn⟩ := h harmed
    have hrecognised := (recognised_step hfilled hn harmed outcomes).mpr hsplit
    obtain ⟨hfilled', -⟩ := call_stop hfilled outcomes
    unfold Recognised step at hrecognised
    unfold step
    rw [if_pos harmed] at hrecognised ⊢
    rw [List.forall_mem_singleton] at hrecognised
    intro hstays
    have hinprog : (sstpStreamRecvHttp s.buf s.wire outcomes).1 = some .inprog :=
      of_decide_eq_true hstays
    refine ⟨_, hfilled', ?_⟩
    by_contra hle
    rw [hfilled'.off, Nat.cast_le] at hrecognised
    have hokay := hrecognised.mpr (not_lt.mp hle)
    rw [hinprog] at hokay
    cases hokay
  · unfold step
    rw [if_neg harmed]
    exact h

/-- The response is about to be received. -/
lemma filled_setrecv (data : List UInt8) (hdata : data.length = 8192) :
    Filled R 0 (sstpStreamSetrecv data R.bytes).buf (sstpStreamSetrecv data R.bytes).wire :=
  ⟨hdata, rfl, Nat.zero_le _, rfl, rfl⟩

lemma header_pos (R : Response) : 0 < R.header.length :=
  lt_of_lt_of_le (by decide) R.ends.length_le

/-- **The response is recognised**, in the call that receives the end of its header, exactly when
the reads of every call end at empty lines as they should. -/
theorem recognised_iff (R : Response) (data : { d : List UInt8 // d.length = 8192 })
    (calls : List (List SslRead)) :
    Recognised R (run step (sstpStreamSetrecv data R.bytes) calls).2 ↔
      Along step (Split R) (sstpStreamSetrecv data R.bytes) calls := by
  refine run_good_iff (h := []) (fun s returned => Waits R s ∧ Recognised R returned) (Recognised R)
    (fun _ _ h => h.2) ?_ ?_ ?_ ⟨fun _ => ⟨0, filled_setrecv data.1 data.2, header_pos R⟩, ?_⟩
  · intro returned new h c hc
    exact h c (List.mem_append_left _ hc)
  · rintro s returned outcomes ⟨hwaits, hgood⟩ hsplit
    refine ⟨waits_step hwaits hsplit, fun c hc => ?_⟩
    rcases List.mem_append.mp hc with hc | hc
    · exact hgood c hc
    · by_cases harmed : s.armed
      · obtain ⟨n, hfilled, hn⟩ := hwaits harmed
        exact (recognised_step hfilled hn harmed outcomes).mpr hsplit c hc
      · unfold step at hc
        rw [if_neg harmed] at hc
        cases hc
  · rintro s returned outcomes ⟨hwaits, -⟩ hsplit hgood
    by_cases harmed : s.armed
    · obtain ⟨n, hfilled, hn⟩ := hwaits harmed
      exact hsplit ((recognised_step hfilled hn harmed outcomes).mp
        fun c hc => hgood c (List.mem_append_right _ hc))
    · exact hsplit fun harmed' => absurd harmed' harmed
  · exact fun c hc => (List.not_mem_nil hc).elim

/-- `HTTP/1.1 404` with a body of two bytes. -/
def notFound : Response where
  header := [72, 84, 84, 80, 47, 49, 46, 49, 32, 52, 48, 52, 13, 10, 13, 10]
  rest := [78, 111]
  ends := by decide
  first := by decide
  fits := by decide

/-- The response comes with its body in one `SSL_read`: the call does not see the header. -/
theorem notFound_not_recognised : ¬ Recognised notFound
    (run step (sstpStreamSetrecv (List.replicate 8192 0) notFound.bytes) [[.avail 17]]).2 := by
  have hfilled := filled_setrecv (R := notFound) (List.replicate 8192 0) (List.length_replicate)
  rw [run_cons, run_nil, List.append_nil, recognised_step hfilled (by decide) rfl,
    split_iff hfilled rfl]
  have hread : readEnds 0 (sstpStreamSetrecv (List.replicate 8192 0) notFound.bytes).wire
      [.avail 17] = [18] := rfl
  rw [hread]
  intro hends
  obtain ⟨n, hn, -, hempty⟩ := hends.late ⟨18, by decide, by decide⟩
  cases List.mem_singleton.mp hn
  revert hempty
  decide

end Run

end SstpClient.HttpResponse
