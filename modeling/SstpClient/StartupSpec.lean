import SstpClient.Startup

/-!
What is promised of the startup, what its loops do, and how a history of it grows.
-/

namespace SstpClient.Startup

open SstpClient.Lib.Bytes SstpClient.Lib.CString SstpClient.Lib.Machine SstpClient.Lib.Handler
open SstpClient.Buffer SstpClient.BuffPrint SstpClient.Http SstpClient.HttpResponse
open SstpClient.Stream (Interest SslWrite)
open SstpClient.Recv (SslRead)
open SstpClient.Tls (Library Params Peer Verify)

variable {Cert : Type}

/-! ### What is promised -/

def writtenOf (h : List (Event Cert)) : List UInt8 :=
  h.flatMap fun
    | .wrote bytes => bytes
    | _ => []

def receivedOf (h : List (Event Cert)) : List UInt8 :=
  h.flatMap fun
    | .received bytes => bytes
    | _ => []

def tlsOf (h : List (Event Cert)) : List (Tls.Event Cert) :=
  h.filterMap fun
    | .tls e => some e
    | _ => none

section Promise

variable (C : Config Cert)

/-- The request, as it stands in the buffer of the HTTP context. -/
def requestOf : List UInt8 :=
  ((sstpHttpSendHello (sstpBuffCreate 8192) C.server C.uuid).map fun r =>
    StreamSpec.remaining r.2).getD []

/-- The memory of that buffer. -/
def requestData : List UInt8 :=
  ((sstpHttpSendHello (sstpBuffCreate 8192) C.server C.uuid).map fun r => r.2.data).getD []

/-- A response is read into it over the request. -/
def overRequest (bytes : List UInt8) : List UInt8 := bytes ++ (requestData C).drop bytes.length

/-- A response that is taken for an upgrade. The number is read from the buffer; it is one of the
response if there is anything but white space where it should stand. -/
structure Upgraded (bytes : List UInt8) : Prop where
  ended : EmptyLine bytes
  code : statusCode (overRequest C bytes) = 200
  own : (∃ c ∈ bytes.drop 9, isSpace c = false) → statusCode bytes = 200

/-- In system mode the trust store has accepted the chain. -/
def TrustAsked (h : List (Event Cert)) : Prop :=
  C.params.tlsMode = .system → ∃ ders, .tls (.secTrust ders C.params.verifyHost (.ok ())) ∈ h

/-- What must have come before an event. -/
def Cause (past : List (Event Cert)) : Event Cert → Prop
  | .connected status => (∀ status', .connected status' ∉ past) ∧
      (status = .connected → ∃ h, past = h ++ [.handshook (.done 1)])
  | .wrote bytes => .connected .connected ∈ past ∧ TrustAsked C past ∧
      writtenOf past ++ bytes <+: requestOf C
  | .received _ => .connected .connected ∈ past ∧ writtenOf past = requestOf C
  | .httpDone status => (∀ status', .httpDone status' ∉ past) ∧
      (status = .okay → Upgraded C (receivedOf past))
  | .tls .stateCreate => .httpDone .okay ∈ past
  | _ => True

/-- An event comes before any failure, and has its cause. -/
structure Justified (past : List (Event Cert)) (e : Event Cert) : Prop where
  alive : ∀ f, .tls (.fail f) ∉ past
  cause : Cause C past e

/-- The events of the history that concern trust are some that a run of the trust decision begins
with. -/
def Refines (h : List (Event Cert)) : Prop :=
  ∃ inputs, tlsOf h <+: (run (Tls.step C.lib C.params C.peer) .connecting inputs).2

end Promise

/-! ### The loops -/

/-- **The writes** take the first bytes of what is left of the buffer. -/
lemma writeLoop_spec {b : Buff} (h0 : 0 ≤ b.off) (rs : List SslWrite) :
    (writeLoop b rs).2.2 ++ StreamSpec.remaining (writeLoop b rs).2.1 = StreamSpec.remaining b ∧
      ((writeLoop b rs).1 = .done .okay → StreamSpec.remaining (writeLoop b rs).2.1 = []) ∧
      0 ≤ (writeLoop b rs).2.1.off ∧ (writeLoop b rs).2.1.data = b.data ∧
      ∀ status, (writeLoop b rs).1 = .done status → status = .okay ∨ status = .fail := by
  induction rs generalizing b with
  | nil => exact ⟨by simp [writeLoop], by simp [writeLoop], h0, rfl, by simp [writeLoop]⟩
  | cons r rs ih =>
    cases r with
    | written n =>
      obtain ⟨k, hk⟩ : ∃ k, k = min n (b.len - b.off).toNat := ⟨_, rfl⟩
      have hsplit : (b.data.drop b.off.toNat).take k ++
          StreamSpec.remaining { b with off := b.off + k } = StreamSpec.remaining b := by
        have hoff : (b.off + k).toNat = b.off.toNat + k := by omega
        have hlen : (b.len - b.off).toNat = k + (b.len - (b.off + k)).toNat := by omega
        simp only [StreamSpec.remaining, hoff, hlen]
        rw [List.take_add, List.drop_drop]
      simp only [writeLoop, ← hk]
      split_ifs with hmore
      · obtain ⟨h1, h2, h3, h4, h5⟩ := ih (b := { b with off := b.off + k }) (by simp only; omega)
        refine ⟨?_, h2, h3, h4, h5⟩
        rw [List.append_assoc, h1, hsplit]
      · refine ⟨hsplit, fun _ => ?_, by simp only; omega, rfl, by simp⟩
        have hend : (b.len - (b.off + k)).toNat = 0 := by
          omega
        simp [StreamSpec.remaining, hend]
    | wantRead => exact ⟨by simp [writeLoop], by simp [writeLoop], h0, rfl, by simp [writeLoop]⟩
    | wantWrite => exact ⟨by simp [writeLoop], by simp [writeLoop], h0, rfl, by simp [writeLoop]⟩
    | error => exact ⟨by simp [writeLoop], by simp [writeLoop], h0, rfl, by simp [writeLoop]⟩

lemma printAll_spec {b : Buff} (h : Valid b) (ss : List (List UInt8)) :
    ∃ status b', printAll b ss = some (status, b') ∧ status ≠ .inprog ∧ b'.off = b.off := by
  induction ss generalizing b with
  | nil => exact ⟨.okay, b, rfl, by decide, rfl⟩
  | cons s ss ih =>
    obtain ⟨d, -, -, heq⟩ := buffPrint_eq (s := s) h
    split_ifs at heq with hroom
    · have hvalid := (allOrNothing_iff (p := ⟨b, s, .okay, ⟨b.len + s.length, b.off, d⟩⟩) h heq).1.1
      obtain ⟨status, b', hrest, hstatus, hoff⟩ := ih hvalid
      exact ⟨status, b', by simpa [printAll, heq] using hrest, hstatus, hoff⟩
    · exact ⟨.overflow, ⟨b.len, b.off, d⟩, by simp [printAll, heq], by decide, rfl⟩

lemma sendHello_spec (server uuid : List UInt8) :
    ∃ status b, sstpHttpSendHello (sstpBuffCreate 8192) server uuid = some (status, b) ∧
      status ≠ .inprog ∧ b.off = 0 := by
  have hvalid : Valid (sstpBuffReset (sstpBuffCreate 8192)) :=
    ⟨le_rfl, max_nonneg _, by rw [max_reset, max_create]; decide⟩
  exact printAll_spec hvalid _

/-- **A call that receives**: the bytes it has got are behind the others in the buffer, and it is
done behind an empty line. -/
lemma recvHttp_spec {b : Buff} {n : ℕ} (hoff : b.off = n) (hn : n ≤ b.data.length)
    (wire : List UInt8) (rs : List SslRead) :
    ∃ status b' wire' bytes, sstpStreamRecvHttp b wire rs = (some status, b', wire') ∧
      wire = bytes ++ wire' ∧ b'.off = (n + bytes.length : ℕ) ∧
      n + bytes.length ≤ b.data.length ∧ b'.data = splice b.data n bytes ∧
      (status = .okay → EmptyLine (b.data.take n ++ bytes)) := by
  induction rs generalizing b n wire with
  | nil => exact ⟨.inprog, b, wire, [], rfl, rfl, by simp [hoff], by simpa, by simp, nofun⟩
  | cons r rs ih =>
    have hstay : ∀ status, status ≠ .okay → recvHttpPass b wire r = .done status b wire →
        ∃ status b' wire' bytes, sstpStreamRecvHttp b wire (r :: rs) = (some status, b', wire') ∧
          wire = bytes ++ wire' ∧ b'.off = (n + bytes.length : ℕ) ∧
          n + bytes.length ≤ b.data.length ∧ b'.data = splice b.data n bytes ∧
          (status = .okay → EmptyLine (b.data.take n ++ bytes)) := by
      intro status hstatus hpass
      refine ⟨status, b, wire, [], ?_, rfl, by simp [hoff], by simpa, by simp,
        fun h => absurd h hstatus⟩
      simp only [sstpStreamRecvHttp, hpass]
    cases hread : Recv.sslRead (b.max - b.off) wire r with
    | none bytes =>
      obtain ⟨-, -, hle, hsplit⟩ := Recv.sslRead_bytes hread
      have hroom : n + bytes.length ≤ b.data.length := by
        rw [hoff] at hle
        unfold Buff.max at hle
        omega
      have hwrite : b.write b.off bytes = some { b with data := splice b.data n bytes } := by
        rw [write_of_le (by omega) (by unfold Buff.max; omega), hoff]
        rfl
      obtain ⟨b₁, hb₁⟩ : ∃ b₁ : Buff, b₁ =
          ⟨b.len, b.off + bytes.length, splice b.data n bytes⟩ := ⟨_, rfl⟩
      have hoff₁ : b₁.off = (n + bytes.length : ℕ) := by
        rw [hb₁]
        simp [hoff]
      have hlen₁ : b₁.data.length = b.data.length := by
        rw [hb₁]
        exact length_splice hroom
      have htake₁ : b₁.data.take (n + bytes.length) = b.data.take n ++ bytes := by
        rw [hb₁]
        exact take_splice (by omega)
      have hpass : recvHttpPass b wire r =
          if sstpHttpHeaderComplete b₁ then .done .okay b₁ (wire.drop bytes.length)
          else .again b₁ (wire.drop bytes.length) := by
        simp only [recvHttpPass, hread, hwrite, hb₁]
      by_cases hcomplete : sstpHttpHeaderComplete b₁ = true
      · refine ⟨.okay, b₁, wire.drop bytes.length, bytes, ?_, hsplit.symm, hoff₁, hroom, by rw [hb₁],
          fun _ => htake₁ ▸ (headerComplete_iff hoff₁ (by omega)).mp hcomplete⟩
        simp only [sstpStreamRecvHttp, hpass, if_pos hcomplete]
      · obtain ⟨status, b', wire', more, hcall, hwire, hoff', hle', hdata', hend⟩ :=
          ih hoff₁ (by omega) (wire.drop bytes.length)
        have hadd : n + (bytes ++ more).length = n + bytes.length + more.length := by
          rw [List.length_append]
          omega
        refine ⟨status, b', wire', bytes ++ more, ?_, ?_, ?_, ?_, ?_, ?_⟩
        · simp only [sstpStreamRecvHttp, hpass, if_neg hcomplete]
          exact hcall
        · rw [List.append_assoc, ← hwire, hsplit]
        · rw [hadd, hoff']
        · rw [hadd, ← hlen₁]
          exact hle'
        · rw [hdata', hb₁, splice_splice hroom]
        · rw [htake₁, List.append_assoc] at hend
          exact hend
    | wantRead => exact hstay .inprog (by decide) (by simp only [recvHttpPass, hread])
    | wantWrite => exact hstay .inprog (by decide) (by simp only [recvHttpPass, hread])
    | error => exact hstay .fail (by decide) (by simp only [recvHttpPass, hread])

/-! ### The number of the response -/

/-- The number ends in the response if anything but white space is there, for a line feed ends it. -/
lemma statusCode_append {bytes : List UInt8} (hend : EmptyLine bytes)
    (hown : ∃ c ∈ bytes.drop 9, isSpace c = false) (tail : List UInt8) :
    statusCode (bytes ++ tail) = statusCode bytes := by
  obtain ⟨x, hx, hspace⟩ := hown
  have hlen : 9 < bytes.length := by
    by_contra hle
    rw [List.drop_eq_nil_of_le (by omega)] at hx
    cases hx
  obtain ⟨w, hw⟩ : ∃ w, bytes.drop 9 = w ++ [10] := by
    obtain ⟨v, rfl⟩ : ∃ v, bytes = v ++ [10] := by
      rcases hend with ⟨u, rfl⟩ | ⟨u, rfl⟩
      · exact ⟨u ++ [13, 10, 13], by simp [terminator]⟩
      · exact ⟨u ++ [10], by simp⟩
    refine ⟨v.drop 9, List.drop_append_of_le_length ?_⟩
    rw [List.length_append, List.length_singleton] at hlen
    omega
  have hstr : strtoul (cstr (w ++ [10] ++ tail)) = strtoul (cstr (w ++ [10])) := by
    by_cases hzero : (0 : UInt8) ∈ w
    · obtain ⟨p, q, rfl, hp⟩ := List.eq_append_cons_of_mem hzero
      simp only [List.append_assoc, List.cons_append]
      rw [cstr_append hp, cstr_append hp]
    · have hall : 0 ∉ w ++ [10] := by simpa using hzero
      have hlong : cstr (w ++ [10] ++ tail) = w ++ 10 :: cstr tail := by
        rw [cstr, List.takeWhile_append_of_pos fun y hy => ?_, List.append_assoc]
        · rfl
        · simp only [ne_eq, decide_not, Bool.not_eq_true', decide_eq_false_iff_not]
          rintro rfl
          exact hall hy
      rw [hlong, cstr_of_notMem hall]
      have hx' : x ∈ w := by
        rw [hw] at hx
        rcases List.mem_append.mp hx with hx | hx
        · exact hx
        · rw [List.mem_singleton.mp hx] at hspace
          cases hspace
      exact strtoul_line ⟨x, hx', hspace⟩ (by decide) _ _
  unfold statusCode
  rw [List.drop_append_of_le_length hlen.le, hw, hstr]

variable {C : Config Cert} in
lemma upgraded_of_code {bytes : List UInt8} (hend : EmptyLine bytes)
    (hcode : statusCode (overRequest C bytes) = 200) : Upgraded C bytes :=
  ⟨hend, hcode, fun hown => (statusCode_append hend hown _).symm.trans hcode⟩

lemma splice_overRequest (C : Config Cert) (bytes more : List UInt8) :
    splice (overRequest C bytes) bytes.length more = overRequest C (bytes ++ more) := by
  unfold overRequest splice
  rw [List.take_left' rfl, ← List.drop_drop, List.drop_left' rfl, List.drop_drop,
    List.length_append, List.append_assoc]

/-! ### The history -/

section History

variable {C : Config Cert} {h h' : List (Event Cert)} {s : Session} {phase : Tls.Phase}
  {t u : List (Tls.Event Cert)}

@[simp] lemma writtenOf_append : writtenOf (h ++ h') = writtenOf h ++ writtenOf h' :=
  List.flatMap_append

@[simp] lemma receivedOf_append : receivedOf (h ++ h') = receivedOf h ++ receivedOf h' :=
  List.flatMap_append

@[simp] lemma tlsOf_append : tlsOf (h ++ h') = tlsOf h ++ tlsOf h' := List.filterMap_append

@[simp] lemma writtenOf_tls : writtenOf (u.map .tls) = [] := by
  induction u with
  | nil => rfl
  | cons e u ih => exact ih

@[simp] lemma receivedOf_tls : receivedOf (u.map .tls) = [] := by
  induction u with
  | nil => rfl
  | cons e u ih => exact ih

@[simp] lemma tlsOf_tls : tlsOf (u.map .tls) = u := by
  induction u with
  | nil => rfl
  | cons e u ih => exact congrArg (e :: ·) ih

/-- What is promised of a history. -/
structure Good (C : Config Cert) (h : List (Event Cert)) : Prop where
  justified : Each (Justified C) h
  refines : Refines C h

/-- The session has not failed, and the trust decision stands in a phase, with some events of its
next step. -/
structure Past (C : Config Cert) (phase : Tls.Phase) (t : List (Tls.Event Cert))
    (h : List (Event Cert)) : Prop where
  alive : ∀ f, .tls (.fail f) ∉ h
  trust : ∃ inputs es, run (Tls.step C.lib C.params C.peer) .connecting inputs = (phase, es) ∧
    tlsOf h = es ++ t

/-- An event that is not about trust. -/
lemma Good.concat {e : Event Cert} (hg : Good C h) (hp : Past C phase t h) (he : tlsOf [e] = [])
    (hc : Cause C h e) : Good C (h ++ [e]) ∧ Past C phase t (h ++ [e]) := by
  have htls : tlsOf (h ++ [e]) = tlsOf h := by rw [tlsOf_append, he, List.append_nil]
  refine ⟨⟨each_concat hg.justified ⟨hp.alive, hc⟩, ?_⟩, ?_, ?_⟩
  · unfold Refines
    rw [htls]
    exact hg.refines
  · intro f hmem
    rcases List.mem_append.mp hmem with hold | hnew
    · exact hp.alive f hold
    · rw [List.mem_singleton] at hnew
      rw [← hnew] at he
      cases he
  · rw [htls]
    exact hp.trust

/-- **Events of one step** of the trust decision, the last of which may be its failure. -/
lemma Good.steps (hg : Good C h) (hp : Past C phase t h)
    (hu : ∃ i, t ++ u <+: (Tls.step C.lib C.params C.peer phase i).2)
    (hfail : ∀ a f b, u = a ++ .fail f :: b → b = [])
    (hcreate : .stateCreate ∈ u → .httpDone .okay ∈ h) :
    Good C (h ++ u.map .tls) ∧
      ((∀ f, .fail f ∉ u) → Past C phase (t ++ u) (h ++ u.map .tls)) := by
  induction u generalizing t h with
  | nil =>
    rw [List.map_nil, List.append_nil, List.append_nil]
    exact ⟨hg, fun _ => hp⟩
  | cons e u ih =>
    obtain ⟨i, hi⟩ := hu
    have hsplit : t ++ e :: u = t ++ [e] ++ u := List.append_cons t e u
    have htls : tlsOf (h ++ [.tls e]) = tlsOf h ++ [e] := tlsOf_append
    have hcause : Cause C h (.tls e) := by
      cases e with
      | stateCreate => exact hcreate List.mem_cons_self
      | _ => trivial
    obtain ⟨inputs, es, hrun, hes⟩ := hp.trust
    have hgood : Good C (h ++ [.tls e]) := by
      refine ⟨each_concat hg.justified ⟨hp.alive, hcause⟩, inputs ++ [i], ?_⟩
      rw [htls, hes, run_append, hrun, List.append_assoc]
      refine (List.prefix_append_right_inj es).mpr ?_
      rw [hsplit] at hi
      simpa [run_cons] using (List.prefix_append (t ++ [e]) u).trans hi
    by_cases he : ∃ f, e = .fail f
    · obtain ⟨f, rfl⟩ := he
      obtain rfl := hfail [] f u rfl
      exact ⟨hgood, fun hnone => absurd List.mem_cons_self (hnone f)⟩
    · have hpast : Past C phase (t ++ [e]) (h ++ [.tls e]) := by
        refine ⟨fun f hmem => ?_, inputs, es, hrun, by rw [htls, hes, List.append_assoc]⟩
        simp only [List.mem_append, List.mem_singleton, Event.tls.injEq] at hmem
        rcases hmem with hold | hnew
        · exact hp.alive f hold
        · exact he ⟨f, hnew.symm⟩
      obtain ⟨h1, h2⟩ := ih hgood hpast ⟨i, by rwa [hsplit] at hi⟩
        (fun a f b hab => hfail (e :: a) f b (congrArg (e :: ·) hab))
        (fun hmem => List.mem_append_left _ (hcreate (List.mem_cons_of_mem _ hmem)))
      rw [List.map_cons, List.append_cons, hsplit]
      exact ⟨h1, fun hnone => h2 fun f hf => hnone f (List.mem_cons_of_mem _ hf)⟩

/-- The step is complete. -/
lemma Past.next {phase' : Tls.Phase} (hp : Past C phase t h) {i : Tls.Input Cert}
    (hi : Tls.step C.lib C.params C.peer phase i = (phase', t)) : Past C phase' [] h := by
  obtain ⟨inputs, es, hrun, hes⟩ := hp.trust
  refine ⟨hp.alive, inputs ++ [i], es ++ t, ?_, by rw [hes, List.append_nil]⟩
  rw [run_append, hrun]
  simp [run_cons, hi]

end History

end SstpClient.Startup
