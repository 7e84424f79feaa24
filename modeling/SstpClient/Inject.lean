import SstpClient.Lib.Bytes
import SstpClient.Lib.Machine
import SstpClient.Lib.Records

/-!
Handing IP packets from the application's thread to the event loop, `sstp-ios.c`.

`sstp_ios_session_write_ip` writes a header and a packet into a non-blocking stream socket,
`ios_inject_cb` reads a header and a packet from its other end. The two run on different
threads: each `write` and each `read` is one step, and the steps come in any order.
-/

namespace SstpClient.Inject

open SstpClient.Lib.Bytes SstpClient.Lib.Machine SstpClient.Lib.Records

/-! ### The two ends of the socket -/

/-- Where `sstp_ios_session_write_ip` stands: not called, or before its second `write`. -/
inductive Writer
  | idle
  | payload (packet : List UInt8)
  deriving DecidableEq

/-- The bytes written and not yet read, and where the two sides stand. The reader stands
before a header, or before a packet of the length it has read. -/
structure Session where
  socket : List UInt8
  writer : Writer
  reader : Option ℕ
  deriving DecidableEq

inductive Input
  /-- `sstp_ios_session_write_ip` is called; its first `write` transfers `n` bytes at most. -/
  | writeHeader (packet : List UInt8) (n : ℕ)
  /-- Its second `write` transfers `n` bytes at most. -/
  | writePayload (n : ℕ)
  /-- The next `read` of `ios_inject_cb`. -/
  | read

inductive Event
  /-- `sstp_ios_session_write_ip` returns 0. -/
  | accepted (packet : List UInt8)
  | refused (packet : List UInt8)
  /-- `sstp_pppd_send_ip` is called. -/
  | sent (packet : List UInt8)
  deriving DecidableEq

/-- `sstp_ios_session_write_ip` up to its first `write`: a short or failed one ends it. -/
def writeIpHeader (s : Session) (packet : List UInt8) (n : ℕ) : Session × List Event :=
  if packet.length = 0 ∨ 2000 < packet.length then (s, [.refused packet])
  else
    let written := (toBe32 packet.length).take n
    let s := { s with socket := s.socket ++ written }
    if written.length ≠ 4 then (s, [.refused packet]) else ({ s with writer := .payload packet }, [])

/-- Its second `write`. -/
def writeIpPayload (s : Session) (packet : List UInt8) (n : ℕ) : Session × List Event :=
  let written := packet.take n
  let s := { s with socket := s.socket ++ written, writer := .idle }
  if written.length ≠ packet.length then (s, [.refused packet]) else (s, [.accepted packet])

/-- One `read` of `ios_inject_cb`: what is there, as far as it is asked for. After a short or
failed one the callback returns, and begins with a header when it is called again. -/
def injectRead (s : Session) : Session × List Event :=
  match s.reader with
  | none =>
    let s' := { s with socket := s.socket.drop 4 }
    match s.socket.take 4 with
    | [h0, h1, h2, h3] =>
      let len := be32 h0 h1 h2 h3
      if len = 0 ∨ 2048 < len then (s', []) else ({ s' with reader := some len }, [])
    | _ => (s', [])
  | some len =>
    let packet := s.socket.take len
    let s' := { s with socket := s.socket.drop len, reader := none }
    if packet.length ≠ len then (s', []) else (s', [.sent packet])

def step (s : Session) : Input → Session × List Event
  | .writeHeader packet n =>
    match s.writer with
    | .idle => writeIpHeader s packet n
    | .payload _ => (s, [])
  | .writePayload n =>
    match s.writer with
    | .idle => (s, [])
    | .payload packet => writeIpPayload s packet n
  | .read => injectRead s

def init : Session := ⟨[], .idle, none⟩

/-! ### Loss-free injection -/

def acceptedPackets (events : List Event) : List (List UInt8) :=
  events.filterMap fun
    | .accepted packet => some packet
    | _ => none

def sentPackets (events : List Event) : List (List UInt8) :=
  events.filterMap fun
    | .sent packet => some packet
    | _ => none

/-- The packets passed on are those accepted, each once and in order, and none is missing when
all bytes have been read. -/
structure LossFree (inputs : List Input) : Prop where
  inOrder : sentPackets (run step init inputs).2 <+: acceptedPackets (run step init inputs).2
  complete : (run step init inputs).1.socket = [] →
    sentPackets (run step init inputs).2 = acceptedPackets (run step init inputs).2

/-- The unread bytes, with the header of the packet the reader is about to read. -/
def unread (s : Session) : List UInt8 :=
  match s.reader with
  | none => s.socket
  | some len => toBe32 len ++ s.socket

/-- A packet `sstp_ios_session_write_ip` lets through. -/
def Sized (packet : List UInt8) : Prop := 0 < packet.length ∧ packet.length ≤ 2000

/-- The bytes are those of whole packets. -/
def Whole (bytes : List UInt8) : Prop :=
  ∃ packets : List (List UInt8), (∀ p ∈ packets, Sized p) ∧ bytes = encode toBe32 packets

/-- The condition on a step: a `write` that transfers anything finds the unread bytes whole, but
for the header the same call has written. -/
def Framed (s : Session) : Input → Prop
  | .writeHeader packet n => s.writer = .idle → Sized packet → 0 < n → Whole (unread s)
  | .writePayload n => ∀ packet, s.writer = .payload packet → 0 < n →
      ∃ whole, Whole whole ∧ unread s = whole ++ toBe32 packet.length
  | .read => True

/-! ### What stands in the socket -/

lemma isHeader : IsHeader toBe32 4 2048 :=
  ⟨by decide, length_toBe32, fun _ _ hm hn h => toBe32_inj (by omega) (by omega) h⟩

/-- What may follow the accepted packets: less than a header, or a header that is followed by
too little, of a call that was refused; during a call its header, or nothing when the reader has
taken that already. -/
def Rest : Writer → List UInt8 → Prop
  | .idle, rest => rest.length < 4 ∨ ∃ n q, n ≤ 2000 ∧ q.length < n ∧ rest = toBe32 n ++ q
  | .payload packet, rest => Sized packet ∧ (rest = [] ∨ rest = toBe32 packet.length)

/-- The packets passed on and those in the socket are the packets accepted. -/
def Inv (s : Session) (events : List Event) : Prop :=
  ∃ packets rest, acceptedPackets events = sentPackets events ++ packets ∧
    (∀ p ∈ packets, Sized p) ∧ unread s = encode toBe32 packets ++ rest ∧ Rest s.writer rest ∧
    ∀ len, s.reader = some len → 0 < len ∧ len ≤ 2048

@[simp] lemma acceptedPackets_append (e e' : List Event) :
    acceptedPackets (e ++ e') = acceptedPackets e ++ acceptedPackets e' := List.filterMap_append

@[simp] lemma sentPackets_append (e e' : List Event) :
    sentPackets (e ++ e') = sentPackets e ++ sentPackets e' := List.filterMap_append

lemma sized_le {packets : List (List UInt8)} (h : ∀ p ∈ packets, Sized p) :
    ∀ p ∈ packets, p.length ≤ 2048 := fun p hp => by
  have := (h p hp).2
  omega

/-- Whole bytes are the accepted packets and more whole ones. -/
lemma rest_of_whole {packets : List (List UInt8)} {rest : List UInt8}
    (hpk : ∀ p ∈ packets, Sized p) (h : Whole (encode toBe32 packets ++ rest)) : Whole rest := by
  obtain ⟨qs, hqs, heq⟩ := h
  obtain ⟨rs, rfl, hrest⟩ := encode_append_inj isHeader (sized_le hpk) (sized_le hqs) heq
  exact ⟨rs, fun r hr => hqs r (List.mem_append_right _ hr), hrest⟩

/-- Nothing is left over after whole bytes between two calls. -/
lemma rest_nil_of_whole {rest : List UInt8} (hr : Rest .idle rest) (h : Whole rest) :
    rest = [] := by
  obtain ⟨rs, hrs, heq⟩ := h
  rcases hr with hlt | ⟨n, q, hn, hq, rfl⟩
  · exact (eq_nil_of_encode isHeader heq hlt).2
  · exact absurd heq (cut_ne_encode isHeader (by omega) (sized_le hrs) hq)

/-- After whole bytes and a header, the header is what is left over. -/
lemma rest_ne_nil_of_header {packets : List (List UInt8)} {n : ℕ} {whole : List UInt8}
    (hpk : ∀ p ∈ packets, Sized p) (hn : 0 < n) (hle : n ≤ 2000) (hw : Whole whole)
    (heq : encode toBe32 packets = whole ++ toBe32 n) : False := by
  obtain ⟨qs, hqs, rfl⟩ := hw
  obtain ⟨rs, rfl, hrs⟩ := encode_append_inj isHeader (sized_le hqs) (sized_le hpk) heq.symm
  have hcut : toBe32 n ++ [] ≠ encode toBe32 rs := cut_ne_encode isHeader (by omega)
    (fun r hr => sized_le hpk r (List.mem_append_right _ hr)) hn
  rw [List.append_nil] at hcut
  exact hcut hrs

/-! ### One step -/

lemma unread_write (s : Session) (w : List UInt8) (writer : Writer) :
    unread { s with socket := s.socket ++ w, writer := writer } = unread s ++ w := by
  unfold unread
  cases hr : s.reader with
  | none => rfl
  | some len => simp [List.append_assoc]

/-- A step that neither accepts nor passes on a packet. -/
lemma inv_of_silent {s' : Session} {events new : List Event} {packets : List (List UInt8)}
    (rest : List UInt8) (hacc : acceptedPackets events = sentPackets events ++ packets)
    (hpk : ∀ p ∈ packets, Sized p) (hnew : acceptedPackets new = [] ∧ sentPackets new = [])
    (hview : unread s' = encode toBe32 packets ++ rest) (hrest : Rest s'.writer rest)
    (hreader : ∀ len, s'.reader = some len → 0 < len ∧ len ≤ 2048) : Inv s' (events ++ new) := by
  refine ⟨packets, rest, ?_, hpk, hview, hrest, hreader⟩
  rw [acceptedPackets_append, sentPackets_append, hnew.1, hnew.2, List.append_nil,
    List.append_nil, hacc]

section Step

variable {s : Session} {events : List Event}

lemma writeHeader_inv (h : Inv s events) {packet : List UInt8} {n : ℕ}
    (hC : Framed s (.writeHeader packet n)) :
    Inv (step s (.writeHeader packet n)).1 (events ++ (step s (.writeHeader packet n)).2) := by
  obtain ⟨packets, rest, hacc, hpk, hview, hrest, hreader⟩ := h
  cases hw : s.writer with
  | payload p =>
    simp only [step, hw]
    exact inv_of_silent _ hacc hpk ⟨rfl, rfl⟩ hview hrest hreader
  | idle =>
    rw [hw] at hrest
    have hsized : ¬(packet.length = 0 ∨ 2000 < packet.length) → Sized packet := fun hsize =>
      ⟨by omega, by omega⟩
    simp only [step, hw, writeIpHeader]
    split_ifs with hsize hshort
    · exact inv_of_silent _ hacc hpk ⟨rfl, rfl⟩ hview (hw ▸ hrest) hreader
    · -- a short header is left behind
      have hview' := (unread_write s ((toBe32 packet.length).take n) .idle).trans
        (congrArg (· ++ (toBe32 packet.length).take n) hview)
      rw [List.append_assoc] at hview'
      refine inv_of_silent _ hacc hpk ⟨rfl, rfl⟩ hview' ?_ hreader
      change Rest .idle (rest ++ (toBe32 packet.length).take n)
      rcases Nat.eq_zero_or_pos n with rfl | hn
      · rw [List.take_zero, List.append_nil]
        exact hrest
      · have hnil := rest_nil_of_whole hrest (rest_of_whole hpk (hview ▸ hC hw (hsized hsize) hn))
        rw [hnil, List.nil_append]
        left
        rw [List.length_take, length_toBe32] at hshort ⊢
        omega
    · -- the whole header: the call goes on
      rw [List.length_take, length_toBe32] at hshort
      have hn : 0 < n := by omega
      have hfull : (toBe32 packet.length).take n = toBe32 packet.length :=
        List.take_of_length_le (by rw [length_toBe32]; omega)
      have hnil := rest_nil_of_whole hrest (rest_of_whole hpk (hview ▸ hC hw (hsized hsize) hn))
      have hview' := (unread_write s ((toBe32 packet.length).take n) (.payload packet)).trans
        (congrArg (· ++ (toBe32 packet.length).take n) hview)
      rw [List.append_assoc] at hview'
      refine inv_of_silent _ hacc hpk ⟨rfl, rfl⟩ hview' ⟨hsized hsize, .inr ?_⟩ hreader
      rw [hnil, List.nil_append, hfull]

lemma writePayload_inv (h : Inv s events) {n : ℕ} (hC : Framed s (.writePayload n)) :
    Inv (step s (.writePayload n)).1 (events ++ (step s (.writePayload n)).2) := by
  obtain ⟨packets, rest, hacc, hpk, hview, hrest, hreader⟩ := h
  cases hw : s.writer with
  | idle =>
    simp only [step, hw]
    exact inv_of_silent _ hacc hpk ⟨rfl, rfl⟩ hview hrest hreader
  | payload packet =>
    rw [hw] at hrest
    obtain ⟨hsized, hrest⟩ := hrest
    have hview' := (unread_write s (packet.take n) .idle).trans
      (congrArg (· ++ packet.take n) hview)
    rw [List.append_assoc] at hview'
    -- when anything is written, the header of the call is still in front of it
    have hheader : 0 < n → rest = toBe32 packet.length := by
      intro hn
      rcases hrest with rfl | hrest
      · obtain ⟨whole, hwhole, heq⟩ := hC packet hw hn
        rw [hview, List.append_nil] at heq
        exact (rest_ne_nil_of_header hpk hsized.1 hsized.2 hwhole heq).elim
      · exact hrest
    simp only [step, hw, writeIpPayload]
    split_ifs with hshort
    · refine inv_of_silent _ hacc hpk ⟨rfl, rfl⟩ hview' ?_ hreader
      rw [List.length_take] at hshort
      rcases Nat.eq_zero_or_pos n with rfl | hn
      · rw [List.take_zero, List.append_nil]
        rcases hrest with rfl | rfl
        · exact .inl (by decide)
        · exact .inr ⟨packet.length, [], hsized.2, hsized.1, by rw [List.append_nil]⟩
      · exact .inr ⟨packet.length, packet.take n, hsized.2, by rw [List.length_take]; omega,
          by rw [hheader hn]⟩
    · -- the packet is accepted
      rw [List.length_take] at hshort
      have hsize := hsized.1
      have hn : 0 < n := by omega
      have hfull : packet.take n = packet := List.take_of_length_le (by omega)
      refine ⟨packets ++ [packet], [], ?_, ?_, ?_, .inl (by decide), hreader⟩
      · rw [acceptedPackets_append, sentPackets_append, hacc]
        simp [acceptedPackets, sentPackets]
      · intro p hp
        rcases List.mem_append.mp hp with hp | hp
        · exact hpk p hp
        · rw [List.mem_singleton.mp hp]
          exact hsized
      · rw [hview', hheader hn, hfull, encode_append, encode_cons, encode_nil, List.append_nil,
          List.append_nil]

/-- A `read` that finds a header. -/
lemma injectRead_header {n : ℕ} {more : List UInt8} (hr : s.reader = none) (hn : 0 < n)
    (hle : n ≤ 2000) (hs : s.socket = toBe32 n ++ more) :
    injectRead s = ({ s with socket := more, reader := some n }, []) := by
  have htake : s.socket.take 4 = toBe32 n := by
    rw [hs]
    exact List.take_left' (length_toBe32 n)
  have hdrop : s.socket.drop 4 = more := by
    rw [hs]
    exact List.drop_left' (length_toBe32 n)
  have hlen := be32_ofNat (n := n) (by omega)
  simp only [injectRead, hr, htake, hdrop, toBe32, hlen]
  rw [if_neg (by omega)]

/-- A `read` that finds less than a header. -/
lemma injectRead_short (hr : s.reader = none) (hlt : s.socket.length < 4) :
    injectRead s = ({ s with socket := [] }, []) := by
  have hdrop : s.socket.drop 4 = [] := List.drop_of_length_le (by omega)
  have htake : s.socket.take 4 = s.socket := List.take_of_length_le (by omega)
  simp only [injectRead, hr, hdrop, htake]
  split
  · rename_i h0 h1 h2 h3 heq
    rw [heq] at hlt
    simp at hlt
  · rfl

/-- A `read` that finds less than the packet. -/
lemma injectRead_cut {len : ℕ} (hr : s.reader = some len) (hlt : s.socket.length < len) :
    injectRead s = ({ s with socket := [], reader := none }, []) := by
  have hdrop : s.socket.drop len = [] := List.drop_of_length_le (by omega)
  simp only [injectRead, hr, hdrop]
  rw [if_pos (by rw [List.length_take]; omega)]

/-- A `read` that finds the packet. -/
lemma injectRead_packet {p more : List UInt8} (hr : s.reader = some p.length)
    (hs : s.socket = p ++ more) :
    injectRead s = ({ s with socket := more, reader := none }, [.sent p]) := by
  have htake : s.socket.take p.length = p := by rw [hs, List.take_left]
  have hdrop : s.socket.drop p.length = more := by rw [hs, List.drop_left]
  simp only [injectRead, hr, htake, hdrop]
  rw [if_neg (by simp)]

lemma read_inv (h : Inv s events) : Inv (injectRead s).1 (events ++ (injectRead s).2) := by
  obtain ⟨packets, rest, hacc, hpk, hview, hrest, hreader⟩ := h
  cases hr : s.reader with
  | none =>
    simp only [unread, hr] at hview
    -- reading a header moves it from the socket to the reader
    have hheader : ∀ n more, 0 < n → n ≤ 2000 → s.socket = toBe32 n ++ more →
        Inv (injectRead s).1 (events ++ (injectRead s).2) := by
      intro n more hn hle hs
      rw [injectRead_header hr hn hle hs]
      refine inv_of_silent _ hacc hpk ⟨rfl, rfl⟩ (hs.symm.trans hview) hrest fun len hlen => ?_
      cases hlen
      omega
    cases packets with
    | cons p ps =>
      have hp := hpk p List.mem_cons_self
      rw [encode_cons, List.append_assoc] at hview
      exact hheader p.length _ hp.1 hp.2 hview
    | nil =>
      rw [encode_nil, List.nil_append] at hview
      cases hw : s.writer with
      | idle =>
        rw [hw] at hrest
        rcases hrest with hlt | ⟨n, q, hn, hq, rfl⟩
        · rw [← hview] at hlt
          rw [injectRead_short hr hlt]
          refine inv_of_silent [] hacc hpk ⟨rfl, rfl⟩ ?_ ?_ (by simp [hr])
          · simp [unread, hr]
          · change Rest s.writer []
            rw [hw]
            exact .inl (by decide)
        · exact hheader n q (by omega) hn hview
      | payload packet =>
        rw [hw] at hrest
        obtain ⟨hsized, rfl | rfl⟩ := hrest
        · rw [injectRead_short hr (by rw [hview]; decide)]
          refine inv_of_silent [] hacc hpk ⟨rfl, rfl⟩ ?_ ?_ (by simp [hr])
          · simp [unread, hr]
          · change Rest s.writer []
            rw [hw]
            exact ⟨hsized, .inl rfl⟩
        · exact hheader packet.length [] hsized.1 hsized.2 (by rw [hview, List.append_nil])
  | some len =>
    obtain ⟨hlen, hmax⟩ := hreader len hr
    simp only [unread, hr] at hview
    cases packets with
    | cons p ps =>
      have hp := hpk p List.mem_cons_self
      rw [encode_cons, List.append_assoc, List.append_assoc] at hview
      obtain ⟨rfl, hs⟩ := header_inj isHeader hmax (by have := hp.2; omega) hview
      rw [injectRead_packet hr hs]
      refine ⟨ps, rest, ?_, fun q hq => hpk q (List.mem_cons_of_mem _ hq), rfl, hrest, by simp⟩
      rw [acceptedPackets_append, sentPackets_append, hacc]
      simp [acceptedPackets, sentPackets]
    | nil =>
      rw [encode_nil, List.nil_append] at hview
      -- what follows the header is too short, and is dropped with it
      have hcut : ∀ n q, n ≤ 2000 → q.length < n → rest = toBe32 n ++ q → Rest s.writer [] →
          Inv (injectRead s).1 (events ++ (injectRead s).2) := by
        rintro n q hn hq rfl hnil
        obtain ⟨rfl, rfl⟩ := header_inj isHeader hmax (by omega) hview
        rw [injectRead_cut hr hq]
        exact inv_of_silent [] hacc hpk ⟨rfl, rfl⟩ rfl hnil (by simp)
      cases hw : s.writer with
      | idle =>
        rw [hw] at hrest hcut
        rcases hrest with hlt | ⟨n, q, hn, hq, hrest⟩
        · rw [← hview, List.length_append, length_toBe32] at hlt
          omega
        · exact hcut n q hn hq hrest (.inl (by decide))
      | payload packet =>
        rw [hw] at hrest hcut
        obtain ⟨hsized, rfl | hrest⟩ := hrest
        · exact absurd (congrArg List.length hview) (by simp)
        · exact hcut packet.length [] hsized.2 hsized.1 (by rw [hrest, List.append_nil])
            ⟨hsized, .inl rfl⟩

lemma step_inv (h : Inv s events) {i : Input} (hC : Framed s i) :
    Inv (step s i).1 (events ++ (step s i).2) := by
  cases i with
  | writeHeader packet n => exact writeHeader_inv h hC
  | writePayload n => exact writePayload_inv h hC
  | read => exact read_inv h

end Step

/-! ### The run -/

lemma init_inv : Inv init [] :=
  ⟨[], [], rfl, by simp, rfl, .inl (by decide), by simp [init]⟩

/-- **Injection loses nothing** in any interleaving whose writes all find the stream in frame. -/
theorem lossFree_of_framed {inputs : List Input} (hC : Along step Framed init inputs) :
    LossFree inputs := by
  have hinv : Inv (run step init inputs).1 (run step init inputs).2 :=
    run_inv Inv (fun s events i h hC => step_inv h hC) init_inv hC
  obtain ⟨packets, rest, hacc, hpk, hview, -, -⟩ := hinv
  refine ⟨hacc ▸ List.prefix_append _ _, fun hs => ?_⟩
  cases packets with
  | nil => rw [hacc, List.append_nil]
  | cons p ps =>
    -- the first packet does not fit what the reader has taken
    exfalso
    have hlen := congrArg List.length hview
    have hle := width_le_encode isHeader p ps
    have hp := (hpk p List.mem_cons_self).1
    have hunread : (unread (run step init inputs).1).length ≤ 4 := by
      unfold unread
      rw [hs]
      split
      · simp
      · simp
    rw [List.length_append] at hlen
    omega

/-- A packet read as it is written. -/
theorem lossFree_of_framed_onePacket :
    LossFree [.writeHeader [0x45, 0x00] 4, .read, .writePayload 2, .read] := by
  refine lossFree_of_framed ⟨fun _ _ _ => ⟨[], by simp, rfl⟩, trivial, ?_, trivial, trivial⟩
  rintro packet hp -
  cases hp
  exact ⟨[], ⟨[], by simp, rfl⟩, rfl⟩

/-- **A reader that comes between the two writes** takes the header, finds no packet behind it
and gives up; the packet is accepted and never passed on. -/
theorem readBetween_not_lossFree :
    ¬ LossFree [.writeHeader [0x45, 0x00] 4, .read, .read, .writePayload 2, .read] := by
  rintro ⟨-, hcomplete⟩
  exact absurd (hcomplete (by decide +kernel)) (by decide +kernel)

end SstpClient.Inject
