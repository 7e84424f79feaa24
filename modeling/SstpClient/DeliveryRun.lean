import SstpClient.DeliveryRecv

/-!
The receiver in a run: what has come out is a first part of what was sent, and all of it once the
wire is used up.
-/

namespace SstpClient.Delivery

open SstpClient.Lib.Machine SstpClient.Buffer SstpClient.Recv SstpClient.Reassembly
open SstpClient.Ppp (Prims Pppd Mppe)
open SstpClient.MppeKeys SstpClient.MppeSync
open SstpClient.State (SstpState)

/-! ### The receiver -/

section Run

variable (P : Prims)

/-- Of what the other end has sent up to its context `a`, as recorded in `log`, a first part has been
received; the rest stands on the wire behind the bytes in the buffer, but for the bytes `later`. -/
def Inv (a : Mppe) (log : List (Item × List UInt8)) (later : List UInt8) (s : Receiver)
    (events : List Event) : Prop :=
  ∃ front rest, log = front ++ rest ∧ s.rx.armed = true ∧ s.st.forward = true ∧
    Pending (rest.map Prod.snd) s.rx.buf (s.rx.wire ++ later) ∧ Behind P a s.ctx.mppe rest ∧
    effectsOf events = front.flatMap fun e => e.1.effects

/-- The calls of `SSL_read` do not fail, and none that ends inside a header leaves a length field that
is exceeded. -/
def Fine (s : Receiver) (c : Call) : Prop :=
  Passes Waits s.rx.buf s.rx.wire c.outcomes ∧ SslRead.error ∉ c.outcomes

variable {P} {a : Mppe} {log : List (Item × List UInt8)} {later : List UInt8} {s : Receiver}
  {events : List Event}

/-- A packet has been taken out of the stream. -/
lemma step_delivered {c : Call} {p : List UInt8}
    (h : delivered (recvReady s.rx c.outcomes).2 = [((p.length : ℤ), (p.length : ℤ), p)]) :
    step P s c = ((handlePacket P { s with rx := (recvReady s.rx c.outcomes).1 } p.length c).1,
      (recvReady s.rx c.outcomes).2.map .rx ++
        (handlePacket P { s with rx := (recvReady s.rx c.outcomes).1 } p.length c).2) := by
  simp only [step, h]

lemma step_inv {c : Call} (h : Inv P a log later s events) (hc : Fine s c) :
    Inv P a log later (step P s c).1 (events ++ (step P s c).2) ∧
      KeepsSend s.ctx.mppe (step P s c).1.ctx.mppe := by
  obtain ⟨front, rest, rfl, harmed, hforward, hpend, hbehind, heffects⟩ := h
  obtain ⟨harmed', hready⟩ := ready_pending hbehind.wellFormed harmed hpend hc.1 hc.2
  rcases hready with ⟨hnone, hpend'⟩ | ⟨p, ps, hrest, hone, hbytes, hpend'⟩
  · have heq : step P s c = ({ s with rx := (recvReady s.rx c.outcomes).1 },
        (recvReady s.rx c.outcomes).2.map .rx) := by
      simp only [step, hnone]
    rw [heq]
    refine ⟨⟨front, rest, rfl, harmed', hforward, hpend', hbehind, ?_⟩, rfl, rfl⟩
    rw [effectsOf_append, effectsOf_rx, List.append_nil, heffects]
  · obtain ⟨e, rest', rfl, rfl, rfl⟩ := List.map_eq_cons_iff.mp hrest
    obtain ⟨s', hhandle, hrx, hst, hbehind', hkeeps⟩ := handle_next
      (s := { s with rx := (recvReady s.rx c.outcomes).1 }) hforward hbehind hbytes c
    rw [step_delivered hone, hhandle]
    refine ⟨⟨front ++ [e], rest', by simp, hrx ▸ harmed', hst, hrx ▸ hpend', hbehind', ?_⟩, hkeeps⟩
    rw [effectsOf_append, effectsOf_append, effectsOf_rx, List.nil_append, effectsOf_effects,
      heffects, List.flatMap_append, List.flatMap_singleton]

/-- The other end sends an item. -/
lemma Inv.send {a : Pppd} (h : Inv P a.mppe log later s events) (i : Item) :
    Inv P (send P a i).1.mppe (log ++ (send P a i).2)
      (later ++ ((send P a i).2.map Prod.snd).flatten) s events := by
  obtain ⟨front, rest, rfl, harmed, hforward, hpend, hbehind, heffects⟩ := h
  refine ⟨front, rest ++ (Delivery.send P a i).2, List.append_assoc .., harmed, hforward, ?_,
    hbehind.send i, heffects⟩
  obtain ⟨hsize, hnonneg, hbytes, hinside⟩ := hpend
  refine ⟨hsize, hnonneg, ?_, ?_⟩
  · rw [← List.append_assoc s.rx.wire, ← List.append_assoc, hbytes, List.map_append,
      List.flatten_append]
  · rcases hinside with h0 | ⟨p, ps, hps, hlt⟩
    · exact .inl h0
    · exact .inr ⟨p, ps ++ (Delivery.send P a i).2.map Prod.snd, by rw [List.map_append, hps]; rfl, hlt⟩

/-- The sender counts by its sending keys, the receiver by its receiving keys. -/
lemma Inv.congr {a' : Mppe} {ctx : Pppd} (h : Inv P a log later s events) (ha : KeepsSend a a')
    (hctx : ctx.mppe.enabled = s.ctx.mppe.enabled ∧ ctx.mppe.recv = s.ctx.mppe.recv) :
    Inv P a' log later { s with ctx := ctx } events := by
  obtain ⟨front, rest, rfl, harmed, hforward, hpend, hbehind, heffects⟩ := h
  exact ⟨front, rest, rfl, harmed, hforward, hpend, hbehind.congr ⟨ha.enabled, ha.send⟩ hctx,
    heffects⟩

/-- Bytes arrive. -/
lemma Inv.arrive {bytes : List UInt8} (h : Inv P a log (bytes ++ later) s events) :
    Inv P a log later { s with rx := { s.rx with wire := s.rx.wire ++ bytes } } events := by
  obtain ⟨front, rest, rfl, harmed, hforward, hpend, hbehind, heffects⟩ := h
  rw [← List.append_assoc] at hpend
  exact ⟨front, rest, rfl, harmed, hforward, hpend, hbehind, heffects⟩

/-- What has been received, and that it is all when nothing is left. -/
lemma Inv.received (h : Inv P a log later s events) :
    effectsOf events <+: (log.flatMap fun e => e.1.effects) ∧
      (s.rx.wire ++ later = [] → effectsOf events = log.flatMap fun e => e.1.effects) := by
  obtain ⟨front, rest, rfl, harmed, hforward, hpend, hbehind, heffects⟩ := h
  rw [List.flatMap_append, heffects]
  refine ⟨List.prefix_append _ _, fun hnil => ?_⟩
  have hinv : Reassembly.Inv (rest.map Prod.snd) { s.rx with wire := s.rx.wire ++ later } [] :=
    ⟨[], _, rfl, rfl, fun _ => hpend⟩
  have hnone := complete_of_inv hbehind.wellFormed hinv harmed hnil
  have hrest : rest = [] := List.map_eq_nil_iff.mp (List.map_eq_nil_iff.mp hnone.symm)
  rw [hrest]
  exact (List.append_nil _).symm

/-- The receive side over what the other end has sent, with the buffer as it happens to be. -/
def start (log : List (Item × List UInt8)) (data : List UInt8) (st : SstpState) (b : Pppd) :
    Receiver :=
  ⟨sstpStreamSetrecv data (log.map Prod.snd).flatten, st, b⟩

lemma start_inv {a b : Pppd} (h : Matched P a.mppe b.mppe) (items : List Item) {st : SstpState}
    (hforward : st.forward = true) {data : List UInt8} (hdata : data.length = 16384) :
    Inv P (run (send P) a items).1.mppe (run (send P) a items).2 []
      (start (run (send P) a items).2 data st b) [] := by
  have hmax : (⟨0, 0, data⟩ : Buff).max = 16384 := by
    unfold Buff.max
    rw [hdata]
    rfl
  have hbehind : Behind P (run (send P) a items).1.mppe b.mppe (run (send P) a items).2 := by
    have hrun := run_inv_all (fun (a' : Pppd) rest => Behind P a'.mppe b.mppe rest)
      (fun _ _ i h => h.send i) (.level h) items
    rwa [List.nil_append] at hrun
  refine ⟨[], _, rfl, rfl, hforward, ?_, hbehind, rfl⟩
  rw [List.append_nil]
  exact pending_reset hmax

/-- **All that is sent is received.** Two ends that stand at the same place of a chain of keys: what
one sends, IP packets and echoes, has on the other the effects it should have, once each and in
order, however the reads cut the stream; and all of it when the wire has been read up. -/
theorem received_inOrder {a b : Pppd} (h : Matched P a.mppe b.mppe) (items : List Item) {st : SstpState}
    (hforward : st.forward = true) {data : List UInt8} (hdata : data.length = 16384)
    {calls : List Call}
    (hfine : Along (step P) Fine (start (run (send P) a items).2 data st b) calls) :
    effectsOf (run (step P) (start (run (send P) a items).2 data st b) calls).2 <+:
        ((run (send P) a items).2.flatMap fun e => e.1.effects) ∧
      ((run (step P) (start (run (send P) a items).2 data st b) calls).1.rx.wire = [] →
        effectsOf (run (step P) (start (run (send P) a items).2 data st b) calls).2 =
          (run (send P) a items).2.flatMap fun e => e.1.effects) := by
  have hinv := run_inv (Inv P (run (send P) a items).1.mppe (run (send P) a items).2 [])
    (fun _ _ _ hinv hc => (step_inv hinv hc).1) (start_inv h items hforward hdata) hfine
  rw [List.nil_append] at hinv
  obtain ⟨hfront, hall⟩ := hinv.received
  exact ⟨hfront, fun hwire => hall (by rw [hwire]; rfl)⟩

end Run

/-! ### An Echo-Request and an IP packet -/

/-- The server, and the client once the tunnel is up. -/
lemma matched_initialised :
    Matched somePrims (initialised serverKeys).mppe (initialised clientKeys).mppe := by
  have hsend : AtPlace somePrims _ 0 (initialised serverKeys).mppe.send :=
    Initialised.send ⟨serverKeys, rfl, rfl⟩
  have hrecv : AtPlace somePrims _ 0 (initialised clientKeys).mppe.recv :=
    Initialised.recv ⟨clientKeys, rfl, rfl⟩
  exact .inr ⟨rfl, rfl, _, 0, hsend, hrecv⟩

def connected : SstpState := { State.sstpStateCreate .client with forward := true }

/-- A packet is read, its header first. -/
def packetCall : Call := ⟨[.avail 3, .avail 2000], fun _ => none, []⟩

lemma fine_packetCall {s : Receiver} (hoff : s.rx.buf.off = 0) (hmax : 4 ≤ s.rx.buf.max)
    (hwire : 4 ≤ s.rx.wire.length) : Fine s packetCall := by
  have hlen : recvLen s.rx.buf - s.rx.buf.off = 4 := by
    unfold recvLen
    rw [hoff]
    rfl
  have hread : sslRead (recvLen s.rx.buf - s.rx.buf.off) s.rx.wire (.avail 3) =
      .none (s.rx.wire.take 4) := by
    have hne : s.rx.wire ≠ [] := fun hnil => by simp [hnil] at hwire
    rw [hlen, sslRead, if_neg (by decide), if_neg hne]
    rfl
  have hfour : (s.rx.wire.take 4).length = 4 := List.length_take_of_le hwire
  refine ⟨⟨fun bytes hbytes hlt => ?_, ?_⟩, by decide⟩
  · cases hread.symm.trans hbytes
    rw [hoff, hfour] at hlt
    exact absurd hlt (by decide)
  · split
    · next b wire hpass =>
      rw [recvPass_of_bytes hread hoff.ge (by rw [hoff, hfour]; exact hmax)] at hpass
      split_ifs at hpass
      cases hpass
      refine ⟨fun bytes _ hlt => ?_, ?_⟩
      · have hplaced : (placed s.rx.buf (s.rx.wire.take 4)).off = 4 := by
          change s.rx.buf.off + (s.rx.wire.take 4).length = 4
          rw [hoff, hfour]
          rfl
        rw [hplaced] at hlt
        omega
      · split <;> trivial
    · trivial

/-- `rx_buf` as it is created. -/
def rxBuf : List UInt8 := (sstpBuffCreate 16384).data

lemma length_rxBuf : rxBuf.length = 16384 := List.length_replicate

def twoItems : List Item := [.echoRequest, .ip [0x45]]

/-- The server has sent both, and the client reads them. -/
def twoArrived : Receiver :=
  start (run (send somePrims) (initialised serverKeys) twoItems).2 rxBuf connected
    (initialised clientKeys)

lemma twoArrived_fine : Along (step somePrims) Fine twoArrived [packetCall, packetCall] := by
  refine ⟨fine_packetCall rfl (by decide +kernel) (by decide +kernel), ?_, trivial⟩
  exact fine_packetCall (by decide +kernel) (by decide +kernel) (by decide +kernel)

theorem received_inOrder_twoItems :
    effectsOf (run (step somePrims) twoArrived [packetCall, packetCall]).2 =
      (run (send somePrims) (initialised serverKeys) twoItems).2.flatMap fun e => e.1.effects :=
  (received_inOrder matched_initialised twoItems rfl length_rxBuf twoArrived_fine).2
    (by decide +kernel)

example : ((run (send somePrims) (initialised serverKeys) twoItems).2.flatMap fun e =>
    e.1.effects) = [.send .echoReply, .out (.ip [0x45])] := by decide +kernel

end SstpClient.Delivery
