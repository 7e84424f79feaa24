import SstpClient.DeframeLoop

/-!
The packets of pppd are forwarded, however its frames are cut by the reads, as long as no stale flag
does harm.
-/

namespace SstpClient.Deframe

open SstpClient.Lib.Bytes SstpClient.Lib.Machine SstpClient.Buffer SstpClient.Fcs

/-! ### The calls -/

/-- Between two calls: what is left in the buffer, and what is not yet read, are flags and the
encoding of the payloads. -/
def Between (ctx : Pppd) (next : List UInt8) (payloads : List (List UInt8)) : Prop :=
  ∃ ys stale k, ctx.rx = held [] ys stale ∧
    ys ++ next = List.replicate k hdlcFlag ++ wire payloads ∧ (payloads = [] ∨ next ≠ [])

/-- What is read goes behind what is left. -/
lemma recv_eq (ys stale chunk : List UInt8) (first : Bool) {tx : Buff} {status : Status}
    {buffs : Buffs} {packets : List (List UInt8)} (hne : chunk ≠ [])
    (hle : chunk.length ≤ stale.length)
    (h : pppProcessData ⟨held [] (ys ++ chunk) (stale.drop chunk.length), tx⟩ =
      some (status, buffs, packets)) :
    sstpPppdRecv ⟨⟨held [] ys stale, tx⟩, first⟩ chunk =
      (⟨buffs, false⟩, (if first then [.start] else []) ++ packets.map .send) := by
  have hwrite : (held [] ys stale).write (held [] ys stale).len chunk =
      some { held [] ys stale with data := ys ++ chunk ++ stale.drop chunk.length } := by
    refine (write_of_le (by simp [held]) (by simp [held, Buff.max]; omega)).trans ?_
    simp [held, splice]
  have hheld : { held [] ys stale with
        len := (held [] ys stale).len + chunk.length,
        data := ys ++ chunk ++ stale.drop chunk.length } =
      held [] (ys ++ chunk) (stale.drop chunk.length) := by
    simp [held]
  have hpos : ¬ (held [] ys stale).len + chunk.length ≤ 0 := by
    have := List.length_pos_of_ne_nil hne
    simp [held]
    omega
  unfold sstpPppdRecv
  dsimp only
  rw [hwrite]
  dsimp only at hheld ⊢
  rw [if_neg hpos, hheld, h]

lemma filter_sends (first : Bool) (packets : List (List UInt8)) :
    ((if first then [Out.start] else []) ++ packets.map Out.send).filter (· ≠ Out.start) =
      packets.map .send := by
  have hsends : (packets.map Out.send).filter (· ≠ .start) = packets.map .send := by
    rw [List.filter_eq_self]
    intro o ho
    obtain ⟨packet, -, rfl⟩ := List.mem_map.mp ho
    rfl
  rw [List.filter_append, hsends]
  cases first <;> rfl

/-- **One call** sends the next payloads. -/
lemma recv_between {ctx : Pppd} {chunk next : List UInt8} {payloads : List (List UInt8)}
    (h : Between ctx (chunk ++ next) payloads) (htx : 4 ≤ ctx.tx.max)
    (hpayloads : ∀ payload ∈ payloads, 2 ≤ payload.length ∧ payload.length + 6 ≤ ctx.tx.max)
    (hfits : Fits ctx chunk next) (hclear : Clear ctx chunk next) :
    ∃ sent rest, payloads = sent ++ rest ∧
      (sstpPppdRecv ctx chunk).2.filter (· ≠ .start) =
          sent.map (fun payload => .send (dataPacket payload)) ∧
        (sstpPppdRecv ctx chunk).1.tx.max = ctx.tx.max ∧
          Between (sstpPppdRecv ctx chunk).1 next rest := by
  obtain ⟨ys, stale, k, hrx, hwire, -⟩ := h
  obtain ⟨⟨rx, tx⟩, first⟩ := ctx
  dsimp only at hrx htx hpayloads
  subst hrx
  obtain ⟨hne, hle⟩ := hfits
  have hroom : chunk.length ≤ stale.length := by
    simp [held, Buff.max] at hle
    omega
  have hused : usedBytes ⟨⟨held [] ys stale, tx⟩, first⟩ chunk = ys ++ chunk := by
    simp [usedBytes, held]
  have hstale : staleBytes ⟨⟨held [] ys stale, tx⟩, first⟩ chunk = stale.drop chunk.length := by
    simp [staleBytes, held]
  rw [Clear, hused, hstale] at hclear
  have hprocessed : Processed tx.max next payloads
      (pppProcessData ⟨held [] (ys ++ chunk) (stale.drop chunk.length), tx⟩) := by
    have hfuel : (ys ++ chunk).length <
        (held [] (ys ++ chunk) (stale.drop chunk.length)).len.toNat + 1 := by
      simp [held]
      omega
    have hleft : ys ++ chunk ++ next = List.replicate k hdlcFlag ++ wire payloads := by
      rw [List.append_assoc, hwire]
    have hempty : 4 ≤ (sstpBuffReset tx).max := htx
    have hharm : Harmless ([] ++ (ys ++ chunk)) (stale.drop chunk.length) next := hclear
    exact processLoop_processed hfuel hempty hleft hpayloads hharm
  generalize hdata : pppProcessData ⟨held [] (ys ++ chunk) (stale.drop chunk.length), tx⟩ = r
    at hprocessed
  cases hprocessed with
  | @mk sent k rest left behind tx htx hleft hread =>
    rw [recv_eq ys stale chunk first hne hroom hdata]
    refine ⟨sent, rest, rfl, ?_, htx, left, behind, k, rfl, hleft, hread⟩
    rw [filter_sends, List.map_map]
    rfl

/-- **A run** whose calls are all clear sends the payloads that are left. -/
lemma forwards_of_between {ctx : Pppd} {chunks payloads : List (List UInt8)}
    (h : Between ctx chunks.flatten payloads) (htx : 4 ≤ ctx.tx.max)
    (hpayloads : ∀ payload ∈ payloads, 2 ≤ payload.length ∧ payload.length + 6 ≤ ctx.tx.max)
    (hfits : Always Fits ctx chunks) (hclear : Always Clear ctx chunks) :
    Forwards ctx chunks payloads := by
  induction chunks generalizing ctx payloads with
  | nil =>
    obtain ⟨-, -, -, -, -, hread⟩ := h
    have hnil : payloads = [] := hread.resolve_right fun hne => hne rfl
    rw [hnil]
    rfl
  | cons chunk chunks ih =>
    obtain ⟨sent, rest, rfl, hsent, hroom, hrest⟩ :=
      recv_between h htx hpayloads hfits.1 hclear.1
    have hlater : Forwards (sstpPppdRecv ctx chunk).1 chunks rest := by
      refine ih hrest (by omega) ?_ hfits.2 hclear.2
      rw [hroom]
      exact fun payload hmem => hpayloads payload (List.mem_append_right sent hmem)
    unfold Forwards at hlater ⊢
    rw [run_cons, List.filter_append, hsent, hlater, List.map_append]

/-- **De-framing the pppd stream**: the payloads are forwarded whatever the read boundaries are, as
long as what the decoder finds behind the bytes read does no harm. -/
theorem forwards_of_clear {ctx : Pppd} {payloads frames chunks : List (List UInt8)}
    (hlen : ctx.rx.len = 0) (hoff : ctx.rx.off = 0)
    (hpayloads : ∀ payload ∈ payloads, 2 ≤ payload.length)
    (hroom : ∀ payload ∈ payloads, payload.length + 6 ≤ ctx.tx.max)
    (hframes : List.Forall₂ Encodes payloads frames) (hsplit : chunks.flatten = frames.flatten)
    (hfits : Always Fits ctx chunks) (hclear : Always Clear ctx chunks) :
    Forwards ctx chunks payloads := by
  have hwire : chunks.flatten = wire payloads := hsplit.trans (flatten_frames hframes)
  have hrx : ctx.rx = held [] [] ctx.rx.data := by
    obtain ⟨⟨⟨len, off, data⟩, tx⟩, first⟩ := ctx
    dsimp only at hlen hoff ⊢
    rw [hlen, hoff]
    rfl
  cases payloads with
  | nil =>
    cases chunks with
    | nil => rfl
    | cons chunk chunks =>
      exact absurd (List.append_eq_nil_iff.mp hwire).1 hfits.1.1
  | cons payload payloads =>
    have htx : 4 ≤ ctx.tx.max := by
      have := hroom payload List.mem_cons_self
      omega
    refine forwards_of_between ⟨[], ctx.rx.data, 0, hrx, hwire, .inr ?_⟩ htx
      (fun p hp => ⟨hpayloads p hp, hroom p hp⟩) hfits hclear
    simp [hwire, wire_cons]

/-- A frame that is read in two parts, the first one up to an escape. -/
def shortFrame : List UInt8 :=
  [0x7e, 0xc0, 0x21, 0x7d, 0x21, 0x7d, 0x5e, 0xc1, 0x7d, 0x3d, 0x7e]

theorem forwards_of_clear_short :
    Forwards ⟨⟨sstpBuffCreate 16, sstpBuffCreate 16⟩, true⟩ [shortFrame.take 4, shortFrame.drop 4]
      [shortPayload] := by
  have hframes : List.Forall₂ Encodes [shortPayload] [shortFrame] :=
    .cons ⟨32, _, rfl, rfl, rfl⟩ .nil
  refine forwards_of_clear rfl rfl (by decide) (by decide) hframes rfl ?_ ?_
  · exact ⟨⟨by decide, by decide⟩, ⟨by decide, by decide⟩, trivial⟩
  · refine ⟨⟨?_, ?_, ?_, ?_⟩, ⟨?_, ?_, ?_, ?_⟩, trivial⟩
    · decide
    · decide
    · decide
    · exact fun _ _ _ _ _ hstale => absurd hstale (by decide)
    · decide
    · decide
    · decide
    · exact fun _ _ _ _ _ hstale => absurd hstale (by decide)

/-! ### A stale flag -/

/-- The buffers that `sstp_pppd_create` makes. -/
def created : Pppd := ⟨⟨sstpBuffCreate 16384, sstpBuffCreate 16384⟩, true⟩

/-- The frame of three bytes leaves a flag in the buffer. -/
def threeBytes : List UInt8 := [0xc0, 0x21, 0x41]
def threeFrame : List UInt8 := [0x7e, 0xc0, 0x21, 0x41, 0x30, 0xa5, 0x7e]

/-- The frame of four bytes begins like that of its first two. -/
def fourBytes : List UInt8 := [0xc0, 0x21, 0x66, 0xf5]
def fourFrame : List UInt8 := [0x7e, 0xc0, 0x21, 0x66, 0xf5, 0x47, 0x7d, 0x2f, 0x7e]

lemma recv_three {zeros : List UInt8} {tx : Buff}
    (hzeros : Peek (zeros.dropWhile (· = hdlcFlag))) (htx : 16 ≤ tx.max) :
    ∃ tx', tx'.max = tx.max ∧
      sstpPppdRecv ⟨⟨held [] [] (List.replicate 7 0 ++ zeros), tx⟩, true⟩ threeFrame =
        (⟨⟨held [] [hdlcFlag] (threeFrame.tail ++ zeros), tx'⟩, false⟩,
          [.start, .send (dataPacket threeBytes)]) := by
  have hroom : (sstpBuffReset tx).max = tx.max := rfl
  have hn : 2 ≤ threeBytes.length := by decide
  have hdecode : sstpFrameDecode (threeFrame.dropLast ++ [hdlcFlag] ++ zeros)
      (threeFrame.dropLast ++ [hdlcFlag]).length ((sstpBuffReset tx).max - 4) =
        some ⟨.okay, 6, 3, checked threeBytes⟩ := by
    refine decode_frame (k := 1) hn (by decide) ?_
    simp [threeBytes]
    omega
  obtain ⟨tx1, htx1, hround1⟩ :=
    processLoop_okay 7 [] (by omega) (by decide) hdecode rfl rfl (n := 3) rfl (by decide)
  obtain ⟨f, hf⟩ := incomplete_flags hzeros 1 (tx1.max - 4)
  obtain ⟨tx2, htx2, hround2⟩ :=
    processLoop_incomplete 6 threeFrame.dropLast (by omega) (by decide) hf Status.noConfusion rfl
  have hdata : pppProcessData ⟨held [] threeFrame zeros, tx⟩ =
      some (.okay, ⟨held [] [hdlcFlag] (threeFrame.tail ++ zeros), tx2⟩, [dataPacket threeBytes]) :=
    hround1.trans (congrArg (Option.map _) hround2)
  have hle : threeFrame.length ≤ (List.replicate 7 0 ++ zeros).length := by simp [threeFrame]
  exact ⟨tx2, by omega, recv_eq [] _ threeFrame true (by decide) hle hdata⟩

/-- The stale flag is taken for the closing one. -/
lemma recv_two (stale : List UInt8) {tx : Buff} (htx : 16 ≤ tx.max) :
    ∃ tx', tx'.max = tx.max ∧
      sstpPppdRecv ⟨⟨held [] [hdlcFlag] (threeFrame.tail ++ stale), tx⟩, false⟩
          (fourFrame.take 5) =
        (⟨⟨held [] [] (hdlcFlag :: fourFrame.take 5 ++ hdlcFlag :: stale), tx'⟩, false⟩,
          [.send (dataPacket (fourBytes.take 2))]) := by
  have hroom : (sstpBuffReset tx).max = tx.max := rfl
  have hn : 2 ≤ (fourBytes.take 2).length := by decide
  have hdecode : sstpFrameDecode (hdlcFlag :: fourFrame.take 5 ++ [] ++ hdlcFlag :: stale)
      (hdlcFlag :: fourFrame.take 5 ++ []).length ((sstpBuffReset tx).max - 4) =
        some ⟨.okay, 6, 2, checked (fourBytes.take 2)⟩ := by
    refine decode_frame (k := 2) hn (by decide) ?_
    simp [fourBytes]
    omega
  obtain ⟨tx', htx', hround⟩ :=
    processLoop_okay 6 [] (by omega) (by decide) hdecode rfl rfl (n := 2) rfl (by decide)
  have hdata : pppProcessData ⟨held [] (hdlcFlag :: fourFrame.take 5) (hdlcFlag :: stale), tx⟩ =
      some (.okay, ⟨held [] [] (hdlcFlag :: fourFrame.take 5 ++ hdlcFlag :: stale), tx'⟩,
        [dataPacket (fourBytes.take 2)]) :=
    hround.trans (congrArg (Option.map _) processLoop_done)
  have hle : (fourFrame.take 5).length ≤ (threeFrame.tail ++ stale).length := by
    simp [threeFrame, fourFrame]
  exact ⟨tx', by omega, recv_eq [hdlcFlag] _ (fourFrame.take 5) false (by decide) hle hdata⟩

lemma create_eq (n : ℕ) : ∃ zeros, zeros.length = n + 1 ∧
    Peek (zeros.dropWhile (· = hdlcFlag)) ∧
      sstpBuffCreate (7 + (n + 1)) = held [] [] (List.replicate 7 0 ++ zeros) := by
  refine ⟨List.replicate (n + 1) 0, List.length_replicate, ?_, ?_⟩
  · rw [List.replicate_succ, List.dropWhile_cons_of_neg (by decide)]
    exact fun hesc => absurd hesc (by decide)
  · rw [List.replicate_append_replicate]
    rfl

/-- A frame read in two parts is not forwarded, for the first is taken for a frame. -/
theorem fourFrame_not_forwards : ¬ ∀ (ctx : Pppd) (payloads frames chunks : List (List UInt8)),
    ctx.rx.len = 0 → ctx.rx.off = 0 → (∀ payload ∈ payloads, 2 ≤ payload.length) →
      List.Forall₂ Encodes payloads frames → chunks.flatten = frames.flatten →
        Always Fits ctx chunks → Forwards ctx chunks payloads := by
  intro h
  obtain ⟨zeros, hzeros, hpeek, hrx⟩ := create_eq 16376
  have hcreated : created =
      ⟨⟨held [] [] (List.replicate 7 0 ++ zeros), sstpBuffCreate 16384⟩, true⟩ :=
    congrArg (fun rx => Pppd.mk ⟨rx, sstpBuffCreate 16384⟩ true) hrx
  have hroom : 16 ≤ (sstpBuffCreate 16384).max := by simp
  obtain ⟨tx1, htx1, hthree⟩ := recv_three hpeek hroom
  have hroom1 : 16 ≤ tx1.max := by omega
  obtain ⟨tx2, -, htwo⟩ := recv_two zeros hroom1
  have hframes : List.Forall₂ Encodes [threeBytes, fourBytes] [threeFrame, fourFrame] :=
    .cons ⟨64, _, rfl, rfl, rfl⟩ (.cons ⟨64, _, rfl, rfl, rfl⟩ .nil)
  have hfits : Always Fits created [threeFrame, fourFrame.take 5, fourFrame.drop 5] := by
    rw [hcreated, Always, Always, Always, Always, hthree, htwo]
    simp [Fits, held, Buff.max, threeFrame, fourFrame, hzeros]
  have hforwards : Forwards created [threeFrame, fourFrame.take 5, fourFrame.drop 5]
    [threeBytes, fourBytes] := h created _ _ _ rfl rfl (by decide) hframes rfl hfits
  rw [Forwards, hcreated, run_cons, hthree, run_cons, htwo] at hforwards
  have hsecond := (List.cons.inj (List.cons.inj hforwards).2).1
  exact absurd hsecond (by decide)

end SstpClient.Deframe
