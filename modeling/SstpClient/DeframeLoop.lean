import SstpClient.Deframe

/-!
What the loop of `ppp_process_data` does with the bytes of whole frames and with what is left of one,
the decoder looking at the byte behind them.
-/

namespace SstpClient.Deframe

open SstpClient.Lib.Bytes SstpClient.Lib.Framing SstpClient.Buffer SstpClient.Fcs
open SstpClient.Uplink (pktInit_data packet_of_frame)

/-! ### The decoder at the end of its input -/

section Decode

variable {length size : ℤ}

lemma length_put (hsize : 0 ≤ size) {frame : List UInt8} (h : frame.length ≤ size) (c : UInt8) :
    (put size frame c).length ≤ size := by
  unfold put
  split_ifs with hroom
  · have hlt : frame.length < size := hroom.resolve_left (by omega)
    rw [List.length_append, List.length_singleton]
    push_cast
    omega
  · exact h

/-- What has been copied, at the end of the loop. -/
def copied : Loop → List UInt8
  | .closed _ frame => frame
  | .overflow frame => frame
  | .fault => []

lemma length_copied (hsize : 0 ≤ size) {index : ℕ} {bs frame : List UInt8}
    (h : frame.length ≤ size) : (copied (decodeLoop length size index bs frame)).length ≤ size := by
  fun_induction decodeLoop length size index bs frame with
  | case1 | case2 | case4 | case6 | case10 => exact hsize
  | case3 => exact h
  | case5 | case7 | case9 | case11 => exact length_put hsize h _
  | case8 | case12 =>
    rename_i ih
    exact ih (length_put hsize h _)

/-- What is written fits. -/
lemma decode_frame_le (hsize : 0 ≤ size) {buf : List UInt8} {d : Decoded}
    (h : sstpFrameDecode buf length size = some d) : d.frame.length ≤ size := by
  unfold sstpFrameDecode at h
  split at h
  · cases h
  · next index bs hskip =>
    have hcopied : (copied (decodeLoop length size index bs [])).length ≤ size :=
      length_copied hsize hsize
    split at h
    · cases h
    · next frame hloop =>
      cases h
      rwa [hloop] at hcopied
    · next i frame hloop =>
      cases h
      rwa [hloop] at hcopied

/-- The loop behind the end of its input. -/
lemma decodeLoop_past {index : ℕ} {d : UInt8} {ds frame : List UInt8} (hlength : 0 ≤ length)
    (hindex : length ≤ index) (hpeek : Peek (d :: ds)) :
    ∃ f, decodeLoop length size index (d :: ds) frame = .overflow f := by
  have hend : ∀ i : ℕ, index ≤ i → atEnd length i = true := by
    intro i hi
    simp only [atEnd, Bool.and_eq_true, decide_eq_true_eq]
    omega
  by_cases hesc : d = hdlcEscape
  · cases ds with
    | nil => exact absurd rfl (hpeek hesc)
    | cons e ds =>
      rw [decodeLoop, if_pos hesc]
      dsimp only
      rw [hend (index + 1) (by omega), if_pos rfl]
      exact ⟨_, rfl⟩
  · unfold decodeLoop
    rw [if_neg hesc]
    dsimp only
    rw [hend index le_rfl, if_pos rfl]
    exact ⟨_, rfl⟩

end Decode

/-- The decoder finds no end of a frame in its input, nor right behind it. -/
def Incomplete (input stale : List UInt8) : Prop :=
  ∀ size, ∃ f, sstpFrameDecode (input ++ stale) input.length size =
    some ⟨.overflow, input.length, size, f⟩

/-- Flags only: the ones behind the input are skipped as well. -/
lemma incomplete_flags {stale : List UInt8} (hpeek : Peek (stale.dropWhile (· = hdlcFlag)))
    (k : ℕ) : Incomplete (List.replicate k hdlcFlag) stale := by
  intro size
  rw [List.length_replicate]
  obtain ⟨i, d, ds, hi, hskip, hds⟩ : ∃ i d ds, k ≤ i ∧ skipFlags k stale = some (i, d :: ds) ∧
      Peek (d :: ds) := by
    generalize k = i
    induction stale generalizing i with
    | nil => exact absurd hpeek id
    | cons b stale ih =>
      rw [skipFlags]
      by_cases hb : b = hdlcFlag
      · rw [if_pos hb]
        rw [List.dropWhile_cons_of_pos (by simpa using hb)] at hpeek
        obtain ⟨j, d, ds, hj, hskip, hds⟩ := ih hpeek (i + 1)
        exact ⟨j, d, ds, by omega, hskip, hds⟩
      · rw [List.dropWhile_cons_of_neg (by simpa using hb)] at hpeek
        exact ⟨i, b, stale, le_rfl, if_neg hb, hpeek⟩
  obtain ⟨f, hf⟩ : ∃ f, decodeLoop k size i (d :: ds) [] = .overflow f :=
    decodeLoop_past (by omega) (by exact_mod_cast hi) hds
  refine ⟨f, ?_⟩
  unfold sstpFrameDecode
  rw [skipFlags_replicate, Nat.zero_add, hskip]
  dsimp only
  rw [hf]

/-- The bytes of a frame up to an escape. -/
lemma incomplete_escape {k : ℕ} {cs bs stale : List UInt8} (h : Characters cs bs)
    (hstale : stale ≠ []) :
    Incomplete (List.replicate k hdlcFlag ++ (bs ++ [hdlcEscape])) stale := by
  intro size
  obtain ⟨e, ds, rfl⟩ := List.exists_cons_of_ne_nil hstale
  have hlength : (List.replicate k hdlcFlag ++ (bs ++ [hdlcEscape])).length =
      k + bs.length + 1 := by
    simp
    omega
  have hend : atEnd (k + bs.length + 1 : ℕ) (k + bs.length + 1) = true := by
    simp [atEnd]
    omega
  have hloop : decodeLoop (k + bs.length + 1 : ℕ) size (k + bs.length) (hdlcEscape :: e :: ds)
      (cs.foldl (put size) []) =
        .overflow (put size (cs.foldl (put size) []) (e ^^^ hdlcTransparency)) := by
    rw [decodeLoop, if_pos rfl]
    dsimp only
    rw [hend, if_pos rfl]
  rw [hlength, List.append_assoc, List.append_assoc]
  exact ⟨_, decode_overflow h (by decide) (by push_cast; omega) hloop⟩

/-- The bytes of a frame up to another character. -/
lemma incomplete_inside {k : ℕ} {d : UInt8} {cs bs ds : List UInt8} (h : Characters cs bs)
    (hd : d ≠ hdlcFlag) (hpeek : Peek (d :: ds)) :
    Incomplete (List.replicate k hdlcFlag ++ bs) (d :: ds) := by
  intro size
  have hlength : (List.replicate k hdlcFlag ++ bs).length = k + bs.length := by simp
  obtain ⟨f, hf⟩ : ∃ f, decodeLoop (k + bs.length : ℕ) size (k + bs.length) (d :: ds)
      (cs.foldl (put size) []) = .overflow f := decodeLoop_past (by omega) le_rfl hpeek
  rw [hlength, List.append_assoc]
  exact ⟨f, decode_overflow h hd (by push_cast; omega) hf⟩

/-! ### One round of the loop -/

/-- A buffer in which the bytes `ys` are left to be processed. -/
def held (front ys stale : List UInt8) : Buff :=
  ⟨(front ++ ys).length, front.length, front ++ ys ++ stale⟩

section Loop

variable {fuel n : ℕ} {front ys stale : List UInt8} {tx : Buff} {d : Decoded}

lemma processLoop_done :
    processLoop (fuel + 1) ⟨held front [] stale, tx⟩ =
      some (.okay, ⟨held [] [] (front ++ stale), tx⟩, []) := by
  unfold processLoop held
  dsimp only
  rw [List.append_nil, if_neg (lt_irrefl _), if_pos rfl]
  rfl

lemma drop_held :
    (held front ys stale).data.drop (held front ys stale).off.toNat = ys ++ stale := by
  unfold held
  dsimp only
  rw [Int.toNat_natCast, List.append_assoc, List.drop_left]

variable (front ys stale) in
lemma left_held : (held front ys stale).len - (held front ys stale).off = ys.length := by
  unfold held
  dsimp only
  rw [List.length_append]
  push_cast
  omega

lemma off_lt_len (hys : ys ≠ []) : (held front ys stale).off < (held front ys stale).len := by
  have hpos := List.length_pos_of_ne_nil hys
  have hleft := left_held front ys stale
  omega

variable (fuel front) in
/-- **A round** that decodes a frame sends its payload, and goes on behind it. -/
lemma processLoop_okay {t : List UInt8} (htx : 4 ≤ tx.max) (ht : t ≠ [])
    (hdecode : sstpFrameDecode (t ++ ys ++ stale) (t ++ ys).length (tx.max - 4) = some d)
    (hstatus : d.status = .okay) (hlength : d.length = t.length) (hsize : d.size = n)
    (hn : n ≤ d.frame.length) :
    ∃ tx', tx'.max = tx.max ∧ processLoop (fuel + 1) ⟨held front (t ++ ys) stale, tx⟩ =
      (processLoop fuel ⟨held (front ++ t) ys stale, tx'⟩).map fun r =>
        (r.1, r.2.1, dataPacket (d.frame.take n) :: r.2.2) := by
  obtain ⟨b, hinit, hlen, -, hmax, htake⟩ := pktInit_data htx
  have hframe := decode_frame_le (by omega) hdecode
  obtain ⟨b1, b2, hwrite, -, hmax1, hupdate, -, -, hmax2, hdata⟩ :=
    packet_of_frame hlen htake (by omega) hn
  have hnext : { held front (t ++ ys) stale with off := front.length + t.length } =
      held (front ++ t) ys stale := by
    simp only [held, List.append_assoc, List.length_append, Nat.cast_add]
  have hpayload : dataPacket (d.frame.take n) = b2.data.take b2.len.toNat := by
    rw [hdata, dataPacket, List.length_take, Nat.min_eq_left hn]
  refine ⟨b2, by omega, ?_⟩
  rw [← hnext, hpayload, processLoop]
  dsimp only
  rw [if_pos (off_lt_len (List.append_ne_nil_of_left_ne_nil ht ys)), hinit,
    if_neg (not_not.mpr rfl)]
  dsimp only
  rw [drop_held, left_held, hmax, hlen, hdecode, ← hlen]
  simp only [Option.bind_eq_bind, Option.bind_some]
  rw [hwrite]
  simp only [Option.bind_some]
  rw [if_neg (not_not.mpr hstatus), hsize, hlength, hupdate]
  simp only [Option.bind_some]
  exact Option.map_eq_bind.symm

variable (fuel front) in
/-- A round that does not keeps the bytes that are left, at the start of the buffer. -/
lemma processLoop_incomplete (htx : 4 ≤ tx.max) (hys : ys ≠ [])
    (hdecode : sstpFrameDecode (ys ++ stale) ys.length (tx.max - 4) = some d)
    (hstatus : d.status ≠ .okay) (hlength : d.length = ys.length) :
    ∃ tx', tx'.max = tx.max ∧ processLoop (fuel + 1) ⟨held front ys stale, tx⟩ =
      some (.okay, ⟨held [] ys ((front ++ ys ++ stale).drop ys.length), tx'⟩, []) := by
  obtain ⟨b, hinit, hlen, -, hmax, htake⟩ := pktInit_data htx
  have hframe := decode_frame_le (by omega) hdecode
  have hfits : 4 + d.frame.length ≤ b.max := by omega
  obtain ⟨b1, -, hwrite, -, hmax1, -⟩ := packet_of_frame hlen htake hfits (Nat.zero_le _)
  have hmoved : (held front ys stale).write 0 ys =
      some { held front ys stale with data := ys ++ (front ++ ys ++ stale).drop ys.length } := by
    refine (write_of_le le_rfl ?_).trans ?_
    · simp [held, Buff.max]
      omega
    · simp [splice, held]
  have hend : (held front ys stale).len = (held front ys stale).off + d.length := by
    have hleft := left_held front ys stale
    omega
  refine ⟨b1, by omega, ?_⟩
  rw [processLoop]
  dsimp only
  rw [if_pos (off_lt_len hys), hinit, if_neg (not_not.mpr rfl)]
  dsimp only
  rw [drop_held, left_held, hmax, hlen, hdecode, ← hlen]
  simp only [Option.bind_eq_bind, Option.bind_some]
  rw [hwrite]
  simp only [Option.bind_some]
  rw [if_pos hstatus, if_pos (.inr hend), Int.toNat_natCast, List.take_left, hmoved, hlength]
  rfl

end Loop

/-! ### Where the bytes read end -/

/-- The encoding of the payloads. -/
def wire (payloads : List (List UInt8)) : List UInt8 :=
  payloads.flatMap fun payload => hdlcFlag :: (hdlc.stuff (checked payload) ++ [hdlcFlag])

lemma wire_cons (payload : List UInt8) (payloads : List (List UInt8)) :
    wire (payload :: payloads) =
      hdlcFlag :: (hdlc.stuff (checked payload) ++ hdlcFlag :: wire payloads) := by
  simp [wire]

lemma flatten_frames {payloads frames : List (List UInt8)}
    (h : List.Forall₂ Encodes payloads frames) : frames.flatten = wire payloads := by
  induction h with
  | nil => rfl
  | cons head _ ih =>
    obtain ⟨flen, e, henc, hok, rfl⟩ := head
    rw [List.flatten_cons, ih, wire_cons, (encode_okay henc hok).1]
    simp

/-- The bytes read of a frame, with the flags in front of it, and those that are not: the frame
carries `payload`, and `more` is behind it. -/
inductive Cut (payload more : List UInt8) : List UInt8 → List UInt8 → Prop
  | whole (k : ℕ) {ys next : List UInt8} (h : ys ++ next = more) : Cut payload more
      (List.replicate k hdlcFlag ++ hdlc.stuff (checked payload) ++ hdlcFlag :: ys) next
  | flags (k : ℕ) {next : List UInt8} (h : next ≠ []) :
    Cut payload more (List.replicate k hdlcFlag) next
  | escape (k : ℕ) (cs : List UInt8) {next : List UInt8} (h : next ≠ []) :
    Cut payload more (List.replicate k hdlcFlag ++ (hdlc.stuff cs ++ [hdlcEscape])) next
  | inside (k : ℕ) (c : UInt8) (cs zs : List UInt8) (h : checked payload = c :: cs ++ zs) :
    Cut payload more (List.replicate (k + 1) hdlcFlag ++ hdlc.stuff (c :: cs))
      (hdlc.stuff zs ++ hdlcFlag :: more)

lemma cut_of_append {payload more ys next : List UInt8} {k : ℕ} (h : ys ++ next =
      List.replicate (k + 1) hdlcFlag ++ hdlc.stuff (checked payload) ++ hdlcFlag :: more) :
    Cut payload more ys next := by
  have hopen : ∀ u, List.replicate (k + 1) hdlcFlag ++ hdlc.stuff (checked payload) = ys ++ u →
      next = u ++ hdlcFlag :: more → Cut payload more ys next := by
    intro u hys hnext
    have hne : next ≠ [] := by simp [hnext]
    rcases List.append_eq_append_iff.mp hys with ⟨t, rfl, hstuff⟩ | ⟨t, hflags, -⟩
    · obtain ⟨cs, zs, hchecked, ⟨rfl, rfl⟩ | ⟨c, ds, rfl, rfl, rfl⟩⟩ := stuff_eq_append hdlc hstuff
      · cases cs with
        | nil =>
          rw [stuff_nil, List.append_nil]
          exact .flags _ hne
        | cons c cs =>
          rw [hnext]
          exact .inside k c cs zs hchecked
      · exact .escape _ cs hne
    · rw [(List.append_eq_replicate_iff.mp hflags.symm).2.1]
      exact .flags _ hne
  rcases List.append_eq_append_iff.mp h with ⟨u, hys, hnext⟩ | ⟨t, rfl, hmore⟩
  · exact hopen u hys hnext
  · cases t with
    | nil => exact hopen [] (by simp) hmore.symm
    | cons b t =>
      obtain ⟨rfl, htail⟩ := List.cons.inj hmore
      exact .whole _ htail.symm

/-- What stands for a character ends neither as a flag nor as an escape. -/
lemma last_stuff (front : List UInt8) (c : UInt8) (cs : List UInt8) :
    (front ++ hdlc.stuff (c :: cs)).getLast? ≠ some hdlcFlag ∧
      (front ++ hdlc.stuff (c :: cs)).getLast? ≠ some hdlcEscape := by
  obtain ⟨init, l, hinit⟩ : ∃ init l, c :: cs = init ++ [l] :=
    ⟨_, _, (List.dropLast_concat_getLast (List.cons_ne_nil c cs)).symm⟩
  have hstuff : front ++ hdlc.stuff (c :: cs) = front ++ hdlc.stuff init ++ hdlc.byte l := by
    rw [hinit, Stuffing.stuff, Stuffing.stuff, List.flatMap_append, List.flatMap_singleton,
      List.append_assoc]
  rw [hstuff]
  cases hl : hdlc.special l with
  | false =>
    obtain ⟨hflag, hesc⟩ := plain_ne hdlc hl
    rw [byte_of_plain hdlc hl, List.getLast?_concat]
    exact ⟨fun h => hflag (Option.some.inj h), fun h => hesc (Option.some.inj h)⟩
  | true =>
    have hsplit : front ++ hdlc.stuff init ++ hdlc.byte l =
        front ++ hdlc.stuff init ++ [hdlcEscape] ++ [hdlc.image l] := by
      simp only [byte_of_special hdlc hl, List.append_assoc]
      rfl
    rw [hsplit, List.getLast?_concat]
    refine ⟨fun h => hdlc.image_ne_flag l hl (Option.some.inj h), fun h => ?_⟩
    -- the byte sent as an escape behind an escape would be one that is not escaped
    have hl' : l = 0x5d := by
      calc l = hdlc.image (hdlc.image l) := (hdlc.image_image l).symm
        _ = hdlc.image hdlcEscape := by rw [Option.some.inj h]
        _ = 0x5d := rfl
    rw [hl'] at hl
    exact absurd hl (by decide)

/-! ### The loop -/

/-- Some payloads have been sent. What is left in the buffer, and what is not yet read, are flags
and the encoding of the others. -/
inductive Processed (room : ℤ) (next : List UInt8) :
    List (List UInt8) → Option (Status × Buffs × List (List UInt8)) → Prop
  | mk (sent : List (List UInt8)) (k : ℕ) {rest : List (List UInt8)} {ys stale : List UInt8}
    {tx : Buff} (hroom : tx.max = room)
    (hleft : ys ++ next = List.replicate k hdlcFlag ++ wire rest) (hread : rest = [] ∨ next ≠ []) :
    Processed room next (sent ++ rest)
      (some (.okay, ⟨held [] ys stale, tx⟩, sent.map dataPacket))

section Loop

variable {fuel k : ℕ} {front ys stale next : List UInt8} {payloads : List (List UInt8)} {tx : Buff}

/-- Nothing is left of what has been read. -/
lemma processed_done (hfuel : 0 < fuel) (h : next = List.replicate k hdlcFlag ++ wire payloads) :
    Processed tx.max next payloads (processLoop fuel ⟨held front [] stale, tx⟩) := by
  obtain ⟨n, rfl⟩ : ∃ n, fuel = n + 1 := ⟨fuel - 1, by omega⟩
  rw [processLoop_done]
  refine .mk [] k rfl h ?_
  cases payloads with
  | nil => exact .inl rfl
  | cons payload payloads => exact .inr (by simp [h, wire_cons])

lemma processed_incomplete {d : Decoded} (htx : 4 ≤ tx.max) (hys : ys ≠ [])
    (hdecode : sstpFrameDecode (ys ++ stale) ys.length (tx.max - 4) = some d)
    (hstatus : d.status ≠ .okay) (hlength : d.length = ys.length)
    (hwire : ys ++ next = List.replicate k hdlcFlag ++ wire payloads)
    (hread : payloads = [] ∨ next ≠ []) :
    Processed tx.max next payloads (processLoop (fuel + 1) ⟨held front ys stale, tx⟩) := by
  obtain ⟨tx', htx', hloop⟩ :=
    processLoop_incomplete fuel front htx hys hdecode hstatus hlength
  rw [hloop]
  exact .mk [] k htx' hwire hread

lemma processed_overflow (htx : 4 ≤ tx.max) (hys : ys ≠ []) (hinc : Incomplete ys stale)
    (hwire : ys ++ next = List.replicate k hdlcFlag ++ wire payloads)
    (hread : payloads = [] ∨ next ≠ []) :
    Processed tx.max next payloads (processLoop (fuel + 1) ⟨held front ys stale, tx⟩) := by
  obtain ⟨f, hf⟩ := hinc (tx.max - 4)
  exact processed_incomplete htx hys hf Status.noConfusion rfl hwire hread

/-- A frame is sent, and a flag is behind it. -/
lemma processed_frame {payload t : List UInt8} {j : ℕ}
    (ht : t = List.replicate j hdlcFlag ++ hdlc.stuff (checked payload))
    (hn : 2 ≤ payload.length) (hroom : payload.length + 6 ≤ tx.max)
    (hflag : ∃ tail, ys ++ stale = hdlcFlag :: tail)
    (hrest : ∀ tx', tx'.max = tx.max → Processed tx'.max next
      payloads (processLoop fuel ⟨held (front ++ t) ys stale, tx'⟩)) :
    Processed tx.max next (payload :: payloads)
      (processLoop (fuel + 1) ⟨held front (t ++ ys) stale, tx⟩) := by
  obtain ⟨tail, htail⟩ := hflag
  have htlen : t.length = j + (hdlc.stuff (checked payload)).length := by simp [ht]
  have hstuff : payload.length + 2 ≤ (hdlc.stuff (checked payload)).length := by
    rw [length_stuff, length_checked]
    omega
  have hne : t ≠ [] := List.ne_nil_of_length_pos (by omega)
  have hdecode : sstpFrameDecode (t ++ ys ++ stale) (t ++ ys).length (tx.max - 4) =
      some ⟨.okay, t.length, payload.length, checked payload⟩ := by
    rw [List.append_assoc t ys stale, htail, htlen, ht, List.append_assoc]
    refine decode_frame hn ?_ (by omega)
    simp
  have hle : payload.length ≤ (checked payload).length := by simp [length_checked]
  obtain ⟨tx', htx', hloop⟩ := processLoop_okay fuel front (by omega) hne hdecode rfl rfl rfl hle
  have hpayload : (checked payload).take payload.length = payload := List.take_left' rfl
  rw [hloop, ← htx']
  dsimp only
  rw [hpayload]
  have hprocessed := hrest tx' htx'
  generalize processLoop fuel ⟨held (front ++ t) ys stale, tx'⟩ = r at hprocessed
  cases hprocessed with
  | mk sent k hroom hleft hread => exact .mk (payload :: sent) k hroom hleft hread

lemma last_flags {j : ℕ} (front : List UInt8) (h : List.replicate j hdlcFlag ≠ []) :
    (front ++ List.replicate j hdlcFlag).getLast? = some hdlcFlag := by
  rw [List.getLast?_append_of_ne_nil _ h, List.getLast?_replicate, if_neg]
  rintro rfl
  exact h rfl

/-- The first characters of a frame with a stale flag behind them are no frame. -/
lemma decode_prefix {c z : UInt8} {cs zs more : List UInt8} {j : ℕ} {size : ℤ}
    (hcs : (c :: cs).length ≤ size)
    (hharm : Harmless (front ++ List.replicate (j + 1) hdlcFlag ++ hdlc.stuff (c :: cs))
      (hdlcFlag :: stale) (hdlc.stuff (z :: zs) ++ more)) :
    ∃ d, sstpFrameDecode
        (List.replicate (j + 1) hdlcFlag ++ hdlc.stuff (c :: cs) ++ hdlcFlag :: stale)
        (List.replicate (j + 1) hdlcFlag ++ hdlc.stuff (c :: cs)).length size = some d ∧
      d.status ≠ .okay ∧
        d.length = (List.replicate (j + 1) hdlcFlag ++ hdlc.stuff (c :: cs)).length := by
  have hcopied : (c :: cs).foldl (put size) [] = c :: cs := by
    rw [foldl_put, List.nil_append]
    simpa using hcs
  have hlength : (List.replicate (j + 1) hdlcFlag ++ hdlc.stuff (c :: cs)).length =
      j + 1 + (hdlc.stuff (c :: cs)).length := by
    rw [List.length_append, List.length_replicate]
  have hcheck : 4 ≤ (c :: cs).length →
      sstpFrameCheck pppInitFcs16 (c :: cs) ≠ pppGoodFcs16 := by
    intro h4 hgood
    have hused : front ++ List.replicate (j + 1) hdlcFlag ++ hdlc.stuff (c :: cs) =
        front ++ List.replicate j hdlcFlag ++ hdlcFlag :: hdlc.stuff (c :: cs) := by
      simp [List.replicate_succ']
    have hnext := hharm.cut _ _ hused h4 hgood rfl
    obtain ⟨d, ds, hds, hd⟩ := stuff_cons_eq hdlc z zs
    rw [hds] at hnext
    exact hd (Option.some.inj hnext)
  rw [hlength, List.append_assoc]
  refine ⟨_, decode_characters (characters_stuff (c :: cs)) (by push_cast; omega) hcopied, ?_, ?_⟩
  · dsimp only
    split_ifs with h4 hgood
    · exact Status.noConfusion
    · exact Status.noConfusion
    · exact absurd (not_not.mp hgood) (hcheck (by omega))
  · push_cast
    rfl

/-- A frame of which some characters have been read: it is sent if it lacks its closing flag only,
and a stale flag is in the place of that. -/
lemma processed_inside {payload cs zs : List UInt8} {c : UInt8} {j : ℕ} (hfuel : 0 < fuel)
    (hn : 2 ≤ payload.length) (hroom : payload.length + 6 ≤ tx.max)
    (h : checked payload = c :: cs ++ zs)
    (hys : ys = List.replicate (j + 1) hdlcFlag ++ hdlc.stuff (c :: cs))
    (hnext : next = hdlc.stuff zs ++ hdlcFlag :: wire payloads)
    (hwire : ys ++ next = List.replicate k hdlcFlag ++ wire (payload :: payloads))
    (hharm : Harmless (front ++ ys) stale next) :
    Processed tx.max next (payload :: payloads)
      (processLoop (fuel + 1) ⟨held front ys stale, tx⟩) := by
  have htx : 4 ≤ tx.max := by omega
  have hne : ys ≠ [] := by simp [hys]
  have hread : next ≠ [] := by simp [hnext]
  have hused : front ++ ys =
      front ++ List.replicate (j + 1) hdlcFlag ++ hdlc.stuff (c :: cs) := by
    rw [hys, List.append_assoc]
  have hlast := last_stuff (front ++ List.replicate (j + 1) hdlcFlag) c cs
  rw [← hused] at hlast
  have hpeek := hharm.inside hlast.1 hlast.2
  cases stale with
  | nil => exact absurd hpeek id
  | cons d stale =>
    by_cases hd : d = hdlcFlag
    · subst hd
      cases zs with
      | nil =>
        rw [List.append_nil] at h
        rw [stuff_nil, List.nil_append] at hnext
        have hframe : Processed tx.max next (payload :: payloads)
            (processLoop (fuel + 1) ⟨held front (_ ++ []) (hdlcFlag :: stale), tx⟩) :=
          processed_frame (j := j + 1) rfl hn hroom ⟨stale, rfl⟩
            fun tx' _ => processed_done hfuel (k := 1) hnext
        rwa [List.append_nil, h, ← hys] at hframe
      | cons z zs =>
        have hcs : (c :: cs).length ≤ tx.max - 4 := by
          have hlen := length_checked payload
          rw [h, List.length_append, List.length_cons (a := z)] at hlen
          omega
        rw [hused, hnext] at hharm
        obtain ⟨d, hdecode, hstatus, hlength⟩ := decode_prefix hcs hharm
        rw [← hys] at hdecode hlength
        exact processed_incomplete htx hne hdecode hstatus hlength hwire (.inr hread)
    · have hinc : Incomplete ys (d :: stale) := by
        rw [hys]
        exact incomplete_inside (characters_stuff (c :: cs)) hd hpeek
      exact processed_overflow htx hne hinc hwire (.inr hread)

/-- **The loop** sends what has been read of the payloads, and keeps the rest. -/
lemma processLoop_processed (hfuel : ys.length < fuel) (htx : 4 ≤ tx.max)
    (hwire : ys ++ next = List.replicate k hdlcFlag ++ wire payloads)
    (hpayloads : ∀ payload ∈ payloads, 2 ≤ payload.length ∧ payload.length + 6 ≤ tx.max)
    (hharm : Harmless (front ++ ys) stale next) :
    Processed tx.max next payloads (processLoop fuel ⟨held front ys stale, tx⟩) := by
  -- what has been read of the first payload decides the round; the others are the induction's
  induction payloads generalizing fuel front ys k tx with
  | nil =>
    obtain ⟨fuel, rfl⟩ : ∃ n, fuel = n + 1 := ⟨fuel - 1, by omega⟩
    by_cases hys : ys = []
    · subst hys
      exact processed_done (by omega) hwire
    · have hflags : ys = List.replicate ys.length hdlcFlag := by
        rw [wire, List.flatMap_nil, List.append_nil] at hwire
        exact (List.append_eq_replicate_iff.mp hwire).2.1
      have hinc : Incomplete ys stale := by
        rw [hflags] at hys hharm ⊢
        exact incomplete_flags (hharm.flags (last_flags front hys)) _
      exact processed_overflow htx hys hinc hwire (.inl rfl)
  | cons payload payloads ih =>
    obtain ⟨fuel, rfl⟩ : ∃ n, fuel = n + 1 := ⟨fuel - 1, by omega⟩
    by_cases hys : ys = []
    · subst hys
      exact processed_done (by omega) hwire
    · have hcut : Cut payload (wire payloads) ys next := by
        refine cut_of_append (k := k) ?_
        rw [hwire, wire_cons, List.replicate_succ', List.append_assoc, List.append_assoc]
        rfl
      obtain ⟨hn, hroom⟩ := hpayloads payload List.mem_cons_self
      cases hcut with
      | @whole j ys _ h =>
        have hlen : (hdlcFlag :: ys).length < fuel := by
          have hstuff := length_stuff hdlc (checked payload)
          rw [length_checked] at hstuff
          simp only [List.length_append, List.length_cons] at hfuel ⊢
          omega
        refine processed_frame rfl hn hroom ⟨_, rfl⟩ fun tx' htx' => ?_
        refine ih (k := 1) hlen (by omega) ?_ ?_ ?_
        · rw [List.cons_append, h]
          rfl
        · rw [htx']
          exact fun p hp => hpayloads p (List.mem_cons_of_mem _ hp)
        · rwa [List.append_assoc]
      | flags j h =>
        have hinc := incomplete_flags (hharm.flags (last_flags front hys)) j
        exact processed_overflow htx hys hinc hwire (.inr h)
      | escape j cs h =>
        have hstale : stale ≠ [] := hharm.escape (by
          rw [← List.append_assoc, ← List.append_assoc, List.getLast?_concat])
        have hinc := incomplete_escape (k := j) (characters_stuff cs) hstale
        exact processed_overflow htx hys hinc hwire (.inr h)
      | inside j c cs zs h =>
        have hpos := List.length_pos_of_ne_nil hys
        exact processed_inside (by omega) hn hroom h rfl rfl hwire hharm

end Loop

end SstpClient.Deframe
