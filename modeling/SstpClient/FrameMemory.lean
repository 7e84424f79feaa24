import SstpClient.Fcs

/-!
The memory of the frame coder: what `sstp_frame_decode` reads, and what `sstp_frame_encode` writes.

The receiver looks for the closing flag behind each character before it knows whether the input goes
on, so that it stays inside its input only when the flag is there, or when the input ends in an
escape and there is no room for what the escape stands for.
-/

namespace SstpClient.FrameMemory

open SstpClient.Lib.Framing SstpClient.Buffer SstpClient.Fcs

/-! ### What is read -/

/-- A closing flag is in the input: flags, some characters, and a flag behind them. -/
def Closed (input : List UInt8) : Prop :=
  ∃ (k : ℕ) (c : UInt8) (cs bs rest : List UInt8), Characters (c :: cs) bs ∧
    input = List.replicate k hdlcFlag ++ (bs ++ hdlcFlag :: rest)

/-- An escape ends the input, and there is no room for the byte behind it. -/
def Full (input : List UInt8) (size : ℤ) : Prop :=
  ∃ (k : ℕ) (cs bs : List UInt8), Characters cs bs ∧
    input = List.replicate k hdlcFlag ++ (bs ++ [hdlcEscape]) ∧ 0 ≤ size ∧ size ≤ cs.length

/-- `sstp_frame_decode` reads nothing but its input, with `*length` its length: there is no fault
when the memory ends there, what lies behind it makes no difference, and an input that is not closed
is incomplete. -/
structure OwnInput (input : List UInt8) (size : ℤ) : Prop where
  inside : ∃ d, sstpFrameDecode input input.length size = some d
  agree : ∀ tail tail', sstpFrameDecode (input ++ tail) input.length size =
    sstpFrameDecode (input ++ tail') input.length size
  incomplete : ¬ Closed input → ∀ tail, ∃ d,
    sstpFrameDecode (input ++ tail) input.length size = some d ∧ d.status = .overflow

lemma skipFlags_eq_some {input bs : List UInt8} {index i : ℕ}
    (h : skipFlags index input = some (i, bs)) :
    index ≤ i ∧ input = List.replicate (i - index) hdlcFlag ++ bs ∧
      ∃ b rest, bs = b :: rest ∧ b ≠ hdlcFlag := by
  induction input generalizing index with
  | nil => cases h
  | cons b input ih =>
    rw [skipFlags] at h
    split_ifs at h with hb
    · obtain ⟨hle, hinput, hhead⟩ := ih h
      refine ⟨by omega, ?_, hhead⟩
      rw [show i - index = i - (index + 1) + 1 by omega, List.replicate_succ, List.cons_append,
        ← hinput, hb]
    · cases h
      exact ⟨le_rfl, by simp, b, input, rfl, hb⟩

section Loop

variable {length size : ℤ}

/-- What is copied is what there is room for. -/
lemma length_copied (hsize : 0 ≤ size) {cs frame : List UInt8} (hframe : frame.length ≤ size) :
    ((cs.foldl (put size) frame).length : ℤ) = min size (frame.length + cs.length) := by
  induction cs generalizing frame with
  | nil => simp [hframe]
  | cons c cs ih =>
    rw [List.foldl_cons, put]
    split_ifs with hroom
    · have hlt : frame.length < size := hroom.resolve_left (by omega)
      have hlength : (frame ++ [c]).length = frame.length + 1 := by simp
      rw [ih (by omega), hlength, List.length_cons]
      push_cast
      omega
    · rw [Room, not_or] at hroom
      rw [ih hframe, List.length_cons]
      push_cast
      omega

lemma not_room_iff {cs : List UInt8} :
    ¬Room size (cs.foldl (put size) []) ↔ 0 ≤ size ∧ size ≤ cs.length := by
  by_cases hsize : 0 ≤ size
  · have hlength : ((cs.foldl (put size) []).length : ℤ) = min size cs.length :=
      (length_copied hsize (by simpa using hsize)).trans (by simp)
    simp only [Room, not_or]
    rw [hlength]
    omega
  · simp only [Room, not_or]
    omega

/-- An escape at the end, without room: the byte behind it is not read. -/
lemma decodeLoop_full {index : ℕ} {tail frame : List UInt8} (hroom : ¬Room size frame)
    (hlength : length = index + 1) :
    decodeLoop length size index (hdlcEscape :: tail) frame = .overflow frame := by
  have hend : atEnd length (index + 1) = true := by
    simp only [atEnd, Bool.and_eq_true, decide_eq_true_eq]
    push_cast
    omega
  cases tail with
  | nil => rw [decodeLoop, if_pos rfl, if_neg hroom, hend, if_pos rfl]
  | cons c tail =>
    rw [decodeLoop, if_pos rfl]
    dsimp only
    rw [hend, if_pos rfl, put, if_neg hroom]

/-- The loop over an input that ends with the memory: it looks behind each character, and finds that
the input is incomplete only without a look at the last one. -/
lemma decodeLoop_whole {index n : ℕ} {b : UInt8} {rest frame : List UInt8}
    (hn : (b :: rest).length = n) (hb : b ≠ hdlcFlag) (hlen : index + (b :: rest).length = length)
    (h : decodeLoop length size index (b :: rest) frame ≠ .fault) :
    (∃ (c : UInt8) (cs bs tail : List UInt8), Characters (c :: cs) bs ∧
      b :: rest = bs ++ hdlcFlag :: tail) ∨
    ∃ cs bs : List UInt8, Characters cs bs ∧ b :: rest = bs ++ [hdlcEscape] ∧
      ¬Room size (cs.foldl (put size) frame) := by
  induction n using Nat.strong_induction_on generalizing index b rest frame with
  | _ n ih =>
  by_cases hend : b = hdlcEscape ∧ rest = []
  · obtain ⟨rfl, rfl⟩ := hend
    refine .inr ⟨[], [], .nil, rfl, fun hroom => h ?_⟩
    rw [decodeLoop, if_pos rfl]
    exact if_pos hroom
  -- one character `ch`, which ends inside the input
  obtain ⟨c, ch, more, hch, hsplit⟩ : ∃ c ch more, Character c ch ∧ b :: rest = ch ++ more := by
    by_cases hesc : b = hdlcEscape
    · obtain ⟨e, rest', rfl⟩ := List.exists_cons_of_ne_nil fun hnil => hend ⟨hesc, hnil⟩
      exact ⟨_, [hdlcEscape, e], rest', .escape e, by rw [hesc]; rfl⟩
    · exact ⟨b, [b], rest, .plain hb hesc, rfl⟩
  rw [hsplit] at h hlen
  cases more with
  | nil =>
    exfalso
    rw [List.append_nil] at h hlen
    cases hch with
    | plain hflag hesc =>
      refine h ?_
      rw [decodeLoop, if_neg hesc]
      dsimp only
      rw [atEnd_of_lt (by simp at hlen; omega), if_neg Bool.false_ne_true]
    | escape e =>
      refine h ?_
      rw [decodeLoop, if_pos rfl]
      dsimp only
      rw [atEnd_of_lt (by simp at hlen ⊢; omega), if_neg Bool.false_ne_true]
  | cons d ds =>
    by_cases hd : d = hdlcFlag
    · refine .inl ⟨c, [], ch, ds, ?_, by rw [hsplit, hd]⟩
      have hone := Characters.cons hch .nil
      rwa [List.append_nil] at hone
    · obtain ⟨x, xs, hx, -⟩ := hch.ne_flag
      rw [List.length_append] at hlen
      push_cast at hlen
      rw [decodeLoop_character hch (by omega), if_neg hd] at h
      have hshort : (d :: ds).length < n := by
        rw [← hn, hsplit, hx]
        simp
      rcases ih _ hshort rfl hd (by push_cast; omega) h with
        ⟨c', cs, bs, tail, hbs, htail⟩ | ⟨cs, bs, hbs, htail, hroom⟩
      · refine .inl ⟨c, c' :: cs, ch ++ bs, tail, .cons hch hbs, ?_⟩
        rw [hsplit, htail, List.append_assoc]
      · refine .inr ⟨c :: cs, ch ++ bs, .cons hch hbs, ?_, hroom⟩
        rw [hsplit, htail, List.append_assoc]

end Loop

/-- A closed input is decoded without a look behind it. -/
lemma decode_closed {input : List UInt8} (h : Closed input) (size : ℤ) :
    ∃ d, ∀ tail, sstpFrameDecode (input ++ tail) input.length size = some d := by
  obtain ⟨k, c, cs, bs, rest, hbs, hinput⟩ := h
  have hmem : ∀ tail, input ++ tail =
      List.replicate k hdlcFlag ++ (bs ++ hdlcFlag :: (rest ++ tail)) := by
    intro tail
    rw [hinput, List.append_assoc, List.append_assoc, List.cons_append]
  have hfits : k + bs.length ≤ (input.length : ℤ) := by
    rw [hinput]
    simp only [List.length_append, List.length_replicate, List.length_cons]
    push_cast
    omega
  exact ⟨_, fun tail => (congrArg (fun mem => sstpFrameDecode mem _ _) (hmem tail)).trans
    (decode_characters hbs hfits rfl)⟩

/-- An input that is full is incomplete, whatever lies behind it. -/
lemma decode_full {input : List UInt8} {size : ℤ} (h : Full input size) :
    ∃ frame, ∀ tail, sstpFrameDecode (input ++ tail) input.length size =
      some ⟨.overflow, input.length, size, frame⟩ := by
  obtain ⟨k, cs, bs, hbs, hinput, hroom⟩ := h
  have hlength : (input.length : ℤ) = (k + bs.length : ℕ) + 1 := by
    rw [hinput]
    simp
    omega
  refine ⟨cs.foldl (put size) [], fun tail => ?_⟩
  have hmem : input ++ tail = List.replicate k hdlcFlag ++ (bs ++ hdlcEscape :: tail) := by
    rw [hinput]
    simp
  rw [hmem]
  refine decode_overflow hbs (by decide) (by push_cast at hlength; omega) ?_
  exact decodeLoop_full (not_room_iff.mpr hroom) hlength

/-- An input that is decoded inside its own memory is closed, or full. -/
lemma ends_of_decode {input : List UInt8} {size : ℤ} {d : Decoded}
    (h : sstpFrameDecode input input.length size = some d) : Closed input ∨ Full input size := by
  unfold sstpFrameDecode at h
  split at h
  · cases h
  · next index bs hskip =>
    obtain ⟨-, hinput, b, rest, rfl, hb⟩ := skipFlags_eq_some hskip
    have hlen : index + (b :: rest).length = (input.length : ℤ) := by
      rw [hinput, List.length_append, List.length_replicate]
      push_cast
      omega
    have hfault : decodeLoop input.length size index (b :: rest) [] ≠ .fault := by
      intro hloop
      rw [hloop] at h
      cases h
    rcases decodeLoop_whole rfl hb hlen hfault with
      ⟨c, cs, bs, tail, hbs, hrest⟩ | ⟨cs, bs, hbs, hrest, hroom⟩
    · exact .inl ⟨_, c, cs, bs, tail, hbs, by rw [hinput, hrest]⟩
    · exact .inr ⟨_, cs, bs, hbs, by rw [hinput, hrest], not_room_iff.mp hroom⟩

/-- **What the frame decoder reads** is its input exactly when the closing flag is in it, or an
escape ends it and there is no room for the byte behind. -/
theorem ownInput_iff_ends (input : List UInt8) (size : ℤ) :
    OwnInput input size ↔ Closed input ∨ Full input size := by
  constructor
  · intro h
    obtain ⟨d, hd⟩ := h.inside
    exact ends_of_decode hd
  · rintro (h | h)
    · obtain ⟨d, hd⟩ := decode_closed h size
      refine ⟨⟨d, ?_⟩, fun tail tail' => by rw [hd, hd], fun hopen => absurd h hopen⟩
      have hnone := hd []
      rwa [List.append_nil] at hnone
    · obtain ⟨frame, hd⟩ := decode_full h
      refine ⟨⟨⟨.overflow, input.length, size, frame⟩, ?_⟩, fun tail tail' => by rw [hd, hd],
        fun _ tail => ⟨_, hd tail, rfl⟩⟩
      have hnone := hd []
      rwa [List.append_nil] at hnone

/-- A frame without its closing flag. -/
def openFrame : List UInt8 := [0x7e, 0xc0, 0x21, 0x66, 0xf5]

/-- A flag behind the input makes it a frame. -/
theorem openFrame_not_ownInput : ¬ OwnInput openFrame 1500 := by
  intro h
  have hagree := h.agree [0x7e] [0x00]
  exact absurd hagree (by decide)

/-! ### What is written -/

lemma encodeLoop_length {flen : ℤ} {cs frame : List UInt8} (h : frame.length ≤ flen) :
    (encodeLoop flen cs frame).2.length ≤ flen := by
  induction cs generalizing frame with
  | nil => exact h
  | cons c cs ih =>
    unfold encodeLoop
    split_ifs with hroom hc
    · exact h
    · refine ih ?_
      rw [List.length_append]
      simp only [List.length_cons, List.length_nil]
      omega
    · refine ih ?_
      rw [List.length_append]
      simp only [List.length_cons, List.length_nil]
      omega

/-- The room is compared with the worst case, one character after the other, so that the last one
decides. -/
lemma encodeLoop_okay_iff {flen : ℤ} {c : UInt8} {cs frame : List UInt8} :
    (encodeLoop flen (c :: cs) frame).1 = .okay ↔
      frame.length + (hdlc.stuff (c :: cs).dropLast).length + 3 ≤ flen := by
  induction cs generalizing c frame with
  | nil =>
    rw [encodeLoop]
    split_ifs with hroom hc
    · simp
      omega
    · simp [encodeLoop]
      omega
    · simp [encodeLoop]
      omega
  | cons c' cs ih =>
    have hstuff : (hdlc.stuff (c :: c' :: cs).dropLast).length =
        (hdlc.byte c).length + (hdlc.stuff (c' :: cs).dropLast).length := by
      rw [List.dropLast_cons_cons, stuff_cons, List.length_append]
    rw [encodeLoop, hstuff]
    split_ifs with hroom hc
    · simp
      omega
    · have hbyte : hdlc.byte c = [hdlcEscape, c ^^^ hdlcTransparency] := byte_of_special hdlc hc
      rw [ih, hbyte, List.length_append]
      push_cast
      omega
    · have hbyte : hdlc.byte c = [c] := byte_of_plain hdlc (Bool.eq_false_iff.mpr hc)
      rw [ih, hbyte, List.length_append]
      push_cast
      omega

/-- `flen` of `sstp_pppd_send`, for a payload of `len` bytes. -/
def maxFrame (len : ℤ) : ℤ := 2 * len + 4

/-- The low byte of the check sequence, which is sent first. -/
def lowCheck (payload : List UInt8) : UInt8 :=
  (sstpFrameCheck pppInitFcs16 payload ^^^ 0xffff).toUInt8

/-- The frame that `sstp_pppd_send` allocates is enough, and no frame is overrun. -/
structure Enough (payload : List UInt8) : Prop where
  okay : ∃ e, sstpFrameEncode payload (maxFrame payload.length) = some e ∧ e.status = .okay
  inside : ∀ flen, 1 ≤ flen → ∃ e, sstpFrameEncode payload flen = some e ∧ e.frame.length ≤ flen

/-- Some byte of the payload is sent as it is, and makes up for the check sequence. -/
def Spare (payload : List UInt8) : Prop :=
  (payload ++ [lowCheck payload]).countP escaped < payload.length

lemma checked_eq (payload : List UInt8) : ∃ hi,
    checked payload = payload ++ [lowCheck payload, hi] := ⟨_, rfl⟩

lemma encode_eq {payload : List UInt8} (hmax : payload.length + 2 ≤ intMax) (flen : ℤ) :
    ∃ e, sstpFrameEncode payload flen = some e ∧
      e.status = (encodeLoop flen (checked payload) [hdlcFlag]).1 ∧
        (1 ≤ flen → e.frame.length ≤ flen) := by
  have hchecked : checked payload = payload ++
      [(sstpFrameCheck pppInitFcs16 payload ^^^ pppInitFcs16).toUInt8,
        ((sstpFrameCheck pppInitFcs16 payload ^^^ pppInitFcs16) >>> 8).toUInt8] := rfl
  have hlength : 1 ≤ flen → (encodeLoop flen (checked payload) [hdlcFlag]).2.length ≤ flen :=
    fun h => encodeLoop_length h
  unfold sstpFrameEncode
  rw [if_neg (by omega)]
  dsimp only
  rw [← hchecked]
  cases hloop : encodeLoop flen (checked payload) [hdlcFlag] with
  | mk status frame =>
  rw [hloop] at hlength
  by_cases hstatus : status = .okay
  · subst hstatus
    obtain ⟨c, cs, hcs⟩ := checked_ne_nil payload
    rw [hcs] at hloop
    have hfits := encodeLoop_fits hloop
    refine ⟨_, rfl, rfl, fun _ => ?_⟩
    rw [List.length_append]
    push_cast
    exact hfits
  · refine ⟨⟨status, frame, flen⟩, ?_, rfl, hlength⟩
    cases status with
    | okay => exact absurd rfl hstatus
    | _ => rfl

/-- **The frame is large enough** exactly when fewer characters are escaped than the payload has,
but for the last one. -/
theorem enough_iff_spare (payload : List UInt8) (hmax : maxFrame payload.length ≤ intMax) :
    Enough payload ↔ Spare payload := by
  have hmax' : (payload.length : ℤ) + 2 ≤ intMax := by
    unfold maxFrame at hmax
    omega
  obtain ⟨e, he, hstatus, -⟩ := encode_eq hmax' (maxFrame payload.length)
  obtain ⟨hi, hchecked⟩ := checked_eq payload
  have hlast : (checked payload).dropLast = payload ++ [lowCheck payload] := by
    rw [hchecked, List.dropLast_append_of_ne_nil (by simp)]
    rfl
  have hroom : e.status = .okay ↔ Spare payload := by
    obtain ⟨c, cs, hcs⟩ := checked_ne_nil payload
    rw [hstatus, hcs, encodeLoop_okay_iff, ← hcs, hlast, length_stuff]
    unfold maxFrame Spare
    rw [List.length_append, List.length_singleton, List.length_singleton]
    push_cast
    change _ ↔ (payload ++ [lowCheck payload]).countP hdlc.special < _
    omega
  constructor
  · intro h
    obtain ⟨e', he', hokay⟩ := h.okay
    rw [he] at he'
    cases he'
    exact hroom.mp hokay
  · intro h
    refine ⟨⟨e, he, hroom.mpr h⟩, fun flen hflen => ?_⟩
    obtain ⟨f, hf, -, hinside⟩ := encode_eq hmax' flen
    exact ⟨f, hf, hinside hflen⟩

theorem enough_iff_spare_short : Enough shortPayload ↔ Spare shortPayload :=
  enough_iff_spare shortPayload (by decide)

/-- A payload of one flag takes two bytes, and its check sequence two more. -/
theorem flag_not_enough : ¬ Enough [0x7e] := by
  intro h
  obtain ⟨e, he, hokay⟩ := h.okay
  cases he
  exact absurd hokay (by decide)

end SstpClient.FrameMemory
