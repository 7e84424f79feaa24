import SstpClient.Buffer
import SstpClient.Lib.Framing

/-!
HDLC frames, `sstp-fcs.c`: the frame check, and a frame encoded and decoded.

The receiver is a loop over the memory it is given; what it reads past the end of it is a fault.
-/

namespace SstpClient.Fcs

open SstpClient.Lib.Framing SstpClient.Buffer

def hdlcFlag : UInt8 := 0x7e
def hdlcEscape : UInt8 := 0x7d
def hdlcTransparency : UInt8 := 0x20

/-- `PPPINITFCS16`. -/
def pppInitFcs16 : UInt16 := 0xffff

/-- `PPPGOODFCS16`. -/
def pppGoodFcs16 : UInt16 := 0xf0b8

/-! ### The frame check -/

def fcstab : List UInt16 := [
  0x0000, 0x1189, 0x2312, 0x329b, 0x4624, 0x57ad, 0x6536, 0x74bf, 0x8c48, 0x9dc1, 0xaf5a, 0xbed3,
  0xca6c, 0xdbe5, 0xe97e, 0xf8f7, 0x1081, 0x0108, 0x3393, 0x221a, 0x56a5, 0x472c, 0x75b7, 0x643e,
  0x9cc9, 0x8d40, 0xbfdb, 0xae52, 0xdaed, 0xcb64, 0xf9ff, 0xe876, 0x2102, 0x308b, 0x0210, 0x1399,
  0x6726, 0x76af, 0x4434, 0x55bd, 0xad4a, 0xbcc3, 0x8e58, 0x9fd1, 0xeb6e, 0xfae7, 0xc87c, 0xd9f5,
  0x3183, 0x200a, 0x1291, 0x0318, 0x77a7, 0x662e, 0x54b5, 0x453c, 0xbdcb, 0xac42, 0x9ed9, 0x8f50,
  0xfbef, 0xea66, 0xd8fd, 0xc974, 0x4204, 0x538d, 0x6116, 0x709f, 0x0420, 0x15a9, 0x2732, 0x36bb,
  0xce4c, 0xdfc5, 0xed5e, 0xfcd7, 0x8868, 0x99e1, 0xab7a, 0xbaf3, 0x5285, 0x430c, 0x7197, 0x601e,
  0x14a1, 0x0528, 0x37b3, 0x263a, 0xdecd, 0xcf44, 0xfddf, 0xec56, 0x98e9, 0x8960, 0xbbfb, 0xaa72,
  0x6306, 0x728f, 0x4014, 0x519d, 0x2522, 0x34ab, 0x0630, 0x17b9, 0xef4e, 0xfec7, 0xcc5c, 0xddd5,
  0xa96a, 0xb8e3, 0x8a78, 0x9bf1, 0x7387, 0x620e, 0x5095, 0x411c, 0x35a3, 0x242a, 0x16b1, 0x0738,
  0xffcf, 0xee46, 0xdcdd, 0xcd54, 0xb9eb, 0xa862, 0x9af9, 0x8b70, 0x8408, 0x9581, 0xa71a, 0xb693,
  0xc22c, 0xd3a5, 0xe13e, 0xf0b7, 0x0840, 0x19c9, 0x2b52, 0x3adb, 0x4e64, 0x5fed, 0x6d76, 0x7cff,
  0x9489, 0x8500, 0xb79b, 0xa612, 0xd2ad, 0xc324, 0xf1bf, 0xe036, 0x18c1, 0x0948, 0x3bd3, 0x2a5a,
  0x5ee5, 0x4f6c, 0x7df7, 0x6c7e, 0xa50a, 0xb483, 0x8618, 0x9791, 0xe32e, 0xf2a7, 0xc03c, 0xd1b5,
  0x2942, 0x38cb, 0x0a50, 0x1bd9, 0x6f66, 0x7eef, 0x4c74, 0x5dfd, 0xb58b, 0xa402, 0x9699, 0x8710,
  0xf3af, 0xe226, 0xd0bd, 0xc134, 0x39c3, 0x284a, 0x1ad1, 0x0b58, 0x7fe7, 0x6e6e, 0x5cf5, 0x4d7c,
  0xc60c, 0xd785, 0xe51e, 0xf497, 0x8028, 0x91a1, 0xa33a, 0xb2b3, 0x4a44, 0x5bcd, 0x6956, 0x78df,
  0x0c60, 0x1de9, 0x2f72, 0x3efb, 0xd68d, 0xc704, 0xf59f, 0xe416, 0x90a9, 0x8120, 0xb3bb, 0xa232,
  0x5ac5, 0x4b4c, 0x79d7, 0x685e, 0x1ce1, 0x0d68, 0x3ff3, 0x2e7a, 0xe70e, 0xf687, 0xc41c, 0xd595,
  0xa12a, 0xb0a3, 0x8238, 0x93b1, 0x6b46, 0x7acf, 0x4854, 0x59dd, 0x2d62, 0x3ceb, 0x0e70, 0x1ff9,
  0xf78f, 0xe606, 0xd49d, 0xc514, 0xb1ab, 0xa022, 0x92b9, 0x8330, 0x7bc7, 0x6a4e, 0x58d5, 0x495c,
  0x3de3, 0x2c6a, 0x1ef1, 0x0f78]

def sstpFrameCheck (fcs : UInt16) : List UInt8 → UInt16
  | [] => fcs
  | c :: cs =>
    sstpFrameCheck ((fcs >>> 8) ^^^ fcstab.getD ((fcs ^^^ c.toUInt16) &&& 0xff).toNat 0) cs

/-! ### Encoding -/

/-- A character that has to be escaped. -/
def escaped (c : UInt8) : Bool := c < hdlcTransparency || c = hdlcFlag || c = hdlcEscape

/-- The loop of `sstp_frame_encode` over the characters that are left; `frame` is what has been
written. -/
def encodeLoop (flen : ℤ) : List UInt8 → List UInt8 → Status × List UInt8
  | [], frame => (.okay, frame)
  | c :: cs, frame =>
    if flen < frame.length + 3 then (.overflow, frame)
    else if escaped c then encodeLoop flen cs (frame ++ [hdlcEscape, c ^^^ hdlcTransparency])
    else encodeLoop flen cs (frame ++ [c])

/-- `INT_MAX`. -/
def intMax : ℤ := 2147483647

/-- What `sstp_frame_encode` returns: the bytes written to `frame`, and `*flen`. -/
structure Encoded where
  status : Status
  frame : List UInt8
  flen : ℤ

/-- `none`: the sum `ilen + 2` overflows. -/
def sstpFrameEncode (source : List UInt8) (flen : ℤ) : Option Encoded :=
  if intMax < source.length + 2 then none
  else
    let fcs := sstpFrameCheck pppInitFcs16 source ^^^ pppInitFcs16
    match encodeLoop flen (source ++ [fcs.toUInt8, (fcs >>> 8).toUInt8]) [hdlcFlag] with
    | (.okay, frame) => some ⟨.okay, frame ++ [hdlcFlag], frame.length + 1⟩
    | (status, frame) => some ⟨status, frame, flen⟩

/-! ### Decoding -/

/-- The start of a frame: how many flags are skipped, and what follows. -/
def skipFlags : ℕ → List UInt8 → Option (ℕ × List UInt8)
  | _, [] => none
  | index, b :: bs => if b = hdlcFlag then skipFlags (index + 1) bs else some (index, b :: bs)

/-- There is room for a character. An `int` compared with an `unsigned int` is taken as one itself,
so that a negative one is large. -/
def Room (size : ℤ) (frame : List UInt8) : Prop := size < 0 ∨ frame.length < size

instance (size : ℤ) (frame : List UInt8) : Decidable (Room size frame) :=
  inferInstanceAs (Decidable (_ ∨ _))

def put (size : ℤ) (frame : List UInt8) (c : UInt8) : List UInt8 :=
  if Room size frame then frame ++ [c] else frame

/-- The index has reached the length. -/
def atEnd (length : ℤ) (index : ℕ) : Bool := 0 ≤ length && length ≤ index

inductive Loop
  /-- At the closing flag. -/
  | closed (index : ℕ) (frame : List UInt8)
  | overflow (frame : List UInt8)
  /-- Memory past the end is read. -/
  | fault
  deriving DecidableEq

/-- The loop of `sstp_frame_decode`, at `index` of the memory. -/
def decodeLoop (length size : ℤ) : ℕ → List UInt8 → List UInt8 → Loop
  | _, [], _ => .fault
  | index, b :: rest, frame =>
    if b = hdlcEscape then
      match rest with
      | [] =>
        -- the byte behind an escape is read only if there is room for it
        if Room size frame then .fault
        else if atEnd length (index + 1) then .overflow frame
        else .fault
      | c :: rest =>
        let frame := put size frame (c ^^^ hdlcTransparency)
        if atEnd length (index + 1) then .overflow frame
        else
          match rest with
          | [] => .fault
          | d :: ds =>
            if d = hdlcFlag then .closed (index + 2) frame
            else decodeLoop length size (index + 2) (d :: ds) frame
    else
      let frame := put size frame b
      if atEnd length index then .overflow frame
      else
        match rest with
        | [] => .fault
        | d :: ds =>
          if d = hdlcFlag then .closed (index + 1) frame
          else decodeLoop length size (index + 1) (d :: ds) frame

/-- What `sstp_frame_decode` returns: `*length`, `*size`, and the bytes written to `frame`. -/
structure Decoded where
  status : Status
  length : ℤ
  size : ℤ
  frame : List UInt8
  deriving DecidableEq

def sstpFrameDecode (buf : List UInt8) (length size : ℤ) : Option Decoded :=
  match skipFlags 0 buf with
  | none => none
  | some (index, buf) =>
    match decodeLoop length size index buf [] with
    | .fault => none
    | .overflow frame => some ⟨.overflow, length, size, frame⟩
    | .closed index frame =>
      let status : Status :=
        if frame.length < 4 then .fail
        else if sstpFrameCheck pppInitFcs16 frame ≠ pppGoodFcs16 then .fail
        else .okay
      some ⟨status, index, frame.length - 2, frame⟩

/-! ### The code is the general one -/

/-- The bytes that are escaped, and how. -/
def hdlc : Stuffing UInt8 where
  flag := hdlcFlag
  esc := hdlcEscape
  special := escaped
  image c := c ^^^ hdlcTransparency
  special_flag := rfl
  special_esc := rfl
  flag_ne_esc := by decide
  image_image c := by rw [UInt8.xor_assoc, UInt8.xor_self, UInt8.xor_zero]
  image_ne_flag c hc heq := by
    have hc' : c = 0x5e := by
      calc c = (c ^^^ hdlcTransparency) ^^^ hdlcTransparency := by
            rw [UInt8.xor_assoc, UInt8.xor_self, UInt8.xor_zero]
        _ = 0x5e := by rw [heq]; rfl
    rw [hc'] at hc
    exact absurd hc (by decide)

/-- An entry of the table. -/
def fcsEntry (i : UInt8) : UInt16 := fcstab.getD i.toNat 0

lemma frameCheck_eq (fcs : UInt16) (cs : List UInt8) :
    sstpFrameCheck fcs cs = check fcsEntry fcs cs := by
  induction cs generalizing fcs with
  | nil => rfl
  | cons c cs ih =>
    have hindex : ((fcs ^^^ c.toUInt16) &&& 0xff).toNat = (fcs ^^^ c.toUInt16).toUInt8.toNat := by
      rw [UInt16.toNat_and, UInt16.toNat_toUInt8]
      exact Nat.and_two_pow_sub_one_eq_mod _ 8
    unfold sstpFrameCheck
    rw [ih, hindex]
    rfl

lemma residue_fcsEntry : residue fcsEntry = pppGoodFcs16 := by decide

/-! ### What is encoded -/

lemma encodeLoop_okay {flen : ℤ} {cs frame f : List UInt8}
    (h : encodeLoop flen cs frame = (.okay, f)) : f = frame ++ hdlc.stuff cs := by
  induction cs generalizing frame with
  | nil =>
    rw [encodeLoop] at h
    cases h
    rw [stuff_nil, List.append_nil]
  | cons c cs ih =>
    unfold encodeLoop at h
    split_ifs at h with hroom hc
    · cases h
    · rw [ih h, stuff_cons, byte_of_special hdlc hc, List.append_assoc]
      rfl
    · have hplain : hdlc.special c = false := Bool.eq_false_iff.mpr hc
      rw [ih h, stuff_cons, byte_of_plain hdlc hplain, List.append_assoc]

/-- What has been written leaves room for the closing flag. -/
lemma encodeLoop_room {flen : ℤ} {cs frame f : List UInt8} (hframe : frame.length + 1 ≤ flen)
    (h : encodeLoop flen cs frame = (.okay, f)) : f.length + 1 ≤ flen := by
  induction cs generalizing frame with
  | nil =>
    rw [encodeLoop] at h
    cases h
    exact hframe
  | cons c cs ih =>
    unfold encodeLoop at h
    split_ifs at h with hroom hc
    · cases h
    · refine ih ?_ h
      simp only [List.length_append, List.length_cons, List.length_nil]
      omega
    · refine ih ?_ h
      simp only [List.length_append, List.length_cons, List.length_nil]
      omega

/-- What is written fits, for the first character is checked against the room as well. -/
lemma encodeLoop_fits {flen : ℤ} {c : UInt8} {cs frame f : List UInt8}
    (h : encodeLoop flen (c :: cs) frame = (.okay, f)) : f.length + 1 ≤ flen := by
  have hroom : ¬ flen < frame.length + 3 := by
    intro hlt
    rw [encodeLoop, if_pos hlt] at h
    cases h
  exact encodeLoop_room (by omega) h

/-- The payload and its check sequence. -/
def checked (payload : List UInt8) : List UInt8 :=
  payload ++ trailer (sstpFrameCheck pppInitFcs16 payload)

lemma length_checked (payload : List UInt8) : (checked payload).length = payload.length + 2 := by
  unfold checked trailer
  rw [List.length_append]
  rfl

/-- The check over what is sent comes out right. -/
lemma frameCheck_checked (payload : List UInt8) :
    sstpFrameCheck pppInitFcs16 (checked payload) = pppGoodFcs16 := by
  unfold checked
  rw [frameCheck_eq, frameCheck_eq, check_frame, residue_fcsEntry]

lemma checked_ne_nil (payload : List UInt8) : ∃ c cs, checked payload = c :: cs := by
  have hlen := length_checked payload
  cases hc : checked payload with
  | nil =>
    rw [hc] at hlen
    cases hlen
  | cons c cs => exact ⟨c, cs, rfl⟩

/-- **An encoded frame**: the stuffed characters between two flags, inside the buffer. -/
theorem encode_okay {payload : List UInt8} {flen : ℤ} {e : Encoded}
    (h : sstpFrameEncode payload flen = some e) (hok : e.status = .okay) :
    e.frame = hdlcFlag :: (hdlc.stuff (checked payload) ++ [hdlcFlag]) ∧
      e.flen = e.frame.length ∧ e.flen ≤ flen := by
  unfold sstpFrameEncode at h
  split_ifs at h
  dsimp only at h
  split at h
  · next f hloop =>
    cases h
    have hf := encodeLoop_okay hloop
    obtain ⟨c, cs, hcs⟩ := checked_ne_nil payload
    have hfits : (f.length : ℤ) + 1 ≤ flen := by
      have hloop' : encodeLoop flen (checked payload) [hdlcFlag] = (.okay, f) := hloop
      rw [hcs] at hloop'
      exact encodeLoop_fits hloop'
    rw [List.singleton_append] at hf
    refine ⟨?_, by simp, hfits⟩
    dsimp only
    rw [hf]
    rfl
  · next status f hne hloop =>
    cases h
    exact absurd hok fun hstatus => hne hstatus

/-! ### What is decoded -/

/-- What the receiver takes for a character: a byte that is plain, or any behind an escape. -/
inductive Character : UInt8 → List UInt8 → Prop
  | plain {c : UInt8} (hflag : c ≠ hdlcFlag) (hesc : c ≠ hdlcEscape) : Character c [c]
  | escape (e : UInt8) : Character (e ^^^ hdlcTransparency) [hdlcEscape, e]

/-- The characters and the bytes they are received as. -/
inductive Characters : List UInt8 → List UInt8 → Prop
  | nil : Characters [] []
  | cons {c : UInt8} {ch cs bs : List UInt8} (head : Character c ch) (tail : Characters cs bs) :
    Characters (c :: cs) (ch ++ bs)

lemma character_byte (c : UInt8) : Character c (hdlc.byte c) := by
  cases hc : hdlc.special c with
  | true =>
    rw [byte_of_special hdlc hc]
    have h := Character.escape (hdlc.image c)
    rwa [show hdlc.image c ^^^ hdlcTransparency = c from hdlc.image_image c] at h
  | false =>
    rw [byte_of_plain hdlc hc]
    exact .plain (plain_ne hdlc hc).1 (plain_ne hdlc hc).2

lemma characters_stuff (cs : List UInt8) : Characters cs (hdlc.stuff cs) := by
  induction cs with
  | nil => exact .nil
  | cons c cs ih =>
    rw [stuff_cons]
    exact .cons (character_byte c) ih

/-- Behind a flag no character begins. -/
lemma Character.ne_flag {c : UInt8} {ch : List UInt8} (h : Character c ch) :
    ∃ d ds, ch = d :: ds ∧ d ≠ hdlcFlag := by
  cases h with
  | plain hflag hesc => exact ⟨_, _, rfl, hflag⟩
  | escape e => exact ⟨_, _, rfl, by decide⟩

lemma skipFlags_replicate (k index : ℕ) (bs : List UInt8) :
    skipFlags index (List.replicate k hdlcFlag ++ bs) = skipFlags (index + k) bs := by
  induction k generalizing index with
  | zero => rfl
  | succ k ih =>
    rw [List.replicate_succ, List.cons_append, skipFlags, if_pos rfl, ih]
    congr 1
    omega

/-- The flags end at the first character. -/
lemma skipFlags_characters {c : UInt8} {cs bs : List UInt8} (h : Characters (c :: cs) bs)
    (index : ℕ) (tail : List UInt8) : skipFlags index (bs ++ tail) = some (index, bs ++ tail) := by
  cases h with | cons head _ =>
  obtain ⟨d, ds, rfl, hne⟩ := head.ne_flag
  rw [List.cons_append, List.cons_append, skipFlags, if_neg hne]

section Decode

variable {length size : ℤ}

lemma atEnd_of_lt {index : ℕ} (h : index < length) : atEnd length index = false := by
  simp only [atEnd, Bool.and_eq_false_iff, decide_eq_false_iff_not]
  omega

/-- One character is read, and the loop goes on behind it. -/
lemma decodeLoop_character {index : ℕ} {c d : UInt8} {ch ds frame : List UInt8}
    (h : Character c ch) (hlen : index + ch.length ≤ length) :
    decodeLoop length size index (ch ++ d :: ds) frame =
      if d = hdlcFlag then .closed (index + ch.length) (put size frame c)
      else decodeLoop length size (index + ch.length) (d :: ds) (put size frame c) := by
  cases h with
  | plain hflag hesc =>
    have hend : atEnd length index = false := by
      refine atEnd_of_lt ?_
      simp only [List.length_cons, List.length_nil] at hlen
      omega
    rw [List.cons_append, List.nil_append, decodeLoop, if_neg hesc]
    dsimp only
    rw [hend, if_neg Bool.false_ne_true]
    rfl
  | escape e =>
    have hend : atEnd length (index + 1) = false := by
      refine atEnd_of_lt ?_
      simp only [List.length_cons, List.length_nil] at hlen
      push_cast at hlen ⊢
      omega
    rw [List.cons_append, List.cons_append, List.nil_append, decodeLoop, if_pos rfl]
    dsimp only
    rw [hend, if_neg Bool.false_ne_true]
    rfl

/-- **The loop** over some characters: it stops at a flag behind them, or goes on there. -/
lemma decodeLoop_characters {index : ℕ} {c d : UInt8} {cs bs ds frame : List UInt8}
    (h : Characters (c :: cs) bs) (hlen : index + bs.length ≤ length) :
    decodeLoop length size index (bs ++ d :: ds) frame =
      if d = hdlcFlag then .closed (index + bs.length) ((c :: cs).foldl (put size) frame)
      else decodeLoop length size (index + bs.length) (d :: ds)
        ((c :: cs).foldl (put size) frame) := by
  induction cs generalizing index c bs frame with
  | nil =>
    cases h with | cons head rest =>
    cases rest
    rw [List.append_nil] at hlen ⊢
    rw [decodeLoop_character head hlen]
    rfl
  | cons c' cs ih =>
    cases h with | @cons _ ch _ bs head rest =>
    obtain ⟨e, es, he, hne⟩ : ∃ e es, bs = e :: es ∧ e ≠ hdlcFlag := by
      cases rest with | cons head' _ =>
      obtain ⟨e, es, he, hne⟩ := head'.ne_flag
      exact ⟨e, es ++ _, by rw [he]; rfl, hne⟩
    rw [List.length_append] at hlen ⊢
    push_cast at hlen
    rw [List.append_assoc, he, List.cons_append, decodeLoop_character head (by omega),
      if_neg hne, ← List.cons_append, ← he, ih rest]
    · rw [Nat.add_assoc]
      rfl
    · push_cast
      omega

/-- With room for all of them the characters are copied. -/
lemma foldl_put {cs frame : List UInt8} (h : frame.length + cs.length ≤ size) :
    cs.foldl (put size) frame = frame ++ cs := by
  induction cs generalizing frame with
  | nil => simp
  | cons c cs ih =>
    rw [List.length_cons] at h
    push_cast at h
    have hput : put size frame c = frame ++ [c] := if_pos (.inr (by omega))
    rw [List.foldl_cons, hput, ih, List.append_assoc, List.singleton_append]
    rw [List.length_append, List.length_singleton]
    push_cast
    omega

/-- **A frame**, from its flags to the closing one: the result does not depend on what follows. -/
lemma decode_characters {k : ℕ} {c : UInt8} {cs bs frame tail : List UInt8}
    (h : Characters (c :: cs) bs) (hlen : k + bs.length ≤ length)
    (hframe : (c :: cs).foldl (put size) [] = frame) :
    sstpFrameDecode (List.replicate k hdlcFlag ++ (bs ++ hdlcFlag :: tail)) length size =
      some ⟨if frame.length < 4 then .fail
        else if sstpFrameCheck pppInitFcs16 frame ≠ pppGoodFcs16 then .fail
        else .okay, k + bs.length, frame.length - 2, frame⟩ := by
  unfold sstpFrameDecode
  rw [skipFlags_replicate, skipFlags_characters h]
  dsimp only
  rw [decodeLoop_characters h (by push_cast; omega), if_pos rfl, hframe, Nat.zero_add]
  simp

/-- Characters that are not all of the input, and do not end at a flag. -/
lemma decode_overflow {k : ℕ} {d : UInt8} {cs bs ds f : List UInt8} (h : Characters cs bs)
    (hd : d ≠ hdlcFlag) (hlen : k + bs.length ≤ length)
    (hloop : decodeLoop length size (k + bs.length) (d :: ds) (cs.foldl (put size) []) =
      .overflow f) :
    sstpFrameDecode (List.replicate k hdlcFlag ++ (bs ++ d :: ds)) length size =
      some ⟨.overflow, length, size, f⟩ := by
  unfold sstpFrameDecode
  rw [skipFlags_replicate, Nat.zero_add]
  cases cs with
  | nil =>
    cases h
    rw [List.nil_append, skipFlags, if_neg hd]
    dsimp only
    rw [show decodeLoop length size k (d :: ds) [] = .overflow f from hloop]
  | cons c cs =>
    rw [skipFlags_characters h]
    dsimp only
    rw [decodeLoop_characters h hlen, if_neg hd, hloop]

/-- **A frame with its check sequence**, for which there is room: the payload is in front. -/
lemma decode_frame {k : ℕ} {payload tail : List UInt8} (hn : 2 ≤ payload.length)
    (hlen : k + (hdlc.stuff (checked payload)).length ≤ length)
    (hsize : payload.length + 2 ≤ size) :
    sstpFrameDecode (List.replicate k hdlcFlag ++
      (hdlc.stuff (checked payload) ++ hdlcFlag :: tail)) length size =
        some ⟨.okay, k + (hdlc.stuff (checked payload)).length, payload.length,
          checked payload⟩ := by
  obtain ⟨c, cs, hcs⟩ := checked_ne_nil payload
  have hchecked := length_checked payload
  have hcopied : (c :: cs).foldl (put size) [] = checked payload := by
    rw [← hcs, foldl_put, List.nil_append]
    rw [hchecked, List.length_nil]
    push_cast
    omega
  rw [hcs] at hlen ⊢
  rw [decode_characters (characters_stuff (c :: cs)) hlen hcopied, if_neg (by omega),
    if_neg (not_not.mpr (frameCheck_checked payload)), hchecked, hcs]
  congr 2
  push_cast
  omega

end Decode

/-- **HDLC framing round trip.** What `sstp_frame_encode` has made of a payload,
`sstp_frame_decode` takes apart again, whatever lies behind it in the memory. -/
theorem decode_encode {payload tail : List UInt8} {flen size : ℤ} {e : Encoded}
    (hn : 2 ≤ payload.length) (henc : sstpFrameEncode payload flen = some e)
    (hok : e.status = .okay) (hsize : payload.length + 2 ≤ size) :
    ∃ d, sstpFrameDecode (e.frame ++ tail) e.flen size = some d ∧ d.status = .okay ∧
      d.size = payload.length ∧ d.frame.take payload.length = payload ∧ d.length = e.flen - 1 := by
  obtain ⟨hframe, hflen, -⟩ := encode_okay henc hok
  have hlength : e.flen = (hdlc.stuff (checked payload)).length + 2 := by
    rw [hflen, hframe]
    simp
    omega
  have hfits : (1 : ℕ) + (hdlc.stuff (checked payload)).length ≤ e.flen := by
    rw [hlength]
    push_cast
    omega
  refine ⟨⟨.okay, e.flen - 1, payload.length, checked payload⟩, ?_, rfl, rfl,
    List.take_left' rfl, rfl⟩
  rw [hframe, List.cons_append, List.append_assoc]
  refine (decode_frame hn hfits hsize).trans ?_
  rw [hlength]
  congr 2
  push_cast
  omega

/-- A payload of which two bytes, and one of the check sequence, have to be escaped. -/
def shortPayload : List UInt8 := [0xc0, 0x21, 0x01, 0x7e]

theorem decode_encode_short :
    ∃ e, sstpFrameEncode shortPayload 32 = some e ∧
      ∃ d, sstpFrameDecode (e.frame ++ []) e.flen 6 = some d ∧ d.status = .okay ∧
        d.size = shortPayload.length ∧ d.frame.take shortPayload.length = shortPayload ∧
          d.length = e.flen - 1 := by
  obtain ⟨e, henc, hok⟩ : ∃ e, sstpFrameEncode shortPayload 32 = some e ∧ e.status = .okay :=
    ⟨_, rfl, rfl⟩
  exact ⟨e, henc, decode_encode (by decide) henc hok (by decide)⟩

end SstpClient.Fcs
