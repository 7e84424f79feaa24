import SstpClient.Fcs
import SstpClient.Lib.Crc

/-!
The checksum of `sstp_frame_check`: the entries of `fcstab` are eight shifts of a register, so that
the loop over the bytes computes the check of their bits, and no short burst passes it.
-/

namespace SstpClient.FrameCheck

open SstpClient.Fcs SstpClient.Lib.Crc

/-- The polynomial of the FCS, low bit first. -/
def fcsPoly : BitVec 16 := 0x8408#16

/-- The bits of a byte in the order of transmission. -/
def bits (c : UInt8) : List Bool := (List.range 8).map fun i => c.toBitVec.getLsbD i

/-- The bits of a message. -/
def messageBits (cs : List UInt8) : List Bool := cs.flatMap bits

@[simp] lemma length_bits (c : UInt8) : (bits c).length = 8 := by simp [bits]

@[simp] lemma messageBits_cons (c : UInt8) (cs : List UInt8) :
    messageBits (c :: cs) = bits c ++ messageBits cs := List.flatMap_cons

lemma length_messageBits (cs : List UInt8) : (messageBits cs).length = 8 * cs.length := by
  induction cs with
  | nil => rfl
  | cons c cs ih =>
    rw [messageBits_cons, List.length_append, length_bits, ih, List.length_cons]
    omega

lemma load_bits (c : UInt8) : (load (bits c) : BitVec 16) = c.toBitVec.setWidth 16 := by
  ext i hi
  rw [← BitVec.getLsbD_eq_getElem, ← BitVec.getLsbD_eq_getElem, getLsbD_load,
    BitVec.getLsbD_setWidth]
  by_cases h8 : i < 8
  · simp [bits, hi, h8]
  · simp [bits, h8, BitVec.getLsbD_of_ge c.toBitVec i (by omega)]

lemma bits_injective : Function.Injective bits := by
  intro c d h
  have hload : (c.toBitVec.setWidth 16) = d.toBitVec.setWidth 16 := by
    rw [← load_bits, ← load_bits, h]
  refine UInt8.toBitVec_inj.mp (BitVec.eq_of_getLsbD_eq fun i hi => ?_)
  have hbit : (c.toBitVec.setWidth 16).getLsbD i = (d.toBitVec.setWidth 16).getLsbD i := by
    rw [hload]
  simpa [show i < 16 by omega] using hbit

lemma messageBits_inj {f g : List UInt8} (hlen : f.length = g.length)
    (h : messageBits f = messageBits g) : f = g := by
  induction f generalizing g with
  | nil => exact (List.eq_nil_of_length_eq_zero hlen.symm).symm
  | cons c f ih =>
    cases g with
    | nil => simp at hlen
    | cons d g =>
      rw [messageBits_cons, messageBits_cons] at h
      obtain ⟨hc, hf⟩ := List.append_inj h (by simp)
      rw [bits_injective hc, ih (by simpa using hlen) hf]

/-! ### The table -/

/-- Each of the constants is what eight shifts make of its index. -/
lemma fcstab_eq : ∀ n < 256,
    (fcstab.getD n 0).toBitVec = (shift fcsPoly)^[8] (BitVec.ofNat 16 n) := by
  decide +kernel

/-- One byte of the loop is eight bits of the message. -/
lemma frameCheck_byte (fcs : UInt16) (c : UInt8) :
    ((fcs >>> 8) ^^^ fcstab.getD ((fcs ^^^ c.toUInt16) &&& 0xff).toNat 0).toBitVec =
      serial fcsPoly fcs.toBitVec (bits c) := by
  have hlt : ((fcs ^^^ c.toUInt16) &&& 0xff).toNat < 256 := by
    rw [UInt16.toNat_and]
    exact Nat.lt_of_le_of_lt Nat.and_le_right (by decide)
  have hindex : BitVec.ofNat 16 ((fcs ^^^ c.toUInt16) &&& 0xff).toNat =
      (fcs.toBitVec ^^^ c.toBitVec.setWidth 16) &&& (BitVec.allOnes 8).setWidth 16 := by
    rw [← UInt16.toNat_toBitVec, BitVec.ofNat_toNat, BitVec.setWidth_eq]
    rfl
  have hhigh : (fcs.toBitVec ^^^ c.toBitVec.setWidth 16) >>> 8 = fcs.toBitVec >>> 8 := by
    ext i hi
    simp
  calc ((fcs >>> 8) ^^^ fcstab.getD ((fcs ^^^ c.toUInt16) &&& 0xff).toNat 0).toBitVec
      = (fcs.toBitVec >>> 8) ^^^ (shift fcsPoly)^[8]
          ((fcs.toBitVec ^^^ c.toBitVec.setWidth 16) &&& (BitVec.allOnes 8).setWidth 16) := by
        rw [UInt16.toBitVec_xor, fcstab_eq _ hlt, hindex]
        rfl
    _ = (shift fcsPoly)^[8] (fcs.toBitVec ^^^ c.toBitVec.setWidth 16) := by
        rw [iterate_shift_split fcsPoly 8 (fcs.toBitVec ^^^ _), hhigh]
    _ = serial fcsPoly fcs.toBitVec (bits c) := by
        rw [serial_eq_iterate fcsPoly _ (by simp), load_bits, length_bits]

/-- The loop, from any register. -/
lemma frameCheck_toBitVec (fcs : UInt16) (cs : List UInt8) :
    (sstpFrameCheck fcs cs).toBitVec = serial fcsPoly fcs.toBitVec (messageBits cs) := by
  induction cs generalizing fcs with
  | nil => rfl
  | cons c cs ih =>
    unfold sstpFrameCheck
    rw [ih, frameCheck_byte, messageBits_cons, serial_append]

/-- **The frame check is the FCS-16**, bit by bit. -/
theorem frameCheck_serial (fcs : UInt16) (cs : List UInt8) :
    sstpFrameCheck fcs cs = .ofBitVec (serial fcsPoly fcs.toBitVec (messageBits cs)) := by
  rw [← frameCheck_toBitVec]

/-! ### Bursts -/

/-- Two frames that pass do not differ in a burst of at most 16 bits. -/
lemma eq_of_burst {f g : List UInt8} (hlen : f.length = g.length)
    (hburst : Burst 16 (messageBits f) (messageBits g)) {fcs : UInt16}
    (h : sstpFrameCheck fcs f = sstpFrameCheck fcs g) : f = g := by
  refine messageBits_inj hlen (serial_burst fcsPoly (by decide) fcs.toBitVec ?_ hburst ?_)
  · rw [length_messageBits, length_messageBits, hlen]
  · rw [← frameCheck_toBitVec, ← frameCheck_toBitVec, h]

/-- Trailers of two bytes are a burst. -/
lemma burst_trailer (payload : List UInt8) {t u : List UInt8} (ht : t.length = 2)
    (hu : u.length = 2) : Burst 16 (messageBits (payload ++ t)) (messageBits (payload ++ u)) := by
  have hsplit : ∀ v, messageBits (payload ++ v) = messageBits payload ++ messageBits v :=
    fun v => List.flatMap_append
  refine ⟨(messageBits payload).length, fun i hne => ?_⟩
  rw [hsplit, hsplit] at hne
  constructor
  · by_contra hlt
    refine hne ?_
    rw [List.getElem?_append_left (by omega), List.getElem?_append_left (by omega)]
  · by_contra hge
    refine hne ?_
    rw [List.getElem?_eq_none, List.getElem?_eq_none]
    · rw [List.length_append, length_messageBits u, hu]
      omega
    · rw [List.length_append, length_messageBits t, ht]
      omega

/-- **The frame check detects every burst** of up to 16 bits; of the trailers of two bytes it
accepts one for each payload. -/
theorem frameCheck_detects :
    (∀ f g : List UInt8, sstpFrameCheck pppInitFcs16 f = pppGoodFcs16 → f.length = g.length →
      f ≠ g → Burst 16 (messageBits f) (messageBits g) →
        sstpFrameCheck pppInitFcs16 g ≠ pppGoodFcs16) ∧
    ∀ payload : List UInt8, ∃! t : List UInt8,
      t.length = 2 ∧ sstpFrameCheck pppInitFcs16 (payload ++ t) = pppGoodFcs16 := by
  constructor
  · intro f g hf hlen hne hburst hg
    exact hne (eq_of_burst hlen hburst (hf.trans hg.symm))
  · intro payload
    refine ⟨_, ⟨rfl, frameCheck_checked payload⟩, fun u ⟨hu, hgood⟩ => ?_⟩
    have hsame := eq_of_burst (by simp [hu, Lib.Framing.trailer])
      (burst_trailer payload hu rfl) (hgood.trans (frameCheck_checked payload).symm)
    exact List.append_cancel_left hsame

/-- A frame, and the one that arrives when eight bits are flipped in the midst of it. -/
def sentFrame : List UInt8 := [0xc0, 0x21, 0x66, 0xf5]

def flippedFrame : List UInt8 := [0xc0, 0xd1, 0x69, 0xf5]

theorem frameCheck_detects_flipped :
    sstpFrameCheck pppInitFcs16 flippedFrame ≠ pppGoodFcs16 := by
  refine frameCheck_detects.1 sentFrame flippedFrame (by decide) rfl (by decide) ⟨12, fun i hne => ?_⟩
  have hin : ∀ i < 32, (messageBits sentFrame)[i]? ≠ (messageBits flippedFrame)[i]? →
      12 ≤ i ∧ i < 28 := by decide
  refine hin i ?_ hne
  by_contra hge
  exact hne (by rw [List.getElem?_eq_none (not_lt.mp hge), List.getElem?_eq_none (not_lt.mp hge)])

end SstpClient.FrameCheck
