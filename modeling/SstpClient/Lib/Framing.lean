import Mathlib

/-!
Frames on a serial line: byte stuffing between flags, and a check sequence of 16 bits that is
computed from a table.

A stuffed byte never looks like a flag, so that a frame ends at its first flag. What the receiver
computes over a frame and its check sequence does not depend on the frame.
-/

namespace SstpClient.Lib.Framing

/-! ### Byte stuffing -/

/-- A byte that is `special` is sent as `esc` and its image. -/
structure Stuffing (α : Type) where
  flag : α
  esc : α
  special : α → Bool
  image : α → α
  special_flag : special flag = true
  special_esc : special esc = true
  flag_ne_esc : flag ≠ esc
  image_image : ∀ c, image (image c) = c
  image_ne_flag : ∀ c, special c = true → image c ≠ flag

section Stuffing

variable {α : Type} (S : Stuffing α)

def Stuffing.byte (c : α) : List α := if S.special c then [S.esc, S.image c] else [c]

def Stuffing.stuff (xs : List α) : List α := xs.flatMap S.byte

@[simp] lemma stuff_nil : S.stuff [] = [] := rfl

@[simp] lemma stuff_cons (c : α) (xs : List α) : S.stuff (c :: xs) = S.byte c ++ S.stuff xs :=
  List.flatMap_cons

lemma byte_of_special {c : α} (h : S.special c = true) : S.byte c = [S.esc, S.image c] := if_pos h

lemma byte_of_plain {c : α} (h : S.special c = false) : S.byte c = [c] := if_neg (by simp [h])

/-- Besides flags, a byte sent as it is is no escape either. -/
lemma plain_ne {c : α} (h : S.special c = false) : c ≠ S.flag ∧ c ≠ S.esc := by
  constructor
  · rintro rfl
    simp [S.special_flag] at h
  · rintro rfl
    simp [S.special_esc] at h

lemma flag_not_mem_byte (c : α) : S.flag ∉ S.byte c := by
  intro hmem
  cases hc : S.special c with
  | true =>
    rw [byte_of_special S hc] at hmem
    rcases List.mem_pair.mp hmem with h | h
    · exact S.flag_ne_esc h
    · exact S.image_ne_flag c hc h.symm
  | false =>
    rw [byte_of_plain S hc] at hmem
    exact (plain_ne S hc).1 (List.mem_singleton.mp hmem).symm

/-- **No flag** is among the stuffed bytes. -/
theorem flag_not_mem_stuff (xs : List α) : S.flag ∉ S.stuff xs := by
  intro hmem
  obtain ⟨c, -, hc⟩ := List.mem_flatMap.mp hmem
  exact flag_not_mem_byte S c hc

lemma length_byte (c : α) : 1 ≤ (S.byte c).length ∧ (S.byte c).length ≤ 2 := by
  unfold Stuffing.byte
  split_ifs
  · exact ⟨by simp, by simp⟩
  · exact ⟨by simp, by simp⟩

/-- Each byte that is special costs one more. -/
lemma length_stuff (xs : List α) : (S.stuff xs).length = xs.length + xs.countP S.special := by
  induction xs with
  | nil => rfl
  | cons c xs ih =>
    rw [stuff_cons, List.length_append, ih, List.length_cons]
    cases hc : S.special c with
    | true =>
      rw [byte_of_special S hc, List.countP_cons_of_pos hc]
      simp only [List.length_cons, List.length_nil]
      omega
    | false =>
      rw [byte_of_plain S hc, List.countP_cons_of_neg (by simp [hc])]
      simp only [List.length_cons, List.length_nil]
      omega

/-- A stuffed frame is not empty, and does not begin with a flag. -/
lemma stuff_cons_eq (c : α) (xs : List α) :
    ∃ d ds, S.stuff (c :: xs) = d :: ds ∧ d ≠ S.flag := by
  have hmem := flag_not_mem_stuff S (c :: xs)
  cases hs : S.stuff (c :: xs) with
  | nil =>
    have hlen := (length_byte S c).1
    rw [stuff_cons, List.append_eq_nil_iff] at hs
    rw [hs.1] at hlen
    exact absurd hlen (by simp)
  | cons d ds =>
    refine ⟨d, ds, rfl, ?_⟩
    rintro rfl
    exact hmem (by rw [hs]; exact List.mem_cons_self)

/-- Stuffed bytes are cut between two of them, or behind an escape. -/
lemma stuff_eq_append {xs t u : List α} (h : S.stuff xs = t ++ u) :
    ∃ ys zs, xs = ys ++ zs ∧ ((t = S.stuff ys ∧ u = S.stuff zs) ∨
      ∃ c cs, zs = c :: cs ∧ t = S.stuff ys ++ [S.esc] ∧ u = S.image c :: S.stuff cs) := by
  induction xs generalizing t with
  | nil =>
    obtain ⟨rfl, rfl⟩ := List.append_eq_nil_iff.mp h.symm
    exact ⟨[], [], rfl, .inl ⟨rfl, rfl⟩⟩
  | cons c xs ih =>
    cases t with
    | nil => exact ⟨[], c :: xs, rfl, .inl ⟨rfl, h.symm⟩⟩
    | cons d t =>
      rw [stuff_cons] at h
      -- the rest of the cut, behind the whole of `c`
      have hrest : ∀ t', d :: t = S.byte c ++ t' → S.stuff xs = t' ++ u →
          ∃ ys zs, c :: xs = ys ++ zs ∧ ((d :: t = S.stuff ys ∧ u = S.stuff zs) ∨
            ∃ c cs, zs = c :: cs ∧ d :: t = S.stuff ys ++ [S.esc] ∧
              u = S.image c :: S.stuff cs) := by
        intro t' ht hu
        obtain ⟨ys, zs, hxs, hcut⟩ := ih hu
        refine ⟨c :: ys, zs, by rw [hxs]; rfl, ?_⟩
        rw [ht, stuff_cons, List.append_assoc, List.append_cancel_left_eq,
          List.append_cancel_left_eq]
        exact hcut
      cases hc : S.special c with
      | false =>
        rw [byte_of_plain S hc] at h hrest
        obtain ⟨rfl, htail⟩ := List.cons.inj h
        exact hrest t rfl htail
      | true =>
        rw [byte_of_special S hc] at h hrest
        obtain ⟨rfl, htail⟩ := List.cons.inj h
        cases t with
        | nil => exact ⟨[], c :: xs, rfl, .inr ⟨c, xs, rfl, rfl, htail.symm⟩⟩
        | cons d t =>
          obtain ⟨rfl, hback⟩ := List.cons.inj htail
          exact hrest t rfl hback

end Stuffing

/-! ### The check sequence -/

section Check

variable (tab : UInt8 → UInt16)

/-- One byte of the check. -/
def checkByte (fcs : UInt16) (c : UInt8) : UInt16 :=
    (fcs >>> 8) ^^^ tab (fcs ^^^ c.toUInt16).toUInt8

def check (fcs : UInt16) (bytes : List UInt8) : UInt16 := bytes.foldl (checkByte tab) fcs

lemma check_append (fcs : UInt16) (xs ys : List UInt8) :
    check tab fcs (xs ++ ys) = check tab (check tab fcs xs) ys := List.foldl_append

/-- What remains of every frame with its check sequence. -/
def residue : UInt16 := (tab 0xff >>> 8) ^^^ tab (0xff ^^^ tab 0xff).toUInt8

/-- The check sequence is sent as the complement of the check, low byte first. -/
def trailer (fcs : UInt16) : List UInt8 :=
  [(fcs ^^^ 0xffff).toUInt8, ((fcs ^^^ 0xffff) >>> 8).toUInt8]

lemma low_xor (fcs : UInt16) (c : UInt8) : (fcs ^^^ c.toUInt16).toUInt8 = fcs.toUInt8 ^^^ c := by
  rw [UInt16.toUInt8_xor, UInt8.toUInt8_toUInt16]

lemma high_high (fcs : UInt16) : fcs >>> 8 >>> 8 = 0 := by
  apply UInt16.eq_of_toBitVec_eq
  ext i hi
  simp

/-- **The residue**: a check that goes on over its own sequence ends in the same value always. -/
theorem check_trailer (fcs : UInt16) : check tab fcs (trailer fcs) = residue tab := by
  have hlow : (fcs ^^^ (fcs ^^^ 0xffff).toUInt8.toUInt16).toUInt8 = 0xff := by
    rw [low_xor, UInt16.toUInt8_xor]
    exact xor_cancel_left _ _
  have hfirst : checkByte tab fcs (fcs ^^^ 0xffff).toUInt8 = (fcs >>> 8) ^^^ tab 0xff := by
    unfold checkByte
    rw [hlow]
  have hshift : ((fcs >>> 8) ^^^ tab 0xff) >>> 8 = tab 0xff >>> 8 := by
    rw [UInt16.shiftRight_xor, high_high, UInt16.zero_xor]
  have hindex : (((fcs >>> 8) ^^^ tab 0xff) ^^^ ((fcs ^^^ 0xffff) >>> 8).toUInt8.toUInt16).toUInt8 =
      (0xff ^^^ tab 0xff).toUInt8 := by
    rw [low_xor, UInt16.shiftRight_xor, UInt16.toUInt8_xor, UInt16.toUInt8_xor, UInt16.toUInt8_xor,
      UInt8.xor_comm (fcs >>> 8).toUInt8, UInt8.xor_assoc, xor_cancel_left]
    exact UInt8.xor_comm _ _
  calc check tab fcs (trailer fcs)
      = checkByte tab (checkByte tab fcs (fcs ^^^ 0xffff).toUInt8)
          ((fcs ^^^ 0xffff) >>> 8).toUInt8 := rfl
    _ = checkByte tab ((fcs >>> 8) ^^^ tab 0xff) ((fcs ^^^ 0xffff) >>> 8).toUInt8 := by rw [hfirst]
    _ = residue tab := by
      unfold checkByte residue
      rw [hshift, hindex]

/-- The check over a frame and its sequence. -/
theorem check_frame (init : UInt16) (xs : List UInt8) :
    check tab init (xs ++ trailer (check tab init xs)) = residue tab := by
  rw [check_append]
  exact check_trailer tab _

end Check

end SstpClient.Lib.Framing
