import Mathlib

/-!
A cyclic redundancy check, one bit after the other.

The register is shifted once for every bit of the message, and the polynomial is added when a one
is shifted out. Up to as many bits as the register has can be loaded before the shifts, so that the
check of a byte is that of its low bits, and a burst no longer than the register never cancels.
-/

namespace SstpClient.Lib.Crc

variable {w : ℕ}

/-- One shift of the register `r`. -/
def shift (poly r : BitVec w) : BitVec w :=
  if r.getLsbD 0 then (r >>> 1) ^^^ poly else r >>> 1

/-- A bit, at the low end of the register. -/
def low (w : ℕ) (b : Bool) : BitVec w := (BitVec.ofBool b).setWidth w

/-- One bit of the message. -/
def feed (poly r : BitVec w) (b : Bool) : BitVec w := shift poly (r ^^^ low w b)

/-- **The check**, bit by bit. -/
def serial (poly r : BitVec w) (bits : List Bool) : BitVec w := bits.foldl (feed poly) r

@[simp] lemma serial_nil (poly r : BitVec w) : serial poly r [] = r := rfl

@[simp] lemma serial_cons (poly r : BitVec w) (b : Bool) (bits : List Bool) :
    serial poly r (b :: bits) = serial poly (feed poly r b) bits := rfl

lemma serial_append (poly r : BitVec w) (xs ys : List Bool) :
    serial poly r (xs ++ ys) = serial poly (serial poly r xs) ys := List.foldl_append

@[simp] lemma getLsbD_low (b : Bool) (i : ℕ) :
    (low w b).getLsbD i = (decide (i < w) && decide (i = 0) && b) := by
  unfold low
  cases i with
  | zero => simp
  | succ i => simp

/-! ### The shift is linear -/

section Shift

variable (poly : BitVec w)

@[simp] lemma shift_zero : shift poly 0#w = 0#w := by
  unfold shift
  simp

theorem shift_xor (r s : BitVec w) : shift poly (r ^^^ s) = shift poly r ^^^ shift poly s := by
  unfold shift
  rw [BitVec.getLsbD_xor, BitVec.ushiftRight_xor_distrib]
  cases r.getLsbD 0 <;> cases s.getLsbD 0
  · rfl
  · simp [BitVec.xor_assoc]
  · simp only [Bool.true_xor, Bool.not_false, if_true, Bool.false_eq_true, if_false]
    rw [BitVec.xor_assoc, BitVec.xor_assoc, BitVec.xor_comm poly]
  · calc (r >>> 1) ^^^ (s >>> 1)
        = ((r >>> 1) ^^^ (s >>> 1)) ^^^ (poly ^^^ poly) := by simp
      _ = ((r >>> 1) ^^^ poly) ^^^ ((s >>> 1) ^^^ poly) := by ac_rfl

lemma iterate_shift_xor (k : ℕ) (r s : BitVec w) :
    (shift poly)^[k] (r ^^^ s) = (shift poly)^[k] r ^^^ (shift poly)^[k] s := by
  induction k generalizing r s with
  | zero => rfl
  | succ k ih => simp only [Function.iterate_succ_apply, shift_xor, ih]

/-- The polynomial's high bit tells whether it has been added. -/
lemma eq_zero_of_shift {r : BitVec w} (hpoly : poly.msb = true) (h : shift poly r = 0#w) :
    r = 0#w := by
  unfold shift at h
  split_ifs at h with hr
  · have hmsb : ((r >>> 1) ^^^ poly).msb = true := by
      rw [BitVec.msb_xor, hpoly, BitVec.msb_ushiftRight]
      simp
    rw [h] at hmsb
    simp at hmsb
  · ext i hi
    rw [← BitVec.getLsbD_eq_getElem]
    cases i with
    | zero => simpa using hr
    | succ i =>
      have hbit := congrArg (fun x : BitVec w => x.getLsbD i) h
      rw [BitVec.getLsbD_ushiftRight] at hbit
      simpa [Nat.add_comm] using hbit

/-- **No register is lost** in a shift. -/
theorem shift_injective (hpoly : poly.msb = true) : Function.Injective (shift poly) := by
  intro r s h
  have hzero : shift poly (r ^^^ s) = 0#w := by rw [shift_xor, h, BitVec.xor_self]
  exact BitVec.xor_eq_zero_iff.mp (eq_zero_of_shift poly hpoly hzero)

lemma feed_injective (hpoly : poly.msb = true) (b : Bool) :
    Function.Injective fun r => feed poly r b := by
  intro r s h
  have hfed : r ^^^ low w b = s ^^^ low w b := shift_injective poly hpoly h
  exact (BitVec.xor_left_inj (low w b)).mp hfed

lemma serial_injective (hpoly : poly.msb = true) (bits : List Bool) :
    Function.Injective fun r => serial poly r bits := by
  induction bits with
  | nil => exact fun r s h => h
  | cons b bits ih =>
    intro r s h
    exact feed_injective poly hpoly b (ih h)

end Shift

/-! ### Bits loaded beforehand -/

/-- The first bit at the low end. -/
def load : List Bool → BitVec w
  | [] => 0#w
  | b :: bits => low w b ^^^ load bits <<< 1

lemma getLsbD_load (bits : List Bool) (i : ℕ) :
    (load bits : BitVec w).getLsbD i = (decide (i < w) && bits.getD i false) := by
  induction bits generalizing i with
  | nil => simp [load]
  | cons b bits ih =>
    unfold load
    rw [BitVec.getLsbD_xor, BitVec.getLsbD_shiftLeft, getLsbD_low, ih]
    cases i with
    | zero => simp
    | succ i =>
      by_cases hi : i + 1 < w
      · simp [hi, show i < w by omega]
      · simp [hi]

/-- What is loaded can be read off the register. -/
lemma load_inj {xs ys : List Bool} (hlen : xs.length = ys.length) (hw : xs.length ≤ w)
    (h : (load xs : BitVec w) = load ys) : xs = ys := by
  refine List.ext_getElem hlen fun i hx hy => ?_
  have hbit : (load xs : BitVec w).getLsbD i = (load ys : BitVec w).getLsbD i := by rw [h]
  rw [getLsbD_load, getLsbD_load] at hbit
  simpa [hx, hy, show i < w by omega] using hbit

variable (poly : BitVec w)

/-- **Loading**: a message no longer than the register can be loaded at once, and be followed by
its shifts. -/
theorem serial_eq_iterate {bits : List Bool} (r : BitVec w) (h : bits.length ≤ w) :
    serial poly r bits = (shift poly)^[bits.length] (r ^^^ load bits) := by
  induction bits generalizing r with
  | nil => simp [load]
  | cons b bits ih =>
    rw [List.length_cons] at h
    -- the last bit of the register is free, for the rest of the message is shorter than it
    have hback : shift poly ((load bits : BitVec w) <<< 1) = load bits := by
      have hlow : ((load bits : BitVec w) <<< 1).getLsbD 0 = false := by simp
      unfold shift
      rw [hlow, if_neg Bool.false_ne_true]
      ext i hi
      rw [← BitVec.getLsbD_eq_getElem, ← BitVec.getLsbD_eq_getElem, BitVec.getLsbD_ushiftRight,
        BitVec.getLsbD_shiftLeft, Nat.add_sub_cancel_left, getLsbD_load]
      by_cases hlast : i + 1 < w
      · simp [Nat.add_comm 1 i, hlast]
      · have hend : bits.length ≤ i := by omega
        simp [Nat.add_comm 1 i, hlast, hend]
    calc serial poly r (b :: bits)
        = (shift poly)^[bits.length] (shift poly (r ^^^ low w b) ^^^ load bits) :=
          ih _ (by omega)
      _ = (shift poly)^[bits.length] (shift poly ((r ^^^ low w b) ^^^ load bits <<< 1)) := by
          rw [shift_xor poly _ (load bits <<< 1), hback]
      _ = (shift poly)^[(b :: bits).length] (r ^^^ load (b :: bits)) := by
          rw [BitVec.xor_assoc]
          rfl

/-! ### A byte at a time -/

lemma iterate_shift_high {k : ℕ} {x : BitVec w} (h : ∀ i < k, x.getLsbD i = false) :
    (shift poly)^[k] x = x >>> k := by
  induction k with
  | zero => simp
  | succ k ih =>
    have hlow : (x >>> k).getLsbD 0 = false := by simpa using h k (by omega)
    rw [Function.iterate_succ_apply', ih fun i hi => h i (by omega), shift, hlow,
      if_neg Bool.false_ne_true, BitVec.shiftRight_add]

/-- **Some shifts at once**: the low bits decide what is added, the others move down. -/
theorem iterate_shift_split (k : ℕ) (x : BitVec w) :
    (shift poly)^[k] x = (x >>> k) ^^^ (shift poly)^[k] (x &&& (BitVec.allOnes k).setWidth w) := by
  set mask : BitVec w := (BitVec.allOnes k).setWidth w with hmask
  have hsplit : x = (x &&& ~~~mask) ^^^ (x &&& mask) := by
    ext i hi
    rw [BitVec.getElem_xor, BitVec.getElem_and, BitVec.getElem_and, BitVec.getElem_not]
    cases x[i] <;> cases mask[i] <;> rfl
  have hclear : ∀ i < k, (x &&& ~~~mask).getLsbD i = false := by
    intro i hi
    rw [BitVec.getLsbD_and, BitVec.getLsbD_not, hmask, BitVec.getLsbD_setWidth]
    by_cases hw : i < w
    · simp [hi, hw]
    · simp [hw]
  have hmove : (x &&& ~~~mask) >>> k = x >>> k := by
    ext i hi
    simp only [BitVec.getElem_ushiftRight, BitVec.getLsbD_and, BitVec.getLsbD_not, hmask,
      BitVec.getLsbD_setWidth, BitVec.getLsbD_allOnes]
    by_cases hw : k + i < w
    · simp [hw]
    · simp [BitVec.getLsbD_of_ge x (k + i) (by omega)]
  calc (shift poly)^[k] x
      = (shift poly)^[k] ((x &&& ~~~mask) ^^^ (x &&& mask)) := by rw [← hsplit]
    _ = (x >>> k) ^^^ (shift poly)^[k] (x &&& mask) := by
        rw [iterate_shift_xor, iterate_shift_high poly hclear, hmove]

/-! ### Bursts -/

/-- The positions at which two messages differ lie within `n` consecutive ones. -/
def Burst (n : ℕ) (xs ys : List Bool) : Prop :=
  ∃ p, ∀ i, xs[i]? ≠ ys[i]? → p ≤ i ∧ i < p + n

/-- **Short bursts are detected**: two messages that differ, in a burst no longer than the register,
have different checks. -/
theorem serial_burst {xs ys : List Bool} (hpoly : poly.msb = true) (r : BitVec w)
    (hlen : xs.length = ys.length) (hburst : Burst w xs ys)
    (h : serial poly r xs = serial poly r ys) : xs = ys := by
  obtain ⟨p, hp⟩ := hburst
  have hsame : ∀ i, i < p ∨ p + w ≤ i → xs[i]? = ys[i]? := by
    intro i hi
    by_contra hne
    have hin := hp i hne
    omega
  have hpre : xs.take p = ys.take p := by
    ext1 i
    rw [List.getElem?_take, List.getElem?_take]
    split_ifs with hi
    · exact hsame i (.inl hi)
    · rfl
  have hpost : (xs.drop p).drop w = (ys.drop p).drop w := by
    ext1 i
    rw [List.getElem?_drop, List.getElem?_drop, List.getElem?_drop, List.getElem?_drop]
    exact hsame _ (.inr (by omega))
  have hparts : ∀ zs : List Bool, zs = zs.take p ++ ((zs.drop p).take w ++ (zs.drop p).drop w) := by
    intro zs
    rw [List.take_append_drop, List.take_append_drop]
  have hmid : (xs.drop p).take w = (ys.drop p).take w := by
    rw [hparts xs, hparts ys, serial_append, serial_append, serial_append, serial_append, hpre,
      hpost] at h
    have hcheck := serial_injective poly hpoly _ h
    have hmidlen : ((xs.drop p).take w).length = ((ys.drop p).take w).length := by
      simp [hlen]
    rw [serial_eq_iterate poly _ (List.length_take_le _ _),
      serial_eq_iterate poly _ (List.length_take_le _ _), hmidlen] at hcheck
    have hload := (shift_injective poly hpoly).iterate _ hcheck
    exact load_inj hmidlen (List.length_take_le _ _) ((BitVec.xor_right_inj _).mp hload)
  rw [hparts xs, hparts ys, hpre, hmid, hpost]

end SstpClient.Lib.Crc
