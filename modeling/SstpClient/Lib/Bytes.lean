import Mathlib

/-!
Byte strings: numbers in network order, the narrowing of an integer to a signed 16-bit one,
and overwriting a part of a list.
-/

namespace SstpClient.Lib.Bytes

/-! ### Network order -/

/-- The number written by the two bytes `hi`, `lo` in network order. -/
def be16 (hi lo : UInt8) : ℕ := hi.toNat * 256 + lo.toNat

/-- The two network-order bytes of `n`, modulo `2 ^ 16`. -/
def toBe16 (n : ℕ) : List UInt8 := [UInt8.ofNat (n / 256), UInt8.ofNat n]

@[simp] lemma length_toBe16 (n : ℕ) : (toBe16 n).length = 2 := rfl

lemma be16_ofNat (n : ℕ) : be16 (UInt8.ofNat (n / 256)) (UInt8.ofNat n) = n % 65536 := by
  simp only [be16, UInt8.toNat_ofNat']
  omega

/-- The number written by four bytes in network order. -/
def be32 (b3 b2 b1 b0 : UInt8) : ℕ :=
  b3.toNat * 16777216 + b2.toNat * 65536 + b1.toNat * 256 + b0.toNat

/-- The four network-order bytes of `n`, modulo `2 ^ 32`. -/
def toBe32 (n : ℕ) : List UInt8 :=
  [UInt8.ofNat (n / 16777216), UInt8.ofNat (n / 65536), UInt8.ofNat (n / 256), UInt8.ofNat n]

@[simp] lemma length_toBe32 (n : ℕ) : (toBe32 n).length = 4 := rfl

lemma be32_ofNat {n : ℕ} (h : n < 4294967296) :
    be32 (UInt8.ofNat (n / 16777216)) (UInt8.ofNat (n / 65536)) (UInt8.ofNat (n / 256))
      (UInt8.ofNat n) = n := by
  simp only [be32, UInt8.toNat_ofNat']
  omega

lemma toBe32_inj {m n : ℕ} (hm : m < 4294967296) (hn : n < 4294967296)
    (h : toBe32 m = toBe32 n) : m = n := by
  simp only [toBe32, List.cons.injEq, and_true] at h
  obtain ⟨h3, h2, h1, h0⟩ := h
  rw [← be32_ofNat hm, ← be32_ofNat hn, h3, h2, h1, h0]

/-! ### The signed 16-bit integers of C -/

/-- The value of `n` stored into a `short`. -/
@[irreducible] def toShort (n : ℤ) : ℤ := Int.bmod n 65536

lemma toShort_of_lt {n : ℤ} (h0 : 0 ≤ n) (h : n < 32768) : toShort n = n := by
  unfold toShort
  rw [Int.bmod_def]
  omega

lemma toShort_of_ge {n : ℤ} (h0 : 32768 ≤ n) (h : n < 98304) : toShort n = n - 65536 := by
  unfold toShort
  rw [Int.bmod_def]
  omega

lemma toShort_le {n : ℤ} (h0 : 0 ≤ n) : toShort n ≤ n := by
  unfold toShort
  rw [Int.bmod_def]
  omega

/-! ### Overwriting a part of a list -/

section Splice

variable {α : Type*}

/-- `m` with the cells from position `n` on overwritten by `xs`. -/
def splice (m : List α) (n : ℕ) (xs : List α) : List α := m.take n ++ (xs ++ m.drop (n + xs.length))

@[simp] lemma splice_nil (m : List α) (n : ℕ) : splice m n [] = m := by simp [splice]

lemma length_splice {m : List α} {n : ℕ} {xs : List α} (h : n + xs.length ≤ m.length) :
    (splice m n xs).length = m.length := by
  simp [splice]; omega

lemma getElem?_splice_lt {m : List α} {n i : ℕ} {xs : List α} (hn : n ≤ m.length) (h : i < n) :
    (splice m n xs)[i]? = m[i]? := by
  rw [splice, List.getElem?_append_left (by simp; omega), List.getElem?_take_of_lt h]

lemma getElem?_splice_ge {m : List α} {n i : ℕ} {xs : List α} (hn : n + xs.length ≤ m.length)
    (h : n + xs.length ≤ i) : (splice m n xs)[i]? = m[i]? := by
  rw [splice, List.getElem?_append_right (by simp; omega),
    List.getElem?_append_right (by simp; omega), List.getElem?_drop]
  congr 1
  simp; omega

/-- What precedes the overwritten part, and that part, are a prefix of the result. -/
lemma take_splice {m : List α} {n : ℕ} {xs : List α} (hn : n ≤ m.length) :
    (splice m n xs).take (n + xs.length) = m.take n ++ xs := by
  rw [splice, ← List.append_assoc]
  exact List.take_left' (by simp; omega)

lemma take_splice_of_le {m : List α} {n k : ℕ} {xs : List α} (hn : n ≤ m.length) (h : k ≤ n) :
    (splice m n xs).take k = m.take k := by
  rw [splice, List.take_append_of_le_length (by simp; omega), List.take_take, Nat.min_eq_left h]

/-- A list cut after its first `n` elements. -/
lemma exists_append {m : List α} {n : ℕ} (h : n ≤ m.length) :
    ∃ p r, m = p ++ r ∧ p.length = n :=
  ⟨m.take n, m.drop n, (List.take_append_drop n m).symm, List.length_take_of_le h⟩

/-- Overwriting a part of its own length. -/
lemma splice_append {p q r xs : List α} {n : ℕ} (hp : p.length = n) (hq : q.length = xs.length) :
    splice (p ++ (q ++ r)) n xs = p ++ (xs ++ r) := by
  subst hp
  unfold splice
  rw [List.take_left, ← List.drop_drop, List.drop_left, ← hq, List.drop_left]

/-- A write inside the first part leaves the rest. -/
lemma splice_append_left {m r : List α} {n : ℕ} {xs : List α} (h : n + xs.length ≤ m.length) :
    splice (m ++ r) n xs = splice m n xs ++ r := by
  unfold splice
  rw [List.take_append_of_le_length (by omega), List.drop_append_of_le_length h]
  simp only [List.append_assoc]

/-- One part overwritten behind the other. -/
lemma splice_splice {m xs : List α} {n : ℕ} (h : n + xs.length ≤ m.length) (ys : List α) :
    splice (splice m n xs) (n + xs.length) ys = splice m n (xs ++ ys) := by
  have hdrop : (splice m n xs).drop (n + xs.length) = m.drop (n + xs.length) := by
    rw [splice, ← List.append_assoc]
    exact List.drop_left' (by simp; omega)
  rw [splice, take_splice (by omega), ← List.drop_drop, hdrop, List.drop_drop, splice,
    List.length_append, Nat.add_assoc, List.append_assoc, List.append_assoc]

/-- Reading back the overwritten part. -/
lemma drop_take_splice {m : List α} {n : ℕ} {xs : List α} (hn : n ≤ m.length) :
    ((splice m n xs).drop n).take xs.length = xs := by
  rw [splice, List.drop_left' (by simp; omega), List.take_left' rfl]

end Splice

end SstpClient.Lib.Bytes
