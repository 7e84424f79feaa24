import SstpClient.Lib.Bytes

/-!
The buffer of `sstp-buff.h` and the status values of `sstp-common.h`.
-/

namespace SstpClient.Buffer

open SstpClient.Lib.Bytes

/-- `status_t`. -/
inductive Status
  | fail | okay | inprog | connected | overflow | notimpl | timeout | authenticate
  deriving DecidableEq, Repr

/-- `sstp_buff_st`. The field `max` is the size of `data`, which never changes. -/
structure Buff where
  /-- The current length of the buffer. -/
  len : ℤ
  /-- The number of bytes read or written. -/
  off : ℤ
  data : List UInt8
  deriving DecidableEq, Repr

/-- The capacity of the buffer. -/
def Buff.max (b : Buff) : ℤ := b.data.length

/-- The byte at position `i`. -/
def Buff.byte (b : Buff) (i : ℕ) : UInt8 := b.data.getD i 0

/-- Write at `pos`; `none` when that would leave the memory of the buffer. -/
def Buff.write (b : Buff) (pos : ℤ) (bs : List UInt8) : Option Buff :=
  if 0 ≤ pos ∧ pos + bs.length ≤ b.max then
    some { b with data := splice b.data pos.toNat bs }
  else none

def sstpBuffCreate (size : ℕ) : Buff := ⟨0, 0, List.replicate size 0⟩

def sstpBuffReset (b : Buff) : Buff := { b with len := 0, off := 0 }

def sstpBuffSpace (b : Buff) (length : ℤ) : Status :=
  if b.max < b.len + length then .fail else .okay

@[simp] lemma max_create (size : ℕ) : (sstpBuffCreate size).max = size := by
  simp [sstpBuffCreate, Buff.max]

@[simp] lemma max_reset (b : Buff) : (sstpBuffReset b).max = b.max := rfl

@[simp] lemma off_reset (b : Buff) : (sstpBuffReset b).off = 0 := rfl

@[simp] lemma data_reset (b : Buff) : (sstpBuffReset b).data = b.data := rfl

lemma max_nonneg (b : Buff) : 0 ≤ b.max := Int.natCast_nonneg _

lemma space_eq_okay {b : Buff} {length : ℤ} :
    sstpBuffSpace b length = .okay ↔ b.len + length ≤ b.max := by
  unfold sstpBuffSpace
  split_ifs with h
  · simp; omega
  · simp; omega

/-- What a write that stays inside the buffer does: it fits, and only `data` changes, which
keeps its size. -/
lemma write_eq_some {b b' : Buff} {pos : ℤ} {bs : List UInt8} (h : b.write pos bs = some b') :
    0 ≤ pos ∧ pos + bs.length ≤ b.max ∧ b' = { b with data := splice b.data pos.toNat bs } ∧
      b'.max = b.max := by
  unfold Buff.write at h
  split_ifs at h with hp
  cases h
  refine ⟨hp.1, hp.2, rfl, ?_⟩
  have hmax := hp.2
  simp only [Buff.max] at hmax ⊢
  rw [length_splice (by omega)]

lemma write_of_le {b : Buff} {pos : ℤ} {bs : List UInt8} (h0 : 0 ≤ pos)
    (h : pos + bs.length ≤ b.max) :
    b.write pos bs = some { b with data := splice b.data pos.toNat bs } :=
  if_pos ⟨h0, h⟩

end SstpClient.Buffer
