import Mathlib

/-!
Programs that read cells of a memory at computed positions, and their footprint: the cells
a run touches. A run depends on nothing else, so two memories that agree on the footprint
give the same result.
-/

namespace SstpClient.Lib.Footprint

/-- A program that reads cells holding a `β` and returns an `α`; the position of a read and
what follows it may depend on every cell read before. -/
inductive ReadProg (β α : Type) where
  | done (a : α)
  | read (pos : ℤ) (next : β → ReadProg β α)

namespace ReadProg

variable {β α γ : Type}

def bind : ReadProg β α → (α → ReadProg β γ) → ReadProg β γ
  | done a, f => f a
  | read p k, f => read p fun b => (k b).bind f

instance : Monad (ReadProg β) where
  pure := done
  bind := bind

/-- Read one cell. -/
def cell (p : ℤ) : ReadProg β β := read p done

/-- The result on memory `m`; `none` when a cell that does not exist is read. -/
def eval (m : ℤ → Option β) : ReadProg β α → Option α
  | done a => some a
  | read p k => (m p).bind fun b => (k b).eval m

/-- The positions read on memory `m`, in order, up to the first that does not exist. -/
def reads (m : ℤ → Option β) : ReadProg β α → List ℤ
  | done _ => []
  | read p k => p :: match m p with
    | none => []
    | some b => (k b).reads m

variable {m m' : ℤ → Option β}

@[simp] lemma eval_pure (a : α) : (pure a : ReadProg β α).eval m = some a := rfl

@[simp] lemma eval_done (a : α) : (done a : ReadProg β α).eval m = some a := rfl

@[simp] lemma reads_pure (a : α) : (pure a : ReadProg β α).reads m = [] := rfl

@[simp] lemma reads_done (a : α) : (done a : ReadProg β α).reads m = [] := rfl

@[simp] lemma eval_cell (p : ℤ) : (cell p : ReadProg β β).eval m = m p := by
  cases h : m p <;> simp [cell, eval, h]

@[simp] lemma reads_cell (p : ℤ) : (cell p : ReadProg β β).reads m = [p] := by
  cases h : m p <;> simp [cell, reads, h]

lemma eval_bind (x : ReadProg β α) (f : α → ReadProg β γ) :
    (x >>= f).eval m = (x.eval m).bind fun a => (f a).eval m := by
  change (x.bind f).eval m = _
  induction x with
  | done a => rfl
  | read p k ih => cases h : m p <;> simp [bind, eval, h, ih]

/-- The footprint decides the run: a memory that agrees on the cells read gives the same
result and touches the same cells. -/
theorem eval_reads_congr (x : ReadProg β α) (h : ∀ p ∈ x.reads m, m' p = m p) :
    x.eval m' = x.eval m ∧ x.reads m' = x.reads m := by
  induction x with
  | done a => exact ⟨rfl, rfl⟩
  | read p k ih =>
    have hp : m' p = m p := h p (by simp [reads])
    cases hm : m p with
    | none => simp [eval, reads, hp, hm]
    | some b =>
      have hk := ih b fun q hq => h q (by simp [reads, hm, hq])
      simp [eval, reads, hp, hm, hk.1, hk.2]

/-- A run ends exactly when every cell it reads exists. -/
lemma eval_isSome_iff (x : ReadProg β α) :
    (x.eval m).isSome ↔ ∀ p ∈ x.reads m, (m p).isSome := by
  induction x with
  | done a => simp
  | read p k ih => cases hm : m p <;> simp [eval, reads, hm, ih]

end ReadProg

/-- A list as a memory: position `p` holds its `p`-th element. -/
def listMem {β : Type} (l : List β) (p : ℤ) : Option β := if 0 ≤ p then l[p.toNat]? else none

section ListMem

variable {β : Type}

lemma listMem_natCast (l : List β) (n : ℕ) : listMem l n = l[n]? := by simp [listMem]

lemma listMem_isSome {l : List β} {p : ℤ} : (listMem l p).isSome ↔ 0 ≤ p ∧ p < l.length := by
  unfold listMem
  split_ifs with h
  · simp only [h, true_and, Option.isSome_iff_ne_none, ne_eq, List.getElem?_eq_none_iff]
    omega
  · simp [h]

/-- What is appended to a list does not change the cells before it. -/
lemma listMem_append {l t : List β} {p : ℤ} (h : p < l.length) :
    listMem (l ++ t) p = listMem l p := by
  unfold listMem
  split_ifs with h0
  · rw [List.getElem?_append_left (by omega)]
  · rfl

end ListMem

end SstpClient.Lib.Footprint
