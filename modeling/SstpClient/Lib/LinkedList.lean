import Mathlib

/-!
Singly linked lists in a memory: the cells that a pointer leads to along their `next` fields.
-/

namespace SstpClient.Lib.LinkedList

variable {α : Type*} {next next' : α → Option α} {p : Option α} {as bs : List α} {a last : α}

/-- The cells reached from `p` are those of the list, in order. -/
def Reach (next : α → Option α) : Option α → List α → Prop
  | p, [] => p = none
  | p, a :: as => p = some a ∧ Reach next (next a) as

lemma reach_nil : Reach next p [] ↔ p = none := Iff.rfl

lemma reach_cons : Reach next p (a :: as) ↔ p = some a ∧ Reach next (next a) as := Iff.rfl

/-- **Frame rule**: other cells do not matter. -/
theorem Reach.congr (h : Reach next p as) (hsame : ∀ a ∈ as, next' a = next a) :
    Reach next' p as := by
  induction as generalizing p with
  | nil => exact h
  | cons a as ih =>
    refine ⟨h.1, ?_⟩
    rw [hsame a List.mem_cons_self]
    exact ih h.2 fun b hb => hsame b (List.mem_cons_of_mem a hb)

/-- **A cell is linked** behind the last one. -/
theorem Reach.snoc (h : Reach next p (as ++ [last])) (hsame : ∀ b ∈ as, next' b = next b)
    (hlast : next' last = some a) (hnone : next' a = none) :
    Reach next' p (as ++ [last] ++ [a]) := by
  induction as generalizing p with
  | nil => exact ⟨h.1, hlast, hnone⟩
  | cons b as ih =>
    refine ⟨h.1, ?_⟩
    rw [hsame b List.mem_cons_self]
    exact ih h.2 fun c hc => hsame c (List.mem_cons_of_mem b hc)

end SstpClient.Lib.LinkedList
