import SstpClient.Lib.Machine

/-!
Chains with a wrapping counter. Two sides step through the same chain of states, each step
advancing a counter modulo `m`; the one behind learns from the counter alone how many steps to
take, as long as it is less than `m` behind. Over a channel that keeps the order but loses
messages it gets through what arrives, as long as few enough are lost in a row.
-/

namespace SstpClient.Lib.Ratchet

open SstpClient.Lib.Machine

variable {S : Type*}

/-- A loop that takes steps until `done`; `none` when `fuel` steps are not enough. -/
def loopUntil (next : S → S) (done : S → Bool) : ℕ → S → Option S
  | 0, s => if done s then some s else none
  | fuel + 1, s => if done s then some s else loopUntil next done fuel (next s)

/-- The number of steps from `a` to `b` of a counter modulo `m`. -/
def gap (m a b : ℕ) : ℕ := (b + m - a) % m

lemma gap_lt {m a b : ℕ} (hm : 0 < m) : gap m a b < m := Nat.mod_lt _ hm

lemma gap_eq_zero_iff {m a b : ℕ} (ha : a < m) (hb : b < m) : gap m a b = 0 ↔ a = b := by
  unfold gap
  constructor
  · intro h
    rcases Nat.lt_or_ge b a with hba | hba
    · rw [Nat.mod_eq_of_lt (by omega)] at h
      omega
    · rw [show b + m - a = (b - a) + m by omega, Nat.add_mod_right,
        Nat.mod_eq_of_lt (by omega)] at h
      omega
  · rintro rfl
    rw [Nat.add_sub_cancel_left, Nat.mod_self]

/-- One step closes the gap by one. -/
lemma gap_step {m a b : ℕ} (ha : a < m) (hb : b < m) (hne : a ≠ b) :
    gap m a b = gap m ((a + 1) % m) b + 1 := by
  unfold gap
  rcases Nat.lt_or_ge (a + 1) m with h1 | h1
  · rw [Nat.mod_eq_of_lt h1]
    rcases Nat.lt_or_ge b a with hba | hba
    · rw [Nat.mod_eq_of_lt (by omega), Nat.mod_eq_of_lt (by omega)]
      omega
    · rw [show b + m - a = (b - a) + m by omega, show b + m - (a + 1) = (b - (a + 1)) + m by omega,
        Nat.add_mod_right, Nat.add_mod_right, Nat.mod_eq_of_lt (by omega), Nat.mod_eq_of_lt (by omega)]
      omega
  · have hm : a + 1 = m := by omega
    rw [hm, Nat.mod_self, Nat.sub_zero, Nat.add_mod_right, Nat.mod_eq_of_lt hb,
      show b + m - a = b + 1 by omega, Nat.mod_eq_of_lt (by omega)]

/-- The gap between two places of a chain, seen through their counters. -/
lemma gap_of_places {m a b start : ℕ} (hab : a ≤ b) (hlt : b < a + m) :
    gap m ((a + start) % m) ((b + start) % m) = b - a := by
  have hm : 0 < m := by omega
  obtain ⟨d, rfl⟩ := Nat.exists_eq_add_of_le hab
  have hx := Nat.mod_lt (a + start) hm
  have hb : (a + d + start) % m = ((a + start) % m + d) % m := by
    rw [Nat.mod_add_mod]
    congr 1
    omega
  rw [hb, Nat.add_sub_cancel_left]
  generalize (a + start) % m = x at hx
  unfold gap
  rcases Nat.lt_or_ge (x + d) m with h | h
  · rw [Nat.mod_eq_of_lt h, show x + d + m - x = d + m by omega, Nat.add_mod_right,
      Nat.mod_eq_of_lt (by omega)]
  · have hwrap : (x + d) % m = x + d - m := by
      rw [Nat.mod_eq_sub_mod h, Nat.mod_eq_of_lt (by omega)]
    rw [hwrap, show x + d - m + m - x = d by omega, Nat.mod_eq_of_lt (by omega)]

variable {next : S → S} {count : S → ℕ} {m : ℕ}

/-- **Catching up** takes as many steps as the counters are apart. -/
theorem loopUntil_counter (hnext : ∀ s, count (next s) = (count s + 1) % m) {target : ℕ}
    (ht : target < m) {s : S} (hs : count s < m) {fuel : ℕ} (hf : gap m (count s) target ≤ fuel) :
    loopUntil next (fun s => count s = target) fuel s = some (next^[gap m (count s) target] s) := by
  induction fuel generalizing s with
  | zero =>
    have h0 : gap m (count s) target = 0 := by omega
    have heq := (gap_eq_zero_iff hs ht).mp h0
    rw [h0, loopUntil, if_pos (by simpa using heq), Function.iterate_zero, id_eq]
  | succ fuel ih =>
    by_cases heq : count s = target
    · rw [loopUntil, if_pos (by simpa using heq), (gap_eq_zero_iff hs ht).mpr heq,
        Function.iterate_zero, id_eq]
    · have hstep := gap_step hs ht heq
      have hlt : count (next s) < m := by
        rw [hnext]
        exact Nat.mod_lt _ (by omega)
      rw [← hnext] at hstep
      rw [loopUntil, if_neg (by simpa using heq), ih hlt (by omega), hstep,
        Function.iterate_succ_apply]

/-! ### A channel that loses messages -/

section Channel

variable {X : Type*}

/-- What arrives of the messages `xs`. -/
def pick : List Bool → List X → List X
  | true :: keep, x :: xs => x :: pick keep xs
  | false :: keep, _ :: xs => pick keep xs
  | _, _ => []

/-- Fewer than `limit` messages in a row are lost before one that arrives; `lost` of them are
already. -/
def FewLost (limit : ℕ) : ℕ → List Bool → Prop
  | _, [] => True
  | lost, true :: keep => lost < limit ∧ FewLost limit 0 keep
  | lost, false :: keep => FewLost limit (lost + 1) keep

instance (limit : ℕ) : ∀ (lost : ℕ) (keep : List Bool), Decidable (FewLost limit lost keep)
  | _, [] => inferInstanceAs (Decidable True)
  | lost, true :: keep =>
    have := instDecidableFewLost limit 0 keep
    inferInstanceAs (Decidable (lost < limit ∧ FewLost limit 0 keep))
  | lost, false :: keep => instDecidableFewLost limit (lost + 1) keep

variable {R I O : Type} {step : R → I → R × List O}

/-- **Delivery.** A receiver that at place `n` gets through any message of the next `limit` ones and
is then at its place, gets through all that arrive when fewer than `limit` in a row are lost. -/
theorem run_pick (At : ℕ → R → Prop) (Sendable : X → Prop) (message : ℕ → X → I) (out : X → O)
    {limit : ℕ}
    (hstep : ∀ n lost s x, lost < limit → At n s → Sendable x →
      At (n + lost + 1) (step s (message (n + lost + 1) x)).1 ∧
        (step s (message (n + lost + 1) x)).2 = [out x])
    {keep : List Bool} {xs : List X} (hxs : ∀ x ∈ xs, Sendable x) {n lost : ℕ} {s : R}
    (h0 : At n s) (hfew : FewLost limit lost keep) :
    (run step s (pick keep (xs.mapIdx fun i x => message (n + lost + 1 + i) x))).2 =
      (pick keep xs).map out := by
  induction keep generalizing xs n lost s with
  | nil => cases xs <;> rfl
  | cons b keep ih =>
    cases xs with
    | nil => cases b <;> rfl
    | cons x xs =>
      have hrest : ∀ y ∈ xs, Sendable y := fun y hy => hxs y (List.mem_cons_of_mem _ hy)
      rw [List.mapIdx_cons]
      cases b with
      | false =>
        have heq : (fun i x => message (n + lost + 1 + (i + 1)) x) =
            fun i x => message (n + (lost + 1) + 1 + i) x := by
          funext i x
          congr 1
          omega
        simp only [pick, heq]
        exact ih hrest h0 hfew
      | true =>
        obtain ⟨hlost, hfew⟩ := hfew
        obtain ⟨hat, hout⟩ := hstep n lost s x hlost h0 (hxs x List.mem_cons_self)
        have heq : (fun i x => message (n + lost + 1 + (i + 1)) x) =
            fun i x => message (n + lost + 1 + 0 + 1 + i) x := by
          funext i x
          congr 1
          omega
        simp only [pick, run_cons, Nat.add_zero, List.map_cons, heq]
        rw [hout]
        have htail := ih hrest hat hfew
        exact congrArg (List.cons (out x)) htail

end Channel

end SstpClient.Lib.Ratchet
