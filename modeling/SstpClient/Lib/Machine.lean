import Mathlib

/-!
Runs of a deterministic machine that puts out events. A step takes a state and an input to
the next state and the events of that step; a run collects the events of its steps. What
one step preserves under a condition on the state before it, a run preserves whose steps
all meet the condition.
-/

namespace SstpClient.Lib.Machine

variable {S I O : Type}

/-- The state after the inputs, and the events put out on the way. -/
def run (step : S → I → S × List O) : S → List I → S × List O
  | s, [] => (s, [])
  | s, i :: is => ((run step (step s i).1 is).1, (step s i).2 ++ (run step (step s i).1 is).2)

/-- Every step of the run meets `C`, a condition on the state before the step and its input. -/
def Along (step : S → I → S × List O) (C : S → I → Prop) : S → List I → Prop
  | _, [] => True
  | s, i :: is => C s i ∧ Along step C (step s i).1 is

variable {step : S → I → S × List O} {C : S → I → Prop}

instance Along.decidable [∀ s i, Decidable (C s i)] :
    ∀ (s : S) (is : List I), Decidable (Along step C s is)
  | _, [] => inferInstanceAs (Decidable True)
  | s, i :: is =>
    have := Along.decidable (step s i).1 is
    inferInstanceAs (Decidable (C s i ∧ Along step C (step s i).1 is))

@[simp] lemma run_nil (s : S) : run step s [] = (s, []) := rfl

lemma run_cons (s : S) (i : I) (is : List I) :
    run step s (i :: is) =
      ((run step (step s i).1 is).1, (step s i).2 ++ (run step (step s i).1 is).2) := rfl

lemma run_append (s : S) (is js : List I) :
    run step s (is ++ js) =
      ((run step (run step s is).1 js).1, (run step s is).2 ++
        (run step (run step s is).1 js).2) := by
  induction is generalizing s with
  | nil => simp
  | cons i is ih => simp [run_cons, ih, List.append_assoc]

lemma along_append (s : S) (is js : List I) :
    Along step C s (is ++ js) ↔ Along step C s is ∧ Along step C (run step s is).1 js := by
  induction is generalizing s with
  | nil => simp [Along]
  | cons i is ih => simp [Along, run_cons, ih, and_assoc]

/-- A condition that every input meets can be added. -/
lemma along_and {Q : I → Prop} {s : S} {is : List I} (hC : Along step C s is)
    (hQ : ∀ i ∈ is, Q i) : Along step (fun s i => C s i ∧ Q i) s is := by
  induction is generalizing s with
  | nil => trivial
  | cons i is ih =>
    exact ⟨⟨hC.1, hQ i List.mem_cons_self⟩, ih hC.2 fun j hj => hQ j (List.mem_cons_of_mem _ hj)⟩

/-- A condition on the inputs alone. -/
lemma along_of_forall {Q : I → Prop} {s : S} {is : List I} (hQ : ∀ i ∈ is, Q i) :
    Along step (fun _ i => Q i) s is := by
  induction is generalizing s with
  | nil => trivial
  | cons i is ih =>
    exact ⟨hQ i List.mem_cons_self, ih fun j hj => hQ j (List.mem_cons_of_mem _ hj)⟩

/-- **Exchange rule.** Conditions that are the same under an invariant are the same along a run. -/
theorem along_congr {D : S → I → Prop} (Inv : S → Prop) (hstep : ∀ s i, Inv s → Inv (step s i).1)
    (hiff : ∀ s i, Inv s → (C s i ↔ D s i)) {s : S} {is : List I} (h0 : Inv s) :
    Along step C s is ↔ Along step D s is := by
  induction is generalizing s with
  | nil => exact Iff.rfl
  | cons i is ih => exact and_congr (hiff s i h0) (ih (hstep s i h0))

/-- An event of a longer history is an earlier one, or a new one. -/
lemma split_append {h es h₁ h₂ : List O} {e : O} (heq : h ++ es = h₁ ++ e :: h₂) :
    (∃ t, h = h₁ ++ e :: t) ∨ ∃ t, h₁ = h ++ t ∧ es = t ++ e :: h₂ := by
  rcases List.append_eq_append_iff.mp heq with ⟨t, h1, h2⟩ | ⟨t, h1, h2⟩
  · exact .inr ⟨t, h1, h2⟩
  · cases t with
    | nil =>
      rw [List.nil_append] at h2
      exact .inr ⟨[], by rw [List.append_nil, h1, List.append_nil], by rw [← h2, List.nil_append]⟩
    | cons x t =>
      obtain ⟨rfl, -⟩ := List.cons.inj h2
      exact .inl ⟨t, h1⟩

lemma split_concat {h h₁ h₂ : List O} {x e : O} (heq : h ++ [x] = h₁ ++ e :: h₂) :
    (∃ t, h = h₁ ++ e :: t) ∨ h₁ = h ∧ e = x := by
  rcases split_append heq with hold | ⟨t, rfl, ht⟩
  · exact .inl hold
  · obtain ⟨rfl, hrest⟩ | ⟨u, -, hu⟩ := List.cons_eq_append_iff.mp ht
    · exact .inr ⟨List.append_nil h, (List.cons.inj hrest).1⟩
    · exact absurd hu.symm (List.append_ne_nil_of_right_ne_nil _ (List.cons_ne_nil _ _))

/-- A history up to the last `x`, and what is behind. -/
lemma split_last {l : List O} {x : O} (h : x ∈ l) : ∃ w t, l = w ++ x :: t ∧ x ∉ t := by
  obtain ⟨t, w, hsplit, ht⟩ := List.eq_append_cons_of_mem (List.mem_reverse.mpr h)
  refine ⟨w.reverse, t.reverse, ?_, fun hmem => ht (List.mem_reverse.mp hmem)⟩
  rw [← List.reverse_reverse l, hsplit, List.reverse_append, List.reverse_cons, List.append_assoc]
  rfl

/-- **Invariant rule.** `Inv` relates the state to the events put out so far. If each step
that meets `C` keeps it, a run whose steps all meet `C` keeps it. -/
theorem run_inv (Inv : S → List O → Prop)
    (hstep : ∀ s h i, Inv s h → C s i → Inv (step s i).1 (h ++ (step s i).2))
    {s : S} {h : List O} {is : List I} (h0 : Inv s h) (hC : Along step C s is) :
    Inv (run step s is).1 (h ++ (run step s is).2) := by
  induction is generalizing s h with
  | nil => simpa using h0
  | cons i is ih =>
    have h1 := ih (hstep s h i h0 hC.1) hC.2
    rwa [List.append_assoc] at h1

/-- An invariant that every step keeps. -/
theorem run_inv_all (Inv : S → List O → Prop)
    (hstep : ∀ s h i, Inv s h → Inv (step s i).1 (h ++ (step s i).2)) {s : S} {h : List O}
    (h0 : Inv s h) (is : List I) : Inv (run step s is).1 (h ++ (run step s is).2) := by
  have hC : Along step (fun _ _ => True) s is := by
    induction is generalizing s h with
    | nil => trivial
    | cons i is ih => exact ⟨trivial, ih (hstep s h i h0)⟩
  exact run_inv Inv (fun s h i hinv _ => hstep s h i hinv) h0 hC

/-- **Exactness rule.** If each step that meets `C` keeps an invariant that implies `Good`, and
each step that does not meet `C` spoils `Good` for all that follows, then `Good` holds of what
a run puts out exactly when its steps all meet `C`. -/
theorem run_good_iff (Inv : S → List O → Prop) (Good : List O → Prop)
    (hgood : ∀ s h, Inv s h → Good h)
    (hmono : ∀ h o, Good (h ++ o) → Good h)
    (hstep : ∀ s h i, Inv s h → C s i → Inv (step s i).1 (h ++ (step s i).2))
    (hbad : ∀ s h i, Inv s h → ¬ C s i → ¬ Good (h ++ (step s i).2))
    {s : S} {h : List O} {is : List I} (h0 : Inv s h) :
    Good (h ++ (run step s is).2) ↔ Along step C s is := by
  refine ⟨fun hg => ?_, fun hC => hgood _ _ (run_inv Inv hstep h0 hC)⟩
  induction is generalizing s h with
  | nil => trivial
  | cons i is ih =>
    rw [run_cons, ← List.append_assoc] at hg
    have hi : C s i := by
      by_contra hi
      exact hbad s h i h0 hi (hmono _ _ hg)
    exact ⟨hi, ih (hstep s h i h0 hi) hg⟩

/-- **Always rule.** If each step that meets `C` keeps an invariant that implies `Good`, and each
step that does not meet `C` ends in what is not `Good`, then `Good` holds all along a run exactly
when its steps all meet `C`. Only the inputs in `Q` are looked at. -/
theorem run_always_iff_of (Q : I → Prop) (Inv Good : S → List O → Prop)
    (hgood : ∀ s h, Inv s h → Good s h)
    (hstep : ∀ s h i, Inv s h → Q i → C s i → Inv (step s i).1 (h ++ (step s i).2))
    (hbad : ∀ s h i, Inv s h → Q i → ¬ C s i → ¬ Good (step s i).1 (h ++ (step s i).2))
    {s : S} {h : List O} {is : List I} (h0 : Inv s h) (hQ : ∀ i ∈ is, Q i) :
    (∀ js, js <+: is → Good (run step s js).1 (h ++ (run step s js).2)) ↔ Along step C s is := by
  induction is generalizing s h with
  | nil =>
    refine ⟨fun _ => trivial, fun _ js hjs => ?_⟩
    rw [List.prefix_nil.mp hjs, run_nil, List.append_nil]
    exact hgood s h h0
  | cons i is ih =>
    have hi0 : Q i := hQ i List.mem_cons_self
    have hrest : ∀ j ∈ is, Q j := fun j hj => hQ j (List.mem_cons_of_mem _ hj)
    constructor
    · intro hall
      have h1 := hall [i] ⟨is, rfl⟩
      rw [run_cons, run_nil, List.append_nil] at h1
      have hi : C s i := by
        by_contra hi
        exact hbad s h i h0 hi0 hi h1
      refine ⟨hi, (ih (hstep s h i h0 hi0 hi) hrest).mp fun js hjs => ?_⟩
      have h2 := hall (i :: js) ((List.prefix_cons_inj i).mpr hjs)
      rwa [run_cons, ← List.append_assoc] at h2
    · rintro ⟨hi, hC⟩ js hjs
      cases js with
      | nil =>
        rw [run_nil, List.append_nil]
        exact hgood s h h0
      | cons j js =>
        obtain ⟨rfl, hfront⟩ := List.cons_prefix_cons.mp hjs
        rw [run_cons, ← List.append_assoc]
        exact (ih (hstep s h j h0 hi0 hi) hrest).mpr hC js hfront

/-- The rule for all inputs. -/
theorem run_always_iff (Inv Good : S → List O → Prop) (hgood : ∀ s h, Inv s h → Good s h)
    (hstep : ∀ s h i, Inv s h → C s i → Inv (step s i).1 (h ++ (step s i).2))
    (hbad : ∀ s h i, Inv s h → ¬ C s i → ¬ Good (step s i).1 (h ++ (step s i).2))
    {s : S} {h : List O} {is : List I} (h0 : Inv s h) :
    (∀ js, js <+: is → Good (run step s js).1 (h ++ (run step s js).2)) ↔ Along step C s is :=
  run_always_iff_of (fun _ => True) Inv Good hgood (fun s h i hinv _ => hstep s h i hinv)
    (fun s h i hinv _ => hbad s h i hinv) h0 fun _ _ => trivial

/-- **Exact invariant rule.** If a step keeps `Inv` exactly when it meets `C`, then `Inv` holds all
along a run exactly when its steps all meet `C`. -/
theorem run_inv_iff (Inv : S → List O → Prop)
    (hstep : ∀ s h i, Inv s h → (Inv (step s i).1 (h ++ (step s i).2) ↔ C s i))
    {s : S} {h : List O} {is : List I} (h0 : Inv s h) :
    (∀ js, js <+: is → Inv (run step s js).1 (h ++ (run step s js).2)) ↔ Along step C s is :=
  run_always_iff Inv Inv (fun _ _ h => h) (fun s h i hinv => (hstep s h i hinv).mpr)
    (fun s h i hinv hC hnew => hC ((hstep s h i hinv).mp hnew)) h0

/-- A run with a step that does not meet `C` has a first one. -/
lemma exists_first {s : S} {is : List I} (h : ¬ Along step C s is) :
    ∃ js i ks, is = js ++ i :: ks ∧ Along step C s js ∧ ¬ C (run step s js).1 i := by
  induction is generalizing s with
  | nil => exact absurd trivial h
  | cons i is ih =>
    by_cases hi : C s i
    · obtain ⟨js, j, ks, rfl, hjs, hj⟩ := ih fun hC => h ⟨hi, hC⟩
      exact ⟨i :: js, j, ks, rfl, ⟨hi, hjs⟩, hj⟩
    · exact ⟨[], i, is, rfl, trivial, hi⟩

/-! ### Runs that differ in some of the inputs -/

/-- **Stuttering rule.** `obs` is what is seen of the events. If the inputs in `p` take related
states to related states and are seen alike, and the others, met with `C`, keep a state related
and are not seen, then leaving the others out is not seen. -/
theorem run_filter {P : Type} (R : S → S → Prop) (p : I → Bool) (obs : List O → List P)
    (hnil : obs [] = []) (happ : ∀ e e', obs (e ++ e') = obs e ++ obs e')
    (hkeep : ∀ s t i, R s t → p i = true →
      R (step s i).1 (step t i).1 ∧ obs (step s i).2 = obs (step t i).2)
    (hskip : ∀ s t i, R s t → p i = false → C s i → R (step s i).1 t ∧ obs (step s i).2 = [])
    {s t : S} {is : List I} (h : R s t) (hC : Along step C s is) :
    R (run step s is).1 (run step t (is.filter p)).1 ∧
      obs (run step s is).2 = obs (run step t (is.filter p)).2 := by
  induction is generalizing s t with
  | nil => exact ⟨h, hnil.trans hnil.symm⟩
  | cons i is ih =>
    rw [run_cons, happ]
    cases hp : p i with
    | true =>
      obtain ⟨hR, hobs⟩ := hkeep s t i h hp
      obtain ⟨hR', hobs'⟩ := ih hR hC.2
      rw [List.filter_cons_of_pos hp, run_cons, happ, hobs, hobs']
      exact ⟨hR', rfl⟩
    | false =>
      obtain ⟨hR, hobs⟩ := hskip s t i h hp hC.1
      obtain ⟨hR', hobs'⟩ := ih hR hC.2
      rw [List.filter_cons_of_neg (by simp [hp]), hobs, hobs']
      exact ⟨hR', rfl⟩

/-! ### Runs with their steps -/

/-- A step that has been taken. -/
structure Taken (S I O : Type) where
  before : S
  input : I
  after : S
  events : List O

/-- The machine that puts out the steps themselves. -/
def traced (step : S → I → S × List O) (s : S) (i : I) : S × List (Taken S I O) :=
  ((step s i).1, [⟨s, i, (step s i).1, (step s i).2⟩])

/-- The steps of a run. -/
def trace (step : S → I → S × List O) (s : S) (is : List I) : List (Taken S I O) :=
  (run (traced step) s is).2

lemma trace_nil (s : S) : trace step s [] = [] := rfl

lemma trace_cons (s : S) (i : I) (is : List I) :
    trace step s (i :: is) = ⟨s, i, (step s i).1, (step s i).2⟩ :: trace step (step s i).1 is := rfl

lemma along_traced (s : S) (is : List I) : Along (traced step) C s is ↔ Along step C s is := by
  induction is generalizing s with
  | nil => exact Iff.rfl
  | cons i is ih => exact and_congr_right fun _ => ih (step s i).1

end SstpClient.Lib.Machine
