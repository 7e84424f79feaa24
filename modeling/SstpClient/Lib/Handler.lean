import SstpClient.Lib.Machine

/-!
Handlers that may stop. A part of a handler takes a state to the next one and puts out events; once
a part has stopped the program, what would come behind it does not run. What every part keeps of a
state and the events so far, a handler put together from them keeps.
-/

namespace SstpClient.Lib.Handler

variable {S O : Type}

/-- A part of a handler. -/
abbrev Act (S O : Type) := S → S × List O

def skip : Act S O := fun s => (s, [])

def emit (e : O) : Act S O := fun s => (s, [e])

def update (f : S → S) : Act S O := fun s => (f s, [])

section Stop

variable (stopped : S → Bool)

/-- One part after the other, unless the first one stops. -/
def andThen (f g : Act S O) : Act S O := fun s =>
  if stopped (f s).1 then f s else ((g (f s).1).1, (f s).2 ++ (g (f s).1).2)

/-- The parts for the elements of a list. -/
def forEach {A : Type} (act : A → Act S O) : List A → Act S O
  | [] => skip
  | a :: as => andThen stopped (act a) (forEach act as)

/-- A part that is run keeps the relation between the state and the events. -/
def Keeps (Inv : S → List O → Prop) (f : Act S O) : Prop :=
  ∀ s h, stopped s = false → Inv s h → Inv (f s).1 (h ++ (f s).2)

variable {stopped} {Inv : S → List O → Prop} {f g : Act S O}

lemma andThen_stopped {s : S} (h : stopped (f s).1 = true) : andThen stopped f g s = f s :=
  if_pos h

lemma andThen_running {s : S} (h : stopped (f s).1 = false) :
    andThen stopped f g s = ((g (f s).1).1, (f s).2 ++ (g (f s).1).2) :=
  if_neg (by simp [h])

lemma andThen_skip : andThen stopped f skip = f := by
  funext s
  unfold andThen
  split_ifs
  · rfl
  · simp [skip]

lemma andThen_emit {s : S} (h : stopped s = false) (e : O) :
    andThen stopped (emit e) g s = ((g s).1, e :: (g s).2) := andThen_running h

lemma andThen_update {s : S} {u : S → S} (h : stopped (u s) = false) :
    andThen stopped (update u) g s = g (u s) := andThen_running h

lemma Keeps.skip : Keeps stopped Inv (skip : Act S O) := by
  intro s h _ hinv
  rwa [Handler.skip, List.append_nil]

lemma Keeps.andThen (hf : Keeps stopped Inv f) (hg : Keeps stopped Inv g) :
    Keeps stopped Inv (andThen stopped f g) := by
  intro s h hs hinv
  have h1 := hf s h hs hinv
  cases hstop : stopped (f s).1 with
  | true => rwa [andThen_stopped hstop]
  | false =>
    have h2 := hg _ _ hstop h1
    rwa [andThen_running hstop, ← List.append_assoc]

lemma Keeps.forEach {A : Type} {act : A → Act S O} {as : List A}
    (h : ∀ a ∈ as, Keeps stopped Inv (act a)) : Keeps stopped Inv (forEach stopped act as) := by
  induction as with
  | nil => exact Keeps.skip
  | cons a as ih =>
    exact (h a List.mem_cons_self).andThen (ih fun b hb => h b (List.mem_cons_of_mem _ hb))

/-- A part takes what holds before it to what holds behind it, if the program goes on; what is
promised of the events holds either way. -/
def Leads (stopped : S → Bool) (J : List O → Prop) (P Q : S → List O → Prop) (f : Act S O) : Prop :=
  ∀ s h, stopped s = false → J h → P s h →
    J (h ++ (f s).2) ∧ (stopped (f s).1 = false → Q (f s).1 (h ++ (f s).2))

variable {J : List O → Prop} {P P' Q Q' R : S → List O → Prop}

lemma Leads.mono (hf : Leads stopped J P Q f) (hP : ∀ s h, P' s h → P s h)
    (hQ : ∀ s h, Q s h → Q' s h) : Leads stopped J P' Q' f := by
  intro s h hs hj hp
  obtain ⟨h1, h2⟩ := hf s h hs hj (hP s h hp)
  exact ⟨h1, fun hstop => hQ _ _ (h2 hstop)⟩

lemma Leads.skip : Leads stopped J P P (skip : Act S O) := by
  intro s h _ hj hp
  rw [Handler.skip, List.append_nil]
  exact ⟨hj, fun _ => hp⟩

lemma Leads.andThen (hf : Leads stopped J P Q f) (hg : Leads stopped J Q R g) :
    Leads stopped J P R (andThen stopped f g) := by
  intro s h hs hj hp
  obtain ⟨h1, h2⟩ := hf s h hs hj hp
  cases hstop : stopped (f s).1 with
  | true =>
    rw [andThen_stopped hstop]
    refine ⟨h1, fun hgoes => ?_⟩
    rw [hstop] at hgoes
    cases hgoes
  | false =>
    rw [andThen_running hstop, ← List.append_assoc]
    exact hg _ _ hstop h1 (h2 hstop)

end Stop

/-! ### Histories -/

/-- Each event of the history stands in the relation to what came before it. -/
def Each (Q : List O → O → Prop) (h : List O) : Prop := ∀ h₁ e h₂, h = h₁ ++ e :: h₂ → Q h₁ e

lemma each_nil (Q : List O → O → Prop) : Each Q [] := by
  intro h₁ e h₂ heq
  cases h₁ <;> cases heq

lemma each_concat {Q : List O → O → Prop} {h : List O} {e : O} (hh : Each Q h) (he : Q h e) :
    Each Q (h ++ [e]) := by
  intro h₁ e' h₂ heq
  rcases Machine.split_concat heq with ⟨t, ht⟩ | ⟨rfl, rfl⟩
  · exact hh h₁ e' t ht
  · exact he

end SstpClient.Lib.Handler
