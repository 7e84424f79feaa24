import SstpClient.Provider

/-!
The sessions of the tunnel provider, while the user does not stop it.

Each reconnect goes through one timer, one block, one teardown and one new thread. A thread that has
reported a failure raises nothing but that failure from then on.
-/

namespace SstpClient.Sessions

open SstpClient.Provider

/-! ### Blocks and threads -/

/-- The thread has reported a failure of its session. -/
def Spent : Phase → Prop
  | .returned => True
  | .finished => True
  | .raising (.fail ..) next => Spent next
  | _ => False

/-- A report names a generation its session has seen. -/
def Posted (generation : ℕ) : Block → Prop
  | .ready v g _ => 0 < v ∧ v ≤ g ∧ g ≤ generation
  | .fail v g _ => v ≤ g ∧ g ≤ generation
  | _ => True

/-- A block that the thread of the session makes in a callback. -/
def Raised (generation w : ℕ) (next : Phase) : Block → Prop
  | .stage _ => True
  | .packet _ _ => True
  | .ready v g _ => v = w ∧ 0 < w ∧ w ≤ g ∧ g ≤ generation
  | .fail v g _ => v = w ∧ w ≤ g ∧ g ≤ generation ∧ Spent next
  | _ => False

/-- What a callback goes back to. -/
def Resumes : Phase → Prop
  | .raising _ _ => False
  | _ => True

def ReadyOf (w : ℕ) : Block → Prop
  | .ready v _ _ => v = w
  | _ => False

def FailOf (w : ℕ) : Block → Prop
  | .fail v _ _ => v = w
  | _ => False

def reconnectOf : Block → Option ℕ
  | .reconnect generation => some generation
  | _ => none

def beginOf : Block → Option ℕ
  | .beginSession generation => some generation
  | _ => none

def taskBegin : Task → Option ℕ
  | .teardown generation => some generation
  | .join generation => some generation
  | .finish => none

/-- The timers of a reconnect, and their blocks. -/
def pendingReconnects (s : State) : List ℕ := s.timers ++ s.main.filterMap reconnectOf

/-- The reconnects that are under way. -/
def pendingBegins (s : State) : List ℕ := s.global.filterMap taskBegin ++ s.main.filterMap beginOf

/-- A reconnect has been scheduled for the session. -/
def Served (s : State) (w : ℕ) : Prop :=
  0 < w ∧ (w < s.sessionGeneration ∨ w = s.sessionGeneration ∧ s.reconnectScheduled = true)

/-- What holds as long as no second report has come through. A session for which a reconnect has been
scheduled has reported its failure, and none of its ready callbacks is left; a reconnect is pending
exactly when it is scheduled, and at most one is under way. -/
structure Shape (s : State) : Prop where
  running : s.userStopRequested = false
  posted : ∀ b ∈ s.main, Posted s.sessionGeneration b
  raising : ∀ w b next, s.worker w = .raising b next →
    Raised s.sessionGeneration w next b ∧ Resumes next
  spent : ∀ b ∈ s.main, ∀ w, FailOf w b → Spent (s.worker w)
  served : ∀ w, Served s w → Spent (s.worker w) ∧ ∀ b ∈ s.main, ¬ ReadyOf w b
  order : s.main.Pairwise fun b c => ∀ w, FailOf w b → ¬ ReadyOf w c
  unborn : ∀ w, w = 0 ∨ s.sessionGeneration < w → s.worker w = .absent
  begins : pendingBegins s = [] ∨ pendingBegins s = [s.sessionGeneration] ∧
    s.reconnectScheduled = false ∧ s.worker s.sessionGeneration = .absent ∧ 0 < s.sessionGeneration
  timers : pendingReconnects s = if s.reconnectScheduled then [s.sessionGeneration] else []
  idle : s.active = false → s.sessionGeneration = 0 ∧ s.reconnectScheduled = false

/-- What the invariant looks at. -/
def core (s : State) : Bool × List Block × (ℕ → Phase) × ℕ × Bool × List ℕ × List Task × Bool :=
  (s.userStopRequested, s.main, s.worker, s.sessionGeneration, s.reconnectScheduled, s.timers,
    s.global, s.active)

section Shape

variable {s : State}

lemma Shape.of_core {s' : State} (h : Shape s) (heq : core s' = core s) : Shape s' := by
  simp only [core, Prod.mk.injEq] at heq
  obtain ⟨h1, h2, h3, h4, h5, h6, h7, h8⟩ := heq
  have hserved : ∀ w, Served s' w ↔ Served s w := fun w => by
    unfold Served
    rw [h4, h5]
  constructor
  · rw [h1]
    exact h.running
  · rw [h2, h4]
    exact h.posted
  · rw [h3, h4]
    exact h.raising
  · rw [h2, h3]
    exact h.spent
  · rw [h2, h3]
    exact fun w hw => h.served w ((hserved w).mp hw)
  · rw [h2]
    exact h.order
  · rw [h3, h4]
    exact h.unborn
  · unfold pendingBegins
    rw [h2, h3, h4, h5, h7]
    exact h.begins
  · unfold pendingReconnects
    rw [h2, h4, h5, h6]
    exact h.timers
  · rw [h4, h5, h8]
    exact h.idle

lemma Raised.posted {generation w : ℕ} {next : Phase} {b : Block} (h : Raised generation w next b) :
    Posted generation b := by
  cases b with
  | ready v g a =>
    obtain ⟨rfl, h0, h1, h2⟩ := h
    exact ⟨h0, h1, h2⟩
  | fail v g f =>
    obtain ⟨rfl, h1, h2, -⟩ := h
    exact ⟨h1, h2⟩
  | _ => trivial

lemma Posted.mono {m n : ℕ} {b : Block} (h : Posted m b) (hle : m ≤ n) : Posted n b := by
  cases b with
  | ready v g a => exact ⟨h.1, h.2.1, le_trans h.2.2 hle⟩
  | fail v g f => exact ⟨h.1, le_trans h.2 hle⟩
  | _ => trivial

lemma Raised.mono {m n w : ℕ} {next : Phase} {b : Block} (h : Raised m w next b) (hle : m ≤ n) :
    Raised n w next b := by
  cases b with
  | ready v g a => exact ⟨h.1, h.2.1, h.2.2.1, le_trans h.2.2.2 hle⟩
  | fail v g f => exact ⟨h.1, h.2.1, le_trans h.2.2.1 hle, h.2.2.2⟩
  | _ => exact h

/-- A thread that has been created belongs to a generation up to this one. -/
lemma Shape.born (h : Shape s) {w : ℕ} (hw : s.worker w ≠ .absent) :
    0 < w ∧ w ≤ s.sessionGeneration := by
  constructor
  · by_contra h0
    exact hw (h.unborn w (.inl (by omega)))
  · by_contra hle
    exact hw (h.unborn w (.inr (by omega)))

lemma shape_init : Shape init where
  running := rfl
  posted := fun b hb => (List.not_mem_nil hb).elim
  raising := fun w b next hw => by cases hw
  spent := fun b hb => (List.not_mem_nil hb).elim
  served := fun w hw => by
    obtain ⟨h0, h1 | h1⟩ := hw
    · exact absurd h1 (Nat.not_lt_zero w)
    · cases h1.2
  order := List.Pairwise.nil
  unborn := fun _ _ => rfl
  begins := .inl rfl
  timers := rfl
  idle := fun _ => ⟨rfl, rfl⟩

/-- A block is taken from the main queue. -/
lemma Shape.pop {b : Block} {rest : List Block} (h : Shape s) (hmain : s.main = b :: rest)
    (hr : reconnectOf b = none)
    (hb : beginOf b = none ∨ pendingBegins { s with main := rest } = []) :
    Shape { s with main := rest } := by
  have hsub : ∀ c ∈ rest, c ∈ s.main := fun c hc => by
    rw [hmain]
    exact List.mem_cons_of_mem _ hc
  have htimers : pendingReconnects { s with main := rest } = pendingReconnects s := by
    unfold pendingReconnects
    rw [hmain, List.filterMap_cons_none hr]
  have horder := h.order
  rw [hmain] at horder
  refine ⟨h.running, fun c hc => h.posted c (hsub c hc), h.raising,
    fun c hc => h.spent c (hsub c hc),
    fun w hw => ⟨(h.served w hw).1, fun c hc => (h.served w hw).2 c (hsub c hc)⟩,
    (List.pairwise_cons.mp horder).2, h.unborn, ?_, by rw [htimers]; exact h.timers, h.idle⟩
  rcases hb with hb | hb
  · have hbegins : pendingBegins { s with main := rest } = pendingBegins s := by
      unfold pendingBegins
      rw [hmain, List.filterMap_cons_none hb]
    rw [hbegins]
    exact h.begins
  · exact .inl hb

/-- A thread goes on, and does not take back a failure it has reported. -/
lemma Shape.setPhase {w : ℕ} {p : Phase} (h : Shape s) (hw : s.worker w ≠ .absent)
    (hspent : Spent (s.worker w) → Spent p)
    (hraised : ∀ b next, p = .raising b next →
      Raised s.sessionGeneration w next b ∧ Resumes next) :
    Shape (setPhase s w p) := by
  have hkeep : ∀ v, Spent (s.worker v) → Spent ((Provider.setPhase s w p).worker v) := by
    intro v hv
    by_cases hvw : v = w
    · subst hvw
      rw [setPhase_worker_self]
      exact hspent hv
    · rw [setPhase_worker_of_ne s p hvw]
      exact hv
  refine ⟨h.running, h.posted, ?_, fun b hb v hv => hkeep v (h.spent b hb v hv),
    fun v hv => ⟨hkeep v (h.served v hv).1, (h.served v hv).2⟩, h.order, ?_, ?_, h.timers, h.idle⟩
  · intro v b next hv
    by_cases hvw : v = w
    · subst hvw
      rw [setPhase_worker_self] at hv
      exact hraised b next hv
    · rw [setPhase_worker_of_ne s p hvw] at hv
      exact h.raising v b next hv
  · intro v hv
    have hvw : v ≠ w := by
      rintro rfl
      exact hw (h.unborn v hv)
    exact (setPhase_worker_of_ne s p hvw).trans (h.unborn v hv)
  · rcases h.begins with h0 | ⟨h1, h2, h3, h4⟩
    · exact .inl h0
    · refine .inr ⟨h1, h2, ?_, h4⟩
      have hne : s.sessionGeneration ≠ w := by
        rintro rfl
        exact hw h3
      exact (setPhase_worker_of_ne s p hne).trans h3

/-- A thread dispatches the block of its callback. -/
lemma Shape.dispatch {w : ℕ} {b : Block} {next : Phase} (h : Shape s)
    (hw : s.worker w = .raising b next) :
    Shape { Provider.setPhase s w next with main := s.main ++ [b] } := by
  obtain ⟨hraised, hnext⟩ := h.raising w b next hw
  have hset : Shape (Provider.setPhase s w next) := by
    refine h.setPhase (by rw [hw]; nofun) (fun hs => ?_) fun c p hp => ?_
    · rw [hw] at hs
      cases b with
      | fail v g f => exact hs
      | _ => exact hs.elim
    · rw [hp] at hnext
      exact hnext.elim
  have hnone : reconnectOf b = none ∧ beginOf b = none := by
    cases b with
    | reconnect g => exact hraised.elim
    | beginSession g => exact hraised.elim
    | _ => exact ⟨rfl, rfl⟩
  have hfail : ∀ v, FailOf v b → Spent ((Provider.setPhase s w next).worker v) := by
    intro v hv
    cases b with
    | fail u g f =>
      obtain ⟨rfl, -, -, hs⟩ := hraised
      obtain rfl : u = v := hv
      rw [setPhase_worker_self]
      exact hs
    | _ => exact hv.elim
  -- a thread that has reported a failure is in no ready callback
  have hready : ∀ v, ReadyOf v b → ¬ Spent (s.worker v) := by
    intro v hv
    cases b with
    | ready u g a =>
      obtain ⟨rfl, -⟩ := hraised
      obtain rfl : u = v := hv
      rw [hw]
      exact fun hs => hs
    | _ => exact hv.elim
  have hold : ∀ v, ReadyOf v b → ∀ c ∈ s.main, ¬ FailOf v c := fun v hv c hc hf =>
    hready v hv (h.spent c hc v hf)
  refine ⟨h.running, fun c hc => ?_, hset.raising, fun c hc v hv => ?_, fun v hv => ?_, ?_,
    hset.unborn, ?_, ?_, h.idle⟩
  · rcases List.mem_append.mp hc with hc | hc
    · exact h.posted c hc
    · cases List.mem_singleton.mp hc
      exact hraised.posted
  · rcases List.mem_append.mp hc with hc | hc
    · exact hset.spent c hc v hv
    · cases List.mem_singleton.mp hc
      exact hfail v hv
  · refine ⟨(hset.served v hv).1, fun c hc => ?_⟩
    rcases List.mem_append.mp hc with hc | hc
    · exact (hset.served v hv).2 c hc
    · cases List.mem_singleton.mp hc
      exact fun hr => hready v hr (h.served v hv).1
  · refine List.pairwise_append.mpr ⟨h.order, List.pairwise_singleton _ _, fun c hc d hd v hf hr => ?_⟩
    cases List.mem_singleton.mp hd
    exact hold v hr c hc hf
  · have heq : pendingBegins { Provider.setPhase s w next with main := s.main ++ [b] } =
        pendingBegins (Provider.setPhase s w next) := by
      unfold pendingBegins
      rw [List.filterMap_append, List.filterMap_cons_none hnone.2, List.filterMap_nil,
        List.append_nil]
      rfl
    rw [heq]
    exact hset.begins
  · have heq : pendingReconnects { Provider.setPhase s w next with main := s.main ++ [b] } =
        pendingReconnects s := by
      unfold pendingReconnects
      rw [List.filterMap_append, List.filterMap_cons_none hnone.1, List.filterMap_nil,
        List.append_nil]
      rfl
    rw [heq]
    exact h.timers

/-- A thread that has not reported a failure goes on. -/
lemma Shape.move {s' : State} {w : ℕ} {p : Phase} (h : Shape s)
    (heq : core s' = core (Provider.setPhase s w p)) (hw : s.worker w ≠ .absent)
    (hspent : ¬ Spent (s.worker w))
    (hraised : 0 < w → w ≤ s.sessionGeneration → ∀ b next, p = .raising b next →
      Raised s.sessionGeneration w next b ∧ Resumes next) : Shape s' :=
  (h.setPhase hw (fun hs => absurd hs hspent) (hraised (h.born hw).1 (h.born hw).2)).of_core heq

lemma Shape.workerStep (h : Shape s) (w : ℕ) (a : Action) : Shape (workerStep s w a) := by
  unfold Provider.workerStep
  split
  case h_1 hp =>
    refine h.move (p := .starting s.session) ?_ (by rw [hp]; nofun) (by rw [hp]; exact id)
      fun _ _ _ _ => nofun
    unfold startEx
    cases s.session <;> rfl
  case h_2 hp =>
    exact h.move rfl (by rw [hp]; nofun) (by rw [hp]; exact id) fun _ _ _ _ => nofun
  case h_3 hp =>
    refine h.move (p := .raising _ _) rfl (by rw [hp]; nofun) (by rw [hp]; exact id) ?_
    rintro - - b next ⟨⟩
    exact ⟨trivial, trivial⟩
  case h_4 hp =>
    refine h.move (p := .raising _ _) rfl (by rw [hp]; nofun) (by rw [hp]; exact id) ?_
    rintro - hle b next ⟨⟩
    exact ⟨⟨rfl, hle, le_refl _, trivial⟩, trivial⟩
  case h_5 zero hp =>
    refine h.move rfl (by rw [hp]; nofun) (by rw [hp]; exact id) fun _ _ b next hb => ?_
    cases zero <;> cases hb
  case h_6 hp =>
    have hw : s.worker w ≠ .absent := by rw [hp]; nofun
    refine h.setPhase hw (fun _ => trivial) ?_
    rintro b next ⟨⟩
    exact ⟨⟨rfl, (h.born hw).2, le_refl _, trivial⟩, trivial⟩
  case h_7 hp =>
    exact h.move rfl (by rw [hp]; nofun) (by rw [hp]; exact id) fun _ _ _ _ => nofun
  case h_8 hp =>
    exact h.move rfl (by rw [hp]; nofun) (by rw [hp]; exact id) fun _ _ _ _ => nofun
  case h_9 hp =>
    refine h.move (p := .raising _ _) rfl (by rw [hp]; nofun) (by rw [hp]; exact id) ?_
    rintro - - b next ⟨⟩
    exact ⟨trivial, trivial⟩
  case h_10 hp =>
    refine h.move (p := .raising _ _) rfl (by rw [hp]; nofun) (by rw [hp]; exact id) ?_
    rintro hpos hle b next ⟨⟩
    exact ⟨⟨rfl, hpos, hle, le_refl _⟩, trivial⟩
  case h_11 hp =>
    split_ifs
    · exact h
    · refine h.move (p := .raising _ _) rfl (by rw [hp]; nofun) (by rw [hp]; exact id) ?_
      rintro - - b next ⟨⟩
      exact ⟨trivial, trivial⟩
  case h_12 hp =>
    refine h.move (p := .raising _ _) rfl (by rw [hp]; nofun) (by rw [hp]; exact id) ?_
    rintro - hle b next ⟨⟩
    exact ⟨⟨rfl, hle, le_refl _, trivial⟩, trivial⟩
  case h_13 hp =>
    exact h.move rfl (by rw [hp]; nofun) (by rw [hp]; exact id) fun _ _ _ _ => nofun
  case h_14 hp => exact h.dispatch hp
  case h_15 => exact h

/-- What does not come from a thread is put on the main queue. -/
lemma Shape.post {b : Block} (h : Shape s) (hposted : Posted s.sessionGeneration b)
    (hfail : ∀ w, ¬ FailOf w b) (hready : ∀ w, ¬ ReadyOf w b) {s' : State}
    (heq : core s' = core { s with main := s.main ++ [b], timers := s'.timers, global := s'.global })
    (hbegins : (pendingBegins s').Perm (pendingBegins s))
    (htimers : (pendingReconnects s').Perm (pendingReconnects s)) : Shape s' := by
  simp only [core, Prod.mk.injEq] at heq
  obtain ⟨h1, h2, h3, h4, h5, -, -, h8⟩ := heq
  have hmem : ∀ c ∈ s'.main, c ∈ s.main ∨ c = b := fun c hc => by
    rw [h2] at hc
    rcases List.mem_append.mp hc with hc | hc
    · exact .inl hc
    · exact .inr (List.mem_singleton.mp hc)
  have hserved : ∀ w, Served s' w → Served s w := fun w hw => by
    unfold Served at hw ⊢
    rwa [h4, h5] at hw
  refine ⟨h1.trans h.running, fun c hc => ?_, ?_, fun c hc w hw => ?_, fun w hw => ⟨?_, fun c hc => ?_⟩,
    ?_, ?_, ?_, ?_, ?_⟩
  · rw [h4]
    rcases hmem c hc with hc | rfl
    · exact h.posted c hc
    · exact hposted
  · rw [h3, h4]
    exact h.raising
  · rw [h3]
    rcases hmem c hc with hc | rfl
    · exact h.spent c hc w hw
    · exact absurd hw (hfail w)
  · rw [h3]
    exact (h.served w (hserved w hw)).1
  · rcases hmem c hc with hc | rfl
    · exact (h.served w (hserved w hw)).2 c hc
    · exact hready w
  · rw [h2]
    refine List.pairwise_append.mpr ⟨h.order, List.pairwise_singleton _ _, fun c _ d hd w _ => ?_⟩
    cases List.mem_singleton.mp hd
    exact hready w
  · rw [h3, h4]
    exact h.unborn
  · rw [h3, h4, h5]
    rcases h.begins with h0 | ⟨h0, hrest⟩
    · exact .inl (List.perm_nil.mp (h0 ▸ hbegins))
    · exact .inr ⟨List.perm_singleton.mp (h0 ▸ hbegins), hrest⟩
  · rw [h.timers] at htimers
    rw [h4, h5]
    split_ifs at htimers ⊢
    · exact List.perm_singleton.mp htimers
    · exact List.perm_nil.mp htimers
  · rw [h4, h5, h8]
    exact h.idle

lemma filterMap_eraseIdx {α β : Type} (f : α → Option β) {l : List α} {k : ℕ} {x : α} {y : β}
    (hk : l[k]? = some x) (hx : f x = some y) :
    (y :: (l.eraseIdx k).filterMap f).Perm (l.filterMap f) := by
  obtain ⟨hlt, rfl⟩ := List.getElem?_eq_some_iff.mp hk
  have hperm := (List.getElem_cons_eraseIdx_perm hlt).filterMap f
  rwa [List.filterMap_cons_some hx] at hperm

lemma Shape.fire (h : Shape s) (k : ℕ) : Shape (step s (.fire k)).1 := by
  simp only [step]
  cases hk : s.timers[k]? with
  | none => exact h
  | some generation =>
    dsimp only
    refine h.post (b := .reconnect generation) trivial (fun _ hf => hf) (fun _ hf => hf) rfl ?_ ?_
    · unfold pendingBegins
      rw [List.filterMap_append, List.filterMap_cons_none rfl, List.filterMap_nil, List.append_nil]
    · obtain ⟨hlt, hget⟩ := List.getElem?_eq_some_iff.mp hk
      have hperm := List.getElem_cons_eraseIdx_perm hlt
      have hone : [Block.reconnect generation].filterMap reconnectOf = [generation] := rfl
      rw [hget] at hperm
      unfold pendingReconnects
      rw [List.filterMap_append, hone, ← List.append_assoc]
      exact List.perm_append_comm.trans (hperm.append_right _)

lemma Shape.runTask (h : Shape s) (k : ℕ) : Shape (runTask s k) := by
  unfold Provider.runTask
  split
  case h_1 => exact h
  case h_2 nextGen hk =>
    obtain ⟨hlt, hget⟩ := List.getElem?_eq_some_iff.mp hk
    -- the reconnect is still under way
    have hsame : (s.global.set k (.join nextGen)).filterMap taskBegin =
        s.global.filterMap taskBegin := by
      rw [List.set_eq_take_append_cons_drop, if_pos hlt]
      conv_rhs => rw [← List.take_append_drop k s.global, List.drop_eq_getElem_cons hlt, hget]
      rw [List.filterMap_append, List.filterMap_append]
      rfl
    have hbegins : pendingBegins { s with global := s.global.set k (.join nextGen) } =
        pendingBegins s := by
      unfold pendingBegins
      rw [hsame]
    have hnext : Shape { s with global := s.global.set k (.join nextGen) } :=
      ⟨h.running, h.posted, h.raising, h.spent, h.served, h.order, h.unborn, by
        rw [hbegins]
        exact h.begins, h.timers, h.idle⟩
    refine hnext.of_core ?_
    unfold teardownWorkerKeepingCredentials sessionStop
    cases s.session <;> rfl
  case h_3 nextGen hk =>
    refine h.post (b := .beginSession nextGen) trivial (fun _ hf => hf) (fun _ hf => hf) rfl ?_ ?_
    · have hperm := filterMap_eraseIdx taskBegin hk rfl
      unfold pendingBegins
      have hone : [Block.beginSession nextGen].filterMap beginOf = [nextGen] := rfl
      rw [List.filterMap_append, hone, ← List.append_assoc]
      exact List.perm_append_comm.trans (hperm.append_right _)
    · unfold pendingReconnects
      rw [List.filterMap_append, List.filterMap_cons_none rfl, List.filterMap_nil, List.append_nil]
  case h_4 hk =>
    refine h.post (b := .stopped) trivial (fun _ hf => hf) (fun _ hf => hf) rfl ?_ ?_
    · obtain ⟨hlt, hget⟩ := List.getElem?_eq_some_iff.mp hk
      have hperm := (List.getElem_cons_eraseIdx_perm hlt).filterMap taskBegin
      rw [hget, List.filterMap_cons_none rfl] at hperm
      unfold pendingBegins
      rw [List.filterMap_append, List.filterMap_cons_none rfl, List.filterMap_nil, List.append_nil]
      exact hperm.append_right _
    · unfold pendingReconnects
      rw [List.filterMap_append, List.filterMap_cons_none rfl, List.filterMap_nil, List.append_nil]

/-- A thread is created for the generation. -/
lemma Shape.create (h : Shape s) (hbegins : pendingBegins s = [])
    (habsent : s.worker s.sessionGeneration = .absent) (hpos : 0 < s.sessionGeneration) :
    Shape (beginSession s s.sessionGeneration) := by
  have hkeep : ∀ v, Spent (s.worker v) →
      Spent ((Provider.setPhase s s.sessionGeneration .created).worker v) := by
    intro v hv
    have hne : v ≠ s.sessionGeneration := by
      rintro rfl
      rw [habsent] at hv
      exact hv
    rw [setPhase_worker_of_ne s _ hne]
    exact hv
  have hcreated : Shape (Provider.setPhase s s.sessionGeneration .created) := by
    refine ⟨h.running, h.posted, fun v b next hv => ?_, fun b hb v hv => hkeep v (h.spent b hb v hv),
      fun v hv => ⟨hkeep v (h.served v hv).1, (h.served v hv).2⟩, h.order, fun v hv => ?_,
      .inl hbegins, h.timers, h.idle⟩
    · have hne : v ≠ s.sessionGeneration := by
        rintro rfl
        rw [setPhase_worker_self] at hv
        cases hv
      rw [setPhase_worker_of_ne s _ hne] at hv
      exact h.raising v b next hv
    · have hne : v ≠ s.sessionGeneration := by
        rintro rfl
        rcases hv with hv | hv
        · exact hpos.ne' hv
        · exact lt_irrefl _ hv
      rw [setPhase_worker_of_ne s _ hne]
      exact h.unborn v hv
  have hgo : ¬ (s.userStopRequested || s.sessionGeneration != s.sessionGeneration) = true := by
    simp [h.running]
  refine hcreated.of_core ?_
  unfold Provider.beginSession
  rw [if_neg hgo]
  unfold sessionStop
  cases s.session <;> rfl

/-- The last step of a reconnect. -/
lemma Shape.beginSession {generation : ℕ} {rest : List Block} (h : Shape s)
    (hmain : s.main = .beginSession generation :: rest) :
    Shape (runBlock { s with main := rest } (.beginSession generation)).1 := by
  have hpending : pendingBegins s =
      s.global.filterMap taskBegin ++ generation :: rest.filterMap beginOf := by
    unfold pendingBegins
    rw [hmain]
    rfl
  rcases h.begins with h0 | ⟨h0, -, habsent, hpos⟩
  · rw [h0] at hpending
    exact absurd hpending.symm (List.append_ne_nil_of_right_ne_nil _ (List.cons_ne_nil _ _))
  · rw [h0] at hpending
    obtain ⟨hglobal, hrest⟩ | ⟨-, hrest⟩ := List.append_eq_singleton_iff.mp hpending.symm
    · obtain ⟨rfl, hnone⟩ := List.cons.inj hrest
      have hbegins : pendingBegins { s with main := rest } = [] := by
        unfold pendingBegins
        rw [hglobal, hnone]
        rfl
      have hcreate := (h.pop hmain rfl (.inr hbegins)).create hbegins habsent hpos
      have hgo : ¬ s.userStopRequested = true := by simp [h.running]
      have hrun : (runBlock { s with main := rest } (.beginSession s.sessionGeneration)).1 =
          Provider.beginSession { s with main := rest } s.sessionGeneration := if_neg hgo
      rw [hrun]
      exact hcreate
    · cases hrest

/-- The block of a reconnect is there only if the reconnect is scheduled, and it is the only one. -/
lemma Shape.scheduled {generation : ℕ} {rest : List Block} (h : Shape s)
    (hmain : s.main = .reconnect generation :: rest) : s.reconnectScheduled = true ∧
      generation = s.sessionGeneration ∧ s.timers = [] ∧ rest.filterMap reconnectOf = [] := by
  have hpending : s.timers ++ generation :: rest.filterMap reconnectOf =
      if s.reconnectScheduled then [s.sessionGeneration] else [] := by
    rw [← h.timers]
    unfold pendingReconnects
    rw [hmain]
    rfl
  split_ifs at hpending with hsched
  · obtain ⟨htimers, hrest⟩ | ⟨-, hrest⟩ := List.append_eq_singleton_iff.mp hpending
    · obtain ⟨hgen, hnone⟩ := List.cons.inj hrest
      exact ⟨hsched, hgen, htimers, hnone⟩
    · cases hrest
  · exact absurd hpending (List.append_ne_nil_of_right_ne_nil _ (List.cons_ne_nil _ _))

/-- The state after the block of a reconnect. -/
lemma runBlock_reconnect (hrun : s.userStopRequested = false) :
    runBlock s (.reconnect s.sessionGeneration) =
      ({ s with
          reconnectScheduled := false
          sessionGeneration := s.sessionGeneration + 1
          global := s.global ++ [.teardown (s.sessionGeneration + 1)] }, [.retried]) := by
  have hgo : ¬ (s.userStopRequested || s.sessionGeneration != s.sessionGeneration) = true := by
    simp [hrun]
  exact if_neg hgo

/-- The delay of a reconnect has passed: the generation goes up, and all reports are out of date. -/
lemma Shape.retry {rest : List Block} (h : Shape s)
    (hmain : s.main = .reconnect s.sessionGeneration :: rest) :
    Shape (runBlock { s with main := rest } (.reconnect s.sessionGeneration)).1 := by
  obtain ⟨hsched, -, htimers, hnone⟩ := h.scheduled hmain
  have hsub : ∀ c ∈ rest, c ∈ s.main := fun c hc => by
    rw [hmain]
    exact List.mem_cons_of_mem _ hc
  have horder := h.order
  rw [hmain] at horder
  have hbegins : pendingBegins s = [] := by
    rcases h.begins with h0 | ⟨-, h1, -⟩
    · exact h0
    · rw [hsched] at h1
      cases h1
  have hrun := runBlock_reconnect (s := { s with main := rest }) h.running
  dsimp only at hrun
  rw [hrun]
  refine ⟨h.running, fun c hc => ?_, fun v b next hv => ?_, fun c hc => h.spent c (hsub c hc),
    fun v hv => ?_, (List.pairwise_cons.mp horder).2, fun v hv => ?_, .inr ⟨?_, rfl, ?_, ?_⟩, ?_,
    fun hidle => ?_⟩
  · exact (h.posted c (hsub c hc)).mono (Nat.le_succ _)
  · obtain ⟨hraised, hnext⟩ := h.raising v b next hv
    exact ⟨hraised.mono (Nat.le_succ _), hnext⟩
  · have hserved : Served s v := by
      obtain ⟨h0, hlt | ⟨-, hf⟩⟩ := hv
      · exact ⟨h0, (Nat.lt_succ_iff_lt_or_eq.mp hlt).imp_right fun heq => ⟨heq, hsched⟩⟩
      · cases hf
    exact ⟨(h.served v hserved).1, fun c hc => (h.served v hserved).2 c (hsub c hc)⟩
  · exact h.unborn v (hv.imp_right Nat.lt_of_succ_lt)
  · obtain ⟨hglobal, hmainNone⟩ := List.append_eq_nil_iff.mp hbegins
    rw [hmain, List.filterMap_cons_none rfl] at hmainNone
    unfold pendingBegins
    dsimp only
    rw [List.filterMap_append, hglobal, hmainNone]
    rfl
  · exact h.unborn _ (.inr (Nat.lt_succ_self _))
  · exact Nat.succ_pos _
  · unfold pendingReconnects
    dsimp only
    rw [htimers, hnone]
    rfl
  · rw [(h.idle hidle).2] at hsched
    cases hsched

/-- A reconnect is scheduled for the session of this generation. -/
lemma Shape.schedule (h : Shape s) (hsched : s.reconnectScheduled = false)
    (hspent : Spent (s.worker s.sessionGeneration))
    (hready : ∀ b ∈ s.main, ¬ ReadyOf s.sessionGeneration b) :
    Shape { s with
      reconnectScheduled := true
      timers := s.timers ++ [s.sessionGeneration] } := by
  have hborn := h.born fun habsent => by
    rw [habsent] at hspent
    exact hspent
  refine ⟨h.running, h.posted, h.raising, h.spent, fun w hw => ?_, h.order, h.unborn, .inl ?_, ?_,
    fun hidle => ?_⟩
  · obtain ⟨h0, hlt | ⟨rfl, -⟩⟩ := hw
    · exact h.served w ⟨h0, .inl hlt⟩
    · exact ⟨hspent, hready⟩
  · rcases h.begins with h0 | ⟨-, -, habsent, -⟩
    · exact h0
    · rw [habsent] at hspent
      exact hspent.elim
  · have hnone := h.timers
    rw [hsched, if_neg Bool.false_ne_true] at hnone
    obtain ⟨htimers, hmain⟩ := List.append_eq_nil_iff.mp hnone
    unfold pendingReconnects
    dsimp only
    rw [htimers, hmain]
    rfl
  · exact absurd (h.idle hidle).1 hborn.1.ne'.elim

/-- The system starts the tunnel. -/
lemma Shape.start (h : Shape s) (hidle : s.active = false) :
    Shape { s with sessionGeneration := s.sessionGeneration + 1, active := true } ∧
      pendingBegins s = [] := by
  obtain ⟨hgen, hsched⟩ := h.idle hidle
  have hbegins : pendingBegins s = [] := by
    rcases h.begins with h0 | ⟨-, -, -, hpos⟩
    · exact h0
    · exact absurd hgen hpos.ne'
  refine ⟨⟨h.running, fun b hb => (h.posted b hb).mono (Nat.le_succ _), fun w b next hw => ?_,
    h.spent, fun w hw => ?_, h.order, fun w hw => h.unborn w (hw.imp_right Nat.lt_of_succ_lt),
    .inl hbegins, ?_, nofun⟩, hbegins⟩
  · obtain ⟨hraised, hnext⟩ := h.raising w b next hw
    exact ⟨hraised.mono (Nat.le_succ _), hnext⟩
  · obtain ⟨h0, hlt | ⟨-, hs⟩⟩ := hw
    · dsimp only at hlt
      omega
    · exact absurd (hsched.symm.trans hs) Bool.false_ne_true
  · have htimers := h.timers
    rw [hsched] at htimers ⊢
    exact htimers

end Shape

end SstpClient.Sessions
