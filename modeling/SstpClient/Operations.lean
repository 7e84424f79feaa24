import SstpClient.StreamSpec

/-!
The operations of the TLS stream: each is queued, free, or in the hand of `sstp_send_cont`.

A free operation that is taken is the head of a list whose rest is dropped, and an operation whose
retry is queued again is replaced by another one.
-/

namespace SstpClient.Operations

open SstpClient.Buffer SstpClient.Lib.Machine SstpClient.Stream

/-! ### What is promised -/

/-- Outside the functions every operation is queued or free, and none is both. -/
def Conserved (s : SstpStream) : Prop :=
  (s.send.map Operation.cell ++ s.cache).Perm (List.range s.cells)

/-- The state after the inputs. -/
def after (bufs : ℕ → Buff) (inputs : List Input) : SstpStream := (run step (init bufs) inputs).1

/-- The operations after a run, and how many there are: one more than were queued at some time. -/
structure Accounted (bufs : ℕ → Buff) (inputs : List Input) : Prop where
  conserved : Conserved (after bufs inputs)
  bounded : ∃ js, js <+: inputs ∧ (after bufs inputs).cells ≤ 1 + (after bufs js).send.length

/-- The condition on a step: what is taken is taken from a list of one at most, no retry is blocked,
and no callback ends while an operation is queued and the event is pending. -/
def Keeps (s : SstpStream) (i : Input) : Prop :=
  match s.place, i with
  | .idle, .send _ _ => s.evSend.isSome = true → s.cache.length ≤ 1
  | .callback _, .send _ _ => s.evSend.isSome = true → s.cache.length ≤ 1
  | .writing _ _ _ w, .write result =>
    result.Blocked → s.cache.length ≤ 1 ∧ ∀ cell, w ≠ .sendCont cell
  | .callback _, .ret => s.evSend.isSome = true → s.send = []
  | _, _ => True

/-! ### The operation in the hand -/

def heldBy : Caller → List ℕ
  | .handler => []
  | .callback cell => [cell]
  | .sendCont cell => [cell]

def held : Place → List ℕ
  | .idle => []
  | .callback cell => [cell]
  | .writing _ _ _ w => heldBy w

/-- All operations that can be found. -/
def account (s : SstpStream) : List ℕ := s.send.map Operation.cell ++ s.cache ++ held s.place

lemma length_account (s : SstpStream) :
    (account s).length = s.send.length + s.cache.length + (held s.place).length := by
  simp [account, Nat.add_assoc]

/-- Outside the functions none is in the hand. -/
lemma account_idle {s : SstpStream} (h : s.place = .idle) :
    account s = s.send.map Operation.cell ++ s.cache := by
  simp [account, h, held]

/-! ### What a step does to the operations -/

/-- An operation is taken and queued. -/
structure Took (s s' : SstpStream) : Prop where
  cache : s'.cache = []
  inHand : held s'.place = held s.place
  taken : (s.cache = [] ∧ s'.cells = s.cells + 1 ∧
      s'.send.map Operation.cell = s.send.map Operation.cell ++ [s.cells]) ∨
    ∃ cell rest, s.cache = cell :: rest ∧ s'.cells = s.cells ∧
      s'.send.map Operation.cell = s.send.map Operation.cell ++ [cell]

/-- The operations stay where they can be found. -/
def Moved (s s' : SstpStream) : Prop := (account s').Perm (account s) ∧ s'.cells = s.cells

/-- An operation is lost for good. -/
def Lost (s s' : SstpStream) : Prop := (account s').length + s.cells < (account s).length + s'.cells

/-- **What a step does**, as the condition has it. -/
inductive Effect (s s' : SstpStream) (keeps : Prop) : Prop
  | moved (h : Moved s s') (hkeeps : keeps)
  | took (h : Took s s') (hkeeps : keeps ↔ s.cache.length ≤ 1)
  | lost (h : Lost s s') (hkeeps : ¬ keeps)

section Functions

variable {s : SstpStream}

/-- What is queued has come from the cache, or is new. -/
lemma took_addWrite (buf : ℕ) (event : Interest) (timeout call : ℕ) :
    Took s (sstpOperationAddWrite s buf event timeout call) := by
  unfold sstpOperationAddWrite sstpOperationGet sstpOperationAppend
  cases hcache : s.cache with
  | nil =>
    refine ⟨?_, ?_, .inl ⟨hcache, ?_, ?_⟩⟩
    all_goals
      dsimp only
      split_ifs <;> simp
  | cons cell rest =>
    refine ⟨?_, ?_, .inr ⟨cell, rest, hcache, ?_, ?_⟩⟩
    all_goals
      dsimp only
      split_ifs <;> simp

/-- The lengths: one more is queued, and it is new if there was none in the cache. -/
lemma Took.sizes {s' : SstpStream} (h : Took s s') :
    s'.send.length = s.send.length + 1 ∧ s'.cache.length = 0 ∧
      s'.cells + min 1 s.cache.length = s.cells + 1 := by
  have hsent : ∀ {cell : ℕ}, s'.send.map Operation.cell = s.send.map Operation.cell ++ [cell] →
      s'.send.length = s.send.length + 1 := by
    intro cell hsend
    have hlen := congrArg List.length hsend
    simpa using hlen
  rw [h.cache]
  rcases h.taken with ⟨hcache, hcells, hsend⟩ | ⟨cell, rest, hcache, hcells, hsend⟩
  · exact ⟨hsent hsend, rfl, by simp [hcache, hcells]⟩
  · exact ⟨hsent hsend, rfl, by simp [hcache, hcells]⟩

/-- A change of the place only. -/
lemma Took.withPlace {s s' : SstpStream} (h : Took s s') {p : Place} (hp : held p = held s.place) :
    Took s { s' with place := p } := ⟨h.cache, hp, h.taken⟩

/-- `leave` gives back what the caller holds, unless `sstp_send_cont` has it queued again. -/
lemma leave_eq (s : SstpStream) (w : Caller) (call : ℕ) (status : Status) :
    ∃ p, (leave s w call status).1 = { s with place := p } ∧
      ((status ≠ .inprog ∨ ∀ cell, w ≠ .sendCont cell) → held p = heldBy w) ∧
      ((∃ cell, w = .sendCont cell) → status = .inprog → held p = []) := by
  cases w with
  | handler => exact ⟨.idle, rfl, fun _ => rfl, fun ⟨_, h⟩ => by cases h⟩
  | callback cell => exact ⟨.callback cell, rfl, fun _ => rfl, fun ⟨_, h⟩ => by cases h⟩
  | sendCont cell =>
    by_cases hstatus : status = .inprog
    · refine ⟨.idle, by simp [leave, hstatus], fun h => ?_, fun _ _ => rfl⟩
      exact absurd rfl ((h.resolve_left (not_not.mpr hstatus)) cell)
    · exact ⟨.callback cell, by simp [leave, hstatus], fun _ => rfl, fun _ h => absurd h hstatus⟩

/-- A loss, where an operation is taken and the one in the hand is forgotten. -/
lemma Took.lost {s' : SstpStream} (h : Took s s') (hheld : (held s.place).length = 1) {p : Place}
    (hp : held p = []) : Lost s { s' with place := p } := by
  unfold Lost
  have hsizes := h.sizes
  rw [length_account, length_account, hheld, hp]
  dsimp only [List.length_nil]
  omega

/-- `sstp_send_cont` at the head of its loop, where it holds no operation. -/
lemma sendCont_account (h : s.evSend.isSome = true → s.send = []) :
    (account (sendCont s).1).Perm (s.send.map Operation.cell ++ s.cache) ∧
      (sendCont s).1.cells = s.cells := by
  unfold sendCont
  cases hsend : s.send with
  | nil => exact ⟨by simp [account, held], rfl⟩
  | cons op rest =>
    have hev : ¬ s.evSend.isSome = true := fun hev => by simp [h hev] at hsend
    simp only [sstpStreamSend, hev, Bool.false_eq_true, if_false]
    refine ⟨?_, trivial⟩
    simp only [account, held, heldBy, List.map_cons]
    exact List.perm_append_comm

/-- **The event fires**: an operation is taken off the queue. -/
lemma ready_effect (hplace : s.place = .idle) :
    Moved s (sendCont { s with evSend := none }).1 := by
  obtain ⟨hperm, hcells⟩ := sendCont_account (s := { s with evSend := none }) nofun
  refine ⟨?_, hcells⟩
  rw [account_idle hplace]
  exact hperm

/-- **A callback ends**: its operation is free, and the next one is sent. -/
lemma ret_effect {cell : ℕ} (hplace : s.place = .callback cell) :
    Effect s (sendCont { s with cache := cell :: s.cache }).1
      (s.evSend.isSome = true → s.send = []) := by
  have haccount : account s = s.send.map Operation.cell ++ s.cache ++ [cell] := by
    simp [account, hplace, held]
  by_cases h : s.evSend.isSome = true → s.send = []
  · obtain ⟨hperm, hcells⟩ := sendCont_account (s := { s with cache := cell :: s.cache }) h
    refine .moved ⟨hperm.trans ?_, hcells⟩ h
    rw [haccount, List.append_assoc]
    have hfree : (cell :: s.cache).Perm (s.cache ++ [cell]) := (List.perm_append_singleton _ _).symm
    exact hfree.append_left _
  · refine .lost ?_ h
    obtain ⟨hev, hne⟩ := Classical.not_imp.mp h
    obtain ⟨op, rest, hsend⟩ := List.exists_cons_of_ne_nil hne
    -- the event is pending: the operation is queued again, as another one
    have htook :=
      took_addWrite (s := { s with send := rest, cache := cell :: s.cache }) op.buf .write
      op.timeout op.call
    unfold sendCont
    simp only [hsend, sstpStreamSend, hev, if_true, leave]
    unfold Lost
    rcases htook.taken with ⟨hcache, -, -⟩ | ⟨c, r, hcache, hcells, hmap⟩
    · cases hcache
    · have hlen := congrArg List.length hmap
      simp only [List.length_map, List.length_append, List.length_singleton] at hlen
      rw [length_account, haccount]
      simp only [hlen, hcells, htook.cache, held, List.length_append, List.length_map, hsend,
        List.length_cons, List.length_nil]
      omega

/-- **A call from outside**: if the event is pending it is queued. -/
lemma sendFrom_effect {w : Caller} (hw : ∀ cell, w ≠ .sendCont cell) (hheld : held s.place = heldBy w)
    (buf timeout : ℕ) :
    Effect s (sendFrom s w buf timeout).1 (s.evSend.isSome = true → s.cache.length ≤ 1) := by
  unfold sendFrom sstpStreamSend
  by_cases hev : s.evSend.isSome = true
  · simp only [hev, if_true]
    obtain ⟨p, hleave, hp, -⟩ := leave_eq (sstpOperationAddWrite { s with calls := s.calls + 1 } buf
      .write timeout s.calls) w s.calls .inprog
    rw [hleave]
    have htook := took_addWrite (s := { s with calls := s.calls + 1 }) buf .write timeout s.calls
    refine .took ⟨htook.cache, (hp (.inr hw)).trans hheld.symm, htook.taken⟩ ?_
    exact ⟨fun h => h trivial, fun h _ => h⟩
  · simp only [hev, Bool.false_eq_true, if_false]
    refine .moved ⟨?_, rfl⟩ nofun
    simp only [account, hheld]
    exact List.Perm.refl _

/-- **`SSL_write`**: a blocked one is queued. -/
lemma sslWrite_effect {buf call timeout : ℕ} {w : Caller}
    (hplace : s.place = .writing buf call timeout w) (result : SslWrite) :
    Effect s (sslWrite s buf call timeout w result).1
      (result.Blocked → s.cache.length ≤ 1 ∧ ∀ cell, w ≠ .sendCont cell) := by
  have hheld : held s.place = heldBy w := by rw [hplace]; rfl
  have hblocked : ∀ (event : Interest) {keeps : Prop},
      (keeps ↔ s.cache.length ≤ 1 ∧ ∀ cell, w ≠ .sendCont cell) →
        Effect s (leave (sstpOperationAddWrite s buf event timeout call) w call .inprog).1
          keeps := by
    intro event keeps hkeeps
    have htook := took_addWrite (s := s) buf event timeout call
    obtain ⟨p, hleave, hkept, hgone⟩ :=
      leave_eq (sstpOperationAddWrite s buf event timeout call) w call .inprog
    rw [hleave]
    by_cases hw : ∀ cell, w ≠ .sendCont cell
    · refine .took (htook.withPlace ((hkept (.inr hw)).trans hheld.symm)) ?_
      rw [hkeeps, and_iff_left hw]
    · refine .lost ?_ fun h => hw (hkeeps.mp h).2
      simp only [not_forall, not_not] at hw
      obtain ⟨cell, rfl⟩ := hw
      exact htook.lost (by rw [hheld]; rfl) (hgone ⟨cell, rfl⟩ rfl)
  have hdone : ∀ (s' : SstpStream) (status : Status), status ≠ .inprog → s'.send = s.send →
      s'.cache = s.cache → s'.cells = s.cells → Moved s (leave s' w call status).1 := by
    intro s' status hstatus hsend hcache hcells
    obtain ⟨p, hleave, hkept, -⟩ := leave_eq s' w call status
    rw [hleave]
    refine ⟨?_, hcells⟩
    simp only [account, hsend, hcache, hkept (.inl hstatus), hheld]
    exact List.Perm.refl _
  have hfree : ∀ r : SslWrite, ¬ r.Blocked →
      (r.Blocked → s.cache.length ≤ 1 ∧ ∀ cell, w ≠ .sendCont cell) := fun _ hr h => absurd h hr
  unfold sslWrite
  cases result with
  | written n =>
    have hr := hfree (.written n) fun h => by rcases h with h | h <;> cases h
    dsimp only
    split_ifs
    · exact .moved ⟨List.Perm.refl _, rfl⟩ hr
    · exact .moved (hdone _ .okay (by decide) rfl rfl rfl) hr
  | wantRead => exact hblocked .read ⟨fun h => h (.inl rfl), fun h _ => h⟩
  | wantWrite => exact hblocked .write ⟨fun h => h (.inr rfl), fun h _ => h⟩
  | error => exact .moved (hdone s .fail (by decide) rfl rfl rfl) (hfree .error (by decide))

end Functions

/-- **Each step** moves the operations, takes one or loses one. -/
theorem step_effect (s : SstpStream) (i : Input) : Effect s (step s i).1 (Keeps s i) := by
  have hsame : Moved s s := ⟨List.Perm.refl _, rfl⟩
  unfold step Keeps
  cases hplace : s.place with
  | idle =>
    cases i with
    | build buf content => exact .moved ⟨by simp [account, hplace], rfl⟩ trivial
    | send buf timeout =>
      exact sendFrom_effect (fun _ h => by cases h) (by rw [hplace]; rfl) buf timeout
    | write result => exact .moved hsame trivial
    | ready =>
      dsimp only
      split_ifs
      · exact .moved (ready_effect hplace) trivial
      · exact .moved hsame trivial
    | ret => exact .moved hsame trivial
  | callback cell =>
    cases i with
    | build buf content => exact .moved ⟨by simp [account, hplace], rfl⟩ trivial
    | send buf timeout =>
      exact sendFrom_effect (fun _ h => by cases h) (by rw [hplace]; rfl) buf timeout
    | write result => exact .moved hsame trivial
    | ready => exact .moved hsame trivial
    | ret =>
      have hret := ret_effect hplace
      rw [hplace] at hret
      exact hret
  | writing buf call timeout w =>
    cases i with
    | build buf content => exact .moved hsame trivial
    | send buf timeout => exact .moved hsame trivial
    | write result => exact sslWrite_effect hplace result
    | ready => exact .moved hsame trivial
    | ret => exact .moved hsame trivial

/-! ### Whole runs -/

section Runs

variable {s s' : SstpStream}

/-- What is taken from a list of two or more is not all that is gone from it. -/
lemma Took.count (h : Took s s') :
    (account s').length + s.cells + (s.cache.length - 1) = (account s).length + s'.cells := by
  have hsizes := h.sizes
  rw [length_account, length_account, h.inHand]
  omega

/-- **What is lost stays lost**, and a step that does not meet the condition loses something. -/
lemma Effect.count {keeps : Prop} (h : Effect s s' keeps) :
    (account s').length + s.cells ≤ (account s).length + s'.cells ∧
      (¬ keeps → (account s').length + s.cells < (account s).length + s'.cells) := by
  rcases h with ⟨⟨hperm, hcells⟩, hkeeps⟩ | ⟨htook, hkeeps⟩ | ⟨hlost, -⟩
  · rw [hperm.length_eq, hcells]
    exact ⟨le_rfl, fun hnot => absurd hkeeps hnot⟩
  · have hcount := htook.count
    rw [hkeeps]
    omega
  · exact ⟨hlost.le, fun _ => hlost⟩

/-- The operations before and behind one that is put in between. -/
lemma perm_between (front back : List ℕ) (cell : ℕ) :
    (front ++ [cell] ++ back).Perm (cell :: (front ++ back)) := by
  rw [List.append_assoc, List.singleton_append]
  exact List.perm_middle

/-- **A step that meets the condition** loses nothing, and what is new is queued. -/
lemma Effect.perm {keeps : Prop} (h : Effect s s' keeps) (hkeeps : keeps)
    (hperm : (account s).Perm (List.range s.cells)) :
    (account s').Perm (List.range s'.cells) ∧
      (s'.cells = s.cells ∨ s'.cells ≤ s'.send.length + (held s'.place).length) := by
  rcases h with ⟨⟨hmoved, hcells⟩, -⟩ | ⟨htook, hone⟩ | ⟨-, hnot⟩
  · exact ⟨hcells ▸ hmoved.trans hperm, .inl hcells⟩
  · have hshort := hone.mp hkeeps
    have hnew : (account s').Perm (List.range s'.cells) := by
      unfold account at hperm ⊢
      rw [htook.cache, htook.inHand, List.append_nil]
      rcases htook.taken with ⟨hcache, hcells, hsend⟩ | ⟨cell, rest, hcache, hcells, hsend⟩
      · rw [hcache, List.append_nil] at hperm
        rw [hcells, hsend, List.range_succ]
        exact (perm_between _ _ _).trans
          ((hperm.cons _).trans (List.perm_append_singleton _ _).symm)
      · have hrest : rest = [] := by
          rw [hcache, List.length_cons] at hshort
          exact List.length_eq_zero_iff.mp (by omega)
        rw [hcache, hrest] at hperm
        rw [hcells, hsend]
        exact hperm
    refine ⟨hnew, .inr ?_⟩
    have hlen := hnew.length_eq
    rw [length_account, List.length_range, htook.cache, List.length_nil] at hlen
    omega
  · exact absurd hkeeps hnot

variable (bufs : ℕ → Buff)

lemma after_concat (js : List Input) (i : Input) :
    after bufs (js ++ [i]) = (step (after bufs js) i).1 := by
  unfold after
  rw [run_append]
  rfl

lemma along_concat (js : List Input) (i : Input) :
    Along step Keeps (init bufs) (js ++ [i]) ↔
      Along step Keeps (init bufs) js ∧ Keeps (after bufs js) i := by
  rw [along_append]
  simp [Along, after]

/-- **Losses** in a run. -/
lemma account_after (js : List Input) :
    (account (after bufs js)).length ≤ (after bufs js).cells ∧
      (¬ Along step Keeps (init bufs) js →
        (account (after bufs js)).length < (after bufs js).cells) := by
  induction js using List.reverseRecOn with
  | nil => exact ⟨le_rfl, fun h => absurd trivial h⟩
  | append_singleton js i ih =>
    obtain ⟨hle, hlt⟩ := ih
    obtain ⟨hkept, hlost⟩ := (step_effect (after bufs js) i).count
    rw [after_concat, along_concat]
    refine ⟨by omega, fun hnot => ?_⟩
    by_cases hjs : Along step Keeps (init bufs) js
    · have hstep := hlost fun hi => hnot ⟨hjs, hi⟩
      omega
    · have hbefore := hlt hjs
      omega

lemma length_held (p : Place) : (held p).length ≤ 1 := by
  cases p with
  | idle => exact Nat.zero_le 1
  | callback cell => exact le_rfl
  | writing buf call timeout w =>
    cases w with
    | handler => exact Nat.zero_le 1
    | callback cell => exact le_rfl
    | sendCont cell => exact le_rfl

/-- **A run whose steps meet the condition** loses nothing. -/
lemma account_along {js : List Input} (h : Along step Keeps (init bufs) js) :
    (account (after bufs js)).Perm (List.range (after bufs js).cells) ∧
      ∃ ks, ks <+: js ∧ (after bufs js).cells ≤ 1 + (after bufs ks).send.length := by
  induction js using List.reverseRecOn with
  | nil => exact ⟨List.Perm.refl _, [], List.prefix_refl _, Nat.zero_le _⟩
  | append_singleton js i ih =>
    obtain ⟨hjs, hi⟩ := (along_concat bufs js i).mp h
    obtain ⟨hperm, ks, hks, hbound⟩ := ih hjs
    obtain ⟨hnew, hcells⟩ := (step_effect (after bufs js) i).perm hi hperm
    rw [← after_concat] at hnew hcells
    refine ⟨hnew, ?_⟩
    rcases hcells with hsame | hqueued
    · exact ⟨ks, hks.trans (List.prefix_append _ _), hsame ▸ hbound⟩
    · have hone := length_held (after bufs (js ++ [i])).place
      exact ⟨js ++ [i], List.prefix_refl _, by omega⟩

/-- **Operations are conserved**, exactly in a run that takes none from a longer cache, blocks no
retry, and ends no callback while the event is pending. -/
theorem accounted_iff (inputs : List Input) :
    (∀ js, js <+: inputs → (after bufs js).place = .idle → Accounted bufs js) ↔
      ∀ js, js <+: inputs → (after bufs js).place = .idle → Along step Keeps (init bufs) js := by
  refine forall_congr' fun js => imp_congr_right fun _ => imp_congr_right fun hidle => ?_
  constructor
  · intro h
    by_contra hnot
    have hlost := (account_after bufs js).2 hnot
    have hlen := h.conserved.length_eq
    rw [account_idle hidle, hlen, List.length_range] at hlost
    exact lt_irrefl _ hlost
  · intro h
    obtain ⟨hperm, hbound⟩ := account_along bufs h
    rw [account_idle hidle] at hperm
    exact ⟨hperm, hbound⟩

end Runs

/-- A packet that is blocked, and blocked again at each of two retries. -/
def retried : List Input :=
  [.send 0 0, .write .wantWrite, .ready, .write .wantWrite, .ready, .write .wantWrite]

/-- **Each blocked retry** leaves an operation that is neither queued nor free. -/
theorem retried_not_accounted :
    ¬ ∀ (bufs : ℕ → Buff) (inputs js : List Input), js <+: inputs →
      (after bufs js).place = .idle → Accounted bufs js := by
  intro h
  have hidle : (after (fun _ => ⟨1, 0, [0]⟩) retried).place = .idle := by decide +kernel
  have hcells : (after (fun _ => ⟨1, 0, [0]⟩) retried).cells = 3 := by decide +kernel
  have hqueued : ((after (fun _ => ⟨1, 0, [0]⟩) retried).send.map Operation.cell ++
      (after (fun _ => ⟨1, 0, [0]⟩) retried).cache).length = 1 := by decide +kernel
  have hconserved := (h _ retried retried (List.prefix_refl _) hidle).conserved.length_eq
  rw [hqueued, hcells] at hconserved
  exact absurd hconserved (by decide)

end SstpClient.Operations
