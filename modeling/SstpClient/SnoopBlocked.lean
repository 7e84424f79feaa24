import SstpClient.Snoop

/-!
Blocked sends do not change what `ppp_process_data` makes of the packets of pppd.

A send that blocks ends the loop, and `ppp_send_complete` takes it up where it stood. So the rounds
are those of a run in which no send blocks, and a run is one completion away from it.
-/

namespace SstpClient.Snoop

open SstpClient.Lib.Machine SstpClient.Buffer SstpClient.Packet SstpClient.Fcs
open SstpClient.Deframe (Buffs)

/-! ### One round -/

lemma decodeLoop_closed {length size : ℤ} {index i : ℕ} {bs frame f : List UInt8}
    (h : decodeLoop length size index bs frame = .closed i f) : index < i := by
  fun_induction decodeLoop length size index bs frame with
  | case1 | case2 | case3 | case4 | case5 | case6 | case9 | case10 => cases h
  | case7 | case11 =>
    have := (Loop.closed.inj h).1
    omega
  | case8 | case12 =>
    rename_i ih
    have := ih h
    omega

/-- A frame that is decoded or dropped takes a byte at least. -/
lemma decode_length_pos {buf : List UInt8} {length size : ℤ} {d : Decoded}
    (h : sstpFrameDecode buf length size = some d) (hd : d.status ≠ .overflow) : 0 < d.length := by
  unfold sstpFrameDecode at h
  split at h
  · cases h
  · split at h
    · cases h
    · cases h
      exact absurd rfl hd
    · next hloop =>
      cases h
      have := decodeLoop_closed hloop
      dsimp only
      omega

/-- Where the loop goes on, if it does. -/
def Round.next : Round → Option Buffs
  | .ends _ _ => none
  | .drops ctx => some ctx
  | .frame ctx => some ctx

section Rounds

variable {b b' c : Buffs} {a : Auth} {sends : List Status} {r : Round}

lemma round_left (h : round b = some r) (hc : r.next = some c) : left c < left b := by
  have hbehind : ∀ {d : Decoded} {data : List UInt8} {length size : ℤ}, b.rx.off < b.rx.len →
      sstpFrameDecode data length size = some d → d.status ≠ .overflow →
        ∀ tx, left ⟨{ b.rx with off := b.rx.off + d.length }, tx⟩ < left b := by
    intro d data length size hlt hdecode hstatus tx
    have hpos := decode_length_pos hdecode hstatus
    unfold left
    dsimp only
    omega
  unfold round at h
  dsimp only at h
  split_ifs at h with hlt hinit heq
  · cases h
    cases hc
  · obtain ⟨d, hdecode, h⟩ := Option.bind_eq_some_iff.mp h
    obtain ⟨tx, -, h⟩ := Option.bind_eq_some_iff.mp h
    split_ifs at h with hstatus hend
    · obtain ⟨rx, -, h⟩ := Option.bind_eq_some_iff.mp h
      cases h
      cases hc
    · cases h
      cases hc
      exact hbehind hlt hdecode (fun hover => hend (.inl hover)) _
    · obtain ⟨tx', -, h⟩ := Option.bind_eq_some_iff.mp h
      cases h
      cases hc
      have hokay : d.status = .okay := not_not.mp hstatus
      exact hbehind hlt hdecode (by simp [hokay]) _
  · cases h
    cases hc
  · cases h
    cases hc

/-- Enough fuel is as good as more. -/
lemma loop_fuel {n m : ℕ} (hn : left b < n) (hm : left b < m) :
    processLoop n b a sends = processLoop m b a sends := by
  induction n generalizing m b a sends with
  | zero => exact absurd hn (Nat.not_lt_zero _)
  | succ n ih =>
    obtain ⟨m, rfl⟩ : ∃ k, m = k + 1 := ⟨m - 1, by omega⟩
    unfold processLoop
    cases hround : round b with
    | none => rfl
    | some r =>
      have hnext : ∀ c a' sends', r.next = some c →
          processLoop n c a' sends' = processLoop m c a' sends' := by
        intro c a' sends' hc
        have hlt := round_left hround hc
        exact ih (by omega) (by omega)
      cases r with
      | ends status c => rfl
      | drops c => exact hnext c a sends rfl
      | frame c =>
        dsimp only
        cases observe a (c.tx.data.drop 4) with
        | none => rfl
        | some o =>
          dsimp only
          rw [hnext c o.1 sends.tail rfl]

end Rounds

/-! ### Blocked sends -/

/-- They differ at most in how much of the transmit buffer is in use. -/
structure Same (b b' : Buffs) : Prop where
  rx : b.rx = b'.rx
  data : b.tx.data = b'.tx.data

structure Result.Same (r r' : Result) : Prop where
  status : r.status = r'.status
  buffs : Snoop.Same r.buffs r'.buffs
  auth : r.auth = r'.auth
  outs : r.outs = r'.outs

structure Alike (s p : Pppd) : Prop where
  same : Same s.toBuffs p.toBuffs
  auth : s.auth = p.auth
  first : s.first = p.first
  wait : s.wait = p.wait

section Blocked

variable {b b' : Buffs} {a : Auth} {sends : List Status}

lemma Same.refl (b : Buffs) : Same b b := ⟨rfl, rfl⟩

lemma Result.Same.refl (r : Result) : r.Same r := ⟨rfl, .refl _, rfl, rfl⟩

lemma Alike.refl (s : Pppd) : Alike s s := ⟨.refl _, rfl, rfl, rfl⟩

lemma Alike.trans {s t p : Pppd} (h : Alike s t) (h' : Alike t p) : Alike s p :=
  ⟨⟨h.same.rx.trans h'.same.rx, h.same.data.trans h'.same.data⟩, h.auth.trans h'.auth,
    h.first.trans h'.first, h.wait.trans h'.wait⟩

lemma Result.Same.behind {r r' : Result} (h : r.Same r') (front : List Out) :
    (r.behind front).Same (r'.behind front) :=
  ⟨h.status, h.buffs, h.auth, congrArg (front ++ ·) h.outs⟩

/-- A round begins with an empty transmit buffer. -/
lemma round_same (h : Same b b') : round b = round b' ∨ ∃ c c', round b = some (.ends .okay c) ∧
    round b' = some (.ends .okay c') ∧ Same c c' := by
  have hinit : sstpPktInit b.tx .data = sstpPktInit b'.tx .data := by
    unfold sstpPktInit sstpBuffReset
    rw [h.data]
  unfold round
  rw [h.rx, hinit]
  by_cases hlt : b'.rx.off < b'.rx.len
  · left
    simp only [if_pos hlt]
  · right
    simp only [if_neg hlt]
    by_cases heq : b'.rx.off = b'.rx.len
    · simp only [if_pos heq]
      exact ⟨_, _, rfl, rfl, rfl, h.data⟩
    · simp only [if_neg heq]
      exact ⟨_, _, rfl, rfl, h.rx, h.data⟩

lemma loop_same (h : Same b b') (n : ℕ) :
    (processLoop n b a sends).Same (processLoop n b' a sends) := by
  cases n with
  | zero => exact ⟨rfl, h, rfl, rfl⟩
  | succ n =>
    unfold processLoop
    rcases round_same h with heq | ⟨c, c', hc, hc', hsame⟩
    · rw [heq]
      cases round b' with
      | none => exact ⟨rfl, h, rfl, rfl⟩
      | some r =>
        cases r with
        | ends status c => exact .refl _
        | drops c => exact .refl _
        | frame c =>
          dsimp only
          exact .refl _
    · rw [hc, hc']
      exact ⟨rfl, hsame, rfl, rfl⟩

lemma behind_behind (r : Result) (front outs : List Out) :
    (r.behind outs).behind front = r.behind (front ++ outs) := by
  unfold Result.behind
  rw [List.append_assoc]

lemma loop_pppProcessData {n : ℕ} (h : left b < n) :
    (processLoop n b a sends).Same (pppProcessData b a sends) := by
  have hreset : Same b ⟨b.rx, sstpBuffReset b.tx⟩ := ⟨rfl, rfl⟩
  unfold pppProcessData
  rw [loop_fuel h (Nat.lt_succ_self _)]
  exact loop_same hreset _

lemma round_ends {status : Status} {c : Buffs} (h : round b = some (.ends status c)) :
    status ≠ .inprog := by
  unfold round at h
  dsimp only at h
  split_ifs at h with hlt hinit heq
  · cases h
    decide
  · obtain ⟨d, -, h⟩ := Option.bind_eq_some_iff.mp h
    obtain ⟨tx, -, h⟩ := Option.bind_eq_some_iff.mp h
    split_ifs at h with hstatus hend
    · obtain ⟨rx, -, h⟩ := Option.bind_eq_some_iff.mp h
      cases h
      decide
    · cases h
    · obtain ⟨tx', -, h⟩ := Option.bind_eq_some_iff.mp h
      cases h
  · cases h
    decide
  · cases h
    decide

/-- What is left to do is done when the loop goes on. -/
lemma loop_split (n : ℕ) (b : Buffs) (a : Auth) (sends : List Status) (hb : left b < n) :
    ((processLoop n b a sends).status ≠ .inprog ∧
        processLoop n b a sends = processLoop n b a []) ∨
      ((processLoop n b a sends).status = .inprog ∧
        (processLoop n b a []).Same
          ((pppProcessData (processLoop n b a sends).buffs (processLoop n b a sends).auth []).behind
            (processLoop n b a sends).outs)) := by
  -- a round ends the loop, or leaves a shorter rest to it
  induction n generalizing b a sends with
  | zero => exact absurd hb (Nat.not_lt_zero _)
  | succ n ih =>
    unfold processLoop
    cases hround : round b with
    | none => exact .inl ⟨by simp, rfl⟩
    | some r =>
      cases r with
      | ends status c => exact .inl ⟨round_ends hround, rfl⟩
      | drops c =>
        have hlt := round_left hround rfl
        exact ih c a sends (by omega)
      | frame c =>
        have hlt := round_left hround rfl
        dsimp only
        cases observe a (c.tx.data.drop 4) with
        | none => exact .inl ⟨by simp, rfl⟩
        | some o =>
          dsimp only
          by_cases hdie : .die ∈ o.2
          · simp only [if_pos hdie]
            exact .inl ⟨by simp, trivial⟩
          · simp only [if_neg hdie, List.headD_nil, ne_eq, not_true_eq_false, if_false,
              List.tail_nil]
            by_cases hsend : sends.headD .okay = .okay
            · simp only [hsend, not_true_eq_false, if_false]
              rcases ih c o.1 sends.tail (by omega) with ⟨hstatus, heq⟩ | ⟨hstatus, hsame⟩
              · exact .inl ⟨hstatus, congrArg _ heq⟩
              · refine .inr ⟨hstatus, ?_⟩
                have hbehind := hsame.behind (o.2 ++ [Out.send (packetOf c)])
                rwa [behind_behind] at hbehind
            · simp only [hsend, not_false_eq_true, if_true]
              exact .inr ⟨trivial, (loop_pppProcessData (by omega)).behind _⟩

lemma step_blocked {s : Pppd} (h : s.wait = .send) :
    step s (.complete sends) = pppSendComplete s sends := if_pos h

lemma step_settled {s : Pppd} (h : s.wait ≠ .send) : step s (.complete sends) = (s, []) := if_neg h

lemma waitOf_eq_send (status : Status) : waitOf status = .send ↔ status = .inprog := by
  cases status <;> decide

/-- The call of `ppp_process_data` that goes on does what is left of the one that blocked. -/
lemma settle_complete (ctx : Pppd) (b : Buffs) (a : Auth) (sends : List Status) :
    (pppProcessData b a []).outs = (pppProcessData b a sends).outs ++
        (step (settle ctx (pppProcessData b a sends)) (.complete [])).2 ∧
      Alike (step (settle ctx (pppProcessData b a sends)) (.complete [])).1
        (settle ctx (pppProcessData b a [])) := by
  have hleft : left ⟨b.rx, sstpBuffReset b.tx⟩ < left b + 1 := Nat.lt_succ_self _
  unfold pppProcessData
  rcases loop_split _ _ a sends hleft with ⟨hstatus, heq⟩ | ⟨hstatus, hsame⟩
  · rw [heq] at hstatus ⊢
    rw [step_settled (mt (waitOf_eq_send _).mp hstatus), List.append_nil]
    exact ⟨rfl, .refl _⟩
  · rw [step_blocked ((waitOf_eq_send _).mpr hstatus)]
    exact ⟨hsame.outs, ⟨⟨hsame.buffs.rx.symm, hsame.buffs.data.symm⟩, hsame.auth.symm, rfl,
      congrArg waitOf hsame.status.symm⟩⟩

lemma recv_complete (s : Pppd) (chunk : List UInt8) (sends : List Status) :
    (sstpPppdRecv s chunk []).2 = (sstpPppdRecv s chunk sends).2 ++
        (step (sstpPppdRecv s chunk sends).1 (.complete [])).2 ∧
      Alike (step (sstpPppdRecv s chunk sends).1 (.complete [])).1 (sstpPppdRecv s chunk []).1 := by
  unfold sstpPppdRecv
  dsimp only
  cases s.rx.write s.rx.len chunk with
  | none =>
    rw [step_settled Wait.noConfusion, List.append_nil]
    exact ⟨rfl, .refl _⟩
  | some rx =>
    generalize (if s.first then [Out.start] else []) = notified
    dsimp only
    by_cases hlen : rx.len + chunk.length ≤ 0
    · simp only [if_pos hlen]
      rw [step_settled Wait.noConfusion, List.append_nil]
      exact ⟨rfl, .refl _⟩
    · simp only [if_neg hlen]
      obtain ⟨houts, halike⟩ := settle_complete _ _ s.auth sends
      rw [houts, List.append_assoc]
      exact ⟨rfl, halike⟩

/-- Contexts that are alike go on alike. -/
lemma alike_recv {s p : Pppd} (h : Alike s p) (chunk : List UInt8) (sends : List Status) :
    (sstpPppdRecv s chunk sends).2 = (sstpPppdRecv p chunk sends).2 ∧
      Alike (sstpPppdRecv s chunk sends).1 (sstpPppdRecv p chunk sends).1 := by
  obtain ⟨⟨rx, tx⟩, a, first, wait⟩ := s
  obtain ⟨⟨rx', tx'⟩, a', first', wait'⟩ := p
  obtain ⟨⟨hrx, htx⟩, ha, hfirst, -⟩ := h
  dsimp only at hrx htx ha hfirst
  subst hrx ha hfirst
  have hreset : sstpBuffReset tx = sstpBuffReset tx' := by
    unfold sstpBuffReset
    rw [htx]
  unfold sstpPppdRecv
  dsimp only
  cases rx.write rx.len chunk with
  | none => exact ⟨rfl, ⟨rfl, htx⟩, rfl, rfl, rfl⟩
  | some rx =>
    generalize (if first then [Out.start] else []) = notified
    dsimp only
    by_cases hlen : rx.len + chunk.length ≤ 0
    · simp only [if_pos hlen]
      exact ⟨trivial, ⟨rfl, htx⟩, rfl, rfl, rfl⟩
    · simp only [if_neg hlen, pppProcessData, left, hreset]
      exact ⟨trivial, .refl _⟩

end Blocked

/-- Reads, no send blocked. -/
def plainly (chunks : List (List UInt8)) : List Input := chunks.map fun chunk => .readable chunk []

/-- **A step** of a context that is one completion away from another. -/
lemma step_plainly {s p : Pppd} (h : Alike (step s (.complete [])).1 p) (i : Input) :
    (step s (.complete [])).2 ++ (run step p (plainly (reads s [i]))).2 =
        (step s i).2 ++ (step (step s i).1 (.complete [])).2 ∧
      Alike (step (step s i).1 (.complete [])).1 (run step p (plainly (reads s [i]))).1 := by
  cases i with
  | readable chunk sends =>
    by_cases hwait : s.wait = .read
    · rw [step_settled (by simp [hwait])] at h ⊢
      have hp : p.wait = .read := h.wait ▸ hwait
      have hreads : plainly (reads s [.readable chunk sends]) = [.readable chunk []] := by
        simp [plainly, reads, hwait]
      have hrun : run step p [.readable chunk []] =
          ((sstpPppdRecv p chunk []).1, (sstpPppdRecv p chunk []).2) := by
        simp [run_cons, step, hp]
      have hstep : step s (.readable chunk sends) = sstpPppdRecv s chunk sends := if_pos hwait
      obtain ⟨houts, halike⟩ := alike_recv h chunk []
      obtain ⟨hrest, hlater⟩ := recv_complete s chunk sends
      rw [hreads, hrun, hstep, List.nil_append, ← houts]
      exact ⟨hrest, hlater.trans halike⟩
    · have hstep : step s (.readable chunk sends) = (s, []) := by simp [step, hwait]
      have hreads : plainly (reads s [.readable chunk sends]) = [] := by
        simp [plainly, reads, hwait]
      rw [hstep, hreads, run_nil, List.append_nil, List.nil_append]
      exact ⟨rfl, h⟩
  | complete sends =>
    have hreads : plainly (reads s [.complete sends]) = [] := rfl
    rw [hreads, run_nil, List.append_nil]
    by_cases hwait : s.wait = .send
    · obtain ⟨houts, halike⟩ := settle_complete s s.toBuffs s.auth sends
      rw [step_blocked hwait] at h ⊢
      rw [step_blocked hwait]
      exact ⟨houts, halike.trans h⟩
    · rw [step_settled hwait] at h ⊢
      rw [step_settled hwait, step_settled hwait]
      exact ⟨rfl, h⟩

lemma reads_cons (s : Pppd) (i : Input) (is : List Input) :
    plainly (reads s (i :: is)) = plainly (reads s [i]) ++ plainly (reads (step s i).1 is) := by
  cases i with
  | readable chunk sends =>
    by_cases hwait : s.wait = .read
    · simp [plainly, reads, hwait]
    · simp [plainly, reads, hwait]
  | complete sends => rfl

lemma run_plainly_of {s p : Pppd} (h : Alike (step s (.complete [])).1 p) (inputs : List Input) :
    (step s (.complete [])).2 ++ (run step p (plainly (reads s inputs))).2 =
        (run step s inputs).2 ++ (step (run step s inputs).1 (.complete [])).2 ∧
      Alike (step (run step s inputs).1 (.complete [])).1
        (run step p (plainly (reads s inputs))).1 := by
  induction inputs generalizing s p with
  | nil =>
    rw [show plainly (reads s []) = [] from rfl, run_nil, run_nil, List.append_nil]
    exact ⟨rfl, h⟩
  | cons i is ih =>
    obtain ⟨houts, halike⟩ := step_plainly h i
    obtain ⟨hrest, hlast⟩ := ih halike
    rw [reads_cons, run_append, run_cons]
    refine ⟨?_, hlast⟩
    rw [← List.append_assoc, houts, List.append_assoc, hrest, List.append_assoc]

/-- **Blocked sends do no harm**: the packets and notifications are those of the run in which no send
blocks, as far as it has come, and what is missing comes with the next completion. -/
theorem run_plainly (password : Bool) (inputs : List Input) :
    (run step (started password) (plainly (reads (started password) inputs))).2 =
        (run step (started password) inputs).2 ++
          (step (run step (started password) inputs).1 (.complete [])).2 ∧
      Alike (step (run step (started password) inputs).1 (.complete [])).1
        (run step (started password) (plainly (reads (started password) inputs))).1 := by
  have hstart : step (started password) (.complete []) = (started password, []) :=
    step_settled Wait.noConfusion
  have hrun := run_plainly_of (s := started password) (by rw [hstart]; exact .refl _) inputs
  rwa [hstart, List.nil_append] at hrun

end SstpClient.Snoop
