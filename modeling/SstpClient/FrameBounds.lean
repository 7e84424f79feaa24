import SstpClient.MppeKeys
import SstpClient.PppMem

/-!
Which frames the PPP handlers take without leaving their memory.

Every read is inside the frame, and every local array is long enough but one: an MPPE packet is
decrypted into `dec[PPP_MRU + 16]` without a look at its length.
-/

namespace SstpClient.FrameBounds

open SstpClient.Lib.Footprint SstpClient.Lib.Footprint.ReadProg SstpClient.Lib.Machine
open SstpClient.Lib.Bytes SstpClient.Lib.Ratchet SstpClient.Ppp SstpClient.PppSpec
open SstpClient.MppeKeys (somePrims)

/-! ### Parts that write nothing past an array -/

/-- The part sends frames and notifies, and nothing else. -/
def OnlySends (f : Act) : Prop :=
  ∀ ctx, ∀ o ∈ (f ctx).2, (∃ bytes, o = .frame bytes) ∨ ∃ e c, o = .notify e c

lemma onlySends_of_nil {f : Act} (h : ∀ ctx, (f ctx).2 = []) : OnlySends f := by
  intro ctx o ho
  rw [h ctx] at ho
  cases ho

lemma onlySends_notify (e : PppdEvent) : OnlySends (notify e) := by
  intro ctx o ho
  exact .inr ⟨e, ctx, List.mem_singleton.mp ho⟩

lemma onlySends_pppSendFrame {f : Act}
    (h : ∀ ctx, ∃ proto payload, (f ctx).2 = (pppSendFrame proto payload).2) : OnlySends f := by
  intro ctx o ho
  obtain ⟨proto, payload, heq⟩ := h ctx
  rw [heq] at ho
  unfold pppSendFrame at ho
  split_ifs at ho
  · cases ho
  · exact .inl ⟨_, List.mem_singleton.mp ho⟩

lemma composes_onlySends : Composes OnlySends where
  skip := onlySends_of_nil fun _ => rfl
  seq := by
    intro f g hf hg ctx o ho
    rcases List.mem_append.mp ho with ho | ho
    · exact hf ctx o ho
    · exact hg _ o ho
  ofForall := by
    intro f h ctx o ho
    obtain ⟨g, hg, heq⟩ := h ctx
    exact hg ctx o (heq ▸ ho)

lemma onlySends_update (h : Pppd → Pppd) : OnlySends (update h) := onlySends_of_nil fun _ => rfl

lemma onlySends_sendFrame (proto : ℕ) (payload : List UInt8) :
    OnlySends (sendFrame proto payload) :=
  onlySends_pppSendFrame fun _ => ⟨proto, payload, rfl⟩

lemma onlySends_ccpFinished : OnlySends ccpFinished :=
  composes_onlySends.ccpFinished (onlySends_update _) (onlySends_pppSendFrame fun _ => ⟨_, _, rfl⟩)
    (composes_onlySends.maybeNotifyUp (onlySends_update _) (onlySends_notify .up))

lemma onlySends_handleLcp (buf : List UInt8) : OnlySends (handleLcp buf) :=
  composes_onlySends.handleLcp (onlySends_sendFrame _) (onlySends_pppSendFrame fun _ => ⟨_, _, rfl⟩)
    (onlySends_update _) (onlySends_notify .down) buf

lemma onlySends_handleIpcp (buf : List UInt8) : OnlySends (handleIpcp buf) := by
  have hup : OnlySends maybeNotifyUp :=
    composes_onlySends.maybeNotifyUp (onlySends_update _) (onlySends_notify .up)
  have hbefore : OnlySends ipcpBeforeCcp := by
    refine composes_onlySends.ofForall fun ctx => ?_
    unfold ipcpBeforeCcp
    split_ifs
    · exact ⟨_, composes_onlySends.seq (onlySends_update _) onlySends_ccpFinished, rfl⟩
    · exact ⟨_, composes_onlySends.skip, rfl⟩
  have hswitch : OnlySends (ipcpSwitch buf) :=
    composes_onlySends.ipcpSwitch (onlySends_update _) (onlySends_update _) (onlySends_sendFrame _)
      (onlySends_pppSendFrame fun _ => ⟨_, _, rfl⟩)
      (composes_onlySends.ipcpAcked (onlySends_update _) hup)
  unfold handleIpcp
  split_ifs
  · exact composes_onlySends.skip
  · exact composes_onlySends.seq hbefore hswitch

section Handlers

variable (P : Prims)

lemma onlySends_handleCcp (buf : List UInt8) : OnlySends (handleCcp P buf) := by
  have hinit : OnlySends ((update (mppeInit P)).seq ccpFinished) :=
    composes_onlySends.seq (onlySends_update _) onlySends_ccpFinished
  unfold handleCcp
  split_ifs
  · exact composes_onlySends.skip
  · exact composes_onlySends.skip
  · exact composes_onlySends.seq (onlySends_sendFrame _ _) hinit
  · exact hinit
  · exact composes_onlySends.seq (onlySends_update _) onlySends_ccpFinished
  · exact composes_onlySends.skip

lemma onlySends_handleChap (peerChallenge buf : List UInt8) :
    OnlySends (handleChap P peerChallenge buf) := by
  have hauth : OnlySends (iosPppdAuth P) := by
    refine onlySends_of_nil fun ctx => ?_
    unfold iosPppdAuth
    cases P.mppeGet ctx.chap <;> rfl
  refine composes_onlySends.handleChap P (onlySends_update _)
    (onlySends_pppSendFrame fun _ => ⟨_, _, rfl⟩)
    (onlySends_notify .authFail) (composes_onlySends.ofForall fun ctx => ?_)
  exact ⟨_, composes_onlySends.seq (onlySends_update _)
    (composes_onlySends.seq (onlySends_sendFrame _ _) (composes_onlySends.seq (onlySends_notify .auth) hauth)), rfl⟩

lemma OnlySends.not_overrun {f : Act} (hf : OnlySends f) (ctx : Pppd) : .overrun ∉ (f ctx).2 := by
  intro ho
  rcases hf ctx _ ho with ⟨_, heq⟩ | ⟨_, _, heq⟩
  · cases heq
  · cases heq

/-! ### Where an array is too short -/

/-- The condition on a step: no MPPE packet that `dec` is too short for is decrypted. -/
def Fits (ctx : Pppd) : Input → Prop
  | .frame bytes _ => ctx.mppe.enabled = true → ∀ p, parseFrame bytes = some (protoMppe, p) →
      p.length ≤ 2 + (mru + 16)
  | .sendIp _ => True

lemma overrun_mppe {buf : List UInt8} {ctx : Pppd} (hd : ctx.mppe.recv.ccount < 4096) :
    .overrun ∈ (handleMppe P buf ctx).2 ↔
      ctx.mppe.enabled = true ∧ ¬ buf.length ≤ 2 + (mru + 16) := by
  unfold handleMppe
  by_cases hskip : buf.length < 3 ∨ ¬ ctx.mppe.enabled
  · rw [if_pos hskip]
    refine iff_of_false (by simp) fun ⟨henabled, hlen⟩ => ?_
    rcases hskip with hlt | hoff
    · omega
    · exact hoff henabled
  rw [if_neg hskip, catchUp_eq P (ccountOf_lt buf) hd]
  obtain ⟨-, henabled⟩ := not_or.mp hskip
  dsimp only
  unfold mppeDecrypt
  split_ifs with hover
  · exact iff_of_true (by simp) ⟨not_not.mp henabled, by omega⟩
  · refine iff_of_false ?_ fun ⟨_, hlen⟩ => hlen (by omega)
    dsimp only
    split
    · split_ifs <;> simp
    · simp

/-- **An array is written past its end** exactly by an MPPE packet that is too long. -/
lemma overrun_iff (ctx : Pppd) (i : Input) (hd : ctx.mppe.recv.ccount < 4096) :
    .overrun ∈ (step P ctx i).2 ↔ ¬ Fits ctx i := by
  cases i with
  | frame bytes peerChallenge =>
    unfold step pppDispatch Fits
    dsimp only
    cases hp : parseFrame bytes with
    | none => simp
    | some r =>
      obtain ⟨proto, p⟩ := r
      have hother : ∀ {f : Act}, OnlySends f → proto ≠ protoMppe → (.overrun ∈ (f ctx).2 ↔
          ¬ (ctx.mppe.enabled = true → ∀ q, some (proto, p) = some (protoMppe, q) →
            q.length ≤ 2 + (mru + 16))) := by
        intro f hf hne
        refine iff_of_false (hf.not_overrun ctx) fun h => h fun _ q heq => ?_
        exact absurd (Prod.mk.inj (Option.some.inj heq)).1 hne
      dsimp only
      split_ifs with hlcp hchap hipcp hccp hmppe hip
      · exact hother (onlySends_handleLcp p) (by rw [hlcp]; decide)
      · exact hother (onlySends_handleChap P peerChallenge p) (by rw [hchap]; decide)
      · exact hother (onlySends_handleIpcp p) (by rw [hipcp]; decide)
      · exact hother (onlySends_handleCcp P p) (by rw [hccp]; decide)
      · subst hmppe
        rw [overrun_mppe P hd]
        simp
      · refine iff_of_false (by simp) fun h => h fun _ q heq => ?_
        exact absurd (Prod.mk.inj (Option.some.inj heq)).1 hmppe
      · exact hother composes_onlySends.skip hmppe
  | sendIp ip =>
    refine iff_of_false ?_ fun h => h trivial
    have hframe : ∀ proto payload, .overrun ∉ (pppSendFrame proto payload).2 := by
      intro proto payload
      unfold pppSendFrame
      split_ifs <;> simp
    unfold step sstpPppdSendIp pppSendIpPlainOrMppe
    dsimp only
    split_ifs
    · simp
    · exact hframe _ _
    · exact hframe _ _

/-! ### Whole runs -/

/-- What is seen of the endpoint with its memory. -/
inductive Event
  | out (o : Out)
  /-- A read outside the frame. -/
  | outside

/-- `sstp_pppd_send` and `sstp_pppd_send_ip` with the memory of the frame. -/
def memStep (ctx : Pppd) : Input → Pppd × List Event
  | .frame bytes peerChallenge =>
    match (PppMem.pppDispatch P peerChallenge bytes.length ctx).eval (listMem bytes) with
    | none => (ctx, [.outside])
    | some r => (r.1, r.2.map .out)
  | .sendIp ip => ((sstpPppdSendIp P ip ctx).2.1, (sstpPppdSendIp P ip ctx).2.2.map .out)

/-- No memory outside the frame is read, and none outside a local array is written. -/
structure InBounds (events : List Event) : Prop where
  reads : .outside ∉ events
  writes : .out .overrun ∉ events

lemma memStep_eq (ctx : Pppd) (i : Input) :
    memStep P ctx i = ((step P ctx i).1, (step P ctx i).2.map .out) := by
  cases i with
  | frame bytes peerChallenge =>
    unfold memStep
    dsimp only
    rw [PppMem.eval_pppDispatch]
    rfl
  | sendIp ip => rfl

/-- With its memory the endpoint does what it does in the model. -/
lemma run_memStep (ctx : Pppd) (inputs : List Input) :
    run (memStep P) ctx inputs =
      ((run (step P) ctx inputs).1, (run (step P) ctx inputs).2.map .out) := by
  induction inputs generalizing ctx with
  | nil => rfl
  | cons i is ih => rw [run_cons, run_cons, memStep_eq, ih, List.map_append]

lemma outside_not_mem (outs : List Out) : .outside ∉ outs.map Event.out := by simp

lemma overrun_mem {outs : List Out} : .out .overrun ∈ outs.map Event.out ↔ .overrun ∈ outs := by
  simp

/-- **The handlers stay inside the frame and their arrays** exactly in the runs in which no MPPE
packet is longer than its array. -/
theorem inBounds_iff_fits (magic : ℕ) (user password : List UInt8) (inputs : List Input) :
    InBounds (run (memStep P) (sstpPppdStart user password (sstpPppdCreate magic)).1 inputs).2 ↔
      Along (memStep P) Fits (sstpPppdStart user password (sstpPppdCreate magic)).1 inputs := by
  refine run_good_iff (fun ctx events => ctx.mppe.recv.ccount < 4096 ∧ InBounds events) InBounds
    (fun _ _ h => h.2) (fun events new h => ?_) (fun ctx events i h hfits => ?_)
    (fun ctx events i h hfits hgood => ?_) (h := [])
    ⟨by change 0 < 4096; decide, by simp, by simp⟩
  · exact ⟨fun hm => h.reads (List.mem_append_left _ hm),
      fun hm => h.writes (List.mem_append_left _ hm)⟩
  · obtain ⟨hcount, hreads, hwrites⟩ := h
    rw [memStep_eq]
    refine ⟨(step_ends P ctx i hcount).1, fun hm => ?_, fun hm => ?_⟩
    · rcases List.mem_append.mp hm with hm | hm
      · exact hreads hm
      · exact outside_not_mem _ hm
    · rcases List.mem_append.mp hm with hm | hm
      · exact hwrites hm
      · exact (overrun_iff P ctx i hcount).mp (overrun_mem.mp hm) hfits
  · rw [memStep_eq] at hgood
    have hover := (overrun_iff P ctx i h.1).mpr hfits
    exact hgood.writes (List.mem_append_right _ (overrun_mem.mpr hover))

end Handlers

/-! ### A packet that is too long -/

lemma not_fits_mppe {ctx : Pppd} (henabled : ctx.mppe.enabled = true) {p : List UInt8}
    (hlong : 2 + (mru + 16) < p.length) :
    ¬ Fits ctx (.frame ([0xff, 0x03] ++ toBe16 protoMppe ++ p) []) := fun hfits =>
  absurd (hfits henabled p (parseFrame_of_proto (by decide) (by decide) p)) (Nat.not_le.mpr hlong)

/-- A challenge and the acknowledgement of MPPE. -/
def negotiated : List Input :=
  [.frame ([0xff, 0x03, 0xc2, 0x23, 1, 1, 0, 21, 16] ++ List.replicate 16 0) (List.replicate 16 0),
    .frame [0xff, 0x03, 0x80, 0xfd, 2, 1, 0, 4] []]

/-- A frame with 1419 bytes of MPPE payload. -/
def oversized : Input := .frame ([0xff, 0x03] ++ toBe16 protoMppe ++ List.replicate 1419 0) []

/-- **One frame too long**: the end of it is written behind `dec`. -/
theorem oversized_not_inBounds :
    ¬ InBounds (run (memStep somePrims) (sstpPppdStart [] [] (sstpPppdCreate 0)).1
      (negotiated ++ [oversized])).2 := by
  intro h
  refine h.writes ?_
  obtain ⟨ctx, hctx⟩ : ∃ ctx, ctx =
      (run (step somePrims) (sstpPppdStart [] [] (sstpPppdCreate 0)).1 negotiated).1 := ⟨_, rfl⟩
  have henabled : ctx.mppe.enabled = true ∧ ctx.mppe.recv.ccount < 4096 := by
    rw [hctx]
    decide +kernel
  have hlong : ¬ Fits ctx oversized := by
    refine not_fits_mppe henabled.1 ?_
    rw [List.length_replicate]
    decide
  generalize oversized = i at hlong
  rw [run_memStep, run_append, run_cons, run_nil, List.append_nil, ← hctx]
  exact overrun_mem.mpr (List.mem_append_right _ ((overrun_iff _ _ _ henabled.2).mpr hlong))

end SstpClient.FrameBounds
