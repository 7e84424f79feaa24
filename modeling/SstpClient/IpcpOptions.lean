import SstpClient.Lib.Tlv
import SstpClient.PppMem

/-!
The options of IPCP, `handle_ipcp`.

Three loops walk over the options of a packet. Each ends, reads nothing behind the length it goes
by, and leaves the addresses at the last values of the longest list of options that is there.
-/

namespace SstpClient.IpcpOptions

open SstpClient.Lib.Bytes SstpClient.Lib.Footprint SstpClient.Lib.Tlv SstpClient.Ppp
open SstpClient.PppMem (assignPeerIp assignLocalIp)

/-! ### What is promised -/

structure Addresses where
  peerIp : ℕ
  localIp : ℕ
  dns1 : ℕ
  dns2 : ℕ
  deriving DecidableEq

def addresses (ctx : Pppd) : Addresses := ⟨ctx.peerIp, ctx.localIp, ctx.dns1, ctx.dns2⟩

/-- The address in an option. -/
def value (data : List UInt8) : ℕ :=
  be32 (data.getD 0 0) (data.getD 1 0) (data.getD 2 0) (data.getD 3 0)

/-- The address in an option of the type and of six bytes. -/
def valueAt (type : UInt8) (o : Opt) : Option ℕ :=
  if o.type = type ∧ o.data.length = 4 then some (value o.data) else none

def lastValue (type : UInt8) (os : List Opt) : Option ℕ := (os.filterMap (valueAt type)).getLast?

/-- The addresses after a packet with the code and the options. -/
def addressesAfter (code : UInt8) (os : List Opt) (a : Addresses) : Addresses :=
  if code = fsmConfReq then { a with peerIp := (lastValue ciAddr os).getD a.peerIp }
  else { a with
    localIp := (lastValue ciAddr os).getD a.localIp
    dns1 := (lastValue ciMsDns1 os).getD a.dns1
    dns2 := (lastValue ciMsDns2 os).getD a.dns2 }

/-! ### The loops -/

/-- One turn of a loop of `handle_ipcp`; `none` where it is left. -/
def optRound (set : UInt8 → ℕ → Pppd → Pppd) (buf : List UInt8) (s : ℕ × Pppd) :
    Option (ℕ × Pppd) :=
  if s.1 + 2 ≤ buf.length then
    let olen := (buf.getD (s.1 + 1) 0).toNat
    if olen < 2 ∨ buf.length < s.1 + olen then none
    else
      let value := be32 (buf.getD (s.1 + 2) 0) (buf.getD (s.1 + 3) 0) (buf.getD (s.1 + 4) 0)
        (buf.getD (s.1 + 5) 0)
      some (s.1 + olen, if olen = 6 then set (buf.getD s.1 0) value s.2 else s.2)
  else none

/-- **The loop ends**, with this context. -/
inductive Ends (round : ℕ × Pppd → Option (ℕ × Pppd)) : ℕ × Pppd → Pppd → Prop
  | left {s} (h : round s = none) : Ends round s s.2
  | again {s s' ctx} (h : round s = some s') (hrest : Ends round s' ctx) : Ends round s ctx

/-- What an option does to the context. -/
def give (set : UInt8 → ℕ → Pppd → Pppd) (ctx : Pppd) (o : Opt) : Pppd :=
  if o.data.length = 4 then set o.type (value o.data) ctx else ctx

section Loop

variable (set : UInt8 → ℕ → Pppd → Pppd) {buf : List UInt8} {pos : ℕ} (ctx : Pppd)

lemma ipcpOptions_succ (fuel : ℕ) : ipcpOptions set buf (fuel + 1) pos ctx =
    match optRound set buf (pos, ctx) with
    | none => ctx
    | some s => ipcpOptions set buf fuel s.1 s.2 := by
  unfold optRound
  rw [ipcpOptions]
  dsimp only
  split_ifs <;> rfl

/-- **An option that is there** is taken. -/
lemma optRound_some {o : Opt} {t : List UInt8} (h : buf.drop pos = o.bytes ++ t) :
    optRound set buf (pos, ctx) = some (pos + (o.data.length + 2), give set ctx o) := by
  have hlen : buf.length = pos + (o.data.length + 2) + t.length := by
    have hdrop := congrArg List.length h
    rw [List.length_drop, List.length_append, Opt.length_bytes] at hdrop
    omega
  have hget : ∀ k, buf.getD (pos + k) 0 = (o.bytes ++ t).getD k 0 := by
    intro k
    rw [List.getD_eq_getElem?_getD, ← List.getElem?_drop, h, ← List.getD_eq_getElem?_getD]
  have htype : buf.getD pos 0 = o.type := hget 0
  have holen : (buf.getD (pos + 1) 0).toNat = o.data.length + 2 := by
    rw [hget 1]
    exact toNat_olen o
  unfold optRound give
  dsimp only
  rw [if_pos (by omega), holen, if_neg (by omega), htype]
  by_cases hfour : o.data.length = 4
  · have hdata : ∀ k, k < 4 → buf.getD (pos + (k + 2)) 0 = o.data.getD k 0 := by
      intro k hk
      rw [hget, List.getD_eq_getElem?_getD, List.getD_eq_getElem?_getD]
      change ((o.data ++ t)[k]?).getD 0 = _
      rw [List.getElem?_append_left (by omega)]
    rw [if_pos (by omega), if_pos hfour, hdata 0 (by omega), hdata 1 (by omega), hdata 2 (by omega),
      hdata 3 (by omega)]
    rfl
  · rw [if_neg (by omega), if_neg hfour]

/-- **Where no option is complete** the loop is left. -/
lemma optRound_none (h : first (buf.drop pos) = none) : optRound set buf (pos, ctx) = none := by
  unfold optRound
  dsimp only
  split_ifs with htwo hbad
  · rfl
  · have hsplit : buf.drop pos = buf.getD pos 0 :: buf.getD (pos + 1) 0 :: buf.drop (pos + 2) := by
      rw [List.drop_eq_getElem_cons (by omega), List.drop_eq_getElem_cons (by omega),
        List.getD_eq_getElem _ _ (by omega), List.getD_eq_getElem _ _ (by omega)]
    rw [hsplit, first, dif_pos ⟨by omega, by rw [List.length_drop]; omega⟩] at h
    cases h
  · rfl

/-- **A loop** ends, and gives the context each option of the longest list. -/
theorem walk {fuel : ℕ} (h : buf.length ≤ pos + fuel) : ∃ os, Longest os (buf.drop pos) ∧
    ipcpOptions set buf fuel pos ctx = os.foldl (give set) ctx ∧
    Ends (optRound set buf) (pos, ctx) (ipcpOptions set buf fuel pos ctx) := by
  induction fuel generalizing pos ctx with
  | zero =>
    have hnone : first (buf.drop pos) = none := by
      rw [List.drop_eq_nil_of_le (i := pos) h]
      rfl
    exact ⟨[], longest_nil hnone, rfl, .left (optRound_none set ctx hnone)⟩
  | succ fuel ih =>
    rw [ipcpOptions_succ]
    cases hfirst : first (buf.drop pos) with
    | none =>
      have hround := optRound_none set ctx hfirst
      rw [hround]
      exact ⟨[], longest_nil hfirst, rfl, .left hround⟩
    | some ot =>
      obtain ⟨o, t⟩ := ot
      have hsplit := first_eq_some hfirst
      have hround := optRound_some set ctx hsplit
      have hrest : buf.drop (pos + (o.data.length + 2)) = t := by
        rw [← List.drop_drop, hsplit]
        exact List.drop_left' o.length_bytes
      rw [hround]
      have hle : buf.length ≤ pos + (o.data.length + 2) + fuel := by omega
      obtain ⟨os, hlongest, hfold, hends⟩ := ih (give set ctx o) hle
      rw [hrest] at hlongest
      exact ⟨o :: os, hsplit ▸ hlongest.cons o, hfold, .again hround hends⟩

end Loop

/-! ### The addresses -/

/-- What the loop for the code sets. -/
def setOf (code : UInt8) : UInt8 → ℕ → Pppd → Pppd :=
  if code = fsmConfReq then setPeerIp else setLocalIp

def assignOf (code : UInt8) : UInt8 → Option (ℕ → Pppd → Pppd) :=
  if code = fsmConfReq then assignPeerIp else assignLocalIp

lemma lastValue_cons (type : UInt8) (o : Opt) (os : List Opt) (v : ℕ) :
    (lastValue type (o :: os)).getD v = (lastValue type os).getD ((valueAt type o).getD v) := by
  unfold lastValue
  rw [← foldl_getD, ← foldl_getD, List.foldl_cons]

lemma addressesAfter_nil (code : UInt8) (a : Addresses) : addressesAfter code [] a = a := by
  unfold addressesAfter
  split_ifs <;> rfl

lemma addressesAfter_cons (code : UInt8) (o : Opt) (os : List Opt) (a : Addresses) :
    addressesAfter code (o :: os) a = addressesAfter code os (addressesAfter code [o] a) := by
  unfold addressesAfter
  split_ifs
  · simp only [lastValue_cons]
    rfl
  · simp only [lastValue_cons]
    rfl

lemma addresses_setPeerIp (type : UInt8) (v : ℕ) (ctx : Pppd) : addresses (setPeerIp type v ctx) =
    { addresses ctx with peerIp := if type = ciAddr then v else ctx.peerIp } := by
  unfold setPeerIp
  split_ifs <;> rfl

/-- An option is of one type at most. -/
lemma addresses_setLocalIp (type : UInt8) (v : ℕ) (ctx : Pppd) :
    addresses (setLocalIp type v ctx) = { addresses ctx with
      localIp := if type = ciAddr then v else ctx.localIp
      dns1 := if type = ciMsDns1 then v else ctx.dns1
      dns2 := if type = ciMsDns2 then v else ctx.dns2 } := by
  by_cases haddr : type = ciAddr
  · subst haddr
    rfl
  · by_cases hdns1 : type = ciMsDns1
    · subst hdns1
      rfl
    · by_cases hdns2 : type = ciMsDns2
      · subst hdns2
        rfl
      · unfold setLocalIp
        rw [if_neg haddr, if_neg hdns1, if_neg hdns2, if_neg haddr, if_neg hdns1, if_neg hdns2]
        rfl

/-- One option. -/
lemma addresses_give (code : UInt8) (o : Opt) (ctx : Pppd) :
    addresses (give (setOf code) ctx o) = addressesAfter code [o] (addresses ctx) := by
  have hone : ∀ type v, (lastValue type [o]).getD v = (valueAt type o).getD v := fun type v => by
    rw [lastValue_cons]
    rfl
  unfold addressesAfter setOf give
  simp only [hone, valueAt]
  by_cases hfour : o.data.length = 4
  · have hvalue : ∀ type v, (if o.type = type ∧ o.data.length = 4 then some (value o.data)
        else none).getD v = if o.type = type then value o.data else v := by
      intro type v
      simp only [hfour, and_true]
      split_ifs <;> rfl
    simp only [if_pos hfour, hvalue]
    by_cases hcode : code = fsmConfReq
    · rw [if_pos hcode, if_pos hcode]
      exact addresses_setPeerIp _ _ _
    · rw [if_neg hcode, if_neg hcode]
      exact addresses_setLocalIp _ _ _
  · have hnone : ∀ type, (if o.type = type ∧ o.data.length = 4 then some (value o.data)
        else none) = none := fun type => if_neg fun h => hfour h.2
    simp only [if_neg hfour, hnone]
    split_ifs <;> rfl

/-- **The last values** of a list of options. -/
lemma addresses_foldl (code : UInt8) (os : List Opt) (ctx : Pppd) :
    addresses (os.foldl (give (setOf code)) ctx) = addressesAfter code os (addresses ctx) := by
  induction os generalizing ctx with
  | nil => exact (addressesAfter_nil code _).symm
  | cons o os ih => rw [List.foldl_cons, ih, addresses_give, ← addressesAfter_cons]

/-! ### The handler -/

lemma addresses_notifyUp (ctx : Pppd) : addresses (maybeNotifyUp ctx).1 = addresses ctx := by
  unfold maybeNotifyUp
  split_ifs <;> rfl

lemma addresses_ccpFinished (ctx : Pppd) : addresses (ccpFinished ctx).1 = addresses ctx := by
  unfold ccpFinished
  split_ifs
  · exact addresses_notifyUp ctx
  · exact (addresses_notifyUp _).trans rfl
  · exact (addresses_notifyUp _).trans rfl

lemma addresses_beforeCcp (ctx : Pppd) : addresses (ipcpBeforeCcp ctx).1 = addresses ctx := by
  unfold ipcpBeforeCcp
  split_ifs
  · exact addresses_ccpFinished _
  · rfl

lemma addresses_acked (ctx : Pppd) : addresses (ipcpAcked ctx).1 = addresses ctx := by
  unfold ipcpAcked
  split_ifs
  · exact (addresses_notifyUp _).trans rfl
  · rfl

/-- A packet with options. -/
def HasOptions (code : UInt8) : Prop := code = fsmConfReq ∨ code = fsmConfAck ∨ code = fsmConfNak

/-- **Behind its loop** the handler leaves the addresses alone. -/
lemma addresses_handleIpcp {buf : List UInt8} (h4 : 4 ≤ buf.length)
    (hcode : HasOptions (buf.getD 0 0)) (ctx : Pppd) :
    addresses (handleIpcp buf ctx).1 =
      addresses (readOptions (setOf (buf.getD 0 0)) buf (ipcpBeforeCcp ctx).1) := by
  unfold handleIpcp setOf
  rw [if_neg (not_lt.mpr h4)]
  change addresses (ipcpSwitch buf (ipcpBeforeCcp ctx).1).1 = _
  unfold ipcpSwitch
  by_cases hreq : buf.getD 0 0 = fsmConfReq
  · rw [if_pos hreq, if_pos hreq]
    split_ifs <;> rfl
  · rw [if_neg hreq, if_neg hreq]
    by_cases hack : buf.getD 0 0 = fsmConfAck
    · rw [if_pos hack]
      exact addresses_acked _
    · rw [if_neg hack, if_pos ((hcode.resolve_left hreq).resolve_left hack)]
      rfl

/-- The length a handler goes by. -/
def plenOf (buf : List UInt8) : ℕ := min (be16 (buf.getD 2 0) (buf.getD 3 0)) buf.length

/-- **A loop reads nothing behind the length it goes by.** -/
lemma reads_options (code : UInt8) (buf : List UInt8) (ctx : Pppd) :
    ∀ q ∈ (PppMem.ipcpOptions (assignOf code) 0 (plenOf buf) (plenOf buf) 4 ctx).reads (listMem buf),
      0 ≤ q ∧ q < plenOf buf := by
  have hlen : (body buf).length = plenOf buf := List.length_take
  have hset : PppMem.Assigns (assignOf code) (setOf code) := by
    unfold assignOf setOf
    split_ifs
    · exact PppMem.assigns_peerIp
    · exact PppMem.assigns_localIp
  have heval := PppMem.eval_ipcpOptions ctx hset (PppMem.holds_zero (body buf)) (plenOf buf) 4
  rw [hlen] at heval
  have hinside : ∀ q ∈ (PppMem.ipcpOptions (assignOf code) 0 (plenOf buf) (plenOf buf) 4 ctx).reads
      (listMem (body buf)), 0 ≤ q ∧ q < plenOf buf := by
    intro q hq
    have hsome := (ReadProg.eval_isSome_iff _).mp (Option.isSome_of_eq_some heval) q hq
    rw [← hlen]
    exact listMem_isSome.mp hsome
  -- what lies behind the body is never looked at
  have hagree : ∀ q ∈ (PppMem.ipcpOptions (assignOf code) 0 (plenOf buf) (plenOf buf) 4 ctx).reads
      (listMem (body buf)), listMem buf q = listMem (body buf) q := by
    intro q hq
    obtain ⟨tail, htail⟩ := PppMem.body_front buf
    nth_rewrite 1 [← htail]
    exact listMem_append (by rw [hlen]; exact (hinside q hq).2)
  rw [(ReadProg.eval_reads_congr _ hagree).2]
  exact hinside

/-- **The options of an IPCP packet**: the walk ends and stays inside the packet, and the addresses
are the last values of the longest list of options. -/
theorem ipcp_addresses (buf : List UInt8) (ctx : Pppd) (h4 : 4 ≤ buf.length)
    (hcode : HasOptions (buf.getD 0 0)) :
    ∃ os, Longest os ((buf.take (plenOf buf)).drop 4) ∧
      addresses (handleIpcp buf ctx).1 = addressesAfter (buf.getD 0 0) os (addresses ctx) ∧
      Ends (optRound (setOf (buf.getD 0 0)) (buf.take (plenOf buf))) (4, (ipcpBeforeCcp ctx).1)
        (readOptions (setOf (buf.getD 0 0)) buf (ipcpBeforeCcp ctx).1) ∧
      ∀ q ∈ (PppMem.ipcpOptions (assignOf (buf.getD 0 0)) 0 (plenOf buf) (plenOf buf) 4
          (ipcpBeforeCcp ctx).1).reads (listMem buf), 0 ≤ q ∧ q < plenOf buf := by
  have hbody : body buf = buf.take (plenOf buf) := by
    unfold body plenOf
    rw [← List.take_take, List.take_length]
  have hfuel : (body buf).length ≤ 4 + (body buf).length := Nat.le_add_left _ _
  obtain ⟨os, hlongest, hfold, hends⟩ := walk (setOf (buf.getD 0 0)) (ipcpBeforeCcp ctx).1 hfuel
  rw [← hbody]
  refine ⟨os, hlongest, ?_, hends, reads_options _ _ _⟩
  rw [addresses_handleIpcp h4 hcode, ← addresses_beforeCcp ctx]
  exact (congrArg addresses hfold).trans (addresses_foldl _ _ _)

/-- A counter-proposal: two addresses, an option that is not known between them, a name server, and
an address behind an option whose length is too small. -/
def addressNak : List UInt8 :=
  [fsmConfNak, 1, 0, 33, ciAddr, 6, 10, 0, 0, 2, 9, 3, 1, ciAddr, 6, 10, 0, 0, 3,
    ciMsDns1, 6, 8, 8, 8, 8, ciMsDns2, 1, ciAddr, 6, 10, 0, 0, 4]

theorem ipcp_addresses_nak :
    ∃ os, Longest os ((addressNak.take (plenOf addressNak)).drop 4) ∧
      addresses (handleIpcp addressNak (sstpPppdCreate 0)).1 =
        addressesAfter (addressNak.getD 0 0) os (addresses (sstpPppdCreate 0)) ∧
      Ends (optRound (setOf (addressNak.getD 0 0)) (addressNak.take (plenOf addressNak)))
        (4, (ipcpBeforeCcp (sstpPppdCreate 0)).1)
        (readOptions (setOf (addressNak.getD 0 0)) addressNak (ipcpBeforeCcp (sstpPppdCreate 0)).1) ∧
      ∀ q ∈ (PppMem.ipcpOptions (assignOf (addressNak.getD 0 0)) 0 (plenOf addressNak)
          (plenOf addressNak) 4 (ipcpBeforeCcp (sstpPppdCreate 0)).1).reads (listMem addressNak),
        0 ≤ q ∧ q < plenOf addressNak :=
  ipcp_addresses addressNak (sstpPppdCreate 0) (by decide) (.inr (.inr rfl))

example : addresses (handleIpcp addressNak (sstpPppdCreate 0)).1 =
    ⟨0, 0x0a000003, 0x08080808, 0⟩ := by decide

end SstpClient.IpcpOptions
