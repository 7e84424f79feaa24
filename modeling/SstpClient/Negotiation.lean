import SstpClient.LinkUp
import SstpClient.CcpAck
import SstpClient.DeliveryRun

/-!
What a server that keeps the order of the negotiation makes of the link.

A server authenticates the client, agrees on MPPE and then acknowledges the address. Until the
address is acknowledged it does not go back: it sends no new challenge behind the agreement, no
refusal and no MPPE packet. The rest of what it sends is free, and so is everything behind.
-/

namespace SstpClient.Negotiation

open SstpClient.Lib.Bytes SstpClient.Lib.Machine
open SstpClient.Ppp SstpClient.PppSpec SstpClient.LinkUp SstpClient.MppeKeys
open SstpClient.Delivery (Matched)

/-! ### The order -/

/-- How far the negotiation has come. -/
inductive Phase
  | opening | challenged | authenticated | agreed | up
  deriving DecidableEq

/-- What an input is to the negotiation. -/
inductive Kind
  | challenge | unkeyed | success | agree | refuse | assign | data | other
  deriving DecidableEq

/-- An IPCP acknowledgement that leaves the client with an address. -/
def Assigns (p : List UInt8) (ctx : Pppd) : Prop :=
  4 ≤ p.length ∧ p.getD 0 0 = fsmConfAck ∧ (readOptions setLocalIp p ctx).localIp ≠ 0

instance (p : List UInt8) (ctx : Pppd) : Decidable (Assigns p ctx) :=
  inferInstanceAs (Decidable (_ ∧ _))

/-- A CCP packet that refuses MPPE. -/
def RefusesMppe (p : List UInt8) : Prop :=
  4 ≤ p.length ∧ (p.getD 0 0 = fsmConfRej ∨ p.getD 0 0 = fsmConfNak)

instance (p : List UInt8) : Decidable (RefusesMppe p) := inferInstanceAs (Decidable (_ ∧ _))

/-- A CHAP packet that is a Success. -/
def IsSuccess (p : List UInt8) : Prop := 5 ≤ p.length ∧ p.getD 0 0 = chapSuccess

instance (p : List UInt8) : Decidable (IsSuccess p) := inferInstanceAs (Decidable (_ ∧ _))

section Order

variable (P : Prims)

/-- The kind of a CHAP packet; a challenge is unkeyed if no MPPE keys come of the response. -/
def chapKind (peerChallenge p : List UInt8) (ctx : Pppd) : Kind :=
  if AnswersChallenge p then
    if (P.mppeGet (chapOf P peerChallenge p ctx)).isSome then .challenge else .unkeyed
  else if IsSuccess p then .success else .other

def ccpKind (p : List UInt8) : Kind :=
  if InitsKeys p then .agree else if RefusesMppe p then .refuse else .other

def ipcpKind (p : List UInt8) (ctx : Pppd) : Kind := if Assigns p ctx then .assign else .other

def kindOf (ctx : Pppd) : Input → Kind
  | .sendIp _ => .data
  | .frame bytes peerChallenge =>
    match parseFrame bytes with
    | none => .other
    | some (proto, p) =>
      if proto = protoChap then chapKind P peerChallenge p ctx
      else if proto = protoCcp then ccpKind p
      else if proto = protoIpcp then ipcpKind p ctx
      else if proto = protoMppe then .data
      else .other

/-- The next phase, where the order allows the input. -/
def next : Phase → Kind → Option Phase
  | .up, _ => some .up
  | .opening, .challenge => some .challenged
  | .challenged, .challenge => some .challenged
  | .challenged, .success => some .authenticated
  | .authenticated, .challenge => some .authenticated
  | .authenticated, .success => some .authenticated
  | .authenticated, .agree => some .agreed
  | .agreed, .success => some .agreed
  | .agreed, .agree => some .agreed
  | .agreed, .assign => some .up
  | .opening, .refuse => some .opening
  | .challenged, .refuse => some .challenged
  | .authenticated, .refuse => some .authenticated
  | .opening, .data => some .opening
  | .challenged, .data => some .challenged
  | .authenticated, .data => some .authenticated
  | φ, .other => some φ
  | _, _ => none

/-- The endpoint and the phase of the negotiation. -/
def watched (s : Pppd × Phase) (i : Input) : (Pppd × Phase) × List Out :=
  (((step P s.1 i).1, (next s.2 (kindOf P s.1 i)).getD s.2), (step P s.1 i).2)

/-- The condition on a step: the order allows the input. -/
def Orderly (s : Pppd × Phase) (i : Input) : Prop := (next s.2 (kindOf P s.1 i)).isSome = true

instance (s : Pppd × Phase) (i : Input) : Decidable (Orderly P s i) :=
  inferInstanceAs (Decidable (_ = _))

/-- The endpoint after `sstp_pppd_start`, with the negotiation before it. -/
def opened (magic : ℕ) (user password : List UInt8) : Pppd × Phase :=
  ((sstpPppdStart user password (sstpPppdCreate magic)).1, .opening)

/-! ### What is promised -/

/-- The keys are those of the last response. -/
def Keyed (keys : List UInt8 × List UInt8) (ctx : Pppd) : Prop :=
  P.mppeGet ctx.chap = some keys ∧ ctx.mppe.keysSet = true ∧ ctx.mppe.send.master = keys.1 ∧
    ctx.mppe.recv.master = keys.2

/-- MPPE is on, and no packet has used its keys. -/
structure Fresh (keys : List UInt8 × List UInt8) (m : Mppe) : Prop where
  enabled : m.enabled = true
  send : AtPlace P keys.1 0 m.send
  recv : AtPlace P keys.2 0 m.recv

/-- What a finished negotiation has given: an authenticated client with an address, whose MPPE
meets that of every server that starts from the mirrored keys. -/
structure Negotiated (ctx : Pppd) : Prop where
  authDone : ctx.authDone = true
  ccpDone : ctx.ccpDone = true
  localIp : ctx.localIp ≠ 0
  enabled : ctx.mppe.enabled = true
  keys : ∃ keys, P.mppeGet ctx.chap = some keys ∧ ∀ server : Mppe, server.keysSet = true →
    server.send.master = keys.2 → server.recv.master = keys.1 →
      Matched P ctx.mppe (mppeInitKeys P server) ∧ Matched P (mppeInitKeys P server) ctx.mppe

end Order

/-! ### What the parts leave alone -/

/-- The response, and what says that the client is authenticated and has an address. -/
def held (ctx : Pppd) : Chap × Bool × Bool := (ctx.chap, ctx.authDone, ctx.ipConfigured)

def KeepsHeld (f : Act) : Prop := ∀ ctx, held (f ctx).1 = held ctx

lemma composes_keepsHeld : Composes KeepsHeld where
  skip _ := rfl
  seq hf hg ctx := (hg _).trans (hf ctx)
  ofForall := by
    intro f h ctx
    obtain ⟨g, hg, heq⟩ := h ctx
    rw [heq, hg]

lemma keepsHeld_handleLcp (p : List UInt8) : KeepsHeld (handleLcp p) :=
  composes_keepsHeld.handleLcp (fun _ _ => rfl) (fun _ => rfl) (fun _ => rfl) (fun _ => rfl) p

lemma keepsHeld_maybeNotifyUp : KeepsHeld maybeNotifyUp :=
  composes_keepsHeld.maybeNotifyUp (fun _ => rfl) fun _ => rfl

lemma keepsHeld_ccpFinished : KeepsHeld ccpFinished :=
  composes_keepsHeld.ccpFinished (fun _ => rfl) (fun _ => rfl) keepsHeld_maybeNotifyUp

lemma keepsHeld_ipcpBeforeCcp : KeepsHeld ipcpBeforeCcp := by
  refine composes_keepsHeld.ofForall fun ctx => ?_
  unfold ipcpBeforeCcp
  split_ifs
  · exact ⟨_, composes_keepsHeld.seq (fun _ => rfl) keepsHeld_ccpFinished, rfl⟩
  · exact ⟨_, composes_keepsHeld.skip, rfl⟩

lemma held_setPeerIp (t : UInt8) (v : ℕ) (ctx : Pppd) : held (setPeerIp t v ctx) = held ctx := by
  unfold setPeerIp
  split_ifs <;> rfl

lemma held_setLocalIp (t : UInt8) (v : ℕ) (ctx : Pppd) : held (setLocalIp t v ctx) = held ctx := by
  unfold setLocalIp
  split_ifs <;> rfl

lemma keepsHeld_readOptions {set : UInt8 → ℕ → Pppd → Pppd}
    (hset : ∀ t v ctx, held (set t v ctx) = held ctx) (p : List UInt8) :
    KeepsHeld (update (readOptions set p)) := fun _ => ipcpOptions_keeps held hset _ _ _ _

/-- An IPCP packet that assigns no address configures none. -/
lemma held_ipcpSwitch {p : List UInt8} {ctx : Pppd}
    (h : ¬ (p.getD 0 0 = fsmConfAck ∧ (readOptions setLocalIp p ctx).localIp ≠ 0)) :
    held (ipcpSwitch p ctx).1 = held ctx := by
  have hpeer : KeepsHeld (update (readOptions setPeerIp p)) := keepsHeld_readOptions held_setPeerIp p
  have hlocal : KeepsHeld (update (readOptions setLocalIp p)) :=
    keepsHeld_readOptions held_setLocalIp p
  unfold ipcpSwitch
  split_ifs with hreq h128 hack hnak
  · exact hpeer ctx
  · exact hpeer ctx
  · have hzero : (readOptions setLocalIp p ctx).localIp = 0 := not_not.mp fun hne => h ⟨hack, hne⟩
    rw [seq_fst, update_eq, ipcpAcked, if_neg (not_not.mpr hzero)]
    exact hlocal ctx
  · exact composes_keepsHeld.seq hlocal (fun _ => rfl) ctx
  · rfl

/-- What `handle_ipcp` does before its `switch` is no matter to the address. -/
lemma localIp_ipcpBeforeCcp (ctx : Pppd) : (ipcpBeforeCcp ctx).1.localIp = ctx.localIp := by
  have hup : ∀ c, (maybeNotifyUp c).1.localIp = c.localIp := by
    intro c
    unfold maybeNotifyUp
    split_ifs <;> rfl
  unfold ipcpBeforeCcp
  split_ifs
  · obtain ⟨id, hid⟩ := ccpSettled_fst (mppeDisable ctx)
    rw [seq_fst, update_eq, ccpFinished_eq, seq_fst, hup, hid]
    rfl
  · rfl

lemma held_handleIpcp {p : List UInt8} {ctx : Pppd} (h : ¬ Assigns p ctx) :
    held (handleIpcp p ctx).1 = held ctx := by
  unfold handleIpcp
  split_ifs with h4
  · rfl
  · rw [seq_fst, held_ipcpSwitch, keepsHeld_ipcpBeforeCcp]
    rintro ⟨hack, hip⟩
    rw [localIp_readOptions p (localIp_ipcpBeforeCcp ctx)] at hip
    exact h ⟨by omega, hack, hip⟩

section Parts

variable (P : Prims)

lemma keepsHeld_handleCcp (p : List UInt8) : KeepsHeld (handleCcp P p) := by
  have hinit : KeepsHeld ((update (mppeInit P)).seq ccpFinished) :=
    composes_keepsHeld.seq (fun _ => rfl) keepsHeld_ccpFinished
  unfold handleCcp
  split_ifs
  · exact composes_keepsHeld.skip
  · exact composes_keepsHeld.skip
  · exact composes_keepsHeld.seq (fun _ => rfl) hinit
  · exact hinit
  · exact composes_keepsHeld.seq (fun _ => rfl) keepsHeld_ccpFinished
  · exact composes_keepsHeld.skip

/-- Without MPPE nothing is decrypted. -/
lemma handleMppe_off {ctx : Pppd} (h : ctx.mppe.enabled = false) (p : List UInt8) :
    handleMppe P p ctx = (ctx, []) := by
  unfold handleMppe
  rw [if_pos (by simp [h])]

/-- Without MPPE a packet changes nothing. -/
lemma sendIp_off {ctx : Pppd} (h : ctx.mppe.enabled = false) (ip : List UInt8) :
    (sstpPppdSendIp P ip ctx).2.1 = ctx := by
  unfold sstpPppdSendIp pppSendIpPlainOrMppe
  split_ifs with h1 h2
  · rfl
  · exact absurd h2 (by simp [h])
  · rfl

/-! ### What a step does -/

/-- What a step can do with an input of each kind. -/
inductive Effect (ctx : Pppd) (r : Pppd × List Out) : Kind → Prop
  | challenge (keys : List UInt8 × List UInt8) (hkeys : P.mppeGet r.1.chap = some keys)
    (hm : r.1.mppe = sstpPppdSetMppeKeys keys ctx.mppe) (hauth : r.1.authDone = ctx.authDone)
    (hip : r.1.ipConfigured = ctx.ipConfigured) : Effect ctx r .challenge
  | unkeyed : Effect ctx r .unkeyed
  | success (hm : r.1.mppe = ctx.mppe) (hheld : held r.1 = (ctx.chap, true, ctx.ipConfigured)) :
    Effect ctx r .success
  | agree (hm : r.1.mppe = mppeInitKeys P ctx.mppe) (hheld : held r.1 = held ctx)
    (hdone : r.1.ccpDone = true) : Effect ctx r .agree
  | refuse (hm : r.1.mppe = { ctx.mppe with enabled := false }) (hheld : held r.1 = held ctx) :
    Effect ctx r .refuse
  | assign (hups : ctx.upNotified = false → ctx.ccpDone = true → ∃ c, r = (c, [.notify .up c]) ∧
      held c = (ctx.chap, ctx.authDone, true) ∧ c.mppe = ctx.mppe ∧ c.ccpDone = true ∧
      c.localIp ≠ 0 ∧ c.upNotified = true) : Effect ctx r .assign
  | data (hoff : ctx.mppe.enabled = false → r.1 = ctx) : Effect ctx r .data
  | other (hheld : held r.1 = held ctx)
    (hm : r.1.mppe = ctx.mppe ∨
      ctx.ccpDone = false ∧ r.1.mppe = { ctx.mppe with enabled := false }) : Effect ctx r .other

lemma effect_handleChap (peerChallenge p : List UInt8) (ctx : Pppd) :
    Effect P ctx (handleChap P peerChallenge p ctx) (chapKind P peerChallenge p ctx) := by
  have hm := (mppe_handleChap P peerChallenge p ctx).1
  unfold chapKind
  split_ifs with hans hsome hsucc
  · obtain ⟨keys, hkeys⟩ := Option.isSome_iff_exists.mp hsome
    rw [chapKeys, if_pos hans, hkeys] at hm
    obtain ⟨h5, hcode, h16, hlen⟩ := hans
    have heq : handleChap P peerChallenge p = chapRespond P peerChallenge p := by
      rw [handleChap, if_neg (by omega), if_neg (not_not.mpr hcode), if_neg (by omega)]
    have hauth : ∀ c, (iosPppdAuth P c).1.chap = c.chap ∧
        (iosPppdAuth P c).1.authDone = c.authDone ∧
          (iosPppdAuth P c).1.ipConfigured = c.ipConfigured := by
      intro c
      unfold iosPppdAuth
      cases P.mppeGet c.chap <;> exact ⟨rfl, rfl, rfl⟩
    refine .challenge keys ?_ hm ?_ ?_
    · rw [heq, chapRespond, seq_fst, seq_fst, seq_fst, (hauth _).1]
      exact hkeys
    · rw [heq, chapRespond, seq_fst, seq_fst, seq_fst, (hauth _).2.1]
      rfl
    · rw [heq, chapRespond, seq_fst, seq_fst, seq_fst, (hauth _).2.2]
      rfl
  · exact .unkeyed
  · obtain ⟨h5, hcode⟩ := hsucc
    rw [chapKeys, if_neg hans] at hm
    refine .success hm ?_
    have hne : p.getD 0 0 ≠ chapChallenge := by
      rw [hcode]
      decide
    rw [handleChap, if_neg (by omega), if_pos hne, if_pos hcode]
    rfl
  · rw [chapKeys, if_neg hans] at hm
    refine .other ?_ (.inl hm)
    unfold handleChap
    split_ifs with h5 hcode hs hf hsize
    · rfl
    · exact absurd ⟨by omega, hs⟩ hsucc
    · rfl
    · rfl
    · rfl
    · exact absurd ⟨by omega, not_not.mp hcode, by omega, by omega⟩ hans

lemma effect_handleCcp (p : List UInt8) (ctx : Pppd) :
    Effect P ctx (handleCcp P p ctx) (ccpKind p) := by
  have hheld := keepsHeld_handleCcp P p ctx
  unfold ccpKind
  split_ifs with hinit hrefuse
  · refine .agree (mppe_handleCcp_init P hinit ctx).1 hheld ?_
    obtain ⟨h4, ⟨hreq, h64⟩ | hack⟩ := hinit
    · rw [handleCcp, if_neg (by omega), if_pos hreq, if_neg (by omega)]
      exact CcpAck.ccpDone_ccpFinished _
    · have hne : p.getD 0 0 ≠ fsmConfReq := by
        rw [hack]
        decide
      rw [handleCcp, if_neg (by omega), if_neg hne, if_pos hack]
      exact CcpAck.ccpDone_ccpFinished _
  · refine .refuse ?_ hheld
    cases CcpAck.ccp_spec P p ctx with
    | refused h4 hcode hm hdone hack => exact hm
    | request h4 hcode => exact absurd (hcode ▸ hrefuse.2) (by decide)
    | acked hcode => exact absurd (hcode ▸ hrefuse.2) (by decide)
    | other hreq hno => exact absurd hrefuse hno
  · refine .other hheld (.inl ?_)
    rcases handleCcp_eq P p with ⟨hsettles, -⟩ | ⟨-, heq⟩
    · obtain ⟨h4, h | h | h | h⟩ := hsettles
      · exact absurd ⟨h4, .inl h⟩ hinit
      · exact absurd ⟨h4, .inr h⟩ hinit
      · exact absurd ⟨h4, .inl h⟩ hrefuse
      · exact absurd ⟨h4, .inr h⟩ hrefuse
    · rw [heq]
      rfl

/-- After CCP `handle_ipcp` is its `switch`. -/
lemma handleIpcp_done {p : List UInt8} (h4 : 4 ≤ p.length) {ctx : Pppd} (h : ctx.ccpDone = true) :
    handleIpcp p ctx = ipcpSwitch p ctx := by
  have hbefore : ipcpBeforeCcp ctx = (ctx, []) := by
    unfold ipcpBeforeCcp
    rw [if_neg (by simp [h])]
  rw [handleIpcp, if_neg (by omega), Act.seq, hbefore, List.nil_append]

lemma effect_handleIpcp (p : List UInt8) (ctx : Pppd) :
    Effect P ctx (handleIpcp p ctx) (ipcpKind p ctx) := by
  unfold ipcpKind
  split_ifs with hassign
  · obtain ⟨h4, hcode, hip⟩ := hassign
    refine .assign fun hup hccp => ?_
    -- the options change neither the flags nor the keys
    have hheld : held (readOptions setLocalIp p ctx) = held ctx :=
      keepsHeld_readOptions held_setLocalIp p ctx
    have huntouched := untouched_readOptions untouched_setLocalIp p ctx
    simp only [held, Prod.mk.injEq] at hheld
    simp only [untouched, Prod.mk.injEq] at huntouched
    obtain ⟨hchap, hauth, -⟩ := hheld
    have hready : Ready (setIpConfigured (readOptions setLocalIp p ctx)) :=
      ⟨huntouched.1.trans hup, rfl, hip⟩
    have hne : p.getD 0 0 ≠ fsmConfReq := by
      rw [hcode]
      decide
    refine ⟨setUpNotified (setIpConfigured (readOptions setLocalIp p ctx)), ?_, ?_, ?_, ?_, hip, rfl⟩
    · rw [handleIpcp_done h4 hccp, ipcpSwitch, if_neg hne, if_pos hcode, Act.seq, update_eq, ipcpAcked,
        if_pos hip, Act.seq, update_eq, maybeNotifyUp_ready hready (huntouched.2.1.trans hccp)]
      rfl
    · simp [held, setUpNotified, setIpConfigured, hchap, hauth]
    · exact readOptions_mppe setLocalIp_mppe p ctx
    · exact huntouched.2.1.trans hccp
  · refine .other (held_handleIpcp hassign) ?_
    by_cases h4 : p.length < 4
    · rw [handleIpcp, if_pos h4]
      exact .inl rfl
    · by_cases hccp : ctx.ccpDone = true
      · rw [handleIpcp_done (by omega) hccp]
        exact .inl ((noMppe_ipcpSwitch p).mppe ctx)
      · obtain ⟨hm, -⟩ := mppe_handleIpcp p ctx
        exact hm.imp_right fun h => ⟨by simpa using hccp, h⟩

/-- **One step** does what the kind of its input says. -/
theorem effect_step (ctx : Pppd) (i : Input) : Effect P ctx (step P ctx i) (kindOf P ctx i) := by
  cases i with
  | sendIp ip => exact .data fun hoff => sendIp_off P hoff ip
  | frame bytes peerChallenge =>
    unfold step pppDispatch kindOf
    dsimp only
    cases hp : parseFrame bytes with
    | none => exact .other rfl (.inl rfl)
    | some pp =>
      obtain ⟨proto, p⟩ := pp
      dsimp only
      by_cases hlcp : proto = protoLcp
      · subst hlcp
        exact .other (keepsHeld_handleLcp p ctx) (.inl ((noMppe_handleLcp p).mppe ctx))
      rw [if_neg hlcp]
      by_cases hchap : proto = protoChap
      · rw [if_pos hchap, if_pos hchap]
        exact effect_handleChap P peerChallenge p ctx
      rw [if_neg hchap, if_neg hchap]
      by_cases hccp : proto = protoCcp
      · subst hccp
        exact effect_handleCcp P p ctx
      rw [if_neg hccp, if_neg hccp]
      by_cases hipcp : proto = protoIpcp
      · rw [if_pos hipcp, if_pos hipcp]
        exact effect_handleIpcp P p ctx
      rw [if_neg hipcp, if_neg hipcp]
      by_cases hmppe : proto = protoMppe
      · rw [if_pos hmppe, if_pos hmppe]
        refine .data fun hoff => ?_
        rw [handleMppe_off P hoff]
      rw [if_neg hmppe, if_neg hmppe]
      split_ifs <;> exact .other rfl (.inl rfl)

end Parts

/-! ### The invariant -/

section Inv

variable (P : Prims)

/-- What has been reached in a phase before the address is acknowledged. -/
structure Before (φ : Phase) (ctx : Pppd) : Prop where
  upNotified : ctx.upNotified = false
  ipConfigured : ctx.ipConfigured = false
  keyed : φ ≠ .opening → ∃ keys, Keyed P keys ctx
  authDone : φ = .authenticated ∨ φ = .agreed → ctx.authDone = true
  off : φ ≠ .agreed → ctx.mppe.enabled = false
  agreed : φ = .agreed → ctx.ccpDone = true ∧ ∃ keys, P.mppeGet ctx.chap = some keys ∧
    Fresh P keys ctx.mppe

/-- Nothing is notified before the address is acknowledged, and then once. -/
def Inv (s : Pppd × Phase) (outs : List Out) : Prop :=
  (s.2 ≠ .up → Before P s.2 s.1 ∧ ups outs = []) ∧
    (s.2 = .up → s.1.upNotified = true ∧ ∃ c, ups outs = [c] ∧ Negotiated P c)

variable {P} {φ φ' : Phase} {ctx : Pppd} {r : Pppd × List Out} {k : Kind} {i : Input}

/-- Keys that are initialised are fresh. -/
lemma Keyed.init {keys : List UInt8 × List UInt8} (h : Keyed P keys ctx) :
    Fresh P keys (mppeInitKeys P ctx.mppe) ∧ (mppeInitKeys P ctx.mppe).keysSet = true ∧
      (mppeInitKeys P ctx.mppe).send.master = keys.1 ∧
        (mppeInitKeys P ctx.mppe).recv.master = keys.2 := by
  obtain ⟨-, hset, hsend, hrecv⟩ := h
  have hinit : mppeInitKeys P ctx.mppe =
      { ctx.mppe with
          enabled := true, send := initDirection P ctx.mppe.send,
          recv := initDirection P ctx.mppe.recv } := if_pos hset
  rw [hinit]
  refine ⟨⟨rfl, ?_, ?_⟩, hset, hsend, hrecv⟩
  · rw [← hsend]
    exact atPlace_init _
  · rw [← hrecv]
    exact atPlace_init _

lemma Before.keep (h : Before P φ ctx) {ctx' : Pppd} (hup : ctx'.upNotified = false)
    (hheld : held ctx' = held ctx) (hm : ctx'.mppe = ctx.mppe)
    (hdone : ctx.ccpDone = true → ctx'.ccpDone = true) : Before P φ ctx' := by
  simp only [held, Prod.mk.injEq] at hheld
  obtain ⟨hchap, hauth, hip⟩ := hheld
  refine ⟨hup, hip.trans h.ipConfigured, fun hne => ?_, fun hor => hauth.trans (h.authDone hor),
    fun hne => by rw [hm, h.off hne], fun heq => ?_⟩
  · obtain ⟨keys, hkeys⟩ := h.keyed hne
    refine ⟨keys, ?_⟩
    unfold Keyed
    rwa [hchap, hm]
  · obtain ⟨hccp, keys, hkeys⟩ := h.agreed heq
    refine ⟨hdone hccp, keys, ?_⟩
    rwa [hchap, hm]

/-- Before the agreement MPPE is off anyhow. -/
lemma Before.disable (h : Before P φ ctx) (hφ : φ ≠ .agreed) :
    { ctx.mppe with enabled := false } = ctx.mppe := by
  rw [← h.off hφ]

lemma before_effect (h : Before P φ ctx) (he : Effect P ctx r k) (hup : r.1.upNotified = false)
    (hdone : ctx.ccpDone = true → r.1.ccpDone = true) (hφ : φ ≠ .up) (hφ' : φ' ≠ .up)
    (hn : next φ k = some φ') : Before P φ' r.1 := by
  cases he with
  | challenge keys hkeys hm hauth hip =>
    have hphase : φ ≠ .agreed ∧ φ' ≠ .agreed ∧ (φ' = .authenticated → φ = .authenticated) := by
      cases φ <;> simp [next] at hn <;> subst hn <;> simp
    obtain ⟨h1, h2, h3⟩ := hphase
    refine ⟨hup, hip.trans h.ipConfigured, fun _ => ⟨keys, hkeys, ?_⟩, fun hor => ?_, fun _ => ?_,
      fun heq => absurd heq h2⟩
    · rw [hm]
      exact ⟨rfl, rfl, rfl⟩
    · rw [hauth]
      exact h.authDone (.inl (h3 (hor.resolve_right h2)))
    · rw [hm]
      exact h.off h1
  | unkeyed => cases φ <;> simp [next] at hn hφ
  | success hm hheld =>
    simp only [held, Prod.mk.injEq] at hheld
    obtain ⟨hchap, hauth, hip⟩ := hheld
    have hphase : φ ≠ .opening ∧ (φ' = .agreed ↔ φ = .agreed) := by
      cases φ <;> simp [next] at hn <;> subst hn <;> simp
    obtain ⟨h1, h2⟩ := hphase
    refine ⟨hup, hip.trans h.ipConfigured, fun _ => ?_, fun _ => hauth, fun hne => ?_, fun heq => ?_⟩
    · obtain ⟨keys, hkeys⟩ := h.keyed h1
      refine ⟨keys, ?_⟩
      unfold Keyed
      rwa [hchap, hm]
    · rw [hm]
      exact h.off fun heq => hne (h2.mpr heq)
    · obtain ⟨hccp, hkeys⟩ := h.agreed (h2.mp heq)
      rw [hchap, hm]
      exact ⟨hdone hccp, hkeys⟩
  | agree hm hheld hccp =>
    simp only [held, Prod.mk.injEq] at hheld
    obtain ⟨hchap, hauth, hip⟩ := hheld
    have hphase : φ' = .agreed ∧ (φ = .authenticated ∨ φ = .agreed) := by
      cases φ <;> simp [next] at hn hφ <;> subst hn <;> simp
    obtain ⟨rfl, hor⟩ := hphase
    obtain ⟨keys, hkeys⟩ := h.keyed (by rcases hor with rfl | rfl <;> simp)
    obtain ⟨hfresh, hset⟩ := hkeys.init
    refine ⟨hup, hip.trans h.ipConfigured, fun _ => ⟨keys, ?_⟩, fun _ => hauth.trans (h.authDone hor),
      fun hne => absurd rfl hne, fun _ => ⟨hccp, keys, ?_⟩⟩
    · unfold Keyed
      rw [hchap, hm]
      exact ⟨hkeys.1, hset⟩
    · rw [hchap, hm]
      exact ⟨hkeys.1, hfresh⟩
  | refuse hm hheld =>
    have hphase : φ' = φ ∧ φ ≠ .agreed := by
      cases φ <;> simp [next] at hn hφ <;> subst hn <;> simp
    obtain ⟨rfl, h1⟩ := hphase
    exact h.keep hup hheld (hm.trans (h.disable h1)) hdone
  | assign hups =>
    cases φ <;> simp [next] at hn hφ
    exact absurd hn.symm hφ'
  | data hoff =>
    have hphase : φ' = φ ∧ φ ≠ .agreed := by
      cases φ <;> simp [next] at hn hφ <;> subst hn <;> simp
    obtain ⟨rfl, h1⟩ := hphase
    rw [hoff (h.off h1)]
    exact h
  | other hheld hm =>
    have hphase : φ' = φ := by
      cases φ <;> simp [next] at hn hφ
      all_goals exact hn.symm
    subst hphase
    refine h.keep hup hheld ?_ hdone
    rcases hm with hm | ⟨hccp, hm⟩
    · exact hm
    · refine hm.trans (h.disable fun heq => ?_)
      exact absurd (h.agreed heq).1 (by simp [hccp])

/-- Keys that are fresh meet those of every server that starts from the mirrored ones. -/
lemma Fresh.matched {keys : List UInt8 × List UInt8} {m server : Mppe} (h : Fresh P keys m)
    (hset : server.keysSet = true) (hsend : server.send.master = keys.2)
    (hrecv : server.recv.master = keys.1) :
    Matched P m (mppeInitKeys P server) ∧ Matched P (mppeInitKeys P server) m := by
  have hserver : Fresh P (keys.2, keys.1) (mppeInitKeys P server) := by
    rw [mppeInitKeys, if_pos hset]
    refine ⟨rfl, ?_, ?_⟩
    · rw [← hsend]
      exact atPlace_init _
    · rw [← hrecv]
      exact atPlace_init _
  exact ⟨.inr ⟨h.enabled, hserver.enabled, keys.1, 0, h.send, hserver.recv⟩,
    .inr ⟨hserver.enabled, h.enabled, keys.2, 0, hserver.send, h.recv⟩⟩

/-- Without an address no other input than an acknowledgement of one completes the negotiation. -/
lemma not_completes (hip : ctx.ipConfigured = false) (hk : kindOf P ctx i ≠ .assign) :
    ¬ Completes ctx i := by
  intro hc
  cases i with
  | sendIp ip => exact hc.elim
  | frame bytes peerChallenge =>
    obtain ⟨-, p, ⟨hp, h4, hor⟩ | ⟨hp, -, hip', -⟩⟩ := hc
    · rcases hor with ⟨-, -, hip', -⟩ | ⟨hcode, -, hlocal⟩
      · simp [hip] at hip'
      · refine hk ?_
        have hassign : Assigns p ctx := ⟨h4, hcode, hlocal⟩
        simp only [kindOf, hp]
        exact if_pos hassign
    · simp [hip] at hip'

/-- The link is up already. -/
lemma waits_up (hup : ctx.upNotified = true) : Waits ctx (step P ctx i) := by
  refine (step_up P ctx i).2 fun hc => ?_
  cases i with
  | sendIp ip => exact hc
  | frame bytes peerChallenge => exact absurd hc.1 (by simp [hup])

/-- **One step** that the order allows. -/
theorem step_inv {s : Pppd × Phase} {outs : List Out} (h : Inv P s outs) (hi : Orderly P s i) :
    Inv P (watched P s i).1 (outs ++ (watched P s i).2) := by
  obtain ⟨ctx, φ⟩ := s
  obtain ⟨φ', hn⟩ := Option.isSome_iff_exists.mp hi
  have hphase : (watched P (ctx, φ) i).1 = ((step P ctx i).1, φ') := by
    simp only [watched, hn, Option.getD_some]
  rw [hphase]
  obtain ⟨hbefore, hafter⟩ := h
  by_cases hφ : φ = .up
  · subst hφ
    obtain ⟨hup, c, hc, hgood⟩ := hafter rfl
    obtain ⟨hsame, hnone⟩ := waits_up (P := P) (i := i) hup
    have hnext : φ' = .up := by
      simpa [next, eq_comm] using hn
    refine ⟨fun hne => absurd hnext hne, fun _ => ⟨hsame.trans hup, c, ?_, hgood⟩⟩
    rw [ups_append, hc, watched, hnone, List.append_nil]
  · obtain ⟨h, hups⟩ := hbefore hφ
    have he := effect_step P ctx i
    by_cases hk : kindOf P ctx i = .assign
    · -- the address is acknowledged, behind the agreement
      have hor : φ = .agreed ∧ φ' = .up := by
        rw [hk] at hn
        cases φ <;> simp [next] at hn hφ
        exact ⟨rfl, hn.symm⟩
      obtain ⟨rfl, rfl⟩ := hor
      obtain ⟨hccp, keys, hkeys, hfresh⟩ := h.agreed rfl
      rw [hk] at he
      cases he with
      | assign hassign =>
        obtain ⟨c, heq, hheld, hm, hdone, hip, hup⟩ := hassign h.upNotified hccp
        simp only [held, Prod.mk.injEq] at hheld
        obtain ⟨hchap, hauth, -⟩ := hheld
        refine ⟨fun hne => absurd rfl hne, fun _ => ⟨by rw [heq]; exact hup, c, ?_, ?_⟩⟩
        · rw [ups_append, hups, watched, heq]
          rfl
        · refine ⟨hauth.trans (h.authDone (.inr rfl)), hdone, hip, hm ▸ hfresh.enabled, keys, ?_,
            fun server hset hsend hrecv => ?_⟩
          · rw [hchap, hkeys]
          · rw [hm]
            exact hfresh.matched hset hsend hrecv
    · obtain ⟨hsame, hnone⟩ := (step_up P ctx i).2 (not_completes h.ipConfigured hk)
      have hφ' : φ' ≠ .up := by
        rintro rfl
        cases φ <;> cases hkind : kindOf P ctx i <;> simp [next, hkind] at hn hφ hk
      refine ⟨fun _ => ⟨?_, ?_⟩, fun heq => absurd heq hφ'⟩
      · exact before_effect h he (hsame.trans h.upNotified) (CcpAck.ccpDone_step i) hφ hφ' hn
      · rw [ups_append, hups, watched, hnone, List.append_nil]

lemma opened_inv (magic : ℕ) (user password : List UInt8) :
    Inv P (opened magic user password) [] :=
  ⟨fun _ => ⟨⟨rfl, rfl, fun hne => absurd rfl hne, by simp [opened], fun _ => rfl,
    by simp [opened]⟩, rfl⟩, by simp [opened]⟩

end Inv

/-! ### The main result -/

/-- **A server that keeps the order** gets the link up by acknowledging an address, and by nothing
else: `SSTP_PPP_UP` is notified once if it has, and not otherwise, and then the client is
authenticated and its MPPE is on, in step with that of the server. -/
theorem up_negotiated (P : Prims) (magic : ℕ) (user password : List UInt8) (inputs : List Input)
    (h : Along (watched P) (Orderly P) (opened magic user password) inputs) :
    ((run (watched P) (opened magic user password) inputs).1.2 = .up →
        ∃ c, ups (run (watched P) (opened magic user password) inputs).2 = [c] ∧
          Negotiated P c) ∧
      ((run (watched P) (opened magic user password) inputs).1.2 ≠ .up →
        ups (run (watched P) (opened magic user password) inputs).2 = []) := by
  have hinv := run_inv (Inv P) (fun s outs i hs hi => step_inv hs hi) (opened_inv magic user password) h
  rw [List.nil_append] at hinv
  exact ⟨fun hup => (hinv.2 hup).2, fun hne => (hinv.1 hne).2⟩

/-- A challenge, a Success, a CCP acknowledgement, an acknowledgement of the address 10.0.0.1, and
a packet. -/
def orderly : List Input :=
  [.frame ([0xff, 0x03, 0xc2, 0x23, 1, 1, 0, 21, 16] ++ List.replicate 16 0) [],
    .frame [0xff, 0x03, 0xc2, 0x23, 3, 1, 0, 5, 0] [],
    .frame [0xff, 0x03, 0x80, 0xfd, 2, 1, 0, 4] [],
    .frame [0xff, 0x03, 0x80, 0x21, 2, 1, 0, 10, 3, 6, 10, 0, 0, 1] [],
    .sendIp [0x45]]

theorem up_negotiated_orderly :
    ((run (watched somePrims) (opened 0 [] []) orderly).1.2 = .up →
        ∃ c, ups (run (watched somePrims) (opened 0 [] []) orderly).2 = [c] ∧
          Negotiated somePrims c) ∧
      ((run (watched somePrims) (opened 0 [] []) orderly).1.2 ≠ .up →
        ups (run (watched somePrims) (opened 0 [] []) orderly).2 = []) :=
  up_negotiated somePrims 0 [] [] orderly (by decide +kernel)

end SstpClient.Negotiation
