import SstpClient.Packet
import SstpClient.PppSpec

/-!
The PPP handlers as they use memory.

A received frame is a region of memory that a handler reads by positions, and its local arrays
are regions of fixed size that it writes. In both, a handler may go too far; where it does not,
it is the handler of `Ppp`.
-/

namespace SstpClient.PppMem

open SstpClient.Lib.Bytes SstpClient.Lib.Footprint SstpClient.Lib.Footprint.ReadProg
open SstpClient.Packet (ntohs readBytes)
open SstpClient.Ppp SstpClient.PppSpec

/-! ### The handlers -/

/-- `n` bytes are written from `pos` on into a local array of `size` bytes. -/
def store (size pos n : ℤ) (rest : Act) : Act :=
  if 0 ≤ pos ∧ pos + n ≤ size then rest else emit .overrun

/-- `get_be32`. -/
def getBe32 (p : ℤ) : ReadProg UInt8 ℕ := do
  let b3 ← cell p
  let b2 ← cell (p + 1)
  let b1 ← cell (p + 2)
  let b0 ← cell (p + 3)
  return be32 b3 b2 b1 b0

section Handlers

variable (P : Prims) (peerChallenge : List UInt8)

def handleLcp (p len : ℤ) (ctx : Pppd) : ReadProg UInt8 (Pppd × List Out) :=
  if len < 4 then return (ctx, [])
  else do
    let code ← cell p
    let id ← cell (p + 1)
    let plen ← ntohs (p + 2)
    let plen := min (plen : ℤ) len
    if code = fsmConfReq then
      if 256 < plen then return (ctx, [])
      else
        let ack ← readBytes p plen.toNat
        return store 256 0 plen (store 256 0 1
          ((sendFrame protoLcp (ack.set 0 fsmConfAck)).seq
            (if ctx.lcpOpened then skip else sendLcpConfReq))) ctx
    else if code = fsmConfAck then return update setLcpOpened ctx
    else if code = fsmConfNak ∨ code = fsmConfRej then return sendLcpConfReq ctx
    else if code = fsmTermReq then
      return ((sendFrame protoLcp [fsmTermAck, id, 0, 4]).seq (notify .down)) ctx
    else if code = fsmEchoReq then
      if 64 < plen then return (ctx, [])
      else
        let echo ← readBytes p plen.toNat
        let echo := echo.set 0 fsmEchoRep
        return store 64 0 plen (store 64 0 1
          (if 8 ≤ plen then
            store 64 4 4 (sendFrame protoLcp (splice echo 4 (toBe32 ctx.magic)))
          else sendFrame protoLcp echo)) ctx
    else return (ctx, [])

/-- The response is written into `resp` in three parts. -/
def chapRespond (id : UInt8) (chap : Chap) : Act := fun ctx =>
  let name := ctx.username.take 200
  store 256 0 5 (store 256 5 49 (store 256 54 name.length
    ((update (setChap id chap)).seq
      ((sendFrame protoChap (chapResponseBody id chap ctx.username)).seq
        ((notify .auth).seq (iosPppdAuth P)))))) ctx

def handleChap (p len : ℤ) (ctx : Pppd) : ReadProg UInt8 (Pppd × List Out) :=
  if len < 5 then return (ctx, [])
  else do
    let code ← cell p
    let id ← cell (p + 1)
    let vsize ← cell (p + 4)
    if code ≠ chapChallenge then
      if code = chapSuccess then return ((update setAuthDone).seq sendCcpConfReq) ctx
      else if code = chapFailure then return notify .authFail ctx
      else return (ctx, [])
    else if vsize.toNat < 16 ∨ len < 5 + vsize.toNat then return (ctx, [])
    else
      let authChallenge ← readBytes (p + 5) 16
      let ntResponse := P.ntResponse authChallenge peerChallenge ctx.username ctx.password
      return chapRespond P id ⟨peerChallenge, List.replicate 8 0, ntResponse, 0⟩ ctx

/-- What a request sets by an option of the type. -/
def assignPeerIp (type : UInt8) : Option (ℕ → Pppd → Pppd) :=
  if type = ciAddr then some fun value ctx => { ctx with peerIp := value } else none

/-- What an acknowledgement or a counter-proposal sets by an option of the type. -/
def assignLocalIp (type : UInt8) : Option (ℕ → Pppd → Pppd) :=
  if type = ciAddr then some fun value ctx => { ctx with localIp := value }
  else if type = ciMsDns1 then some fun value ctx => { ctx with dns1 := value }
  else if type = ciMsDns2 then some fun value ctx => { ctx with dns2 := value }
  else none

/-- The loops of `handle_ipcp`; a value is read only for an option that sets something. -/
def ipcpOptions (assign : UInt8 → Option (ℕ → Pppd → Pppd)) (p plen : ℤ) :
    ℕ → ℕ → Pppd → ReadProg UInt8 Pppd
  | 0, _, ctx => return ctx
  | fuel + 1, pos, ctx =>
    if (pos : ℤ) + 2 ≤ plen then do
      let type ← cell (p + pos)
      let olen ← cell (p + pos + 1)
      if olen.toNat < 2 ∨ plen < (pos + olen.toNat : ℕ) then return ctx
      else
        match (if olen.toNat = 6 then assign type else none) with
        | none => ipcpOptions assign p plen fuel (pos + olen.toNat) ctx
        | some f =>
          let value ← getBe32 (p + pos + 2)
          ipcpOptions assign p plen fuel (pos + olen.toNat) (f value ctx)
    else return ctx

/-- The `switch` of `handle_ipcp`. -/
def ipcpSwitch (p plen : ℤ) (code : UInt8) (ctx : Pppd) : ReadProg UInt8 (Pppd × List Out) :=
  if code = fsmConfReq then do
    let ctx ← ipcpOptions assignPeerIp p plen plen.toNat 4 ctx
    if 128 < plen then return (ctx, [])
    else
      let ack ← readBytes p plen.toNat
      return store 128 0 plen (store 128 0 1
        (sendFrame protoIpcp (ack.set 0 fsmConfAck))) ctx
  else if code = fsmConfAck then do
    let ctx ← ipcpOptions assignLocalIp p plen plen.toNat 4 ctx
    return ipcpAcked ctx
  else if code = fsmConfNak then do
    let ctx ← ipcpOptions assignLocalIp p plen plen.toNat 4 ctx
    return sendIpcpConfReq ctx
  else return (ctx, [])

def handleIpcp (p len : ℤ) (ctx : Pppd) : ReadProg UInt8 (Pppd × List Out) :=
  if len < 4 then return (ctx, [])
  else do
    let code ← cell p
    let plen ← ntohs (p + 2)
    let r ← ipcpSwitch p (min (plen : ℤ) len) code (ipcpBeforeCcp ctx).1
    return (r.1, (ipcpBeforeCcp ctx).2 ++ r.2)

def handleCcp (p len : ℤ) (ctx : Pppd) : ReadProg UInt8 (Pppd × List Out) :=
  if len < 4 then return (ctx, [])
  else do
    let code ← cell p
    let plen ← ntohs (p + 2)
    let plen := min (plen : ℤ) len
    if code = fsmConfReq then
      if 64 < plen then return (ctx, [])
      else
        let ack ← readBytes p plen.toNat
        return store 64 0 plen (store 64 0 1
          ((sendFrame protoCcp (ack.set 0 fsmConfAck)).seq
            ((update (mppeInit P)).seq ccpFinished))) ctx
    else if code = fsmConfAck then return ((update (mppeInit P)).seq ccpFinished) ctx
    else if code = fsmConfRej ∨ code = fsmConfNak then
      return ((update mppeDisable).seq ccpFinished) ctx
    else return (ctx, [])

/-- What follows the decryption, with the keys `d` of the packet. -/
def decrypted (d : Direction) (enc : List UInt8) : Act := fun ctx =>
  let dec := rc4 P d.rc4 enc
  ({ ctx with mppe := { ctx.mppe with recv := { d with rc4 := dec.2 } } },
    match protocol dec.1 with
    | some (proto, p) => if proto = protoIp ∧ p ≠ [] then [.ip p] else []
    | none => [])

/-- `handle_mppe`: it decrypts into `dec[PPP_MRU + 16]`. -/
def handleMppe (p len : ℤ) (ctx : Pppd) : ReadProg UInt8 (Pppd × List Out) :=
  if len < 3 ∨ ¬ ctx.mppe.enabled then return (ctx, [])
  else do
    let b0 ← cell p
    let b1 ← cell (p + 1)
    match catchUp P ((b0 &&& 0x0f).toNat * 256 + b1.toNat) 4096 ctx.mppe.recv with
    | none => return (ctx, [.hang])
    | some d =>
      let enc ← readBytes (p + 2) (len - 2).toNat
      return store (mru + 16) 0 (len - 2) (decrypted P d enc)
        { ctx with mppe := { ctx.mppe with recv := d } }

/-- The `switch` of `ppp_dispatch`. -/
def dispatchProto (proto : ℕ) (p len : ℤ) (ctx : Pppd) : ReadProg UInt8 (Pppd × List Out) :=
  if proto = protoLcp then handleLcp p len ctx
  else if proto = protoChap then handleChap P peerChallenge p len ctx
  else if proto = protoIpcp then handleIpcp p len ctx
  else if proto = protoCcp then handleCcp P p len ctx
  else if proto = protoMppe then handleMppe P p len ctx
  else if proto = protoIp then do
    let packet ← readBytes p len.toNat
    return emit (.ip packet) ctx
  else return (ctx, [])

/-- `ppp_dispatch` behind the address field. -/
def dispatchAt (p len : ℤ) (ctx : Pppd) : ReadProg UInt8 (Pppd × List Out) :=
  if len < 2 then return (ctx, [])
  else do
    let b0 ← cell p
    if b0 &&& 1 ≠ 0 then dispatchProto P peerChallenge b0.toNat (p + 1) (len - 1) ctx
    else
      let proto ← ntohs p
      dispatchProto P peerChallenge proto (p + 2) (len - 2) ctx

def pppDispatch (len : ℤ) (ctx : Pppd) : ReadProg UInt8 (Pppd × List Out) :=
  if len < 3 then return (ctx, [])
  else do
    let b0 ← cell 0
    if b0 = 0xff then
      let b1 ← cell 1
      if b1 = 0x03 then dispatchAt P peerChallenge 2 (len - 2) ctx
      else dispatchAt P peerChallenge 0 len ctx
    else dispatchAt P peerChallenge 0 len ctx

end Handlers

/-! ### Reading where the frame is -/

/-- At `p` the frame holds `buf`. -/
def Holds (frame : List UInt8) (p : ℤ) (buf : List UInt8) : Prop :=
  ∃ n : ℕ, p = n ∧ buf <+: frame.drop n

section Holds

variable {frame buf : List UInt8} {p : ℤ}

lemma holds_zero (frame : List UInt8) : Holds frame 0 frame := ⟨0, rfl, List.prefix_refl _⟩

lemma Holds.drop (h : Holds frame p buf) {q : ℤ} (k : ℕ) (hq : q = p + k) :
    Holds frame q (buf.drop k) := by
  obtain ⟨n, rfl, hbuf⟩ := h
  exact ⟨n + k, by rw [hq, Nat.cast_add], List.drop_drop ▸ hbuf.drop k⟩

/-- A part from the beginning. -/
lemma Holds.mono (h : Holds frame p buf) {b : List UInt8} (hb : b <+: buf) : Holds frame p b := by
  obtain ⟨n, hp, hbuf⟩ := h
  exact ⟨n, hp, hb.trans hbuf⟩

lemma Holds.eval_cell (h : Holds frame p buf) {q : ℤ} (k : ℕ) (hq : q = p + k)
    (hk : k < buf.length) :
    (cell q : ReadProg UInt8 UInt8).eval (listMem frame) = some (buf.getD k 0) := by
  obtain ⟨n, rfl, hbuf⟩ := h
  have hcast : q = ((n + k : ℕ) : ℤ) := by rw [hq, Nat.cast_add]
  have hget : buf[k]? = (frame.drop n)[k]? := by
    obtain ⟨rest, hrest⟩ := hbuf
    rw [← hrest, List.getElem?_append_left hk]
  rw [ReadProg.eval_cell, hcast, listMem_natCast, ← List.getElem?_drop, ← hget,
    List.getD_eq_getElem?_getD, List.getElem?_eq_getElem hk]
  rfl

lemma Holds.eval_ntohs (h : Holds frame p buf) {q : ℤ} (k : ℕ) (hq : q = p + k)
    (hk : k + 1 < buf.length) :
    (ntohs q).eval (listMem frame) = some (be16 (buf.getD k 0) (buf.getD (k + 1) 0)) := by
  unfold ntohs
  rw [eval_bind, h.eval_cell k hq (by omega), Option.bind_some, eval_bind,
    h.eval_cell (k + 1) (by rw [hq]; push_cast; ring) hk, Option.bind_some, eval_pure]

lemma Holds.eval_getBe32 (h : Holds frame p buf) {q : ℤ} (k : ℕ) (hq : q = p + k)
    (hk : k + 3 < buf.length) :
    (getBe32 q).eval (listMem frame) = some (be32 (buf.getD k 0) (buf.getD (k + 1) 0)
      (buf.getD (k + 2) 0) (buf.getD (k + 3) 0)) := by
  unfold getBe32
  rw [eval_bind, h.eval_cell k hq (by omega), Option.bind_some, eval_bind,
    h.eval_cell (k + 1) (by rw [hq]; push_cast; ring) (by omega), Option.bind_some, eval_bind,
    h.eval_cell (k + 2) (by rw [hq]; push_cast; ring) (by omega), Option.bind_some, eval_bind,
    h.eval_cell (k + 3) (by rw [hq]; push_cast; ring) hk, Option.bind_some, eval_pure]

lemma Holds.eval_readBytes (h : Holds frame p buf) {n : ℕ} (hn : n ≤ buf.length) :
    (readBytes p n).eval (listMem frame) = some (buf.take n) := by
  induction n generalizing p buf with
  | zero => rfl
  | succ n ih =>
    cases buf with
    | nil => cases hn
    | cons b bs =>
      have hcell := h.eval_cell (q := p) 0 (by simp) (Nat.succ_pos _)
      have hrest : Holds frame (p + 1) bs := h.drop 1 (by simp)
      rw [readBytes, eval_bind, hcell, Option.bind_some, eval_bind,
        ih hrest (Nat.le_of_succ_le_succ hn), Option.bind_some, eval_pure]
      rfl

/-- The length a handler goes by, and the bytes it copies. -/
lemma Holds.eval_body (h : Holds frame p buf) :
    min (be16 (buf.getD 2 0) (buf.getD 3 0) : ℤ) buf.length = (body buf).length ∧
      (readBytes p (body buf).length).eval (listMem frame) = some (body buf) := by
  have hlen : (body buf).length = min (be16 (buf.getD 2 0) (buf.getD 3 0)) buf.length :=
    List.length_take
  refine ⟨by rw [hlen, Nat.cast_min], ?_⟩
  rw [h.eval_readBytes (hlen ▸ Nat.min_le_right _ _), hlen, ← List.take_take, List.take_length]
  rfl

end Holds

/-- What fits is written. -/
lemma store_of_le {size pos n : ℤ} (h0 : 0 ≤ pos) (h : pos + n ≤ size) (rest : Act) :
    store size pos n rest = rest := if_pos ⟨h0, h⟩

/-! ### Each handler is the one of the model -/

section Refines

variable (P : Prims) (peerChallenge : List UInt8) {frame buf : List UInt8} {p : ℤ} (ctx : Pppd)

/-- A request copied into an array that it fits into, with another code. -/
lemma eval_reply (h : Holds frame p buf) {size : ℕ} (h1 : 1 ≤ size)
    (hsize : (body buf).length ≤ size) (code : UInt8) (rest : List UInt8 → Act) :
    (readBytes p (body buf).length >>= fun ack =>
      return store size 0 (body buf).length (store size 0 1 (rest (ack.set 0 code))) ctx).eval
        (listMem frame) = some (rest (reply buf code) ctx) := by
  rw [eval_bind, h.eval_body.2, Option.bind_some, eval_pure,
    store_of_le (le_refl 0) (by omega), store_of_le (le_refl 0) (by omega)]
  rfl

@[simp] lemma length_reply (buf : List UInt8) (code : UInt8) :
    (reply buf code).length = (body buf).length := List.length_set

lemma eval_handleLcp (h : Holds frame p buf) :
    (handleLcp p buf.length ctx).eval (listMem frame) = some (Ppp.handleLcp buf ctx) := by
  unfold handleLcp Ppp.handleLcp
  by_cases h4 : buf.length < 4
  · rw [if_pos h4, if_pos (by exact_mod_cast h4), eval_pure]
  have hlen := h.eval_body.1
  rw [if_neg h4, if_neg (by exact_mod_cast h4), eval_bind,
    h.eval_cell (q := p) 0 (by simp) (by omega), Option.bind_some, eval_bind,
    h.eval_cell (q := p + 1) 1 rfl (by omega), Option.bind_some, eval_bind,
    h.eval_ntohs (q := p + 2) 2 rfl (by omega), Option.bind_some]
  dsimp only
  rw [hlen, Int.toNat_natCast]
  simp only [Nat.ofNat_lt_cast, Nat.ofNat_le_cast, length_reply]
  split_ifs with hreq h256 hopen hack hnak hterm hecho h64 h8
  · rfl
  · exact eval_reply ctx h (by decide) (not_lt.mp h256) _ fun ack =>
      (sendFrame protoLcp ack).seq skip
  · exact eval_reply ctx h (by decide) (not_lt.mp h256) _ fun ack =>
      (sendFrame protoLcp ack).seq sendLcpConfReq
  · rfl
  · rfl
  · rfl
  · rfl
  · exact eval_reply ctx h (by decide) (not_lt.mp h64) _ fun echo =>
      sendFrame protoLcp (splice echo 4 (toBe32 ctx.magic))
  · exact eval_reply ctx h (by decide) (not_lt.mp h64) _ (sendFrame protoLcp)
  · rfl

lemma chapRespond_eq (buf : List UInt8) :
    chapRespond P (buf.getD 1 0) (chapOf P peerChallenge buf ctx) ctx =
      Ppp.chapRespond P peerChallenge buf ctx := by
  have hname : (ctx.username.take 200).length ≤ 200 := List.length_take_le _ _
  unfold chapRespond
  dsimp only
  rw [store_of_le (by decide) (by decide), store_of_le (by decide) (by decide),
    store_of_le (by decide) (by omega)]
  rfl

lemma eval_handleChap (h : Holds frame p buf) :
    (handleChap P peerChallenge p buf.length ctx).eval (listMem frame) =
      some (Ppp.handleChap P peerChallenge buf ctx) := by
  unfold handleChap Ppp.handleChap
  by_cases h5 : buf.length < 5
  · rw [if_pos h5, if_pos (by exact_mod_cast h5), eval_pure]
    rfl
  rw [if_neg h5, if_neg (by exact_mod_cast h5), eval_bind,
    h.eval_cell (q := p) 0 (by simp) (by omega), Option.bind_some, eval_bind,
    h.eval_cell (q := p + 1) 1 rfl (by omega), Option.bind_some, eval_bind,
    h.eval_cell (q := p + 4) 4 rfl (by omega), Option.bind_some]
  have hcast : ((buf.length : ℤ) < 5 + (buf.getD 4 0).toNat) ↔
      buf.length < 5 + (buf.getD 4 0).toNat := by omega
  simp only [hcast]
  split_ifs with hcode hsucc hfail hsize
  · rfl
  · rfl
  · rfl
  · rfl
  · have hread := (h.drop (q := p + 5) 5 rfl).eval_readBytes (n := 16)
      (by rw [List.length_drop]; omega)
    rw [eval_bind, hread, Option.bind_some, eval_pure]
    exact congrArg some (chapRespond_eq P peerChallenge ctx buf)

/-- An option that sets something sets what the model sets; the others set nothing. -/
def Assigns (assign : UInt8 → Option (ℕ → Pppd → Pppd)) (set : UInt8 → ℕ → Pppd → Pppd) : Prop :=
  ∀ type value ctx, set type value ctx = match assign type with
    | none => ctx
    | some f => f value ctx

lemma assigns_peerIp : Assigns assignPeerIp setPeerIp := by
  intro type value ctx
  unfold assignPeerIp setPeerIp
  split_ifs <;> rfl

lemma assigns_localIp : Assigns assignLocalIp setLocalIp := by
  intro type value ctx
  unfold assignLocalIp setLocalIp
  split_ifs <;> rfl

/-- The loops stay inside the bytes the length field says. -/
lemma eval_ipcpOptions {assign : UInt8 → Option (ℕ → Pppd → Pppd)}
    {set : UInt8 → ℕ → Pppd → Pppd} (hset : Assigns assign set) (h : Holds frame p buf)
    (fuel pos : ℕ) :
    (ipcpOptions assign p buf.length fuel pos ctx).eval (listMem frame) =
      some (Ppp.ipcpOptions set buf fuel pos ctx) := by
  induction fuel generalizing pos ctx with
  | zero => rfl
  | succ fuel ih =>
    unfold ipcpOptions Ppp.ipcpOptions
    by_cases hpos : pos + 2 ≤ buf.length
    · rw [if_pos hpos, if_pos (by exact_mod_cast hpos), eval_bind,
        h.eval_cell (q := p + pos) pos rfl (by omega), Option.bind_some, eval_bind,
        h.eval_cell (q := p + pos + 1) (pos + 1) (by push_cast; ring) (by omega),
        Option.bind_some]
      dsimp only
      have hcast : ((buf.length : ℤ) < (pos + (buf.getD (pos + 1) 0).toNat : ℕ)) ↔
          buf.length < pos + (buf.getD (pos + 1) 0).toNat := Nat.cast_lt
      simp only [hcast]
      by_cases hend : (buf.getD (pos + 1) 0).toNat < 2 ∨
          buf.length < pos + (buf.getD (pos + 1) 0).toNat
      · rw [if_pos hend, if_pos hend, eval_pure]
      · rw [if_neg hend, if_neg hend]
        by_cases hsix : (buf.getD (pos + 1) 0).toNat = 6
        · rw [if_pos hsix, if_pos hsix, hset]
          cases assign (buf.getD pos 0) with
          | none => exact ih ctx _
          | some f =>
            dsimp only
            rw [eval_bind, h.eval_getBe32 (q := p + pos + 2) (pos + 2) (by push_cast; ring)
              (by omega), Option.bind_some]
            exact ih _ _
        · rw [if_neg hsix, if_neg hsix]
          exact ih ctx _
    · rw [if_neg hpos, if_neg (by exact_mod_cast hpos), eval_pure]

lemma body_front (buf : List UInt8) : body buf <+: buf := List.take_prefix _ _

lemma eval_ipcpSwitch (h : Holds frame p buf) :
    (ipcpSwitch p (body buf).length (buf.getD 0 0) ctx).eval (listMem frame) =
      some (Ppp.ipcpSwitch buf ctx) := by
  have hoptions : ∀ {assign set}, Assigns assign set →
      (ipcpOptions assign p (body buf).length (body buf).length 4 ctx).eval (listMem frame) =
        some (readOptions set buf ctx) := fun hset =>
    eval_ipcpOptions ctx hset (h.mono (body_front buf)) _ _
  unfold ipcpSwitch Ppp.ipcpSwitch
  rw [Int.toNat_natCast]
  simp only [Nat.ofNat_lt_cast]
  split_ifs with hreq h128 hack hnak
  · rw [eval_bind, hoptions assigns_peerIp, Option.bind_some]
    rfl
  · rw [eval_bind, hoptions assigns_peerIp, Option.bind_some]
    exact eval_reply _ h (by decide) (not_lt.mp h128) _ (sendFrame protoIpcp)
  · rw [eval_bind, hoptions assigns_localIp, Option.bind_some]
    rfl
  · rw [eval_bind, hoptions assigns_localIp, Option.bind_some]
    rfl
  · rfl

lemma eval_handleIpcp (h : Holds frame p buf) :
    (handleIpcp p buf.length ctx).eval (listMem frame) = some (Ppp.handleIpcp buf ctx) := by
  unfold handleIpcp Ppp.handleIpcp
  by_cases h4 : buf.length < 4
  · rw [if_pos h4, if_pos (by exact_mod_cast h4), eval_pure]
    rfl
  rw [if_neg h4, if_neg (by exact_mod_cast h4), eval_bind,
    h.eval_cell (q := p) 0 (by simp) (by omega), Option.bind_some, eval_bind,
    h.eval_ntohs (q := p + 2) 2 rfl (by omega), Option.bind_some, h.eval_body.1, eval_bind,
    eval_ipcpSwitch _ h, Option.bind_some]
  rfl

lemma eval_handleCcp (h : Holds frame p buf) :
    (handleCcp P p buf.length ctx).eval (listMem frame) = some (Ppp.handleCcp P buf ctx) := by
  unfold handleCcp Ppp.handleCcp
  by_cases h4 : buf.length < 4
  · rw [if_pos h4, if_pos (by exact_mod_cast h4), eval_pure]
    rfl
  have hlen := h.eval_body.1
  rw [if_neg h4, if_neg (by exact_mod_cast h4), eval_bind,
    h.eval_cell (q := p) 0 (by simp) (by omega), Option.bind_some, eval_bind,
    h.eval_ntohs (q := p + 2) 2 rfl (by omega), Option.bind_some]
  dsimp only
  rw [hlen, Int.toNat_natCast]
  simp only [Nat.ofNat_lt_cast]
  split_ifs with hreq h64 hack hrej
  · rfl
  · exact eval_reply ctx h (by decide) (not_lt.mp h64) _ fun ack =>
      (sendFrame protoCcp ack).seq ((update (mppeInit P)).seq ccpFinished)
  · rfl
  · rfl
  · rfl

lemma eval_handleMppe (h : Holds frame p buf) :
    (handleMppe P p buf.length ctx).eval (listMem frame) = some (Ppp.handleMppe P buf ctx) := by
  unfold handleMppe Ppp.handleMppe
  have hcast : ((buf.length : ℤ) < 3 ∨ ¬ ctx.mppe.enabled) ↔
      (buf.length < 3 ∨ ¬ ctx.mppe.enabled) := by
    refine or_congr_left ?_
    omega
  by_cases hskip : buf.length < 3 ∨ ¬ ctx.mppe.enabled
  · rw [if_pos hskip, if_pos (hcast.mpr hskip), eval_pure]
  have h3 : ¬ buf.length < 3 := fun hlt => hskip (.inl hlt)
  rw [if_neg hskip, if_neg fun hc => hskip (hcast.mp hc), eval_bind,
    h.eval_cell (q := p) 0 (by simp) (by omega), Option.bind_some, eval_bind,
    h.eval_cell (q := p + 1) 1 rfl (by omega), Option.bind_some]
  change eval _ (match catchUp P (ccountOf buf) 4096 ctx.mppe.recv with
    | none => _
    | some d => _) = _
  cases catchUp P (ccountOf buf) 4096 ctx.mppe.recv with
  | none => rfl
  | some d =>
    have hlen : (buf.length - 2 : ℤ).toNat = (buf.drop 2).length := by
      rw [List.length_drop]
      omega
    dsimp only
    rw [eval_bind, hlen, (h.drop (q := p + 2) 2 rfl).eval_readBytes (le_refl _), Option.bind_some,
      List.take_length, eval_pure]
    unfold mppeDecrypt store
    by_cases hover : mru + 16 < buf.length - 2
    · rw [if_pos hover, if_neg (by omega)]
      rfl
    · rw [if_neg hover, if_pos (by omega)]
      rfl

lemma eval_dispatchProto (h : Holds frame p buf) (proto : ℕ) :
    (dispatchProto P peerChallenge proto p buf.length ctx).eval (listMem frame) =
      some ((if proto = protoLcp then Ppp.handleLcp buf
        else if proto = protoChap then Ppp.handleChap P peerChallenge buf
        else if proto = protoIpcp then Ppp.handleIpcp buf
        else if proto = protoCcp then Ppp.handleCcp P buf
        else if proto = protoMppe then Ppp.handleMppe P buf
        else if proto = protoIp then emit (.ip buf)
        else skip) ctx) := by
  unfold dispatchProto
  split_ifs
  · exact eval_handleLcp ctx h
  · exact eval_handleChap P peerChallenge ctx h
  · exact eval_handleIpcp ctx h
  · exact eval_handleCcp P ctx h
  · exact eval_handleMppe P ctx h
  · rw [eval_bind, Int.toNat_natCast, h.eval_readBytes (le_refl _), Option.bind_some,
      List.take_length, eval_pure]
  · rfl

lemma eval_dispatchAt (h : Holds frame p buf) {bytes : List UInt8}
    (hparse : parseFrame bytes = if buf.length < 2 then none else protocol buf) :
    (dispatchAt P peerChallenge p buf.length ctx).eval (listMem frame) =
      some (Ppp.pppDispatch P peerChallenge bytes ctx) := by
  unfold dispatchAt Ppp.pppDispatch
  rw [hparse]
  match buf, h with
  | [], _ => rfl
  | [b], _ => rfl
  | b :: b' :: bs, h =>
    have hb : (b :: b' :: bs).getD 0 0 = b := rfl
    rw [if_neg (by simp), if_neg (by simp only [List.length_cons]; omega), eval_bind,
      h.eval_cell (q := p) 0 (by simp) (by simp), Option.bind_some, hb]
    dsimp only [protocol]
    split_ifs with hodd
    · have hrest := h.drop (q := p + 1) 1 rfl
      have hlen : ((b :: b' :: bs).length : ℤ) - 1 = (b' :: bs).length := by simp
      rw [hlen]
      exact eval_dispatchProto P peerChallenge ctx hrest b.toNat
    · have hrest := h.drop (q := p + 2) 2 rfl
      have hlen : ((b :: b' :: bs).length : ℤ) - 2 = bs.length := by
        simp only [List.length_cons]
        omega
      rw [eval_bind, h.eval_ntohs (q := p) 0 (by simp) (by simp), Option.bind_some, hlen]
      exact eval_dispatchProto P peerChallenge ctx hrest _

/-- **The handlers read inside the frame**, and what they do is what the model says. -/
theorem eval_pppDispatch (frame : List UInt8) :
    (pppDispatch P peerChallenge frame.length ctx).eval (listMem frame) =
      some (Ppp.pppDispatch P peerChallenge frame ctx) := by
  have h := holds_zero frame
  unfold pppDispatch
  by_cases h3 : frame.length < 3
  · rw [if_pos (by exact_mod_cast h3), eval_pure]
    unfold Ppp.pppDispatch parseFrame
    rw [if_pos h3]
    rfl
  rw [if_neg (by exact_mod_cast h3), eval_bind, h.eval_cell (q := 0) 0 (by simp) (by omega),
    Option.bind_some]
  have hplain : frame.take 2 ≠ [0xff, 0x03] →
      (dispatchAt P peerChallenge 0 frame.length ctx).eval (listMem frame) =
        some (Ppp.pppDispatch P peerChallenge frame ctx) := by
    intro htake
    refine eval_dispatchAt P peerChallenge ctx h ?_
    unfold parseFrame stripAddress
    rw [if_neg h3, if_neg htake]
  have htake : frame.take 2 = [frame.getD 0 0, frame.getD 1 0] := by
    match frame, h3 with
    | b :: b' :: bs, _ => rfl
    | [b], h3 => simp at h3
    | [], h3 => simp at h3
  rw [htake] at hplain
  split_ifs with h0
  · rw [eval_bind, h.eval_cell (q := 1) 1 rfl (by omega), Option.bind_some]
    split_ifs with h1
    · have hstrip : stripAddress frame = frame.drop 2 := by
        unfold stripAddress
        rw [htake, h0, h1, if_pos rfl]
      have hlen : (frame.length : ℤ) - 2 = (frame.drop 2).length := by
        rw [List.length_drop]
        omega
      rw [hlen]
      refine eval_dispatchAt P peerChallenge ctx (h.drop (q := 2) 2 rfl) ?_
      unfold parseFrame
      rw [if_neg h3, hstrip]
    · exact hplain fun heq => h1 (by simpa using congrArg (·.getD 1 0) heq)
  · exact hplain fun heq => h0 (by simpa using congrArg (·.getD 0 0) heq)

end Refines

end SstpClient.PppMem
