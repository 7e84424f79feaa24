import SstpClient.ConnectMsg

/-!
When a received control packet is interpreted from its own bytes only.

`sstp_pkt_parse` follows a chain of headers: the first at position 8, each next one at the
length the one before declares. Nothing compares a position with the length of the packet,
and the last entry of the caller's array is not cleared. The chain is described here on the
bytes of the packet alone, and decides whether anything else is read.
-/

namespace SstpClient.PacketBounds

open SstpClient.Lib.Bytes SstpClient.Lib.Footprint SstpClient.Lib.Footprint.ReadProg
open SstpClient.Packet SstpClient.ConnectMsg

/-! ### What is read -/

/-- The positions read when a packet of length `n` in memory `m` is interpreted: its type, its
attributes, and what the two consumers take out of it. -/
def readsOf (n : ℤ) (garbage : Attrs) (m : ℤ → Option UInt8) : List ℤ :=
  (sstpPktType n).reads m ++ (sstpPktParse n garbage).reads m ++
    (sstpStateConnectAck n garbage).reads m ++ (sstpStateConnectNak n garbage).reads m

/-- What the packet is taken to say: message type, attributes, nonce and status. -/
def meaningOf (n : ℤ) (garbage : Attrs) (m : ℤ → Option UInt8) :=
  ((sstpPktType n).eval m, (sstpPktParse n garbage).eval m,
    (sstpStateConnectAck n garbage).eval m, (sstpStateConnectNak n garbage).eval m)

/-- The packet `bs` is interpreted from its own bytes: whatever follows it in the receive buffer
and whatever the arrays for the attributes held before. -/
structure OwnBytes (bs : List UInt8) : Prop where
  reads : ∀ tail garbage, ∀ p ∈ readsOf bs.length garbage (listMem (bs ++ tail)),
    0 ≤ p ∧ p < bs.length
  attrs : ∀ tail garbage attrs off,
    (sstpPktParse bs.length garbage).eval (listMem (bs ++ tail)) = some (some (attrs, off)) →
      ∀ t p, attrs t = some p → ∃ d, (ntohs (p + 2)).eval (listMem (bs ++ tail)) = some d ∧
        0 ≤ p ∧ 4 ≤ d ∧ p + d ≤ bs.length
  agree : ∀ tail tail' garbage garbage', meaningOf bs.length garbage (listMem (bs ++ tail)) =
    meaningOf bs.length garbage' (listMem (bs ++ tail'))

/-! ### The chain of headers -/

/-- A header of the chain: its position, its type, and the length it declares. -/
structure Entry where
  pos : ℤ
  type : Fin (sstpAttrMax + 1)
  length : ℕ

/-- The headers of a chain of `k` from position `i` on, inside `bs`. The outer `none`: the chain
leaves `bs`; the inner one: it meets a type that does not exist, where parsing gives up. -/
def chain (bs : List UInt8) : ℕ → ℤ → Option (Option (List Entry))
  | 0, _ => some (some [])
  | k + 1, i => do
    let type ← listMem bs (i + 1)
    if h : type.toNat < sstpAttrMax + 1 then
      let length ← (ntohs (i + 2)).eval (listMem bs)
      let rest ← chain bs k (toShort length)
      return rest.map (⟨i, ⟨type.toNat, h⟩, length⟩ :: ·)
    else return none

/-- The last header of type `t`. -/
def lastOf : List Entry → Fin (sstpAttrMax + 1) → Option Entry
  | [], _ => none
  | e :: es, t => (lastOf es t).or (if e.type = t then some e else none)

/-- The headers an answered packet leaves in the array lie inside the packet: the last one of
each type, which is at least a header long; the one `sstp_state_connect_ack` looks for is
there; and the status information is followed by the eight bytes taken from it. -/
structure Contained (n : ℕ) (es : List Entry) : Prop where
  inside : ∀ t e, lastOf es t = some e → 0 ≤ e.pos ∧ 4 ≤ e.length ∧ e.pos + e.length ≤ n
  bindReq : (lastOf es attrCryptoBindReq).isSome
  status : ∀ e, lastOf es attrStatusInfo = some e → 8 ≤ e.length → e.pos + 12 ≤ n

/-- The chain of `nattr` headers that starts behind the control header stays inside the packet,
and unless it meets a type that does not exist its headers are contained. -/
def ChainInside (bs : List UInt8) : Prop :=
  ∃ nattr r, (ntohs 6).eval (listMem bs) = some nattr ∧ chain bs nattr 8 = some r ∧
    ∀ es, r = some es → Contained bs.length es

/-- **When a packet is interpreted from its own bytes:** it is too short to have a type, or a
data packet, or a control packet that has its type but no room for an attribute, or the
chain of its headers stays inside. -/
def SelfContained (bs : List UInt8) : Prop :=
  bs.length < 4 ∨ (∃ flags, listMem bs 1 = some flags ∧
    (msgFlagCtrl &&& flags = 0 ∨ 6 ≤ bs.length ∧ (bs.length < 14 ∨ ChainInside bs)))

/-! ### The loop follows the chain -/

/-- Where the chain ends. -/
def endOff : ℤ → List Entry → ℤ
  | i, [] => i
  | _, e :: es => endOff (toShort e.length) es

/-- The array after the chain. -/
def setAttrs (attrs : Attrs) (es : List Entry) : Attrs := fun t =>
  ((lastOf es t).map Entry.pos).or (attrs t)

lemma setAttrs_cons (attrs : Attrs) (e : Entry) (es : List Entry) :
    setAttrs attrs (e :: es) = setAttrs (Function.update attrs e.type (some e.pos)) es := by
  funext t
  unfold setAttrs
  cases h : lastOf es t with
  | some e' => simp [lastOf, h]
  | none =>
    by_cases ht : e.type = t
    · simp [lastOf, h, ht]
    · simp [lastOf, h, ht, Function.update_of_ne (Ne.symm ht)]

lemma parseLoop_eq_chain (bs : List UInt8) (k : ℕ) (i : ℤ) (attrs : Attrs) :
    (parseLoop k i attrs).eval (listMem bs) =
      (chain bs k i).map fun r => r.map fun es => (setAttrs attrs es, endOff i es) := by
  induction k generalizing i attrs with
  | zero => rfl
  | succ k ih =>
    rw [parseLoop, eval_bind, eval_cell, chain]
    cases hm : listMem bs (i + 1) with
    | none => rfl
    | some type =>
      simp only [Option.bind_some, Option.bind_eq_bind]
      split_ifs with h
      · rw [eval_bind]
        cases hl : (ntohs (i + 2)).eval (listMem bs) with
        | none => simp
        | some length =>
          simp only [Option.bind_some, ih]
          cases hc : chain bs k (toShort length) with
          | none => simp
          | some r => cases r <;> simp [setAttrs_cons, endOff]
      · simp

/-- A program over the packet's memory reads inside the packet exactly when it can be run on
the packet alone, and then it gives the same. -/
lemma reads_inside_iff {α : Type} (x : ReadProg UInt8 α) (bs tail : List UInt8) :
    (∀ p ∈ x.reads (listMem (bs ++ tail)), 0 ≤ p ∧ p < bs.length) ↔
      (x.eval (listMem bs)).isSome := by
  rw [eval_isSome_iff]
  constructor
  · intro h
    have hagree : ∀ p ∈ x.reads (listMem (bs ++ tail)), listMem bs p = listMem (bs ++ tail) p :=
      fun p hp => (listMem_append (h p hp).2).symm
    have hc := x.eval_reads_congr hagree
    intro p hp
    rw [hc.2] at hp
    exact listMem_isSome.mpr (h p hp)
  · intro h
    have hagree : ∀ p ∈ x.reads (listMem bs), listMem (bs ++ tail) p = listMem bs p :=
      fun p hp => listMem_append (listMem_isSome.mp (h p hp)).2
    have hc := x.eval_reads_congr hagree
    intro p hp
    rw [hc.2] at hp
    exact listMem_isSome.mp (h p hp)

lemma eval_append_of_isSome {α : Type} {x : ReadProg UInt8 α} {bs : List UInt8}
    (h : (x.eval (listMem bs)).isSome) (tail : List UInt8) :
    x.eval (listMem (bs ++ tail)) = x.eval (listMem bs) :=
  (x.eval_reads_congr fun p hp =>
    listMem_append (listMem_isSome.mp ((eval_isSome_iff x).mp h p hp)).2).1

/-! ### Which reads stay inside -/

/-- One cell, then the rest. -/
lemma cell_bind_isSome {α : Type} {bs : List UInt8} {p : ℤ} {f : UInt8 → ReadProg UInt8 α} :
    ((cell p >>= f).eval (listMem bs)).isSome ↔
      ∃ b, listMem bs p = some b ∧ ((f b).eval (listMem bs)).isSome := by
  rw [eval_bind, eval_cell]
  cases listMem bs p <;> simp

lemma ntohs_isSome {bs : List UInt8} {p : ℤ} :
    ((ntohs p).eval (listMem bs)).isSome ↔ 0 ≤ p ∧ p + 2 ≤ bs.length := by
  rw [ntohs, cell_bind_isSome]
  simp only [cell_bind_isSome, eval_pure, Option.isSome_some, and_true, ← Option.isSome_iff_exists,
    exists_and_right, listMem_isSome]
  omega

lemma readBytes_isSome {bs : List UInt8} {p : ℤ} {k : ℕ} :
    ((readBytes p k).eval (listMem bs)).isSome ↔ k = 0 ∨ 0 ≤ p ∧ p + k ≤ bs.length := by
  induction k generalizing p with
  | zero => simp [readBytes]
  | succ k ih =>
    have hrest : ∀ b : UInt8, ((do return b :: (← readBytes (p + 1) k) :
        ReadProg UInt8 (List UInt8)).eval (listMem bs)).isSome ↔
          ((readBytes (p + 1) k).eval (listMem bs)).isSome := by
      intro b
      rw [eval_bind]
      cases (readBytes (p + 1) k).eval (listMem bs) <;> simp
    rw [readBytes, cell_bind_isSome]
    simp only [hrest, ih, exists_and_right, ← Option.isSome_iff_exists, listMem_isSome]
    constructor
    · rintro ⟨⟨h0, h1⟩, h⟩
      right
      push_cast
      rcases h with rfl | ⟨-, h⟩ <;> omega
    · rintro (h | ⟨h0, h⟩)
      · omega
      · push_cast at h
        refine ⟨⟨h0, by omega⟩, Or.inr ⟨by omega, by omega⟩⟩

/-- A header of the chain has its length where `sstp_attr_len` looks for it. -/
lemma chain_length {bs : List UInt8} {k : ℕ} {i : ℤ} {es : List Entry}
    (h : chain bs k i = some (some es)) :
    ∀ e ∈ es, (ntohs (e.pos + 2)).eval (listMem bs) = some e.length := by
  induction k generalizing i es with
  | zero =>
    rw [chain, Option.some.injEq, Option.some.injEq] at h
    subst h
    simp
  | succ k ih =>
    rw [chain] at h
    obtain ⟨type, hm, h⟩ := Option.bind_eq_some_iff.mp h
    split_ifs at h with ht
    · obtain ⟨length, hl, h⟩ := Option.bind_eq_some_iff.mp h
      obtain ⟨rest, hc, h⟩ := Option.bind_eq_some_iff.mp h
      cases rest with
      | none => simp at h
      | some rest =>
        simp only [Option.map_some, Option.pure_def, Option.some.injEq] at h
        subst h
        intro e he
        rcases List.mem_cons.mp he with rfl | he
        · exact hl
        · exact ih hc e he
    · simp at h

lemma lastOf_mem {es : List Entry} {t : Fin (sstpAttrMax + 1)} {e : Entry}
    (h : lastOf es t = some e) : e ∈ es := by
  induction es with
  | nil => simp [lastOf] at h
  | cons e' es ih =>
    rw [lastOf, Option.or_eq_some_iff] at h
    rcases h with h | ⟨-, h⟩
    · exact List.mem_cons_of_mem _ (ih h)
    · split_ifs at h with ht
      cases h
      exact List.mem_cons_self

lemma lastOf_length {bs : List UInt8} {k : ℕ} {i : ℤ} {es : List Entry}
    (h : chain bs k i = some (some es)) {t : Fin (sstpAttrMax + 1)} {e : Entry}
    (he : lastOf es t = some e) : (ntohs (e.pos + 2)).eval (listMem bs) = some e.length :=
  chain_length h e (lastOf_mem he)

/-! ### What a packet is parsed to -/

lemma parse_eval_short {bs : List UInt8} (h : bs.length < 14) (garbage : Attrs) :
    (sstpPktParse bs.length garbage).eval (listMem bs) = some none := by
  rw [sstpPktParse, if_pos (by omega), eval_pure]

lemma parse_eval_data {bs : List UInt8} {flags : UInt8} (hf : listMem bs 1 = some flags)
    (hd : msgFlagCtrl &&& flags = 0) (garbage : Attrs) :
    (sstpPktParse bs.length garbage).eval (listMem bs) = some none := by
  rw [sstpPktParse]
  split_ifs
  · rfl
  · rw [eval_bind, eval_cell, hf, Option.bind_some, if_pos hd, eval_pure]

lemma parse_eval_ctrl {bs : List UInt8} {flags : UInt8} {nattr : ℕ} (hlen : 14 ≤ bs.length)
    (hf : listMem bs 1 = some flags) (hc : msgFlagCtrl &&& flags ≠ 0)
    (hn : (ntohs 6).eval (listMem bs) = some nattr) (garbage : Attrs) :
    (sstpPktParse bs.length garbage).eval (listMem bs) =
      (chain bs nattr 8).map fun r =>
        r.map fun es => (setAttrs (clearAttrs garbage) es, endOff 8 es) := by
  rw [sstpPktParse, if_neg (by omega), eval_bind, eval_cell, hf, Option.bind_some, if_neg hc,
    eval_bind, hn, Option.bind_some, parseLoop_eq_chain]

lemma type_isSome {bs : List UInt8} {flags : UInt8} (hlen : 4 ≤ bs.length)
    (hf : listMem bs 1 = some flags) :
    ((sstpPktType bs.length).eval (listMem bs)).isSome ↔
      (msgFlagCtrl &&& flags ≠ 0 → 6 ≤ bs.length) := by
  rw [sstpPktType, if_neg (by omega), eval_bind, eval_cell, hf, Option.bind_some]
  split_ifs with hc
  · rw [eval_bind]
    have h4 : ((ntohs 4).eval (listMem bs)).isSome ↔ 0 ≤ (4 : ℤ) ∧ 4 + 2 ≤ (bs.length : ℤ) :=
      ntohs_isSome
    cases h : (ntohs 4).eval (listMem bs) with
    | none => simp only [h, Option.isSome_none, Bool.false_eq_true, false_iff] at h4
              simp [hc]; omega
    | some type => simp only [h, Option.isSome_some, true_iff] at h4
                   simp [hc]; omega
  · simp [hc]

/-! ### The consumers -/

lemma ack_eval_congr {n : ℤ} {g g' : Attrs} {m : ℤ → Option UInt8}
    (h : (sstpPktParse n g).eval m = (sstpPktParse n g').eval m) :
    (sstpStateConnectAck n g).eval m = (sstpStateConnectAck n g').eval m := by
  rw [sstpStateConnectAck, sstpStateConnectAck, eval_bind, eval_bind, h]

lemma nak_eval_congr {n : ℤ} {g g' : Attrs} {m : ℤ → Option UInt8}
    (h : (sstpPktParse n g).eval m = (sstpPktParse n g').eval m) :
    (sstpStateConnectNak n g).eval m = (sstpStateConnectNak n g').eval m := by
  rw [sstpStateConnectNak, sstpStateConnectNak, eval_bind, eval_bind, h]

lemma attrLen_eval {m : ℤ → Option UInt8} {p : ℤ} {d : ℕ}
    (h : (ntohs (p + 2)).eval m = some d) : (sstpAttrLen p).eval m = some ((d : ℤ) - 4) := by
  rw [sstpAttrLen, eval_bind, h, Option.bind_some, eval_pure]

lemma ack_isSome {bs : List UInt8} {n : ℤ} {garbage attrs : Attrs} {off : ℤ}
    (h : (sstpPktParse n garbage).eval (listMem bs) = some (some (attrs, off)))
    (hreq : ∀ p, attrs attrCryptoBindReq = some p → ∃ d, (ntohs (p + 2)).eval (listMem bs) = some d ∧
      (d = 40 → 0 ≤ p ∧ p + 40 ≤ bs.length)) :
    ((sstpStateConnectAck n garbage).eval (listMem bs)).isSome := by
  rw [sstpStateConnectAck, eval_bind, h, Option.bind_some]
  dsimp only
  cases hp : attrs attrCryptoBindReq with
  | none => rfl
  | some p =>
    obtain ⟨d, hd, hin⟩ := hreq p hp
    dsimp only
    rw [eval_bind, attrLen_eval hd, Option.bind_some]
    split_ifs with h36
    · rfl
    · obtain ⟨h0, h1⟩ := hin (by omega)
      rw [cell_bind_isSome]
      have hproto : (listMem bs (sstpAttrData p + 3)).isSome :=
        listMem_isSome.mpr (by unfold sstpAttrData; omega)
      have hnounce : ((readBytes (sstpAttrData p + 4) 32).eval (listMem bs)).isSome :=
        readBytes_isSome.mpr (Or.inr (by unfold sstpAttrData; omega))
      obtain ⟨proto, hproto⟩ := Option.isSome_iff_exists.mp hproto
      obtain ⟨nounce, hnounce⟩ := Option.isSome_iff_exists.mp hnounce
      exact ⟨proto, hproto, by simp [eval_bind, hnounce]⟩

/-- `sstp_state_connect_nak` gets its status exactly when the eight bytes it takes for granted
behind a header of eight bytes or more are there. -/
lemma nak_isSome {bs : List UInt8} {n : ℤ} {garbage attrs : Attrs} {off : ℤ}
    (h : (sstpPktParse n garbage).eval (listMem bs) = some (some (attrs, off)))
    (hst : ∀ p, attrs attrStatusInfo = some p →
      ∃ d, (ntohs (p + 2)).eval (listMem bs) = some d ∧ 0 ≤ p) :
    ((sstpStateConnectNak n garbage).eval (listMem bs)).isSome ↔
      ∀ p d, attrs attrStatusInfo = some p → (ntohs (p + 2)).eval (listMem bs) = some d →
        8 ≤ d → p + 12 ≤ bs.length := by
  rw [sstpStateConnectNak, eval_bind, h, Option.bind_some]
  dsimp only
  cases hp : attrs attrStatusInfo with
  | none => simp
  | some p =>
    obtain ⟨d, hd, h0⟩ := hst p hp
    have hroom : (∀ q d', some p = some q → (ntohs (q + 2)).eval (listMem bs) = some d' →
        8 ≤ d' → q + 12 ≤ bs.length) ↔ (8 ≤ d → p + 12 ≤ bs.length) := by
      constructor
      · intro h h8
        exact h p d rfl hd h8
      · rintro h q d' hq hd' h8
        cases hq
        cases hd.symm.trans hd'
        exact h h8
    rw [hroom]
    dsimp only
    rw [eval_bind, attrLen_eval hd, Option.bind_some]
    have hfour : ((readBytes (sstpAttrData p + 4) 4).eval (listMem bs)).isSome ↔
        4 = 0 ∨ 0 ≤ sstpAttrData p + 4 ∧ sstpAttrData p + 4 + (4 : ℕ) ≤ bs.length :=
      readBytes_isSome
    have hdata : sstpAttrData p = p + 4 := rfl
    split_ifs with h4
    · simp only [eval_pure, Option.isSome_some, true_iff]
      omega
    · have hstatus : ((do return some (ntohl (← readBytes (sstpAttrData p + 4) 4)) :
          ReadProg UInt8 (Option ℕ)).eval (listMem bs)).isSome ↔
            ((readBytes (sstpAttrData p + 4) 4).eval (listMem bs)).isSome := by
        rw [eval_bind]
        cases (readBytes (sstpAttrData p + 4) 4).eval (listMem bs) <;> simp
      rw [hstatus, hfour]
      omega

/-! ### On the packet alone -/

/-- What `OwnBytes` says, read off the packet without anything behind it. -/
structure Inside (bs : List UInt8) : Prop where
  type : ((sstpPktType bs.length).eval (listMem bs)).isSome
  parse : ∀ garbage, ((sstpPktParse bs.length garbage).eval (listMem bs)).isSome
  ack : ∀ garbage, ((sstpStateConnectAck bs.length garbage).eval (listMem bs)).isSome
  nak : ∀ garbage, ((sstpStateConnectNak bs.length garbage).eval (listMem bs)).isSome
  attrs : ∀ garbage attrs off,
    (sstpPktParse bs.length garbage).eval (listMem bs) = some (some (attrs, off)) →
      ∀ t p, attrs t = some p → ∃ d, (ntohs (p + 2)).eval (listMem bs) = some d ∧
        0 ≤ p ∧ 4 ≤ d ∧ p + d ≤ bs.length
  agree : ∀ garbage garbage', (sstpPktParse bs.length garbage).eval (listMem bs) =
    (sstpPktParse bs.length garbage').eval (listMem bs)

lemma reads_readsOf_iff {bs : List UInt8} (tail : List UInt8) (garbage : Attrs) :
    (∀ p ∈ readsOf bs.length garbage (listMem (bs ++ tail)), 0 ≤ p ∧ p < bs.length) ↔
      ((sstpPktType bs.length).eval (listMem bs)).isSome ∧
      ((sstpPktParse bs.length garbage).eval (listMem bs)).isSome ∧
      ((sstpStateConnectAck bs.length garbage).eval (listMem bs)).isSome ∧
      ((sstpStateConnectNak bs.length garbage).eval (listMem bs)).isSome := by
  simp only [← reads_inside_iff _ bs tail, readsOf, List.mem_append, or_assoc]
  constructor
  · intro h
    exact ⟨fun p hp => h p (.inl hp), fun p hp => h p (.inr (.inl hp)),
      fun p hp => h p (.inr (.inr (.inl hp))), fun p hp => h p (.inr (.inr (.inr hp)))⟩
  · rintro ⟨h1, h2, h3, h4⟩ p (hp | hp | hp | hp)
    · exact h1 p hp
    · exact h2 p hp
    · exact h3 p hp
    · exact h4 p hp

lemma meaningOf_append {bs : List UInt8} (h : Inside bs) (tail : List UInt8) (garbage : Attrs) :
    meaningOf bs.length garbage (listMem (bs ++ tail)) =
      meaningOf bs.length garbage (listMem bs) := by
  unfold meaningOf
  rw [eval_append_of_isSome h.type, eval_append_of_isSome (h.parse garbage),
    eval_append_of_isSome (h.ack garbage), eval_append_of_isSome (h.nak garbage)]

lemma ownBytes_of_inside {bs : List UInt8} (h : Inside bs) : OwnBytes bs where
  reads tail garbage :=
    (reads_readsOf_iff tail garbage).mpr ⟨h.type, h.parse garbage, h.ack garbage, h.nak garbage⟩
  attrs tail garbage attrs off hp t p ht := by
    rw [eval_append_of_isSome (h.parse garbage)] at hp
    obtain ⟨d, hd, hin⟩ := h.attrs garbage attrs off hp t p ht
    refine ⟨d, ?_, hin⟩
    rw [eval_append_of_isSome (by rw [hd]; rfl)]
    exact hd
  agree tail tail' garbage garbage' := by
    have hg := h.agree garbage garbage'
    rw [meaningOf_append h, meaningOf_append h, meaningOf, meaningOf, hg, ack_eval_congr hg,
      nak_eval_congr hg]

lemma inside_of_ownBytes {bs : List UInt8} (h : OwnBytes bs) : Inside bs := by
  have hall := fun garbage => (reads_readsOf_iff [] garbage).mp (h.reads [] garbage)
  simp only [forall_and] at hall
  obtain ⟨htype, hparse, hack, hnak⟩ := hall
  refine ⟨htype fun _ => none, hparse, hack, hnak, ?_, ?_⟩
  · intro garbage attrs off hp
    have := h.attrs [] garbage attrs off
    rw [List.append_nil] at this
    exact this hp
  · intro garbage garbage'
    have := h.agree [] [] garbage garbage'
    rw [List.append_nil] at this
    exact congrArg (fun r => r.2.1) this

/-! ### The condition decides it -/

/-- The array after a contained chain: entry 4 is set by the chain, the others are cleared
first. -/
lemma setAttrs_clear {n : ℕ} {es : List Entry} (h : Contained n es) (garbage : Attrs) :
    setAttrs (clearAttrs garbage) es = fun t => (lastOf es t).map Entry.pos := by
  funext t
  unfold setAttrs
  cases hl : lastOf es t with
  | some e => rfl
  | none =>
    have ht : t.val < sstpAttrMax := by
      by_contra hge
      have hval : t.val = 4 := by
        have hlt := t.isLt
        unfold sstpAttrMax at hlt hge
        omega
      have h4 : t = attrCryptoBindReq := Fin.ext hval
      have hreq := h.bindReq
      rw [← h4, hl] at hreq
      simp at hreq
    simp [clearAttrs, ht]

lemma inside_of_parse_none {bs : List UInt8}
    (ht : ((sstpPktType bs.length).eval (listMem bs)).isSome)
    (h : ∀ garbage, (sstpPktParse bs.length garbage).eval (listMem bs) = some none) :
    Inside bs where
  type := ht
  parse garbage := by rw [h]; rfl
  ack garbage := by rw [sstpStateConnectAck, eval_bind, h]; rfl
  nak garbage := by rw [sstpStateConnectNak, eval_bind, h]; rfl
  attrs garbage attrs off hp := by rw [h] at hp; simp at hp
  agree garbage garbage' := by rw [h, h]

lemma inside_of_chain {bs : List UInt8} {nattr : ℕ} {es : List Entry} {off : ℤ}
    (ht : ((sstpPktType bs.length).eval (listMem bs)).isSome)
    (hc : chain bs nattr 8 = some (some es)) (hcont : Contained bs.length es)
    (h : ∀ garbage, (sstpPktParse bs.length garbage).eval (listMem bs) =
      some (some (fun t => (lastOf es t).map Entry.pos, off))) : Inside bs := by
  -- an entry of the array is a header of the chain
  have hlen : ∀ t p, (lastOf es t).map Entry.pos = some p → ∃ e, lastOf es t = some e ∧
      e.pos = p ∧ (ntohs (p + 2)).eval (listMem bs) = some e.length := by
    intro t p hp
    obtain ⟨e, he, rfl⟩ := Option.map_eq_some_iff.mp hp
    exact ⟨e, he, rfl, lastOf_length hc he⟩
  refine ⟨ht, fun g => by rw [h]; rfl, fun g => ?_, fun g => ?_, ?_, fun g g' => by rw [h, h]⟩
  · refine ack_isSome (h g) fun p hp => ?_
    obtain ⟨e, he, rfl, hl⟩ := hlen _ p hp
    have hin := hcont.inside _ e he
    exact ⟨e.length, hl, fun h40 => ⟨hin.1, by omega⟩⟩
  · rw [nak_isSome (h g)]
    · intro p d hp hd h8
      obtain ⟨e, he, rfl, hl⟩ := hlen _ p hp
      cases hl.symm.trans hd
      exact hcont.status e he h8
    · intro p hp
      obtain ⟨e, he, rfl, hl⟩ := hlen _ p hp
      exact ⟨e.length, hl, (hcont.inside _ e he).1⟩
  · intro garbage attrs off' hp t p hat
    rw [h] at hp
    simp only [Option.some.injEq, Prod.mk.injEq] at hp
    rw [← hp.1] at hat
    obtain ⟨e, he, rfl, hl⟩ := hlen t p hat
    exact ⟨e.length, hl, hcont.inside t e he⟩

lemma inside_of_selfContained {bs : List UInt8} (h : SelfContained bs) : Inside bs := by
  rcases Nat.lt_or_ge bs.length 4 with h4 | h4
  · refine inside_of_parse_none ?_ fun g => parse_eval_short (by omega) g
    rw [sstpPktType, if_pos (by omega)]
    rfl
  obtain ⟨flags, hf, h⟩ := h.resolve_left (by omega)
  rcases h with hd | ⟨h6, h⟩
  · exact inside_of_parse_none ((type_isSome h4 hf).mpr fun hc => absurd hd hc)
      (parse_eval_data hf hd)
  have ht := (type_isSome h4 hf).mpr fun _ => h6
  rcases Nat.lt_or_ge bs.length 14 with h14 | h14
  · exact inside_of_parse_none ht (parse_eval_short h14)
  by_cases hc : msgFlagCtrl &&& flags = 0
  · exact inside_of_parse_none ht (parse_eval_data hf hc)
  obtain ⟨nattr, r, hn, hchain, hcont⟩ := h.resolve_left (by omega)
  have hparse := parse_eval_ctrl h14 hf hc hn
  simp only [hchain, Option.map_some] at hparse
  cases r with
  | none => exact inside_of_parse_none ht hparse
  | some es =>
    have harr : ∀ g, (sstpPktParse bs.length g).eval (listMem bs) =
        some (some (fun t => (lastOf es t).map Entry.pos, endOff 8 es)) := by
      intro g
      rw [hparse, Option.map_some, setAttrs_clear (hcont es rfl)]
    exact inside_of_chain ht hchain (hcont es rfl) harr

/-- From two arrays that differ in what they held before, the headers of an answered packet
are seen to set the entry that is not cleared. -/
lemma contained_of_inside {bs : List UInt8} {nattr : ℕ} {es : List Entry} (h : Inside bs)
    (hc : chain bs nattr 8 = some (some es))
    (hparse : ∀ garbage, (sstpPktParse bs.length garbage).eval (listMem bs) =
      some (some (setAttrs (clearAttrs garbage) es, endOff 8 es))) : Contained bs.length es := by
  have hin : ∀ t e, lastOf es t = some e → 0 ≤ e.pos ∧ 4 ≤ e.length ∧ e.pos + e.length ≤ bs.length := by
    intro t e he
    obtain ⟨d, hd, hin⟩ := h.attrs (fun _ => none) _ _ (hparse _) t e.pos (by simp [setAttrs, he])
    cases (lastOf_length hc he).symm.trans hd
    exact hin
  refine ⟨hin, ?_, ?_⟩
  · have hag := h.agree (fun _ => none) fun _ => some 0
    rw [hparse, hparse] at hag
    simp only [Option.some.injEq, Prod.mk.injEq, and_true] at hag
    have h4 := congrFun hag attrCryptoBindReq
    by_contra hno
    rw [Option.not_isSome_iff_eq_none] at hno
    simp only [setAttrs, hno, Option.map_none, Option.none_or] at h4
    exact absurd h4 (by decide)
  · intro e he h8
    have hpos : setAttrs (clearAttrs fun _ => none) es attrStatusInfo = some e.pos := by
      simp [setAttrs, he]
    have hnak := h.nak fun _ => none
    rw [nak_isSome (hparse _)] at hnak
    · exact hnak e.pos e.length hpos (lastOf_length hc he) h8
    · intro p hp
      rw [hpos, Option.some.injEq] at hp
      subst hp
      exact ⟨e.length, lastOf_length hc he, (hin _ e he).1⟩

lemma selfContained_of_inside {bs : List UInt8} (h : Inside bs) : SelfContained bs := by
  rcases Nat.lt_or_ge bs.length 4 with h4 | h4
  · exact .inl h4
  obtain ⟨flags, hf⟩ := Option.isSome_iff_exists.mp
    (listMem_isSome.mpr ⟨by omega, by omega⟩ : (listMem bs 1).isSome)
  refine .inr ⟨flags, hf, ?_⟩
  by_cases hc : msgFlagCtrl &&& flags = 0
  · exact .inl hc
  refine .inr ⟨(type_isSome h4 hf).mp h.type hc, ?_⟩
  rcases Nat.lt_or_ge bs.length 14 with h14 | h14
  · exact .inl h14
  obtain ⟨nattr, hn⟩ := Option.isSome_iff_exists.mp
    (ntohs_isSome.mpr ⟨by omega, by omega⟩ : ((ntohs 6).eval (listMem bs)).isSome)
  have hparse := parse_eval_ctrl h14 hf hc hn
  have hsome := h.parse fun _ => none
  rw [hparse, Option.isSome_map] at hsome
  obtain ⟨r, hr⟩ := Option.isSome_iff_exists.mp hsome
  refine .inr ⟨nattr, r, hn, hr, ?_⟩
  rintro es rfl
  simp only [hr, Option.map_some] at hparse
  exact contained_of_inside h hr hparse

/-- **Own bytes:** a received packet is interpreted from its own bytes exactly when it is
self-contained. -/
theorem ownBytes_iff_selfContained (bs : List UInt8) : OwnBytes bs ↔ SelfContained bs :=
  ⟨fun h => selfContained_of_inside (inside_of_ownBytes h),
    fun h => ownBytes_of_inside (inside_of_selfContained h)⟩

/-- A Call-Connect-Ack of 18 bytes whose Crypto-Binding-Request declares the right length, 40,
and stops after two bytes of the nonce. -/
def cutConnectAck : List UInt8 :=
  [0x10, 0x01, 0x00, 0x12, 0x00, 0x02, 0x00, 0x01, 0x00, 0x04, 0x00, 0x28, 0x00, 0x00, 0x00, 0x02,
    0xaa, 0xbb]

/-- The rest of the nonce is taken from what an earlier packet left behind it. -/
theorem cutConnectAck_not_ownBytes : ¬ OwnBytes cutConnectAck := by
  intro h
  have hread : (18 : ℤ) ∈ readsOf cutConnectAck.length (fun _ => none)
      (listMem (cutConnectAck ++ List.replicate 30 0)) := by decide +kernel
  exact absurd (h.reads _ _ _ hread).2 (by decide)

end SstpClient.PacketBounds
