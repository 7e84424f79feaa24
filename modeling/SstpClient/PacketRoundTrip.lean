import SstpClient.Packet

/-!
What comes back from a control packet built attribute by attribute.

`sstp_pkt_parse` takes the length of an attribute for the position of the next one, where it
should have added it to the position of this one. The position it ends at is therefore the
encoded length of a single attribute, and never the length of the packet.
-/

namespace SstpClient.PacketRoundTrip

open SstpClient.Lib.Bytes SstpClient.Lib.Footprint SstpClient.Lib.Footprint.ReadProg
open SstpClient.Buffer SstpClient.Packet

/-- An attribute to append: its type and its data. -/
abbrev Attr := UInt8 × List UInt8

/-- One `sstp_pkt_attr` per attribute; `none` when one of them does not return `SSTP_OKAY`. -/
def appendAttrs : Buff → List Attr → Option Buff
  | b, [] => some b
  | b, (type, data) :: as =>
    match sstpPktAttr b type data with
    | some (.okay, b') => appendAttrs b' as
    | _ => none

/-- `sstp_pkt_init` and one `sstp_pkt_attr` per attribute. -/
def buildCtrl (b : Buff) (type : SstpMsg) (as : List Attr) : Option Buff :=
  match sstpPktInit b type with
  | (.okay, b') => appendAttrs b' as
  | _ => none

/-- The size of the attributes `as`, each with its header. -/
def attrsSize (as : List Attr) : ℕ := (as.map fun a => 4 + a.2.length).sum

/-- The size of the packet with the attributes `as`. -/
def encodedSize (as : List Attr) : ℕ := 8 + attrsSize as

/-- Messages to which the round trip applies: a control packet whose attributes have distinct
types in `1..4` and at least two bytes of data, in a buffer that holds it. The 16-bit length
field can say how long the packet is. -/
structure Encodable (b : Buff) (type : SstpMsg) (as : List Attr) : Prop where
  ctrl : type ≠ .data
  distinct : (as.map Prod.fst).Nodup
  types : ∀ a ∈ as, 1 ≤ a.1.toNat ∧ a.1.toNat ≤ 4
  data : ∀ a ∈ as, 2 ≤ a.2.length
  fits : encodedSize as ≤ b.max
  size_le : encodedSize as ≤ 65535

/-- Parsing the packet built from `as` gives `as` back: `attrs[t]` is set exactly for the types
in the list, with the data appended, and parsing ends at the end of the packet. The array
`garbage` is what the caller's `attrs` held before. -/
def RoundTrips (b : Buff) (type : SstpMsg) (as : List Attr) (garbage : Attrs) : Prop :=
  ∃ b' attrs off, buildCtrl b type as = some b' ∧
    (sstpPktParse b'.len garbage).eval (listMem b'.data) = some (some (attrs, off)) ∧
    (∀ t : Fin (sstpAttrMax + 1), (attrs t).isSome ↔ ∃ a ∈ as, a.1.toNat = t) ∧
    (∀ a ∈ as, ∀ t : Fin (sstpAttrMax + 1), a.1.toNat = t → ∃ p, attrs t = some p ∧
      (sstpAttrLen p).eval (listMem b'.data) = some (a.2.length : ℤ) ∧
      (readBytes (sstpAttrData p) a.2.length).eval (listMem b'.data) = some a.2) ∧
    off = b'.len

/-! ### The length of the packet built -/

/-- Appending an attribute adds the length `sstp_pkt_attr` computes for it. -/
lemma len_pktAttr {b b' : Buff} {type : UInt8} {data : List UInt8}
    (h : sstpPktAttr b type data = some (.okay, b')) :
    b'.len = b.len + toShort (data.length + 4) := by
  unfold sstpPktAttr at h
  simp only [ne_eq, ite_not, Option.bind_eq_bind, Option.pure_def] at h
  split_ifs at h with hs hf
  · simp at h
  · obtain ⟨b1, h1, h⟩ := Option.bind_eq_some_iff.mp h
    obtain ⟨b2, h2, h⟩ := Option.bind_eq_some_iff.mp h
    obtain ⟨b3, h3, h⟩ := Option.bind_eq_some_iff.mp h
    obtain ⟨b4, h4, h⟩ := Option.bind_eq_some_iff.mp h
    obtain ⟨-, -, e1, -⟩ := write_eq_some h1
    obtain ⟨-, -, e2, -⟩ := write_eq_some h2
    obtain ⟨-, -, e3, -⟩ := write_eq_some h3
    obtain ⟨-, -, e4, -⟩ := write_eq_some h4
    cases h
    rw [e4, e3, e2, e1]
  · simp at h

/-- What `sstp_pkt_attr` adds up for the attributes `as`, in its `short` lengths. -/
def shortSize (as : List Attr) : ℤ := (as.map fun a => toShort (a.2.length + 4)).sum

lemma attrsSize_cons (a : Attr) (as : List Attr) :
    attrsSize (a :: as) = 4 + a.2.length + attrsSize as := by simp [attrsSize]

lemma shortSize_cons (a : Attr) (as : List Attr) :
    shortSize (a :: as) = toShort (a.2.length + 4) + shortSize as := by
  rw [shortSize, List.map_cons]
  exact List.sum_cons

lemma len_appendAttrs {b b' : Buff} {as : List Attr} (h : appendAttrs b as = some b') :
    b'.len = b.len + shortSize as := by
  induction as generalizing b with
  | nil => cases h; simp [shortSize]
  | cons a as ih =>
    simp only [appendAttrs] at h
    split at h
    · next b1 h1 =>
      rw [ih h, len_pktAttr h1, shortSize_cons]
      ring
    · cases h

lemma len_pktInit {b b' : Buff} {type : SstpMsg} (ht : type ≠ .data)
    (h : sstpPktInit b type = (.okay, b')) : b'.len = 8 := by
  unfold sstpPktInit at h
  simp only [ht, ne_eq, not_false_eq_true, if_true] at h
  split_ifs at h <;> cases h
  rfl

lemma len_buildCtrl {b b' : Buff} {type : SstpMsg} {as : List Attr} (ht : type ≠ .data)
    (h : buildCtrl b type as = some b') :
    b'.len = 8 + shortSize as := by
  unfold buildCtrl at h
  split at h
  · next b1 h1 => rw [len_appendAttrs h, len_pktInit ht h1]
  · cases h

/-- The `short` lengths add up to the size of the attributes, unless one of them wraps around;
then they fall short of it by `2 ^ 16`. -/
lemma shortSize_cases (as : List Attr) :
    shortSize as = attrsSize as ∨ shortSize as + 65536 ≤ attrsSize as ∨ 65536 ≤ attrsSize as := by
  induction as with
  | nil => simp [shortSize, attrsSize]
  | cons a as ih =>
    rw [shortSize_cons, attrsSize_cons]
    by_cases h1 : (a.2.length : ℤ) + 4 < 32768
    · rw [toShort_of_lt (by omega) h1]
      rcases ih with ih | ih | ih <;> push_cast <;> omega
    · by_cases h2 : (a.2.length : ℤ) + 4 < 65536
      · rw [toShort_of_ge (by omega) (by omega)]
        rcases ih with ih | ih | ih <;> push_cast <;> omega
      · right; right; omega

/-! ### Where parsing ends -/

/-- The loop ends at the length of the attribute it met last, which is still in the array. -/
lemma parseLoop_off {m : ℤ → Option UInt8} {k : ℕ} {index off : ℤ} {attrs attrs' : Attrs}
    (h : (parseLoop (k + 1) index attrs).eval m = some (some (attrs', off))) :
    ∃ t p d, attrs' t = some p ∧ (ntohs (p + 2)).eval m = some d ∧ off = toShort d := by
  induction k generalizing index attrs with
  | zero =>
    rw [parseLoop, eval_bind] at h
    obtain ⟨type, -, h⟩ := Option.bind_eq_some_iff.mp h
    split_ifs at h with ht
    · rw [eval_bind] at h
      obtain ⟨d, hd, h⟩ := Option.bind_eq_some_iff.mp h
      simp only [parseLoop, eval_pure, Option.some.injEq, Prod.mk.injEq] at h
      refine ⟨⟨type.toNat, ht⟩, index, d, ?_, hd, h.2.symm⟩
      rw [← h.1, Function.update_self]
    · simp at h
  | succ k ih =>
    rw [parseLoop, eval_bind] at h
    obtain ⟨type, -, h⟩ := Option.bind_eq_some_iff.mp h
    split_ifs at h with ht
    · rw [eval_bind] at h
      obtain ⟨d, -, h⟩ := Option.bind_eq_some_iff.mp h
      exact ih h
    · simp at h

/-- A successful parse saw at least the smallest packet, and ended behind the header without
any attribute, or at the length of an attribute in the array. -/
lemma pktParse_off {m : ℤ → Option UInt8} {len off : ℤ} {attrs attrs' : Attrs}
    (h : (sstpPktParse len attrs).eval m = some (some (attrs', off))) :
    14 ≤ len ∧ (off = 8 ∨
      ∃ t p d, attrs' t = some p ∧ (ntohs (p + 2)).eval m = some d ∧ off = toShort d) := by
  unfold sstpPktParse at h
  split_ifs at h with hlen
  · simp at h
  · refine ⟨by omega, ?_⟩
    rw [eval_bind] at h
    obtain ⟨flags, -, h⟩ := Option.bind_eq_some_iff.mp h
    split_ifs at h with hf
    · simp at h
    · rw [eval_bind] at h
      obtain ⟨nattr, -, h⟩ := Option.bind_eq_some_iff.mp h
      cases nattr with
      | zero =>
        simp only [parseLoop, eval_pure, Option.some.injEq, Prod.mk.injEq] at h
        exact Or.inl h.2.symm
      | succ k => exact Or.inr (parseLoop_off h)

lemma le_attrsSize {as : List Attr} {a : Attr} (h : a ∈ as) : 4 + a.2.length ≤ attrsSize as :=
  List.single_le_sum (by simp) _ (List.mem_map_of_mem h)

/-- No packet that fits its buffer is parsed up to its end. -/
lemma off_ne_len {b : Buff} {type : SstpMsg} {as : List Attr} {garbage : Attrs}
    (ht : type ≠ .data) (hfit : encodedSize as ≤ 65535) : ¬ RoundTrips b type as garbage := by
  rintro ⟨b', attrs, off, hb, hp, hset, hdata, hoff⟩
  have hlen := len_buildCtrl ht hb
  obtain ⟨h14, h8 | ⟨t, p, d, hat, hd, hod⟩⟩ := pktParse_off hp
  · omega
  -- the attribute met last is one of the list, so `off` is its encoded length
  obtain ⟨a, ha, hta⟩ := (hset t).mp (by simp [hat])
  obtain ⟨p', hat', hal, -⟩ := hdata a ha t hta
  have hpp : p' = p := Option.some.inj (hat'.symm.trans hat)
  subst hpp
  simp only [sstpAttrLen, eval_bind, hd, Option.bind_some, eval_pure, Option.some.injEq] at hal
  have hle : toShort (d : ℤ) ≤ d := toShort_le (by omega)
  have hge := le_attrsSize ha
  unfold encodedSize at hfit
  rcases shortSize_cases as with hs | hs | hs <;> omega

/-- **Attributes do not round-trip.** Whatever control packet is built, parsing it does not
give its attributes back and end at its end. -/
theorem ctrl_round_trip_never {b : Buff} {type : SstpMsg} {as : List Attr}
    (h : Encodable b type as) (garbage : Attrs) : ¬ RoundTrips b type as garbage :=
  off_ne_len h.ctrl h.size_le

/-- The Call-Connect-Request of the client: one attribute, in a buffer of 16384 bytes. -/
lemma connectReq_encodable :
    Encodable (sstpBuffCreate 16384) .connectReq [(0x01, [0x00, 0x01])] where
  ctrl := by decide
  distinct := by simp
  types := by simp
  data := by simp
  fits := by simp [encodedSize, attrsSize]
  size_le := by simp [encodedSize, attrsSize]

theorem ctrl_round_trip_never_connectReq :
    ¬ RoundTrips (sstpBuffCreate 16384) .connectReq [(0x01, [0x00, 0x01])] fun _ => none :=
  ctrl_round_trip_never connectReq_encodable _

/-- The Call-Connect-Request is a packet to which the round trip applies, and fails. -/
theorem connectReq_no_round_trip :
    Encodable (sstpBuffCreate 16384) .connectReq [(0x01, [0x00, 0x01])] ∧
      ¬ RoundTrips (sstpBuffCreate 16384) .connectReq [(0x01, [0x00, 0x01])] fun _ => none :=
  ⟨connectReq_encodable, off_ne_len (by decide) (by simp [encodedSize, attrsSize])⟩

/-- It is 14 bytes long, and parsing it ends at position 6. -/
example : (buildCtrl (sstpBuffCreate 16) .connectReq [(0x01, [0x00, 0x01])]).map (fun b =>
    (b.len, ((sstpPktParse b.len fun _ => none).eval (listMem b.data)).map (·.map Prod.snd))) =
      some (14, some (some 6)) := by decide +kernel

end SstpClient.PacketRoundTrip
