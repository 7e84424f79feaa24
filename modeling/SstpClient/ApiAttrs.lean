import SstpClient.Lib.Bytes

/-!
Messages between the client and its plugin, `sstp-api.c`.

A message is a header of eight bytes and attributes, each of which is padded to a multiple of four;
what the padding holds is left as it was. The numbers are in the order of the host, low byte first.
-/

namespace SstpClient.ApiAttrs

open SstpClient.Lib.Bytes

/-- `sstp_api_attr_t`. -/
inductive SstpApiAttr
  | unknown | mppeSend | mppeRecv | gateway | addr
  deriving DecidableEq

def SstpApiAttr.code : SstpApiAttr → ℕ
  | .unknown => 0
  | .mppeSend => 1
  | .mppeRecv => 2
  | .gateway => 3
  | .addr => 4

/-- `SSTP_API_ATTR_MAX`. -/
def sstpApiAttrMax : ℕ := 4

/-- `ALIGN32`. -/
def align32 (n : ℕ) : ℕ := (n + 3) / 4 * 4

/-! ### Memory -/

/-- A `uint16_t` as it is stored. -/
def host16 (n : ℕ) : List UInt8 := [UInt8.ofNat n, UInt8.ofNat (n / 256)]

@[simp] lemma length_host16 (n : ℕ) : (host16 n).length = 2 := rfl

/-- The `uint16_t` at position `i`; `none` outside the memory. -/
def get16 (mem : List UInt8) (i : ℕ) : Option ℕ := do
  let lo ← mem[i]?
  let hi ← mem[i + 1]?
  return be16 hi lo

/-- Bytes stored at position `i`; `none` outside the memory. -/
def put (mem : List UInt8) (i : ℕ) (bytes : List UInt8) : Option (List UInt8) :=
  if i + bytes.length ≤ mem.length then some (splice mem i bytes) else none

lemma get16_append {x y : List UInt8} {i n : ℕ} (hx : x.length = i) (hn : n < 65536) :
    get16 (x ++ (host16 n ++ y)) i = some n := by
  have hlo : (x ++ (host16 n ++ y))[i]? = some (UInt8.ofNat n) := by
    rw [List.getElem?_append_right hx.le, hx, Nat.sub_self]
    rfl
  have hhi : (x ++ (host16 n ++ y))[i + 1]? = some (UInt8.ofNat (n / 256)) := by
    rw [List.getElem?_append_right (by omega), hx, Nat.add_sub_cancel_left]
    rfl
  unfold get16
  rw [hlo, hhi]
  change some (be16 _ _) = some n
  rw [be16_ofNat, Nat.mod_eq_of_lt hn]

lemma put_append {x y z bytes : List UInt8} {i : ℕ} (hx : x.length = i)
    (hy : y.length = bytes.length) : put (x ++ (y ++ z)) i bytes = some (x ++ (bytes ++ z)) := by
  unfold put
  rw [if_pos, splice_append hx hy]
  simp only [List.length_append]
  omega

/-! ### Building a message -/

/-- `SSTP_API_MSG_MAGIC`. -/
def sstpApiMsgMagic : List UInt8 := [0x70, 0x74, 0x73, 0x73]

def sstpApiMsgNew (buf : List UInt8) (type : ℕ) : Option (List UInt8) := do
  let buf ← put buf 0 sstpApiMsgMagic
  let buf ← put buf 6 (host16 type)
  put buf 4 (host16 0)

/-- `sstp_api_attr_add`; its `len` is the number of bytes of `data`. -/
def sstpApiAttrAdd (msg : List UInt8) (type : SstpApiAttr) (data : List UInt8) :
    Option (List UInt8) := do
  let msgLen ← get16 msg 4
  let attrLen := data.length % 65536
  let msg ← put msg (8 + msgLen) (host16 type.code ++ host16 attrLen)
  let msg ← put msg (8 + msgLen + 4) (data.take attrLen)
  put msg 4 (host16 (msgLen + (4 + align32 attrLen)))

/-! ### Reading it -/

/-- The loop of `sstp_api_attr_parse`, with `list` the positions that the pointers have; `none`:
memory outside the message or the list is touched. -/
def parseLoop (buf : List UInt8) (length : ℕ) : ℕ → ℕ → List (Option ℕ) →
    Option (ℤ × List (Option ℕ))
  | 0, _, _ => none
  | fuel + 1, index, list =>
    if index < length then do
      let attrType ← get16 buf index
      if sstpApiAttrMax < attrType ∨ attrType ≤ SstpApiAttr.unknown.code then return (-1, list)
      else if attrType < list.length then do
        let attrLen ← get16 buf (index + 2)
        parseLoop buf length fuel (index + (4 + align32 attrLen)) (list.set attrType (some index))
      else none
    else some (0, list)

/-- `sstp_api_attr_parse`; its `count` is the length of the list. The index grows in each round. -/
def sstpApiAttrParse (buf : List UInt8) (length : ℕ) (list : List (Option ℕ)) :
    Option (ℤ × List (Option ℕ)) :=
  parseLoop buf length (length + 1) 0 (list.map fun _ => none)

/-! ### What is built -/

structure ApiAttr where
  type : SstpApiAttr
  data : List UInt8
  deriving DecidableEq

/-- The bytes of an attribute in a message. -/
def ApiAttr.size (a : ApiAttr) : ℕ := 4 + align32 a.data.length

def attrsSize (as : List ApiAttr) : ℕ := (as.map ApiAttr.size).sum

/-- The bytes of the attributes, with any padding. -/
inductive Laid : List ApiAttr → List UInt8 → Prop
  | nil : Laid [] []
  | cons {a : ApiAttr} {pad : List UInt8} {as : List ApiAttr} {bytes : List UInt8}
    (hpad : a.data.length + pad.length = align32 a.data.length) (tail : Laid as bytes) :
    Laid (a :: as) (host16 a.type.code ++ (host16 a.data.length ++ (a.data ++ (pad ++ bytes))))

/-- The memory holds a message of the type with the attributes. -/
def Holds (mem : List UInt8) (type : ℕ) (as : List ApiAttr) : Prop :=
  ∃ bytes rest, Laid as bytes ∧
    mem = sstpApiMsgMagic ++ (host16 (attrsSize as) ++ (host16 type ++ (bytes ++ rest)))

lemma le_align32 (n : ℕ) : n ≤ align32 n := by
  unfold align32
  omega

lemma Laid.length {as : List ApiAttr} {bytes : List UInt8} (h : Laid as bytes) :
    bytes.length = attrsSize as := by
  induction h with
  | nil => rfl
  | cons hpad tail ih =>
    simp only [attrsSize, List.map_cons, List.sum_cons, ApiAttr.size, List.length_append,
      length_host16, ih]
    omega

lemma Laid.append {as bs : List ApiAttr} {x y : List UInt8} (hx : Laid as x) (hy : Laid bs y) :
    Laid (as ++ bs) (x ++ y) := by
  induction hx with
  | nil => exact hy
  | cons hpad tail ih =>
    simp only [List.append_assoc]
    exact .cons hpad ih

lemma attrsSize_append (as bs : List ApiAttr) :
    attrsSize (as ++ bs) = attrsSize as + attrsSize bs := by
  simp [attrsSize]

lemma holds_new {buf : List UInt8} (type : ℕ) (h : 8 ≤ buf.length) :
    ∃ msg, sstpApiMsgNew buf type = some msg ∧ msg.length = buf.length ∧ Holds msg type [] := by
  obtain ⟨magic, r, rfl, hmagic⟩ := exists_append (m := buf) (n := 4) (by omega)
  rw [List.length_append] at h
  obtain ⟨len, r', rfl, hlen⟩ := exists_append (m := r) (n := 2) (by omega)
  rw [List.length_append] at h
  obtain ⟨code, rest, rfl, hcode⟩ := exists_append (m := r') (n := 2) (by omega)
  refine ⟨sstpApiMsgMagic ++ (host16 0 ++ (host16 type ++ rest)), ?_, ?_, [], rest, .nil, rfl⟩
  · have hone : put (magic ++ (len ++ (code ++ rest))) 0 sstpApiMsgMagic =
        some (sstpApiMsgMagic ++ (len ++ (code ++ rest))) := put_append (x := []) rfl hmagic
    have htwo : put (sstpApiMsgMagic ++ (len ++ (code ++ rest))) 6 (host16 type) =
        some (sstpApiMsgMagic ++ (len ++ (host16 type ++ rest))) := by
      have h6 : (sstpApiMsgMagic ++ len).length = 6 := by
        rw [List.length_append, hlen]
        rfl
      simpa only [List.append_assoc] using put_append (z := rest) h6 hcode
    unfold sstpApiMsgNew
    rw [hone]
    change (put _ 6 _).bind _ = _
    rw [htwo]
    exact put_append rfl hlen
  · simp only [List.length_append, hmagic, hlen, hcode, length_host16]
    rfl

/-- **An attribute is added** behind the others. -/
lemma holds_add {msg : List UInt8} {type : ℕ} {as : List ApiAttr} (h : Holds msg type as)
    (a : ApiAttr) (hsize : attrsSize (as ++ [a]) < 65536)
    (hroom : 8 + attrsSize (as ++ [a]) ≤ msg.length) :
    ∃ msg', sstpApiAttrAdd msg a.type a.data = some msg' ∧ msg'.length = msg.length ∧
      Holds msg' type (as ++ [a]) := by
  obtain ⟨bytes, room, hlaid, rfl⟩ := h
  have hbytes := hlaid.length
  have hadd : attrsSize (as ++ [a]) = attrsSize as + (4 + align32 a.data.length) := by
    rw [attrsSize_append]
    simp [attrsSize, ApiAttr.size]
  have halign := le_align32 a.data.length
  simp only [List.length_append, length_host16, sstpApiMsgMagic, List.length_cons,
    List.length_nil] at hroom
  obtain ⟨hdr, r, rfl, hhdr⟩ := exists_append (m := room) (n := 4) (by omega)
  rw [List.length_append] at hroom
  obtain ⟨old, r', rfl, hold⟩ := exists_append (m := r) (n := a.data.length) (by omega)
  rw [List.length_append] at hroom
  obtain ⟨pad, rest, rfl, hpad⟩ :=
    exists_append (m := r') (n := align32 a.data.length - a.data.length) (by omega)
  have hlen : a.data.length % 65536 = a.data.length := Nat.mod_eq_of_lt (by omega)
  obtain ⟨attr, hattr⟩ : ∃ attr, attr = host16 a.type.code ++ host16 a.data.length := ⟨_, rfl⟩
  have hattrLen : attr.length = 4 := by
    rw [hattr]
    rfl
  -- the header in front of the attributes, which ends at position eight
  obtain ⟨front, hfront⟩ : ∃ front : ℕ → List UInt8, ∀ n, front n =
    sstpApiMsgMagic ++ (host16 n ++ (host16 type ++ bytes)) := ⟨_, fun _ => rfl⟩
  have hfrontLen : ∀ n, (front n).length = 8 + attrsSize as := by
    intro n
    rw [hfront]
    simp only [List.length_append, length_host16, sstpApiMsgMagic, List.length_cons,
      List.length_nil, hbytes]
    omega
  have hmem : ∀ n z,
    sstpApiMsgMagic ++ (host16 n ++ (host16 type ++ (bytes ++ z))) = front n ++ z := by
    intro n z
    rw [hfront]
    simp only [List.append_assoc]
  refine ⟨front (attrsSize (as ++ [a])) ++ (attr ++ (a.data ++ (pad ++ rest))), ?_, ?_, ?_⟩
  · have hget : get16 (front (attrsSize as) ++ (hdr ++ (old ++ (pad ++ rest)))) 4 =
        some (attrsSize as) := by
      rw [← hmem]
      exact get16_append rfl (by omega)
    have hone : put (front (attrsSize as) ++ (hdr ++ (old ++ (pad ++ rest)))) (8 + attrsSize as)
        attr = some (front (attrsSize as) ++ (attr ++ (old ++ (pad ++ rest)))) :=
      put_append (hfrontLen _) (hhdr.trans hattrLen.symm)
    have htwo : put (front (attrsSize as) ++ (attr ++ (old ++ (pad ++ rest))))
        (8 + attrsSize as + 4) a.data =
          some (front (attrsSize as) ++ (attr ++ (a.data ++ (pad ++ rest)))) := by
      have hx : (front (attrsSize as) ++ attr).length = 8 + attrsSize as + 4 := by
        rw [List.length_append, hfrontLen, hattrLen]
      simpa only [List.append_assoc] using put_append (z := pad ++ rest) hx hold
    unfold sstpApiAttrAdd
    rw [hmem, hget]
    change (put _ (8 + attrsSize as) _).bind _ = _
    rw [hlen, ← hattr, hone]
    change (put _ (8 + attrsSize as + 4) _).bind _ = _
    rw [List.take_length, htwo, ← hadd]
    change put _ 4 _ = _
    rw [← hmem, ← hmem]
    exact put_append rfl rfl
  · rw [← hmem]
    simp only [List.length_append, length_host16, hattrLen, hhdr, hold]
  · refine ⟨bytes ++ (attr ++ (a.data ++ pad)), rest, ?_, ?_⟩
    · have hone : Laid [a] (host16 a.type.code ++ (host16 a.data.length ++ (a.data ++ (pad ++ [])))) :=
        .cons (by omega) .nil
      rw [List.append_nil, ← List.append_assoc, ← hattr] at hone
      exact hlaid.append hone
    · rw [hfront]
      simp only [List.append_assoc]

/-- A message with the attributes, built in a buffer. -/
def build (buf : List UInt8) (type : ℕ) (as : List ApiAttr) : Option (List UInt8) := do
  let msg ← sstpApiMsgNew buf type
  as.foldlM (fun msg a => sstpApiAttrAdd msg a.type a.data) msg

/-- **The whole message**, attribute after attribute. -/
lemma holds_build {buf : List UInt8} (type : ℕ) {as : List ApiAttr} (hsize : attrsSize as < 65536)
    (hroom : 8 + attrsSize as ≤ buf.length) :
    ∃ msg, build buf type as = some msg ∧ Holds msg type as := by
  have h8 : 8 ≤ buf.length := by omega
  obtain ⟨msg, hnew, hlen, hmsg⟩ := holds_new type h8
  have hadd : ∀ (bs done : List ApiAttr) (msg : List UInt8), Holds msg type done →
      attrsSize (done ++ bs) < 65536 → 8 + attrsSize (done ++ bs) ≤ msg.length →
        ∃ msg', bs.foldlM (fun msg a => sstpApiAttrAdd msg a.type a.data) msg = some msg' ∧
          Holds msg' type (done ++ bs) := by
    intro bs
    induction bs with
    | nil =>
      intro done msg h _ _
      rw [List.append_nil]
      exact ⟨msg, rfl, h⟩
    | cons a bs ih =>
      intro done msg h hs hr
      have hsplit : done ++ a :: bs = (done ++ [a]) ++ bs := by simp
      rw [hsplit] at hs hr ⊢
      have hle : attrsSize (done ++ [a]) ≤ attrsSize ((done ++ [a]) ++ bs) := by
        rw [attrsSize_append (done ++ [a])]
        omega
      obtain ⟨msg', heq, hlen', hmsg'⟩ := holds_add h a (by omega) (by omega)
      obtain ⟨msg'', hrest, hholds⟩ := ih _ msg' hmsg' hs (by omega)
      refine ⟨msg'', ?_, hholds⟩
      rw [List.foldlM_cons, heq]
      exact hrest
  obtain ⟨msg', hfold, hholds⟩ := hadd as [] msg hmsg hsize (by rw [List.nil_append]; omega)
  refine ⟨msg', ?_, hholds⟩
  unfold build
  rw [hnew]
  exact hfold

/-! ### What is read back -/

/-- The attribute at position `p` of the payload. -/
structure AttrAt (payload : List UInt8) (p : ℕ) (a : ApiAttr) : Prop where
  type : get16 payload p = some a.type.code
  len : get16 payload (p + 2) = some a.data.length
  data : (payload.drop (p + 4)).take a.data.length = a.data

/-- The list points to each attribute, and to nothing else. -/
structure Lists (payload : List UInt8) (as : List ApiAttr) (list : List (Option ℕ)) : Prop where
  present : ∀ a ∈ as, ∃ p, list[a.type.code]? = some (some p) ∧ AttrAt payload p a
  absent : ∀ t : SstpApiAttr, (∀ a ∈ as, a.type ≠ t) → list[t.code]? = some none

lemma code_injective : Function.Injective SstpApiAttr.code := by
  intro s t h
  cases s <;> cases t <;> first | rfl | cases h

lemma code_range {t : SstpApiAttr} : t.code ≤ sstpApiAttrMax ∧ (t ≠ .unknown → 0 < t.code) := by
  cases t <;> decide

/-- The loop over the attributes that are left, with `x` the bytes before them. The position that the
list has for a type is that of its attribute, if there is one left. -/
lemma parseLoop_laid {as : List ApiAttr} {bytes : List UInt8} (h : Laid as bytes)
    (htypes : ∀ a ∈ as, a.type ≠ .unknown) (hdistinct : (as.map ApiAttr.type).Nodup)
    (hsize : ∀ a ∈ as, a.data.length < 65536) (x : List UInt8) {list : List (Option ℕ)}
    (hlist : sstpApiAttrMax < list.length) {fuel : ℕ} (hfuel : bytes.length < fuel) :
    ∃ out, parseLoop (x ++ bytes) (x ++ bytes).length fuel x.length list = some (0, out) ∧
      (∀ a ∈ as, ∃ p, out[a.type.code]? = some (some p) ∧ AttrAt (x ++ bytes) p a) ∧
      ∀ t : SstpApiAttr, (∀ a ∈ as, a.type ≠ t) → out[t.code]? = list[t.code]? := by
  induction h generalizing x list fuel with
  | nil =>
    obtain ⟨fuel, rfl⟩ : ∃ m, fuel = m + 1 := ⟨fuel - 1, by simp at hfuel; omega⟩
    refine ⟨list, ?_, fun a ha => absurd ha List.not_mem_nil, fun _ _ => rfl⟩
    rw [List.append_nil, parseLoop, if_neg (lt_irrefl _)]
  | @cons a pad as bytes hpad tail ih =>
    obtain ⟨fuel, rfl⟩ : ∃ m, fuel = m + 1 := ⟨fuel - 1, by omega⟩
    have ha := List.mem_cons_self (a := a) (l := as)
    obtain ⟨hcode, hpos⟩ := code_range (t := a.type)
    have hpos' := hpos (htypes a ha)
    set one := host16 a.type.code ++ (host16 a.data.length ++ (a.data ++ pad)) with hone
    have honeLen : one.length = 4 + align32 a.data.length := by
      rw [hone]
      simp only [List.length_append, length_host16]
      omega
    have hmem : x ++ (host16 a.type.code ++ (host16 a.data.length ++ (a.data ++ (pad ++ bytes)))) =
        (x ++ one) ++ bytes := by
      rw [hone]
      simp only [List.append_assoc]
    have hat : AttrAt ((x ++ one) ++ bytes) x.length a := by
      rw [← hmem]
      refine ⟨get16_append rfl (by unfold sstpApiAttrMax at hcode; omega), ?_, ?_⟩
      · have hx : (x ++ host16 a.type.code).length = x.length + 2 := by simp
        have hget := get16_append (y := a.data ++ (pad ++ bytes)) hx (hsize a ha)
        simpa only [List.append_assoc] using hget
      · have hx : (x ++ (host16 a.type.code ++ host16 a.data.length)).length = x.length + 4 := by
          simp
        have hsplit : x ++ (host16 a.type.code ++ (host16 a.data.length ++ (a.data ++ (pad ++ bytes)))) =
            (x ++ (host16 a.type.code ++ host16 a.data.length)) ++ (a.data ++ (pad ++ bytes)) := by
          simp only [List.append_assoc]
        rw [hsplit, List.drop_left' hx, List.take_left' rfl]
    obtain ⟨hnot, hdistinct'⟩ := List.nodup_cons.mp hdistinct
    have hother : ∀ b ∈ as, b.type ≠ a.type := fun b hb heq =>
      hnot (List.mem_map.mpr ⟨b, hb, heq⟩)
    simp only [List.length_append, length_host16] at hfuel
    obtain ⟨out, hloop, hpresent, habsent⟩ : ∃ out,
        parseLoop ((x ++ one) ++ bytes) ((x ++ one) ++ bytes).length fuel (x ++ one).length
            (list.set a.type.code (some x.length)) = some (0, out) ∧ _ ∧ _ :=
      ih (fun b hb => htypes b (List.mem_cons_of_mem _ hb)) hdistinct'
        (fun b hb => hsize b (List.mem_cons_of_mem _ hb)) (x ++ one)
        (by rw [List.length_set]; exact hlist) (by omega)
    rw [hmem]
    refine ⟨out, ?_, ?_, ?_⟩
    · have hin : x.length < ((x ++ one) ++ bytes).length := by
        rw [List.length_append, List.length_append]
        omega
      rw [parseLoop, if_pos hin, hat.type]
      change (if _ then _ else _) = _
      rw [if_neg (by change ¬(_ ∨ _ ≤ 0); omega), if_pos (by omega), hat.len]
      change parseLoop _ _ fuel (x.length + (4 + align32 a.data.length)) _ = _
      rw [← honeLen, ← List.length_append]
      exact hloop
    · intro b hb
      rcases List.mem_cons.mp hb with rfl | hb
      · refine ⟨x.length, ?_, hat⟩
        rw [habsent _ hother, List.getElem?_set_self (by omega)]
      · exact hpresent b hb
    · intro t ht
      have hne : a.type.code ≠ t.code := fun heq => ht a ha (code_injective heq)
      rw [habsent t fun b hb => ht b (List.mem_cons_of_mem _ hb), List.getElem?_set_ne hne]

/-- **Round trip** of the attributes of a message: what has been added is found under its type, with
its length and data, and nothing else is. -/
theorem parse_build {as : List ApiAttr} (htypes : ∀ a ∈ as, a.type ≠ .unknown)
    (hdistinct : (as.map ApiAttr.type).Nodup) (hsize : attrsSize as ≤ 65535) (type : ℕ)
    {buf : List UInt8} (hroom : 8 + attrsSize as ≤ buf.length) {list : List (Option ℕ)}
    (hlist : list.length = sstpApiAttrMax + 1) :
    ∃ msg msgLen out, build buf type as = some msg ∧ get16 msg 4 = some msgLen ∧
      sstpApiAttrParse ((msg.drop 8).take msgLen) msgLen list = some (0, out) ∧
        Lists ((msg.drop 8).take msgLen) as out := by
  obtain ⟨msg, hbuild, bytes, rest, hlaid, hmsg⟩ := holds_build type (by omega) hroom
  have hlen := hlaid.length
  have hpayload : (msg.drop 8).take (attrsSize as) = bytes := by
    have hhead : (sstpApiMsgMagic ++ (host16 (attrsSize as) ++ host16 type)).length = 8 := rfl
    have hsplit : msg = (sstpApiMsgMagic ++ (host16 (attrsSize as) ++ host16 type)) ++
        (bytes ++ rest) := by
      rw [hmsg]
      simp only [List.append_assoc]
    rw [hsplit, List.drop_left' hhead, List.take_left' hlen]
  have hget : get16 msg 4 = some (attrsSize as) := by
    rw [hmsg]
    exact get16_append rfl (by omega)
  have hshort : ∀ a ∈ as, a.data.length < 65536 := by
    intro a ha
    have hle : a.size ≤ attrsSize as := List.single_le_sum (by simp) _ (List.mem_map_of_mem ha)
    have halign := le_align32 a.data.length
    unfold ApiAttr.size at hle
    omega
  obtain ⟨out, hloop, hpresent, habsent⟩ : ∃ out,
      parseLoop ([] ++ bytes) ([] ++ bytes).length (bytes.length + 1) ([] : List UInt8).length
        (list.map fun _ => none) = some (0, out) ∧ _ ∧ _ :=
    parseLoop_laid hlaid htypes hdistinct hshort [] (by rw [List.length_map]; omega) (by omega)
  refine ⟨msg, attrsSize as, out, hbuild, hget, ?_, ?_⟩
  · rw [hpayload, ← hlen]
    exact hloop
  · rw [hpayload]
    refine ⟨hpresent, fun t ht => ?_⟩
    have hcode := (code_range (t := t)).1
    rw [habsent t ht, List.getElem?_map, List.getElem?_eq_getElem (by omega)]
    rfl

/-- The answer of the client to its plugin. -/
def gatewayAddr : List ApiAttr := [⟨.gateway, [118, 112, 110, 46, 110]⟩, ⟨.addr, [10, 0, 0, 1]⟩]

theorem parse_build_gatewayAddr :
    ∃ msg msgLen out, build (List.replicate 255 0xff) 3 gatewayAddr = some msg ∧
      get16 msg 4 = some msgLen ∧
        sstpApiAttrParse ((msg.drop 8).take msgLen) msgLen (List.replicate 5 none) = some (0, out) ∧
          Lists ((msg.drop 8).take msgLen) gatewayAddr out :=
  parse_build (by decide) (by decide) (by decide) 3 (by rw [List.length_replicate]; decide) rfl

end SstpClient.ApiAttrs
