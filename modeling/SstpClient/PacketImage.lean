import SstpClient.PacketRoundTrip

/-!
The bytes of a control packet while it is built.

After `sstp_pkt_init` and after every `sstp_pkt_attr` the buffer holds the packet with the
attributes so far: the header, the type, the number of attributes, and the attributes.
-/

namespace SstpClient.PacketImage

open SstpClient.Lib.Bytes SstpClient.Buffer SstpClient.Packet SstpClient.PacketRoundTrip

/-- An attribute with its header. -/
def encodeAttr (a : Attr) : List UInt8 := [0, a.1] ++ htons (a.2.length + 4) ++ a.2

/-- The attributes of a packet. -/
def encodeAttrs (as : List Attr) : List UInt8 := as.flatMap encodeAttr

/-- A control packet. -/
def image (type : SstpMsg) (as : List Attr) : List UInt8 :=
  [protoVer, msgFlagCtrl] ++ (htons (encodedSize as) ++ (htons type.code ++
    (htons as.length ++ encodeAttrs as)))

/-- The buffer holds the packet. -/
structure Built (b : Buff) (type : SstpMsg) (as : List Attr) : Prop where
  len : b.len = encodedSize as
  off : b.off = 0
  bytes : image type as <+: b.data

lemma length_encodeAttrs (as : List Attr) : (encodeAttrs as).length = attrsSize as := by
  unfold encodeAttrs attrsSize
  rw [List.length_flatMap]
  refine congrArg List.sum (List.map_congr_left fun a _ => ?_)
  simp only [encodeAttr, List.length_append, List.length_cons, List.length_nil, length_htons]

lemma length_image (type : SstpMsg) (as : List Attr) :
    (image type as).length = encodedSize as := by
  unfold image encodedSize
  simp only [List.length_append, length_encodeAttrs, List.length_cons, List.length_nil,
    length_htons]
  omega

lemma encodedSize_append (as : List Attr) (a : Attr) :
    encodedSize (as ++ [a]) = encodedSize as + (4 + a.2.length) := by
  unfold encodedSize attrsSize
  rw [List.map_append, List.sum_append]
  simp only [List.map_cons, List.map_nil, List.sum_cons, List.sum_nil]
  omega

lemma encodeAttrs_append (as : List Attr) (a : Attr) :
    encodeAttrs (as ++ [a]) = encodeAttrs as ++ encodeAttr a := by
  unfold encodeAttrs
  rw [List.flatMap_append, List.flatMap_singleton]

/-- What is sent of the buffer is the packet. -/
lemma Built.take {b : Buff} {type : SstpMsg} {as : List Attr} (h : Built b type as) :
    b.data.take b.len.toNat = image type as := by
  rw [h.len, Int.toNat_natCast, ← length_image type as]
  exact (List.prefix_iff_eq_take.mp h.bytes).symm

/-- **`sstp_pkt_init`** begins a packet without attributes. -/
theorem built_init {b : Buff} (type : SstpMsg) (ht : type ≠ .data) (h : 8 ≤ b.max) :
    ∃ b', sstpPktInit b type = (.okay, b') ∧ Built b' type [] ∧ b'.max = b.max := by
  have h8 : 8 ≤ b.data.length := by
    unfold Buff.max at h
    exact_mod_cast h
  obtain ⟨x, r, hx, hxlen⟩ := exists_append (m := b.data) (n := 2) (by omega)
  rw [hx, List.length_append] at h8
  obtain ⟨y, r', hy, hylen⟩ := exists_append (m := r) (n := 2) (by omega)
  rw [hy, List.length_append] at h8
  obtain ⟨z, rest, hz, hzlen⟩ := exists_append (m := r') (n := 4) (by omega)
  -- the flags, the type with no attributes, and the length
  have hdata : splice (splice (splice b.data 0 [protoVer, msgFlagCtrl]) 4
      (htons type.code ++ htons 0)) 2 (htons 8) =
        [protoVer, msgFlagCtrl] ++ (htons 8 ++ ((htons type.code ++ htons 0) ++ rest)) := by
    have hflags : splice (x ++ (y ++ (z ++ rest))) 0 [protoVer, msgFlagCtrl] =
        ([protoVer, msgFlagCtrl] ++ y) ++ (z ++ rest) := by
      rw [List.append_assoc]
      exact splice_append (p := []) rfl hxlen
    have hfour : ([protoVer, msgFlagCtrl] ++ y).length = 4 := by
      rw [List.length_append, hylen]
      rfl
    rw [hx, hy, hz, hflags, splice_append hfour hzlen, List.append_assoc]
    exact splice_append rfl hylen
  refine ⟨_, pktInit_ctrl ht h, ⟨rfl, rfl, ?_⟩, ?_⟩
  · refine ⟨rest, ?_⟩
    change _ = splice (splice (splice b.data 0 _) 4 _) 2 (htons 8)
    rw [hdata]
    rfl
  · change ((splice (splice (splice b.data 0 _) 4 _) 2 (htons 8)).length : ℤ) = b.data.length
    rw [hdata, hx, hy, hz]
    simp only [List.length_append, length_htons, hxlen, hylen, hzlen, List.length_cons,
      List.length_nil]

/-- The number of attributes in the header. -/
lemma Built.count {b : Buff} {type : SstpMsg} {as : List Attr} (h : Built b type as)
    (hcount : as.length < 65536) : be16 (b.byte 6) (b.byte 7) = as.length := by
  obtain ⟨rest, hdata⟩ := h.bytes
  have hmod : ((as.length : ℤ) % 65536).toNat = as.length := by omega
  have h6 : b.byte 6 = UInt8.ofNat (((as.length : ℤ) % 65536).toNat / 256) := by
    rw [Buff.byte, ← hdata]
    rfl
  have h7 : b.byte 7 = UInt8.ofNat ((as.length : ℤ) % 65536).toNat := by
    rw [Buff.byte, ← hdata]
    rfl
  rw [h6, h7, hmod, be16_ofNat, Nat.mod_eq_of_lt hcount]

/-- The four writes of `sstp_pkt_attr`, to the parts of the buffer that they replace. -/
lemma splice_attr {flags size code count body hdr old size' count' attr data : List UInt8}
    (hflags : flags.length = 2) (hsize : size.length = 2) (hcode : code.length = 2)
    (hcount : count.length = 2) (hhdr : hdr.length = 4) (hold : old.length = data.length)
    (hsize' : size'.length = 2) (hcount' : count'.length = 2) (hattr : attr.length = 4) {n : ℕ}
    (hn : 8 + body.length = n) (more : List UInt8) :
    splice (splice (splice (splice
      (flags ++ (size ++ (code ++ (count ++ (body ++ (hdr ++ (old ++ more))))))) 6 count') n attr)
        (n + 4) data) 2 size' =
      flags ++ (size' ++ (code ++ (count' ++ (body ++ (attr ++ (data ++ more)))))) := by
  have hsix : (flags ++ (size ++ code)).length = 6 := by
    rw [List.length_append, List.length_append, hflags, hsize, hcode]
  have hbody : (flags ++ (size ++ (code ++ (count' ++ body)))).length = n := by
    rw [← hn]
    simp only [List.length_append, hflags, hsize, hcode, hcount']
    omega
  have hdata : (flags ++ (size ++ (code ++ (count' ++ (body ++ attr))))).length = n + 4 := by
    rw [← hn]
    simp only [List.length_append, hflags, hsize, hcode, hcount', hattr]
    omega
  have hone : splice (flags ++ (size ++ (code ++ (count ++ (body ++ (hdr ++ (old ++ more))))))) 6
      count' = flags ++ (size ++ (code ++ (count' ++ (body ++ (hdr ++ (old ++ more)))))) := by
    have h := splice_append (r := body ++ (hdr ++ (old ++ more))) hsix (hcount.trans hcount'.symm)
    simpa only [List.append_assoc] using h
  have htwo : splice (flags ++ (size ++ (code ++ (count' ++ (body ++ (hdr ++ (old ++ more))))))) n
      attr = flags ++ (size ++ (code ++ (count' ++ (body ++ (attr ++ (old ++ more)))))) := by
    have h := splice_append (r := old ++ more) hbody (hhdr.trans hattr.symm)
    simpa only [List.append_assoc] using h
  have hthree : splice (flags ++ (size ++ (code ++ (count' ++ (body ++ (attr ++ (old ++ more))))))) (n + 4)
      data = flags ++ (size ++ (code ++ (count' ++ (body ++ (attr ++ (data ++ more)))))) := by
    have h := splice_append (r := more) hdata hold
    simpa only [List.append_assoc] using h
  rw [hone, htwo, hthree]
  exact splice_append hflags (hsize.trans hsize'.symm)

/-- What `sstp_pkt_attr` makes of the bytes. -/
lemma splice_image (type : SstpMsg) (as : List Attr) (a : Attr) {hdr old : List UInt8}
    (hhdr : hdr.length = 4) (hold : old.length = a.2.length) (more : List UInt8) :
    splice (splice (splice (splice (image type as ++ (hdr ++ (old ++ more))) 6
      (htons (as.length + 1))) (encodedSize as) ([0, a.1] ++ htons (a.2.length + 4)))
        (encodedSize as + 4) a.2) 2 (htons (encodedSize (as ++ [a]))) =
      image type (as ++ [a]) ++ more := by
  have hbytes : image type as ++ (hdr ++ (old ++ more)) =
      [protoVer, msgFlagCtrl] ++ (htons (encodedSize as) ++ (htons type.code ++
        (htons as.length ++ (encodeAttrs as ++ (hdr ++ (old ++ more)))))) := by
    simp only [image, List.append_assoc]
  have hsize : 8 + (encodeAttrs as).length = encodedSize as := by
    rw [length_encodeAttrs]
    rfl
  rw [hbytes, splice_attr rfl (length_htons _) (length_htons _) (length_htons _) hhdr hold
    (length_htons _) (length_htons _) rfl hsize more]
  simp only [image, encodeAttrs_append, encodeAttr, List.length_append, List.length_singleton,
    Nat.cast_add, Nat.cast_one, List.append_assoc]

/-- `sstp_pkt_attr` on a control packet with room for the attribute: its four writes stay inside the
buffer, which keeps its size. -/
lemma pktAttr_writes {b : Buff} {n : ℕ} (t : UInt8) (data : List UInt8)
    (hsize : data.length + 4 < 32768) (hlen : b.len = n) (hn : 8 ≤ n)
    (hroom : b.len + 4 + data.length ≤ b.max) (hctrl : b.byte 1 &&& msgFlagCtrl ≠ 0) :
    ∃ d, d = splice (splice (splice (splice b.data 6 (htons (be16 (b.byte 6) (b.byte 7) + 1))) n
        ([0, t] ++ htons (data.length + 4))) (n + 4) data) 2 (htons (b.len + (data.length + 4))) ∧
      d.length = b.data.length ∧
      sstpPktAttr b t data = some (.okay, ⟨b.len + (data.length + 4), b.off, d⟩) := by
  have hshort : toShort (data.length + 4) = data.length + 4 := toShort_of_lt (by omega) (by omega)
  have hspace : sstpBuffSpace b (data.length + 4) = .okay := by
    rw [space_eq_okay]
    omega
  have hlenNat : b.len.toNat = n := by omega
  have hfourNat : (b.len + 4).toNat = n + 4 := by omega
  have hbytes : n + 4 + data.length ≤ b.data.length := by
    unfold Buff.max at hroom
    omega
  obtain ⟨d1, hd1⟩ : ∃ d, d = splice b.data 6 (htons (be16 (b.byte 6) (b.byte 7) + 1)) := ⟨_, rfl⟩
  obtain ⟨d2, hd2⟩ : ∃ d, d = splice d1 n ([0, t] ++ htons (data.length + 4)) := ⟨_, rfl⟩
  obtain ⟨d3, hd3⟩ : ∃ d, d = splice d2 (n + 4) data := ⟨_, rfl⟩
  obtain ⟨d4, hd4⟩ : ∃ d, d = splice d3 2 (htons (b.len + (data.length + 4))) := ⟨_, rfl⟩
  have hattrLen : ([0, t] ++ htons (data.length + 4)).length = 4 := rfl
  have hsize1 : d1.length = b.data.length := by
    rw [hd1, length_splice (by rw [length_htons]; omega)]
  have hsize2 : d2.length = b.data.length := by
    rw [hd2, length_splice (by rw [hattrLen]; omega), hsize1]
  have hsize3 : d3.length = b.data.length := by
    rw [hd3, length_splice (by omega), hsize2]
  have hsize4 : d4.length = b.data.length := by
    rw [hd4, length_splice (by rw [length_htons]; omega), hsize3]
  have hw1 : b.write 6 (htons (be16 (b.byte 6) (b.byte 7) + 1)) = some ⟨b.len, b.off, d1⟩ := by
    rw [write_of_le (by decide) (by rw [length_htons, Buff.max]; omega), hd1]
    rfl
  have hw2 : (⟨b.len, b.off, d1⟩ : Buff).write b.len ([0, t] ++ htons (data.length + 4)) =
      some ⟨b.len, b.off, d2⟩ := by
    rw [write_of_le (by omega) (by rw [hattrLen, Buff.max, hsize1]; push_cast; omega), hd2, hlenNat]
  have hw3 : (⟨b.len, b.off, d2⟩ : Buff).write (b.len + 4) data = some ⟨b.len, b.off, d3⟩ := by
    rw [write_of_le (by omega) (by rw [Buff.max, hsize2]; omega), hd3, hfourNat]
  have hw4 : (⟨b.len + (data.length + 4), b.off, d3⟩ : Buff).write 2
      (htons (b.len + (data.length + 4))) = some ⟨b.len + (data.length + 4), b.off, d4⟩ := by
    rw [write_of_le (by decide) (by rw [length_htons, Buff.max, hsize3]; push_cast; omega), hd4]
    rfl
  refine ⟨d4, by rw [hd4, hd3, hd2, hd1], hsize4, ?_⟩
  unfold sstpPktAttr
  rw [hshort]
  dsimp only
  rw [if_neg (not_not.mpr hspace), if_neg hctrl, hw1]
  change ((⟨b.len, b.off, d1⟩ : Buff).write b.len _).bind _ = _
  rw [hw2]
  change ((⟨b.len, b.off, d2⟩ : Buff).write (b.len + 4) data).bind _ = _
  rw [hw3]
  change ((⟨b.len + (data.length + 4), b.off, d3⟩ : Buff).write 2 _).bind _ = _
  rw [hw4]
  rfl

/-- **`sstp_pkt_attr`** appends an attribute. -/
theorem built_attr {b : Buff} {type : SstpMsg} {as : List Attr} (h : Built b type as) (t : UInt8)
    (data : List UInt8) (hsize : data.length + 4 < 32768)
    (hroom : b.len + 4 + data.length ≤ b.max) (hcount : as.length < 65535) :
    ∃ b', sstpPktAttr b t data = some (.okay, b') ∧ Built b' type (as ++ [(t, data)]) ∧
      b'.max = b.max := by
  have hnum := h.count (by omega)
  obtain ⟨hlen, hoff, rest, hdata⟩ := h
  have hctrl : b.byte 1 &&& msgFlagCtrl ≠ 0 := by
    have hbyte : b.byte 1 = msgFlagCtrl := by
      rw [Buff.byte, ← hdata]
      rfl
    rw [hbyte]
    decide
  obtain ⟨d, hd, hlength, heq⟩ :=
    pktAttr_writes t data hsize hlen (Nat.le_add_right 8 _) hroom hctrl
  have hmax : b.max = encodedSize as + rest.length := by
    unfold Buff.max
    rw [← hdata, List.length_append, length_image, Nat.cast_add]
  -- the room is the place of the attribute's header and data
  obtain ⟨hdr, r, hr, hhdr⟩ := exists_append (m := rest) (n := 4) (by omega)
  have hrlen : rest.length = 4 + r.length := by rw [hr, List.length_append, hhdr]
  obtain ⟨old, more, hmore, hold⟩ := exists_append (m := r) (n := data.length) (by omega)
  have hnew : (encodedSize (as ++ [(t, data)]) : ℤ) = b.len + (data.length + 4) := by
    rw [encodedSize_append, hlen]
    push_cast
    ring
  have himage := splice_image type as (t, data) hhdr hold more
  rw [← hmore, ← hr, hdata, hnew, ← hnum, ← hd] at himage
  refine ⟨_, heq, ⟨hnew.symm, hoff, more, himage.symm⟩, ?_⟩
  unfold Buff.max
  rw [hlength]

end SstpClient.PacketImage
