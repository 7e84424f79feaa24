import SstpClient.PacketImage

/-!
One attribute appended by `sstp_pkt_attr`, on any packet: what is compared with the room is the size
of the attribute in a `short`.
-/

namespace SstpClient.AttrAppend

open SstpClient.Lib.Bytes SstpClient.Buffer SstpClient.Packet SstpClient.PacketImage

/-- `nattr` of the header. -/
def attrCount (b : Buff) : ℕ := be16 (b.byte 6) (b.byte 7)

/-- The packet is a control packet. -/
def Control (b : Buff) : Prop := b.byte 1 &&& msgFlagCtrl ≠ 0

instance (b : Buff) : Decidable (Control b) := inferInstanceAs (Decidable (_ ≠ _))

/-- The attribute is appended, and counted, and nothing else of the buffer is changed. -/
structure Appended (b b' : Buff) (type : UInt8) (data : List UInt8) : Prop where
  len : b'.len = b.len + 4 + data.length
  off : b'.off = b.off
  count : attrCount b' = attrCount b + 1
  size : sstpPktLen b' = b'.len
  bytes : ∃ flags size code count body old more : List UInt8,
    flags.length = 2 ∧ size.length = 2 ∧ code.length = 2 ∧ count.length = 2 ∧
      8 + body.length = b.len ∧ old.length = 4 + data.length ∧
      b.data = flags ++ (size ++ (code ++ (count ++ (body ++ (old ++ more))))) ∧
      b'.data = flags ++ (htons b'.len ++ (code ++ (htons (attrCount b + 1) ++
        (body ++ (encodeAttr (type, data) ++ more)))))

/-- The attribute is appended if it belongs there and has room, and the buffer is left as it is
otherwise. -/
def Exact (b : Buff) (type : UInt8) (data : List UInt8) : Prop :=
  if Control b ∧ b.len + 4 + data.length ≤ b.max then
    ∃ b', sstpPktAttr b type data = some (.okay, b') ∧ Appended b b' type data
  else ∃ status, status ≠ .okay ∧ sstpPktAttr b type data = some (status, b)

/-- The size of the attribute is a `short`, and one attribute more can be counted; or it is that
large that it has come round to where it does not fit either. -/
def Measured (b : Buff) (data : List UInt8) : Prop :=
  Control b →
    (data.length + 4 < 32768 ∧ (b.len + 4 + data.length ≤ b.max → attrCount b < 65535)) ∨
      b.max < b.len + (data.length + 4 - 65536)

section Attr

variable {b : Buff} {type : UInt8} {data : List UInt8}

/-- What is refused is left alone. -/
lemma pktAttr_refused (h : ¬ Control b ∨ b.max < b.len + toShort (data.length + 4)) :
    sstpPktAttr b type data = some (.fail, b) := by
  unfold sstpPktAttr
  dsimp only
  split_ifs with hspace hctrl
  · rfl
  · rfl
  · rcases h with h | h
    · exact absurd hctrl h
    · rw [not_not, space_eq_okay] at hspace
      omega

/-- What is not refused is not given back as it was. -/
lemma pktAttr_taken {status : Status} {b' : Buff} (hctrl : Control b)
    (hspace : b.len + toShort (data.length + 4) ≤ b.max)
    (h : sstpPktAttr b type data = some (status, b')) :
    status = .okay ∧ b'.len = b.len + toShort (data.length + 4) := by
  unfold sstpPktAttr at h
  dsimp only at h
  rw [if_neg (not_not.mpr (space_eq_okay.mpr hspace)), if_neg hctrl] at h
  simp only [Option.bind_eq_bind, Option.bind_eq_some_iff, Option.pure_def] at h
  obtain ⟨b1, h1, b2, h2, b3, h3, b4, h4, heq⟩ := h
  cases heq
  obtain ⟨-, -, hb1, -⟩ := write_eq_some h1
  obtain ⟨-, -, hb2, -⟩ := write_eq_some h2
  obtain ⟨-, -, hb3, -⟩ := write_eq_some h3
  obtain ⟨-, -, hb4, -⟩ := write_eq_some h4
  refine ⟨rfl, ?_⟩
  rw [hb4, hb3, hb2, hb1]

/-- A number written in network order is read back modulo its size. -/
lemma be16_htons {x y : List UInt8} {len off : ℤ} {k : ℕ} (hx : x.length = k) (m : ℕ) :
    be16 ((⟨len, off, x ++ (htons m ++ y)⟩ : Buff).byte k)
      ((⟨len, off, x ++ (htons m ++ y)⟩ : Buff).byte (k + 1)) = m % 65536 := by
  have hbyte : ∀ i, (⟨len, off, x ++ (htons m ++ y)⟩ : Buff).byte (k + i) =
      (htons m ++ y).getD i 0 := by
    intro i
    unfold Buff.byte
    dsimp only
    rw [List.getD_append_right _ _ _ _ (by omega), hx, Nat.add_sub_cancel_left]
  have hlo := hbyte 1
  have hhi := hbyte 0
  rw [Nat.add_zero] at hhi
  have hmod : ((m : ℤ) % 65536).toNat = m % 65536 := by omega
  rw [hhi, hlo]
  change be16 (UInt8.ofNat (((m : ℤ) % 65536).toNat / 256)) (UInt8.ofNat ((m : ℤ) % 65536).toNat) = _
  rw [hmod, be16_ofNat, Nat.mod_mod]

lemma pktLen_htons {x y : List UInt8} {len off : ℤ} (hx : x.length = 2) (m : ℕ) :
    sstpPktLen ⟨len, off, x ++ (htons m ++ y)⟩ = (m % 65536 : ℕ) :=
  congrArg Nat.cast (be16_htons hx m)

/-- **An attribute that fits** is appended; its number is one of 16 bits. -/
lemma pktAttr_fits (hctrl : Control b) (h8 : 8 ≤ b.len) (hmax : b.max ≤ 65535)
    (hsize : data.length + 4 < 32768) (hroom : b.len + 4 + data.length ≤ b.max) :
    ∃ b', sstpPktAttr b type data = some (.okay, b') ∧
      attrCount b' = (attrCount b + 1) % 65536 ∧
        (attrCount b' = attrCount b + 1 → Appended b b' type data) := by
  obtain ⟨n, hn⟩ : ∃ n : ℕ, b.len = n := ⟨b.len.toNat, by omega⟩
  obtain ⟨d, hd, -, heq⟩ := pktAttr_writes type data hsize hn (by omega) hroom hctrl
  -- the parts of the buffer
  have hbytes : n + 4 + data.length ≤ b.data.length := by
    unfold Buff.max at hroom
    omega
  obtain ⟨flags, r, hr, hflags⟩ := exists_append (m := b.data) (n := 2) (by omega)
  rw [hr, List.length_append] at hbytes
  obtain ⟨size, r', hr', hsize2⟩ := exists_append (m := r) (n := 2) (by omega)
  rw [hr', List.length_append] at hbytes
  obtain ⟨code, r, rfl, hcode⟩ := exists_append (m := r') (n := 2) (by omega)
  rw [List.length_append] at hbytes
  obtain ⟨count, r', rfl, hcount⟩ := exists_append (m := r) (n := 2) (by omega)
  rw [List.length_append] at hbytes
  obtain ⟨body, r, rfl, hbody⟩ := exists_append (m := r') (n := n - 8) (by omega)
  rw [List.length_append] at hbytes
  obtain ⟨hdr, r', rfl, hhdr⟩ := exists_append (m := r) (n := 4) (by omega)
  rw [List.length_append] at hbytes
  obtain ⟨old, more, rfl, hold⟩ := exists_append (m := r') (n := data.length) (by omega)
  have hdata : b.data = flags ++ (size ++ (code ++ (count ++ (body ++ (hdr ++ (old ++ more)))))) := by
    rw [hr, hr']
  rw [hdata, splice_attr hflags hsize2 hcode hcount hhdr hold (length_htons _) (length_htons _) rfl
    (by omega)] at hd
  have hsum : b.len + (data.length + 4) = (n + (data.length + 4) : ℕ) := by
    push_cast
    omega
  have hsix : (flags ++ (htons (b.len + (data.length + 4)) ++ code)).length = 6 := by
    rw [List.length_append, List.length_append, hflags, length_htons, hcode]
  have hcountEq : attrCount ⟨b.len + (data.length + 4), b.off, d⟩ = (attrCount b + 1) % 65536 := by
    have hparts : d = (flags ++ (htons (b.len + (data.length + 4)) ++ code)) ++
        (htons (attrCount b + 1 : ℕ) ++
          (body ++ (([0, type] ++ htons (data.length + 4)) ++ (data ++ more)))) := by
      rw [hd]
      simp only [List.append_assoc]
      rfl
    rw [hparts]
    exact be16_htons hsix _
  refine ⟨_, heq, hcountEq, fun h => ⟨by dsimp only; omega, rfl, h, ?_, ?_⟩⟩
  · rw [hd, hsum, pktLen_htons hflags, Nat.mod_eq_of_lt (by omega)]
  · refine ⟨flags, size, code, count, body, hdr ++ old, more, hflags, hsize2, hcode, hcount,
      by omega, by rw [List.length_append, hhdr, hold], ?_, ?_⟩
    · rw [hdata, List.append_assoc]
    · rw [hd]
      simp only [encodeAttr, attrCount, List.append_assoc]

/-- **An attribute is appended exactly**, and otherwise nothing happens, when its size is measured
right. -/
theorem exact_iff_measured (h8 : 8 ≤ b.len) (hmax : b.max ≤ 65535) (hdata : data.length ≤ 65535) :
    Exact b type data ↔ Measured b data := by
  unfold Exact Measured
  by_cases hctrl : Control b
  · by_cases hsize : (data.length : ℤ) + 4 < 32768
    · have hshort : toShort (data.length + 4) = data.length + 4 := toShort_of_lt (by omega) hsize
      by_cases hroom : b.len + 4 + data.length ≤ b.max
      · obtain ⟨b', heq, hcount, happended⟩ := pktAttr_fits hctrl h8 hmax (by omega) hroom
        rw [if_pos ⟨hctrl, hroom⟩]
        constructor
        · rintro ⟨b'', heq', h⟩ -
          rw [heq] at heq'
          cases heq'
          have hone := h.count
          exact .inl ⟨by omega, fun _ => by omega⟩
        · intro h
          have hfew : attrCount b < 65535 := by
            rcases h hctrl with h | h
            · exact h.2 hroom
            · omega
          exact ⟨b', heq, happended (by rw [hcount, Nat.mod_eq_of_lt (by omega)])⟩
      · rw [if_neg fun h => hroom h.2]
        refine iff_of_true ⟨.fail, by decide, pktAttr_refused (.inr ?_)⟩ fun _ =>
          .inl ⟨by omega, ?_⟩
        · omega
        · exact fun h => absurd h hroom
    · have hshort : toShort (data.length + 4) = data.length + 4 - 65536 :=
        toShort_of_ge (by omega) (by omega)
      by_cases hspace : b.max < b.len + (data.length + 4 - 65536)
      · rw [if_neg (by omega)]
        exact iff_of_true ⟨.fail, by decide, pktAttr_refused (.inr (by omega))⟩ fun _ => .inr hspace
      · -- the size passes for one that fits
        refine iff_of_false ?_ fun h => ?_
        · split_ifs with hroom
          · rintro ⟨b', heq, h⟩
            have htaken := (pktAttr_taken hctrl (by omega) heq).2
            have hadded := h.len
            omega
          · rintro ⟨status, hne, heq⟩
            exact hne (pktAttr_taken hctrl (by omega) heq).1
        · rcases h hctrl with h | h
          · omega
          · exact hspace h
  · rw [if_neg fun h => hctrl h.1]
    exact iff_of_true ⟨.fail, by decide, pktAttr_refused (.inl hctrl)⟩ fun h => absurd h hctrl

end Attr

/-- A Call-Connect-Request without attributes, in the buffer of the client. -/
def bareRequest : Buff :=
  ⟨8, 0, [0x10, 0x01, 0x00, 0x08, 0x00, 0x01, 0x00, 0x00] ++ List.replicate 16376 0⟩

lemma max_bareRequest : bareRequest.max = 16384 := by
  unfold Buff.max bareRequest
  rw [List.length_append, List.length_replicate]
  rfl

theorem exact_iff_measured_request : Exact bareRequest 1 [0, 1] ↔ Measured bareRequest [0, 1] :=
  exact_iff_measured (by decide) (by rw [max_bareRequest]; decide) (by decide)

/-- 32764 bytes are twice what the buffer has, and are copied. -/
theorem huge_not_exact : ¬ Exact bareRequest 1 (List.replicate 32764 0) := by
  have hctrl : Control bareRequest := by decide
  have hlength : (List.replicate 32764 (0 : UInt8)).length = 32764 := List.length_replicate
  have hshort : toShort (32764 + 4) = 32764 + 4 - 65536 := toShort_of_ge (by decide) (by decide)
  unfold Exact
  rw [if_neg]
  · rintro ⟨status, hne, heq⟩
    refine hne (pktAttr_taken hctrl ?_ heq).1
    rw [hlength, Nat.cast_ofNat, hshort, max_bareRequest]
    decide
  · rw [hlength, max_bareRequest]
    exact fun h => absurd h.2 (by decide)

end SstpClient.AttrAppend
