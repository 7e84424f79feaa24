import Mathlib
import SstpClient.Lib.CString

/-!
Texts as sequences of code points, with their encodings UTF-8 and UTF-16LE.

The bytes of the one, each with a zero behind it, are the other exactly for ASCII.
-/

namespace SstpClient.Lib.Unicode

open SstpClient.Lib.CString

/-- The UTF-16 code units of a code point. -/
def utf16 (c : Char) : List UInt16 :=
  if c.toNat < 0x10000 then [UInt16.ofNat c.toNat]
  else [UInt16.ofNat (0xD800 + (c.toNat - 0x10000) / 0x400),
    UInt16.ofNat (0xDC00 + (c.toNat - 0x10000) % 0x400)]

/-- A code unit, the low byte first. -/
def le16 (u : UInt16) : List UInt8 := [UInt8.ofNat u.toNat, UInt8.ofNat (u.toNat / 256)]

def utf16le (text : List Char) : List UInt8 := (text.flatMap utf16).flatMap le16

def utf8 (text : List Char) : List UInt8 := text.flatMap String.utf8EncodeChar

/-- A byte of its own value other than zero. -/
def Ascii (c : Char) : Prop := 0 < c.toNat ∧ c.toNat < 128

/-! ### Code units as bytes -/

lemma le16_inj {u v : UInt16} (h : le16 u = le16 v) : u = v := by
  obtain ⟨hlow, hhigh⟩ := List.cons_eq_cons.mp h
  have hlow' : u.toNat % 256 = v.toNat % 256 := by
    simpa only [UInt8.toNat_ofNat'] using congrArg UInt8.toNat hlow
  have hhigh' : u.toNat / 256 % 256 = v.toNat / 256 % 256 := by
    simpa only [UInt8.toNat_ofNat'] using congrArg UInt8.toNat (List.head_eq_of_cons_eq hhigh)
  have hu := u.toNat_lt
  have hv := v.toNat_lt
  exact UInt16.toNat_inj.mp (by omega)

/-- Bytes determine the units. -/
lemma flatMap_le16_inj {us vs : List UInt16} (h : us.flatMap le16 = vs.flatMap le16) : us = vs := by
  induction us generalizing vs with
  | nil =>
    cases vs with
    | nil => rfl
    | cons v vs => cases h
  | cons u us ih =>
    cases vs with
    | nil => cases h
    | cons v vs =>
      rw [List.flatMap_cons, List.flatMap_cons] at h
      obtain ⟨hfirst, hrest⟩ := List.append_inj h rfl
      rw [le16_inj hfirst, ih hrest]

/-- A byte and a zero: the code unit of the same value. -/
lemma le16_byte (b : UInt8) : le16 b.toUInt16 = [b, 0] := by
  have hb := b.toNat_lt
  unfold le16
  rw [UInt8.toNat_toUInt16, UInt8.ofNat_toNat, Nat.div_eq_of_lt hb]
  rfl

lemma flatMap_byte (bytes : List UInt8) :
    (bytes.flatMap fun b => [b, 0]) = (bytes.map UInt8.toUInt16).flatMap le16 := by
  rw [List.flatMap_map]
  exact List.flatMap_congr fun b _ => (le16_byte b).symm

/-! ### A character in both encodings -/

lemma utf8EncodeChar_ascii {c : Char} (h : c.toNat < 128) :
    String.utf8EncodeChar c = [UInt8.ofNat c.toNat] := by
  unfold String.utf8EncodeChar
  exact if_pos (Nat.le_of_lt_succ h)

lemma length_utf16 (c : Char) : (utf16 c).length = if c.toNat < 0x10000 then 1 else 2 := by
  unfold utf16
  split_ifs <;> rfl

lemma length_utf8EncodeChar (c : Char) : (String.utf8EncodeChar c).length =
    if c.toNat ≤ 0x7f then 1 else if c.toNat ≤ 0x7ff then 2 else if c.toNat ≤ 0xffff then 3 else 4 := by
  unfold String.utf8EncodeChar Char.toNat
  dsimp only
  split_ifs <;> rfl

/-- **UTF-16 has no more units** than UTF-8 has bytes. -/
lemma length_utf16_le (c : Char) : (utf16 c).length ≤ (String.utf8EncodeChar c).length := by
  rw [length_utf16, length_utf8EncodeChar]
  split_ifs <;> omega

/-- As many only for ASCII. -/
lemma lt_of_length_eq {c : Char} (h : (String.utf8EncodeChar c).length = (utf16 c).length) :
    c.toNat < 128 := by
  rw [length_utf16, length_utf8EncodeChar] at h
  split_ifs at h <;> omega

/-- The only character with a zero byte is NUL. -/
lemma zero_notMem_utf8EncodeChar {c : Char} (h : c.toNat ≠ 0) : 0 ∉ String.utf8EncodeChar c := by
  have hbyte : ∀ n, n < 256 → n ≠ 0 → (0 : UInt8) ≠ UInt8.ofNat n := by
    intro n hlt hne heq
    have hnat := congrArg UInt8.toNat heq
    rw [UInt8.toNat_ofNat', Nat.mod_eq_of_lt hlt] at hnat
    exact hne hnat.symm
  unfold String.utf8EncodeChar
  have hval : c.val.toNat ≠ 0 := h
  dsimp only
  split_ifs with hone htwo hthree
  all_goals simp only [List.mem_cons, List.not_mem_nil, or_false, not_or]
  · exact hbyte _ (by omega) hval
  · exact ⟨hbyte _ (by omega) (by omega), hbyte _ (by omega) (by omega)⟩
  · exact ⟨hbyte _ (by omega) (by omega), hbyte _ (by omega) (by omega),
      hbyte _ (by omega) (by omega)⟩
  · exact ⟨hbyte _ (by omega) (by omega), hbyte _ (by omega) (by omega),
      hbyte _ (by omega) (by omega), hbyte _ (by omega) (by omega)⟩

lemma zero_notMem_utf8 {text : List Char} (h : ∀ c ∈ text, c.toNat ≠ 0) : 0 ∉ utf8 text := by
  unfold utf8
  intro hmem
  obtain ⟨c, hc, hzero⟩ := List.mem_flatMap.mp hmem
  exact zero_notMem_utf8EncodeChar (h c hc) hzero

/-! ### A text in both encodings -/

lemma length_utf16_text (text : List Char) : (text.flatMap utf16).length ≤ (utf8 text).length := by
  unfold utf8
  induction text with
  | nil => rfl
  | cons c text ih =>
    rw [List.flatMap_cons, List.flatMap_cons, List.length_append, List.length_append]
    exact Nat.add_le_add (length_utf16_le c) ih

/-- **As many units as bytes**: every character has one of each. -/
lemma ascii_of_length {text : List Char} (h : (utf8 text).length = (text.flatMap utf16).length) :
    ∀ c ∈ text, c.toNat < 128 := by
  induction text with
  | nil => nofun
  | cons c text ih =>
    have hrest := length_utf16_text text
    have hfirst := length_utf16_le c
    unfold utf8 at h ih hrest
    rw [List.flatMap_cons, List.flatMap_cons, List.length_append, List.length_append] at h
    rw [List.forall_mem_cons]
    exact ⟨lt_of_length_eq (by omega), ih (by omega)⟩

/-- ASCII: a unit for each byte. -/
lemma units_ascii {text : List Char} (h : ∀ c ∈ text, Ascii c) :
    (utf8 text).map UInt8.toUInt16 = text.flatMap utf16 := by
  unfold utf8
  rw [List.map_flatMap]
  refine List.flatMap_congr fun c hc => ?_
  have hlt := (h c hc).2
  unfold utf16
  rw [utf8EncodeChar_ascii hlt, if_pos (by omega)]
  have hunit : (UInt8.ofNat c.toNat).toUInt16 = UInt16.ofNat c.toNat := by
    apply UInt16.toNat_inj.mp
    rw [UInt8.toNat_toUInt16, UInt8.toNat_ofNat', UInt16.toNat_ofNat']
    omega
  rw [List.map_singleton, hunit]

/-- **Bytes with zeros between them**, of a C string, are the UTF-16LE of its text exactly for
ASCII. -/
theorem zeroExtended_eq_iff (text : List Char) :
    ((cstr (utf8 text)).flatMap fun b => [b, 0]) = utf16le text ↔ ∀ c ∈ text, Ascii c := by
  constructor
  · intro h
    unfold utf16le at h
    have hunits := flatMap_le16_inj ((flatMap_byte _).symm.trans h)
    have hnul : ∀ c ∈ text, c.toNat ≠ 0 := by
      intro c hc hzero
      have hunit : (0 : UInt16) ∈ text.flatMap utf16 := by
        refine List.mem_flatMap.mpr ⟨c, hc, ?_⟩
        unfold utf16
        rw [hzero]
        exact List.mem_singleton_self _
      rw [← hunits] at hunit
      obtain ⟨b, hb, hval⟩ := List.mem_map.mp hunit
      have hb0 : b = 0 := by
        apply UInt8.toNat_inj.mp
        rw [← UInt8.toNat_toUInt16, hval]
        rfl
      exact notMem_cstr _ (hb0 ▸ hb)
    rw [cstr_of_notMem (zero_notMem_utf8 hnul)] at hunits
    have hlength := congrArg List.length hunits
    rw [List.length_map] at hlength
    exact fun c hc => ⟨Nat.pos_of_ne_zero (hnul c hc), ascii_of_length hlength c hc⟩
  · intro h
    rw [cstr_of_notMem (zero_notMem_utf8 fun c hc => (h c hc).1.ne'), flatMap_byte, units_ascii h]
    rfl

end SstpClient.Lib.Unicode
