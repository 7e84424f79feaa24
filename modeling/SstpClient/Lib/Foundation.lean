import Mathlib

/-!
Strings of Foundation, as lists of UTF-16 code units.

A search compares characters, not code units: where a mark follows that combines with the last
code unit, the pattern is not there. What combines and what is white space is the character data of
the system, a parameter.
-/

namespace SstpClient.Lib.Foundation

abbrev NSString := List UInt16

/-- The character data. -/
structure Unicode where
  whitespaceAndNewline : UInt16 → Bool
  /-- A search takes what follows into the character before. -/
  joins : NSString → Bool
  /-- `hasPrefix` does. -/
  joinsPrefix : NSString → Bool

variable (U : Unicode)

/-- `stringByTrimmingCharactersInSet` with `whitespaceAndNewlineCharacterSet`. -/
def trim (s : NSString) : NSString :=
  (s.dropWhile U.whitespaceAndNewline).rdropWhile U.whitespaceAndNewline

def hasPrefix (s pat : NSString) : Bool :=
  pat.isPrefixOf s && !U.joinsPrefix (s.drop pat.length)

/-- The pattern is a part of the string where it begins. -/
def matchesAt (s pat : NSString) : Bool := pat.isPrefixOf s && !U.joins (s.drop pat.length)

/-- The location of `rangeOfString`. -/
def rangeOfString : NSString → NSString → Option ℕ
  | [], _ => none
  | u :: s, pat =>
    if matchesAt U (u :: s) pat then some 0 else (rangeOfString s pat).map (· + 1)

/-- The location of `rangeOfString` with `NSBackwardsSearch`. -/
def rangeOfStringBackwards : NSString → NSString → Option ℕ
  | [], _ => none
  | u :: s, pat =>
    ((rangeOfStringBackwards s pat).map (· + 1)).or
      (if matchesAt U (u :: s) pat then some 0 else none)

def isHighSurrogate (u : UInt16) : Bool := 0xD800 ≤ u && u < 0xDC00

def isLowSurrogate (u : UInt16) : Bool := 0xDC00 ≤ u && u < 0xE000

/-- A byte of UTF-8 after the first one: six bits. -/
def trail (n : ℕ) : UInt8 := UInt8.ofNat (0x80 + n % 0x40)

/-- The UTF-8 of a code point. -/
def encode (n : ℕ) : List UInt8 :=
  if n < 0x80 then [UInt8.ofNat n]
  else if n < 0x800 then [UInt8.ofNat (0xC0 + n / 0x40), trail n]
  else if n < 0x10000 then [UInt8.ofNat (0xE0 + n / 0x1000), trail (n / 0x40), trail n]
  else [UInt8.ofNat (0xF0 + n / 0x40000), trail (n / 0x1000), trail (n / 0x40), trail n]

/-- The code point of two surrogates. -/
def supplementary (u v : UInt16) : ℕ := 0x10000 + (u.toNat - 0xD800) * 0x400 + (v.toNat - 0xDC00)

/-- `UTF8String`; there is none for a surrogate without the other one. -/
def utf8String : NSString → Option (List UInt8)
  | [] => some []
  | u :: s =>
    if isHighSurrogate u then
      match s with
      | [] => none
      | v :: s' =>
        if isLowSurrogate v then (utf8String s').map (encode (supplementary u v) ++ ·) else none
    else if isLowSurrogate u then none
    else (utf8String s).map (encode u.toNat ++ ·)

/-! ### Where a pattern is, and what is there -/

section Lemmas

variable {U : Unicode} {s pat : NSString} {i : ℕ}

lemma matchesAt_split (h : matchesAt U s pat = true) : ∃ t, s = pat ++ t := by
  unfold matchesAt at h
  rw [Bool.and_eq_true, List.isPrefixOf_iff_prefix] at h
  obtain ⟨t, ht⟩ := h.1
  exact ⟨t, ht.symm⟩

/-- **The range that is found** has the pattern. -/
lemma rangeOfString_split (h : rangeOfString U s pat = some i) :
    ∃ w t, s = w ++ pat ++ t ∧ w.length = i := by
  induction s generalizing i with
  | nil => cases h
  | cons u s ih =>
    rw [rangeOfString] at h
    split_ifs at h with hmatch
    · obtain ⟨t, ht⟩ := matchesAt_split hmatch
      exact ⟨[], t, ht, Option.some.inj h⟩
    · obtain ⟨j, hj, rfl⟩ := Option.map_eq_some_iff.mp h
      obtain ⟨w, t, rfl, hw⟩ := ih hj
      exact ⟨u :: w, t, rfl, congrArg (· + 1) hw⟩

lemma rangeOfStringBackwards_split (h : rangeOfStringBackwards U s pat = some i) :
    ∃ w t, s = w ++ pat ++ t ∧ w.length = i := by
  induction s generalizing i with
  | nil => cases h
  | cons u s ih =>
    rw [rangeOfStringBackwards] at h
    cases hs : rangeOfStringBackwards U s pat with
    | some j =>
      rw [hs] at h
      obtain ⟨w, t, rfl, hw⟩ := ih hs
      exact ⟨u :: w, t, rfl, (congrArg (· + 1) hw).trans (Option.some.inj h)⟩
    | none =>
      rw [hs, Option.map_none, Option.none_or] at h
      split_ifs at h with hmatch
      obtain ⟨t, ht⟩ := matchesAt_split hmatch
      exact ⟨[], t, ht, Option.some.inj h⟩

lemma hasPrefix_split (h : hasPrefix U s pat = true) : ∃ t, s = pat ++ t := by
  unfold hasPrefix at h
  rw [Bool.and_eq_true, List.isPrefixOf_iff_prefix] at h
  obtain ⟨t, ht⟩ := h.1
  exact ⟨t, ht.symm⟩

lemma encode_ne_nil (n : ℕ) : encode n ≠ [] := by
  unfold encode
  split_ifs <;> exact List.cons_ne_nil _ _

/-- Only the empty string has no bytes. -/
lemma utf8String_ne_nil {b : List UInt8} (h : utf8String s = some b) (hs : s ≠ []) : b ≠ [] := by
  obtain ⟨u, s', rfl⟩ := List.exists_cons_of_ne_nil hs
  unfold utf8String at h
  split_ifs at h
  · split at h
    · cases h
    · split_ifs at h
      obtain ⟨r, -, rfl⟩ := Option.map_eq_some_iff.mp h
      exact List.append_ne_nil_of_left_ne_nil (encode_ne_nil _) r
  · obtain ⟨r, -, rfl⟩ := Option.map_eq_some_iff.mp h
    exact List.append_ne_nil_of_left_ne_nil (encode_ne_nil _) r

/-- **ASCII** is its own UTF-8. -/
lemma utf8String_ascii (h : ∀ u ∈ s, u.toNat < 128) :
    utf8String s = some (s.map fun u => UInt8.ofNat u.toNat) := by
  induction s with
  | nil => rfl
  | cons u s ih =>
    have hu := h u List.mem_cons_self
    have hhigh : ¬ isHighSurrogate u = true := by
      unfold isHighSurrogate
      rw [Bool.and_eq_true, decide_eq_true_eq, UInt16.le_iff_toNat_le]
      change ¬ (0xD800 ≤ u.toNat ∧ _)
      omega
    have hlow : ¬ isLowSurrogate u = true := by
      unfold isLowSurrogate
      rw [Bool.and_eq_true, decide_eq_true_eq, UInt16.le_iff_toNat_le]
      change ¬ (0xDC00 ≤ u.toNat ∧ _)
      omega
    have hencode : encode u.toNat = [UInt8.ofNat u.toNat] := if_pos hu
    unfold utf8String
    rw [if_neg hhigh, if_neg hlow, ih fun v hv => h v (List.mem_cons_of_mem u hv), hencode]
    rfl

end Lemmas

end SstpClient.Lib.Foundation
