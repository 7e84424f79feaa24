import Mathlib

/-!
Strings of C: `strchr`, `strrchr`, `strstr`, `strtoul`, `strtol`, `strcasecmp`, and `sscanf` for
the directives that match characters.
-/

namespace SstpClient.Lib.CString

/-- The string that begins at the front of the memory. -/
def cstr (mem : List UInt8) : List UInt8 := mem.takeWhile (· ≠ 0)

/-- `strchr`: the string from the first `c` on. -/
def strchr (s : List UInt8) (c : UInt8) : Option (List UInt8) :=
  match s.dropWhile (· ≠ c) with
  | [] => none
  | t => some t

/-- `strrchr`: the string from the last `c` on. -/
def strrchr : List UInt8 → UInt8 → Option (List UInt8)
  | [], _ => none
  | b :: s, c => (strrchr s c).or (if b = c then some (b :: s) else none)

/-- `strstr`: the string from the first `t` on. -/
def strstr : List UInt8 → List UInt8 → Option (List UInt8)
  | [], t => if t = [] then some [] else none
  | b :: s, t => if t.isPrefixOf (b :: s) then some (b :: s) else strstr s t

/-- The string that is left when the terminator is written where `r`, an end of it, begins. -/
def before (s r : List UInt8) : List UInt8 := s.take (s.length - r.length)

def isSpace (c : UInt8) : Bool := c = 32 || (9 ≤ c && c ≤ 13)

def isDigit (c : UInt8) : Bool := 48 ≤ c && c ≤ 57

def tolower (c : UInt8) : UInt8 := if 65 ≤ c && c ≤ 90 then c + 32 else c

/-- `strcasecmp` gives `0`. -/
def strcaseEq (s t : List UInt8) : Bool := s.map tolower = t.map tolower

/-- The number a string of digits stands for. -/
def decimal (s : List UInt8) : ℕ := s.foldl (fun n c => n * 10 + (c.toNat - 48)) 0

/-- `strtoul` with base ten and an `unsigned long` of 64 bits: the value, and whether `errno` is set
to `ERANGE`. -/
def strtoul (s : List UInt8) : ℕ × Bool :=
  let s := s.dropWhile isSpace
  let neg := s.head? = some 45
  let s := if s.head? = some 45 ∨ s.head? = some 43 then s.tail else s
  let n := decimal (s.takeWhile isDigit)
  if 2 ^ 64 ≤ n then (2 ^ 64 - 1, true) else if neg then ((2 ^ 64 - n) % 2 ^ 64, false) else (n, false)

/-- `strtol` with base ten and a `long` of 64 bits: the value, and whether `errno` is set to
`ERANGE`. -/
def strtol (s : List UInt8) : ℤ × Bool :=
  let s := s.dropWhile isSpace
  let neg := s.head? = some 45
  let s := if s.head? = some 45 ∨ s.head? = some 43 then s.tail else s
  let n := decimal (s.takeWhile isDigit)
  if neg then if 2 ^ 63 < n then (-2 ^ 63, true) else (-n, false)
  else if 2 ^ 63 ≤ n then (2 ^ 63 - 1, true) else (n, false)

/-- A directive of a `sscanf` format: a set of characters, which is stored, white space, or a
character. -/
inductive Directive
  | set (accept : UInt8 → Bool)
  | space
  | lit (c : UInt8)

/-- `sscanf`: what is stored, in order. It ends with the first directive that matches nothing; white
space always matches. -/
def sscanf : List Directive → List UInt8 → List (List UInt8)
  | [], _ => []
  | .set accept :: ds, s =>
    if s.takeWhile accept = [] then [] else s.takeWhile accept :: sscanf ds (s.dropWhile accept)
  | .space :: ds, s => sscanf ds (s.dropWhile isSpace)
  | .lit _ :: _, [] => []
  | .lit c :: ds, x :: s => if x = c then sscanf ds s else []

/-! ### Reading what has been written -/

section Lemmas

variable {p : UInt8 → Bool} {w s : List UInt8} {c : UInt8}

lemma takeWhile_append (hw : ∀ x ∈ w, p x = true) (hc : p c = false) :
    (w ++ c :: s).takeWhile p = w := by
  rw [List.takeWhile_append_of_pos hw, List.takeWhile_cons_of_neg (by simp [hc]), List.append_nil]

lemma dropWhile_append (hw : ∀ x ∈ w, p x = true) (hc : p c = false) :
    (w ++ c :: s).dropWhile p = c :: s := by
  rw [List.dropWhile_append_of_pos hw, List.dropWhile_cons_of_neg (by simp [hc])]

/-- A string and its terminator. -/
lemma cstr_append (hw : 0 ∉ w) : cstr (w ++ 0 :: s) = w := by
  refine takeWhile_append (fun x hx => ?_) (by decide)
  simp only [ne_eq, decide_not, Bool.not_eq_true', decide_eq_false_iff_not]
  rintro rfl
  exact hw hx

lemma length_cstr_le (mem : List UInt8) : (cstr mem).length ≤ mem.length :=
  (List.takeWhile_prefix _).length_le

/-- A string without a terminator is whole. -/
lemma cstr_of_notMem (hw : 0 ∉ w) : cstr w = w := by
  refine List.takeWhile_eq_self_iff.mpr fun x hx => ?_
  simp only [ne_eq, decide_not, Bool.not_eq_true', decide_eq_false_iff_not]
  rintro rfl
  exact hw hx

lemma notMem_cstr (s : List UInt8) : 0 ∉ cstr s := fun h => by
  simpa using List.mem_takeWhile_imp h

lemma strrchr_of_notMem (hc : c ∉ s) : strrchr s c = none := by
  induction s with
  | nil => rfl
  | cons b s ih =>
    rw [List.mem_cons, not_or] at hc
    rw [strrchr, ih hc.2, if_neg (Ne.symm hc.1)]
    rfl

/-- A search that begins at the character stays there. -/
@[simp] lemma strchr_cons_self : strchr (c :: s) c = some (c :: s) := by
  unfold strchr
  rw [List.dropWhile_cons_of_neg (by simp)]

lemma strchr_append (hw : c ∉ w) : strchr (w ++ c :: s) c = some (c :: s) := by
  have hdrop : (w ++ c :: s).dropWhile (· ≠ c) = c :: s := by
    refine dropWhile_append (fun x hx => ?_) (by simp)
    simp only [ne_eq, decide_not, Bool.not_eq_true', decide_eq_false_iff_not]
    rintro rfl
    exact hw hx
  unfold strchr
  rw [hdrop]

/-- What is found begins with the character. -/
lemma strchr_eq_some {t : List UInt8} (h : strchr s c = some t) : ∃ r, t = c :: r := by
  unfold strchr at h
  split at h
  · cases h
  · next t' hne =>
    cases h
    cases ht : s.dropWhile (· ≠ c) with
    | nil => exact absurd ht hne
    | cons x r =>
      have hx := List.head_dropWhile_not (· ≠ c) (l := s) (by rw [ht]; exact List.cons_ne_nil _ _)
      simp only [ht, List.head_cons] at hx
      simp only [ne_eq, decide_not, Bool.not_eq_false', decide_eq_true_eq] at hx
      exact ⟨r, by rw [hx]⟩

/-- A string from its first `c` on, and what is before. -/
lemma strchr_split {r : List UInt8} (h : strchr s c = some r) :
    ∃ w t, s = w ++ c :: t ∧ r = c :: t ∧ c ∉ w := by
  obtain ⟨t, rfl⟩ := strchr_eq_some h
  refine ⟨s.takeWhile (· ≠ c), t, ?_, rfl, fun hmem => ?_⟩
  · unfold strchr at h
    split at h
    · cases h
    · next t' ht =>
      rw [← Option.some.inj h]
      exact List.takeWhile_append_dropWhile.symm
  · simpa using List.mem_takeWhile_imp hmem

lemma strchr_eq_none : strchr s c = none ↔ c ∉ s := by
  constructor
  · intro h hmem
    obtain ⟨w, t, rfl, hw⟩ := List.eq_append_cons_of_mem hmem
    rw [strchr_append hw] at h
    cases h
  · intro hc
    cases h : strchr s c with
    | none => rfl
    | some r =>
      obtain ⟨w, t, rfl, -, -⟩ := strchr_split h
      exact absurd (List.mem_append_right w List.mem_cons_self) hc

lemma strrchr_append (hs : c ∉ s) : strrchr (w ++ c :: s) c = some (c :: s) := by
  induction w with
  | nil =>
    rw [List.nil_append, strrchr, strrchr_of_notMem hs, if_pos rfl]
    rfl
  | cons b w ih =>
    rw [List.cons_append, strrchr, ih]
    rfl

/-- A string from its last `c` on, and what is before. -/
lemma strrchr_split {r : List UInt8} (h : strrchr s c = some r) :
    ∃ w t, s = w ++ c :: t ∧ r = c :: t := by
  induction s with
  | nil => cases h
  | cons b s ih =>
    rw [strrchr] at h
    cases hs : strrchr s c with
    | some r' =>
      rw [hs] at h
      obtain ⟨w, t, rfl, hr⟩ := ih (hs.trans h)
      exact ⟨b :: w, t, rfl, hr⟩
    | none =>
      rw [hs, Option.none_or] at h
      split_ifs at h with hb
      exact ⟨[], s, by rw [hb]; rfl, by rw [← Option.some.inj h, hb]⟩

/-- A string that begins with `c` is found where the first `c` is. -/
lemma strstr_append {t : List UInt8} (hw : c ∉ w) :
    strstr (w ++ (c :: t ++ s)) (c :: t) = some (c :: t ++ s) := by
  have hfront : (c :: t).isPrefixOf (c :: t ++ s) = true :=
    List.isPrefixOf_iff_prefix.mpr (List.prefix_append _ _)
  induction w with
  | nil =>
    rw [List.nil_append, List.cons_append, strstr]
    exact if_pos hfront
  | cons b w ih =>
    rw [List.mem_cons, not_or] at hw
    have hnot : ¬ (c :: t).isPrefixOf (b :: (w ++ (c :: t ++ s))) = true := by
      intro h
      exact hw.1 (List.cons_prefix_cons.mp (List.isPrefixOf_iff_prefix.mp h)).1
    rw [List.cons_append, strstr, if_neg hnot, ih hw.2]

/-- A string that is no part is not found. -/
lemma strstr_eq_none {t : List UInt8} (h : ¬ t <:+: s) : strstr s t = none := by
  induction s with
  | nil =>
    rw [strstr, if_neg]
    rintro rfl
    exact h List.nil_infix
  | cons b s ih =>
    have hnot : ¬ t.isPrefixOf (b :: s) = true := fun hpre =>
      h (List.isPrefixOf_iff_prefix.mp hpre).isInfix
    rw [strstr, if_neg hnot]
    exact ih fun hin => h (hin.trans (List.suffix_cons b s).isInfix)

@[simp] lemma before_append (w r : List UInt8) : before (w ++ r) r = w := by
  unfold before
  rw [List.length_append, Nat.add_sub_cancel, List.take_left]

lemma isDigit_range (h : isDigit c = true) : 48 ≤ c.toNat ∧ c.toNat ≤ 57 := by
  simp only [isDigit, Bool.and_eq_true, decide_eq_true_eq, UInt8.le_iff_toNat_le] at h
  exact h

/-- A digit is neither a space nor a sign. -/
lemma digit_start {d : UInt8} (hd : isDigit d = true) :
    isSpace d = false ∧ ¬ (d = 45 ∨ d = 43) := by
  have hrange := isDigit_range hd
  refine ⟨?_, ?_⟩
  · simp only [isSpace, Bool.or_eq_false_iff, decide_eq_false_iff_not, Bool.and_eq_false_iff,
      UInt8.le_iff_toNat_le]
    refine ⟨?_, .inr ?_⟩
    · rintro rfl
      exact absurd hrange.1 (by decide)
    · change ¬ d.toNat ≤ 13
      omega
  · rintro (rfl | rfl)
    · exact absurd hrange.1 (by decide)
    · exact absurd hrange.1 (by decide)

/-- A string of digits. -/
lemma strtol_digits (hw : ∀ x ∈ w, isDigit x = true) (hne : w ≠ []) (hlt : decimal w < 2 ^ 63) :
    strtol w = ((decimal w : ℤ), false) := by
  have hall : w.takeWhile isDigit = w := List.takeWhile_eq_self_iff.mpr hw
  obtain ⟨d, w', rfl⟩ := List.exists_cons_of_ne_nil hne
  obtain ⟨hspace, hsign⟩ := digit_start (hw d List.mem_cons_self)
  unfold strtol
  rw [List.dropWhile_cons_of_neg (by simp [hspace])]
  simp only [List.head?_cons, Option.some.injEq]
  rw [if_neg hsign, hall, if_neg fun h => hsign (.inl h), if_neg (not_le.mpr hlt)]

/-- Digits up to a character that is none. -/
lemma strtoul_digits (hw : ∀ x ∈ w, isDigit x = true) (hne : w ≠ []) (hlt : decimal w < 2 ^ 64)
    (hc : isDigit c = false) : strtoul (w ++ c :: s) = (decimal w, false) := by
  obtain ⟨d, w', rfl⟩ := List.exists_cons_of_ne_nil hne
  obtain ⟨hspace, hsign⟩ := digit_start (hw d List.mem_cons_self)
  unfold strtoul
  rw [List.cons_append, List.dropWhile_cons_of_neg (by simp [hspace])]
  simp only [List.head?_cons, Option.some.injEq]
  rw [if_neg hsign, ← List.cons_append, takeWhile_append hw hc, if_neg (not_le.mpr hlt),
    if_neg fun h => hsign (.inl h)]

lemma takeWhile_stop (hc : p c = false) : (w ++ c :: s).takeWhile p = w.takeWhile p := by
  induction w with
  | nil => exact List.takeWhile_cons_of_neg (by simp [hc])
  | cons x w ih => rw [List.cons_append, List.takeWhile_cons, List.takeWhile_cons, ih]

/-- White space behind anything else ends the number. -/
lemma strtoul_line (hw : ∃ x ∈ w, isSpace x = false) (hc : isSpace c = true)
    (s s' : List UInt8) : strtoul (w ++ c :: s) = strtoul (w ++ c :: s') := by
  have hdigit : isDigit c = false := by
    by_contra h
    rw [Bool.not_eq_false] at h
    rw [(digit_start h).1] at hc
    cases hc
  obtain ⟨x, hx, hspace⟩ := hw
  obtain ⟨y, v, hv⟩ : ∃ y v, w.dropWhile isSpace = y :: v := by
    refine List.exists_cons_of_ne_nil fun hnil => ?_
    rw [List.dropWhile_eq_nil_iff.mp hnil x hx] at hspace
    cases hspace
  have hdrop : ∀ t, (w ++ t).dropWhile isSpace = y :: (v ++ t) := by
    intro t
    rw [List.dropWhile_append, hv]
    rfl
  have hnumber : ∀ sign : Prop, [Decidable sign] →
      (if sign then v ++ c :: s else y :: (v ++ c :: s)).takeWhile isDigit =
        (if sign then v ++ c :: s' else y :: (v ++ c :: s')).takeWhile isDigit := by
    intro sign _
    split_ifs
    · rw [takeWhile_stop hdigit, takeWhile_stop hdigit]
    · rw [← List.cons_append, takeWhile_stop hdigit, ← List.cons_append, takeWhile_stop hdigit]
  unfold strtoul
  simp only [hdrop, List.head?_cons, List.tail_cons, hnumber]

end Lemmas

end SstpClient.Lib.CString
