import SstpClient.Lib.CString

/-!
`inet_pton`: whether a string is an address of IPv4 or of IPv6. The octets themselves are not kept.
-/

namespace SstpClient.Lib.InetPton

open SstpClient.Lib.CString

/-- The loop of `inet_pton` for IPv4: the octet in progress, whether a digit of it has been seen,
and the number of octets. -/
def ipv4Loop : List UInt8 → ℕ → Bool → ℕ → Bool
  | [], _, _, octets => octets = 4
  | c :: s, val, seen, octets =>
    if isDigit c then
      let new := val * 10 + (c.toNat - 48)
      if (seen && val = 0) || 255 < new then false
      else if seen then ipv4Loop s new true octets
      else if octets = 4 then false
      else ipv4Loop s new true (octets + 1)
    else if c = 46 && seen then
      if octets = 4 then false else ipv4Loop s 0 false octets
    else false

/-- `inet_pton` for `AF_INET`. -/
def inetPton4 (s : List UInt8) : Bool := ipv4Loop s 0 false 0

def isXDigit (c : UInt8) : Bool := isDigit c || (97 ≤ c && c ≤ 102) || (65 ≤ c && c ≤ 70)

/-- The end of `inet_pton` for IPv6: a group in progress is one more, and `::` stands for at least
one group. -/
def ipv6End (octets : ℕ) (gap : Bool) (digits : ℕ) : Bool :=
  let octets' := if digits = 0 then octets else octets + 2
  octets' ≤ 16 && if gap then octets' ≠ 16 else octets' = 16

/-- The loop of `inet_pton` for IPv6: the string from the group in progress on, the octets so far,
whether `::` has been seen, and the digits of the group. -/
def ipv6Loop : List UInt8 → List UInt8 → ℕ → Bool → ℕ → Bool
  | [], _, octets, gap, digits => ipv6End octets gap digits
  | c :: s, group, octets, gap, digits =>
    if isXDigit c then if digits = 4 then false else ipv6Loop s group octets gap (digits + 1)
    else if c = 58 then
      if digits = 0 then if gap then false else ipv6Loop s s octets true 0
      else if s = [] || 16 < octets + 2 then false
      else ipv6Loop s s (octets + 2) gap 0
    else if c = 46 && octets + 4 ≤ 16 && inetPton4 group then ipv6End (octets + 4) gap 0
    else false

/-- `inet_pton` for `AF_INET6`. A colon at the front is one of two. -/
def inetPton6 : List UInt8 → Bool
  | 58 :: 58 :: s => ipv6Loop (58 :: s) (58 :: s) 0 false 0
  | 58 :: _ => false
  | s => ipv6Loop s s 0 false 0

/-! ### What addresses are made of -/

section Lemmas

variable {s group : List UInt8} {octets digits n : ℕ} {gap : Bool}

lemma ipv4Loop_chars {val octets : ℕ} {seen : Bool} (h : ipv4Loop s val seen octets = true) :
    ∀ c ∈ s, isDigit c = true ∨ c = 46 := by
  induction s generalizing val seen octets with
  | nil => exact List.forall_mem_nil _
  | cons c s ih =>
    rw [List.forall_mem_cons]
    rw [ipv4Loop] at h
    by_cases hdigit : isDigit c = true
    · rw [if_pos hdigit] at h
      dsimp only at h
      split_ifs at h
      · exact ⟨.inl hdigit, ih h⟩
      · exact ⟨.inl hdigit, ih h⟩
    · rw [if_neg hdigit] at h
      split_ifs at h with hdot
      rw [Bool.and_eq_true, decide_eq_true_eq] at hdot
      exact ⟨.inr hdot.1, ih h⟩

/-- The characters of an address of IPv6. -/
def isAddrChar (c : UInt8) : Bool := isXDigit c || c = 58 || c = 46

lemma isAddrChar_of_digit {c : UInt8} (h : isDigit c = true ∨ c = 46) : isAddrChar c = true := by
  unfold isAddrChar isXDigit
  rcases h with h | rfl
  · rw [h]
    rfl
  · rfl

lemma ipv6Loop_chars (h : ipv6Loop s group octets gap digits = true) (hs : s <:+ group) :
    ∀ c ∈ s, isAddrChar c = true := by
  induction s generalizing group octets gap digits with
  | nil => exact List.forall_mem_nil _
  | cons c s ih =>
    have hrest : s <:+ group := (List.suffix_cons c s).trans hs
    rw [ipv6Loop] at h
    by_cases hx : isXDigit c = true
    · rw [if_pos hx] at h
      split_ifs at h
      rw [List.forall_mem_cons]
      exact ⟨by unfold isAddrChar; rw [hx]; rfl, ih h hrest⟩
    rw [if_neg hx] at h
    by_cases hcolon : c = 58
    · rw [if_pos hcolon] at h
      rw [List.forall_mem_cons]
      refine ⟨by rw [hcolon]; rfl, ?_⟩
      split_ifs at h
      · exact ih h (List.suffix_refl s)
      · exact ih h (List.suffix_refl s)
    · rw [if_neg hcolon] at h
      split_ifs at h with hdot
      rw [Bool.and_eq_true, Bool.and_eq_true] at hdot
      exact fun x hx => isAddrChar_of_digit (ipv4Loop_chars hdot.2 x (hs.subset hx))

/-- **An address of IPv6** has hexadecimal digits, colons and dots only. -/
theorem inetPton6_chars (h : inetPton6 s = true) : ∀ c ∈ s, isAddrChar c = true := by
  unfold inetPton6 at h
  split at h
  · rw [List.forall_mem_cons]
    exact ⟨rfl, ipv6Loop_chars h (List.suffix_refl _)⟩
  · cases h
  · exact ipv6Loop_chars h (List.suffix_refl _)

/-- The end is reached without a gap only after six groups. -/
lemma colons_of_end (h : ipv6End octets gap digits = true) (hgap : gap = true → 2 ≤ n)
    (hoctets : gap = false → octets ≤ 2 * n + 4) : 2 ≤ n := by
  cases gap with
  | true => exact hgap rfl
  | false =>
    have hle := hoctets rfl
    unfold ipv6End at h
    simp only [Bool.and_eq_true, decide_eq_true_eq, Bool.false_eq_true, if_false] at h
    split_ifs at h <;> omega

/-- `n` colons have been read: two for a gap, and one for each group before it. -/
lemma ipv6Loop_colons (h : ipv6Loop s group octets gap digits = true) (hgap : gap = true → 2 ≤ n)
    (hoctets : gap = false → octets ≤ 2 * n) (hfirst : digits = 0 → 1 ≤ n ∨ s.head? ≠ some 58) :
    2 ≤ n + s.count 58 := by
  induction s generalizing group octets gap digits n with
  | nil => exact colons_of_end h hgap fun hg => (hoctets hg).trans (Nat.le_add_right _ _)
  | cons c s ih =>
    rw [ipv6Loop] at h
    by_cases hx : isXDigit c = true
    · have hne : c ≠ 58 := by
        rintro rfl
        exact absurd hx (by decide)
      rw [if_pos hx] at h
      split_ifs at h
      rw [List.count_cons_of_ne hne]
      exact ih h hgap hoctets nofun
    rw [if_neg hx] at h
    by_cases hcolon : c = 58
    · subst hcolon
      rw [if_pos rfl] at h
      rw [List.count_cons_self, Nat.add_comm (s.count 58), ← Nat.add_assoc]
      by_cases hzero : digits = 0
      · have hone : 1 ≤ n := (hfirst hzero).resolve_right fun hne => hne rfl
        rw [if_pos hzero] at h
        split_ifs at h
        exact ih h (fun _ => Nat.succ_le_succ hone) nofun fun _ => .inl (Nat.le_add_left _ _)
      · rw [if_neg hzero] at h
        split_ifs at h
        refine ih h (fun hg => (hgap hg).trans (Nat.le_succ n)) (fun hg => ?_)
          fun _ => .inl (Nat.le_add_left _ _)
        have hle := hoctets hg
        omega
    · rw [if_neg hcolon] at h
      split_ifs at h with hdot
      refine (colons_of_end h hgap fun hg => ?_).trans (Nat.le_add_right _ _)
      have hle := hoctets hg
      omega

/-- **An address of IPv6** has two colons. -/
theorem inetPton6_colons (h : inetPton6 s = true) : 2 ≤ s.count 58 := by
  unfold inetPton6 at h
  split at h
  · have htwo := ipv6Loop_colons (n := 1) h nofun (fun _ => Nat.zero_le _) fun _ => .inl (le_refl 1)
    rw [List.count_cons_self]
    omega
  · cases h
  · next hgap hcolon =>
    have hhead : s.head? ≠ some 58 := by
      cases s with
      | nil => nofun
      | cons c t =>
        rintro heq
        rw [List.head?_cons, Option.some_inj] at heq
        exact hcolon t (by rw [heq])
    have htwo := ipv6Loop_colons (n := 0) h nofun (fun _ => le_refl 0) fun _ => .inr hhead
    omega

end Lemmas

end SstpClient.Lib.InetPton
