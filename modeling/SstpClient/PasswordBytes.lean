import SstpClient.ChapKeys

/-!
The bytes of the password that the NT response and the MPPE keys are made from.

The keys are made from the password of the options, whose length is narrowed to an `int` and counted
with eight bits; the response is made from the copy that `sstp_pppd_start` keeps.
-/

namespace SstpClient.PasswordBytes

open SstpClient.Ppp SstpClient.MsChap SstpClient.ChapKeys

/-- A `size_t` given for an `int`. -/
def toInt (n : ℕ) : ℤ := Int.bmod n (2 ^ 32)

/-- What the loop of `sstp_chap_hash_pass` comes to. -/
inductive Converted
  | done (buf : List UInt8)
  /-- Past the buffer. -/
  | outside
  /-- After so many tests of its condition it has not ended. -/
  | running

/-- The loop of `sstp_chap_hash_pass`; its counter has eight bits, and wraps around. -/
def convertLoop (pass : List UInt8) (len : ℤ) : ℕ → UInt8 → List UInt8 → Converted
  | 0, _, _ => .running
  | fuel + 1, inx, buf =>
    if inx.toNat < len then
      if 2 * inx.toNat < buf.length then
        convertLoop pass len fuel (inx + 1) (buf.set (2 * inx.toNat) (pass.getD inx.toNat 0))
      else .outside
    else .done buf

/-- What `sstp_chap_hash_pass` gives to its first MD4. -/
inductive FirstText
  | refused
  | fed (text : List UInt8)
  /-- A negative length is shifted, or the buffer is left. -/
  | undefined

def FirstText.text : FirstText → Option (List UInt8)
  | .fed text => some text
  | _ => none

@[irreducible] def chapHashText (pass : List UInt8) (len : ℤ) : FirstText :=
  if 255 < len then .refused
  else
    match convertLoop pass len 256 0 (List.replicate 512 0) with
    | .done buf => if len < 0 then .undefined else .fed (buf.take (2 * len).toNat)
    | _ => .undefined

/-- The call in `sstp_chap_mppe_get`. -/
def mppeText (password : List UInt8) : FirstText := chapHashText password (toInt password.length)

/-- The password that `sstp_pppd_start` keeps. -/
def storedPassword (user password : List UInt8) (ctx : Pppd) : List UInt8 :=
  (sstpPppdStart user password ctx).1.password

/-- The loop ends, inside the buffer, for each length that is not refused. -/
def LoopEnds (pass : List UInt8) : Prop :=
  ∀ len : ℤ, len ≤ 255 → ∃ buf, ∀ fuel, 256 ≤ fuel →
    convertLoop pass len fuel 0 (List.replicate 512 0) = .done buf

/-- If the keys are made, they are made from the bytes that the NT response is made from. -/
def SameText (password : List UInt8) : FirstText → Prop
  | .refused => True
  | .fed text => ∀ user ctx, text = unicodePassword (storedPassword user password ctx)
  | .undefined => False

def SameBytes (password : List UInt8) : Prop := SameText password (mppeText password)

/-! ### The loop -/

/-- The buffer after `n` rounds. -/
def rounds (pass : List UInt8) (n : ℕ) : List UInt8 :=
  (List.range n).foldl (fun buf inx => buf.set (2 * inx) (pass.getD inx 0)) (List.replicate 512 0)

@[simp] lemma length_rounds (pass : List UInt8) (n : ℕ) : (rounds pass n).length = 512 := by
  induction n with
  | zero => exact List.length_replicate
  | succ n ih =>
    unfold rounds at ih ⊢
    rw [List.range_succ, List.foldl_append, List.foldl_cons, List.foldl_nil, List.length_set, ih]

lemma rounds_succ (pass : List UInt8) (n : ℕ) :
    rounds pass (n + 1) = (rounds pass n).set (2 * n) (pass.getD n 0) := by
  unfold rounds
  rw [List.range_succ, List.foldl_append, List.foldl_cons, List.foldl_nil]

/-- The counter does not wrap around before it reaches a length of eight bits. -/
lemma convertLoop_rounds (pass : List UInt8) {len : ℤ} {n k : ℕ} (hlen : len.toNat = n + k)
    (h255 : n + k ≤ 255) {fuel : ℕ} (hfuel : k < fuel) :
    convertLoop pass len fuel (UInt8.ofNat n) (rounds pass n) = .done (rounds pass (n + k)) := by
  obtain ⟨fuel, rfl⟩ : ∃ m, fuel = m + 1 := ⟨fuel - 1, by omega⟩
  have hcount : (UInt8.ofNat n).toNat = n := by
    rw [UInt8.toNat_ofNat']
    omega
  induction k generalizing n fuel with
  | zero =>
    rw [convertLoop, if_neg (by rw [hcount]; omega), Nat.add_zero]
  | succ k ih =>
    obtain ⟨fuel, rfl⟩ : ∃ m, fuel = m + 1 := ⟨fuel - 1, by omega⟩
    have hnext : UInt8.ofNat n + 1 = UInt8.ofNat (n + 1) := by
      rw [UInt8.ofNat_add]
      rfl
    rw [convertLoop, if_pos (by rw [hcount]; omega), hcount, length_rounds, if_pos (by omega),
      hnext, ← rounds_succ, ih (by omega) (by omega) fuel (by omega), Nat.add_right_comm,
      Nat.add_assoc]
    rw [UInt8.toNat_ofNat']
    omega

lemma convertLoop_eq (pass : List UInt8) {len : ℤ} (h : len ≤ 255) {fuel : ℕ} (hfuel : 256 ≤ fuel) :
    convertLoop pass len fuel 0 (List.replicate 512 0) = .done (rounds pass len.toNat) := by
  have hloop : convertLoop pass len fuel (UInt8.ofNat 0) (rounds pass 0) =
      .done (rounds pass (0 + len.toNat)) :=
    convertLoop_rounds pass (by omega) (by omega) (by omega)
  rwa [Nat.zero_add] at hloop

/-- **The loop ends**, for each length. -/
lemma loopEnds (pass : List UInt8) : LoopEnds pass :=
  fun len hlen => ⟨rounds pass len.toNat, fun _ hfuel => convertLoop_eq pass hlen hfuel⟩

/-! ### The two texts -/

lemma length_pairs (bytes : List UInt8) :
    (bytes.flatMap fun b => [b, 0]).length = 2 * bytes.length := by
  rw [List.length_flatMap]
  simp [mul_comm]

/-- What is fed of a password. -/
lemma chapHashText_eq {pass : List UInt8} {len : ℕ} (h255 : len ≤ 255) (hlen : len ≤ pass.length) :
    chapHashText pass len = .fed ((pass.take len).flatMap fun b => [b, 0]) := by
  have hnat : (2 * (len : ℤ)).toNat = ((pass.take len).flatMap fun b => [b, (0 : UInt8)]).length := by
    rw [length_pairs, List.length_take_of_le hlen]
    omega
  unfold chapHashText
  rw [if_neg (by omega), convertLoop_eq pass (by omega) le_rfl]
  dsimp only
  rw [if_neg (by omega), Int.toNat_natCast, rounds, convert_rounds (by omega) hlen, hnat,
    List.take_left' rfl]

lemma chapHashText_refused {pass : List UInt8} {len : ℤ} (h : 255 < len) :
    chapHashText pass len = .refused := by
  unfold chapHashText
  exact if_pos h

lemma chapHashText_negative {pass : List UInt8} {len : ℤ} (h : len < 0) :
    chapHashText pass len = .undefined := by
  unfold chapHashText
  rw [if_neg (by omega), convertLoop_eq pass (by omega) le_rfl]
  exact if_pos h

/-- What the NT response is made from. -/
lemma unicodePassword_stored (user password : List UInt8) (ctx : Pppd) :
    unicodePassword (storedPassword user password ctx) =
      (password.take 255).flatMap fun b => [b, 0] := by
  have hstored : storedPassword user password ctx = password.take 255 := rfl
  rw [hstored, unicodePassword_eq (List.length_take_le 255 password)]

/-- The length is an `int`, or narrowed to one that is refused or is that of the copy. -/
def Counted (password : List UInt8) : Prop :=
  toInt password.length = password.length ∨ 255 ≤ toInt password.length

lemma toInt_cases (n : ℕ) : toInt n ≤ n ∧ (n < 2147483648 → toInt n = n) := by
  unfold toInt
  rw [Int.bmod_def]
  omega

lemma pairs_injective {xs ys : List UInt8}
    (h : (xs.flatMap fun b => [b, 0]) = ys.flatMap fun b => [b, 0]) : xs = ys := by
  induction xs generalizing ys with
  | nil =>
    cases ys with
    | nil => rfl
    | cons y ys => simp at h
  | cons x xs ih =>
    cases ys with
    | nil => simp at h
    | cons y ys =>
      simp only [List.flatMap_cons, List.cons_append, List.nil_append, List.cons.injEq,
        true_and] at h
      rw [h.1, ih h.2]

/-- As many bytes are converted as the copy has. -/
lemma sameText_fed {password : List UInt8} {n : ℕ} (h255 : n ≤ 255) (hn : n ≤ password.length) :
    SameText password (chapHashText password n) ↔ n = min 255 password.length := by
  rw [chapHashText_eq h255 hn]
  constructor
  · intro h
    have hsame := pairs_injective
      ((h [] (sstpPppdCreate 0)).trans (unicodePassword_stored _ password _))
    have hlen := congrArg List.length hsame
    rw [List.length_take, List.length_take] at hlen
    omega
  · intro h user ctx
    have htake : password.take n = password.take 255 := by
      rw [h, ← List.take_take, List.take_length]
    rw [unicodePassword_stored, htake]

/-- **Both are made from the same bytes** of every password, and the loop ends, exactly if its length
is counted right. -/
theorem sameBytes_iff_counted (password : List UInt8) :
    (SameBytes password ∧ LoopEnds password) ↔ Counted password := by
  obtain ⟨hle, -⟩ := toInt_cases password.length
  rw [and_iff_left (loopEnds password)]
  unfold SameBytes mppeText Counted
  by_cases hbig : 255 < toInt password.length
  · rw [chapHashText_refused hbig]
    exact iff_of_true trivial (.inr hbig.le)
  · by_cases hneg : toInt password.length < 0
    · rw [chapHashText_negative hneg]
      exact iff_of_false id (by omega)
    · obtain ⟨n, hn⟩ : ∃ n : ℕ, toInt password.length = n := ⟨(toInt password.length).toNat, by omega⟩
      rw [hn, sameText_fed (by omega) (by omega)]
      omega

/-- Nothing of the password is left, and the keys are made from it. -/
lemma not_sameBytes {password : List UInt8} (hpos : 0 < password.length)
    (hzero : toInt password.length = (0 : ℕ)) : ¬ SameBytes password := by
  unfold SameBytes mppeText
  rw [hzero, sameText_fed (Nat.zero_le _) (Nat.zero_le _)]
  omega

/-- A password of `2 ^ 32` bytes. -/
theorem huge_not_sameBytes :
    ¬ (SameBytes (List.replicate 4294967296 97) ∧ LoopEnds (List.replicate 4294967296 97)) := by
  have hlength : (List.replicate 4294967296 (97 : UInt8)).length = 4294967296 :=
    List.length_replicate
  rintro ⟨h, -⟩
  refine not_sameBytes ?_ ?_ h
  · rw [hlength]
    decide
  · rw [hlength]
    decide

end SstpClient.PasswordBytes
