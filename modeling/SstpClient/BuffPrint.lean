import SstpClient.Fcs
import SstpClient.Lib.Unicode

/-!
Formatted text appended to a buffer by `sstp_buff_print`.

`vsnprintf` keeps the last byte of the room for its terminator, and the test of what it returns does
not: a text that fills the room exactly passes with its last byte overwritten.
-/

namespace SstpClient.BuffPrint

open SstpClient.Lib.Bytes SstpClient.Lib.Unicode SstpClient.Buffer SstpClient.Fcs

/-- What `vsnprintf` stores in `size` bytes: the text as far as it fits, and the terminator. A
negative size is a large one. -/
def stored (size : ℤ) (s : List UInt8) : List UInt8 :=
  if size = 0 then []
  else if size < 0 ∨ s.length < size then s ++ [0]
  else s.take (size - 1).toNat ++ [0]

/-- `vsnprintf` of the formatted text `s`: the length that the text has, or -1 when that is no
`int`, and what is stored. -/
def vsnprintf (size : ℤ) (s : List UInt8) : ℤ × List UInt8 :=
  (if intMax < s.length then -1 else s.length, stored size s)

/-- `sstp_buff_print` of the formatted text `s`. `none`: memory outside the buffer is written. -/
def sstpBuffPrint (b : Buff) (s : List UInt8) : Option (Status × Buff) := do
  let (ret, bytes) := vsnprintf (b.max - b.len) s
  let b ← b.write b.len bytes
  if ret ≤ 0 ∨ b.max - b.len < ret then return (.overflow, b)
  else return (.okay, { b with len := b.len + ret })

/-! ### One call -/

/-- A call, with the buffer before and after it. -/
structure Print where
  before : Buff
  text : List UInt8
  status : Status
  after : Buff

/-- The text is appended in full, or not at all. -/
structure AllOrNothing (p : Print) : Prop where
  earlier : p.after.data.take p.before.len.toNat = p.before.data.take p.before.len.toNat
  all : p.status = .okay → p.after.len = p.before.len + p.text.length ∧
    (p.after.data.drop p.before.len.toNat).take p.text.length = p.text
  nothing : p.status ≠ .okay → p.status = .overflow ∧ p.after.len = p.before.len

/-- The text does not fill the room to the last byte, or ends in the byte that is put there. -/
def Terminated (p : Print) : Prop :=
  p.text.length = p.before.max - p.before.len → p.text.getLastD 0 = 0

/-- The state of a buffer between two calls. -/
structure Valid (b : Buff) : Prop where
  len_nonneg : 0 ≤ b.len
  len_le : b.len ≤ b.max
  max_le : b.max ≤ intMax

section Call

variable {b : Buff} {s : List UInt8}

lemma length_stored_le {size : ℤ} (h : 0 ≤ size) : (stored size s).length ≤ size := by
  unfold stored
  split_ifs with h0 hs
  · simp [h0]
  · simp
    omega
  · simp
    omega

/-- Whether the text fits is asked of its length alone. -/
lemma buffPrint_eq (h : Valid b) : ∃ d, d = splice b.data b.len.toNat (stored (b.max - b.len) s) ∧
    d.length = b.data.length ∧
    sstpBuffPrint b s = some (if s ≠ [] ∧ s.length ≤ b.max - b.len
      then (.okay, ⟨b.len + s.length, b.off, d⟩) else (.overflow, ⟨b.len, b.off, d⟩)) := by
  obtain ⟨hlen, hle, hmax⟩ := h
  have hstored : (stored (b.max - b.len) s).length ≤ b.max - b.len := length_stored_le (by omega)
  have hwrite : b.write b.len (stored (b.max - b.len) s) =
      some { b with data := splice b.data b.len.toNat (stored (b.max - b.len) s) } :=
    write_of_le hlen (by omega)
  obtain ⟨-, -, -, hkept⟩ := write_eq_some hwrite
  have hsize : (splice b.data b.len.toNat (stored (b.max - b.len) s)).length = b.data.length := by
    unfold Buff.max at hkept
    exact_mod_cast hkept
  refine ⟨_, rfl, hsize, ?_⟩
  have hnil : s ≠ [] ↔ 0 < s.length := List.length_pos_iff.symm
  unfold sstpBuffPrint vsnprintf
  simp only [hwrite, Option.bind_eq_bind, Option.bind_some, Option.pure_def, hkept]
  by_cases hint : intMax < s.length
  · rw [if_pos hint, if_pos (.inl (by decide)), if_neg (by omega)]
  · rw [if_neg hint]
    by_cases hfits : s ≠ [] ∧ s.length ≤ b.max - b.len
    · rw [if_pos hfits]
      rw [hnil] at hfits
      rw [if_neg (by omega)]
    · rw [if_neg hfits]
      rw [hnil] at hfits
      rw [if_pos (by omega)]

/-- What a text that fits leaves in the buffer. -/
lemma stored_take (hs : s ≠ []) {size : ℤ} (h : s.length ≤ size) :
    (stored size s).take s.length = s ↔ (s.length = size → s.getLastD 0 = 0) := by
  have hpos := List.length_pos_iff.mpr hs
  unfold stored
  rw [if_neg (by omega)]
  by_cases hlt : s.length < size
  · rw [if_pos (.inr hlt), List.take_left' rfl]
    exact iff_of_true rfl fun heq => absurd heq (by omega)
  · have hcut : (size - 1).toNat = s.length - 1 := by omega
    obtain ⟨x, c, rfl⟩ : ∃ x c, s = x ++ [c] := ⟨_, _, (List.dropLast_append_getLast hs).symm⟩
    rw [if_neg (by omega), hcut, List.length_append, List.length_singleton, Nat.add_sub_cancel,
      List.take_left' rfl, List.take_of_length_le (by simp)]
    simp [show (x.length : ℤ) + 1 = size by simp at hlt h; omega, eq_comm]

/-- **One call** is all or nothing unless the text fills the room exactly. -/
lemma allOrNothing_iff {p : Print} (h : Valid p.before)
    (hp : sstpBuffPrint p.before p.text = some (p.status, p.after)) :
    (Valid p.after ∧ p.after.max = p.before.max) ∧ (AllOrNothing p ↔ Terminated p) := by
  obtain ⟨d, hd, hsize, heq⟩ := buffPrint_eq (s := p.text) h
  obtain ⟨hlen, hle, hmax⟩ := h
  have hn : p.before.len.toNat ≤ p.before.data.length := by
    unfold Buff.max at hle
    omega
  have hearlier : d.take p.before.len.toNat = p.before.data.take p.before.len.toNat := by
    rw [hd, take_splice_of_le hn le_rfl]
  have hkept : ∀ len, (⟨len, p.before.off, d⟩ : Buff).max = p.before.max := by
    intro len
    unfold Buff.max
    rw [hsize]
  rw [hp] at heq
  split_ifs at heq with hfits
  · simp only [Option.some.injEq, Prod.mk.injEq] at heq
    obtain ⟨hstatus, hafter⟩ := heq
    rw [hafter]
    refine ⟨⟨⟨by dsimp only; omega, ?_, ?_⟩, hkept _⟩, ?_⟩
    · rw [hkept]
      dsimp only
      omega
    · rw [hkept]
      exact hmax
    · have htext : (d.drop p.before.len.toNat).take p.text.length =
          (stored (p.before.max - p.before.len) p.text).take p.text.length := by
        have hlong : p.text.length ≤ (stored (p.before.max - p.before.len) p.text).length := by
          have := List.length_pos_iff.mpr hfits.1
          unfold stored
          split_ifs
          · omega
          · simp
          · simp
            omega
        rw [hd, splice, List.drop_left' (List.length_take_of_le hn),
          List.take_append_of_le_length hlong]
      have hiff := stored_take hfits.1 hfits.2
      constructor
      · intro ha
        have hall := (ha.all hstatus).2
        rw [hafter] at hall
        exact hiff.mp (htext.symm.trans hall)
      · intro ht
        refine ⟨by rw [hafter]; exact hearlier, fun _ => ?_, fun hne => absurd hstatus hne⟩
        rw [hafter]
        exact ⟨rfl, htext.trans (hiff.mpr ht)⟩
  · simp only [Option.some.injEq, Prod.mk.injEq] at heq
    obtain ⟨hstatus, hafter⟩ := heq
    rw [hafter]
    refine ⟨⟨⟨hlen, (hkept _).symm ▸ hle, (hkept _).symm ▸ hmax⟩, hkept _⟩, iff_of_true ?_ ?_⟩
    · refine ⟨by rw [hafter]; exact hearlier, fun hokay => ?_, fun _ => ?_⟩
      · rw [hstatus] at hokay
        cases hokay
      · rw [hafter]
        exact ⟨hstatus, rfl⟩
    · -- what does not fit is refused, and an empty text ends in no byte at all
      intro hfull
      by_cases hs : p.text = []
      · rw [hs]
        rfl
      · exact absurd ⟨hs, le_of_eq hfull⟩ hfits

end Call

/-! ### Calls one after the other -/

/-- The calls for some texts; a write outside the buffer ends them. -/
def prints : Buff → List (List UInt8) → List Print
  | _, [] => []
  | b, s :: ss =>
    match sstpBuffPrint b s with
    | none => []
    | some (status, b') => ⟨b, s, status, b'⟩ :: prints b' ss

/-- All calls are made, and each of them is all or nothing. -/
def Formats (b : Buff) (ss : List (List UInt8)) : Prop :=
  (prints b ss).length = ss.length ∧ ∀ p ∈ prints b ss, AllOrNothing p

/-- The buffer is valid before each call. -/
lemma prints_valid {b : Buff} (h : Valid b) (ss : List (List UInt8)) :
    (prints b ss).length = ss.length ∧ ∀ p ∈ prints b ss,
      Valid p.before ∧ sstpBuffPrint p.before p.text = some (p.status, p.after) := by
  induction ss generalizing b with
  | nil => exact ⟨rfl, fun p hp => absurd hp List.not_mem_nil⟩
  | cons s ss ih =>
    obtain ⟨d, -, -, heq⟩ := buffPrint_eq (s := s) h
    cases hcall : sstpBuffPrint b s with
    | none =>
      rw [hcall] at heq
      cases heq
    | some r =>
      have hvalid := (allOrNothing_iff (p := ⟨b, s, r.1, r.2⟩) h hcall).1.1
      obtain ⟨hlength, hcalls⟩ := ih hvalid
      simp only [prints, hcall]
      refine ⟨by rw [List.length_cons, List.length_cons, hlength], fun p hp => ?_⟩
      rcases List.mem_cons.mp hp with rfl | hp
      · exact ⟨h, hcall⟩
      · exact hcalls p hp

/-- **Formatted appends** are all or nothing, in every sequence of calls, exactly if none of them
fills the buffer to its last byte. -/
theorem formats_iff_terminated {b : Buff} (h : Valid b) (ss : List (List UInt8)) :
    Formats b ss ↔ ∀ p ∈ prints b ss, Terminated p := by
  obtain ⟨hlength, hcalls⟩ := prints_valid h ss
  have hiff : ∀ p ∈ prints b ss, AllOrNothing p ↔ Terminated p := fun p hp =>
    (allOrNothing_iff (hcalls p hp).1 (hcalls p hp).2).2
  constructor
  · intro hall p hp
    exact (hiff p hp).mp (hall.2 p hp)
  · intro hterm
    exact ⟨hlength, fun p hp => (hiff p hp).mpr (hterm p hp)⟩

theorem formats_iff_terminated_short :
    Formats (sstpBuffCreate 8) [[65, 66], [67]] ↔
      ∀ p ∈ prints (sstpBuffCreate 8) [[65, 66], [67]], Terminated p :=
  formats_iff_terminated ⟨by decide, by decide, by decide⟩ _

/-- A text that fills the buffer to its last byte loses it, unless that is the terminator. -/
lemma not_formats {b : Buff} (h : Valid b) {s : List UInt8} (hs : s ≠ [])
    (hfull : s.length = b.max - b.len) (hlast : s.getLastD 0 ≠ 0) : ¬ Formats b [s] := by
  intro hformats
  obtain ⟨d, -, -, heq⟩ := buffPrint_eq (s := s) h
  rw [if_pos ⟨hs, hfull.le⟩] at heq
  have hcall := hformats.2 _ (by simp only [prints, heq]; exact List.mem_singleton_self _)
  exact hlast ((allOrNothing_iff (p := ⟨b, s, .okay, _⟩) h heq).2.mp hcall hfull)

/-- The buffer of the HTTP client, with two bytes free. -/
def almostFull : Buff := ⟨8190, 0, List.replicate 8192 0⟩

/-- A line end that fills the buffer loses its line feed. -/
theorem almostFull_not_formats : ¬ Formats almostFull [[13, 10]] := by
  have hmax : almostFull.max = 8192 := by
    unfold Buff.max almostFull
    rw [List.length_replicate]
    rfl
  have hlen : almostFull.len = 8190 := rfl
  have hvalid : Valid almostFull :=
    ⟨by rw [hlen]; decide, by rw [hmax, hlen]; decide, by rw [hmax]; decide⟩
  exact not_formats hvalid (by decide) (by rw [hmax, hlen]; decide) (by decide)

/-! ### The request -/

/-- Texts appended until one of them fails. -/
def printAll : Buff → List (List UInt8) → Option (Status × Buff)
  | b, [] => some (.okay, b)
  | b, s :: ss =>
    match sstpBuffPrint b s with
    | some (.okay, b') => printAll b' ss
    | other => other

def text (s : String) : List UInt8 := utf8 s.toList

/-- `SSTP_HTTP_DFLT_PATH`. -/
def httpDfltPath : List UInt8 := text "/sra_\x7bBA195980-CD49-458b-9E23-C84EE0ADCD75\x7d/"

/-- The texts that `sstp_http_send_hello` formats. -/
def helloLines (server uuid : List UInt8) : List (List UInt8) := [
  text "SSTP_DUPLEX_POST " ++ (httpDfltPath ++ text " HTTP/1.1\r\n"),
  text "Host: " ++ (server ++ text "\r\n"),
  text "Content-Length: 18446744073709551615\r\n",
  text "SSTPCORRELATIONID: " ++ (uuid ++ text "\r\n\r\n")]

/-- `sstp_http_send_hello`, up to the buffer that is sent. -/
def sstpHttpSendHello (b : Buff) (server uuid : List UInt8) : Option (Status × Buff) :=
  printAll (sstpBuffReset b) (helloLines server uuid)

end SstpClient.BuffPrint
