import Mathlib

/-!
Length-prefixed records in a stream. A record is a header that tells the length of what
follows it. If headers have one width and tell lengths up to a bound apart, a stream of
records can be taken apart in one way only.
-/

namespace SstpClient.Lib.Records

variable {β : Type*} (hdr : ℕ → List β)

/-- The stream of the records `ps`. -/
def encode (ps : List (List β)) : List β := ps.flatMap fun p => hdr p.length ++ p

/-- Headers are `width` long and different for different lengths up to `max`. -/
structure IsHeader (width max : ℕ) : Prop where
  width_pos : 0 < width
  length_eq : ∀ n, (hdr n).length = width
  inj : ∀ m n, m ≤ max → n ≤ max → hdr m = hdr n → m = n

variable {hdr} {width max : ℕ}

@[simp] lemma encode_nil : encode hdr [] = [] := rfl

lemma encode_cons (p : List β) (ps : List (List β)) :
    encode hdr (p :: ps) = hdr p.length ++ (p ++ encode hdr ps) := by
  simp [encode]

lemma encode_append (ps qs : List (List β)) :
    encode hdr (ps ++ qs) = encode hdr ps ++ encode hdr qs := by
  simp [encode]

/-- Two streams with one start have one first header. -/
lemma header_inj (h : IsHeader hdr width max) {m n : ℕ} {x y : List β} (hm : m ≤ max)
    (hn : n ≤ max) (heq : hdr m ++ x = hdr n ++ y) : m = n ∧ x = y := by
  have hlen : (hdr m).length = (hdr n).length := by rw [h.length_eq, h.length_eq]
  obtain ⟨hhdr, hrest⟩ := List.append_inj heq hlen
  exact ⟨h.inj m n hm hn hhdr, hrest⟩

/-- A record that is complete in the stream is at least a header long. -/
lemma width_le_encode (h : IsHeader hdr width max) (p : List β) (ps : List (List β)) :
    width + p.length ≤ (encode hdr (p :: ps)).length := by
  rw [encode_cons, List.length_append, List.length_append, h.length_eq]
  omega

/-- **Unique reading.** A stream of records that begins with the records `ps` goes on with
records. -/
theorem encode_append_inj (h : IsHeader hdr width max) {ps qs : List (List β)} {tail : List β}
    (hps : ∀ p ∈ ps, p.length ≤ max) (hqs : ∀ q ∈ qs, q.length ≤ max)
    (heq : encode hdr ps ++ tail = encode hdr qs) : ∃ rs, qs = ps ++ rs ∧ tail = encode hdr rs := by
  induction ps generalizing qs with
  | nil => exact ⟨qs, rfl, heq⟩
  | cons p ps ih =>
    cases qs with
    | nil =>
      have hlen := congrArg List.length heq
      have hle := width_le_encode h p ps
      have hpos := h.width_pos
      rw [List.length_append, encode_nil, List.length_nil] at hlen
      omega
    | cons q qs =>
      rw [encode_cons, encode_cons, List.append_assoc] at heq
      obtain ⟨hlen, hrest⟩ := header_inj h (hps p List.mem_cons_self) (hqs q List.mem_cons_self) heq
      rw [List.append_assoc] at hrest
      obtain ⟨rfl, hnext⟩ := List.append_inj hrest hlen
      obtain ⟨rs, rfl, htail⟩ := ih (fun p hp => hps p (List.mem_cons_of_mem _ hp))
        (fun q hq => hqs q (List.mem_cons_of_mem _ hq)) hnext
      exact ⟨rs, rfl, htail⟩

/-- What is too short to hold a record holds none. -/
lemma eq_nil_of_encode (h : IsHeader hdr width max) {tail : List β} {rs : List (List β)}
    (heq : tail = encode hdr rs) (hlt : tail.length < width) : rs = [] ∧ tail = [] := by
  cases rs with
  | nil => exact ⟨rfl, heq⟩
  | cons r rs =>
    have hle := width_le_encode h r rs
    rw [heq] at hlt
    omega

/-- A header with less than what it tells is no stream of records. -/
lemma cut_ne_encode (h : IsHeader hdr width max) {n : ℕ} {q : List β} {rs : List (List β)}
    (hn : n ≤ max) (hrs : ∀ r ∈ rs, r.length ≤ max) (hq : q.length < n) :
    hdr n ++ q ≠ encode hdr rs := by
  intro heq
  cases rs with
  | nil =>
    have hlen := congrArg List.length heq
    have hpos := h.width_pos
    rw [List.length_append, h.length_eq, encode_nil, List.length_nil] at hlen
    omega
  | cons r rs =>
    rw [encode_cons] at heq
    obtain ⟨hnr, rfl⟩ := header_inj h hn (hrs r List.mem_cons_self) heq
    rw [List.length_append] at hq
    omega

end SstpClient.Lib.Records
