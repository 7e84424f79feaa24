import SstpClient.Buffer
import SstpClient.Lib.CString

/-!
The response to the HTTP upgrade: `sstp_http_get` and `sstp_http_get_header` of `sstp-buff.c`.

The loop looks for the end of a header from the line break before it, and finds that one. So it
reads the first header into every entry of the array; and it bounds neither the name nor the
value.
-/

namespace SstpClient.Http

open SstpClient.Lib.CString SstpClient.Buffer

/-! ### Reading the headers -/

/-- `http_header_st`, by the strings stored in its two arrays, whole even where they overrun. -/
structure HttpHeader where
  name : List UInt8
  value : List UInt8
  deriving DecidableEq

inductive Field
  | name | value
  deriving DecidableEq

/-- The sizes of the two arrays. -/
def Field.size : Field → ℕ
  | .name => 32
  | .value => 128

/-- Bytes stored at the beginning of a field of an entry, the terminator with them. -/
structure Write where
  index : ℕ
  field : Field
  bytes : List UInt8
  deriving DecidableEq

/-- `"%[^:]: %[^\r\n]"`. -/
def headerFormat : List Directive :=
  [.set fun c => c ≠ 58, .lit 58, .space, .set fun c => c ≠ 13 && c ≠ 10]

/-- What `sscanf` stores into the entry. -/
def store (array : List HttpHeader) (index : ℕ) : List (List UInt8) → List HttpHeader × List Write
  | [] => (array, [])
  | [name] => (array.modify index fun h => { h with name := name }, [⟨index, .name, name ++ [0]⟩])
  | name :: value :: _ =>
    (array.set index ⟨name, value⟩, [⟨index, .name, name ++ [0]⟩, ⟨index, .value, value ++ [0]⟩])

/-- The loop of `sstp_http_get`, with `k` entries of the array left: the index after it, the array,
and what it stored. -/
def headerLoop : ℕ → ℕ → List UInt8 → List HttpHeader → ℕ × List HttpHeader × List Write
  | 0, index, _, array => (index, array, [])
  | k + 1, index, ptr1, array =>
    let fields := sscanf headerFormat (ptr1.drop 1)
    let r := store array index fields
    if fields.length ≠ 2 then (index, r.1, r.2)
    else
      match strchr ptr1 10 with
      | none => (index + 1, r.1, r.2)
      | some ptr1 =>
        if ptr1.getD 1 0 ≠ 13 ∧ ptr1.getD 1 0 ≠ 10 then
          let rest := headerLoop k (index + 1) ptr1 r.1
          (rest.1, rest.2.1, r.2 ++ rest.2.2)
        else (index + 1, r.1, r.2)

structure HttpGet where
  status : Status
  code : ℤ
  count : ℕ
  array : List HttpHeader
  writes : List Write

/-- The number behind the protocol version, as an `int`. -/
def statusCode (data : List UInt8) : ℤ := Int.bmod (strtoul (cstr (data.drop 9))).1 (2 ^ 32)

/-- `*code == -1 && errno == ERANGE`; `erange` tells whether `errno` was `ERANGE` before. -/
def OutOfRange (data : List UInt8) (erange : Bool) : Prop :=
  statusCode data = -1 ∧ (erange || (strtoul (cstr (data.drop 9))).2) = true

instance (data : List UInt8) (erange : Bool) : Decidable (OutOfRange data erange) := by
  unfold OutOfRange
  infer_instance

/-- `sstp_http_get` on the memory of the buffer, with `*count` the size of the array. -/
def sstpHttpGet (data : List UInt8) (erange : Bool) (array : List HttpHeader) : HttpGet :=
  if OutOfRange data erange then ⟨.fail, statusCode data, array.length, array, []⟩
  else
    match strchr (cstr data) 10 with
    | none => ⟨.fail, statusCode data, array.length, array, []⟩
    | some ptr1 =>
      let r := headerLoop array.length 0 ptr1 array
      ⟨.okay, statusCode data, r.1, r.2.1, r.2.2⟩

/-- `sstp_http_get_header`. -/
def sstpHttpGetHeader (name : List UInt8) : ℕ → List HttpHeader → Option HttpHeader
  | 0, _ => none
  | _, [] => none
  | count + 1, h :: array =>
    if strcaseEq name h.name then some h else sstpHttpGetHeader name count array

/-! ### What the loop does -/

/-- The fields of a header line. -/
lemma sscanf_header {name value rest : List UInt8} (hname : name ≠ []) (hcolon : 58 ∉ name)
    (hvalue : value ≠ []) (hspace : ∀ c, value.head? = some c → isSpace c = false)
    (hline : ∀ c ∈ value, c ≠ 13 ∧ c ≠ 10) :
    sscanf headerFormat (name ++ (58 :: 32 :: (value ++ 13 :: rest))) = [name, value] := by
  have hset : ∀ x ∈ name, (decide (x ≠ 58)) = true := fun x hx =>
    decide_eq_true fun heq => hcolon (heq ▸ hx)
  have hend : ∀ x ∈ value, (decide (x ≠ 13) && decide (x ≠ 10)) = true := fun x hx => by
    obtain ⟨h13, h10⟩ := hline x hx
    simp [h13, h10]
  obtain ⟨c, value', rfl⟩ := List.exists_cons_of_ne_nil hvalue
  have hc : isSpace c = false := hspace c rfl
  unfold headerFormat
  rw [sscanf, takeWhile_append hset (by decide), dropWhile_append hset (by decide), if_neg hname,
    sscanf, if_pos rfl, sscanf, List.dropWhile_cons_of_pos (by decide), List.cons_append,
    List.dropWhile_cons_of_neg (by simp [hc]), ← List.cons_append, sscanf,
    takeWhile_append hend (by decide), if_neg hvalue, sscanf]

/-- **The scan does not move on**: as long as there are entries, the header behind the line break is
read again. -/
theorem headerLoop_repeats {t name value : List UInt8} (hscan : sscanf headerFormat t = [name, value])
    (h13 : t.getD 0 0 ≠ 13) (h10 : t.getD 0 0 ≠ 10) (k index : ℕ) (array : List HttpHeader)
    (hlen : array.length = index + k) :
    (headerLoop k index (10 :: t) array).1 = index + k ∧
      ∀ i, (headerLoop k index (10 :: t) array).2.1[i]? =
        if index ≤ i ∧ i < index + k then some ⟨name, value⟩ else array[i]? := by
  induction k generalizing index array with
  | zero =>
    refine ⟨rfl, fun i => ?_⟩
    rw [if_neg (by omega)]
    rfl
  | succ k ih =>
    have hstep : headerLoop (k + 1) index (10 :: t) array =
        ((headerLoop k (index + 1) (10 :: t) (array.set index ⟨name, value⟩)).1,
          (headerLoop k (index + 1) (10 :: t) (array.set index ⟨name, value⟩)).2.1,
          [⟨index, .name, name ++ [0]⟩, ⟨index, .value, value ++ [0]⟩] ++
            (headerLoop k (index + 1) (10 :: t) (array.set index ⟨name, value⟩)).2.2) := by
      have htwo : ¬ [name, value].length ≠ 2 := not_not.mpr rfl
      simp only [headerLoop, List.drop_one, List.tail_cons, hscan, strchr_cons_self]
      rw [if_neg htwo, List.getD_cons_succ, if_pos ⟨h13, h10⟩]
      rfl
    obtain ⟨hindex, hget⟩ := ih (index + 1) (array.set index ⟨name, value⟩)
      (by rw [List.length_set]; omega)
    rw [hstep]
    refine ⟨by rw [hindex]; omega, fun i => ?_⟩
    dsimp only
    rw [hget, List.getElem?_set]
    by_cases hi : index = i
    · subst hi
      rw [if_neg (by omega), if_pos rfl, if_pos (by omega), if_pos (by omega)]
    · rw [if_neg hi]
      by_cases hin : index + 1 ≤ i ∧ i < index + 1 + k
      · rw [if_pos hin, if_pos (by omega)]
      · rw [if_neg hin, if_neg (by omega)]

/-! ### The fields stay within their arrays -/

/-- What is stored begins in an entry of the array and ends, with its terminator, inside the field. -/
def InArrays (count : ℕ) (writes : List Write) : Prop :=
  ∀ w ∈ writes, w.index < count ∧ w.bytes.length ≤ w.field.size

/-- The name of the first header: all that precedes a colon. -/
def firstName (t : List UInt8) : List UInt8 := t.takeWhile fun c => c ≠ 58

/-- Its value: what follows the colon and white space, to the end of that line. -/
def firstValue (t : List UInt8) : List UInt8 :=
  (((t.dropWhile fun c => c ≠ 58).drop 1).dropWhile isSpace).takeWhile fun c => c ≠ 13 && c ≠ 10

/-- The condition: if the response is read on behind its first line, into an array that is not empty,
the first header there has a name of at most 31 characters and a value of at most 127; or it has
no name. -/
def FirstFits (data : List UInt8) (erange : Bool) (array : List HttpHeader) : Prop :=
  ¬ OutOfRange data erange → array ≠ [] →
    ∀ t, strchr (cstr data) 10 = some (10 :: t) → firstName t ≠ [] →
      (firstName t).length ≤ 31 ∧ (firstValue t).length ≤ 127

section Writes

variable {t : List UInt8}

/-- What is scanned behind a line break. -/
lemma sscanf_eq (t : List UInt8) : sscanf headerFormat t =
    if firstName t = [] then [] else if firstValue t = [] then [firstName t]
      else [firstName t, firstValue t] := by
  unfold headerFormat firstName firstValue
  rw [sscanf]
  split_ifs with hname hvalue
  · rfl
  · cases hd : t.dropWhile fun c => decide (c ≠ 58) with
    | nil => rw [sscanf]
    | cons x rest =>
      rw [hd, List.drop_one, List.tail_cons] at hvalue
      rw [sscanf]
      split_ifs
      · rw [sscanf, sscanf, if_pos hvalue]
      · rfl
  · cases hd : t.dropWhile fun c => decide (c ≠ 58) with
    | nil =>
      rw [hd] at hvalue
      exact absurd rfl hvalue
    | cons x rest =>
      have hx : x = 58 := by
        have hnot := List.head_dropWhile_not (fun c : UInt8 => decide (c ≠ 58)) (l := t)
          (by rw [hd]; exact List.cons_ne_nil _ _)
        simp only [hd, List.head_cons] at hnot
        simpa using hnot
      rw [hd, List.drop_one, List.tail_cons] at hvalue
      rw [sscanf, if_pos hx, sscanf, sscanf, if_neg hvalue, sscanf]
      rfl

/-- The first header is all that is ever stored. -/
lemma mem_writes {k index : ℕ} {array : List HttpHeader} {w : Write}
    (h : w ∈ (headerLoop k index (10 :: t) array).2.2) : w.index < index + k ∧ firstName t ≠ [] ∧
      (w.field = .name ∧ w.bytes = firstName t ++ [0] ∨
        w.field = .value ∧ w.bytes = firstValue t ++ [0]) := by
  induction k generalizing index array with
  | zero => cases h
  | succ k ih =>
    have hstored : ∀ w ∈ (store array index (sscanf headerFormat t)).2,
        w.index = index ∧ firstName t ≠ [] ∧ (w.field = .name ∧ w.bytes = firstName t ++ [0] ∨
          w.field = .value ∧ w.bytes = firstValue t ++ [0]) := by
      intro w hw
      rw [sscanf_eq] at hw
      split_ifs at hw with hname hvalue
      · cases hw
      · cases List.mem_singleton.mp hw
        exact ⟨rfl, hname, .inl ⟨rfl, rfl⟩⟩
      · rcases List.mem_cons.mp hw with rfl | hw
        · exact ⟨rfl, hname, .inl ⟨rfl, rfl⟩⟩
        · cases List.mem_singleton.mp hw
          exact ⟨rfl, hname, .inr ⟨rfl, rfl⟩⟩
    have hhere : w ∈ (store array index (sscanf headerFormat t)).2 → w.index < index + (k + 1) ∧
        firstName t ≠ [] ∧ (w.field = .name ∧ w.bytes = firstName t ++ [0] ∨
          w.field = .value ∧ w.bytes = firstValue t ++ [0]) := fun hw => by
      obtain ⟨hindex, hrest⟩ := hstored w hw
      exact ⟨by omega, hrest⟩
    simp only [headerLoop, List.drop_one, List.tail_cons, strchr_cons_self] at h
    split_ifs at h
    · exact hhere h
    · rcases List.mem_append.mp h with h | h
      · exact hhere h
      · obtain ⟨hindex, hrest⟩ := ih h
        exact ⟨by omega, hrest⟩
    · exact hhere h

/-- The first entry gets the name, and the value if there is one. -/
lemma writes_first {k index : ℕ} {array : List HttpHeader} (hname : firstName t ≠ []) :
    ⟨index, .name, firstName t ++ [0]⟩ ∈ (headerLoop (k + 1) index (10 :: t) array).2.2 ∧
      (firstValue t ≠ [] →
        ⟨index, .value, firstValue t ++ [0]⟩ ∈ (headerLoop (k + 1) index (10 :: t) array).2.2) := by
  have hhere : ∀ w ∈ (store array index (sscanf headerFormat t)).2,
      w ∈ (headerLoop (k + 1) index (10 :: t) array).2.2 := by
    intro w hw
    simp only [headerLoop, List.drop_one, List.tail_cons, strchr_cons_self]
    split_ifs
    · exact hw
    · exact List.mem_append_left _ hw
    · exact hw
  rw [sscanf_eq, if_neg hname] at hhere
  split_ifs at hhere with hvalue
  · exact ⟨hhere _ (List.mem_singleton_self _), fun hne => absurd hvalue hne⟩
  · exact ⟨hhere _ List.mem_cons_self,
      fun _ => hhere _ (List.mem_cons_of_mem _ (List.mem_singleton_self _))⟩

end Writes

/-- **Names and values stay within their arrays** exactly when those of the first header fit. -/
theorem inArrays_iff_firstFits (data : List UInt8) (erange : Bool) (array : List HttpHeader) :
    InArrays array.length (sstpHttpGet data erange array).writes ↔ FirstFits data erange array := by
  have hnothing : ∀ count, InArrays count [] := fun count w hw => (List.not_mem_nil hw).elim
  unfold FirstFits sstpHttpGet
  dsimp only
  split_ifs with hrange
  · exact iff_of_true (hnothing _) fun h => absurd hrange h
  · cases hfirst : strchr (cstr data) 10 with
    | none => exact iff_of_true (hnothing _) fun _ _ t ht => by cases ht
    | some ptr1 =>
      obtain ⟨t, rfl⟩ := strchr_eq_some hfirst
      dsimp only
      constructor
      · intro h _ hne t' ht' hname
        cases ht'
        obtain ⟨k, hk⟩ := Nat.exists_eq_succ_of_ne_zero fun h0 =>
          hne (List.length_eq_zero_iff.mp h0)
        rw [hk] at h
        obtain ⟨hw, hv⟩ := @writes_first t k 0 array hname
        have hlen := (h _ hw).2
        simp only [List.length_append, List.length_singleton, Field.size] at hlen
        refine ⟨by omega, ?_⟩
        by_cases hvalue : firstValue t = []
        · rw [hvalue]
          exact Nat.zero_le _
        · have hlen := (h _ (hv hvalue)).2
          simp only [List.length_append, List.length_singleton, Field.size] at hlen
          omega
      · intro h w hw
        obtain ⟨hindex, hname, hfield⟩ := mem_writes hw
        have hne : array ≠ [] := by
          rintro rfl
          exact absurd hindex (by simp)
        obtain ⟨hn, hv⟩ := h hrange hne t rfl hname
        refine ⟨by omega, ?_⟩
        rcases hfield with ⟨hf, hb⟩ | ⟨hf, hb⟩
        · rw [hf, hb]
          simp only [List.length_append, List.length_singleton, Field.size]
          omega
        · rw [hf, hb]
          simp only [List.length_append, List.length_singleton, Field.size]
          omega

/-- A header with a name of 32 characters: there is no room for its terminator. -/
theorem long_name_overruns : ¬ InArrays 32 (sstpHttpGet
    ([72, 84, 84, 80, 47, 49, 46, 49, 32, 50, 48, 48, 32, 79, 75, 13, 10] ++
      List.replicate 32 88 ++ [58, 32, 49, 13, 10, 13, 10, 0]) false
    (List.replicate 32 ⟨[], []⟩)).writes := by
  unfold InArrays
  decide +kernel

/-! ### The headers of a response -/

/-- A response: the digits of its code, the reason, and the headers. -/
structure Response where
  digits : List UInt8
  reason : List UInt8
  headers : List HttpHeader

/-- A header that fits an entry. -/
structure HeaderOk (h : HttpHeader) : Prop where
  nameSize : 1 ≤ h.name.length ∧ h.name.length ≤ 31
  name : ∀ c ∈ h.name, c ≠ 58 ∧ c ≠ 13 ∧ c ≠ 10 ∧ c ≠ 0
  valueSize : 1 ≤ h.value.length ∧ h.value.length ≤ 127
  value : ∀ c ∈ h.value, c ≠ 13 ∧ c ≠ 10 ∧ c ≠ 0
  start : ∀ c, h.value.head? = some c → isSpace c = false

structure WellFormed (r : Response) : Prop where
  size : r.digits.length = 3
  digits : ∀ c ∈ r.digits, isDigit c = true
  reason : ∀ c ∈ r.reason, c ≠ 13 ∧ c ≠ 10 ∧ c ≠ 0
  headers : ∀ h ∈ r.headers, HeaderOk h

def headerLine (h : HttpHeader) : List UInt8 := h.name ++ (58 :: 32 :: (h.value ++ [13, 10]))

/-- The header lines and the empty line. -/
def headerText (headers : List HttpHeader) : List UInt8 := headers.flatMap headerLine ++ [13, 10]

/-- `"HTTP/1.1 NNN reason"`, with its carriage return. -/
def statusLine (r : Response) : List UInt8 :=
  [72, 84, 84, 80, 47, 49, 46, 49, 32] ++ (r.digits ++ (32 :: (r.reason ++ [13])))

def text (r : Response) : List UInt8 := statusLine r ++ (10 :: headerText r.headers)

/-- The headers are returned: the code, their number and each of them, so that a header is found by
its name. -/
structure Returns (r : Response) (g : HttpGet) : Prop where
  status : g.status = .okay
  code : g.code = decimal r.digits
  count : g.count = r.headers.length
  entries : ∀ i < r.headers.length, g.array[i]? = r.headers[i]?
  lookup : ∀ name, sstpHttpGetHeader name g.count g.array =
    r.headers.find? fun h => strcaseEq name h.name

section Text

variable {r : Response}

lemma digit_ne {c : UInt8} (h : isDigit c = true) : c ≠ 13 ∧ c ≠ 10 ∧ c ≠ 0 := by
  refine ⟨?_, ?_, ?_⟩
  all_goals
    rintro rfl
    exact absurd h (by decide)

lemma mem_statusLine (hr : WellFormed r) : ∀ c ∈ statusLine r, c ≠ 10 ∧ c ≠ 0 := by
  have hversion : ∀ c ∈ ([72, 84, 84, 80, 47, 49, 46, 49, 32] : List UInt8), c ≠ 10 ∧ c ≠ 0 := by
    decide +kernel
  intro c hc
  unfold statusLine at hc
  rcases List.mem_append.mp hc with hc | hc
  · exact hversion c hc
  · rcases List.mem_append.mp hc with hc | hc
    · exact (digit_ne (hr.digits c hc)).2
    · rcases List.mem_cons.mp hc with rfl | hc
      · decide
      · rcases List.mem_append.mp hc with hc | hc
        · exact (hr.reason c hc).2
        · cases List.mem_singleton.mp hc
          decide

lemma zero_not_mem_text (hr : WellFormed r) : 0 ∉ text r := by
  have hline : ∀ h ∈ r.headers, 0 ∉ headerLine h := by
    intro h hh hmem
    have hok := hr.headers h hh
    unfold headerLine at hmem
    rcases List.mem_append.mp hmem with hmem | hmem
    · exact (hok.name 0 hmem).2.2.2 rfl
    · simp only [List.mem_cons, List.mem_append] at hmem
      rcases hmem with hmem | hmem | hmem | hmem
      · exact absurd hmem (by decide)
      · exact absurd hmem (by decide)
      · exact (hok.value 0 hmem).2.2 rfl
      · exact absurd hmem (by decide)
  unfold text headerText
  intro hmem
  rcases List.mem_append.mp hmem with hmem | hmem
  · exact (mem_statusLine hr 0 hmem).2 rfl
  · rcases List.mem_cons.mp hmem with hmem | hmem
    · exact absurd hmem (by decide)
    · rcases List.mem_append.mp hmem with hmem | hmem
      · obtain ⟨h, hh, hmem⟩ := List.mem_flatMap.mp hmem
        exact hline h hh hmem
      · exact absurd hmem (by decide)

/-- The number in the status line. -/
lemma statusCode_text (hr : WellFormed r) (rest : List UInt8) :
    statusCode (text r ++ 0 :: rest) = decimal r.digits := by
  obtain ⟨d1, d2, d3, hd⟩ : ∃ d1 d2 d3, r.digits = [d1, d2, d3] := by
    match hlist : r.digits, hr.size with
    | [d1, d2, d3], _ => exact ⟨d1, d2, d3, rfl⟩
  have hle : ∀ c ∈ r.digits, c.toNat ≤ 57 := fun c hc => by
    have hdigit := hr.digits c hc
    simp only [isDigit, Bool.and_eq_true, decide_eq_true_eq, UInt8.le_iff_toNat_le] at hdigit
    exact hdigit.2
  have hlt : decimal r.digits < 1000 := by
    have h1 := hle d1 (by simp [hd])
    have h2 := hle d2 (by simp [hd])
    have h3 := hle d3 (by simp [hd])
    rw [hd]
    simp only [decimal, List.foldl_cons, List.foldl_nil]
    omega
  have hzero : 0 ∉ text r := zero_not_mem_text hr
  have hsplit : (text r ++ 0 :: rest).drop 9 =
      (r.digits ++ 32 :: (r.reason ++ 13 :: 10 :: headerText r.headers)) ++ 0 :: rest := by
    simp [text, statusLine]
  have hnot : 0 ∉ r.digits ++ 32 :: (r.reason ++ 13 :: 10 :: headerText r.headers) := by
    intro hmem
    refine hzero ?_
    have hdrop : r.digits ++ 32 :: (r.reason ++ 13 :: 10 :: headerText r.headers) =
        (text r).drop 9 := by simp [text, statusLine]
    rw [hdrop] at hmem
    exact List.mem_of_mem_drop hmem
  unfold statusCode
  rw [hsplit, cstr_append hnot, strtoul_digits hr.digits (by simp [hd])
    (lt_trans hlt (by decide)) (by decide)]
  exact Int.bmod_eq_of_le (by omega) (by omega)

/-- Behind the first line break stand the headers. -/
lemma strchr_text (hr : WellFormed r) (rest : List UInt8) :
    strchr (cstr (text r ++ 0 :: rest)) 10 = some (10 :: headerText r.headers) := by
  rw [cstr_append (zero_not_mem_text hr)]
  exact strchr_append fun hmem => (mem_statusLine hr 10 hmem).1 rfl

end Text

/-- What the array holds is found by name. -/
lemma lookup_eq (name : List UInt8) {headers array : List HttpHeader}
    (h : ∀ i < headers.length, array[i]? = headers[i]?) :
    sstpHttpGetHeader name headers.length array =
      headers.find? fun h => strcaseEq name h.name := by
  induction headers generalizing array with
  | nil => rfl
  | cons x headers ih =>
    have h0 := h 0 (Nat.zero_lt_succ _)
    cases array with
    | nil => cases h0
    | cons y array =>
      cases h0
      have hrest : sstpHttpGetHeader name headers.length array =
          headers.find? fun h => strcaseEq name h.name :=
        ih fun i hi => h (i + 1) (Nat.succ_lt_succ hi)
      simp only [List.length_cons, sstpHttpGetHeader, List.find?_cons]
      rw [hrest]
      cases strcaseEq name x.name <;> rfl

/-- **The parser returns the headers** exactly when there are none, or when they fill the array and
are all the same. -/
theorem returns_iff (r : Response) (hr : WellFormed r) (rest : List UInt8) (erange : Bool)
    (array : List HttpHeader) (hk : r.headers.length ≤ array.length) :
    Returns r (sstpHttpGet (text r ++ 0 :: rest) erange array) ↔
      r.headers = [] ∨
        (r.headers.length = array.length ∧ ∀ h ∈ r.headers, ∀ h' ∈ r.headers, h = h') := by
  have hcode := statusCode_text hr rest
  have hrange : ¬ OutOfRange (text r ++ 0 :: rest) erange := by
    rintro ⟨hneg, -⟩
    rw [hcode] at hneg
    omega
  have hget : sstpHttpGet (text r ++ 0 :: rest) erange array =
      ⟨.okay, decimal r.digits, (headerLoop array.length 0 (10 :: headerText r.headers) array).1,
        (headerLoop array.length 0 (10 :: headerText r.headers) array).2.1,
        (headerLoop array.length 0 (10 :: headerText r.headers) array).2.2⟩ := by
    unfold sstpHttpGet
    rw [if_neg hrange, strchr_text hr, hcode]
  rw [hget]
  cases hheaders : r.headers with
  | nil =>
    -- the empty line has no colon
    have hzero : (headerLoop array.length 0 (10 :: headerText []) array).1 = 0 := by
      cases array.length with
      | zero => rfl
      | succ k => rfl
    refine iff_of_true ⟨rfl, rfl, ?_, fun i hi => ?_, fun name => ?_⟩ (.inl rfl)
    · rw [hheaders]
      exact hzero
    · rw [hheaders] at hi
      exact absurd hi (Nat.not_lt_zero i)
    · dsimp only
      rw [hzero, hheaders]
      rfl
  | cons h hs =>
    have hok := hr.headers h (by rw [hheaders]; exact List.mem_cons_self)
    have hname : h.name ≠ [] := fun hnil => absurd hok.nameSize.1 (by rw [hnil]; decide)
    have hvalue : h.value ≠ [] := fun hnil => absurd hok.valueSize.1 (by rw [hnil]; decide)
    have htext : headerText (h :: hs) = h.name ++ (58 :: 32 :: (h.value ++ 13 ::
        (10 :: (hs.flatMap headerLine ++ [13, 10])))) := by
      simp [headerText, headerLine]
    have hscan : sscanf headerFormat (headerText (h :: hs)) = [h.name, h.value] := by
      rw [htext]
      exact sscanf_header hname (fun hmem => (hok.name 58 hmem).1 rfl) hvalue hok.start
        fun c hc => ⟨(hok.value c hc).1, (hok.value c hc).2.1⟩
    have hfirst : (headerText (h :: hs)).getD 0 0 ≠ 13 ∧ (headerText (h :: hs)).getD 0 0 ≠ 10 := by
      obtain ⟨c, name', hcons⟩ := List.exists_cons_of_ne_nil hname
      have hc := hok.name c (by rw [hcons]; exact List.mem_cons_self)
      rw [htext, hcons]
      exact ⟨hc.2.1, hc.2.2.1⟩
    obtain ⟨hcount, hentries⟩ := headerLoop_repeats hscan hfirst.1 hfirst.2 array.length 0 array
      (Nat.zero_add _).symm
    rw [Nat.zero_add] at hcount
    have hall : ∀ i < array.length,
        (headerLoop array.length 0 (10 :: headerText (h :: hs)) array).2.1[i]? = some h := by
      intro i hi
      rw [hentries, if_pos ⟨Nat.zero_le _, by omega⟩]
    constructor
    · rintro ⟨-, -, hlen, hent, -⟩
      refine .inr ⟨?_, ?_⟩
      · rw [← hheaders, ← hlen]
        exact hcount
      · have heach : ∀ x ∈ h :: hs, x = h := by
          intro x hx
          obtain ⟨i, hi, hget⟩ := List.mem_iff_getElem.mp hx
          have hi' : i < r.headers.length := by rw [hheaders]; exact hi
          have hsame := (hall i (lt_of_lt_of_le hi' hk)).symm.trans (hent i hi')
          rw [hheaders, List.getElem?_eq_getElem hi, hget] at hsame
          exact (Option.some.inj hsame).symm
        exact fun x hx y hy => (heach x hx).trans (heach y hy).symm
    · rintro (hnil | ⟨hlen, hsame⟩)
      · cases hnil
      · have hent : ∀ i < r.headers.length,
            (headerLoop array.length 0 (10 :: headerText (h :: hs)) array).2.1[i]? =
              r.headers[i]? := by
          intro i hi
          have hi' : i < (h :: hs).length := by rw [← hheaders]; exact hi
          rw [hall i (lt_of_lt_of_le hi hk), hheaders, List.getElem?_eq_getElem hi']
          exact congrArg some (hsame h List.mem_cons_self _ (List.getElem_mem hi'))
        have hcount' : (headerLoop array.length 0 (10 :: headerText (h :: hs)) array).1 =
            r.headers.length := by
          rw [hcount, hheaders, hlen]
        refine ⟨rfl, rfl, hcount', hent, fun name => ?_⟩
        dsimp only
        rw [hcount']
        exact lookup_eq name hent

/-- A header of one character each. -/
lemma headerOk_chars {c v : UInt8} (hc : c ≠ 58 ∧ c ≠ 13 ∧ c ≠ 10 ∧ c ≠ 0)
    (hv : v ≠ 13 ∧ v ≠ 10 ∧ v ≠ 0) (hspace : isSpace v = false) : HeaderOk ⟨[c], [v]⟩ where
  nameSize := ⟨Nat.le_refl 1, Nat.le_add_left 1 _⟩
  name := fun x hx => by
    cases List.mem_singleton.mp hx
    exact hc
  valueSize := ⟨Nat.le_refl 1, Nat.le_add_left 1 _⟩
  value := fun x hx => by
    cases List.mem_singleton.mp hx
    exact hv
  start := fun x hx => by
    cases hx
    exact hspace

/-- `HTTP/1.1 200 OK` with the headers. -/
def okayResponse (headers : List HttpHeader) : Response := ⟨[50, 48, 48], [79, 75], headers⟩

lemma okayResponse_wellFormed {headers : List HttpHeader} (h : ∀ x ∈ headers, HeaderOk x) :
    WellFormed (okayResponse headers) where
  size := rfl
  digits := (by decide +kernel : ∀ c ∈ ([50, 48, 48] : List UInt8), isDigit c = true)
  reason := (by decide +kernel : ∀ c ∈ ([79, 75] : List UInt8), c ≠ 13 ∧ c ≠ 10 ∧ c ≠ 0)
  headers := h

/-- The same header twice, `A: 1`, fills an array of two entries. -/
theorem equalHeaders_returned : Returns (okayResponse (List.replicate 2 ⟨[65], [49]⟩))
    (sstpHttpGet (text (okayResponse (List.replicate 2 ⟨[65], [49]⟩)) ++ [0]) false
      (List.replicate 2 ⟨[], []⟩)) := by
  refine (returns_iff (okayResponse (List.replicate 2 ⟨[65], [49]⟩))
    (okayResponse_wellFormed fun h hh => ?_) [] false (List.replicate 2 ⟨[], []⟩) (le_refl 2)).mpr
      (.inr ⟨rfl, fun h hh h' hh' => ?_⟩)
  · rw [List.eq_of_mem_replicate hh]
    exact headerOk_chars (by decide) (by decide) rfl
  · rw [List.eq_of_mem_replicate hh, List.eq_of_mem_replicate hh']

/-- Two headers, `A: 1` and `B: 2`, and the client's array of 32 entries, which comes back full. -/
theorem twoHeaders_not_returned :
    WellFormed (okayResponse [⟨[65], [49]⟩, ⟨[66], [50]⟩]) ∧
      ¬ Returns (okayResponse [⟨[65], [49]⟩, ⟨[66], [50]⟩])
        (sstpHttpGet (text (okayResponse [⟨[65], [49]⟩, ⟨[66], [50]⟩]) ++ [0]) false
          (List.replicate 32 ⟨[], []⟩)) := by
  refine ⟨okayResponse_wellFormed fun h hh => ?_, fun hreturns => ?_⟩
  · rcases List.mem_cons.mp hh with rfl | hh
    · exact headerOk_chars (by decide) (by decide) rfl
    · cases List.mem_singleton.mp hh
      exact headerOk_chars (by decide) (by decide) rfl
  · have hcount : (sstpHttpGet (text (okayResponse [⟨[65], [49]⟩, ⟨[66], [50]⟩]) ++ [0]) false
        (List.replicate 32 ⟨[], []⟩)).count = 32 := by decide +kernel
    rw [hreturns.count] at hcount
    exact absurd hcount (by decide)

end SstpClient.Http
