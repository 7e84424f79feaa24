import Mathlib

/-!
Options in a row, each with its type and its length, which counts these two bytes, in front.

A reader that takes one option after the other, and stops where none is complete, reads the longest
list of options that the bytes begin with.
-/

namespace SstpClient.Lib.Tlv

/-- An option whose length fits into a byte. -/
structure Opt where
  type : UInt8
  data : List UInt8
  short : data.length ≤ 253

def Opt.bytes (o : Opt) : List UInt8 := o.type :: UInt8.ofNat (o.data.length + 2) :: o.data

def encode (os : List Opt) : List UInt8 := os.flatMap Opt.bytes

/-- The bytes begin with these options, and with no more. -/
structure Longest (os : List Opt) (s : List UInt8) : Prop where
  begins : encode os <+: s
  most : ∀ os', encode os' <+: s → os' <+: os

/-- The first option and what follows it. -/
def first : List UInt8 → Option (Opt × List UInt8)
  | type :: olen :: rest =>
    if h : 2 ≤ olen.toNat ∧ olen.toNat ≤ rest.length + 2 then
      some (⟨type, rest.take (olen.toNat - 2), (List.length_take_le _ _).trans (by
        have hbyte := olen.toNat_lt
        omega)⟩, rest.drop (olen.toNat - 2))
    else none
  | _ => none

section Lemmas

variable {o : Opt} {os : List Opt} {s t : List UInt8}

@[simp] lemma Opt.length_bytes (o : Opt) : o.bytes.length = o.data.length + 2 := rfl

lemma toNat_olen (o : Opt) : (UInt8.ofNat (o.data.length + 2)).toNat = o.data.length + 2 := by
  have hshort := o.short
  rw [UInt8.toNat_ofNat', Nat.mod_eq_of_lt (by omega)]

/-- **An option is read** where its bytes are. -/
lemma first_bytes (o : Opt) (t : List UInt8) : first (o.bytes ++ t) = some (o, t) := by
  unfold Opt.bytes
  have hlen : o.data.length + 2 - 2 = o.data.length := Nat.add_sub_cancel _ _
  rw [List.cons_append, List.cons_append, first, dif_pos ⟨by rw [toNat_olen]; omega, by
    rw [toNat_olen, List.length_append]
    omega⟩]
  simp only [toNat_olen, hlen, List.take_left', List.drop_left']

lemma first_eq_some (h : first s = some (o, t)) : s = o.bytes ++ t := by
  unfold first at h
  split at h
  · next type olen rest =>
    split_ifs at h with hlen
    obtain ⟨rfl, rfl⟩ := Prod.mk.inj (Option.some.inj h)
    have htake : (rest.take (olen.toNat - 2)).length + 2 = olen.toNat := by
      rw [List.length_take]
      omega
    unfold Opt.bytes
    rw [htake, UInt8.ofNat_toNat, List.cons_append, List.cons_append, List.take_append_drop]
  · cases h

@[simp] lemma encode_cons (o : Opt) (os : List Opt) : encode (o :: os) = o.bytes ++ encode os :=
  List.flatMap_cons

/-- **Where no option is complete** the list is at its end. -/
lemma longest_nil (h : first s = none) : Longest [] s := by
  refine ⟨List.nil_prefix, fun os' hos' => ?_⟩
  cases os' with
  | nil => exact List.prefix_refl _
  | cons o os' =>
    obtain ⟨t, rfl⟩ := hos'
    rw [encode_cons, List.append_assoc, first_bytes] at h
    cases h

/-- One option more in front. -/
lemma Longest.cons (h : Longest os t) (o : Opt) : Longest (o :: os) (o.bytes ++ t) := by
  refine ⟨?_, fun os' hos' => ?_⟩
  · rw [encode_cons]
    exact (List.prefix_append_right_inj _).mpr h.begins
  · cases os' with
    | nil => exact List.nil_prefix
    | cons o' os' =>
      obtain ⟨r, hr⟩ := hos'
      have hfirst := congrArg first hr
      rw [encode_cons, List.append_assoc, first_bytes, first_bytes, Option.some_inj] at hfirst
      obtain ⟨rfl, hrest⟩ := Prod.mk.inj hfirst
      exact List.prefix_cons_inj _ |>.mpr (h.most os' ⟨r, hrest⟩)

/-! ### The last value -/

/-- **Values that replace each other**: the last one stays. -/
lemma foldl_getD {α β : Type*} (val : α → Option β) (l : List α) (b : β) :
    l.foldl (fun b a => (val a).getD b) b = (l.filterMap val).getLast?.getD b := by
  induction l generalizing b with
  | nil => rfl
  | cons a l ih =>
    rw [List.foldl_cons, ih]
    cases hval : val a with
    | none => rw [List.filterMap_cons_none hval, Option.getD_none]
    | some v =>
      rw [List.filterMap_cons_some hval, List.getLast?_cons, Option.getD_some, Option.getD_some]

end Lemmas

end SstpClient.Lib.Tlv
