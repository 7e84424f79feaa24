import SstpClient.Lib.Foundation
import SstpClient.Lib.InetPton

/-!
The endpoint from the server string of the user to the URL of the engine: `SSTPParseServerEndpoint`,
`sstp_ios_session_start_ex` and `sstp_url_parse`.

The first takes the brackets from around an address of IPv6, the second does not put them back, and
the third takes what it finds for an address as a whole.
-/

namespace SstpClient.Endpoint

open SstpClient.Lib.CString SstpClient.Lib.InetPton SstpClient.Lib.Foundation

/-! ### The server string -/

section Server

variable (U : Unicode)

/-- `"443"`. -/
def defaultPort : NSString := [52, 52, 51]

/-- What is between the first `"://"` and the `"/"` after it. -/
def authority (trimmed : NSString) : NSString :=
  let trimmed :=
    match rangeOfString U trimmed [58, 47, 47] with
    | some i => trimmed.drop (i + 3)
    | none => trimmed
  match rangeOfString U trimmed [47] with
  | some i => trimmed.take i
  | none => trimmed

/-- The location of the bracket that closes the one at the front. -/
def closeBracket (trimmed : NSString) : Option ℕ :=
  if hasPrefix U trimmed [91] then rangeOfString U trimmed [93] else none

def portOr443 (port : NSString) : NSString := if port.length > 0 then port else defaultPort

/-- `SSTPParseServerEndpoint`: the host and the port, if the answer is `YES`. -/
def sstpParseServerEndpoint (server : Option NSString) : Option (NSString × NSString) :=
  let trimmed := trim U (server.getD [])
  if trimmed.length = 0 then none
  else
    let trimmed := authority U trimmed
    match closeBracket U trimmed with
    | some i =>
      let host := (trimmed.drop 1).take (i - 1)
      let rest := if i + 1 < trimmed.length then trimmed.drop (i + 1) else []
      let rest := if hasPrefix U rest [58] then rest.drop 1 else rest
      if host.length > 0 then some (host, portOr443 rest) else none
    | none =>
      match rangeOfStringBackwards U trimmed [58] with
      | some i =>
        let host := trimmed.take i
        let port := trimmed.drop (i + 1)
        if host.length > 0 then some (host, portOr443 port) else none
      | none => some (trimmed, defaultPort)

end Server

/-! ### The URL -/

/-- `"https://"`. -/
def https : List UInt8 := [104, 116, 116, 112, 115, 58, 47, 47]

/-- The string of a parameter that is neither `NULL` nor empty. -/
def given (param : Option (List UInt8)) : Option (List UInt8) :=
  (param.map cstr).filter (· ≠ [])

/-- The URL of `sstp_ios_session_start_ex`, in a buffer of 512 bytes. -/
def startUrl (server : List UInt8) (serverHost serverPort : Option (List UInt8)) : List UInt8 :=
  let url :=
    match given serverHost, given serverPort with
    | some host, some port => https ++ host ++ [58] ++ port ++ [47]
    | some host, none => https ++ host ++ [47]
    | none, _ => https ++ cstr server ++ [47]
  url.take 511

/-- `sstp_url_st`. -/
structure SstpUrl where
  schema : Option (List UInt8)
  user : Option (List UInt8)
  password : Option (List UInt8)
  host : List UInt8
  port : Option (List UInt8)
  path : Option (List UInt8)
  deriving DecidableEq

def isHostname (str : List UInt8) : Bool := str.length ≤ 253

/-- `is_port`; the value goes through an `int`. -/
def isPort (str : List UInt8) : Bool :=
  let r := strtol str
  let val := r.1.bmod (2 ^ 32)
  !r.2 && 0 < val && val < 65536

/-- The string before the character and the string after it, if it is there. -/
def cut (s : List UInt8) (c : UInt8) : List UInt8 × Option (List UInt8) :=
  match strchr s c with
  | some r => (before s r, some r.tail)
  | none => (s, none)

/-- The host and the port of `sstp_url_parse`. -/
def parseHost (ptr : List UInt8) : Option (List UInt8 × Option (List UInt8)) :=
  if ptr.head? = some 91 then
    match strchr ptr 93 with
    | none => none
    | some r =>
      let host := (before ptr r).tail
      let port := if r.tail.head? = some 58 then some r.tail.tail else none
      if inetPton6 host then some (host, port) else none
  else if inetPton6 ptr then some (ptr, none)
  else
    match strrchr ptr 58 with
    | some r =>
      let host := before ptr r
      if inetPton4 host || isHostname host then some (host, some r.tail) else none
    | none => if inetPton4 ptr || isHostname ptr then some (ptr, none) else none

/-- `sstp_url_parse`. -/
def sstpUrlParse (path : List UInt8) : Option SstpUrl :=
  let (schema, ptr) :=
    match strstr path [58, 47, 47] with
    | some r => (some (before path r), r.drop 3)
    | none => (none, path)
  let (user, ptr) :=
    match cut ptr 64 with
    | (user, some ptr) => (some user, ptr)
    | (ptr, none) => (none, ptr)
  let (user, password) :=
    match user with
    | some user => (some (cut user 58).1, (cut user 58).2)
    | none => (none, none)
  let (ptr, path) := cut ptr 47
  match parseHost ptr with
  | none => none
  | some (host, port) =>
    if port.any fun port => !isPort port then none
    else
      let port := if schema.isNone && port.isNone then some [52, 52, 51] else port
      some ⟨schema, user, password, host, port, path⟩

/-! ### What is promised -/

/-- The number of a string of digits. -/
def number (port : NSString) : ℕ := port.foldl (fun n u => n * 10 + (u.toNat - 48)) 0

/-- A decimal number from 1 to 65535. -/
def Decimal (port : NSString) : Prop :=
  (∀ u ∈ port, 48 ≤ u.toNat ∧ u.toNat ≤ 57) ∧ 1 ≤ number port ∧ number port ≤ 65535

/-- The engine finds the host and the port that the app has found. -/
def Agrees (server : List UInt8) (host port : NSString) : Prop :=
  ∃ b q, utf8String host = some b ∧ utf8String port = some q ∧
    ∃ url, sstpUrlParse (startUrl server (some b) (some q)) = some url ∧
      url.host = b ∧ url.port = some q

/-- How the authority of a server string spells a host and a port. -/
inductive Spells (U : Unicode) : NSString → NSString → NSString → Prop
  | bracketed (host rest : NSString) (hfront : hasPrefix U (91 :: host ++ 93 :: rest) [91] = true)
      (hclose : rangeOfString U (91 :: host ++ 93 :: rest) [93] = some (host.length + 1)) :
      Spells U (91 :: host ++ 93 :: rest) host
        (portOr443 (if hasPrefix U rest [58] then rest.drop 1 else rest))
  | colon (host port : NSString) (hopen : closeBracket U (host ++ 58 :: port) = none)
      (hlast : rangeOfStringBackwards U (host ++ 58 :: port) [58] = some host.length) :
      Spells U (host ++ 58 :: port) host (portOr443 port)
  | bare (host : NSString) (hopen : closeBracket U host = none)
      (hcolon : rangeOfStringBackwards U host [58] = none) : Spells U host host defaultPort

/-- A host and a port that survive the way through the URL. -/
def Clean (host port : NSString) : Prop :=
  ∃ b q, utf8String host = some b ∧ utf8String port = some q ∧
    0 ∉ b ∧ 64 ∉ b ∧ 47 ∉ b ∧ b.head? ≠ some 91 ∧ inetPton6 (b ++ 58 :: q) = false ∧
      (inetPton4 b = true ∨ isHostname b = true) ∧ https.length + b.length + 1 + q.length ≤ 511

/-- The server string spells such ones. -/
def WellSpelled (U : Unicode) (server : Option NSString) : Prop :=
  ∃ host port, Spells U (authority U (trim U (server.getD []))) host port ∧ Clean host port

/-! ### The two splitters -/

section Split

variable {U : Unicode} {a host port : NSString} {server : Option NSString}

/-- The host and the port in the authority, whether or not there is a host. -/
def spelling (U : Unicode) (a : NSString) : NSString × NSString :=
  match closeBracket U a with
  | some i =>
    let rest := a.drop (i + 1)
    ((a.drop 1).take (i - 1), portOr443 (if hasPrefix U rest [58] then rest.drop 1 else rest))
  | none =>
    match rangeOfStringBackwards U a [58] with
    | some i => (a.take i, portOr443 (a.drop (i + 1)))
    | none => (a, defaultPort)

/-- An authority spells one host and one port. -/
lemma Spells.eq (h : Spells U a host port) : spelling U a = (host, port) := by
  cases h with
  | bracketed host rest hfront hclose =>
    have hbracket : closeBracket U (91 :: host ++ 93 :: rest) = some (host.length + 1) := by
      unfold closeBracket
      rw [if_pos hfront, hclose]
    have hdrop : (91 :: host ++ 93 :: rest).drop (host.length + 1 + 1) = rest := by
      simp
    unfold spelling
    rw [hbracket]
    dsimp only
    rw [hdrop]
    simp
  | colon host port hopen hlast =>
    unfold spelling
    rw [hopen]
    dsimp only
    rw [hlast]
    simp
  | bare host hopen hcolon =>
    unfold spelling
    rw [hopen]
    dsimp only
    rw [hcolon]

/-- A bracket at the front that is closed, and what is around it. -/
lemma closeBracket_split {i : ℕ} (h : closeBracket U a = some i) :
    ∃ host rest, a = 91 :: host ++ 93 :: rest ∧ i = host.length + 1 ∧ hasPrefix U a [91] = true ∧
      rangeOfString U a [93] = some i := by
  unfold closeBracket at h
  split_ifs at h with hfront
  obtain ⟨t, ht⟩ := hasPrefix_split hfront
  obtain ⟨w, rest, hw, hlen⟩ := rangeOfString_split h
  cases w with
  | nil =>
    rw [hw] at ht
    cases ht
  | cons u host =>
    have hu : u = 91 := by
      rw [hw] at ht
      exact (List.cons.inj ht).1
    refine ⟨host, rest, ?_, hlen.symm, hfront, h⟩
    rw [hw, hu, List.append_assoc]
    rfl

/-- **What the app finds is what the server string spells.** -/
lemma spells_of_parse (h : sstpParseServerEndpoint U server = some (host, port)) :
    Spells U (authority U (trim U (server.getD []))) host port := by
  unfold sstpParseServerEndpoint at h
  dsimp only at h
  split_ifs at h with hempty
  obtain ⟨a, ha⟩ : ∃ a, a = authority U (trim U (server.getD [])) := ⟨_, rfl⟩
  rw [← ha] at h ⊢
  cases hbracket : closeBracket U a with
  | some i =>
    rw [hbracket] at h
    obtain ⟨host', rest, rfl, rfl, hfront, hclose⟩ := closeBracket_split hbracket
    have hhost : ((91 :: host' ++ 93 :: rest).drop 1).take (host'.length + 1 - 1) = host' := by simp
    have hrest : (if host'.length + 1 + 1 < (91 :: host' ++ 93 :: rest).length then
        (91 :: host' ++ 93 :: rest).drop (host'.length + 1 + 1) else []) = rest := by
      split_ifs with hlt
      · simp
      · cases rest with
        | nil => rfl
        | cons u rest => simp at hlt
    dsimp only at h
    rw [hhost, hrest] at h
    by_cases hpos : host'.length > 0
    · rw [if_pos hpos] at h
      rw [← (Prod.mk.inj (Option.some.inj h)).1, ← (Prod.mk.inj (Option.some.inj h)).2]
      exact .bracketed host' rest hfront hclose
    · rw [if_neg hpos] at h
      cases h
  | none =>
    rw [hbracket] at h
    dsimp only at h
    cases hlast : rangeOfStringBackwards U a [58] with
    | some i =>
      rw [hlast] at h
      obtain ⟨w, t, hw, rfl⟩ := rangeOfStringBackwards_split hlast
      rw [List.append_assoc, List.singleton_append] at hw
      dsimp only at h
      rw [hw] at h hbracket hlast ⊢
      have htake : (w ++ 58 :: t).take w.length = w := List.take_left
      have hdrop : (w ++ 58 :: t).drop (w.length + 1) = t := by simp
      rw [htake, hdrop] at h
      split_ifs at h with hpos
      rw [← (Prod.mk.inj (Option.some.inj h)).1, ← (Prod.mk.inj (Option.some.inj h)).2]
      exact .colon w t hbracket hlast
    | none =>
      rw [hlast] at h
      rw [← (Prod.mk.inj (Option.some.inj h)).1, ← (Prod.mk.inj (Option.some.inj h)).2]
      exact .bare a hbracket hlast

end Split

/-! ### The string of the engine -/

section Parse

variable {s u b q : List UInt8} {c : UInt8}

lemma cut_of_notMem (h : c ∉ s) : cut s c = (s, none) := by
  unfold cut
  rw [strchr_eq_none.mpr h]

lemma cut_append {t : List UInt8} (h : c ∉ s) : cut (s ++ c :: t) c = (s, some t) := by
  unfold cut
  rw [strchr_append h]
  dsimp only
  rw [before_append]
  rfl

/-- A string is cut at the first such character, if there is one. -/
lemma cut_cases (s : List UInt8) (c : UInt8) :
    (c ∉ s ∧ cut s c = (s, none)) ∨ ∃ w t, s = w ++ c :: t ∧ c ∉ w ∧ cut s c = (w, some t) := by
  by_cases hmem : c ∈ s
  · obtain ⟨w, t, rfl, hw⟩ := List.eq_append_cons_of_mem hmem
    exact .inr ⟨w, t, rfl, hw, cut_append hw⟩
  · exact .inl ⟨hmem, cut_of_notMem hmem⟩

/-- What is left when the user is taken off. -/
def afterUser (u : List UInt8) : List UInt8 :=
  match cut u 64 with
  | (_, some ptr) => ptr
  | (ptr, none) => ptr

/-- **A URL with the scheme** yields a host and a port as the authority does. -/
lemma parse_https :
    (∃ url, sstpUrlParse (https ++ u) = some url ∧ url.host = b ∧ url.port = some q) ↔
      parseHost (cut (afterUser u) 47).1 = some (b, some q) ∧ isPort q = true := by
  have hscheme : strstr (https ++ u) [58, 47, 47] = some (58 :: 47 :: 47 :: u) := rfl
  have hport : ∀ user password path, (∃ url, (match parseHost (cut (afterUser u) 47).1 with
      | none => none
      | some (host, port) =>
        if port.any fun port => !isPort port then none
        else some (SstpUrl.mk (some (before (https ++ u) (58 :: 47 :: 47 :: u))) user password host
          port path)) = some url ∧ url.host = b ∧ url.port = some q) ↔
      parseHost (cut (afterUser u) 47).1 = some (b, some q) ∧ isPort q = true := by
    intro user password path
    cases hparse : parseHost (cut (afterUser u) 47).1 with
    | none => exact iff_of_false (fun ⟨url, h, _⟩ => by cases h) fun h => by cases h.1
    | some r =>
      obtain ⟨host, port⟩ := r
      dsimp only
      constructor
      · rintro ⟨url, h, hhost, hq⟩
        split_ifs at h with hany
        cases h
        change host = b at hhost
        change port = some q at hq
        rw [hq, Option.any_some, Bool.not_eq_true, Bool.not_eq_false'] at hany
        exact ⟨by rw [hhost, hq], hany⟩
      · rintro ⟨h, hq⟩
        cases h
        refine ⟨_, if_neg ?_, rfl, rfl⟩
        rw [Option.any_some, hq]
        exact Bool.false_ne_true
  unfold sstpUrlParse
  rw [hscheme]
  dsimp only
  rw [show (58 :: 47 :: 47 :: u : List UInt8).drop 3 = u from rfl]
  have huser := hport
  unfold afterUser at huser ⊢
  rcases cut_cases u 64 with ⟨-, hcut⟩ | ⟨w, t, -, -, hcut⟩
  · rw [hcut] at huser ⊢
    exact huser none none _
  · rw [hcut] at huser ⊢
    exact huser _ _ _

/-- **A host with a port**, as `sstp_url_parse` finds them. -/
lemma parseHost_eq_some (h : parseHost s = some (b, some q)) :
    (s.head? ≠ some 91 ∧ s = b ++ 58 :: q ∧ inetPton6 s = false ∧
      (inetPton4 b = true ∨ isHostname b = true)) ∨
    (s.length = b.length + q.length + 3 ∧ s.head? = some 91 ∧ b ⊆ s) := by
  unfold parseHost at h
  by_cases hhead : s.head? = some 91
  · -- in brackets
    rw [if_pos hhead] at h
    cases hclose : strchr s 93 with
    | none =>
      rw [hclose] at h
      cases h
    | some r =>
      rw [hclose] at h
      obtain ⟨w, t, rfl, rfl, -⟩ := strchr_split hclose
      dsimp only at h
      rw [before_append, List.tail_cons] at h
      split_ifs at h with h6 hcolon
      · cases h
        cases w with
        | nil => cases hhead
        | cons x w =>
          cases t with
          | nil => cases hcolon
          | cons y t =>
            refine .inr ⟨?_, hhead, fun z hz => ?_⟩
            · simp only [List.cons_append, List.length_cons, List.length_append, List.tail_cons]
              omega
            · exact List.mem_append_left _ (List.mem_cons_of_mem x hz)
      · cases h
  · rw [if_neg hhead] at h
    by_cases h6 : inetPton6 s = true
    · rw [if_pos h6] at h
      cases h
    · rw [if_neg h6] at h
      cases hcolon : strrchr s 58 with
      | none =>
        rw [hcolon] at h
        dsimp only at h
        split_ifs at h
        cases h
      | some r =>
        rw [hcolon] at h
        obtain ⟨w, t, rfl, rfl⟩ := strrchr_split hcolon
        dsimp only at h
        rw [before_append] at h
        split_ifs at h with h4
        cases h
        rw [Bool.or_eq_true] at h4
        rw [Bool.not_eq_true] at h6
        exact .inl ⟨hhead, rfl, h6, h4⟩

lemma parseHost_colon (hhead : (b ++ 58 :: q).head? ≠ some 91) (hq : 58 ∉ q)
    (h6 : inetPton6 (b ++ 58 :: q) = false) (h4 : inetPton4 b = true ∨ isHostname b = true) :
    parseHost (b ++ 58 :: q) = some (b, some q) := by
  unfold parseHost
  rw [if_neg hhead, if_neg (by rw [h6]; exact Bool.false_ne_true), strrchr_append hq]
  dsimp only
  rw [before_append, if_pos (by rw [Bool.or_eq_true]; exact h4)]
  rfl

end Parse

/-! ### Through the URL -/

section Agreement

variable {host port : NSString} {u b q : List UInt8}

lemma notMem_digits {c : UInt8} (hq : ∀ x ∈ q, isDigit x = true) (hc : isDigit c = false) :
    c ∉ q := fun hmem => Bool.false_ne_true (hc.symm.trans (hq c hmem))

/-- A decimal number in bytes. -/
lemma Decimal.bytes (h : Decimal port) : ∃ q, utf8String port = some q ∧ q ≠ [] ∧
    (∀ x ∈ q, isDigit x = true) ∧ isPort q = true := by
  obtain ⟨hdigits, hpos, hle⟩ := h
  have hnat : ∀ u ∈ port, (UInt8.ofNat u.toNat).toNat = u.toNat := fun u hu =>
    UInt8.toNat_ofNat_of_lt' (lt_of_le_of_lt (hdigits u hu).2 (by decide))
  have hne : port.map (fun u => UInt8.ofNat u.toNat) ≠ [] := by
    rw [Ne, List.map_eq_nil_iff]
    rintro rfl
    exact absurd hpos (by decide)
  have hdigit : ∀ x ∈ port.map (fun u => UInt8.ofNat u.toNat), isDigit x = true := by
    intro x hx
    obtain ⟨u, hu, rfl⟩ := List.mem_map.mp hx
    simp only [isDigit, Bool.and_eq_true, decide_eq_true_eq, UInt8.le_iff_toNat_le, hnat u hu]
    exact hdigits u hu
  have hnumber : decimal (port.map fun u => UInt8.ofNat u.toNat) = number port := by
    unfold decimal number
    rw [List.foldl_map]
    exact List.foldl_ext _ _ _ fun n u hu => by rw [hnat u hu]
  have hascii : ∀ u ∈ port, u.toNat < 128 := fun u hu =>
    lt_of_le_of_lt (hdigits u hu).2 (by decide)
  refine ⟨_, utf8String_ascii hascii, hne, hdigit, ?_⟩
  have hlt : decimal (port.map fun u => UInt8.ofNat u.toNat) < 2 ^ 63 := by
    rw [hnumber]
    exact lt_of_le_of_lt hle (by decide)
  have hmod : (number port : ℤ).bmod (2 ^ 32) = number port := by
    refine Int.bmod_eq_of_le ?_ ?_ <;> omega
  unfold isPort
  rw [strtol_digits hdigit hne hlt, hnumber]
  dsimp only
  rw [hmod]
  simp only [Bool.not_false, Bool.true_and, Bool.and_eq_true, decide_eq_true_eq]
  omega

lemma given_eq_some (hb : b ≠ []) (h0 : 0 ∉ b) : given (some b) = some b := by
  unfold given
  rw [Option.map_some, cstr_of_notMem h0, Option.filter_some, if_pos (decide_eq_true hb)]

lemma notMem_given {param : Option (List UInt8)} (h : given param = some b) : 0 ∉ b := by
  unfold given at h
  obtain ⟨hmap, -⟩ := Option.filter_eq_some_iff.mp h
  obtain ⟨s, -, rfl⟩ := Option.map_eq_some_iff.mp hmap
  exact notMem_cstr s

/-- **The URL** of a host and a port. -/
lemma startUrl_given (server : List UInt8) (hb : b ≠ []) (hb0 : 0 ∉ b) (hq : q ≠ [])
    (hq0 : 0 ∉ q) :
    startUrl server (some b) (some q) = https ++ (b ++ 58 :: q ++ [47]).take 503 := by
  unfold startUrl
  rw [given_eq_some hb hb0, given_eq_some hq hq0]
  dsimp only
  rw [show (511 : ℕ) = https.length + 503 from rfl, List.append_assoc, List.append_assoc,
    List.append_assoc, List.take_length_add_append]
  simp only [List.append_assoc, List.cons_append, List.nil_append]

/-- Whatever the parameters are, the URL has the scheme, and is a string. -/
lemma startUrl_eq (server : List UInt8) (serverHost serverPort : Option (List UInt8)) :
    ∃ u, startUrl server serverHost serverPort = https ++ u ∧ 0 ∉ u := by
  have hcase : ∀ s : List UInt8, 0 ∉ s → ∃ u, (https ++ s).take 511 = https ++ u ∧ 0 ∉ u := by
    intro s hs
    refine ⟨s.take 503, ?_, fun h => hs (List.mem_of_mem_take h)⟩
    rw [show (511 : ℕ) = https.length + 503 from rfl, List.take_length_add_append]
  unfold startUrl
  cases hhost : given serverHost with
  | none =>
    have hzero : 0 ∉ cstr server ++ [47] := by simp [notMem_cstr]
    obtain ⟨u, hu, hu0⟩ := hcase _ hzero
    exact ⟨u, by rw [← hu, ← List.append_assoc], hu0⟩
  | some b =>
    have hb := notMem_given hhost
    cases hport : given serverPort with
    | none =>
      have hzero : 0 ∉ b ++ [47] := by simp [hb]
      obtain ⟨u, hu, hu0⟩ := hcase _ hzero
      exact ⟨u, by rw [← hu, ← List.append_assoc], hu0⟩
    | some q =>
      have hzero : 0 ∉ b ++ ([58] ++ (q ++ [47])) := by simp [hb, notMem_given hport]
      obtain ⟨u, hu, hu0⟩ := hcase _ hzero
      refine ⟨u, ?_, hu0⟩
      rw [← hu]
      simp only [List.append_assoc]

lemma afterUser_suffix (u : List UInt8) :
    (64 ∉ u ∧ afterUser u = u) ∨ ∃ w, u = w ++ 64 :: afterUser u := by
  unfold afterUser
  rcases cut_cases u 64 with ⟨hmem, hcut⟩ | ⟨w, t, hu, -, hcut⟩
  · rw [hcut]
    exact .inl ⟨hmem, rfl⟩
  · rw [hcut]
    exact .inr ⟨w, hu⟩

/-- The characters of what is cut are those of the string. -/
lemma cut_subset (s : List UInt8) (c : UInt8) : (cut s c).1 ⊆ s := by
  rcases cut_cases s c with ⟨-, hcut⟩ | ⟨w, t, rfl, -, hcut⟩
  · rw [hcut]
    exact List.Subset.refl s
  · rw [hcut]
    exact List.subset_append_left w _

lemma ptr_subset (u : List UInt8) : (cut (afterUser u) 47).1 ⊆ u := by
  refine List.Subset.trans (cut_subset _ _) ?_
  rcases afterUser_suffix u with ⟨-, h⟩ | ⟨w, h⟩
  · rw [h]
    exact List.Subset.refl u
  · intro x hx
    rw [h]
    exact List.mem_append_right w (List.mem_cons_of_mem 64 hx)

/-- **Nothing is lost**: where the host and the port have room, they make up the authority. -/
lemma ptr_of_length {v : List UInt8} (hu : u = (v ++ [47]).take 503) (hpos : 0 < v.length)
    (hlen : v.length ≤ (cut (afterUser u) 47).1.length) :
    (cut (afterUser u) 47).1 = v ∧ v.length ≤ 503 ∧ 64 ∉ v ∧ 47 ∉ v := by
  have hulen : u.length = min 503 (v.length + 1) := by
    rw [hu, List.length_take, List.length_append, List.length_singleton]
  have hwhole : v.length + 1 ≤ u.length → u = v ++ [47] ∧ v.length + 1 ≤ 503 := fun h => by
    have hfit : v.length + 1 ≤ 503 := by omega
    rw [hu, List.take_of_length_le (by rw [List.length_append]; exact hfit)]
    exact ⟨rfl, hfit⟩
  rcases afterUser_suffix u with ⟨hat, hafter⟩ | ⟨w, hw⟩
  · -- there is no user
    rw [hafter] at hlen ⊢
    rcases cut_cases u 47 with ⟨hslash, hcut⟩ | ⟨w, t, hw, hslash, hcut⟩
    · -- the slash is cut off by the buffer
      rw [hcut] at hlen ⊢
      have hlong : ¬ v.length + 1 ≤ u.length := fun h =>
        hslash (by rw [(hwhole h).1]; exact List.mem_append_right v List.mem_cons_self)
      have hfull : v.length = 503 := by
        change v.length ≤ u.length at hlen
        omega
      have huv : u = v := by
        rw [hu, ← hfull, List.take_left]
      exact ⟨huv, hfull.le, huv ▸ hat, huv ▸ hslash⟩
    · rw [hcut] at hlen ⊢
      have hsum : u.length = w.length + (t.length + 1) := by
        rw [hw, List.length_append, List.length_cons]
      obtain ⟨huv, hfit⟩ := hwhole (by change v.length ≤ w.length at hlen; omega)
      have hwv : w = v := by
        refine (List.append_inj (hw.symm.trans huv) ?_).1
        rw [huv, List.length_append, List.length_singleton] at hsum
        change v.length ≤ w.length at hlen
        omega
      refine ⟨hwv, by omega, fun hmem => hat ?_, hwv ▸ hslash⟩
      rw [huv]
      exact List.mem_append_left [47] hmem
  · -- with a user there is no room
    have hsum : u.length = w.length + ((afterUser u).length + 1) := by
      conv_lhs => rw [hw]
      rw [List.length_append, List.length_cons]
    rcases cut_cases (afterUser u) 47 with ⟨hslash, hcut⟩ | ⟨w', t, hw', -, hcut⟩
    · rw [hcut] at hlen
      change v.length ≤ (afterUser u).length at hlen
      obtain ⟨huv, -⟩ := hwhole (by omega)
      obtain ⟨front, last, hconcat⟩ := (List.eq_nil_or_concat' (afterUser u)).resolve_left (by
        intro hnil
        rw [hnil] at hlen
        exact absurd hlen (Nat.not_le.mpr hpos))
      have hlast : last = 47 := by
        rw [hw, hconcat] at huv
        have hget := congrArg List.getLast? huv
        rw [List.getLast?_concat, ← List.cons_append, ← List.append_assoc,
          List.getLast?_concat] at hget
        exact Option.some.inj hget
      refine absurd ?_ hslash
      rw [hconcat, hlast]
      exact List.mem_append_right front List.mem_cons_self
    · rw [hcut] at hlen
      change v.length ≤ w'.length at hlen
      have hsum' : (afterUser u).length = w'.length + (t.length + 1) := by
        rw [hw', List.length_append, List.length_cons]
      omega

/-- **Nothing is added**: the authority is the host and the port. -/
lemma ptr_of_clean {v : List UInt8} (hu : u = (v ++ [47]).take 503) (hfit : v.length ≤ 503)
    (hat : 64 ∉ v) (hslash : 47 ∉ v) : (cut (afterUser u) 47).1 = v := by
  have hrest : u = v ++ [47].take (503 - v.length) := by
    rw [hu, List.take_append, List.take_of_length_le hfit]
  have hnone : 64 ∉ u := by
    rw [hrest]
    intro h
    rcases List.mem_append.mp h with h | h
    · exact hat h
    · have h47 := List.mem_of_mem_take h
      exact absurd h47 (by decide)
  have hafter : afterUser u = u := by
    unfold afterUser
    rw [cut_of_notMem hnone]
  rw [hafter, hrest]
  cases 503 - v.length with
  | zero => rw [List.take_zero, List.append_nil, cut_of_notMem hslash]
  | succ n => rw [List.take_succ_cons, List.take_nil, cut_append hslash]

/-- **The engine finds what the app has found** exactly when the host comes through the URL. -/
lemma agrees_iff_clean (server : List UInt8) (hhost : host ≠ []) (hport : Decimal port) :
    Agrees server host port ↔ Clean host port := by
  obtain ⟨q, hq, hqne, hdigits, hisPort⟩ := hport.bytes
  have hq0 : 0 ∉ q := notMem_digits hdigits (by decide)
  have hq58 : 58 ∉ q := notMem_digits hdigits (by decide)
  have hq64 : 64 ∉ q := notMem_digits hdigits (by decide)
  have hq47 : 47 ∉ q := notMem_digits hdigits (by decide)
  have hlength : ∀ b : List UInt8, (b ++ 58 :: q).length = b.length + 1 + q.length := fun b => by
    rw [List.length_append, List.length_cons]
    omega
  have hhead : ∀ b : List UInt8, b ≠ [] → (b ++ 58 :: q).head? = b.head? := fun b hb => by
    obtain ⟨x, b', rfl⟩ := List.exists_cons_of_ne_nil hb
    rfl
  constructor
  · rintro ⟨b, q', hb, hq', hurl⟩
    obtain rfl : q' = q := Option.some.inj (hq'.symm.trans hq)
    have hbne := utf8String_ne_nil hb hhost
    -- no terminator is in the host that the engine finds
    have hb0 : 0 ∉ b := by
      obtain ⟨u, hu, hu0⟩ := startUrl_eq server (some b) (some q')
      rw [hu, parse_https] at hurl
      have hsub : b ⊆ (cut (afterUser u) 47).1 := by
        rcases parseHost_eq_some hurl.1 with ⟨-, h, -⟩ | ⟨-, -, h⟩
        · rw [h]
          exact List.subset_append_left b _
        · exact h
      exact fun h => hu0 (ptr_subset u (hsub h))
    obtain ⟨u, hu⟩ : ∃ u, u = (b ++ 58 :: q' ++ [47]).take 503 := ⟨_, rfl⟩
    rw [startUrl_given server hbne hb0 hqne hq0, ← hu, parse_https] at hurl
    obtain ⟨hparse, -⟩ := hurl
    have hroom : (b ++ 58 :: q').length ≤ (cut (afterUser u) 47).1.length := by
      rw [hlength]
      rcases parseHost_eq_some hparse with ⟨-, h, -⟩ | ⟨h, -⟩
      · rw [h, hlength]
      · omega
    obtain ⟨hptr, hfit, hat, hslash⟩ := ptr_of_length hu (by rw [hlength]; omega) hroom
    rw [hptr] at hparse
    rw [hlength] at hfit
    rcases parseHost_eq_some hparse with ⟨hopen, -, h6, h4⟩ | ⟨h, -⟩
    · refine ⟨b, q', hb, hq, hb0, fun h => hat (List.mem_append_left _ h),
        fun h => hslash (List.mem_append_left _ h), ?_, h6, h4, ?_⟩
      · rwa [hhead b hbne] at hopen
      · change 8 + b.length + 1 + q'.length ≤ 511
        omega
    · rw [hlength] at h
      omega
  · rintro ⟨b, q', hb, hq', hb0, hat, hslash, hopen, h6, h4, hfit⟩
    obtain rfl : q' = q := Option.some.inj (hq'.symm.trans hq)
    have hbne := utf8String_ne_nil hb hhost
    have hfit' : (b ++ 58 :: q').length ≤ 503 := by
      rw [hlength]
      change 8 + b.length + 1 + q'.length ≤ 511 at hfit
      omega
    refine ⟨b, q', hb, hq, ?_⟩
    rw [startUrl_given server hbne hb0 hqne hq0, parse_https, ptr_of_clean rfl hfit']
    · exact ⟨parseHost_colon (by rwa [hhead b hbne]) hq58 h6 h4, hisPort⟩
    · rw [List.mem_append, List.mem_cons, not_or, not_or]
      exact ⟨hat, by decide, hq64⟩
    · rw [List.mem_append, List.mem_cons, not_or, not_or]
      exact ⟨hslash, by decide, hq47⟩

/-- **App and engine agree on the endpoint** exactly when the server string spells a host that comes
through the URL. -/
theorem agrees_iff (U : Unicode) (legacyServer : List UInt8) (server : Option NSString)
    (hparse : sstpParseServerEndpoint U server = some (host, port)) (hhost : host ≠ [])
    (hport : Decimal port) : Agrees legacyServer host port ↔ WellSpelled U server := by
  have hspells := spells_of_parse hparse
  rw [agrees_iff_clean legacyServer hhost hport]
  constructor
  · exact fun h => ⟨host, port, hspells, h⟩
  · rintro ⟨host', port', hspells', h⟩
    obtain ⟨rfl, rfl⟩ := Prod.mk.inj (hspells'.eq.symm.trans hspells.eq)
    exact h

/-- The character data of strings in ASCII. -/
def asciiUnicode : Unicode where
  whitespaceAndNewline u := u = 32 || (9 ≤ u && u ≤ 13)
  joins _ := false
  joinsPrefix _ := false

/-- `"a:8443"`. -/
def plainServer : NSString := [97, 58, 56, 52, 52, 51]

theorem agrees_iff_plain :
    Agrees [] [97] [56, 52, 52, 51] ↔ WellSpelled asciiUnicode (some plainServer) :=
  agrees_iff asciiUnicode [] (some plainServer) (by decide +kernel) (by decide)
    ⟨by simp, by decide, by decide⟩

/-- `"[::1]:443"`. -/
def bracketedServer : NSString := [91, 58, 58, 49, 93, 58, 52, 52, 51]

/-- **A bracketed address**: `"https://::1:443/"` has an address and no port. -/
theorem bracketedServer_not_agrees :
    sstpParseServerEndpoint asciiUnicode (some bracketedServer) =
        some ([58, 58, 49], [52, 52, 51]) ∧ Decimal [52, 52, 51] ∧
      ¬ Agrees [91, 58, 58, 49, 93, 58, 52, 52, 51] [58, 58, 49] [52, 52, 51] := by
  have hport : Decimal [52, 52, 51] := ⟨by simp, by decide, by decide⟩
  refine ⟨by decide +kernel, hport, fun h => ?_⟩
  rw [agrees_iff_clean _ (by decide) hport] at h
  obtain ⟨b, q, hb, hq, -, -, -, -, h6, -⟩ := h
  obtain rfl : b = [58, 58, 49] := Option.some.inj (hb.symm.trans (by decide))
  obtain rfl : q = [52, 52, 51] := Option.some.inj (hq.symm.trans (by decide))
  exact absurd h6 (by decide)

end Agreement

end SstpClient.Endpoint
