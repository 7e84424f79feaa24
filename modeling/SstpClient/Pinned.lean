import SstpClient.Trust

/-!
Pinned mode, and a server that presents the certificate with the pin.

The verify callback takes such a leaf, but does not clear the error OpenSSL has reported for it, and
`sstp_verify_cert` asks for the verify result after the HTTP upgrade. So the pin is of use only for
a chain that OpenSSL has nothing against.
-/

namespace SstpClient.Pinned

open SstpClient.Lib.CString SstpClient.Lib.Machine SstpClient.Buffer SstpClient.Tls SstpClient.Trust

variable {Cert : Type} {L : Library Cert} {p : Params}

/-! ### What OpenSSL does with a chain -/

/-- `SSL_get_verify_result` after the calls of the callback: the last error that was reported. The
callback clears none. -/
def verifyResult (vs : List (Verify Cert)) : ℤ :=
  ((vs.filter fun v => !v.preverifyOk).getLast?.map fun v => v.error).getD x509Ok

/-- The calls are made for a chain with this leaf. -/
structure Presents (vs : List (Verify Cert)) (leaf : Cert) : Prop where
  leaf : ∀ v ∈ vs, v.depth = 0 → v.cert = none ∨ v.cert = some leaf
  error : ∀ v ∈ vs, v.preverifyOk = false → v.error ≠ x509Ok

/-- A handshake with these calls, the connection, and the HTTP upgrade. -/
def session (vs : List (Verify Cert)) (create start : Status) : List (Input Cert) :=
  vs.map .verify ++ [.connected .connected .okay .inprog, .httpDone .okay create start]

/-- The trust checks pass: no call of the callback is refused, and the state machine is created. -/
def Passes (h : List (Event Cert)) : Prop :=
  (∀ v accepted, .verified v accepted ∈ h → accepted = true) ∧ .stateCreate ∈ h

lemma verifyResult_okay {vs : List (Verify Cert)} (h : ∀ v ∈ vs, v.preverifyOk = true) :
    verifyResult vs = x509Ok := by
  have hnone : (vs.filter fun v => !v.preverifyOk) = [] := by
    refine List.filter_eq_nil_iff.mpr fun v hv => ?_
    rw [h v hv]
    exact Bool.false_ne_true
  unfold verifyResult
  rw [hnone]
  rfl

/-- An error that was reported once stays. -/
lemma verifyResult_error {vs : List (Verify Cert)} {leaf : Cert} (hvs : Presents vs leaf)
    {v : Verify Cert} (hv : v ∈ vs) (h : v.preverifyOk = false) : verifyResult vs ≠ x509Ok := by
  have hmem : v ∈ vs.filter fun v => !v.preverifyOk := List.mem_filter.mpr ⟨hv, by rw [h]; rfl⟩
  obtain ⟨w, hw⟩ := Option.ne_none_iff_exists'.mp
    (fun hnone => List.ne_nil_of_mem hmem (List.getLast?_eq_none_iff.mp hnone))
  obtain ⟨hwmem, hwok⟩ := List.mem_filter.mp (List.mem_of_getLast? hw)
  unfold verifyResult
  rw [hw]
  exact hvs.error w hwmem (by simpa using hwok)

/-! ### The two comparisons of the pin -/

lemma nibble_spec (c : UInt8) :
    iosHexNibble (tolower c) = iosHexNibble c ∧
      ∀ n, iosHexNibble c = some n → n.toNat < 16 ∧ hexDigit n = tolower c := by
  have hall : ∀ c : UInt8, iosHexNibble (tolower c) = iosHexNibble c ∧
      (iosHexNibble c).all (fun n => n.toNat < 16 ∧ hexDigit n = tolower c) = true := by
    decide +kernel
  obtain ⟨hlower, hc⟩ := hall c
  refine ⟨hlower, fun n hn => ?_⟩
  rw [hn] at hc
  exact of_decide_eq_true hc

/-- The two digits of a byte. -/
lemma digits_byte {h l : UInt8} (hh : h.toNat < 16) (hl : l.toNat < 16) :
    (h <<< 4 ||| l) >>> 4 = h ∧ (h <<< 4 ||| l) &&& 15 = l := by
  have hall : ∀ m < 16, ∀ n < 16, (UInt8.ofNat m <<< 4 ||| UInt8.ofNat n) >>> 4 = UInt8.ofNat m ∧
      (UInt8.ofNat m <<< 4 ||| UInt8.ofNat n) &&& 15 = UInt8.ofNat n := by
    decide +kernel
  have hbyte := hall h.toNat hh l.toNat hl
  rwa [UInt8.ofNat_toNat, UInt8.ofNat_toNat] at hbyte

lemma parsePairs_tolower (hex : List UInt8) : parsePairs (hex.map tolower) = parsePairs hex := by
  induction hex using parsePairs.induct with
  | case1 => rfl
  | case2 c => rfl
  | case3 hi lo rest ih =>
    rw [List.map_cons, List.map_cons, parsePairs, parsePairs, (nibble_spec hi).1, (nibble_spec lo).1,
      ih]

/-- Digits that are read as the bytes are written for them, up to their case. -/
lemma hexOf_parsePairs {hex bytes : List UInt8} (h : parsePairs hex = some bytes) :
    hexOf bytes = hex.map tolower := by
  induction hex using parsePairs.induct generalizing bytes with
  | case1 =>
    cases h
    rfl
  | case2 c => cases h
  | case3 hi lo rest ih =>
    rw [parsePairs] at h
    obtain ⟨m, hm, h⟩ := Option.bind_eq_some_iff.mp h
    obtain ⟨n, hn, h⟩ := Option.bind_eq_some_iff.mp h
    obtain ⟨out, hout, h⟩ := Option.bind_eq_some_iff.mp h
    cases h
    obtain ⟨hm16, hmdigit⟩ := (nibble_spec hi).2 m hm
    obtain ⟨hn16, hndigit⟩ := (nibble_spec lo).2 n hn
    obtain ⟨hhigh, hlow⟩ := digits_byte hm16 hn16
    have hrest := ih hout
    unfold hexOf at hrest ⊢
    rw [List.flatMap_cons, hrest, hhigh, hlow, hmdigit, hndigit]
    rfl

/-- The digits of a byte are read as that byte. -/
lemma nibbles_byte (b : UInt8) : iosHexNibble (hexDigit (b >>> 4)) = some (b >>> 4) ∧
    iosHexNibble (hexDigit (b &&& 15)) = some (b &&& 15) ∧ (b >>> 4) <<< 4 ||| (b &&& 15) = b := by
  have hall : ∀ b : UInt8, iosHexNibble (hexDigit (b >>> 4)) = some (b >>> 4) ∧
      iosHexNibble (hexDigit (b &&& 15)) = some (b &&& 15) ∧
        (b >>> 4) <<< 4 ||| (b &&& 15) = b := by
    decide +kernel
  exact hall b

lemma parsePairs_hexOf (bytes : List UInt8) : parsePairs (hexOf bytes) = some bytes := by
  induction bytes with
  | nil => rfl
  | cons b bytes ih =>
    obtain ⟨hhigh, hlow, hbyte⟩ := nibbles_byte b
    have hcons : hexOf (b :: bytes) = hexDigit (b >>> 4) :: hexDigit (b &&& 15) :: hexOf bytes := rfl
    rw [hcons, parsePairs, hhigh, hlow, ih]
    simp [hbyte]

lemma length_hexOf (bytes : List UInt8) : (hexOf bytes).length = 2 * bytes.length := by
  unfold hexOf
  rw [List.length_flatMap]
  simp [mul_comm]

/-- **The two comparisons of the pin agree**, for every pin and every hash. -/
theorem pins_agree (pin : List UInt8) (hash : Digest) :
    iosParseSha256Hex pin = some hash.1 ↔ strcaseEq (hexOf hash.1) pin = true := by
  have hlength : (hexOf hash.1).length = 64 := by rw [length_hexOf, hash.2]
  unfold strcaseEq
  rw [decide_eq_true_iff]
  constructor
  · intro hparse
    unfold iosParseSha256Hex at hparse
    split_ifs at hparse with hlen
    rw [hexOf_parsePairs hparse, List.map_map]
    exact List.map_congr_left fun c _ => tolower_tolower c
  · intro hsame
    have hlen : pin.length = 64 := by
      calc pin.length = (pin.map tolower).length := (List.length_map _).symm
        _ = (hexOf hash.1).length := by rw [← hsame, List.length_map]
        _ = 64 := hlength
    unfold iosParseSha256Hex
    rw [if_neg (not_not.mpr hlen), ← parsePairs_tolower, ← hsame, parsePairs_tolower]
    exact parsePairs_hexOf hash.1

/-- A pin of 64 digits as it was given, and as the session keeps it. -/
structure PinOf (p : Params) (hash : Digest) : Prop where
  mode : p.tlsMode = .pinned
  pin : ∃ pin, p.pinSha256Hex = some pin ∧ iosParseSha256Hex pin = some hash.1

section Pin

variable {hash : Digest} (hpin : PinOf p hash)
include hpin

/-- **Both comparisons** find the pin: the one of bytes, and the one of digits. -/
lemma pin_found :
    p.session.pinSha256Hex ≠ [] ∧ iosParseSha256Hex p.session.pinSha256Hex = some hash.1 ∧
      strcaseEq (hexOf hash.1) p.session.pinSha256Hex = true := by
  obtain ⟨pin, hp, hparse⟩ := hpin.pin
  have hlen : pin.length = 64 := by
    by_contra hne
    rw [iosParseSha256Hex, if_pos hne] at hparse
    cases hparse
  have hstored : p.session.pinSha256Hex = pin.map tolower := by
    unfold Params.session
    rw [hp]
    exact congrArg (List.map tolower) (List.take_of_length_le (by omega))
  have hpairs : parsePairs pin = some hash.1 := by
    rwa [iosParseSha256Hex, if_neg (not_not.mpr hlen)] at hparse
  refine ⟨fun hnil => ?_, ?_, ?_⟩
  · rw [hstored, List.map_eq_nil_iff] at hnil
    rw [hnil] at hlen
    cases hlen
  · rw [hstored, iosParseSha256Hex, List.length_map, if_neg (not_not.mpr hlen), parsePairs_tolower]
    exact hpairs
  · rw [strcaseEq_session hp (by omega)]
    unfold strcaseEq
    rw [hexOf_parsePairs hpairs, List.map_map]
    exact decide_eq_true (List.map_congr_left fun c _ => tolower_tolower c)

/-- The callback refuses no leaf with the pin; elsewhere it goes by OpenSSL. -/
lemma callback_accepts {leaf : Cert} (hdigest : L.digest leaf = some hash) {v : Verify Cert}
    (hleaf : v.depth = 0 → v.cert = none ∨ v.cert = some leaf) (hok : v.preverifyOk = true) :
    iosVerifyCallback L (some p.session) v = true := by
  obtain ⟨hne, hparse, -⟩ := pin_found hpin
  have hmode : p.session.tlsMode = .pinned := hpin.mode
  unfold iosVerifyCallback
  dsimp only
  rw [hmode]
  dsimp only
  split
  · next cert hdepth hcert =>
    rcases hleaf hdepth with hnone | hsome
    · rw [hnone] at hcert
      cases hcert
    · rw [hsome] at hcert
      cases hcert
      unfold iosPinMatches
      rw [if_neg hne, hparse, hdigest]
      exact decide_eq_true rfl
  · exact hok

end Pin

/-! ### The run of the session -/

section Run

variable (peer : Peer Cert)

/-- In the handshake the callback is called, and nothing else happens. -/
lemma run_verify (vs : List (Verify Cert)) (is : List (Input Cert)) :
    run (step L p peer) .connecting (vs.map .verify ++ is) =
      ((run (step L p peer) .connecting is).1,
        vs.map (fun v => .verified v (iosVerifyCallback L (some p.session) v)) ++
          (run (step L p peer) .connecting is).2) := by
  induction vs with
  | nil => rfl
  | cons v vs ih =>
    have hstep : step L p peer .connecting (.verify v) =
        (.connecting, [.verified v (iosVerifyCallback L (some p.session) v)]) := rfl
    rw [List.map_cons, List.cons_append, run_cons, hstep, ih]
    rfl

/-- Outside system mode the session goes on from the connection to `ios_http_done`. -/
lemma run_connected (hmode : p.tlsMode = .pinned) (create start : Status) :
    (run (step L p peer) .connecting
      [.connected .connected .okay .inprog, .httpDone .okay create start]).2 =
        .handshake :: .stage .httpUpgrade :: (iosHttpDone L p peer .okay create start).2 := by
  have hconnected : step L p peer .connecting (.connected .connected .okay .inprog) =
      (.http, [.handshake, .stage .httpUpgrade]) := by
    simp only [step, iosConnected]
    rw [if_neg (by rw [hmode]; decide)]
    rfl
  rw [run_cons, hconnected, run_cons, run_nil, List.append_nil]
  rfl

/-- What the end of `ios_http_done` puts out. -/
lemma startControl_spec (create start : Status) :
    .stateCreate ∈ (startControl create start : Phase × List (Event Cert)).2 ∧
      ∀ v accepted, .verified v accepted ∉ (startControl create start : Phase × List (Event Cert)).2 := by
  unfold startControl
  split_ifs
  · simp
  · simp
  · simp

/-- **After the upgrade** it is the verify result that decides, for the right server and pin. -/
lemma httpDone_eq {hash : Digest} (hpin : PinOf p hash) {leaf : Cert} (hleaf : peer.leaf = some leaf)
    (hdigest : L.digest leaf = some hash) (hname : nameMatches L leaf p.verifyHost = true)
    (create start : Status) :
    iosHttpDone L p peer .okay create start =
      if peer.verifyResult = x509Ok then startControl create start
      else failWith
        ⟨.tlsCert, .tcpTls, "Server certificate verification failed (chain or hostname)"⟩ := by
  obtain ⟨hne, -, hcase⟩ := pin_found hpin
  have hmode : ¬ (p.tlsMode = .system ∨ p.tlsMode = .insecureDebug) := by
    rw [hpin.mode]
    decide
  simp only [iosHttpDone]
  rw [if_neg hmode]
  by_cases hresult : peer.verifyResult = x509Ok
  · have hverify : sstpVerifyCert L peer p.verifyHost = .okay := by
      unfold sstpVerifyCert
      rw [hleaf]
      dsimp only
      rw [if_neg (not_not.mpr hresult), if_pos hname]
    have hnone : pinFailure L p.session peer = none := by
      unfold pinFailure sstpGetCertHash
      rw [if_pos ⟨hpin.mode, hne⟩, hleaf, Option.bind_some, hdigest]
      exact if_pos hcase
    rw [if_neg (not_not.mpr hverify), hnone, if_pos hresult]
  · have hverify : sstpVerifyCert L peer p.verifyHost ≠ .okay := by
      unfold sstpVerifyCert
      rw [hleaf]
      dsimp only
      rw [if_pos hresult]
      decide
    rw [if_pos hverify, if_neg hresult]

end Run

/-- **When a pinned server is accepted**: for a leaf with the pin and the name, exactly when OpenSSL
has reported no error, at any depth. -/
theorem passes_iff {hash : Digest} (hpin : PinOf p hash) {leaf : Cert}
    (hdigest : L.digest leaf = some hash) (hname : nameMatches L leaf p.verifyHost = true)
    {vs : List (Verify Cert)} (hvs : Presents vs leaf) (chain : List (Option Cert)) (debug : Bool)
    (create start : Status) :
    Passes (run (step L p ⟨some leaf, chain, verifyResult vs⟩) (started p debug)
      (session vs create start)).2 ↔ ∀ v ∈ vs, v.preverifyOk = true := by
  have hstarted : started p debug = .connecting := by
    unfold started iosInitSsl
    rw [hpin.mode]
    dsimp only
    rw [if_neg (pin_found hpin).1]
    rfl
  unfold session
  rw [hstarted, run_verify, run_connected _ hpin.mode,
    httpDone_eq ⟨some leaf, chain, verifyResult vs⟩ hpin rfl hdigest hname]
  obtain ⟨hcreate, hverified⟩ := @startControl_spec Cert create start
  constructor
  · rintro ⟨-, hmem⟩ v hv
    by_contra hok
    have herror : verifyResult vs ≠ x509Ok := verifyResult_error hvs hv (Bool.eq_false_iff.mpr hok)
    rw [if_neg herror] at hmem
    simp [failWith] at hmem
  · intro hall
    rw [if_pos (verifyResult_okay hall)]
    refine ⟨fun v accepted hmem => ?_, by simp [hcreate]⟩
    rcases List.mem_append.mp hmem with hmem | hmem
    · obtain ⟨w, hw, heq⟩ := List.mem_map.mp hmem
      cases heq
      exact callback_accepts hpin hdigest (hvs.leaf v hw) (hall v hw)
    · simp [hverified] at hmem

/-- The name and the pin of the one server; the chain has been found good. -/
theorem passes_valid :
    PinOf pinnedParams ⟨List.replicate 32 171, rfl⟩ ∧ Presents [⟨true, 0, some (), 0⟩] () ∧
      Passes (run (step oneServer pinnedParams ⟨some (), [], verifyResult [⟨true, 0, some (), 0⟩]⟩)
        (started pinnedParams false) (session [⟨true, 0, some (), 0⟩] .okay .okay)).2 := by
  have hpin : PinOf pinnedParams ⟨List.replicate 32 171, rfl⟩ :=
    ⟨rfl, _, rfl, by decide +kernel⟩
  have hvs : Presents [⟨true, 0, some (), 0⟩] () := by
    refine ⟨fun v hv _ => ?_, fun v hv hok => ?_⟩
    · cases List.mem_singleton.mp hv
      exact .inr rfl
    · cases List.mem_singleton.mp hv
      cases hok
  refine ⟨hpin, hvs, (passes_iff hpin rfl (by decide +kernel) hvs [] false .okay .okay).mpr ?_⟩
  intro v hv
  cases List.mem_singleton.mp hv
  rfl

/-- `X509_V_ERR_DEPTH_ZERO_SELF_SIGNED_CERT` for a leaf that has the pin and the name. -/
theorem selfSigned_not_passes :
    PinOf pinnedParams ⟨List.replicate 32 171, rfl⟩ ∧
      oneServer.digest () = some ⟨List.replicate 32 171, rfl⟩ ∧
        nameMatches oneServer () pinnedParams.verifyHost = true ∧
          Presents [⟨false, 0, some (), 18⟩] () ∧
            ¬ Passes (run (step oneServer pinnedParams
              ⟨some (), [], verifyResult [⟨false, 0, some (), 18⟩]⟩) (started pinnedParams false)
                (session [⟨false, 0, some (), 18⟩] .okay .okay)).2 := by
  refine ⟨⟨rfl, _, rfl, by decide +kernel⟩, rfl, by decide +kernel,
    ⟨fun v hv _ => ?_, fun v hv _ => ?_⟩, fun hpasses => ?_⟩
  · cases List.mem_singleton.mp hv
    exact .inr rfl
  · cases List.mem_singleton.mp hv
    decide
  · have hevents : (run (step oneServer pinnedParams
        ⟨some (), [], verifyResult [⟨false, 0, some (), 18⟩]⟩) (started pinnedParams false)
          (session [⟨false, 0, some (), 18⟩] .okay .okay)).2 =
        [.verified ⟨false, 0, some (), 18⟩ true, .handshake, .stage .httpUpgrade,
          .fail ⟨.tlsCert, .tcpTls,
            "Server certificate verification failed (chain or hostname)"⟩] := by
      rfl
    have hmem := hpasses.2
    rw [hevents] at hmem
    simp at hmem

end SstpClient.Pinned
