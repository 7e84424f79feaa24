import SstpClient.Tls

/-!
The SSTP state machine is created only for a server that is trusted.

In each mode another part of the checks decides: the trust store when the connection is there, or
the verify callback in the handshake together with `sstp_verify_cert` after the HTTP upgrade.
-/

namespace SstpClient.Trust

open SstpClient.Lib.CString SstpClient.Lib.Machine SstpClient.Buffer SstpClient.Tls

variable {Cert : Type} (L : Library Cert) (p : Params) (peer : Peer Cert)

/-! ### What trust is -/

/-- OpenSSL completes the handshake only if every call of the verify callback has returned `1`. -/
def HandshakeSound (h : List (Event Cert)) : Prop :=
  ∀ h₁ h₂, h = h₁ ++ .handshake :: h₂ → ∀ v accepted, .verified v accepted ∈ h₁ → accepted = true

/-- The checks that the mode asks for have been made, and the server has passed them. -/
def Trusted (h : List (Event Cert)) : Prop :=
  match p.tlsMode with
  | .system => ∃ leaf der ders, peer.leaf = some leaf ∧ iosX509ToDer L leaf = some der ∧
      chainDers L leaf peer.chain = some ders ∧ .secTrust (der :: ders) p.verifyHost (.ok ()) ∈ h
  | .customCa => .handshake ∈ h ∧ (∀ v accepted, .verified v accepted ∈ h → v.preverifyOk = true) ∧
      peer.verifyResult = x509Ok ∧ ∃ leaf, peer.leaf = some leaf ∧ nameMatches L leaf p.verifyHost = true
  | .pinned => .handshake ∈ h ∧ peer.verifyResult = x509Ok ∧
      ∃ leaf hash, peer.leaf = some leaf ∧ nameMatches L leaf p.verifyHost = true ∧
        L.digest leaf = some hash ∧ strcaseEq (hexOf hash.1) p.session.pinSha256Hex = true
  | .insecureDebug => True

lemma tolower_tolower (c : UInt8) : tolower (tolower c) = tolower c := by
  revert c
  decide +kernel

/-- A configured pin that is no longer than a hash is what the session compares with. -/
theorem strcaseEq_session {p : Params} {pin : List UInt8} (hpin : p.pinSha256Hex = some pin)
    (hlen : pin.length ≤ 64) (s : List UInt8) :
    strcaseEq s p.session.pinSha256Hex = strcaseEq s pin := by
  have hlower : (pin.map tolower).map tolower = pin.map tolower := by
    rw [List.map_map]
    exact List.map_congr_left fun c _ => tolower_tolower c
  have hstored : p.session.pinSha256Hex = pin.map tolower := by
    unfold Params.session
    rw [hpin]
    exact congrArg (List.map tolower) (List.take_of_length_le hlen)
  unfold strcaseEq
  rw [hstored, hlower]

/-! ### What the steps put out -/

/-- Neither a call of the verify callback nor the end of the handshake. -/
def Later : Event Cert → Prop
  | .verified _ _ => False
  | .handshake => False
  | _ => True

/-- What comes with the connection besides the end of the handshake. -/
def Quiet (e : Event Cert) : Prop := Later e ∧ e ≠ .stateCreate

variable {L p peer}

lemma startHttp_spec (create handshake : Status) :
    ((startHttp create handshake : Phase × List (Event Cert)).1 = .http ∨
      (startHttp create handshake : Phase × List (Event Cert)).1 = .failed) ∧
      ∀ e ∈ (startHttp create handshake : Phase × List (Event Cert)).2, Quiet e := by
  unfold startHttp
  split_ifs
  · refine ⟨.inr rfl, fun e he => ?_⟩
    fin_cases he <;> exact ⟨trivial, nofun⟩
  · refine ⟨.inr rfl, fun e he => ?_⟩
    fin_cases he <;> exact ⟨trivial, nofun⟩
  · refine ⟨.inl rfl, fun e he => ?_⟩
    fin_cases he
    exact ⟨trivial, nofun⟩

/-- The evaluation passes only with the answer of the trust store for the chain. -/
lemma systemTrust_spec (host : Option (List UInt8)) :
    (∀ e ∈ (iosEvaluateSystemTrust L peer host).2, Quiet e) ∧
      ((iosEvaluateSystemTrust L peer host).1 = none →
        ∃ leaf der ders, peer.leaf = some leaf ∧ iosX509ToDer L leaf = some der ∧
          chainDers L leaf peer.chain = some ders ∧
            .secTrust (der :: ders) host (.ok ()) ∈ (iosEvaluateSystemTrust L peer host).2) := by
  unfold iosEvaluateSystemTrust
  cases hleaf : peer.leaf with
  | none => exact ⟨fun e he => (List.not_mem_nil he).elim, nofun⟩
  | some leaf =>
    dsimp only
    cases hder : iosX509ToDer L leaf with
    | none => exact ⟨fun e he => (List.not_mem_nil he).elim, nofun⟩
    | some der =>
      dsimp only
      cases hders : chainDers L leaf peer.chain with
      | none => exact ⟨fun e he => (List.not_mem_nil he).elim, nofun⟩
      | some ders =>
        dsimp only
        cases hresult : sstpIosSecTrustEvaluate L (der :: ders) host with
        | error message =>
          refine ⟨fun e he => ?_, nofun⟩
          cases List.mem_singleton.mp he
          exact ⟨trivial, nofun⟩
        | ok u =>
          refine ⟨fun e he => ?_, fun _ => ⟨leaf, der, ders, rfl, hder, hders, ?_⟩⟩
          · cases List.mem_singleton.mp he
            exact ⟨trivial, nofun⟩
          · exact List.mem_singleton.mpr rfl

/-- The connection: a session goes on to HTTP only after the handshake, and in system mode after the
trust store has been asked. -/
lemma connected_spec (status create handshake : Status) :
    (iosConnected L p peer status create handshake).1 = .failed ∧
        (∀ e ∈ (iosConnected L p peer status create handshake).2, e = .handshake ∨ Quiet e) ∨
      (iosConnected L p peer status create handshake).1 = .http ∧
        ∃ es, (iosConnected L p peer status create handshake).2 = .handshake :: es ∧
          (∀ e ∈ es, Quiet e) ∧ (p.tlsMode = .system → Trusted L p peer es) := by
  have hfail : ∀ failure, ∀ e ∈ (failWith failure : Phase × List (Event Cert)).2,
      e = .handshake ∨ Quiet e := by
    intro failure e he
    cases List.mem_singleton.mp he
    exact .inr ⟨trivial, nofun⟩
  obtain ⟨hphase, hhttp⟩ := @startHttp_spec Cert create handshake
  unfold iosConnected
  split
  · exact .inl ⟨rfl, hfail _⟩
  · split_ifs with hsystem
    · obtain ⟨hquiet, htrust⟩ := @systemTrust_spec Cert L peer p.verifyHost
      split
      case h_1 failure es heq =>
        rw [heq] at hquiet
        refine .inl ⟨rfl, fun e he => ?_⟩
        rcases List.mem_cons.mp he with rfl | he
        · exact .inl rfl
        · rcases List.mem_append.mp he with he | he
          · exact .inr (hquiet e he)
          · cases List.mem_singleton.mp he
            exact .inr ⟨trivial, nofun⟩
      case h_2 es heq =>
        rw [heq] at hquiet htrust
        have hboth : ∀ e ∈ es ++ (startHttp create handshake : Phase × List (Event Cert)).2,
            Quiet e := by
          intro e he
          rcases List.mem_append.mp he with he | he
          · exact hquiet e he
          · exact hhttp e he
        rcases hphase with hphase | hphase
        · refine .inr ⟨hphase, _, rfl, hboth, fun _ => ?_⟩
          obtain ⟨leaf, der, ders, h1, h2, h3, h4⟩ := htrust rfl
          unfold Trusted
          rw [hsystem]
          exact ⟨leaf, der, ders, h1, h2, h3, List.mem_append_left _ h4⟩
        · refine .inl ⟨hphase, fun e he => ?_⟩
          rcases List.mem_cons.mp he with rfl | he
          · exact .inl rfl
          · exact .inr (hboth e he)
    · rcases hphase with hphase | hphase
      · exact .inr ⟨hphase, _, rfl, hhttp, fun h => absurd h hsystem⟩
      · refine .inl ⟨hphase, fun e he => ?_⟩
        rcases List.mem_cons.mp he with rfl | he
        · exact .inl rfl
        · exact .inr (hhttp e he)
  · exact .inl ⟨rfl, hfail _⟩

/-- The checks after the HTTP upgrade. -/
def Passed (L : Library Cert) (p : Params) (peer : Peer Cert) : Prop :=
  p.tlsMode = .system ∨ p.tlsMode = .insecureDebug ∨
    sstpVerifyCert L peer p.verifyHost = .okay ∧ pinFailure L p.session peer = none

lemma startControl_spec (create start : Status) :
    ((startControl create start : Phase × List (Event Cert)).1 = .control ∨
      (startControl create start : Phase × List (Event Cert)).1 = .failed) ∧
      ∃ es, (startControl create start : Phase × List (Event Cert)).2 =
        .stage .sstpControl :: .stateCreate :: es ∧ ∀ e ∈ es, Quiet e := by
  unfold startControl
  split_ifs
  · refine ⟨.inr rfl, _, rfl, fun e he => ?_⟩
    cases List.mem_singleton.mp he
    exact ⟨trivial, nofun⟩
  · refine ⟨.inr rfl, _, rfl, fun e he => ?_⟩
    cases List.mem_singleton.mp he
    exact ⟨trivial, nofun⟩
  · exact ⟨.inl rfl, _, rfl, fun e he => (List.not_mem_nil he).elim⟩

/-- The HTTP upgrade: the state machine is created only past the checks. -/
lemma httpDone_spec (status create start : Status) :
    ((iosHttpDone L p peer status create start).1 = .control ∨
      (iosHttpDone L p peer status create start).1 = .failed) ∧
      ((∀ e ∈ (iosHttpDone L p peer status create start).2, Quiet e) ∨
        Passed L p peer ∧ ∃ es, (iosHttpDone L p peer status create start).2 =
          .stage .sstpControl :: .stateCreate :: es ∧ ∀ e ∈ es, Quiet e) := by
  have hfail : ∀ failure, ∀ e ∈ (failWith failure : Phase × List (Event Cert)).2, Quiet e := by
    intro failure e he
    cases List.mem_singleton.mp he
    exact ⟨trivial, nofun⟩
  obtain ⟨hphase, hcontrol⟩ := @startControl_spec Cert create start
  unfold iosHttpDone
  split
  · split_ifs with hmode hverify
    · exact ⟨hphase, .inr ⟨hmode.elim .inl fun h => .inr (.inl h), hcontrol⟩⟩
    · exact ⟨.inr rfl, .inl (hfail _)⟩
    · cases hpin : pinFailure L p.session peer with
      | some failure => exact ⟨.inr rfl, .inl (hfail _)⟩
      | none => exact ⟨hphase, .inr ⟨.inr (.inr ⟨not_not.mp hverify, hpin⟩), hcontrol⟩⟩
  · exact ⟨.inr rfl, .inl (hfail _)⟩
  · exact ⟨.inr rfl, .inl (hfail _)⟩

/-! ### The checks -/

lemma verifyCert_okay {host : Option (List UInt8)} (h : sstpVerifyCert L peer host = .okay) :
    peer.verifyResult = x509Ok ∧ ∃ leaf, peer.leaf = some leaf ∧ nameMatches L leaf host = true := by
  unfold sstpVerifyCert at h
  cases hleaf : peer.leaf with
  | none =>
    rw [hleaf] at h
    cases h
  | some leaf =>
    rw [hleaf] at h
    dsimp only at h
    split_ifs at h with hresult hname
    exact ⟨not_not.mp hresult, leaf, rfl, hname⟩

lemma pinFailure_none {session : Session} (hmode : session.tlsMode = .pinned)
    (hpin : session.pinSha256Hex ≠ []) (h : pinFailure L session peer = none) :
    ∃ leaf hash, peer.leaf = some leaf ∧ L.digest leaf = some hash ∧
      strcaseEq (hexOf hash.1) session.pinSha256Hex = true := by
  unfold pinFailure at h
  rw [if_pos ⟨hmode, hpin⟩] at h
  cases hhash : sstpGetCertHash L peer with
  | none =>
    rw [hhash] at h
    cases h
  | some hash =>
    obtain ⟨leaf, hleaf, hdigest⟩ := Option.bind_eq_some_iff.mp hhash
    rw [hhash] at h
    dsimp only at h
    split_ifs at h with heq
    exact ⟨leaf, hash, hleaf, hdigest, heq⟩

/-! ### The invariant -/

variable (L p peer)

/-- What the history of a session says about it. -/
structure Checked (phase : Phase) (h : List (Event Cert)) : Prop where
  returned : ∀ v accepted, .verified v accepted ∈ h →
    accepted = iosVerifyCallback L (some p.session) v
  connecting : phase = .connecting → .handshake ∉ h
  completed : phase = .http → ∃ h₁ h₂, h = h₁ ++ .handshake :: h₂ ∧
    ∀ v accepted, .verified v accepted ∉ h₂
  system : phase = .http → p.tlsMode = .system → Trusted L p peer h
  pin : phase ≠ .failed → p.tlsMode = .pinned → p.session.pinSha256Hex ≠ []
  created : ∀ h₁ h₂, h = h₁ ++ .stateCreate :: h₂ → HandshakeSound h₁ → Trusted L p peer h₁

variable {L p peer}

/-- What comes later does not take trust back. -/
lemma Trusted.append {h es : List (Event Cert)} (ht : Trusted L p peer h)
    (hes : ∀ v accepted, .verified v accepted ∉ es) : Trusted L p peer (h ++ es) := by
  unfold Trusted at ht ⊢
  split at ht
  · obtain ⟨leaf, der, ders, h1, h2, h3, h4⟩ := ht
    exact ⟨leaf, der, ders, h1, h2, h3, List.mem_append_left _ h4⟩
  · obtain ⟨h1, h2, hrest⟩ := ht
    refine ⟨List.mem_append_left _ h1, fun v accepted hv => ?_, hrest⟩
    rcases List.mem_append.mp hv with hv | hv
    · exact h2 v accepted hv
    · exact absurd hv (hes v accepted)
  · obtain ⟨h1, hrest⟩ := ht
    exact ⟨List.mem_append_left _ h1, hrest⟩
  · trivial

lemma HandshakeSound.left {h es : List (Event Cert)} (hs : HandshakeSound (h ++ es)) :
    HandshakeSound h := by
  intro h₁ h₂ heq
  refine hs h₁ (h₂ ++ es) ?_
  rw [heq, List.append_assoc, List.cons_append]

/-- Past all checks the server is trusted. -/
lemma Checked.trusted {h : List (Event Cert)} (hc : Checked L p peer .http h)
    (hpassed : Passed L p peer) (hsound : HandshakeSound h) : Trusted L p peer h := by
  obtain ⟨h₁, h₂, heq, hnone⟩ := hc.completed rfl
  have hhandshake : Event.handshake ∈ h := by
    rw [heq]
    exact List.mem_append_right _ List.mem_cons_self
  cases hmode : p.tlsMode with
  | system => exact hc.system rfl hmode
  | insecureDebug =>
    unfold Trusted
    rw [hmode]
    trivial
  | customCa =>
    rcases hpassed with hp | hp | ⟨hverify, -⟩
    · rw [hmode] at hp
      cases hp
    · rw [hmode] at hp
      cases hp
    obtain ⟨hresult, hname⟩ := verifyCert_okay hverify
    unfold Trusted
    rw [hmode]
    refine ⟨hhandshake, fun v accepted hv => ?_, hresult, hname⟩
    -- the callback returns what OpenSSL has found
    have hreturned := hc.returned v accepted hv
    have hbefore : .verified v accepted ∈ h₁ := by
      rw [heq] at hv
      rcases List.mem_append.mp hv with hv | hv
      · exact hv
      · rcases List.mem_cons.mp hv with hv | hv
        · cases hv
        · exact absurd hv (hnone v accepted)
    have haccepted := hsound h₁ h₂ heq v accepted hbefore
    simp only [iosVerifyCallback, Params.session, hmode] at hreturned
    exact hreturned.symm.trans haccepted
  | pinned =>
    rcases hpassed with hp | hp | ⟨hverify, hpin⟩
    · rw [hmode] at hp
      cases hp
    · rw [hmode] at hp
      cases hp
    obtain ⟨hresult, leaf, hleaf, hname⟩ := verifyCert_okay hverify
    obtain ⟨leaf', hash, hleaf', hdigest, hequal⟩ := pinFailure_none hmode (hc.pin nofun hmode) hpin
    obtain rfl : leaf = leaf' := Option.some.inj (hleaf.symm.trans hleaf')
    unfold Trusted
    rw [hmode]
    exact ⟨hhandshake, hresult, leaf, hash, hleaf, hname, hdigest, hequal⟩

/-- Events after which the history says no more about the checks. -/
lemma Checked.extend {phase : Phase} {h es : List (Event Cert)} (hc : Checked L p peer phase h)
    (hend : phase ≠ .failed) {phase' : Phase} (hphase : phase' = .control ∨ phase' = .failed)
    (hverified : ∀ v accepted, .verified v accepted ∉ es)
    (hcreated : ∀ t t', es = t ++ .stateCreate :: t' → HandshakeSound (h ++ t) →
      Trusted L p peer (h ++ t)) : Checked L p peer phase' (h ++ es) := by
  refine ⟨fun v accepted hv => ?_, fun h' => ?_, fun h' => ?_, fun h' => ?_, fun _ => hc.pin hend,
    fun h₁ h₂ heq hsound => ?_⟩
  · rcases List.mem_append.mp hv with hv | hv
    · exact hc.returned v accepted hv
    · exact absurd hv (hverified v accepted)
  · rcases hphase with rfl | rfl <;> cases h'
  · rcases hphase with rfl | rfl <;> cases h'
  · rcases hphase with rfl | rfl <;> cases h'
  · rcases split_append heq with ⟨t, ht⟩ | ⟨t, rfl, ht⟩
    · exact hc.created h₁ t ht hsound
    · exact hcreated t h₂ ht hsound

lemma not_created {es t t' : List (Event Cert)} (hquiet : ∀ e ∈ es, e = .handshake ∨ Quiet e)
    (heq : es = t ++ .stateCreate :: t') : False := by
  have hmem : Event.stateCreate ∈ es := by
    rw [heq]
    exact List.mem_append_right _ List.mem_cons_self
  rcases hquiet _ hmem with h | h
  · cases h
  · exact h.2 rfl

lemma not_verified {es : List (Event Cert)} (hquiet : ∀ e ∈ es, e = .handshake ∨ Quiet e)
    (v : Verify Cert) (accepted : Bool) : .verified v accepted ∉ es := by
  intro hmem
  rcases hquiet _ hmem with h | h
  · cases h
  · exact h.1

lemma checked_connected {h : List (Event Cert)} (hc : Checked L p peer .connecting h)
    (status create handshake : Status) :
    Checked L p peer (iosConnected L p peer status create handshake).1
      (h ++ (iosConnected L p peer status create handshake).2) := by
  rcases @connected_spec Cert L p peer status create handshake with
    ⟨hphase, hquiet⟩ | ⟨hphase, es, hes, hquiet, hsystem⟩
  · exact hc.extend nofun (.inr hphase) (not_verified hquiet)
      fun t t' heq => (not_created hquiet heq).elim
  · have hall : ∀ e ∈ Event.handshake :: es, e = .handshake ∨ Quiet e := fun e he =>
      (List.mem_cons.mp he).imp_right (hquiet e)
    rw [hphase, hes]
    refine ⟨fun v accepted hv => ?_, nofun, fun _ => ⟨h, es, rfl, fun v accepted hv =>
      (hquiet _ hv).1⟩, fun _ hmode => ?_, fun _ => hc.pin nofun, fun h₁ h₂ heq hsound => ?_⟩
    · rcases List.mem_append.mp hv with hv | hv
      · exact hc.returned v accepted hv
      · exact absurd hv (not_verified hall v accepted)
    · have ht := hsystem hmode
      unfold Trusted at ht ⊢
      rw [hmode] at ht ⊢
      obtain ⟨leaf, der, ders, h1, h2, h3, h4⟩ := ht
      exact ⟨leaf, der, ders, h1, h2, h3, List.mem_append_right _ (List.mem_cons_of_mem _ h4)⟩
    · rcases split_append heq with ⟨t, ht⟩ | ⟨t, -, ht⟩
      · exact hc.created h₁ t ht hsound
      · exact (not_created hall ht).elim

lemma checked_httpDone {h : List (Event Cert)} (hc : Checked L p peer .http h)
    (status create start : Status) :
    Checked L p peer (iosHttpDone L p peer status create start).1
      (h ++ (iosHttpDone L p peer status create start).2) := by
  obtain ⟨hphase, hquiet | ⟨hpassed, es, hes, hquiet⟩⟩ :=
    @httpDone_spec Cert L p peer status create start
  · have hall : ∀ e ∈ (iosHttpDone L p peer status create start).2, e = .handshake ∨ Quiet e :=
      fun e he => .inr (hquiet e he)
    exact hc.extend nofun hphase (not_verified hall) fun t t' heq => (not_created hall heq).elim
  · rw [hes]
    refine hc.extend nofun hphase (fun v accepted hv => ?_) fun t t' heq hsound => ?_
    · rcases List.mem_cons.mp hv with hv | hv
      · cases hv
      · rcases List.mem_cons.mp hv with hv | hv
        · cases hv
        · exact (hquiet _ hv).1
    · refine (hc.trusted hpassed hsound.left).append fun v accepted hv => ?_
      -- only the new stage comes before the state machine is created
      rcases t with _ | ⟨e, _ | ⟨e', t⟩⟩
      · cases hv
      · cases List.mem_singleton.mp hv
        cases (List.cons.inj heq).1
      · have hes' : es = t ++ .stateCreate :: t' := (List.cons.inj (List.cons.inj heq).2).2
        exact (not_created (fun e he => .inr (hquiet e he)) hes').elim

/-- **One step keeps the checks on record.** -/
theorem checked_step {phase : Phase} {h : List (Event Cert)} (hc : Checked L p peer phase h)
    (i : Input Cert) :
    Checked L p peer (step L p peer phase i).1 (h ++ (step L p peer phase i).2) := by
  have hstay : Checked L p peer phase (h ++ []) := by rwa [List.append_nil]
  cases phase with
  | connecting =>
    cases i with
    | verify v =>
      have hnot : ∀ h₁ h₂ : List (Event Cert), h ++ [.verified v
          (iosVerifyCallback L (some p.session) v)] = h₁ ++ .stateCreate :: h₂ →
          ∃ t, h = h₁ ++ .stateCreate :: t := by
        intro h₁ h₂ heq
        rcases split_concat heq with ht | ⟨-, hlast⟩
        · exact ht
        · cases hlast
      refine ⟨fun v' accepted hv => ?_, fun _ hmem => ?_, nofun, nofun, hc.pin,
        fun h₁ h₂ heq hsound => ?_⟩
      · rcases List.mem_append.mp hv with hv | hv
        · exact hc.returned v' accepted hv
        · cases List.mem_singleton.mp hv
          rfl
      · rcases List.mem_append.mp hmem with hmem | hmem
        · exact hc.connecting rfl hmem
        · cases List.mem_singleton.mp hmem
      · obtain ⟨t, ht⟩ := hnot h₁ h₂ heq
        exact hc.created h₁ t ht hsound
    | connected status create handshake => exact checked_connected hc status create handshake
    | httpDone status create start => exact hstay
  | http =>
    cases i with
    | verify v => exact hstay
    | connected status create handshake => exact hstay
    | httpDone status create start => exact checked_httpDone hc status create start
  | control => exact hstay
  | failed => exact hstay

lemma checked_started (debug : Bool) : Checked L p peer (started p debug) [] := by
  refine ⟨fun v accepted hv => (List.not_mem_nil hv).elim, fun _ => List.not_mem_nil, fun hp => ?_,
    fun hp => ?_, fun hp hmode => ?_, fun h₁ h₂ heq => ?_⟩
  · unfold started at hp
    split_ifs at hp
  · unfold started at hp
    split_ifs at hp
  · unfold started iosInitSsl at hp
    rw [hmode] at hp
    intro hpin
    rw [hpin] at hp
    exact hp rfl
  · simp at heq

/-- **The state machine is created only for a trusted server**, whatever OpenSSL calls and in whatever
order things happen. -/
theorem created_trusted (L : Library Cert) (p : Params) (peer : Peer Cert) (debug : Bool)
    (inputs : List (Input Cert))
    (hsound : HandshakeSound (run (step L p peer) (started p debug) inputs).2)
    (h₁ h₂ : List (Event Cert))
    (hcreated : (run (step L p peer) (started p debug) inputs).2 = h₁ ++ .stateCreate :: h₂) :
    Trusted L p peer h₁ := by
  have hchecked : Checked L p peer (run (step L p peer) (started p debug) inputs).1
      ([] ++ (run (step L p peer) (started p debug) inputs).2) :=
    run_inv_all (Checked L p peer) (fun _ _ i hc => checked_step hc i) (checked_started debug) inputs
  rw [List.nil_append] at hchecked
  refine hchecked.created h₁ h₂ hcreated ?_
  rw [hcreated] at hsound
  exact hsound.left

/-- Calls that have all returned `1` are as the handshake asks for. -/
lemma handshakeSound_of_all {h : List (Event Cert)}
    (hall : ∀ v accepted, .verified v accepted ∈ h → accepted = true) : HandshakeSound h := by
  rintro h₁ h₂ rfl v accepted hv
  exact hall v accepted (List.mem_append_left _ hv)

/-- One server, `vpn.test`, with one certificate, whose hash is `abab…`. -/
def oneServer : Library Unit where
  digest _ := some ⟨List.replicate 32 171, rfl⟩
  der _ := some [48]
  same _ _ := true
  checkHost _ host := host = [118, 112, 110, 46, 116, 101, 115, 116]
  checkIpAsc _ _ := false
  inetPton _ := false
  secTrust _ _ := .error "not trusted"
  errorString _ := "error"

/-- The pin is given in capital letters. -/
def pinnedParams : Params :=
  ⟨.pinned, some ((List.replicate 32 [65, 66]).flatten), false,
    some [118, 112, 110, 46, 116, 101, 115, 116], none⟩

/-- The leaf is called back with its pin, and the connection and the upgrade go through. -/
def pinnedRun : List (Input Unit) :=
  [.verify ⟨true, 0, some (), 0⟩, .connected .connected .okay .inprog, .httpDone .okay .okay .okay]

theorem pinned_trusted :
    Trusted oneServer pinnedParams ⟨some (), [some ()], x509Ok⟩
      [.verified ⟨true, 0, some (), 0⟩ true, .handshake, .stage .httpUpgrade, .stage .sstpControl] := by
  have hevents : (run (step oneServer pinnedParams ⟨some (), [some ()], x509Ok⟩)
      (started pinnedParams false) pinnedRun).2 =
      [.verified ⟨true, 0, some (), 0⟩ true, .handshake, .stage .httpUpgrade,
        .stage .sstpControl] ++ .stateCreate :: [] := by
    rfl
  have hsound : HandshakeSound (run (step oneServer pinnedParams ⟨some (), [some ()], x509Ok⟩)
      (started pinnedParams false) pinnedRun).2 := by
    refine handshakeSound_of_all fun v accepted hv => ?_
    rw [hevents] at hv
    simp only [List.mem_append, List.mem_cons, List.not_mem_nil, or_false, reduceCtorEq,
      Event.verified.injEq] at hv
    exact hv.2
  exact created_trusted oneServer pinnedParams ⟨some (), [some ()], x509Ok⟩ false pinnedRun hsound _
    [] hevents

end SstpClient.Trust
