import SstpClient.Buffer
import SstpClient.Provider
import SstpClient.Lib.CString

/-!
The trust decision of a session: the verify callback of `sstp-ios.c`, what it does when the TLS
connection is there and when the HTTP upgrade is done, and `sstp_verify_cert`.

OpenSSL and the trust store of the system are given by what they answer.
-/

namespace SstpClient.Tls

open SstpClient.Lib.CString SstpClient.Lib.Machine SstpClient.Buffer
open SstpClient.Provider (Failure Stage)

/-! ### The session -/

inductive TlsMode
  | system | customCa | pinned | insecureDebug
  deriving DecidableEq

/-- The fields of `sstp_ios_start_params_t` and the options made from them, for a CA that can be loaded
or not. -/
structure Params where
  tlsMode : TlsMode
  pinSha256Hex : Option (List UInt8)
  caLoads : Bool
  host : Option (List UInt8)
  server : Option (List UInt8)

structure Session where
  tlsMode : TlsMode
  pinSha256Hex : List UInt8

/-- The pin as `pin_sha256_hex` of the session, which has 65 characters, holds it. -/
def storePin : Option (List UInt8) → List UInt8
  | none => []
  | some pin => (pin.take 64).map tolower

def Params.session (p : Params) : Session := ⟨p.tlsMode, storePin p.pinSha256Hex⟩

/-- `opts->host ?: opts->server`. -/
def Params.verifyHost (p : Params) : Option (List UInt8) := p.host <|> p.server

/-- `ios_init_ssl`; `debug` is the configuration of the build. -/
def iosInitSsl (debug : Bool) (p : Params) : Status :=
  match p.tlsMode with
  | .insecureDebug => if debug then .okay else .fail
  | .customCa => if p.caLoads then .okay else .fail
  | .pinned => if p.session.pinSha256Hex = [] then .fail else .okay
  | .system => .okay

/-! ### OpenSSL and the trust store -/

abbrev Digest := { d : List UInt8 // d.length = 32 }

/-- What the libraries tell about certificates: `X509_digest` with `EVP_sha256`, `i2d_X509`, whether
`X509_cmp` gives 0 and `X509_check_host` and `X509_check_ip_asc` give 1, whether `inet_pton` takes
the host for an address, `SecTrustEvaluateWithError` with the text of its error, and
`X509_verify_cert_error_string`. -/
structure Library (Cert : Type) where
  digest : Cert → Option Digest
  der : Cert → Option (List UInt8)
  same : Cert → Cert → Bool
  checkHost : Cert → List UInt8 → Bool
  checkIpAsc : Cert → List UInt8 → Bool
  inetPton : List UInt8 → Bool
  secTrust : List (List UInt8) → List UInt8 → Except String Unit
  errorString : ℤ → String

/-- The other side of the connection: its certificate, the chain with it, and the verify result. -/
structure Peer (Cert : Type) where
  leaf : Option Cert
  chain : List (Option Cert)
  verifyResult : ℤ

def x509Ok : ℤ := 0

def x509InvalidCall : ℤ := 69

variable {Cert : Type} (L : Library Cert)

/-! ### Pins -/

def iosHexNibble (c : UInt8) : Option UInt8 :=
  if 48 ≤ c ∧ c ≤ 57 then some (c - 48)
  else if 97 ≤ c ∧ c ≤ 102 then some (c - 97 + 10)
  else if 65 ≤ c ∧ c ≤ 70 then some (c - 65 + 10)
  else none

/-- The loop of `ios_parse_sha256_hex`, over pairs of digits. -/
def parsePairs : List UInt8 → Option (List UInt8)
  | [] => some []
  | [_] => none
  | hi :: lo :: rest => do
    let h ← iosHexNibble hi
    let l ← iosHexNibble lo
    let out ← parsePairs rest
    return (h <<< 4 ||| l) :: out

def iosParseSha256Hex (hex : List UInt8) : Option (List UInt8) :=
  if hex.length ≠ 64 then none else parsePairs hex

def iosPinMatches (cert : Cert) (pinHex : List UInt8) : Bool :=
  if pinHex = [] then false
  else
    match iosParseSha256Hex pinHex, L.digest cert with
    | some want, some dig => dig.1 = want
    | _, _ => false

def hexDigit (n : UInt8) : UInt8 := if n < 10 then 48 + n else 87 + n

/-- The text that `ios_http_done` makes from the hash. -/
def hexOf (hash : List UInt8) : List UInt8 :=
  hash.flatMap fun b : UInt8 => [hexDigit (b >>> 4), hexDigit (b &&& 15)]

/-! ### The checks -/

/-- A call of the verify callback: `preverify_ok`, and what it reads from the store context. -/
structure Verify (Cert : Type) where
  preverifyOk : Bool
  depth : ℕ
  cert : Option Cert
  error : ℤ

/-- `ios_verify_callback`, for the session in `g_current`. -/
def iosVerifyCallback (session : Option Session) (v : Verify Cert) : Bool :=
  match session with
  | none => v.preverifyOk
  | some s =>
    match s.tlsMode with
    | .insecureDebug => true
    | .system => true
    | .customCa => v.preverifyOk
    | .pinned =>
      match v.depth, v.cert with
      | 0, some cert => iosPinMatches L cert s.pinSha256Hex
      | _, _ => v.preverifyOk

def iosX509ToDer (cert : Cert) : Option (List UInt8) := (L.der cert).filter (· ≠ [])

/-- The loop over the chain in `ios_evaluate_system_trust`. -/
def chainDers (leaf : Cert) : List (Option Cert) → Option (List (List UInt8))
  | [] => some []
  | none :: certs => chainDers leaf certs
  | some cert :: certs =>
    if L.same cert leaf then chainDers leaf certs
    else do
      let d ← iosX509ToDer L cert
      let ders ← chainDers leaf certs
      return d :: ders

def sstpIosSecTrustEvaluate (ders : List (List UInt8)) (host : Option (List UInt8)) :
    Except String Unit :=
  match host with
  | none => .error "Missing certificate chain or hostname"
  | some host =>
    if ders = [] ∨ host = [] then .error "Missing certificate chain or hostname"
    else if [] ∈ ders then .error "Empty certificate in peer chain"
    else L.secTrust ders host

/-- `SSTP_VERIFY_NAME` of `sstp_verify_cert`. -/
def nameMatches (leaf : Cert) (host : Option (List UInt8)) : Bool :=
  match host with
  | none => false
  | some [] => false
  | some host => if L.inetPton host then L.checkIpAsc leaf host else L.checkHost leaf host

/-- `sstp_verify_cert` with `SSTP_VERIFY_CERT | SSTP_VERIFY_NAME`. -/
def sstpVerifyCert (peer : Peer Cert) (host : Option (List UInt8)) : Status :=
  match peer.leaf with
  | none => .fail
  | some leaf =>
    if peer.verifyResult ≠ x509Ok then .fail
    else if nameMatches L leaf host then .okay
    else .fail

def sstpGetCertHash (peer : Peer Cert) : Option Digest := peer.leaf.bind L.digest

/-! ### The run of a session -/

inductive Event (Cert : Type)
  | verified (v : Verify Cert) (accepted : Bool)
  | handshake
  | secTrust (ders : List (List UInt8)) (host : Option (List UInt8)) (result : Except String Unit)
  | stage (stage : Stage)
  | fail (failure : Failure)
  | stateCreate

/-- How far the session has come. `sstp_ios_fail_ex` leaves the event loop. -/
inductive Phase
  | connecting | http | control | failed
  deriving DecidableEq

def failWith (failure : Failure) : Phase × List (Event Cert) := (.failed, [.fail failure])

/-- `ios_evaluate_system_trust`: the failure that is reported, and the evaluation. -/
def iosEvaluateSystemTrust (peer : Peer Cert) (host : Option (List UInt8)) :
    Option Failure × List (Event Cert) :=
  match peer.leaf with
  | none => (some ⟨.tlsCert, .tcpTls, "Server did not present a certificate"⟩, [])
  | some leaf =>
    match iosX509ToDer L leaf with
    | none => (some ⟨.tlsCert, .tcpTls, "Could not encode peer certificate"⟩, [])
    | some der =>
      match chainDers L leaf peer.chain with
      | none => (some ⟨.tlsCert, .tcpTls, "Could not encode intermediate certificate"⟩, [])
      | some ders =>
        let result := sstpIosSecTrustEvaluate L (der :: ders) host
        match result with
        | .ok () => (none, [.secTrust (der :: ders) host result])
        | .error message =>
          (some ⟨.tlsCert, .tcpTls,
              if message = "" then "iOS system trust rejected server certificate" else message⟩,
            [.secTrust (der :: ders) host result])

/-- The second half of `ios_connected`; `create` and `handshake` are what `sstp_http_create` and
`sstp_http_handshake` return. -/
def startHttp (create handshake : Status) : Phase × List (Event Cert) :=
  if create ≠ .okay then
    (.failed, [.stage .httpUpgrade,
      .fail ⟨.httpUpgrade, .httpUpgrade, "Could not create HTTP context"⟩])
  else if handshake ≠ .okay ∧ handshake ≠ .inprog then
    (.failed, [.stage .httpUpgrade,
      .fail ⟨.httpUpgrade, .httpUpgrade, "Could not start HTTP handshake"⟩])
  else (.http, [.stage .httpUpgrade])

/-- `ios_connected` with a connection that has failed. -/
def connectFailure (mode : TlsMode) (verifyResult : ℤ) : Failure :=
  if mode = .system then
    ⟨.tlsHandshake, .tcpTls, "Could not complete TLS handshake with SSTP server"⟩
  else if verifyResult ≠ x509Ok ∧ verifyResult ≠ x509InvalidCall then
    ⟨.tlsCert, .tcpTls, "Server certificate verification failed: " ++ L.errorString verifyResult⟩
  else ⟨.tlsHandshake, .tcpTls, "Could not complete TLS handshake with SSTP server"⟩

def iosConnected (p : Params) (peer : Peer Cert) (status create handshake : Status) :
    Phase × List (Event Cert) :=
  match status with
  | .timeout => failWith ⟨.tcpTimeout, .tcpTls, "TCP/TLS connect timed out"⟩
  | .connected =>
    if p.tlsMode = .system then
      match iosEvaluateSystemTrust L peer p.verifyHost with
      | (some failure, es) => (.failed, .handshake :: (es ++ [.fail failure]))
      | (none, es) =>
        let r := startHttp create handshake
        (r.1, .handshake :: (es ++ r.2))
    else
      let r := startHttp create handshake
      (r.1, .handshake :: r.2)
  | _ => failWith (connectFailure L p.tlsMode peer.verifyResult)

/-- The end of `ios_http_done`; `create` and `start` are what `sstp_state_create` and
`sstp_state_start` return. -/
def startControl (create start : Status) : Phase × List (Event Cert) :=
  if create ≠ .okay then
    (.failed, [.stage .sstpControl, .stateCreate,
      .fail ⟨.sstpControl, .sstpControl, "Could not create SSTP state machine"⟩])
  else if start = .fail then
    (.failed, [.stage .sstpControl, .stateCreate,
      .fail ⟨.sstpControl, .sstpControl, "Could not start SSTP state machine"⟩])
  else (.control, [.stage .sstpControl, .stateCreate])

/-- The check of the pin in `ios_http_done`. -/
def pinFailure (session : Session) (peer : Peer Cert) : Option Failure :=
  if session.tlsMode = .pinned ∧ session.pinSha256Hex ≠ [] then
    match sstpGetCertHash L peer with
    | none => some ⟨.tlsCert, .tcpTls, "Could not hash server certificate for pin check"⟩
    | some hash =>
      if strcaseEq (hexOf hash.1) session.pinSha256Hex then none
      else some ⟨.tlsCert, .tcpTls, "Server certificate pin mismatch"⟩
  else none

def iosHttpDone (p : Params) (peer : Peer Cert) (status create start : Status) :
    Phase × List (Event Cert) :=
  match status with
  | .okay =>
    if p.tlsMode = .system ∨ p.tlsMode = .insecureDebug then startControl create start
    else if sstpVerifyCert L peer p.verifyHost ≠ .okay then
      failWith ⟨.tlsCert, .tcpTls, "Server certificate verification failed (chain or hostname)"⟩
    else
      match pinFailure L p.session peer with
      | some failure => failWith failure
      | none => startControl create start
  | .timeout => failWith ⟨.httpUpgrade, .httpUpgrade, "HTTP SSTP upgrade timed out"⟩
  | _ => failWith ⟨.httpUpgrade, .httpUpgrade, "HTTP handshake with SSTP server failed"⟩

inductive Input (Cert : Type)
  | verify (v : Verify Cert)
  | connected (status create handshake : Status)
  | httpDone (status create start : Status)

variable (p : Params) (peer : Peer Cert)

def step : Phase → Input Cert → Phase × List (Event Cert)
  | .connecting, .verify v =>
    (.connecting, [.verified v (iosVerifyCallback L (some p.session) v)])
  | .connecting, .connected status create handshake => iosConnected L p peer status create handshake
  | .http, .httpDone status create start => iosHttpDone L p peer status create start
  | phase, _ => (phase, [])

/-- The phase after `sstp_ios_session_start_ex`. -/
def started (debug : Bool) : Phase := if iosInitSsl debug p = .okay then .connecting else .failed

end SstpClient.Tls
