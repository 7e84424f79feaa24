import SstpClient.Packet

/-!
What the state machine takes out of a received control packet: the reading part of
`sstp_state_connect_ack` and `sstp_state_connect_nak` of `sstp-state.c`.
-/

namespace SstpClient.ConnectMsg

open SstpClient.Lib.Bytes SstpClient.Lib.Footprint SstpClient.Lib.Footprint.ReadProg
open SstpClient.Packet

/-- `SSTP_ATTR_STATUS_INFO`. -/
def attrStatusInfo : Fin (sstpAttrMax + 1) := 2

/-- `SSTP_ATTR_CRYPTO_BIND_REQ`. -/
def attrCryptoBindReq : Fin (sstpAttrMax + 1) := 4

/-- The hash protocol and the nonce `sstp_state_connect_ack` stores; `none` where it fails.
`attrs` is what its local array held before. -/
def sstpStateConnectAck (len : ℤ) (attrs : Attrs) : ReadProg UInt8 (Option (UInt8 × List UInt8)) := do
  match ← sstpPktParse len attrs with
  | none => return none
  | some (attrs, _) =>
    match attrs attrCryptoBindReq with
    | none => return none
    | some attr =>
      let alen ← sstpAttrLen attr
      if alen ≠ 36 then return none
      else
        let proto ← cell (sstpAttrData attr + 3)
        let nounce ← readBytes (sstpAttrData attr + 4) 32
        return some (proto, nounce)

/-- The number `ntohl` reads from four bytes. -/
def ntohl (bs : List UInt8) : ℕ := bs.foldl (fun n b => n * 256 + b.toNat) 0

/-- The status `sstp_state_connect_nak` stores; `none` where it fails. -/
def sstpStateConnectNak (len : ℤ) (attrs : Attrs) : ReadProg UInt8 (Option ℕ) := do
  match ← sstpPktParse len attrs with
  | none => return none
  | some (attrs, _) =>
    match attrs attrStatusInfo with
    | none => return none
    | some attr =>
      let alen ← sstpAttrLen attr
      if alen < 4 then return none
      else
        let status ← readBytes (sstpAttrData attr + 4) 4
        return some (ntohl status)

end SstpClient.ConnectMsg
