import SstpClient.Fcs
import SstpClient.Uplink

/-!
De-framing what the pppd daemon writes, `ppp_process_data` and `sstp_pppd_recv` of `sstp-pppd.c`.

The receive buffer keeps what has been read of a frame, and the decoder looks one byte behind it. It
does no harm unless a flag is found there, left from an earlier frame, and what has been read so far
happens to be a frame by itself.
-/

namespace SstpClient.Deframe

open SstpClient.Lib.Machine SstpClient.Buffer SstpClient.Packet SstpClient.Fcs
open SstpClient.Uplink (sstpPktUpdate)

/-! ### The code -/

/-- The buffers of `sstp_pppd_st`. -/
structure Buffs where
  rx : Buff
  tx : Buff

/-- The loop of `ppp_process_data`, with the packets it gives to `sstp_stream_send`, which returns
`SSTP_OKAY`. What is done under `auth_check` reads the packet and notifies, and is left out. `none`:
memory outside a buffer is touched. -/
def processLoop : ℕ → Buffs → Option (Status × Buffs × List (List UInt8))
  | 0, _ => none
  | fuel + 1, ctx =>
    let rx := ctx.rx
    if rx.off < rx.len then
      let init := sstpPktInit ctx.tx .data
      if init.1 ≠ .okay then some (.fail, ⟨rx, init.2⟩, [])
      else do
        let tx := init.2
        let d ← sstpFrameDecode (rx.data.drop rx.off.toNat) (rx.len - rx.off) (tx.max - tx.len)
        let tx ← tx.write tx.len d.frame
        if d.status ≠ .okay then
          if d.status = .overflow ∨ rx.len = rx.off + d.length then
            let moved := (rx.data.drop rx.off.toNat).take (rx.len - rx.off).toNat
            let rx ← rx.write 0 moved
            return (.okay, ⟨{ rx with len := d.length, off := 0 }, tx⟩, [])
          else processLoop fuel ⟨{ rx with off := rx.off + d.length }, tx⟩
        else
          let tx ← sstpPktUpdate { tx with len := tx.len + d.size }
          let (status, ctx, packets) ← processLoop fuel ⟨{ rx with off := rx.off + d.length }, tx⟩
          return (status, ctx, tx.data.take tx.len.toNat :: packets)
    else if rx.off = rx.len then some (.okay, ⟨sstpBuffReset rx, ctx.tx⟩, [])
    else some (.okay, ctx, [])

/-- `ppp_process_data`. Each round leaves a byte behind it. -/
def pppProcessData (ctx : Buffs) : Option (Status × Buffs × List (List UInt8)) :=
  processLoop (ctx.rx.len.toNat + 1) ⟨ctx.rx, sstpBuffReset ctx.tx⟩

/-- `sstp_pppd_st`. -/
structure Pppd extends Buffs where
  first : Bool

inductive Out
  /-- The notification that pppd is configured and running. -/
  | start
  /-- A packet for `sstp_stream_send`. -/
  | send (packet : List UInt8)
  /-- The notification that pppd is down. -/
  | down
  | fault
  deriving DecidableEq

/-- `sstp_pppd_recv`, with what `read` returns. -/
def sstpPppdRecv (ctx : Pppd) (chunk : List UInt8) : Pppd × List Out :=
  let notified := if ctx.first then [.start] else []
  match ctx.rx.write ctx.rx.len chunk with
  | none => ({ ctx with first := false }, notified ++ [.fault])
  | some rx =>
    let buffs : Buffs := ⟨{ rx with len := rx.len + chunk.length }, ctx.tx⟩
    if buffs.rx.len ≤ 0 then (⟨buffs, false⟩, notified ++ [.down])
    else
      match pppProcessData buffs with
      | none => (⟨buffs, false⟩, notified ++ [.fault])
      | some (_, buffs, packets) => (⟨buffs, false⟩, notified ++ packets.map .send)

/-! ### What is to be forwarded -/

/-- A data packet. -/
def dataPacket (payload : List UInt8) : List UInt8 :=
  [protoVer, 0] ++ htons (4 + payload.length) ++ payload

/-- The frame is what `sstp_frame_encode` makes of the payload. -/
def Encodes (payload frame : List UInt8) : Prop :=
  ∃ flen e, sstpFrameEncode payload flen = some e ∧ e.status = .okay ∧ e.frame = frame

/-- The payloads are forwarded, once each and in order, and nothing but the start is put out. -/
def Forwards (ctx : Pppd) (chunks payloads : List (List UInt8)) : Prop :=
  (run sstpPppdRecv ctx chunks).2.filter (· ≠ .start) =
    payloads.map fun payload => .send (dataPacket payload)

/-- A condition on each call: on the context before it, what is read, and what is yet to be read. -/
def Always (C : Pppd → List UInt8 → List UInt8 → Prop) : Pppd → List (List UInt8) → Prop
  | _, [] => True
  | ctx, chunk :: chunks =>
    C ctx chunk chunks.flatten ∧ Always C (sstpPppdRecv ctx chunk).1 chunks

/-- `read` returns something, and no more than it was asked for. -/
def Fits (ctx : Pppd) (chunk _ : List UInt8) : Prop :=
  chunk ≠ [] ∧ ctx.rx.len + chunk.length ≤ ctx.rx.max

/-- What the decoder looks at behind its input is in the buffer. -/
def Peek : List UInt8 → Prop
  | [] => False
  | b :: more => b = hdlcEscape → more ≠ []

instance : DecidablePred Peek
  | [] => .isFalse id
  | b :: more => inferInstanceAs (Decidable (b = hdlcEscape → more ≠ []))

/-- The bytes `stale` behind the bytes in use do no harm. -/
structure Harmless (used stale next : List UInt8) : Prop where
  /-- Flags are skipped, in what lies behind them as well. -/
  flags : used.getLast? = some hdlcFlag → Peek (stale.dropWhile (· = hdlcFlag))
  escape : used.getLast? = some hdlcEscape → stale ≠ []
  inside : used.getLast? ≠ some hdlcFlag → used.getLast? ≠ some hdlcEscape → Peek stale
  /-- What has been read of a frame passes for one only if it is the whole. -/
  cut : ∀ front cs, used = front ++ hdlcFlag :: hdlc.stuff cs → 4 ≤ cs.length →
    sstpFrameCheck pppInitFcs16 cs = pppGoodFcs16 → stale.head? = some hdlcFlag →
      next.head? = some hdlcFlag

/-- The bytes in the buffer after the read, and those behind them. -/
def usedBytes (ctx : Pppd) (chunk : List UInt8) : List UInt8 :=
  ctx.rx.data.take ctx.rx.len.toNat ++ chunk

def staleBytes (ctx : Pppd) (chunk : List UInt8) : List UInt8 :=
  ctx.rx.data.drop (ctx.rx.len.toNat + chunk.length)

def Clear (ctx : Pppd) (chunk next : List UInt8) : Prop :=
  Harmless (usedBytes ctx chunk) (staleBytes ctx chunk) next

end SstpClient.Deframe
