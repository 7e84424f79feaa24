import SstpClient.Lib.Footprint
import SstpClient.Buffer

/-!
Building and reading SSTP packets, `sstp-packet.c`.

A packet is a header of four bytes (version, flags, length in network order); a control
packet goes on with its type and the number of its attributes, and an attribute is a
reserved byte, a type, a length that counts its own four header bytes, and data. What only
reads a received buffer is a `ReadProg` over the bytes at and after `buf->data`.
-/

namespace SstpClient.Packet

open SstpClient.Lib.Bytes SstpClient.Lib.Footprint SstpClient.Lib.Footprint.ReadProg
open SstpClient.Buffer

inductive SstpMsg
  | data | connectReq | connectAck | connectNak | connected | abort | disconnect | disconnectAck
  | echoRequest | echoReply
  deriving DecidableEq, Repr

def SstpMsg.code : SstpMsg → ℕ
  | .data => 0x0000
  | .connectReq => 0x0001
  | .connectAck => 0x0002
  | .connectNak => 0x0003
  | .connected => 0x0004
  | .abort => 0x0005
  | .disconnect => 0x0006
  | .disconnectAck => 0x0007
  | .echoRequest => 0x0008
  | .echoReply => 0x0009

inductive SstpPkt
  | unknown | data | ctrl
  deriving DecidableEq, Repr

def protoVer : UInt8 := 0x10

def msgFlagCtrl : UInt8 := 0x01

/-- `SSTP_ATTR_MAX`, the largest attribute type: the arrays have one entry more. -/
def sstpAttrMax : ℕ := 4

/-- `htons` of an `int`, as the two bytes it stores. -/
def htons (n : ℤ) : List UInt8 := toBe16 (n % 65536).toNat

@[simp] lemma length_htons (n : ℤ) : (htons n).length = 2 := rfl

/-! ### Building a packet -/

/-- The end of `sstp_pkt_init`: the length of the packet so far. -/
def setLength (b : Buff) (length : ℕ) : Buff :=
  { b with len := length, data := splice b.data 2 (htons length) }

def sstpPktInit (b : Buff) (type : SstpMsg) : Status × Buff :=
  let b := sstpBuffReset b
  if sstpBuffSpace b 4 ≠ .okay then (.fail, b)
  else
    let flags := if type ≠ .data then msgFlagCtrl else 0
    let b := { b with data := splice b.data 0 [protoVer, flags] }
    if type ≠ .data then
      if sstpBuffSpace b 8 ≠ .okay then (.fail, b)
      else (.okay, setLength { b with data := splice b.data 4 (htons type.code ++ htons 0) } 8)
    else (.okay, setLength b 4)

/-- A control packet is begun if its header fits. -/
lemma pktInit_ctrl {b : Buff} {type : SstpMsg} (ht : type ≠ .data) (h : 8 ≤ b.max) :
    sstpPktInit b type = (.okay, setLength ⟨0, 0,
      splice (splice b.data 0 [protoVer, msgFlagCtrl]) 4 (htons type.code ++ htons 0)⟩ 8) := by
  have hspace : ∀ (d : List UInt8) (n : ℤ), d.length = b.data.length → n ≤ 8 →
      sstpBuffSpace ⟨0, 0, d⟩ n = .okay := by
    intro d n hd hn
    rw [space_eq_okay]
    unfold Buff.max at h ⊢
    dsimp only
    omega
  have hlen : (splice b.data 0 [protoVer, msgFlagCtrl]).length = b.data.length := by
    refine length_splice ?_
    unfold Buff.max at h
    simp only [List.length_cons, List.length_nil]
    omega
  unfold sstpPktInit sstpBuffReset
  dsimp only
  rw [if_neg (not_not.mpr (hspace b.data 4 rfl (by decide))), if_pos ht, if_pos ht,
    if_neg (not_not.mpr (hspace _ 8 hlen (le_refl _)))]

/-- `sstp_pkt_attr`; its `len` is the number of bytes of `data`. `none`: memory outside the
buffer would be written. -/
def sstpPktAttr (b : Buff) (type : UInt8) (data : List UInt8) : Option (Status × Buff) :=
  let length := toShort (data.length + 4)
  if sstpBuffSpace b length ≠ .okay then some (.fail, b)
  else if b.byte 1 &&& msgFlagCtrl = 0 then some (.fail, b)
  else do
    let b ← b.write 6 (htons (be16 (b.byte 6) (b.byte 7) + 1))
    let b ← b.write b.len ([0, type] ++ htons length)
    let b ← b.write (b.len + 4) data
    let b := { b with len := b.len + length }
    let b ← b.write 2 (htons b.len)
    return (.okay, b)

/-! ### Reading a packet -/

def sstpPktLen (b : Buff) : ℤ := be16 (b.byte 2) (b.byte 3)

/-- The number in network order at `pos` and `pos + 1`. -/
def ntohs (pos : ℤ) : ReadProg UInt8 ℕ := do
  let hi ← cell pos
  let lo ← cell (pos + 1)
  return be16 hi lo

/-- `n` bytes from `pos` on. -/
def readBytes : ℤ → ℕ → ReadProg UInt8 (List UInt8)
  | _, 0 => return []
  | pos, n + 1 => do
    let b ← cell pos
    let bs ← readBytes (pos + 1) n
    return b :: bs

/-- `sstp_pkt_type` for a buffer of length `len`, with the message type of a control
packet. The comparison with the header size is one of unsigned numbers. -/
def sstpPktType (len : ℤ) : ReadProg UInt8 (SstpPkt × Option ℕ) :=
  if 0 ≤ len ∧ len < 4 then return (.unknown, none)
  else do
    let flags ← cell 1
    if msgFlagCtrl &&& flags ≠ 0 then
      let type ← ntohs 4
      return (.ctrl, some type)
    else return (.data, none)

/-- The array `attrs` a caller of `sstp_pkt_parse` owns: for each type the position of the
attribute, `none` for the null pointer. -/
abbrev Attrs := Fin (sstpAttrMax + 1) → Option ℤ

/-- `memset` over `SSTP_ATTR_MAX` entries; the last entry of the array keeps what it held. -/
def clearAttrs (attrs : Attrs) : Attrs := fun t => if t.val < sstpAttrMax then none else attrs t

/-- The loop of `sstp_pkt_parse`. The counter `alen` is a `short` that wraps around, so the
body runs as often as the 16-bit attribute count says. -/
def parseLoop : ℕ → ℤ → Attrs → ReadProg UInt8 (Option (Attrs × ℤ))
  | 0, index, attrs => return some (attrs, index)
  | k + 1, index, attrs => do
    let type ← cell (index + 1)
    if h : type.toNat < sstpAttrMax + 1 then
      let length ← ntohs (index + 2)
      parseLoop k (toShort length) (Function.update attrs ⟨type.toNat, h⟩ (some index))
    else return none

/-- `sstp_pkt_parse` on a buffer of length `len`. On `SSTP_OKAY` it gives the attributes and
the new `buf->off`; `none` is `SSTP_FAIL`. -/
def sstpPktParse (len : ℤ) (attrs : Attrs) : ReadProg UInt8 (Option (Attrs × ℤ)) :=
  if len < 4 + 4 + 4 + 2 then return none
  else do
    let flags ← cell 1
    if msgFlagCtrl &&& flags = 0 then return none
    else
      let nattr ← ntohs 6
      parseLoop nattr 8 (clearAttrs attrs)

/-- `sstp_attr_data` of the attribute at `p`. -/
def sstpAttrData (p : ℤ) : ℤ := p + 4

/-- `sstp_attr_len` of the attribute at `p`. -/
def sstpAttrLen (p : ℤ) : ReadProg UInt8 ℤ := do
  let length ← ntohs (p + 2)
  return (length : ℤ) - 4

end SstpClient.Packet
