import LinuxPtp.TlvCodec

/-!
# Parsing a received message and preparing one for transmission

`msg_post_recv` and `msg_pre_send` of `msg.c`. Parsing recurses over the TLVs of
the suffix with fuel equal to the suffix length; every TLV consumes at least
four octets, so the fuel is never what ends the loop. Descriptor allocation is
taken to succeed. The monotonic clock's reading is an argument.
-/

namespace LinuxPtp

open Octets Recv

/-- The message types of `msg.h`. -/
inductive MsgType where
  | sync
  | delayReq
  | pdelayReq
  | pdelayResp
  | followUp
  | delayResp
  | pdelayRespFollowUp
  | announce
  | signaling
  | management
deriving DecidableEq, Repr

def MsgType.ofCode : Nat → Option MsgType
  | 0x0 => some .sync
  | 0x1 => some .delayReq
  | 0x2 => some .pdelayReq
  | 0x3 => some .pdelayResp
  | 0x8 => some .followUp
  | 0x9 => some .delayResp
  | 0xA => some .pdelayRespFollowUp
  | 0xB => some .announce
  | 0xC => some .signaling
  | 0xD => some .management
  | _ => none

/-- The switch over `pdulen` in `msg_post_recv`. -/
def pduLen : MsgType → Nat
  | .sync => SyncMsg.size
  | .delayReq => DelayReqMsg.size
  | .pdelayReq => PdelayReqMsg.size
  | .pdelayResp => PdelayRespMsg.size
  | .followUp => FollowUpMsg.size
  | .delayResp => DelayRespMsg.size
  | .pdelayRespFollowUp => PdelayRespFupMsg.size
  | .announce => AnnounceMsg.size
  | .signaling => SignalingMsg.size
  | .management => ManagementMsg.size

/-- `msg_suffix`: where TLVs may follow, for the types that admit them. -/
def msgSuffix : MsgType → Option Nat
  | .sync | .pdelayReq | .pdelayResp => none
  | .delayReq => some DelayReqMsg.size
  | .followUp => some FollowUpMsg.size
  | .delayResp => some DelayRespMsg.size
  | .pdelayRespFollowUp => some PdelayRespFupMsg.size
  | .announce => some AnnounceMsg.size
  | .signaling => some SignalingMsg.size
  | .management => some ManagementMsg.size

/-- The low nibble of an octet, as masked with `0x0f`. -/
def lowNibble (value : Nat) : Nat := value % 16

/-- `msg_type`, where it is one of the ten known types. -/
def msgType (data : Storage) : Option MsgType :=
  MsgType.ofCode (lowNibble (data PtpHeader.tsmt).toNat)

/-- `PTP_VERSION`, and `VERSION` of `msg.c`. -/
def ptpVersion : Nat := 2

section Codec

variable (order : ByteOrder)

/-! ## Receiving -/

/-- `hdr_post_recv`. -/
def hdrPostRecv : Recv Unit := do
  let ver ← octet PtpHeader.ver
  if lowNibble ver ≠ ptpVersion then throw .eproto else
    ntohAll order 0 [PtpHeader.messageLength, PtpHeader.correction,
      PtpHeader.sourcePortNumber, PtpHeader.sequenceId]

/-- `timestamp_post_recv`: the body keeps its octets, the parsed time goes to
`ts.pdu`. -/
def timestampPostRecv (fields : TimestampFields) : Recv Unit := do
  let lsb ← host order fields.secondsLsb
  let msb ← host order fields.secondsMsb
  let nanoseconds ← host order fields.nanoseconds
  modify fun state => { state with msg := { state.msg with
    pdu := ⟨swap order 4 lsb + swap order 2 msb * 2 ^ 32, swap order 4 nanoseconds⟩ } }

/-- The switch over the body in `msg_post_recv`. -/
def bodyPostRecv (now : Int) : MsgType → Recv Unit
  | .sync => timestampPostRecv order bodyTimestamp
  | .delayReq | .pdelayReq | .signaling => pure ()
  | .pdelayResp => do
    timestampPostRecv order bodyTimestamp
    ntoh order PdelayRespMsg.requestingPortNumber
  | .followUp => timestampPostRecv order bodyTimestamp
  | .delayResp => do
    timestampPostRecv order bodyTimestamp
    ntoh order DelayRespMsg.requestingPortNumber
  | .pdelayRespFollowUp => do
    timestampPostRecv order bodyTimestamp
    ntoh order PdelayRespFupMsg.requestingPortNumber
  | .announce => do
    modify fun state => { state with msg := { state.msg with host := now } }
    timestampPostRecv order bodyTimestamp
    ntohAll order 0 [AnnounceMsg.currentUtcOffset,
      AnnounceMsg.grandmasterOffsetScaledLogVariance, AnnounceMsg.stepsRemoved]
  | .management => ntoh order ManagementMsg.targetPortNumber

/-- One turn of the loop in `suffix_post_recv`, with `len` octets left at `ptr`:
the TLV's length and its descriptor. -/
def suffixTurn (len ptr : Nat) : Recv (Nat × TlvExtra) := do
  ntoh order (Tlv.type.shift ptr)
  ntoh order (Tlv.length.shift ptr)
  let length ← host order (Tlv.length.shift ptr)
  require (length % 2 = 0)
  require (length ≤ len - Tlv.size)
  let extra ← tlvPostRecv order { tlv := ptr }
  pure (length, extra)

/-- The loop of `suffix_post_recv`. -/
def suffixLoop : Nat → Nat → Nat → Recv Unit
  | 0, _, _ => pure ()
  | fuel + 1, len, ptr =>
    if len < Tlv.size then pure () else do
      enterTlv ptr
      let (length, extra) ← suffixTurn order len ptr
      msgTlvAttach extra
      suffixLoop fuel (len - Tlv.size - length) (ptr + Tlv.size + length)

/-- `suffix_post_recv`. -/
def suffixPostRecv (type : MsgType) (len : Nat) : Recv Unit :=
  match msgSuffix type with
  | none => pure ()
  | some ptr => suffixLoop order len len ptr

/-- `msg_post_recv`, as a parsing step. -/
def msgPostRecvStep (now : Int) (cnt : Nat) : Recv Unit := do
  require (PtpHeader.size ≤ cnt)
  hdrPostRecv order
  let tsmt ← octet PtpHeader.tsmt
  match MsgType.ofCode (lowNibble tsmt) with
  | none => throw .ebadmsg
  | some type => do
    require (pduLen type ≤ cnt)
    bodyPostRecv order now type
    suffixPostRecv order type (cnt - pduLen type)

/-- `msg_post_recv` on a message of which `cnt` octets were received. -/
def msgPostRecv (now : Int) (cnt : Nat) (msg : Message) : EStateM.Result Errno RecvState Unit :=
  msgPostRecvStep order now cnt { msg := msg }

/-! ## Sending -/

/-- `hdr_pre_send`. -/
def hdrPreSend (data : Storage) : Storage :=
  hton order 0 [PtpHeader.messageLength, PtpHeader.correction,
    PtpHeader.sourcePortNumber, PtpHeader.sequenceId] data

/-- `timestamp_pre_send`. -/
def timestampPreSend (fields : TimestampFields) (data : Storage) : Storage :=
  convertAll order [fields.secondsLsb, fields.secondsMsb, fields.nanoseconds] data

/-- The switch over the body in `msg_pre_send`. -/
def bodyPreSend (type : MsgType) (data : Storage) : Storage :=
  match type with
  | .sync | .delayReq | .pdelayReq | .signaling => data
  | .pdelayResp =>
    convert order PdelayRespMsg.requestingPortNumber (timestampPreSend order bodyTimestamp data)
  | .followUp => timestampPreSend order bodyTimestamp data
  | .delayResp =>
    convert order DelayRespMsg.requestingPortNumber (timestampPreSend order bodyTimestamp data)
  | .pdelayRespFollowUp =>
    convert order PdelayRespFupMsg.requestingPortNumber (timestampPreSend order bodyTimestamp data)
  | .announce => hton order 0 [AnnounceMsg.currentUtcOffset,
      AnnounceMsg.grandmasterOffsetScaledLogVariance, AnnounceMsg.stepsRemoved] data
  | .management => convert order ManagementMsg.targetPortNumber data

/-- One turn of the loop in `suffix_pre_send`. -/
def tlvSendStep (data : Storage) (extra : TlvExtra) : Storage :=
  let data := tlvPreSend order extra data
  let data := convert order (Tlv.type.shift extra.tlv) data
  convert order (Tlv.length.shift extra.tlv) data

/-- `suffix_pre_send`. -/
def suffixPreSend (tlvList : List TlvExtra) (data : Storage) : Storage :=
  tlvList.foldl (tlvSendStep order) data

/-- `msg_pre_send`; a message of unknown type is refused. -/
def msgPreSend (now : Int) (msg : Message) : Option Message :=
  match msgType msg.data with
  | none => none
  | some type => some { msg with
      data := suffixPreSend order msg.tlvList
        (bodyPreSend order type (hdrPreSend order msg.data))
      host := if type = .delayReq then now else msg.host }

end Codec

end LinuxPtp
