import Maeto.Foundation.Tlv
import Maeto.Foundation.Utf8

/-!
# STAMP packets

The test packets of a sender and of a reflector, 44 octets each, and the records that may
follow them: a return path with a control code, and a container with a telemetry key. Each
packet has an encoder that writes its fields to fixed offsets of a buffer, and a decoder that
reads them from there. The records are read by three loops of one kind, one over the records
of the packet and one over the sub-records of either record.

A key is the list of its bytes, as in a Go string. A slice or an index out of range is a
fault of its own, so that it can be shown never to happen.
-/

namespace Maeto.Stamp

open Foundation Foundation.Bytes

structure Timestamp where
  seconds : UInt32
  fraction : UInt32
  deriving DecidableEq

def tlvReturnPath : UInt8 := 10

def tlvMaetoContainer : UInt8 := 250

def rpControlCode : UInt8 := 1

def mcTelemetryKey : UInt8 := 1

structure SRExtReturnPathControlCode where
  requestReply : Bool
  deriving DecidableEq

structure SRExtReturnPath where
  controlCode : Option SRExtReturnPathControlCode
  deriving DecidableEq

structure SRExtMaetoContainerTelemetryKey where
  key : Bytes
  deriving DecidableEq

structure SRExtMaetoContainer where
  telemetryKey : Option SRExtMaetoContainerTelemetryKey
  deriving DecidableEq

structure SRExtensions where
  returnPath : Option SRExtReturnPath
  maetoContainer : Option SRExtMaetoContainer
  deriving DecidableEq

structure SenderPacket where
  sequenceNumber : UInt32
  timestamp : Timestamp
  errorEstimate : UInt16
  ssid : UInt16
  srExtensions : Option SRExtensions
  deriving DecidableEq

structure ReflectorPacket where
  sequenceNumber : UInt32
  timestamp : Timestamp
  errorEstimate : UInt16
  receiveTimestamp : Timestamp
  senderSequenceNumber : UInt32
  senderTimestamp : Timestamp
  senderErrorEstimate : UInt16
  senderTTL : UInt8
  ssid : UInt16
  srExtensions : Option SRExtensions
  deriving DecidableEq

section Encode

def putUint16 (b : Bytes) (lo hi : ℕ) (v : UInt16) : Except Fault Bytes :=
  put b lo hi (beBytes 2 v.toNat)

def putUint32 (b : Bytes) (lo hi : ℕ) (v : UInt32) : Except Fault Bytes :=
  put b lo hi (beBytes 4 v.toNat)

def SRExtReturnPathControlCode.encode (s : SRExtReturnPathControlCode) : Except Fault Bytes := do
  let controlFlag : UInt32 := if s.requestReply then 0 ||| 0x1 else 0
  let buf := List.replicate 8 0
  let buf ← setIndex buf 0 0x0
  let buf ← setIndex buf 1 rpControlCode
  let buf ← putUint16 buf 2 4 4
  putUint32 buf 4 8 controlFlag

def SRExtReturnPath.encode (p : SRExtReturnPath) : Except Fault Bytes := do
  let buf : Bytes := [0x00, tlvReturnPath] ++ beBytes 2 0
  let beforeSubTLVLength := buf.length
  let buf ← match p.controlCode with
    | none => .ok buf
    | some controlCode => do
      let enc ← controlCode.encode
      .ok (buf ++ enc)
  putUint16 buf (beforeSubTLVLength - 2) buf.length (UInt16.ofNat (buf.length - beforeSubTLVLength))

def SRExtMaetoContainerTelemetryKey.encode (s : SRExtMaetoContainerTelemetryKey) :
    Except Fault Bytes :=
  if s.key.length > 0xFFFF then .error (.returned "telemetry key too long for 16-bit length")
  else do
    let buf := List.replicate 4 0
    let buf ← setIndex buf 0 0x0
    let buf ← setIndex buf 1 mcTelemetryKey
    let buf ← putUint16 buf 2 buf.length (UInt16.ofNat s.key.length)
    .ok (buf ++ s.key)

def SRExtMaetoContainer.encode (s : SRExtMaetoContainer) : Except Fault Bytes := do
  let buf := List.replicate 4 0
  let buf ← setIndex buf 0 0x0
  let buf ← setIndex buf 1 tlvMaetoContainer
  let buf ← putUint16 buf 2 buf.length 0
  let beforeSubTLVLength := buf.length
  let buf ← match s.telemetryKey with
    | none => .ok buf
    | some telemetryKey => do
      let enc ← telemetryKey.encode
      .ok (buf ++ enc)
  let length := buf.length - beforeSubTLVLength
  if length > 0xFFFF then
    .error (.returned "maeto container length too big to fit in 16-bit length field")
  else putUint16 buf 2 buf.length (UInt16.ofNat length)

def SRExtensions.encode (p : SRExtensions) : Except Fault Bytes := do
  let buf ← match p.returnPath with
    | none => .ok []
    | some returnPath => returnPath.encode
  match p.maetoContainer with
  | none => .ok buf
  | some maetoContainer => do
    let enc ← maetoContainer.encode
    .ok (buf ++ enc)

def appendExtensions (buf : Bytes) : Option SRExtensions → Except Fault Bytes
  | none => .ok buf
  | some ext => do
    let enc ← ext.encode
    .ok (buf ++ enc)

def SenderPacket.encode (hmacKey : Option Bytes) (p : SenderPacket) : Except Fault Bytes :=
  match hmacKey with
  | some _ => .error (.returned "authenticated mode not implemented")
  | none => do
    let buf := List.replicate 44 0
    let buf ← putUint32 buf 0 4 p.sequenceNumber
    let buf ← putUint32 buf 4 8 p.timestamp.seconds
    let buf ← putUint32 buf 8 12 p.timestamp.fraction
    let buf ← putUint16 buf 12 14 p.errorEstimate
    let buf ← putUint16 buf 14 16 p.ssid
    appendExtensions buf p.srExtensions

def ReflectorPacket.encode (hmacKey : Option Bytes) (p : ReflectorPacket) : Except Fault Bytes :=
  match hmacKey with
  | some _ => .error (.panic "not implemented")
  | none => do
    let buf := List.replicate 44 0
    let buf ← putUint32 buf 0 4 p.sequenceNumber
    let buf ← putUint32 buf 4 8 p.timestamp.seconds
    let buf ← putUint32 buf 8 12 p.timestamp.fraction
    let buf ← putUint16 buf 12 14 p.errorEstimate
    let buf ← putUint16 buf 14 16 p.ssid
    let buf ← putUint32 buf 16 20 p.receiveTimestamp.seconds
    let buf ← putUint32 buf 20 24 p.receiveTimestamp.fraction
    let buf ← putUint32 buf 24 28 p.senderSequenceNumber
    let buf ← putUint32 buf 28 32 p.senderTimestamp.seconds
    let buf ← putUint32 buf 32 36 p.senderTimestamp.fraction
    let buf ← putUint16 buf 36 38 p.senderErrorEstimate
    let buf ← setIndex buf 40 p.senderTTL
    appendExtensions buf p.srExtensions

end Encode

section Decode

def uint16At (b : Bytes) (lo hi : ℕ) : Except Fault UInt16 := slice b lo hi >>= uint16

def uint32At (b : Bytes) (lo hi : ℕ) : Except Fault UInt32 := slice b lo hi >>= uint32

def messages (what : String) : Tlv.Messages where
  truncated := "truncated " ++ what ++ " header"
  overrun := fun type length remain => what ++ " type " ++ toString type.toNat ++ " declares " ++
    toString length ++ " octets, " ++ toString remain ++ " remain"

def decodeControlCode (b : Bytes) : Except Fault SRExtReturnPathControlCode :=
  if b.length ≠ 4 then
    .error (.returned ("control code sub-TLV is " ++ toString b.length ++ " octets, need 4"))
  else do
    let controlFlag ← uint32 b
    .ok { requestReply := controlFlag &&& 0x1 != 0 }

def visitReturnPath : SRExtReturnPath → UInt8 → Bytes → Except Fault SRExtReturnPath :=
  Tlv.onType rpControlCode decodeControlCode
    (fun returnPath controlCode => { returnPath with controlCode := some controlCode })
  Tlv.skip

def decodeReturnPath (b : Bytes) : Except Fault SRExtReturnPath :=
  Tlv.scanAll (messages "return path sub-TLV") visitReturnPath b { controlCode := none }

def decodeTelemetryKey (b : Bytes) : Except Fault SRExtMaetoContainerTelemetryKey :=
  if !Utf8.valid b then .error (.returned "telemetry key is not valid utf-8")
  else .ok { key := b }

def visitMaetoContainer :
    SRExtMaetoContainer → UInt8 → Bytes → Except Fault SRExtMaetoContainer :=
  Tlv.onType mcTelemetryKey decodeTelemetryKey
    (fun container telemetryKey => { container with telemetryKey := some telemetryKey })
  Tlv.skip

def decodeMaetoContainer (b : Bytes) : Except Fault SRExtMaetoContainer :=
  Tlv.scanAll (messages "maeto container sub-TLV") visitMaetoContainer b { telemetryKey := none }

def visitSRExtensions : SRExtensions → UInt8 → Bytes → Except Fault SRExtensions :=
  Tlv.onType tlvReturnPath decodeReturnPath
    (fun ext returnPath => { ext with returnPath := some returnPath }) <|
  Tlv.onType tlvMaetoContainer decodeMaetoContainer
    (fun ext maetoContainer => { ext with maetoContainer := some maetoContainer })
  Tlv.skip

def decodeSRExtensions (b : Bytes) : Except Fault (Option SRExtensions) :=
  if b.length = 0 then .ok none
  else do
    let ext ← Tlv.scanAll (messages "TLV") visitSRExtensions b
      { returnPath := none, maetoContainer := none }
    .ok (some ext)

def decodeSenderPacket (hmacKey : Option Bytes) (b : Bytes) : Except Fault SenderPacket :=
  match hmacKey with
  | some _ => .error (.panic "not implemented")
  | none =>
    if b.length < 44 then .error (.returned "packet too short")
    else do
      let sequenceNumber ← uint32At b 0 4
      let seconds ← uint32At b 4 8
      let fraction ← uint32At b 8 12
      let errorEstimate ← uint16At b 12 14
      let ssid ← uint16At b 14 16
      let srExtensions ← decodeSRExtensions (← slice b 44 b.length)
      .ok { sequenceNumber, timestamp := { seconds, fraction }, errorEstimate, ssid, srExtensions }

def decodeReflectorPacket (hmacKey : Option Bytes) (data : Bytes) :
    Except Fault ReflectorPacket :=
  match hmacKey with
  | some _ => .error (.panic "not implemented")
  | none =>
    if data.length < 44 then
      .error (.returned
        ("packet too short: got " ++ toString data.length ++ " bytes, need 44"))
    else do
      let sequenceNumber ← uint32At data 0 4
      let seconds ← uint32At data 4 8
      let fraction ← uint32At data 8 12
      let errorEstimate ← uint16At data 12 14
      let ssid ← uint16At data 14 16
      let receiveSeconds ← uint32At data 16 20
      let receiveFraction ← uint32At data 20 24
      let senderSequenceNumber ← uint32At data 24 28
      let senderSeconds ← uint32At data 28 32
      let senderFraction ← uint32At data 32 36
      let senderErrorEstimate ← uint16At data 36 38
      let senderTTL ← index data 40
      let srExtensions ← decodeSRExtensions (← slice data 44 data.length)
      .ok
        { sequenceNumber, timestamp := { seconds, fraction }, errorEstimate,
          receiveTimestamp := { seconds := receiveSeconds, fraction := receiveFraction },
          senderSequenceNumber,
          senderTimestamp := { seconds := senderSeconds, fraction := senderFraction },
          senderErrorEstimate, senderTTL, ssid, srExtensions }

end Decode

end Maeto.Stamp
