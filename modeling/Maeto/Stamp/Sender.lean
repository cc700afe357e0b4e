import Maeto.Stamp.Clock
import Maeto.Stamp.RoundTrip

/-!
# The sender and the reflector of test packets

A call of `Send` writes one packet, reads one datagram and returns it decoded; the sequence
number goes on only when that succeeds. The reflector answers a packet with one of its own that
has the sequence number and the time of the sender's packet in it. Both read into a buffer of
1500 octets, and what is cut off from a datagram is never one of its first 44 octets, which is
where these two fields are.
-/

namespace Maeto.Stamp

open Foundation Foundation.Bytes Result

def clockFormatNTP : String := "NTP"

structure ErrorEstimateConfig where
  scale : UInt8
  multiplier : UInt8
  clockFormat : String
  synchronized : Bool

structure ErrorEstimate where
  sync : Bool
  clockFormat : String
  zBit : Bool
  scale : UInt8
  multiplier : UInt8

def ErrorEstimate.encode (e : ErrorEstimate) : UInt16 :=
  (if e.sync then (0x8000 : UInt16) else 0) ||| ((e.scale.toUInt16 &&& 0x3F) <<< 8) |||
    e.multiplier.toUInt16

def newErrorEstimate (synchronized : Bool) (clockFormat : String) (scale multiplier : UInt8) :
    Except Fault ErrorEstimate :=
  if 63 < scale then .error (.returned "scale out of range: 0 < scale < 63")
  else .ok { sync := synchronized, scale, multiplier, zBit := false, clockFormat }

def newTimestamp (clockFormat : String) (now : GoTime) : Except Fault Timestamp :=
  if clockFormat = clockFormatNTP then .ok (generateNtpTimestamp now)
  else .error (.returned "invalid clock format")

def bufferSize : ℕ := 1500

def wrap (what : String) : Fault → Fault
  | .returned msg => .returned (what ++ ": " ++ msg)
  | fault => fault

section Sender

structure Sender where
  hmacKey : Option Bytes
  seq : UInt32
  config : ErrorEstimateConfig
  srExtensions : Option SRExtensions

def Sender.nextPacket (s : Sender) (now : GoTime) : Except Fault SenderPacket := do
  let timestamp ← newTimestamp s.config.clockFormat now
  let errorEstimate ← newErrorEstimate s.config.synchronized s.config.clockFormat s.config.scale
    s.config.multiplier
  .ok
    { sequenceNumber := s.seq, timestamp, errorEstimate := errorEstimate.encode, ssid := 0,
      srExtensions := s.srExtensions }

def Sender.sendStart (s : Sender) (now : GoTime) : Except Fault (SenderPacket × Bytes) :=
  match s.hmacKey with
  | some _ => .error (.returned "HMAC authentication is not yet implemented")
  | none => do
    let senderPkt ← s.nextPacket now
    let buf ← senderPkt.encode none
    .ok (senderPkt, buf)

def Sender.sendFinish (s : Sender) (datagram : Bytes) : Except Fault ReflectorPacket × Sender :=
  let rx := datagram.take bufferSize
  if rx.length < 44 then
    (.error (.returned ("reply too short: got " ++ toString rx.length ++ " bytes, need 44")), s)
  else
    match decodeReflectorPacket none rx with
    | .error fault => (.error (wrap "decoding reply" fault), s)
    | .ok reply => (.ok reply, { s with seq := s.seq + 1 })

end Sender

section Reflector

structure Reflector where
  seq : UInt32
  config : ErrorEstimateConfig

def requestsReply (p : SenderPacket) : Bool :=
  match p.srExtensions.bind fun ext => ext.returnPath.bind SRExtReturnPath.controlCode with
  | none => true
  | some controlCode => controlCode.requestReply

def Reflector.answer (r : Reflector) (data : Bytes) (rxTime txTime : GoTime) :
    Except Fault (SenderPacket × ReflectorPacket) := do
  let rxTimestamp ← newTimestamp r.config.clockFormat rxTime
  if data.length < 44 then
    .error (.returned ("packet too short: got " ++ toString data.length ++ " bytes, need 44"))
  else
    let senderPkt ← decodeSenderPacket none data
    let errorEstimate ← newErrorEstimate r.config.synchronized r.config.clockFormat
      r.config.scale r.config.multiplier
    let timestamp ← newTimestamp r.config.clockFormat txTime
    .ok (senderPkt,
      { sequenceNumber := r.seq, timestamp, errorEstimate := errorEstimate.encode,
        receiveTimestamp := rxTimestamp, senderSequenceNumber := senderPkt.sequenceNumber,
        senderTimestamp := senderPkt.timestamp, senderErrorEstimate := senderPkt.errorEstimate,
        senderTTL := 1, ssid := senderPkt.ssid, srExtensions := senderPkt.srExtensions })

def Reflector.serveRound (r : Reflector) (datagram : Bytes) (rxTime txTime : GoTime) :
    Option Bytes × Reflector :=
  match r.answer (datagram.take bufferSize) rxTime txTime with
  | .error _ => (none, r)
  | .ok (senderPkt, reflectorPkt) =>
    let r := { r with seq := r.seq + 1 }
    if requestsReply senderPkt then
      match reflectorPkt.encode none with
      | .error _ => (none, r)
      | .ok reflectorPktBytes => (some reflectorPktBytes, r)
    else (none, r)

end Reflector

section Echo

/-- The octets of a packet, with its extensions behind them. -/
def Carries (p : SenderPacket) (b : Bytes) : Prop := ∃ enc, b = p.base ++ enc

def ReflectorPacket.EchoOf (reply : ReflectorPacket) (p : SenderPacket) : Prop :=
  reply.senderSequenceNumber = p.sequenceNumber ∧ reply.senderTimestamp = p.timestamp

instance (reply : ReflectorPacket) (p : SenderPacket) : Decidable (reply.EchoOf p) :=
  inferInstanceAs (Decidable (_ ∧ _))

def Echoes (p : SenderPacket) (b : Bytes) : Prop :=
  ∃ reply : ReflectorPacket, reply.EchoOf p ∧ ∃ enc, b = reply.base ++ enc

theorem take_bufferSize {base enc : Bytes} (h : base.length = 44) :
    (base ++ enc).take bufferSize = base ++ enc.take (bufferSize - 44) := by
  have hle : base.length ≤ bufferSize := by
    rw [h]
    decide
  rw [List.take_append, List.take_of_length_le hle, h]

variable {b : Bytes} {p : SenderPacket}

theorem exists_of_appendExtensions {buf : Bytes} {ext : Option SRExtensions}
    (h : appendExtensions buf ext = .ok b) : ∃ enc, b = buf ++ enc := by
  rcases appendExtensions_spec buf ext with ⟨enc, -, hok, -⟩ | ⟨msg, key, -, -, herr⟩
  · exact ⟨enc, Except.ok.inj (h.symm.trans hok)⟩
  · rw [herr] at h
    cases h

theorem of_sendStart {s : Sender} {now : GoTime}
    (h : s.sendStart now = .ok (p, b)) : p.sequenceNumber = s.seq ∧ Carries p b := by
  unfold Sender.sendStart at h
  split at h
  · cases h
  · obtain ⟨senderPkt, hnext, h⟩ := bind_eq_ok.mp h
    obtain ⟨buf, hencode, h⟩ := bind_eq_ok.mp h
    cases h
    obtain ⟨timestamp, -, hnext⟩ := bind_eq_ok.mp hnext
    obtain ⟨errorEstimate, -, hnext⟩ := bind_eq_ok.mp hnext
    cases hnext
    rw [SenderPacket.encode_eq] at hencode
    exact ⟨rfl, exists_of_appendExtensions hencode⟩

theorem of_answer {r : Reflector} {senderPkt : SenderPacket}
    {rxTime txTime : GoTime} {reply : ReflectorPacket} (hb : Carries p b)
    (h : r.answer (b.take bufferSize) rxTime txTime = .ok (senderPkt, reply)) :
    reply.EchoOf p := by
  obtain ⟨enc, rfl⟩ := hb
  rw [take_bufferSize p.length_base] at h
  obtain ⟨rxTimestamp, -, h⟩ := bind_eq_ok.mp h
  split_ifs at h with hshort
  obtain ⟨decoded, hdecode, h⟩ := bind_eq_ok.mp h
  obtain ⟨errorEstimate, -, h⟩ := bind_eq_ok.mp h
  obtain ⟨timestamp, -, h⟩ := bind_eq_ok.mp h
  cases h
  rw [decodeSenderPacket_eq (Nat.not_lt.mp hshort)] at hdecode
  obtain ⟨ext, -, hdecode⟩ := bind_eq_ok.mp hdecode
  rw [p.senderAt_base] at hdecode
  cases hdecode
  exact ⟨rfl, rfl⟩

theorem of_serveRound {r : Reflector} {b' : Bytes} {rxTime txTime : GoTime}
    (hb : Carries p b) (h : (r.serveRound b rxTime txTime).1 = some b') : Echoes p b' := by
  unfold Reflector.serveRound at h
  split at h
  · cases h
  · rename_i senderPkt reply hanswer
    have hecho := of_answer hb hanswer
    dsimp only at h
    split_ifs at h
    · split at h
      · cases h
      · rename_i bytes hencode
        cases h
        rw [ReflectorPacket.encode_eq] at hencode
        exact ⟨reply, hecho, exists_of_appendExtensions hencode⟩

theorem of_sendFinish {s : Sender} {reply : ReflectorPacket}
    (hb : Echoes p b) (h : (s.sendFinish b).1 = .ok reply) : reply.EchoOf p := by
  obtain ⟨written, hecho, enc, rfl⟩ := hb
  unfold Sender.sendFinish at h
  rw [take_bufferSize written.length_base] at h
  dsimp only at h
  split_ifs at h with hshort
  split at h
  · cases h
  · rename_i decoded hdecode
    cases h
    rw [decodeReflectorPacket_eq (Nat.not_lt.mp hshort)] at hdecode
    obtain ⟨ext, -, hdecode⟩ := bind_eq_ok.mp hdecode
    rw [written.reflectorAt_base] at hdecode
    cases hdecode
    exact hecho

theorem seq_of_sendFinish_eq_ok {s sender : Sender} {b : Bytes} {reply : ReflectorPacket}
    (h : s.sendFinish b = (.ok reply, sender)) : sender.seq = s.seq + 1 := by
  unfold Sender.sendFinish at h
  dsimp only at h
  split_ifs at h
  · cases h
  · split at h
    · cases h
    · cases h
      rfl

theorem eq_of_sendFinish_eq_error {s sender : Sender} {b : Bytes} {fault : Fault}
    (h : s.sendFinish b = (.error fault, sender)) : sender = s := by
  unfold Sender.sendFinish at h
  dsimp only at h
  split_ifs at h
  · cases h
    rfl
  · split at h
    · cases h
      rfl
    · cases h

end Echo

end Maeto.Stamp
