import Maeto.Stamp.Packet

/-!
# Decoding undoes encoding

Both packets are read field by field from where they were written (`decodeSenderPacket_eq`,
`decodeReflectorPacket_eq`), and each extension is encoded to one record whose value decodes
to it (`SRExtReturnPath.encode_record`, `SRExtMaetoContainer.encode_record`). An encoder fails
for one reason only: with its own header the telemetry key does not fit the length field of
the container, which leaves 65531 octets for it.
-/

namespace Maeto.Stamp

open Foundation Foundation.Bytes Result

section Fields

theorem uint32At_of_le {b : Bytes} {lo hi : ℕ} (hlo : lo + 4 = hi) (hhi : hi ≤ b.length) :
    uint32At b lo hi = .ok (UInt32.ofNat (beNat ((b.drop lo).take 4))) := by
  subst hlo
  have hlength : ((b.drop lo).take 4).length = 4 := by
    rw [List.length_take, List.length_drop]
    omega
  rw [uint32At, slice_of_le (Nat.le_add_right lo 4) hhi, Nat.add_sub_cancel_left]
  exact uint32_of_length hlength

theorem uint16At_of_le {b : Bytes} {lo hi : ℕ} (hlo : lo + 2 = hi) (hhi : hi ≤ b.length) :
    uint16At b lo hi = .ok (UInt16.ofNat (beNat ((b.drop lo).take 2))) := by
  subst hlo
  have hlength : ((b.drop lo).take 2).length = 2 := by
    rw [List.length_take, List.length_drop]
    omega
  rw [uint16At, slice_of_le (Nat.le_add_right lo 2) hhi, Nat.add_sub_cancel_left]
  exact uint16_of_length hlength

theorem ofNat_beNat_beBytes_four (v : UInt32) : UInt32.ofNat (beNat (beBytes 4 v.toNat)) = v := by
  have hlt : v.toNat < 256 ^ 4 := v.toNat_lt
  rw [beNat_beBytes, Nat.mod_eq_of_lt hlt, UInt32.ofNat_toNat]

theorem ofNat_beNat_beBytes_two (v : UInt16) : UInt16.ofNat (beNat (beBytes 2 v.toNat)) = v := by
  have hlt : v.toNat < 256 ^ 2 := v.toNat_lt
  rw [beNat_beBytes, Nat.mod_eq_of_lt hlt, UInt16.ofNat_toNat]

end Fields

section Headers

def senderAt (b : Bytes) (srExtensions : Option SRExtensions) : SenderPacket where
  sequenceNumber := UInt32.ofNat (beNat ((b.drop 0).take 4))
  timestamp :=
    { seconds := UInt32.ofNat (beNat ((b.drop 4).take 4))
      fraction := UInt32.ofNat (beNat ((b.drop 8).take 4)) }
  errorEstimate := UInt16.ofNat (beNat ((b.drop 12).take 2))
  ssid := UInt16.ofNat (beNat ((b.drop 14).take 2))
  srExtensions

def reflectorAt (data : Bytes) (srExtensions : Option SRExtensions) : ReflectorPacket where
  sequenceNumber := UInt32.ofNat (beNat ((data.drop 0).take 4))
  timestamp :=
    { seconds := UInt32.ofNat (beNat ((data.drop 4).take 4))
      fraction := UInt32.ofNat (beNat ((data.drop 8).take 4)) }
  errorEstimate := UInt16.ofNat (beNat ((data.drop 12).take 2))
  ssid := UInt16.ofNat (beNat ((data.drop 14).take 2))
  receiveTimestamp :=
    { seconds := UInt32.ofNat (beNat ((data.drop 16).take 4))
      fraction := UInt32.ofNat (beNat ((data.drop 20).take 4)) }
  senderSequenceNumber := UInt32.ofNat (beNat ((data.drop 24).take 4))
  senderTimestamp :=
    { seconds := UInt32.ofNat (beNat ((data.drop 28).take 4))
      fraction := UInt32.ofNat (beNat ((data.drop 32).take 4)) }
  senderErrorEstimate := UInt16.ofNat (beNat ((data.drop 36).take 2))
  senderTTL := data.getD 40 0
  srExtensions

theorem slice_extensions {b : Bytes} (h : 44 ≤ b.length) :
    slice b 44 b.length = .ok (b.drop 44) := by
  rw [slice_of_le h le_rfl, List.take_of_length_le (by simp)]

theorem decodeSenderPacket_eq {b : Bytes} (h : 44 ≤ b.length) :
    decodeSenderPacket none b =
      decodeSRExtensions (b.drop 44) >>= fun ext => .ok (senderAt b ext) := by
  unfold decodeSenderPacket
  rw [slice_extensions h]
  simp (disch := omega) only [if_neg, uint32At_of_le, uint16At_of_le]
  rfl

theorem decodeReflectorPacket_eq {data : Bytes} (h : 44 ≤ data.length) :
    decodeReflectorPacket none data =
      decodeSRExtensions (data.drop 44) >>= fun ext => .ok (reflectorAt data ext) := by
  have httl : index data 40 = .ok (data.getD 40 0) := by
    rw [index, List.getD_eq_getElem?_getD, List.getElem?_eq_getElem (by omega)]
    rfl
  unfold decodeReflectorPacket
  rw [slice_extensions h, httl]
  simp (disch := omega) only [if_neg, uint32At_of_le, uint16At_of_le]
  rfl

def SenderPacket.base (p : SenderPacket) : Bytes :=
  beBytes 4 p.sequenceNumber.toNat ++ beBytes 4 p.timestamp.seconds.toNat ++
    beBytes 4 p.timestamp.fraction.toNat ++ beBytes 2 p.errorEstimate.toNat ++
    beBytes 2 p.ssid.toNat ++ List.replicate 28 0

def ReflectorPacket.base (p : ReflectorPacket) : Bytes :=
  beBytes 4 p.sequenceNumber.toNat ++ beBytes 4 p.timestamp.seconds.toNat ++
    beBytes 4 p.timestamp.fraction.toNat ++ beBytes 2 p.errorEstimate.toNat ++
    beBytes 2 p.ssid.toNat ++ beBytes 4 p.receiveTimestamp.seconds.toNat ++
    beBytes 4 p.receiveTimestamp.fraction.toNat ++ beBytes 4 p.senderSequenceNumber.toNat ++
    beBytes 4 p.senderTimestamp.seconds.toNat ++ beBytes 4 p.senderTimestamp.fraction.toNat ++
    beBytes 2 p.senderErrorEstimate.toNat ++ [0, 0] ++ [p.senderTTL] ++ [0, 0, 0]

variable {n : ℕ}

theorem put_next {done new : Bytes} {lo hi : ℕ} (hlo : done.length = lo)
    (hhi : lo + new.length = hi) (hn : new.length ≤ n) :
    put (done ++ List.replicate n 0) lo hi new =
      .ok (done ++ new ++ List.replicate (n - new.length) 0) := by
  subst hlo hhi
  unfold put
  rw [if_pos (by simp; omega), if_pos (by simp), List.take_left, List.drop_length_add_append,
    List.drop_replicate]

theorem SenderPacket.encode_eq (p : SenderPacket) :
    p.encode none = appendExtensions p.base p.srExtensions := by
  unfold SenderPacket.encode
  rw [← List.nil_append (List.replicate 44 (0 : UInt8))]
  simp (disch := simp) only [putUint32, putUint16, put_next, ok_bind]
  simp [base]

theorem ReflectorPacket.encode_eq (p : ReflectorPacket) :
    p.encode none = appendExtensions p.base p.srExtensions := by
  unfold ReflectorPacket.encode
  rw [← List.nil_append (List.replicate 44 (0 : UInt8))]
  simp (disch := simp) only [putUint32, putUint16, put_next, ok_bind]
  simp [setIndex, base, ok_bind]

theorem drop_field {f rest : Bytes} (h : f.length ≤ n) :
    (f ++ rest).drop n = rest.drop (n - f.length) := by
  rw [List.drop_append, List.drop_eq_nil_of_le h, List.nil_append]

theorem take_field {f rest : Bytes} (h : f.length = n) : (f ++ rest).take n = f :=
  List.take_left' h

theorem getD_field {f rest : Bytes} (h : f.length ≤ n) :
    (f ++ rest).getD n 0 = rest.getD (n - f.length) 0 :=
  List.getD_append_right _ _ _ _ h

theorem SenderPacket.senderAt_base (p : SenderPacket) (enc : Bytes) (ext : Option SRExtensions) :
    senderAt (p.base ++ enc) ext = { p with srExtensions := ext } := by
  unfold senderAt base
  simp (disch := simp) only [List.append_assoc, List.drop_zero, drop_field, take_field,
    length_beBytes, Nat.reduceSub, ofNat_beNat_beBytes_four, ofNat_beNat_beBytes_two]

theorem ReflectorPacket.reflectorAt_base (p : ReflectorPacket) (enc : Bytes)
    (ext : Option SRExtensions) :
    reflectorAt (p.base ++ enc) ext = { p with srExtensions := ext } := by
  unfold reflectorAt base
  simp (disch := simp) only [List.append_assoc, List.drop_zero, drop_field, take_field, getD_field,
    length_beBytes, Nat.reduceSub, ofNat_beNat_beBytes_four, ofNat_beNat_beBytes_two]
  rfl

end Headers

section Records

theorem put_length {flags type : UInt8} {value : Bytes} (h : value.length < 256 ^ 2) :
    putUint16 (flags :: type :: 0 :: 0 :: value) 2 (flags :: type :: 0 :: 0 :: value).length
        (UInt16.ofNat value.length) = .ok (Tlv.bytes ⟨flags, type, value, h⟩) := by
  have hlength : (UInt16.ofNat value.length).toNat = value.length := UInt16.toNat_ofNat_of_lt' h
  rw [putUint16, put, hlength, if_pos (by simp), if_pos (by simp)]
  simp [Tlv.bytes]

theorem SRExtReturnPathControlCode.encode_record (s : SRExtReturnPathControlCode) :
    ∃ t : Tlv, t.type = rpControlCode ∧ t.value.length = 4 ∧ s.encode = .ok t.bytes ∧
      decodeControlCode t.value = .ok s := by
  obtain ⟨requestReply⟩ := s
  cases requestReply with
  | false => exact ⟨⟨0, rpControlCode, [0, 0, 0, 0], by decide⟩, rfl, rfl, rfl, rfl⟩
  | true => exact ⟨⟨0, rpControlCode, [0, 0, 0, 1], by decide⟩, rfl, rfl, rfl, rfl⟩

theorem SRExtReturnPath.encode_record (p : SRExtReturnPath) :
    ∃ t : Tlv, t.type = tlvReturnPath ∧ p.encode = .ok t.bytes ∧
      decodeReturnPath t.value = .ok p := by
  obtain ⟨controlCode⟩ := p
  cases controlCode with
  | none => exact ⟨⟨0, tlvReturnPath, [], by decide⟩, rfl, rfl, rfl⟩
  | some controlCode =>
    obtain ⟨sub, htype, hlength, hencode, hdecode⟩ := controlCode.encode_record
    have hfits : sub.bytes.length < 256 ^ 2 := by
      rw [Tlv.length_bytes, hlength]
      decide
    refine ⟨⟨0, tlvReturnPath, sub.bytes, hfits⟩, rfl, ?_, ?_⟩
    · unfold SRExtReturnPath.encode
      simp only [hencode]
      exact put_length hfits
    · have hvisit : decodeReturnPath (Tlv.concat [sub]) = .ok ⟨some controlCode⟩ := by
        rw [decodeReturnPath, Tlv.scanAll_concat, List.foldlM_cons, visitReturnPath,
          Tlv.onType_of_eq htype hdecode]
        rfl
      simpa using hvisit

/-- With the header of the key, the key fits the length field of the container. -/
def SRExtMaetoContainer.Fits (s : SRExtMaetoContainer) : Prop :=
  ∀ telemetryKey, s.telemetryKey = some telemetryKey → telemetryKey.key.length ≤ 65531

def SRExtMaetoContainer.KeyValid (s : SRExtMaetoContainer) : Prop :=
  ∀ telemetryKey, s.telemetryKey = some telemetryKey → Utf8.valid telemetryKey.key = true

theorem SRExtMaetoContainerTelemetryKey.encode_record {s : SRExtMaetoContainerTelemetryKey}
    (hfits : s.key.length < 256 ^ 2) :
    s.encode = .ok (Tlv.bytes ⟨0, mcTelemetryKey, s.key, hfits⟩) := by
  have hlength : (UInt16.ofNat s.key.length).toNat = s.key.length :=
    UInt16.toNat_ofNat_of_lt' hfits
  have hheader : putUint16 [0, mcTelemetryKey, 0, 0] 2 4 (UInt16.ofNat s.key.length) =
      .ok ([0, mcTelemetryKey] ++ beBytes 2 s.key.length) := by
    rw [putUint16, hlength]
    rfl
  rw [encode, if_neg (Nat.not_lt.mpr (Nat.le_of_lt_succ hfits))]
  change (putUint16 [0, mcTelemetryKey, 0, 0] 2 4 (UInt16.ofNat s.key.length) >>= fun buf =>
    .ok (buf ++ s.key)) = _
  rw [hheader]
  rfl

theorem SRExtMaetoContainer.encode_none :
    SRExtMaetoContainer.encode ⟨none⟩ =
      .ok (Tlv.bytes ⟨0, tlvMaetoContainer, [], by decide⟩) := rfl

theorem SRExtMaetoContainer.encode_some (telemetryKey : SRExtMaetoContainerTelemetryKey) :
    SRExtMaetoContainer.encode ⟨some telemetryKey⟩ = telemetryKey.encode >>= fun enc =>
      if enc.length > 0xFFFF then
        .error (.returned "maeto container length too big to fit in 16-bit length field")
      else putUint16 (0 :: tlvMaetoContainer :: 0 :: 0 :: enc) 2
        (0 :: tlvMaetoContainer :: 0 :: 0 :: enc).length (UInt16.ofNat enc.length) := by
  cases henc : telemetryKey.encode with
  | error fault =>
    unfold SRExtMaetoContainer.encode
    simp only [henc]
    rfl
  | ok enc =>
    unfold SRExtMaetoContainer.encode
    simp only [henc]
    rfl

theorem SRExtMaetoContainer.encode_record {s : SRExtMaetoContainer} (h : s.Fits) :
    ∃ t : Tlv, t.type = tlvMaetoContainer ∧ s.encode = .ok t.bytes ∧
      (s.KeyValid → decodeMaetoContainer t.value = .ok s) := by
  obtain ⟨telemetryKey⟩ := s
  cases telemetryKey with
  | none => exact ⟨⟨0, tlvMaetoContainer, [], by decide⟩, rfl, encode_none, fun _ => rfl⟩
  | some telemetryKey =>
    have hkey := h telemetryKey rfl
    have hsub : telemetryKey.key.length < 256 ^ 2 := Nat.lt_of_le_of_lt hkey (by decide)
    have hfits : (Tlv.bytes ⟨0, mcTelemetryKey, telemetryKey.key, hsub⟩).length < 256 ^ 2 := by
      rw [Tlv.length_bytes]
      exact Nat.lt_of_le_of_lt (Nat.add_le_add_left hkey 4) (by decide)
    refine ⟨⟨0, tlvMaetoContainer, _, hfits⟩, rfl, ?_, ?_⟩
    · rw [encode_some, telemetryKey.encode_record hsub]
      exact (if_neg (Nat.not_lt.mpr (Nat.le_of_lt_succ hfits))).trans (put_length hfits)
    · intro hvalid
      have hdecode : decodeMaetoContainer
          (Tlv.concat [⟨0, mcTelemetryKey, telemetryKey.key, hsub⟩]) =
            .ok ⟨some telemetryKey⟩ := by
        have hparse : decodeTelemetryKey telemetryKey.key = .ok telemetryKey := by
          rw [decodeTelemetryKey, hvalid telemetryKey rfl]
          rfl
        rw [decodeMaetoContainer, Tlv.scanAll_concat, List.foldlM_cons, visitMaetoContainer,
          Tlv.onType_of_eq rfl hparse]
        rfl
      simpa using hdecode

theorem SRExtMaetoContainer.encode_of_not_fits {s : SRExtMaetoContainer} (h : ¬ s.Fits) :
    ∃ msg, s.encode = .error (.returned msg) := by
  obtain ⟨telemetryKey⟩ := s
  cases telemetryKey with
  | none => exact absurd (fun _ h => nomatch h) h
  | some telemetryKey =>
    rw [encode_some]
    by_cases hlong : telemetryKey.key.length > 0xFFFF
    · rw [SRExtMaetoContainerTelemetryKey.encode, if_pos hlong]
      exact ⟨_, rfl⟩
    · have hsub : telemetryKey.key.length < 256 ^ 2 := Nat.lt_succ_of_le (Nat.not_lt.mp hlong)
      have hkey : 65531 < telemetryKey.key.length := by
        by_contra hle
        refine h fun key hkey => ?_
        cases hkey
        exact Nat.not_lt.mp hle
      rw [telemetryKey.encode_record hsub]
      refine ⟨_, if_pos ?_⟩
      rw [Tlv.length_bytes]
      exact Nat.add_lt_add_left hkey 4

end Records

section Extensions

/-- The container of the extensions fits its length field, if there is one. -/
def SRExtensions.Fits (ext : SRExtensions) : Prop :=
  ∀ container, ext.maetoContainer = some container → container.Fits

def SRExtensions.KeyValid (ext : SRExtensions) : Prop :=
  ∀ container, ext.maetoContainer = some container → container.KeyValid

def normalize (ext : Option SRExtensions) : Option SRExtensions :=
  if ext = some ⟨none, none⟩ then none else ext

theorem decodeSRExtensions_concat {l : List Tlv} (hne : l ≠ []) :
    decodeSRExtensions (Tlv.concat l) =
      l.foldlM (fun ext t => visitSRExtensions ext t.type t.value) ⟨none, none⟩ >>= fun ext =>
        .ok (some ext) := by
  obtain ⟨t, l, rfl⟩ := List.exists_cons_of_ne_nil hne
  rw [decodeSRExtensions, if_neg (by simp [Tlv.bytes]), Tlv.scanAll_concat]

theorem visitSRExtensions_returnPath {t : Tlv} (htype : t.type = tlvReturnPath)
    {returnPath : SRExtReturnPath} (hdecode : decodeReturnPath t.value = .ok returnPath)
    (ext : SRExtensions) :
    visitSRExtensions ext t.type t.value = .ok { ext with returnPath := some returnPath } := by
  rw [visitSRExtensions, Tlv.onType_of_eq htype hdecode]

theorem visitSRExtensions_maetoContainer {t : Tlv} (htype : t.type = tlvMaetoContainer)
    {container : SRExtMaetoContainer} (hdecode : decodeMaetoContainer t.value = .ok container)
    (ext : SRExtensions) :
    visitSRExtensions ext t.type t.value = .ok { ext with maetoContainer := some container } := by
  have hother : t.type ≠ tlvReturnPath := by
    rw [htype]
    decide
  rw [visitSRExtensions, Tlv.onType_of_ne hother, Tlv.onType_of_eq htype hdecode]

theorem SRExtensions.encode_records {ext : SRExtensions} (h : ext.Fits) :
    ∃ l, ext.encode = .ok (Tlv.concat l) ∧
      (ext.KeyValid → decodeSRExtensions (Tlv.concat l) = .ok (normalize (some ext))) := by
  obtain ⟨returnPath, maetoContainer⟩ := ext
  cases returnPath with
  | none =>
    cases maetoContainer with
    | none => exact ⟨[], rfl, fun _ => rfl⟩
    | some container =>
      obtain ⟨t, htype, hencode, hdecode⟩ := SRExtMaetoContainer.encode_record (h container rfl)
      refine ⟨[t], ?_, fun hvalid => ?_⟩
      · simp [SRExtensions.encode, hencode, ok_bind]
      · rw [decodeSRExtensions_concat (by simp), List.foldlM_cons,
          visitSRExtensions_maetoContainer htype (hdecode (hvalid container rfl))]
        rfl
  | some returnPath =>
    obtain ⟨t, htype, hencode, hdecode⟩ := returnPath.encode_record
    cases maetoContainer with
    | none =>
      refine ⟨[t], ?_, fun _ => ?_⟩
      · simp [SRExtensions.encode, hencode, ok_bind]
      · rw [decodeSRExtensions_concat (by simp), List.foldlM_cons,
          visitSRExtensions_returnPath htype hdecode]
        rfl
    | some container =>
      obtain ⟨t', htype', hencode', hdecode'⟩ :=
        SRExtMaetoContainer.encode_record (h container rfl)
      refine ⟨[t, t'], ?_, fun hvalid => ?_⟩
      · simp [SRExtensions.encode, hencode, hencode', ok_bind]
      · rw [decodeSRExtensions_concat (by simp), List.foldlM_cons,
          visitSRExtensions_returnPath htype hdecode]
        change (visitSRExtensions _ t'.type t'.value >>= _) >>= _ = _
        rw [visitSRExtensions_maetoContainer htype' (hdecode' (hvalid container rfl))]
        rfl

theorem SRExtensions.encode_of_not_fits {ext : SRExtensions} (h : ¬ ext.Fits) :
    ∃ msg, ext.encode = .error (.returned msg) := by
  obtain ⟨returnPath, maetoContainer⟩ := ext
  cases maetoContainer with
  | none => exact absurd (fun _ h => nomatch h) h
  | some container =>
    have hcontainer : ¬ container.Fits := by
      intro hfits
      refine h fun c hc => ?_
      cases hc
      exact hfits
    obtain ⟨msg, hmsg⟩ := SRExtMaetoContainer.encode_of_not_fits hcontainer
    refine ⟨msg, ?_⟩
    cases returnPath with
    | none => simp [SRExtensions.encode, hmsg, ok_bind, error_bind]
    | some returnPath =>
      obtain ⟨t, -, hencode, -⟩ := returnPath.encode_record
      simp [SRExtensions.encode, hencode, hmsg, ok_bind, error_bind]

end Extensions

section Packets

def keyOf (ext : Option SRExtensions) : Option Bytes :=
  (ext.bind fun ext => ext.maetoContainer.bind SRExtMaetoContainer.telemetryKey).map
    SRExtMaetoContainerTelemetryKey.key

theorem fits_iff {ext : SRExtensions} :
    ext.Fits ↔ ∀ key, keyOf (some ext) = some key → key.length ≤ 65531 := by
  obtain ⟨returnPath, maetoContainer⟩ := ext
  cases maetoContainer with
  | none => simp [SRExtensions.Fits, keyOf]
  | some container =>
    obtain ⟨telemetryKey⟩ := container
    cases telemetryKey <;> simp [SRExtensions.Fits, SRExtMaetoContainer.Fits, keyOf]

theorem keyValid_iff {ext : SRExtensions} :
    ext.KeyValid ↔ ∀ key, keyOf (some ext) = some key → Utf8.valid key = true := by
  obtain ⟨returnPath, maetoContainer⟩ := ext
  cases maetoContainer with
  | none => simp [SRExtensions.KeyValid, keyOf]
  | some container =>
    obtain ⟨telemetryKey⟩ := container
    cases telemetryKey <;> simp [SRExtensions.KeyValid, SRExtMaetoContainer.KeyValid, keyOf]

theorem appendExtensions_spec (buf : Bytes) (ext : Option SRExtensions) :
    (∃ enc, (∀ key, keyOf ext = some key → key.length ≤ 65531) ∧
      appendExtensions buf ext = .ok (buf ++ enc) ∧
      ((∀ key, keyOf ext = some key → Utf8.valid key = true) →
        decodeSRExtensions enc = .ok (normalize ext))) ∨
    (∃ msg key, keyOf ext = some key ∧ 65531 < key.length ∧
      appendExtensions buf ext = .error (.returned msg)) := by
  cases ext with
  | none =>
    refine Or.inl ⟨[], (fun _ h => nomatch h), ?_, fun _ => rfl⟩
    rw [appendExtensions, List.append_nil]
  | some ext =>
    by_cases hfits : ext.Fits
    · obtain ⟨l, hencode, hdecode⟩ := SRExtensions.encode_records hfits
      refine Or.inl ⟨Tlv.concat l, fits_iff.mp hfits, ?_, fun h => hdecode (keyValid_iff.mpr h)⟩
      rw [appendExtensions, hencode]
      rfl
    · obtain ⟨msg, hmsg⟩ := SRExtensions.encode_of_not_fits hfits
      rw [fits_iff] at hfits
      push Not at hfits
      obtain ⟨key, hkey, hlong⟩ := hfits
      refine Or.inr ⟨msg, key, hkey, hlong, ?_⟩
      rw [appendExtensions, hmsg]
      rfl

theorem decode_appendExtensions {α : Type} {buf : Bytes} {decode : Bytes → Except Fault α}
    {packet : Option SRExtensions → α}
    (h : ∀ enc ext, decodeSRExtensions enc = .ok ext → decode (buf ++ enc) = .ok (packet ext))
    (ext : Option SRExtensions) :
    ((∀ key, keyOf ext = some key → Utf8.valid key = true) →
      ∀ b, appendExtensions buf ext = .ok b → decode b = .ok (packet (normalize ext))) ∧
    ((∃ fault, appendExtensions buf ext = .error fault) ↔
      ∃ key, keyOf ext = some key ∧ 65531 < key.length) := by
  rcases appendExtensions_spec buf ext with
    ⟨enc, hfits, hencode, hdecode⟩ | ⟨msg, key, hkey, hlong, hencode⟩
  · rw [hencode]
    refine ⟨fun hvalid b hb => ?_, iff_of_false (fun ⟨_, hfault⟩ => nomatch hfault) ?_⟩
    · cases hb
      exact h enc _ (hdecode hvalid)
    · rintro ⟨key, hkey, hlong⟩
      exact Nat.not_lt.mpr (hfits key hkey) hlong
  · rw [hencode]
    exact ⟨(fun _ _ hb => nomatch hb), iff_of_true ⟨_, rfl⟩ ⟨key, hkey, hlong⟩⟩

theorem SenderPacket.length_base (p : SenderPacket) : p.base.length = 44 := by
  simp [base]

theorem ReflectorPacket.length_base (p : ReflectorPacket) : p.base.length = 44 := by
  simp [base]

theorem SenderPacket.decode_base (p : SenderPacket) {enc : Bytes} {ext : Option SRExtensions}
    (h : decodeSRExtensions enc = .ok ext) :
    decodeSenderPacket none (p.base ++ enc) = .ok { p with srExtensions := ext } := by
  have hlength := p.length_base
  rw [decodeSenderPacket_eq (by rw [List.length_append]; omega), List.drop_left' hlength, h]
  exact congrArg Except.ok (p.senderAt_base enc ext)

theorem ReflectorPacket.decode_base (p : ReflectorPacket) {enc : Bytes}
    {ext : Option SRExtensions} (h : decodeSRExtensions enc = .ok ext) :
    decodeReflectorPacket none (p.base ++ enc) = .ok { p with srExtensions := ext } := by
  have hlength := p.length_base
  rw [decodeReflectorPacket_eq (by rw [List.length_append]; omega), List.drop_left' hlength, h]
  exact congrArg Except.ok (p.reflectorAt_base enc ext)

/-- A packet with a valid key is decoded from what it is encoded to, and encoding fails exactly
for a key that leaves no room for its header in the container. -/
theorem decode_encode :
    (∀ p : SenderPacket,
      ((∀ key, keyOf p.srExtensions = some key → Utf8.valid key = true) →
        ∀ b, p.encode none = .ok b →
          decodeSenderPacket none b = .ok { p with srExtensions := normalize p.srExtensions }) ∧
      ((∃ fault, p.encode none = .error fault) ↔
        ∃ key, keyOf p.srExtensions = some key ∧ 65531 < key.length)) ∧
    ∀ p : ReflectorPacket,
      ((∀ key, keyOf p.srExtensions = some key → Utf8.valid key = true) →
        ∀ data, p.encode none = .ok data →
          decodeReflectorPacket none data =
            .ok { p with srExtensions := normalize p.srExtensions }) ∧
      ((∃ fault, p.encode none = .error fault) ↔
        ∃ key, keyOf p.srExtensions = some key ∧ 65531 < key.length) := by
  refine ⟨fun p => ?_, fun p => ?_⟩
  · rw [p.encode_eq]
    exact decode_appendExtensions (fun _ _ h => p.decode_base h) p.srExtensions
  · rw [p.encode_eq]
    exact decode_appendExtensions (fun _ _ h => p.decode_base h) p.srExtensions

def fullReflectorPacket : ReflectorPacket where
  sequenceNumber := 7
  timestamp := ⟨1, 2⟩
  errorEstimate := 3
  receiveTimestamp := ⟨4, 5⟩
  senderSequenceNumber := 6
  senderTimestamp := ⟨8, 9⟩
  senderErrorEstimate := 10
  senderTTL := 64
  ssid := 11
  srExtensions := some ⟨some ⟨some ⟨true⟩⟩, some ⟨some ⟨[0x61, 0xC3, 0xA9]⟩⟩⟩

theorem decode_encode_fullReflectorPacket :
    ∃ data, fullReflectorPacket.encode none = .ok data ∧
      decodeReflectorPacket none data = .ok fullReflectorPacket := by
  obtain ⟨hdecode, -⟩ := decode_encode.2 fullReflectorPacket
  refine ⟨_, rfl, hdecode ?_ _ rfl⟩
  intro key hkey
  cases hkey
  decide

end Packets

end Maeto.Stamp
