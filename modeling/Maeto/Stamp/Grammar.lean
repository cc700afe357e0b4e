import Maeto.Stamp.RoundTrip
import Mathlib.Data.Option.Basic

/-!
# What the decoder accepts

`WellFormed` is the grammar of a sender packet: 44 octets and complete records after them, in
which the value of a return path and of a container consists of complete sub-records again.
The decoder accepts exactly these byte strings, whatever is sent to it: each of its three
loops accepts the concatenations of records that it accepts one by one, and none of them
leaves its slice. What it returns is read off the last record of each type
(`ReadsExtensions`), and it can be encoded again, since a key that was received in a container
fits one.
-/

namespace Maeto.Stamp

open Foundation Foundation.Bytes Result

section Grammar

def ReturnPathValue (v : Bytes) : Prop :=
  ∃ subs, v = Tlv.concat subs ∧ ∀ s ∈ subs, s.type = rpControlCode → s.value.length = 4

def MaetoContainerValue (v : Bytes) : Prop :=
  ∃ subs, v = Tlv.concat subs ∧ ∀ s ∈ subs, s.type = mcTelemetryKey → Utf8.valid s.value = true

def WellFormedRecord (t : Tlv) : Prop :=
  (t.type = tlvReturnPath → ReturnPathValue t.value) ∧
    (t.type = tlvMaetoContainer → MaetoContainerValue t.value)

/-- The octets of a packet and complete records. -/
def WellFormed (b : Bytes) : Prop :=
  44 ≤ b.length ∧ ∃ l, b.drop 44 = Tlv.concat l ∧ ∀ t ∈ l, WellFormedRecord t

def ReadsReturnPath (v : Bytes) (returnPath : SRExtReturnPath) : Prop :=
  ∃ subs, v = Tlv.concat subs ∧
    Option.Rel (fun s controlCode => controlCode.requestReply = decide (beNat s.value % 2 = 1))
      (Tlv.lastOf rpControlCode subs) returnPath.controlCode

def ReadsMaetoContainer (v : Bytes) (container : SRExtMaetoContainer) : Prop :=
  ∃ subs, v = Tlv.concat subs ∧
    Option.Rel (fun s telemetryKey => telemetryKey.key = s.value)
      (Tlv.lastOf mcTelemetryKey subs) container.telemetryKey

def ReadsExtensions (l : List Tlv) (ext : SRExtensions) : Prop :=
  Option.Rel (fun t returnPath => ReadsReturnPath t.value returnPath)
      (Tlv.lastOf tlvReturnPath l) ext.returnPath ∧
    Option.Rel (fun t container => ReadsMaetoContainer t.value container)
      (Tlv.lastOf tlvMaetoContainer l) ext.maetoContainer

/-- What the extensions of a packet are read off: nothing at all, or records. -/
def Describes (l : List Tlv) : Option SRExtensions → Prop
  | none => l = []
  | some ext => l ≠ [] ∧ ReadsExtensions l ext

end Grammar

section ReturnPath

variable {v : Bytes}

theorem decodeControlCode_of_length (h : v.length = 4) :
    decodeControlCode v = .ok ⟨decide (beNat v % 2 = 1)⟩ := by
  have hlt : beNat v < 2 ^ 32 := by
    have hlt := beNat_lt v
    rw [h] at hlt
    exact hlt
  have hand : (UInt32.ofNat (beNat v) &&& 0x1).toNat = beNat v % 2 := by
    rw [UInt32.toNat_and, UInt32.toNat_ofNat_of_lt' hlt]
    exact Nat.and_one_is_mod _
  have hbit : (UInt32.ofNat (beNat v) &&& 0x1 != 0) = decide (beNat v % 2 = 1) := by
    rw [← hand, Bool.eq_iff_iff, bne_iff_ne, decide_eq_true_iff, ne_eq, ← UInt32.toNat_inj]
    have hcases := Nat.mod_two_eq_zero_or_one (beNat v)
    rw [← hand] at hcases
    rcases hcases with h | h <;> simp [h]
  rw [decodeControlCode, if_neg (not_not_intro h), uint32_of_length h, ok_bind, hbit]

theorem decodeControlCode_isOk_iff :
    (∃ controlCode, decodeControlCode v = .ok controlCode) ↔ v.length = 4 := by
  constructor
  · rintro ⟨controlCode, h⟩
    by_contra hlength
    rw [decodeControlCode, if_pos hlength] at h
    cases h
  · exact fun h => ⟨_, decodeControlCode_of_length h⟩

theorem decodeControlCode_safe (v : Bytes) : Safe (decodeControlCode v) := by
  by_cases h : v.length = 4
  · rw [decodeControlCode_of_length h]
    exact Safe.ok _
  · rw [decodeControlCode, if_pos h]
    exact Safe.returned _

theorem visitReturnPath_isOk_iff (returnPath : SRExtReturnPath) (s : Tlv) :
    (∃ returnPath', visitReturnPath returnPath s.type s.value = .ok returnPath') ↔
      (s.type = rpControlCode → s.value.length = 4) := by
  rw [visitReturnPath, Tlv.onType_isOk_iff (fun _ => decodeControlCode_isOk_iff)
    Tlv.skip_isOk_iff]
  simp

theorem visitReturnPath_safe (returnPath : SRExtReturnPath) (subType : UInt8) (v : Bytes) :
    Safe (visitReturnPath returnPath subType v) :=
  Tlv.onType_safe decodeControlCode_safe Tlv.skip_safe returnPath subType v

theorem visitReturnPath_cases {returnPath returnPath' : SRExtReturnPath} {subType : UInt8}
    (h : visitReturnPath returnPath subType v = .ok returnPath') :
    (subType = rpControlCode ∧ ∃ controlCode, decodeControlCode v = .ok controlCode ∧
        returnPath'.controlCode = some controlCode) ∨
      (subType ≠ rpControlCode ∧ returnPath'.controlCode = returnPath.controlCode) := by
  rcases Tlv.onType_cases h with ⟨htype, controlCode, hdecode, rfl⟩ | ⟨htype, hskip⟩
  · exact Or.inl ⟨htype, controlCode, hdecode, rfl⟩
  · cases hskip
    exact Or.inr ⟨htype, rfl⟩

theorem decodeReturnPath_isOk_iff :
    (∃ returnPath, decodeReturnPath v = .ok returnPath) ↔ ReturnPathValue v :=
  Tlv.scanAll_isOk_iff visitReturnPath_isOk_iff

theorem decodeReturnPath_safe (v : Bytes) : Safe (decodeReturnPath v) :=
  Tlv.scanAll_safe visitReturnPath_safe v _

theorem readsReturnPath_of_decode {returnPath : SRExtReturnPath}
    (h : decodeReturnPath v = .ok returnPath) : ReadsReturnPath v returnPath := by
  obtain ⟨subs, rfl, hfold⟩ := Tlv.of_scanAll_eq_ok h
  refine ⟨subs, rfl, Tlv.rel_foldlM ?_ rfl hfold⟩
  intro returnPath s returnPath' hvisit
  rcases visitReturnPath_cases hvisit with ⟨htype, controlCode, hdecode, hset⟩ | hkept
  · have hlength := decodeControlCode_isOk_iff.mp ⟨_, hdecode⟩
    rw [decodeControlCode_of_length hlength] at hdecode
    cases hdecode
    exact Or.inl ⟨htype, _, rfl, hset⟩
  · exact Or.inr hkept

end ReturnPath

section MaetoContainer

variable {v : Bytes} {container : SRExtMaetoContainer}

theorem decodeTelemetryKey_of_valid (h : Utf8.valid v = true) :
    decodeTelemetryKey v = .ok ⟨v⟩ := by
  rw [decodeTelemetryKey, h]
  rfl

theorem decodeTelemetryKey_isOk_iff :
    (∃ telemetryKey, decodeTelemetryKey v = .ok telemetryKey) ↔ Utf8.valid v = true := by
  constructor
  · rintro ⟨telemetryKey, h⟩
    by_contra hvalid
    rw [Bool.not_eq_true] at hvalid
    rw [decodeTelemetryKey, hvalid] at h
    cases h
  · exact fun h => ⟨_, decodeTelemetryKey_of_valid h⟩

theorem decodeTelemetryKey_safe (v : Bytes) : Safe (decodeTelemetryKey v) := by
  unfold decodeTelemetryKey
  split_ifs
  · exact Safe.returned _
  · exact Safe.ok _

theorem visitMaetoContainer_isOk_iff (container : SRExtMaetoContainer) (s : Tlv) :
    (∃ container', visitMaetoContainer container s.type s.value = .ok container') ↔
      (s.type = mcTelemetryKey → Utf8.valid s.value = true) := by
  rw [visitMaetoContainer, Tlv.onType_isOk_iff (fun _ => decodeTelemetryKey_isOk_iff)
    Tlv.skip_isOk_iff]
  simp

theorem visitMaetoContainer_safe (container : SRExtMaetoContainer) (subType : UInt8) (v : Bytes) :
    Safe (visitMaetoContainer container subType v) :=
  Tlv.onType_safe decodeTelemetryKey_safe Tlv.skip_safe container subType v

theorem visitMaetoContainer_cases {container' : SRExtMaetoContainer} {subType : UInt8}
    (h : visitMaetoContainer container subType v = .ok container') :
    (subType = mcTelemetryKey ∧ ∃ telemetryKey, decodeTelemetryKey v = .ok telemetryKey ∧
        container'.telemetryKey = some telemetryKey) ∨
      (subType ≠ mcTelemetryKey ∧ container'.telemetryKey = container.telemetryKey) := by
  rcases Tlv.onType_cases h with ⟨htype, telemetryKey, hdecode, rfl⟩ | ⟨htype, hskip⟩
  · exact Or.inl ⟨htype, telemetryKey, hdecode, rfl⟩
  · cases hskip
    exact Or.inr ⟨htype, rfl⟩

theorem decodeMaetoContainer_isOk_iff :
    (∃ container, decodeMaetoContainer v = .ok container) ↔ MaetoContainerValue v :=
  Tlv.scanAll_isOk_iff visitMaetoContainer_isOk_iff

theorem decodeMaetoContainer_safe (v : Bytes) : Safe (decodeMaetoContainer v) :=
  Tlv.scanAll_safe visitMaetoContainer_safe v _

theorem telemetryKey_of_decode (h : decodeMaetoContainer v = .ok container) :
    ∃ subs, v = Tlv.concat subs ∧
      Option.Rel (fun s telemetryKey => telemetryKey.key = s.value ∧ Utf8.valid s.value = true)
        (Tlv.lastOf mcTelemetryKey subs) container.telemetryKey := by
  obtain ⟨subs, rfl, hfold⟩ := Tlv.of_scanAll_eq_ok h
  refine ⟨subs, rfl, Tlv.rel_foldlM ?_ rfl hfold⟩
  intro container s container' hvisit
  rcases visitMaetoContainer_cases hvisit with ⟨htype, telemetryKey, hdecode, hset⟩ | hkept
  · have hvalid := decodeTelemetryKey_isOk_iff.mp ⟨_, hdecode⟩
    rw [decodeTelemetryKey_of_valid hvalid] at hdecode
    cases hdecode
    exact Or.inl ⟨htype, _, ⟨rfl, hvalid⟩, hset⟩
  · exact Or.inr hkept

theorem readsMaetoContainer_of_decode
    (h : decodeMaetoContainer v = .ok container) : ReadsMaetoContainer v container := by
  obtain ⟨subs, hv, hlast⟩ := telemetryKey_of_decode h
  exact ⟨subs, hv, Tlv.rel_mono (fun _ _ => And.left) hlast⟩

theorem fits_of_decode (hv : v.length < 256 ^ 2)
    (h : decodeMaetoContainer v = .ok container) : container.Fits ∧ container.KeyValid := by
  obtain ⟨subs, rfl, hlast⟩ := telemetryKey_of_decode h
  constructor
  · intro telemetryKey hsome
    obtain ⟨s, hs, hkey, -⟩ := Tlv.exists_of_rel_lastOf hlast hsome
    -- The record of the key, header and all, lies within the value of the container.
    have hle := Tlv.length_bytes_le_of_mem hs
    rw [Tlv.length_bytes] at hle
    rw [hkey]
    omega
  · intro telemetryKey hsome
    obtain ⟨s, -, hkey, hvalid⟩ := Tlv.exists_of_rel_lastOf hlast hsome
    rw [hkey]
    exact hvalid

end MaetoContainer

section Extensions

theorem visitSRExtensions_isOk_iff (ext : SRExtensions) (t : Tlv) :
    (∃ ext', visitSRExtensions ext t.type t.value = .ok ext') ↔ WellFormedRecord t := by
  have hdistinct : tlvMaetoContainer ≠ tlvReturnPath := by decide
  rw [visitSRExtensions, Tlv.onType_isOk_iff (fun _ => decodeReturnPath_isOk_iff)
    (Tlv.onType_isOk_iff (fun _ => decodeMaetoContainer_isOk_iff) Tlv.skip_isOk_iff),
    WellFormedRecord]
  grind

theorem visitSRExtensions_safe (ext : SRExtensions) (type : UInt8) (v : Bytes) :
    Safe (visitSRExtensions ext type v) :=
  Tlv.onType_safe decodeReturnPath_safe
    (Tlv.onType_safe decodeMaetoContainer_safe Tlv.skip_safe) ext type v

theorem visitSRExtensions_cases {ext ext' : SRExtensions} {type : UInt8} {v : Bytes}
    (h : visitSRExtensions ext type v = .ok ext') :
    (type = tlvReturnPath ∧ ∃ returnPath, decodeReturnPath v = .ok returnPath ∧
        ext' = { ext with returnPath := some returnPath }) ∨
      (type = tlvMaetoContainer ∧ ∃ container, decodeMaetoContainer v = .ok container ∧
        ext' = { ext with maetoContainer := some container }) ∨
      (type ≠ tlvReturnPath ∧ type ≠ tlvMaetoContainer ∧ ext' = ext) := by
  rcases Tlv.onType_cases h with hreturnPath | ⟨hne, hnext⟩
  · exact Or.inl hreturnPath
  · rcases Tlv.onType_cases hnext with hcontainer | ⟨hne', hskip⟩
    · exact Or.inr (Or.inl hcontainer)
    · cases hskip
      exact Or.inr (Or.inr ⟨hne, hne', rfl⟩)

variable {l : List Tlv} {ext : SRExtensions}

theorem returnPath_of_foldlM
    (h : l.foldlM (fun ext t => visitSRExtensions ext t.type t.value) ⟨none, none⟩ = .ok ext) :
    Option.Rel (fun t returnPath => decodeReturnPath t.value = .ok returnPath)
      (Tlv.lastOf tlvReturnPath l) ext.returnPath := by
  refine Tlv.rel_foldlM ?_ rfl h
  intro ext t ext' hvisit
  rcases visitSRExtensions_cases hvisit with ⟨htype, returnPath, hdecode, rfl⟩ |
    ⟨htype, container, hdecode, rfl⟩ | ⟨hne, -, rfl⟩
  · exact Or.inl ⟨htype, returnPath, hdecode, rfl⟩
  · exact Or.inr ⟨by rw [htype]; decide, rfl⟩
  · exact Or.inr ⟨hne, rfl⟩

theorem maetoContainer_of_foldlM
    (h : l.foldlM (fun ext t => visitSRExtensions ext t.type t.value) ⟨none, none⟩ = .ok ext) :
    Option.Rel (fun t container => decodeMaetoContainer t.value = .ok container)
      (Tlv.lastOf tlvMaetoContainer l) ext.maetoContainer := by
  refine Tlv.rel_foldlM ?_ rfl h
  intro ext t ext' hvisit
  rcases visitSRExtensions_cases hvisit with ⟨htype, returnPath, hdecode, rfl⟩ |
    ⟨htype, container, hdecode, rfl⟩ | ⟨-, hne, rfl⟩
  · exact Or.inr ⟨by rw [htype]; decide, rfl⟩
  · exact Or.inl ⟨htype, container, hdecode, rfl⟩
  · exact Or.inr ⟨hne, rfl⟩

theorem readsExtensions_of_foldlM
    (h : l.foldlM (fun ext t => visitSRExtensions ext t.type t.value) ⟨none, none⟩ = .ok ext) :
    ReadsExtensions l ext :=
  ⟨Tlv.rel_mono (fun _ _ => readsReturnPath_of_decode) (returnPath_of_foldlM h),
    Tlv.rel_mono (fun _ _ => readsMaetoContainer_of_decode) (maetoContainer_of_foldlM h)⟩

theorem extensions_fit_of_foldlM
    (h : l.foldlM (fun ext t => visitSRExtensions ext t.type t.value) ⟨none, none⟩ = .ok ext) :
    ext.Fits ∧ ext.KeyValid := by
  have hlast := maetoContainer_of_foldlM h
  constructor
  · intro container hsome
    obtain ⟨t, -, hdecode⟩ := Tlv.exists_of_rel_lastOf hlast hsome
    exact (fits_of_decode t.fits hdecode).1
  · intro container hsome
    obtain ⟨t, -, hdecode⟩ := Tlv.exists_of_rel_lastOf hlast hsome
    exact (fits_of_decode t.fits hdecode).2

theorem decodeSRExtensions_isOk_iff {b : Bytes} :
    (∃ ext, decodeSRExtensions b = .ok ext) ↔
      ∃ l, b = Tlv.concat l ∧ ∀ t ∈ l, WellFormedRecord t := by
  rcases eq_or_ne b [] with rfl | hne
  · exact iff_of_true ⟨none, rfl⟩ ⟨[], rfl, by simp⟩
  · rw [decodeSRExtensions, if_neg (by simpa using hne), isOk_bind_ok,
      Tlv.scanAll_isOk_iff visitSRExtensions_isOk_iff]

theorem decodeSRExtensions_safe (b : Bytes) : Safe (decodeSRExtensions b) := by
  unfold decodeSRExtensions
  split_ifs
  · exact Safe.ok _
  · exact Safe.bind (Tlv.scanAll_safe visitSRExtensions_safe b _) fun _ _ => Safe.ok _

theorem of_decodeSRExtensions_eq_ok {b : Bytes} {ext : Option SRExtensions}
    (h : decodeSRExtensions b = .ok ext) :
    (∃ l, b = Tlv.concat l ∧ Describes l ext) ∧
      (∀ key, keyOf ext = some key → key.length ≤ 65531 ∧ Utf8.valid key = true) := by
  unfold decodeSRExtensions at h
  split_ifs at h with hempty
  · cases h
    exact ⟨⟨[], List.length_eq_zero_iff.mp hempty, rfl⟩, fun _ h => nomatch h⟩
  · obtain ⟨ext, hscan, hext⟩ := bind_eq_ok.mp h
    cases hext
    obtain ⟨l, rfl, hfold⟩ := Tlv.of_scanAll_eq_ok hscan
    have hne : l ≠ [] := by
      rintro rfl
      exact hempty rfl
    obtain ⟨hfits, hvalid⟩ := extensions_fit_of_foldlM hfold
    exact ⟨⟨l, rfl, hne, readsExtensions_of_foldlM hfold⟩, fun key hkey =>
      ⟨fits_iff.mp hfits key hkey, keyValid_iff.mp hvalid key hkey⟩⟩

end Extensions

section Packets

theorem decodeSenderPacket_isOk_iff {b : Bytes} :
    (∃ p, decodeSenderPacket none b = .ok p) ↔ WellFormed b := by
  by_cases hlength : 44 ≤ b.length
  · rw [decodeSenderPacket_eq hlength, isOk_bind_ok, decodeSRExtensions_isOk_iff]
    simp [WellFormed, hlength]
  · refine iff_of_false ?_ fun h => hlength h.1
    rintro ⟨p, hp⟩
    rw [decodeSenderPacket, if_pos (Nat.lt_of_not_le hlength)] at hp
    cases hp

theorem decodeSenderPacket_safe (b : Bytes) : Safe (decodeSenderPacket none b) := by
  by_cases hlength : 44 ≤ b.length
  · rw [decodeSenderPacket_eq hlength]
    exact Safe.bind (decodeSRExtensions_safe _) fun _ _ => Safe.ok _
  · rw [decodeSenderPacket, if_pos (Nat.lt_of_not_le hlength)]
    exact Safe.returned _

theorem decodeSRExtensions_of_packet {b : Bytes} {p : SenderPacket}
    (h : decodeSenderPacket none b = .ok p) :
    decodeSRExtensions (b.drop 44) = .ok p.srExtensions := by
  obtain ⟨hlength, -⟩ := decodeSenderPacket_isOk_iff.mp ⟨p, h⟩
  rw [decodeSenderPacket_eq hlength] at h
  obtain ⟨ext, hext, hp⟩ := bind_eq_ok.mp h
  cases hp
  exact hext

theorem exists_encode {p : SenderPacket}
    (h : ∀ key, keyOf p.srExtensions = some key → key.length ≤ 65531 ∧ Utf8.valid key = true) :
    ∃ b, p.encode none = .ok b ∧
      decodeSenderPacket none b = .ok { p with srExtensions := normalize p.srExtensions } := by
  rw [p.encode_eq]
  rcases appendExtensions_spec p.base p.srExtensions with
    ⟨enc, -, happend, hdecode⟩ | ⟨msg, key, hkey, hlong, -⟩
  · exact ⟨_, happend, p.decode_base (hdecode fun key hkey => (h key hkey).2)⟩
  · have hfits := (h key hkey).1
    omega

/-- The decoder is total, it accepts exactly the grammar, it returns what the last record of
each type says, and what it returns can be encoded and decoded again. -/
theorem decodeSenderPacket_grammar (b : Bytes) :
    Safe (decodeSenderPacket none b) ∧
      ((∃ p, decodeSenderPacket none b = .ok p) ↔ WellFormed b) ∧
      ∀ p, decodeSenderPacket none b = .ok p →
        (∃ l, b.drop 44 = Tlv.concat l ∧ Describes l p.srExtensions) ∧
        ∃ b', p.encode none = .ok b' ∧
          decodeSenderPacket none b' =
            .ok { p with srExtensions := normalize p.srExtensions } := by
  refine ⟨decodeSenderPacket_safe b, decodeSenderPacket_isOk_iff, ?_⟩
  intro p hp
  obtain ⟨hdescribes, hkey⟩ := of_decodeSRExtensions_eq_ok (decodeSRExtensions_of_packet hp)
  exact ⟨hdescribes, exists_encode hkey⟩

def duplicateRecords : Bytes :=
  List.replicate 44 0 ++ [0, tlvReturnPath, 0, 8, 0, rpControlCode, 0, 4, 0, 0, 0, 1] ++
    [0, 200, 0, 1, 255] ++ [0, tlvReturnPath, 0, 0]

theorem decodeSenderPacket_grammar_duplicateRecords :
    ∃ p b, decodeSenderPacket none duplicateRecords = .ok p ∧
      p.srExtensions = some ⟨some ⟨none⟩, none⟩ ∧
      p.encode none = .ok b ∧ decodeSenderPacket none b = .ok p := by
  obtain ⟨-, -, hagain⟩ := decodeSenderPacket_grammar duplicateRecords
  obtain ⟨-, b, hencode, hdecode⟩ := hagain _ rfl
  exact ⟨_, b, rfl, rfl, hencode, hdecode⟩

end Packets

end Maeto.Stamp
