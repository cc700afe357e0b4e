import Maeto.Foundation.GoTime
import Maeto.Foundation.Rescale
import Maeto.Stamp.Packet

/-!
# Timestamps on the wire

A packet has its times in the NTP format: seconds since 1900 and a fraction of a second in
32 bits. A time is written by rounding its nanoseconds down to such a fraction, and read by
rounding the fraction down to nanoseconds. The words are those of the source, 32 and 64 bits
wide; in the era from 1970 to 2036 none of them overflows (`Exact`), and what is read back
is the time that was written or one nanosecond less.
-/

namespace Maeto.Stamp

open Foundation

def ntpUnixOffset : Int64 := 2208988800

def generateNtpTimestamp (t : GoTime) : Timestamp :=
  let seconds := (t.unix + ntpUnixOffset).toUInt64.toUInt32
  let nanos := UInt64.ofNat t.nanosecond
  let fraction := ((nanos <<< 32) / 1000000000).toUInt32
  { seconds, fraction }

def wireNTPTimestampToTime (sec frac : UInt32) : GoTime :=
  let seconds := sec.toUInt64.toInt64 - ntpUnixOffset
  let nanos := ((frac.toUInt64 * 1000000000) >>> 32).toInt64
  GoTime.ofUnix seconds nanos

def onWire (t : GoTime) : GoTime :=
  wireNTPTimestampToTime (generateNtpTimestamp t).seconds (generateNtpTimestamp t).fraction

/-- The times from 1970 on whose seconds since 1900 fit the format. -/
def InEra (t : GoTime) : Prop := 0 ≤ t.unix.toInt ∧ t.unix.toInt + ntpUnixOffset.toInt < 2 ^ 32

/-- No operation on the way overflows, and no conversion cuts anything off. -/
structure Exact (t : GoTime) : Prop where
  seconds : (t.unix + ntpUnixOffset).toInt = t.unix.toInt + ntpUnixOffset.toInt
  seconds_kept : ((generateNtpTimestamp t).seconds.toNat : ℤ) = (t.unix + ntpUnixOffset).toInt
  shifted : (UInt64.ofNat t.nanosecond <<< 32).toNat = t.nanosecond * 2 ^ 32
  fraction : (generateNtpTimestamp t).fraction.toNat = rescale (10 ^ 9) (2 ^ 32) t.nanosecond
  unix : ((generateNtpTimestamp t).seconds.toUInt64.toInt64 - ntpUnixOffset).toInt =
    (generateNtpTimestamp t).seconds.toNat - ntpUnixOffset.toInt
  product : ((generateNtpTimestamp t).fraction.toUInt64 * 1000000000).toNat =
    (generateNtpTimestamp t).fraction.toNat * 10 ^ 9
  nanos : (((generateNtpTimestamp t).fraction.toUInt64 * 1000000000) >>> 32).toInt64.toInt =
    (rescale (2 ^ 32) (10 ^ 9) (generateNtpTimestamp t).fraction.toNat : ℕ)

theorem toInt_ntpUnixOffset : ntpUnixOffset.toInt = 2208988800 := rfl

theorem toInt_toInt64 {a : UInt64} (h : a.toNat < 2 ^ 63) : a.toInt64.toInt = a.toNat := by
  have hbits : a.toInt64.toBitVec = a.toBitVec := UInt64.toBitVec_toInt64 a
  rw [← Int64.toInt_toBitVec, hbits]
  refine BitVec.toInt_eq_toNat_of_lt ?_
  rw [UInt64.toNat_toBitVec]
  omega

theorem toNat_toUInt64 {a : Int64} (h : 0 ≤ a.toInt) : (a.toUInt64.toNat : ℤ) = a.toInt := by
  rw [Int64.toNat_toUInt64_of_le (Int64.le_iff_toInt_le.mpr h)]
  exact Int.toNat_of_nonneg h

section Exact

variable {t : GoTime}

theorem toNat_ofNat_nanosecond (t : GoTime) :
    (UInt64.ofNat t.nanosecond).toNat = t.nanosecond := by
  have hlt := t.nanosecond_lt
  exact UInt64.toNat_ofNat_of_lt' (by rw [UInt64.size]; omega)

theorem toNat_shifted (t : GoTime) :
    (UInt64.ofNat t.nanosecond <<< 32).toNat = t.nanosecond * 2 ^ 32 := by
  have hlt := t.nanosecond_lt
  rw [UInt64.toNat_shiftLeft, toNat_ofNat_nanosecond]
  change t.nanosecond <<< 32 % 2 ^ 64 = _
  rw [Nat.shiftLeft_eq]
  omega

theorem toNat_fraction (t : GoTime) :
    (generateNtpTimestamp t).fraction.toNat = rescale (10 ^ 9) (2 ^ 32) t.nanosecond := by
  have hlt : rescale (10 ^ 9) (2 ^ 32) t.nanosecond < 2 ^ 32 :=
    rescale_lt (by decide) t.nanosecond_lt
  have hquotient : ((UInt64.ofNat t.nanosecond <<< 32) / 1000000000).toNat =
      rescale (10 ^ 9) (2 ^ 32) t.nanosecond := by
    rw [UInt64.toNat_div, toNat_shifted]
    rfl
  simp only [generateNtpTimestamp]
  rw [UInt64.toNat_toUInt32, hquotient, Nat.mod_eq_of_lt hlt]

theorem toNat_product (frac : UInt32) :
    (frac.toUInt64 * 1000000000).toNat = frac.toNat * 10 ^ 9 := by
  have hlt := frac.toNat_lt
  rw [UInt64.toNat_mul, UInt32.toNat_toUInt64]
  change frac.toNat * 1000000000 % 2 ^ 64 = _
  omega

theorem toInt_nanos (frac : UInt32) :
    ((frac.toUInt64 * 1000000000) >>> 32).toInt64.toInt =
      (rescale (2 ^ 32) (10 ^ 9) frac.toNat : ℕ) := by
  have hlt : rescale (2 ^ 32) (10 ^ 9) frac.toNat < 10 ^ 9 :=
    rescale_lt (by decide) frac.toNat_lt
  have hshifted : ((frac.toUInt64 * 1000000000) >>> 32).toNat =
      rescale (2 ^ 32) (10 ^ 9) frac.toNat := by
    rw [UInt64.toNat_shiftRight, toNat_product]
    exact Nat.shiftRight_eq_div_pow _ _
  rw [toInt_toInt64 (by omega), hshifted]

theorem toInt_seconds (h : InEra t) :
    (t.unix + ntpUnixOffset).toInt = t.unix.toInt + ntpUnixOffset.toInt := by
  obtain ⟨hle, hlt⟩ := h
  rw [toInt_ntpUnixOffset] at hlt
  rw [Int64.toInt_add, toInt_ntpUnixOffset]
  exact Int.bmod_eq_of_le_mul_two (by omega) (by omega)

theorem toNat_seconds (h : InEra t) :
    ((generateNtpTimestamp t).seconds.toNat : ℤ) = (t.unix + ntpUnixOffset).toInt := by
  have hsum := toInt_seconds h
  obtain ⟨hle, hlt⟩ := h
  rw [toInt_ntpUnixOffset] at hsum hlt
  have hword := @toNat_toUInt64 (t.unix + ntpUnixOffset) (by omega)
  simp only [generateNtpTimestamp]
  rw [UInt64.toNat_toUInt32, Nat.mod_eq_of_lt (by omega), hword]

theorem toInt_unix (sec : UInt32) :
    (sec.toUInt64.toInt64 - ntpUnixOffset).toInt = sec.toNat - ntpUnixOffset.toInt := by
  have hlt := sec.toNat_lt
  have hword : sec.toUInt64.toInt64.toInt = sec.toNat := by
    rw [toInt_toInt64 (by rw [UInt32.toNat_toUInt64]; omega), UInt32.toNat_toUInt64]
  rw [Int64.toInt_sub, hword, toInt_ntpUnixOffset]
  exact Int.bmod_eq_of_le_mul_two (by omega) (by omega)

theorem exact_of_inEra (h : InEra t) : Exact t where
  seconds := toInt_seconds h
  seconds_kept := toNat_seconds h
  shifted := toNat_shifted t
  fraction := toNat_fraction t
  unix := toInt_unix _
  product := toNat_product _
  nanos := toInt_nanos _

end Exact

section OnWire

variable {t t' : GoTime}

theorem nanos_onWire (h : InEra t) :
    (onWire t).nanos = t.unix.toInt * 10 ^ 9 +
      (rescale (2 ^ 32) (10 ^ 9) (rescale (10 ^ 9) (2 ^ 32) t.nanosecond) : ℕ) := by
  have hlt : rescale (2 ^ 32) (10 ^ 9) (generateNtpTimestamp t).fraction.toNat < 10 ^ 9 :=
    rescale_lt (by decide) (UInt32.toNat_lt _)
  have hnanos := toInt_nanos (generateNtpTimestamp t).fraction
  rw [onWire, wireNTPTimestampToTime, GoTime.nanos_ofUnix (by omega) (by omega), hnanos,
    toInt_unix, toNat_seconds h, toInt_seconds h, toNat_fraction, add_sub_cancel_right]

theorem onWire_cases (h : InEra t) : onWire t = t ∨ (onWire t).nanos = t.nanos - 1 := by
  have hnanos := nanos_onWire h
  rcases @rescale_rescale_cases (10 ^ 9) (2 ^ 32) (by decide) (by decide) t.nanosecond with
    hkept | hlost
  · left
    rw [← GoTime.nanos_inj, hnanos, hkept, GoTime.nanos]
  · right
    rw [hnanos, GoTime.nanos]
    omega

theorem onWire_mono (h : InEra t) (h' : InEra t') (hle : t ≤ t') : onWire t ≤ onWire t' := by
  rw [GoTime.le_def, nanos_onWire h, nanos_onWire h']
  rw [GoTime.le_def, GoTime.nanos, GoTime.nanos] at hle
  have hlt := t.nanosecond_lt
  have hlt' := t'.nanosecond_lt
  have hback := rescale_rescale_le (10 ^ 9) (2 ^ 32) t.nanosecond
  rcases eq_or_lt_of_le (show t.unix.toInt ≤ t'.unix.toInt by omega) with hsec | hsec
  · have hmono := @rescale_mono (2 ^ 32) (10 ^ 9) _ _
      (@rescale_mono (10 ^ 9) (2 ^ 32) t.nanosecond t'.nanosecond (by omega))
    omega
  · -- a later second outweighs the fraction
    omega

theorem sub_onWire (h : InEra t) (h' : InEra t') (hle : t ≤ t') :
    0 ≤ ((onWire t').sub (onWire t)).toInt ∧
      |((onWire t').sub (onWire t)).toInt - (t'.nanos - t.nanos)| ≤ 1 := by
  have hmono := GoTime.le_def.mp (onWire_mono h h' hle)
  have hcases : ∀ {t : GoTime}, InEra t →
      (onWire t).nanos = t.nanos ∨ (onWire t).nanos = t.nanos - 1 := by
    intro t h
    exact (onWire_cases h).imp_left (congrArg GoTime.nanos)
  have hbound : ∀ {t : GoTime}, InEra t → 0 ≤ t.nanos ∧ t.nanos < 2 ^ 32 * 10 ^ 9 := by
    rintro t ⟨hnonneg, hera⟩
    have hlt := t.nanosecond_lt
    rw [toInt_ntpUnixOffset] at hera
    rw [GoTime.nanos]
    omega
  have hexact : ((onWire t').sub (onWire t)).toInt = (onWire t').nanos - (onWire t).nanos := by
    have hc := hcases h
    have hc' := hcases h'
    have hb := hbound h
    have hb' := hbound h'
    refine GoTime.toInt_sub ?_ ?_
    · rw [GoTime.minDuration]
      omega
    · rw [GoTime.maxDuration]
      omega
  rw [hexact, abs_le]
  have hc := hcases h
  have hc' := hcases h'
  omega

end OnWire

/-- In the era, writing and reading a time overflows nowhere and loses at most a nanosecond,
and a delay between two times is not negative and wrong by at most a nanosecond. -/
theorem onWire_close :
    (∀ t, InEra t → Exact t ∧ (onWire t = t ∨ (onWire t).nanos = t.nanos - 1)) ∧
      ∀ t t', InEra t → InEra t' → t ≤ t' →
        onWire t ≤ onWire t' ∧ 0 ≤ ((onWire t').sub (onWire t)).toInt ∧
          |((onWire t').sub (onWire t)).toInt - (t'.nanos - t.nanos)| ≤ 1 := by
  constructor
  · intro t h
    exact ⟨exact_of_inEra h, onWire_cases h⟩
  · intro t t' h h' hle
    exact ⟨onWire_mono h h' hle, sub_onWire h h' hle⟩

/-- The first nanosecond of 1970 is lost, and the delay that it makes is lost with it. -/
theorem first_nanosecond_close :
    (InEra (.ofUnix 0 0) ∧ InEra (.ofUnix 0 1) ∧ GoTime.ofUnix 0 0 ≤ .ofUnix 0 1) ∧
      onWire (.ofUnix 0 1) = .ofUnix 0 0 ∧ onWire (.ofUnix 0 0) ≤ onWire (.ofUnix 0 1) ∧
      |((onWire (.ofUnix 0 1)).sub (onWire (.ofUnix 0 0))).toInt - 1| ≤ 1 := by
  have h : InEra (.ofUnix 0 0) := ⟨by decide, by decide⟩
  have h' : InEra (.ofUnix 0 1) := ⟨by decide, by decide⟩
  have hle : GoTime.ofUnix 0 0 ≤ .ofUnix 0 1 := by
    rw [GoTime.le_def]
    decide
  obtain ⟨hmono, -, hdelay⟩ := onWire_close.2 _ _ h h' hle
  refine ⟨⟨h, h', hle⟩, GoTime.nanos_inj.mp ?_, hmono, hdelay⟩
  decide

end Maeto.Stamp
