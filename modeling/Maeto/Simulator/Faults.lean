import Maeto.Foundation.Result
import Maeto.Simulator.Connected

/-!
# What a visitor may do to a link

A request is a JSON object. Its numbers are converted with Python's `float()` and
checked by two comparisons against the limits, so that a value that is not a number
goes through (`number_between_iff`). `checkManual` looks at the faults that are
recorded for the other links.
-/

namespace Maeto.Simulator

open Foundation Result

inductive Json
  | null
  | bool (b : Bool)
  | int (n : ℤ)
  | float (x : PyFloat)
  | str (s : String)
  | array (items : List Json)
  | object (fields : List (String × Json))

def Json.truthy : Json → Bool
  | .null => false
  | .bool b => b
  | .int n => n ≠ 0
  | .float x => x.truthy
  | .str s => s ≠ ""
  | .array items => !items.isEmpty
  | .object fields => !fields.isEmpty

def Json.blank : Json → Bool
  | .null => true
  | .str s => s = ""
  | _ => false

abbrev Params := GoMap String Json

def given (params : Params) (key : String) : Option Json :=
  (params.lookup key).filter fun value => !value.blank

inductive Raised
  | fault (text : String)
  | unknown (what : String) (name : Json)
  | shaping (text : String)
  | value (text : String)
  | cancelled
  | internal

namespace Limits

def delayMs : ℕ := 200
def jitterMs : ℕ := 50
def lossPct : ℕ := 30
def rateMbps : ℕ := 1000
def ttlMinS : ℕ := 15
def ttlMaxS : ℕ := 600
def ttlDefaultS : ℕ := 120
def manualFaults : ℕ := 4
def manualDown : ℕ := 2

end Limits

structure Impairment where
  delayMs : PyFloat := 0
  jitterMs : PyFloat := 0
  lossPct : PyFloat := 0
  rateMbps : Option PyFloat := none
  deriving DecidableEq

inductive Kind
  | impair | down
  deriving DecidableEq

inductive Source
  | manual
  | story (name : String)
  deriving DecidableEq

structure Fault where
  link : String
  kind : Kind
  source : Source
  expiresAt : PyFloat
  direction : Direction := .both
  impairment : Impairment := {}
  deriving DecidableEq

abbrev Faults := GoMap String Fault

section Parsing

-- what `float()` reads from a text, if it is a number
variable (float : String → Option PyFloat)

def floatOverflow : ℕ := 2 ^ 1024 - 2 ^ 970

def toFloat : Json → Except Raised PyFloat
  | .bool b => .ok (if b then 1 else 0)
  | .int n => if n.natAbs < floatOverflow then .ok (.finite n) else .error .internal
  | .float x => .ok x
  | .str s => (float s).elim (.error (.value "could not convert string to float")) .ok
  | _ => .error (.value "float() argument must be a string or a real number")

def number (params : Params) (key : String) (high : ℕ) (low : ℕ := 0) : Except Raised PyFloat :=
  match given params key with
  | none => .ok 0
  | some value => do
      let value ← (toFloat float value).mapError fun
        | .value _ => .fault s!"{key} must be a number"
        | e => e
      if value.lt (.finite low) || PyFloat.lt (.finite high) value then
        .error (.fault s!"{key} must be between {low} and {high}")
      else .ok value

def impairment (params : Params) : Except Raised Impairment := do
  let rate ← number float params "rate_mbps" Limits.rateMbps
  let delay ← number float params "delay_ms" Limits.delayMs
  let jitter ← number float params "jitter_ms" Limits.jitterMs
  let loss ← number float params "loss_pct" Limits.lossPct
  let parsed : Impairment :=
    { delayMs := delay, jitterMs := jitter, lossPct := loss,
      rateMbps := if rate.truthy then some rate else none }
  if parsed.rateMbps.any (PyFloat.lt · 1) then .error (.fault "rate_mbps must be at least 1")
  else if !(delay.truthy || jitter.truthy || loss.truthy || parsed.rateMbps.any PyFloat.truthy) then
    .error (.fault "set at least one of delay, jitter, loss or rate")
  else .ok parsed

def ttl (params : Params) : Except Raised PyFloat :=
  match given params "ttl_s" with
  | none => .ok (.finite Limits.ttlDefaultS)
  | some _ => number float params "ttl_s" Limits.ttlMaxS Limits.ttlMinS

end Parsing

def direction (params : Params) : Except Raised Direction :=
  match (params.lookup "direction").filter Json.truthy with
  | none => .ok .both
  | some (.str s) =>
    if s = "both" then .ok .both
    else if s = "ab" then .ok .ab
    else if s = "ba" then .ok .ba
    else .error (.fault "direction must be one of both, ab, ba")
  | some _ => .error (.fault "direction must be one of both, ab, ba")

def manual (faults : Faults) : List Fault :=
  ((faults.range .listed).map Prod.snd).filter (·.source = .manual)

def down (faults : Faults) : List String :=
  ((faults.range .listed).filter fun entry => entry.2.kind = .down).map Prod.fst

def checkManual (lab : Lab) (faults : Faults) (link : String) (kind : Kind) :
    Except Raised Unit :=
  let others := faults.erase link
  if Limits.manualFaults ≤ (manual others).length then
    .error (.fault s!"at most {Limits.manualFaults} links can be faulted at once; clear one first")
  else match kind with
    | .impair => .ok ()
    | .down =>
      if Limits.manualDown ≤ ((manual others).filter (·.kind = .down)).length then
        .error (.fault s!"at most {Limits.manualDown} links can be down at once")
      else match connected lab (down others ++ [link]) with
        | none => .error .internal
        | some false => .error (.fault "taking this link down would cut a PoP off the fabric")
        | some true => .ok ()

theorem checkManual_eq_ok {lab : Lab} {faults : Faults} {link : String} {kind : Kind}
    (h : checkManual lab faults link kind = .ok ()) :
    (manual (faults.erase link)).length < Limits.manualFaults ∧
      (kind = .down →
        ((manual (faults.erase link)).filter (·.kind = .down)).length < Limits.manualDown ∧
          connected lab (down (faults.erase link) ++ [link]) = some true) := by
  unfold checkManual at h
  dsimp only at h
  by_cases hmanual : Limits.manualFaults ≤ (manual (faults.erase link)).length
  · rw [if_pos hmanual] at h
    cases h
  · rw [if_neg hmanual] at h
    refine ⟨not_le.mp hmanual, ?_⟩
    rintro rfl
    dsimp only at h
    split_ifs at h with hcuts
    refine ⟨not_le.mp hcuts, ?_⟩
    split at h
    · cases h
    · cases h
    · next hconnected => exact hconnected

/-! ### What the parsed values can be -/

section Bounds

variable {float : String → Option PyFloat} {params : Params}

/-- The request has a value under the key that converts to not a number. -/
def GivesNan (float : String → Option PyFloat) (params : Params) (key : String) : Prop :=
  ∃ value, given params key = some value ∧ toFloat float value = .ok .nan

variable {key : String} {x : PyFloat} {imp : Impairment}

theorem number_eq_ok {high low : ℕ} (h : number float params key high low = .ok x) :
    (given params key = none ∧ x = 0) ∨
      ∃ value, given params key = some value ∧ toFloat float value = .ok x ∧
        PyFloat.lt x (.finite low) = false ∧ PyFloat.lt (.finite high) x = false := by
  unfold number at h
  cases hgiven : given params key with
  | none =>
    rw [hgiven] at h
    exact Or.inl ⟨rfl, (Except.ok.inj h).symm⟩
  | some value =>
    rw [hgiven] at h
    obtain ⟨y, hy, h⟩ := bind_eq_ok.mp h
    split_ifs at h with hrange
    cases h
    rw [Bool.or_eq_true, not_or, Bool.not_eq_true, Bool.not_eq_true] at hrange
    exact Or.inr ⟨value, rfl, mapError_eq_ok.mp hy, hrange.1, hrange.2⟩

theorem number_eq_nan {high low : ℕ}
    (h : number float params key high low = .ok x) (hnan : GivesNan float params key) :
    x = .nan := by
  obtain ⟨value, hsome, hnan⟩ := hnan
  rcases number_eq_ok h with ⟨hgiven, -⟩ | ⟨value', hgiven, hvalue, -⟩
  · rw [hgiven] at hsome
    cases hsome
  · rw [hgiven] at hsome
    cases hsome
    exact Except.ok.inj (hvalue.symm.trans hnan)

theorem number_between_iff {high low : ℕ}
    (h : number float params key high low = .ok x) (hlow : low = 0 ∨ given params key ≠ none) :
    PyFloat.Between low high x ↔ ¬ GivesNan float params key := by
  constructor
  · intro hin hnan
    rw [number_eq_nan h hnan] at hin
    exact PyFloat.not_between_nan _ _ hin
  · intro hnot
    rcases number_eq_ok h with ⟨hgiven, rfl⟩ | ⟨value, hgiven, hvalue, hl, hh⟩
    · have hzero : low = 0 := hlow.resolve_right fun hne => hne hgiven
      exact PyFloat.between_finite.mpr ⟨by simp [hzero], by simp⟩
    · refine (PyFloat.between_iff_ne_nan hl hh).mpr ?_
      rintro rfl
      exact hnot ⟨value, hgiven, hvalue⟩

theorem ttl_eq_nan (h : ttl float params = .ok x)
    (hnan : GivesNan float params "ttl_s") : x = .nan := by
  have ⟨value, hgiven, _⟩ := hnan
  simp only [ttl, hgiven] at h
  exact number_eq_nan h hnan

theorem ttl_between (h : ttl float params = .ok x) (hnan : ¬ GivesNan float params "ttl_s") :
    PyFloat.Between Limits.ttlMinS Limits.ttlMaxS x := by
  unfold ttl at h
  cases hgiven : given params "ttl_s" with
  | none =>
    rw [hgiven] at h
    cases h
    decide
  | some value =>
    simp only [hgiven] at h
    exact (number_between_iff h (Or.inr (by simp [hgiven]))).mpr hnan

/-- The bounds on what is done to a link. -/
def Impairment.Bounded (imp : Impairment) : Prop :=
  PyFloat.Between 0 Limits.delayMs imp.delayMs ∧ PyFloat.Between 0 Limits.jitterMs imp.jitterMs ∧
    PyFloat.Between 0 Limits.lossPct imp.lossPct ∧
    ∀ rate ∈ imp.rateMbps, PyFloat.Between 1 Limits.rateMbps rate

instance (imp : Impairment) : Decidable imp.Bounded :=
  inferInstanceAs (Decidable (_ ∧ _ ∧ _ ∧ _))

def impairmentKeys : List String := ["rate_mbps", "delay_ms", "jitter_ms", "loss_pct"]

theorem impairment_eq_ok (h : impairment float params = .ok imp) :
    ∃ rate, number float params "rate_mbps" Limits.rateMbps = .ok rate ∧
      number float params "delay_ms" Limits.delayMs = .ok imp.delayMs ∧
      number float params "jitter_ms" Limits.jitterMs = .ok imp.jitterMs ∧
      number float params "loss_pct" Limits.lossPct = .ok imp.lossPct ∧
      imp.rateMbps = (if rate.truthy then some rate else none) ∧
      imp.rateMbps.any (PyFloat.lt · 1) = false := by
  unfold impairment at h
  obtain ⟨rate, hrate, h⟩ := bind_eq_ok.mp h
  obtain ⟨delay, hdelay, h⟩ := bind_eq_ok.mp h
  obtain ⟨jitter, hjitter, h⟩ := bind_eq_ok.mp h
  obtain ⟨loss, hloss, h⟩ := bind_eq_ok.mp h
  generalize hkept : (if rate.truthy then some rate else none) = kept at h
  dsimp only at h
  split_ifs at h with hlow
  cases h
  exact ⟨rate, hrate, hdelay, hjitter, hloss, hkept.symm, Bool.not_eq_true _ ▸ hlow⟩

/-- A rate that is kept is in its range unless it is not a number: one below the range
is either no rate or refused. -/
theorem rate_between_iff {rate : PyFloat}
    (h : number float params "rate_mbps" Limits.rateMbps = .ok rate)
    (hlow : (if rate.truthy then some rate else none).any (PyFloat.lt · 1) = false) :
    (∀ r ∈ (if rate.truthy then some rate else none), PyFloat.Between 1 Limits.rateMbps r) ↔
      ¬ GivesNan float params "rate_mbps" := by
  rw [← number_between_iff h (Or.inl rfl)]
  cases hrate : rate.truthy with
  | false =>
    have hzero : rate = 0 := by simpa [PyFloat.truthy] using hrate
    simp [hzero, PyFloat.between_finite, show (0 : PyFloat) = .finite 0 from rfl]
  | true =>
    simp only [hrate, if_true, Option.any_some, Option.mem_some_iff, forall_eq'] at hlow ⊢
    constructor
    · intro hin
      cases rate with
      | finite q =>
        rw [PyFloat.between_finite] at hin ⊢
        exact ⟨le_trans (by norm_num) hin.1, hin.2⟩
      | inf => exact absurd hin (by decide)
      | negInf => exact absurd hin (by decide)
      | nan => exact absurd hin (PyFloat.not_between_nan _ _)
    · intro hin
      refine (PyFloat.between_iff_ne_nan hlow ?_).mpr ?_
      · rcases number_eq_ok h with ⟨-, rfl⟩ | ⟨-, -, -, -, hh⟩
        · exact absurd hrate (by decide)
        · exact hh
      · exact PyFloat.ne_nan_of_le hin.2

theorem rate_finite (h : impairment float params = .ok imp)
    (hnan : ¬ GivesNan float params "rate_mbps") :
    ∀ rate ∈ imp.rateMbps, ∃ q, rate = .finite q := by
  obtain ⟨rate, hrate, -, -, -, hkept, -⟩ := impairment_eq_ok h
  intro r hr
  rw [hkept] at hr
  split_ifs at hr
  · cases hr
    obtain ⟨q, hq, -⟩ := ((number_between_iff hrate (Or.inl rfl)).mpr hnan).exists_finite
    exact ⟨q, hq⟩
  · cases hr

theorem impairment_bounded_iff (h : impairment float params = .ok imp) :
    imp.Bounded ↔ ∀ key ∈ impairmentKeys, ¬ GivesNan float params key := by
  obtain ⟨rate, hrate, hdelay, hjitter, hloss, hkept, hlow⟩ := impairment_eq_ok h
  have hb := number_between_iff hdelay (Or.inl rfl)
  have hj := number_between_iff hjitter (Or.inl rfl)
  have hl := number_between_iff hloss (Or.inl rfl)
  have hr := rate_between_iff hrate (hkept ▸ hlow)
  simp only [Nat.cast_zero] at hb hj hl
  unfold Impairment.Bounded
  rw [hkept, hb, hj, hl, hr]
  simp only [impairmentKeys, List.forall_mem_cons]
  tauto

end Bounds

end Maeto.Simulator
