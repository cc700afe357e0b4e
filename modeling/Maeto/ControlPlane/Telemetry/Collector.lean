import Maeto.ControlPlane.CostGraph
import Maeto.Foundation.GoTime

/-!
# The telemetry collector

A reflector reports each probe that reached it. The collector folds the delay of the probe
into one average of its link and the probes that were lost, as the gap in the sequence numbers
shows, into another. It then stores the sample, and only after that the averages become costs
of the link.

What comes from outside is part of a delivery: the result that was decoded from the message,
the times at which the clock is read, and the outcome of the transaction that stores the
sample. The rows that are stored are not represented, since nothing here reads them.
-/

namespace Maeto.ControlPlane

open Foundation

section Averages

def zeroTime : Time := -62135596800 * 10 ^ 9

structure EwmaConfig where
  alpha : ℚ
  epsilon : ℚ
  deriving DecidableEq

structure Ewma where
  config : EwmaConfig
  mean : ℚ
  variance : ℚ
  n : ℕ
  lastSeen : Time
  deriving DecidableEq

def Ewma.ofConfig (config : EwmaConfig) : Ewma where
  config
  mean := 0
  variance := 0
  n := 0
  lastSeen := zeroTime

def Ewma.observe (ts : Time) (e : Ewma) (value : ℚ) : Ewma :=
  if e.n = 0 then { e with mean := value, variance := 0, n := 1, lastSeen := ts }
  else
    let delta := value - e.mean
    { e with
      mean := e.mean + e.config.alpha * delta
      variance := (1 - e.config.alpha) * (e.variance + e.config.alpha * delta * delta)
      n := e.n + 1
      lastSeen := ts }

theorem Ewma.n_observe (ts : Time) (e : Ewma) (value : ℚ) : (e.observe ts value).n = e.n + 1 := by
  unfold observe
  split_ifs with h
  · rw [h]
  · rfl

structure StampEwmas where
  latency : Ewma
  loss : Ewma
  deriving DecidableEq

def StampEwmas.new : StampEwmas where
  latency := .ofConfig { alpha := 3 / 10, epsilon := 1 / 10 ^ 6 }
  loss := .ofConfig { alpha := 1 / 20, epsilon := 1 / 10 ^ 6 }

end Averages

section Results

structure STAMPResult where
  isSender : Bool
  senderSequence : Option UInt32
  senderTimestamp : Option GoTime
  receiveTimestamp : Option GoTime

structure Delivery where
  payload : Except String STAMPResult
  telemetryKey : EdgeID
  observationTime : Time
  seenTime : Time
  insertLinkSample : Option String

structure StampSample where
  seq : UInt32
  durationMs : ℚ

def Delivery.sample (d : Delivery) : Except String (Option StampSample) :=
  match d.payload with
  | .error err => .error err
  | .ok stampPayload =>
    if stampPayload.isSender then .ok none
    else
      match stampPayload.senderSequence, stampPayload.senderTimestamp,
        stampPayload.receiveTimestamp with
      | some seq, some sent, some received =>
        let duration := received.sub sent
        if duration < 0 then .error "duration is negative"
        else .ok (some { seq, durationMs := ((duration / 1000).toInt : ℚ) / 1000 })
      | _, _, _ => .error "stamp result is missing sequence or timestamps"

end Results

section Sequence

def stampReorderTolerance : UInt32 := 64

def stampMaxLostPerSample : UInt32 := 200

def readSequence (lastSeq : Option UInt32) (seq : UInt32) : List ℚ × Option UInt32 :=
  match lastSeq with
  | none => ([0], some seq)
  | some lastSeq =>
    if lastSeq < seq then
      (List.replicate (min (seq - lastSeq - 1) stampMaxLostPerSample).toNat 1 ++ [0], some seq)
    else if stampReorderTolerance < lastSeq - seq then
      -- The sender is taken to have started again from zero.
      ([0], some seq)
    else ([], none)

end Sequence

section Collector

structure TelemetryCollector where
  costGraph : CostGraph
  ewmas : GoMap EdgeID StampEwmas
  stampLastSeq : GoMap EdgeID UInt32

def ewmaWarmupSamples : ℕ := 120

def costJitterReferenceMs : ℚ := 5

def costLossReference : ℚ := 1 / 100

def normalizeDelayJitterLoss (log1p : ℚ → ℚ) (delayMs jitterVarianceMs2 loss delayReferenceMs
    jitterReferenceMs lossReference : ℚ) : ℚ × ℚ × ℚ :=
  let lossRefLog := -log1p (-lossReference)
  (delayMs / delayReferenceMs, jitterVarianceMs2 / (jitterReferenceMs * jitterReferenceMs),
    -log1p (-min loss (999999 / 10 ^ 6)) / lossRefLog)

namespace TelemetryCollector

def ewmasOf (t : TelemetryCollector) (edgeID : EdgeID) : StampEwmas :=
  t.ewmas.getD edgeID .new

def observe (t : TelemetryCollector) (edgeID : EdgeID) (observationTime : Time)
    (sample : StampSample) : TelemetryCollector :=
  let ewmas := t.ewmasOf edgeID
  let (losses, lastSeq) := readSequence (t.stampLastSeq.lookup edgeID) sample.seq
  { t with
    ewmas := t.ewmas.insert edgeID
      { latency := ewmas.latency.observe observationTime sample.durationMs
        loss := losses.foldl (Ewma.observe observationTime) ewmas.loss }
    stampLastSeq :=
      match lastSeq with
      | some seq => t.stampLastSeq.insert edgeID seq
      | none => t.stampLastSeq }

def updateCosts (log1p : ℚ → ℚ) (t : TelemetryCollector) (edgeID : EdgeID) (seenTime : Time) :
    TelemetryCollector :=
  let ewmas := t.ewmasOf edgeID
  let (delayNormalized, jitterNormalized, lossNormalized) :=
    normalizeDelayJitterLoss log1p ewmas.latency.mean ewmas.latency.variance ewmas.loss.mean
      costDelayReferenceMs costJitterReferenceMs costLossReference
  let costGraph :=
    if ewmaWarmupSamples < ewmas.latency.n then t.costGraph.markEdgeConverged edgeID
    else t.costGraph
  { t with
    costGraph := (((costGraph.updateCost edgeID .latency delayNormalized).updateCost edgeID
      .jitter jitterNormalized).updateCost edgeID .loss lossNormalized).markSeen edgeID seenTime }

def handleSTAMP (log1p : ℚ → ℚ) (t : TelemetryCollector) (d : Delivery) :
    Option String × TelemetryCollector :=
  match d.sample with
  | .error err => (some err, t)
  | .ok none => (none, t)
  | .ok (some sample) =>
    let t := t.observe d.telemetryKey d.observationTime sample
    match d.insertLinkSample with
    | some err => (some err, t)
    | none => (none, t.updateCosts log1p d.telemetryKey d.seenTime)

def after (log1p : ℚ → ℚ) (t : TelemetryCollector) (ds : List Delivery) : TelemetryCollector :=
  ds.foldl (fun t d => (t.handleSTAMP log1p d).2) t

end TelemetryCollector

end Collector

end Maeto.ControlPlane
