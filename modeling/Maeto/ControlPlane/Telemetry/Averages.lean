import Maeto.ControlPlane.Measured
import Maeto.ControlPlane.Telemetry.Redelivery
import Maeto.Foundation.Weighted

/-!
# What the averages are averages of

An average that has observed samples is the mean of a weighting of them, and its variance is
the variance of that weighting (`Ewma.Describes`). The first sample has all of the weight, and
every later one takes its share from those before it.

The delays that the collector observes are not negative, and the losses are zeros and ones. So
the costs that it writes are not negative, which the path search relies on. Of the logarithm in
the cost of a loss only its sign is used.
-/

namespace Maeto.ControlPlane

open Foundation GoMap

section Weights

def sampleWeights {α : ℚ} (h : 0 ≤ α ∧ α ≤ 1) (first : ℚ) (rest : List ℚ) : Weighting ℚ :=
  rest.foldl (fun W x => W.blend h x) (.single first)

theorem values_foldl_blend {α : ℚ} (h : 0 ≤ α ∧ α ≤ 1) (rest : List ℚ) (W : Weighting ℚ) :
    (rest.foldl (fun W x => W.blend h x) W).values = W.values ++ rest := by
  induction rest generalizing W with
  | nil => rw [List.foldl_nil, List.append_nil]
  | cons x rest ih =>
    rw [List.foldl_cons, ih, Weighting.values_blend, List.append_cons W.values x rest]

@[simp] theorem values_sampleWeights {α : ℚ} (h : 0 ≤ α ∧ α ≤ 1) (first : ℚ) (rest : List ℚ) :
    (sampleWeights h first rest).values = first :: rest :=
  values_foldl_blend h rest (.single first)

namespace Ewma

/-- The average is that of the weighted samples. -/
structure Describes (e : Ewma) (W : Weighting ℚ) : Prop where
  n_ne_zero : e.n ≠ 0
  mean_eq : e.mean = W.mean
  variance_eq : e.variance = W.variance

@[simp] theorem observe_config (ts : Time) (e : Ewma) (value : ℚ) :
    (e.observe ts value).config = e.config := by
  unfold observe
  split_ifs
  · rfl
  · rfl

variable {e : Ewma}

theorem describes_first (h : e.n = 0) (ts : Time) (value : ℚ) :
    (e.observe ts value).Describes (.single value) := by
  unfold observe
  rw [if_pos h]
  refine ⟨one_ne_zero, ?_, ?_⟩
  · rw [Weighting.mean, Weighting.expect_single, id]
  · rw [Weighting.variance, Weighting.mean, Weighting.expect_single, Weighting.expect_single, id,
      sub_self]

theorem Describes.observe {W : Weighting ℚ} (h : e.Describes W)
    (hα : 0 ≤ e.config.alpha ∧ e.config.alpha ≤ 1) (ts : Time) (value : ℚ) :
    (e.observe ts value).Describes (W.blend hα value) := by
  unfold Ewma.observe
  rw [if_neg h.n_ne_zero]
  refine ⟨e.n.succ_ne_zero, ?_, ?_⟩
  · rw [Weighting.mean_blend, h.mean_eq]
  · rw [Weighting.variance_blend, h.mean_eq, h.variance_eq]

theorem Describes.foldl_observe {α : ℚ} (hα : 0 ≤ α ∧ α ≤ 1) (samples : List (Time × ℚ))
    {W : Weighting ℚ} (h : e.Describes W) (hconfig : e.config.alpha = α) :
    (samples.foldl (fun e s => e.observe s.1 s.2) e).Describes
      ((samples.map Prod.snd).foldl (fun W x => W.blend hα x) W) := by
  induction samples generalizing e W with
  | nil => exact h
  | cons s samples ih =>
    subst hconfig
    exact ih (h.observe hα s.1 s.2) (by rw [observe_config])

theorem describes_samples {config : EwmaConfig} (hα : 0 ≤ config.alpha ∧ config.alpha ≤ 1)
    (first : Time × ℚ) (rest : List (Time × ℚ)) :
    ((first :: rest).foldl (fun e s => e.observe s.1 s.2) (Ewma.ofConfig config)).Describes
      (sampleWeights hα first.2 (rest.map Prod.snd)) := by
  rw [List.foldl_cons]
  exact (describes_first rfl first.1 first.2).foldl_observe hα rest (by rw [observe_config]; rfl)

end Ewma

end Weights

section Bounds

structure Ewma.Averages (P : ℚ → Prop) (e : Ewma) : Prop where
  alpha : 0 ≤ e.config.alpha ∧ e.config.alpha ≤ 1
  samples : (e.n = 0 ∧ e.mean = 0 ∧ e.variance = 0) ∨
    ∃ W : Weighting ℚ, e.Describes W ∧ ∀ x ∈ W.values, P x

theorem Ewma.averages_ofConfig {config : EwmaConfig}
    (hα : 0 ≤ config.alpha ∧ config.alpha ≤ 1) (P : ℚ → Prop) :
    (Ewma.ofConfig config).Averages P :=
  ⟨hα, Or.inl ⟨rfl, rfl, rfl⟩⟩

variable {P : ℚ → Prop} {e : Ewma}

theorem Ewma.Averages.observe (h : e.Averages P) (ts : Time) {value : ℚ} (hvalue : P value) :
    (e.observe ts value).Averages P := by
  refine ⟨by rw [observe_config]; exact h.alpha, Or.inr ?_⟩
  rcases h.samples with ⟨hn, -⟩ | ⟨W, hW, hall⟩
  · exact ⟨_, describes_first hn ts value, List.forall_mem_singleton.mpr hvalue⟩
  · refine ⟨_, hW.observe h.alpha ts value, ?_⟩
    rw [Weighting.values_blend]
    exact List.forall_mem_append.mpr ⟨hall, List.forall_mem_singleton.mpr hvalue⟩

theorem Ewma.Averages.foldl_observe (h : e.Averages P) (ts : Time) {values : List ℚ}
    (hvalues : ∀ x ∈ values, P x) : (values.foldl (Ewma.observe ts) e).Averages P :=
  List.foldlRecOn (motive := fun e : Ewma => e.Averages P) values _ h
    fun _ he x hx => he.observe ts (hvalues x hx)

theorem Ewma.Averages.variance_nonneg (h : e.Averages P) : 0 ≤ e.variance := by
  rcases h.samples with ⟨-, -, hvariance⟩ | ⟨W, hW, -⟩
  · exact hvariance.ge
  · rw [hW.variance_eq]
    exact W.variance_nonneg

theorem Ewma.Averages.mean_nonneg (h : e.Averages fun x => 0 ≤ x) : 0 ≤ e.mean := by
  rcases h.samples with ⟨-, hmean, -⟩ | ⟨W, hW, hall⟩
  · exact hmean.ge
  · rw [hW.mean_eq, ← W.expect_const 0]
    exact W.expect_mono hall

theorem Ewma.Averages.mean_mem (h : e.Averages fun x => 0 ≤ x ∧ x ≤ 1) :
    0 ≤ e.mean ∧ e.mean ≤ 1 := by
  rcases h.samples with ⟨-, hmean, -⟩ | ⟨W, hW, hall⟩
  · rw [hmean]
    exact ⟨le_rfl, zero_le_one⟩
  · rw [hW.mean_eq]
    exact ⟨W.le_mean hall, W.mean_le hall⟩

end Bounds

section Collector

/-- What is used of `math.Log1p`: the logarithm of a number up to one is not positive. -/
def Log1pNonpos (log1p : ℚ → ℚ) : Prop := ∀ x, -1 < x → x ≤ 0 → log1p x ≤ 0

theorem lossNormalized_nonneg {log1p : ℚ → ℚ} (hlog : Log1pNonpos log1p) {loss : ℚ}
    (hloss : 0 ≤ loss) :
    0 ≤ -log1p (-min loss (999999 / 10 ^ 6)) / -log1p (-costLossReference) := by
  have hreference : log1p (-costLossReference) ≤ 0 :=
    hlog _ (by norm_num [costLossReference]) (by norm_num [costLossReference])
  have hmin : min loss (999999 / 10 ^ 6) < 1 := (min_le_right _ _).trans_lt (by norm_num)
  have hnonneg : 0 ≤ min loss (999999 / 10 ^ 6) := le_min hloss (by norm_num)
  have hvalue : log1p (-min loss (999999 / 10 ^ 6)) ≤ 0 := hlog _ (by linarith) (by linarith)
  exact div_nonneg (neg_nonneg.mpr hvalue) (neg_nonneg.mpr hreference)

/-- The averages of delays and of losses. -/
structure StampEwmas.Measured (s : StampEwmas) : Prop where
  latency : s.latency.Averages fun x => 0 ≤ x
  loss : s.loss.Averages fun x => 0 ≤ x ∧ x ≤ 1

theorem StampEwmas.measured_new : StampEwmas.new.Measured where
  latency := Ewma.averages_ofConfig (by norm_num) _
  loss := Ewma.averages_ofConfig (by norm_num) _

theorem Delivery.durationMs_nonneg {d : Delivery} {sample : StampSample}
    (h : d.sample = .ok (some sample)) : 0 ≤ sample.durationMs := by
  unfold Delivery.sample at h
  split at h
  · cases h
  · split_ifs at h
    · cases h
    · split at h
      · dsimp only at h
        split_ifs at h with hnegative
        cases h
        have hduration := Int64.le_iff_toInt_le.mp (Int64.not_lt.mp hnegative)
        have hmicros := Int.tdiv_nonneg hduration (show (0 : ℤ) ≤ (1000 : Int64).toInt by decide)
        rw [← Int64.toInt_div_of_ne_right _ (1000 : Int64) (by decide)] at hmicros
        exact div_nonneg (Int.cast_nonneg hmicros) (by norm_num)
      · cases h

theorem mem_readSequence {lastSeq : Option UInt32} {seq : UInt32} {x : ℚ}
    (h : x ∈ (readSequence lastSeq seq).1) : 0 ≤ x ∧ x ≤ 1 := by
  have hbit : x = 0 ∨ x = 1 := by
    unfold readSequence at h
    split at h
    · exact Or.inl (List.mem_singleton.mp h)
    · split_ifs at h
      · rcases List.mem_append.mp h with hlost | hzero
        · exact Or.inr (List.eq_of_mem_replicate hlost)
        · exact Or.inl (List.mem_singleton.mp hzero)
      · exact Or.inl (List.mem_singleton.mp h)
      · cases h
  rcases hbit with rfl | rfl
  · exact ⟨le_rfl, zero_le_one⟩
  · exact ⟨zero_le_one, le_rfl⟩

namespace TelemetryCollector

/-- What holds after any deliveries. -/
structure Measured (t : TelemetryCollector) : Prop where
  ewmas : ∀ id s, t.ewmas.lookup id = some s → s.Measured
  costs : t.costGraph.costs.Measured

variable {t : TelemetryCollector}

theorem Measured.ewmasOf (h : t.Measured) (id : EdgeID) : (t.ewmasOf id).Measured := by
  rw [TelemetryCollector.ewmasOf, GoMap.getD]
  cases hs : t.ewmas.lookup id with
  | none => exact StampEwmas.measured_new
  | some s => exact h.ewmas id s hs

theorem Measured.observe (h : t.Measured) (id : EdgeID) (ts : Time) {sample : StampSample}
    (hsample : 0 ≤ sample.durationMs) : (t.observe id ts sample).Measured where
  ewmas := forall_lookup_insert h.ewmas
    ⟨(h.ewmasOf id).latency.observe ts hsample,
      (h.ewmasOf id).loss.foldl_observe ts fun _ hx => mem_readSequence hx⟩
  costs := h.costs

def normalized (log1p : ℚ → ℚ) (t : TelemetryCollector) (id : EdgeID) : ℚ × ℚ × ℚ :=
  normalizeDelayJitterLoss log1p (t.ewmasOf id).latency.mean (t.ewmasOf id).latency.variance
    (t.ewmasOf id).loss.mean costDelayReferenceMs costJitterReferenceMs costLossReference

variable {log1p : ℚ → ℚ}

theorem Measured.normalized_nonneg (hlog : Log1pNonpos log1p) (h : t.Measured)
    (id : EdgeID) : 0 ≤ (t.normalized log1p id).1 ∧ 0 ≤ (t.normalized log1p id).2.1 ∧
      0 ≤ (t.normalized log1p id).2.2 := by
  have hewmas := h.ewmasOf id
  refine ⟨?_, ?_, ?_⟩
  · exact div_nonneg hewmas.latency.mean_nonneg (by norm_num [costDelayReferenceMs])
  · exact div_nonneg hewmas.latency.variance_nonneg (by norm_num [costJitterReferenceMs])
  · exact lossNormalized_nonneg hlog hewmas.loss.mean_mem.1

theorem Measured.updateCosts (hlog : Log1pNonpos log1p) (h : t.Measured)
    (id : EdgeID) (seenTime : Time) : (t.updateCosts log1p id seenTime).Measured where
  ewmas := h.ewmas
  costs := by
    obtain ⟨hdelay, hjitter, hloss⟩ := h.normalized_nonneg hlog id
    have hmarked : (if ewmaWarmupSamples < (t.ewmasOf id).latency.n then
        t.costGraph.markEdgeConverged id else t.costGraph).costs.Measured := by
      split_ifs
      · exact h.costs
      · exact h.costs
    exact ((hmarked.updateCost id (WithTop.coe_nonneg.mpr hdelay)
      fun _ => WithTop.coe_ne_top).updateCost id (WithTop.coe_nonneg.mpr hjitter)
        fun _ => WithTop.coe_ne_top).updateCost id (WithTop.coe_nonneg.mpr hloss)
          fun _ => WithTop.coe_ne_top

theorem Measured.handleSTAMP (hlog : Log1pNonpos log1p) (h : t.Measured)
    (d : Delivery) : (t.handleSTAMP log1p d).2.Measured := by
  unfold TelemetryCollector.handleSTAMP
  cases hsample : d.sample with
  | error err => exact h
  | ok result =>
    cases result with
    | none => exact h
    | some sample =>
      have hobserved := h.observe d.telemetryKey d.observationTime
        (Delivery.durationMs_nonneg hsample)
      cases d.insertLinkSample with
      | some err => exact hobserved
      | none => exact hobserved.updateCosts hlog d.telemetryKey d.seenTime

theorem Measured.after (hlog : Log1pNonpos log1p) (h : t.Measured)
    (ds : List Delivery) : (t.after log1p ds).Measured :=
  List.foldlRecOn (motive := TelemetryCollector.Measured) ds _ h
    fun _ ht d _ => ht.handleSTAMP hlog d

end TelemetryCollector

/-- The average of samples is their weighted mean, with the variance of the same weights, and
within the bounds of the samples. So in every run of a collector that starts with no averages
the average of the losses is between zero and one, and no cost that is written is negative. -/
theorem ewma_weighted (config : EwmaConfig) (hpos : 0 < config.alpha) (hle : config.alpha ≤ 1)
    (first : Time × ℚ) (rest : List (Time × ℚ)) (log1p : ℚ → ℚ) (hlog : Log1pNonpos log1p)
    (t : TelemetryCollector) (hnew : t.ewmas = ∅) (hcosts : t.costGraph.costs.Measured)
    (ds : List Delivery) :
    let e := (first :: rest).foldl (fun e s => e.observe s.1 s.2) (Ewma.ofConfig config)
    let W := sampleWeights ⟨hpos.le, hle⟩ first.2 (rest.map Prod.snd)
    let values := first.2 :: rest.map Prod.snd
    let smallest := values.min (List.cons_ne_nil _ _)
    let largest := values.max (List.cons_ne_nil _ _)
    (W.values = values ∧ e.mean = W.mean ∧ e.variance = W.expect (· ^ 2) - W.mean ^ 2 ∧
      smallest ≤ e.mean ∧ e.mean ≤ largest ∧
        0 ≤ e.variance ∧ e.variance ≤ (largest - smallest) ^ 2 / 4) ∧
      (∀ id, 0 ≤ ((t.after log1p ds).ewmasOf id).loss.mean ∧
        ((t.after log1p ds).ewmasOf id).loss.mean ≤ 1 ∧
        0 ≤ ((t.after log1p ds).normalized log1p id).1 ∧
        0 ≤ ((t.after log1p ds).normalized log1p id).2.1 ∧
        0 ≤ ((t.after log1p ds).normalized log1p id).2.2) ∧
      (t.after log1p ds).costGraph.costs.Measured := by
  intro e W values smallest largest
  have hW : e.Describes W := Ewma.describes_samples ⟨hpos.le, hle⟩ first rest
  have hvalues : W.values = values := values_sampleWeights _ _ _
  have hbounds : ∀ x ∈ W.values, smallest ≤ x ∧ x ≤ largest := by
    intro x hx
    rw [hvalues] at hx
    exact ⟨List.min_le_of_mem hx, List.le_max_of_mem hx⟩
  have hstart : t.Measured := by
    refine ⟨?_, hcosts⟩
    rw [hnew]
    exact forall_lookup_empty _
  have hend := hstart.after hlog ds
  refine ⟨⟨hvalues, hW.mean_eq, hW.variance_eq, ?_, ?_, ?_, ?_⟩, ?_, hend.costs⟩
  · rw [hW.mean_eq]
    exact W.le_mean hbounds
  · rw [hW.mean_eq]
    exact W.mean_le hbounds
  · rw [hW.variance_eq]
    exact W.variance_nonneg
  · rw [hW.variance_eq]
    exact W.variance_le hbounds
  · intro id
    obtain ⟨hzero, hone⟩ := (hend.ewmasOf id).loss.mean_mem
    exact ⟨hzero, hone, hend.normalized_nonneg hlog id⟩

def probedKey : CostGraphEdge := { id := "a:b-c:d", fromNode := "a", toNode := "c" }

def oneLink : TelemetryCollector where
  costGraph :=
    { graph := (∅ : Costs).insert probedKey ((∅ : Cost).insert .latency 5)
      byID := (∅ : GoMap EdgeID CostGraphEdge).insert "a:b-c:d" probedKey
      lastSeen := ∅
      convergedEdges := ∅
      startedAt := 0 }
  ewmas := ∅
  stampLastSeq := ∅

theorem oneLink_measured : oneLink.costGraph.costs.Measured := by
  have hfive : (0 : ExtCost) ≤ 5 := by decide
  refine forall_lookup_singleton ?_
  exact Cost.measured_empty.insert hfive fun _ => by decide

/-- Two samples, and a run in which a probe of the link is lost: the latency of ten milliseconds
is the new cost of the link. -/
theorem ewma_weighted_probes :
    ([(0, 10), (1, 20)].foldl (fun e s => e.observe s.1 s.2)
      (Ewma.ofConfig { alpha := 3 / 10, epsilon := 1 })).mean = 13 ∧
    let costs := (oneLink.after (fun x => x) [TelemetryCollector.probe 7 none,
      TelemetryCollector.probe 9 none]).costGraph.costs
    (costs.lookup probedKey).bind (fun cost => cost.lookup .latency) = some 1 ∧
      costs.Measured := by
  obtain ⟨⟨-, hmean, -⟩, -, hcosts⟩ := ewma_weighted { alpha := 3 / 10, epsilon := 1 }
    (by norm_num) (by norm_num) (0, 10) [(1, 20)] (fun x => x) (fun _ _ h => h)
    oneLink rfl oneLink_measured
    [TelemetryCollector.probe 7 none, TelemetryCollector.probe 9 none]
  refine ⟨hmean.trans ?_, ?_, hcosts⟩
  · decide +kernel
  · decide +kernel

end Collector

end Maeto.ControlPlane
