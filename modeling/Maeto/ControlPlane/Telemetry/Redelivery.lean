import Maeto.ControlPlane.Telemetry.Collector
import Mathlib.Data.Finset.Interval
import Mathlib.Order.Interval.Finset.Nat

/-!
# Messages that are delivered again

The stream delivers a message again when it was not acknowledged. The averages and the sequence
number are updated before the sample is stored, so a delivery whose sample cannot be stored has
been counted, and is counted again when it comes back.

A copy that comes while the newest probe is not far ahead is told from the gap of its sequence
number and adds nothing to the losses. A copy of an older probe is taken for the first probe of
a sender that has started again, and the probes from there to the newest one count as lost when
the next probe arrives.
-/

namespace Maeto.ControlPlane

open Foundation

namespace TelemetryCollector

variable {log1p : ℚ → ℚ} {t : TelemetryCollector} {d : Delivery}

section Failed

/-- A failed delivery leaves the collector as it was. -/
def NoTrace (log1p : ℚ → ℚ) (t : TelemetryCollector) (d : Delivery) : Prop :=
  (t.handleSTAMP log1p d).1 ≠ none → (t.handleSTAMP log1p d).2 = t

def folded (t : TelemetryCollector) (edgeID : EdgeID) : ℕ := (t.ewmasOf edgeID).latency.n

theorem folded_observe (t : TelemetryCollector) (edgeID : EdgeID) (now : Time)
    (sample : StampSample) : (t.observe edgeID now sample).folded edgeID = t.folded edgeID + 1 := by
  rw [folded, ewmasOf, observe, GoMap.getD_insert, if_pos rfl]
  exact Ewma.n_observe _ _ _

variable {sample : StampSample}

theorem folded_handleSTAMP (h : d.sample = .ok (some sample))
    (log1p : ℚ → ℚ) (t : TelemetryCollector) :
    (t.handleSTAMP log1p d).2.folded d.telemetryKey = t.folded d.telemetryKey + 1 := by
  rw [← folded_observe t d.telemetryKey d.observationTime sample, handleSTAMP, h]
  cases d.insertLinkSample with
  | some err => rfl
  | none => rfl

theorem handleSTAMP_fst (h : d.sample = .ok (some sample))
    (log1p : ℚ → ℚ) (t : TelemetryCollector) :
    (t.handleSTAMP log1p d).1 = d.insertLinkSample := by
  rw [handleSTAMP, h]
  cases d.insertLinkSample with
  | some err => rfl
  | none => rfl

def failures (d : Delivery) (errs : List String) : List Delivery :=
  errs.map fun err => { d with insertLinkSample := some err }

theorem folded_after_failures (h : d.sample = .ok (some sample))
    (log1p : ℚ → ℚ) (t : TelemetryCollector) (errs : List String) :
    (t.after log1p (failures d errs)).folded d.telemetryKey =
      t.folded d.telemetryKey + errs.length := by
  induction errs generalizing t with
  | nil => rfl
  | cons err errs ih =>
    have hhead : (t.handleSTAMP log1p { d with insertLinkSample := some err }).2.folded
        d.telemetryKey = t.folded d.telemetryKey + 1 :=
      @folded_handleSTAMP { d with insertLinkSample := some err } sample h log1p t
    rw [failures, List.map_cons, after, List.foldl_cons]
    refine (ih _).trans ?_
    rw [hhead, List.length_cons]
    omega

theorem folded_after_concat (h : d.sample = .ok (some sample))
    (log1p : ℚ → ℚ) (t : TelemetryCollector) (ds : List Delivery) :
    (t.after log1p (ds ++ [d])).folded d.telemetryKey =
      (t.after log1p ds).folded d.telemetryKey + 1 := by
  rw [after, List.foldl_append]
  exact folded_handleSTAMP h log1p _

/-- A failed delivery leaves no trace exactly when it is not the storing of its sample that
fails. A sample that is stored in the end is in the averages once exactly when it was stored at
the first delivery. -/
theorem noTrace_iff (log1p : ℚ → ℚ) (t : TelemetryCollector) (d : Delivery) :
    (NoTrace log1p t d ↔ ∀ sample, d.sample = .ok (some sample) → d.insertLinkSample = none) ∧
      ∀ sample, d.sample = .ok (some sample) → d.insertLinkSample = none → ∀ errs,
        ((t.after log1p (failures d errs ++ [d])).ewmasOf d.telemetryKey =
          (t.after log1p [d]).ewmasOf d.telemetryKey ↔ errs = []) := by
  refine ⟨⟨?_, ?_⟩, ?_⟩
  · intro htrace sample hsample
    by_contra hfails
    rw [NoTrace, handleSTAMP_fst hsample] at htrace
    have hfolded := folded_handleSTAMP hsample log1p t
    rw [htrace hfails] at hfolded
    omega
  · intro hstored herr
    cases hsample : d.sample with
    | error err => rw [handleSTAMP, hsample]
    | ok result =>
      cases result with
      | none => rw [handleSTAMP, hsample]
      | some sample =>
        rw [handleSTAMP_fst hsample, hstored sample hsample] at herr
        exact absurd rfl herr
  · intro sample hsample hstored errs
    constructor
    · intro hsame
      have hfolded := congrArg (fun e => e.latency.n) hsame
      change (t.after log1p (failures d errs ++ [d])).folded d.telemetryKey =
        (t.after log1p ([] ++ [d])).folded d.telemetryKey at hfolded
      rw [folded_after_concat hsample, folded_after_concat hsample,
        folded_after_failures hsample] at hfolded
      rw [← List.length_eq_zero_iff]
      exact Nat.add_left_cancel (Nat.add_right_cancel hfolded)
    · rintro rfl
      rfl

def probe (seq : UInt32) (insertLinkSample : Option String) : Delivery where
  payload := .ok
    { isSender := false
      senderSequence := some seq
      senderTimestamp := some (GoTime.ofUnix 1700000000 0)
      receiveTimestamp := some (GoTime.ofUnix 1700000000 10000000) }
  telemetryKey := "a:b-c:d"
  observationTime := 1
  seenTime := 1
  insertLinkSample

def fresh : TelemetryCollector where
  costGraph := { graph := ∅, byID := ∅, lastSeen := ∅, convergedEdges := ∅, startedAt := 0 }
  ewmas := ∅
  stampLastSeq := ∅

theorem exists_sample_probe (seq : UInt32) (insertLinkSample : Option String) :
    ∃ sample, (probe seq insertLinkSample).sample = .ok (some sample) ∧ sample.seq = seq :=
  ⟨_, rfl, rfl⟩

def garbled : Delivery :=
  { probe 7 none with payload := .error "unexpected end of JSON input" }

/-- A message that cannot be decoded fails and leaves nothing to undo. A sample is in the average
once when it is stored at once, and not when it is stored at the second delivery. -/
theorem noTrace_garbled :
    (fresh.handleSTAMP (fun x => x) garbled).1 ≠ none ∧ NoTrace (fun x => x) fresh garbled ∧
      (fresh.after (fun x => x) (failures (probe 7 none) [] ++ [probe 7 none])).ewmasOf "a:b-c:d" =
        (fresh.after (fun x => x) [probe 7 none]).ewmasOf "a:b-c:d" ∧
      (fresh.after (fun x => x) (failures (probe 7 none) ["connection refused"] ++
          [probe 7 none])).ewmasOf "a:b-c:d" ≠
        (fresh.after (fun x => x) [probe 7 none]).ewmasOf "a:b-c:d" := by
  have hiff := noTrace_iff (fun x => x) fresh (probe 7 none)
  obtain ⟨sample, hsample, -⟩ := exists_sample_probe 7 none
  refine ⟨nofun, (noTrace_iff (fun x => x) fresh garbled).1.mpr nofun,
    (hiff.2 sample hsample rfl []).mpr rfl, fun hsame => ?_⟩
  cases (hiff.2 sample hsample rfl ["connection refused"]).mp hsame

/-- The sample could not be stored and is in the average of the delays, whatever the logarithm
is. -/
theorem trace_of_probe : ¬ ∃ log1p, NoTrace log1p fresh (probe 7 (some "connection refused")) := by
  rintro ⟨log1p, htrace⟩
  obtain ⟨sample, hsample, -⟩ := exists_sample_probe 7 (some "connection refused")
  have hfolded := folded_handleSTAMP hsample log1p fresh
  rw [NoTrace, handleSTAMP_fst hsample] at htrace
  rw [htrace nofun] at hfolded
  omega

end Failed

end TelemetryCollector

section Sequences

def charged : Option UInt32 → List UInt32 → ℕ
  | _, [] => 0
  | lastSeq, seq :: seqs =>
    (readSequence lastSeq seq).1.count 1 + charged ((readSequence lastSeq seq).2.or lastSeq) seqs

def withPast : List UInt32 → List UInt32 → List (List UInt32 × UInt32)
  | _, [] => []
  | past, seq :: seqs => (past, seq) :: withPast (past ++ [seq]) seqs

/-- The probes of one run of a sender: a probe comes for the first time after all that were
sent before it, or it was delivered already. -/
def OneSenderRun (seqs : List UInt32) : Prop :=
  ∀ e ∈ withPast [] seqs, (∀ x ∈ e.1, x < e.2) ∨ e.2 ∈ e.1

-- The type of the sequence numbers is finite, and the instance that Mathlib has for the inner
-- quantifier would run through all of it.
instance (seqs : List UInt32) : Decidable (OneSenderRun seqs) :=
  decidable_of_iff ((withPast [] seqs).all fun e => e.1.all (· < e.2) || e.1.contains e.2) (by
    simp only [OneSenderRun, List.all_eq_true, Bool.or_eq_true, List.contains_iff_mem,
      decide_eq_true_eq])

/-- No delivery is far behind the newest one. -/
def InWindow (seqs : List UInt32) : Prop :=
  ∀ e ∈ withPast [] seqs, ∀ x ∈ e.1, x.toNat ≤ e.2.toNat + stampReorderTolerance.toNat

instance (seqs : List UInt32) : Decidable (InWindow seqs) :=
  decidable_of_iff ((withPast [] seqs).all fun e => e.1.all fun x =>
      x.toNat ≤ e.2.toNat + stampReorderTolerance.toNat) (by
    simp only [InWindow, List.all_eq_true, decide_eq_true_eq])

def highest (seqs : List UInt32) : ℕ := (seqs.map UInt32.toNat).foldl max 0

def neverDelivered (seqs : List UInt32) : ℕ :=
  (Finset.range (highest seqs) \ (seqs.map UInt32.toNat).toFinset).card

theorem highest_concat (seqs : List UInt32) (seq : UInt32) :
    highest (seqs ++ [seq]) = max (highest seqs) seq.toNat := by
  rw [highest, List.map_append, List.foldl_append]
  rfl

variable {seqs : List UInt32} {seq lastSeq : UInt32}

theorem le_highest (h : seq ∈ seqs) :
    seq.toNat ≤ highest seqs := by
  induction seqs using List.reverseRecOn with
  | nil => cases h
  | append_singleton seqs last ih =>
    rw [highest_concat]
    rcases List.mem_append.mp h with hmem | hlast
    · exact (ih hmem).trans (le_max_left _ _)
    · rw [List.mem_singleton.mp hlast]
      exact le_max_right _ _

theorem neverDelivered_concat_of_mem (h : seq ∈ seqs) :
    highest (seqs ++ [seq]) = highest seqs ∧
      neverDelivered (seqs ++ [seq]) = neverDelivered seqs := by
  have hhighest : highest (seqs ++ [seq]) = highest seqs := by
    rw [highest_concat, max_eq_left (le_highest h)]
  have hmem : seq.toNat ∈ (seqs.map UInt32.toNat).toFinset := by
    rw [List.mem_toFinset]
    exact List.mem_map_of_mem h
  refine ⟨hhighest, ?_⟩
  rw [neverDelivered, hhighest, List.map_append, List.toFinset_append, List.map_singleton,
    List.toFinset_cons, List.toFinset_nil, insert_empty_eq, Finset.union_eq_left.mpr]
  · rfl
  · exact Finset.singleton_subset_iff.mpr hmem

theorem neverDelivered_concat_of_lt (h : highest seqs < seq.toNat) :
    highest (seqs ++ [seq]) = seq.toNat ∧
      neverDelivered seqs + (seq.toNat - highest seqs - 1) ≤ neverDelivered (seqs ++ [seq]) := by
  have hhighest : highest (seqs ++ [seq]) = seq.toNat := by
    rw [highest_concat, max_eq_right h.le]
  refine ⟨hhighest, ?_⟩
  have hdisjoint : Disjoint (Finset.range (highest seqs) \ (seqs.map UInt32.toNat).toFinset)
      (Finset.Ioo (highest seqs) seq.toNat) := by
    rw [Finset.disjoint_left]
    intro x hx hx'
    have hlt := Finset.mem_range.mp (Finset.mem_sdiff.mp hx).1
    exact absurd (Finset.mem_Ioo.mp hx').1 hlt.not_gt
  rw [neverDelivered, ← Nat.card_Ioo, ← Finset.card_union_of_disjoint hdisjoint, neverDelivered,
    hhighest]
  refine Finset.card_le_card ?_
  intro x hx
  rw [Finset.mem_sdiff, Finset.mem_range, List.map_append, List.mem_toFinset, List.mem_append]
  rcases Finset.mem_union.mp hx with hold | hgap
  · obtain ⟨hlt, hnot⟩ := Finset.mem_sdiff.mp hold
    have hlt := Finset.mem_range.mp hlt
    refine ⟨hlt.trans h, not_or.mpr ⟨fun hmem => hnot (List.mem_toFinset.mpr hmem), ?_⟩⟩
    rw [List.map_singleton, List.mem_singleton]
    omega
  · obtain ⟨hgt, hlt⟩ := Finset.mem_Ioo.mp hgap
    refine ⟨hlt, not_or.mpr ⟨?_, ?_⟩⟩
    · intro hmem
      obtain ⟨y, hy, rfl⟩ := List.mem_map.mp hmem
      exact absurd (le_highest hy) hgt.not_ge
    · rw [List.map_singleton, List.mem_singleton]
      exact hlt.ne

theorem readSequence_of_le (hle : seq.toNat ≤ lastSeq.toNat)
    (hwindow : lastSeq.toNat ≤ seq.toNat + stampReorderTolerance.toNat) :
    readSequence (some lastSeq) seq = ([], none) := by
  have hsub : (lastSeq - seq).toNat = lastSeq.toNat - seq.toNat :=
    UInt32.toNat_sub_of_le _ _ (UInt32.le_iff_toNat_le.mpr hle)
  rw [readSequence, if_neg, if_neg]
  · rw [UInt32.lt_iff_toNat_lt, hsub]
    omega
  · rw [UInt32.lt_iff_toNat_lt]
    omega

theorem toNat_min_le (a b : UInt32) : (min a b).toNat ≤ a.toNat := by
  change (if a ≤ b then a else b).toNat ≤ a.toNat
  split_ifs with h
  · exact le_rfl
  · exact (UInt32.lt_iff_toNat_lt.mp (UInt32.not_le.mp h)).le

theorem readSequence_of_lt (hlt : lastSeq.toNat < seq.toNat) :
    (readSequence (some lastSeq) seq).1.count 1 ≤ seq.toNat - lastSeq.toNat - 1 ∧
      (readSequence (some lastSeq) seq).2 = some seq := by
  have hle : lastSeq ≤ seq := UInt32.le_iff_toNat_le.mpr hlt.le
  have hsub : (seq - lastSeq).toNat = seq.toNat - lastSeq.toNat := UInt32.toNat_sub_of_le _ _ hle
  have hone : (1 : UInt32) ≤ seq - lastSeq := by
    rw [UInt32.le_iff_toNat_le, hsub]
    exact Nat.sub_pos_of_lt hlt
  have hgap : (seq - lastSeq - 1).toNat = seq.toNat - lastSeq.toNat - 1 := by
    rw [UInt32.toNat_sub_of_le _ _ hone, hsub]
    rfl
  rw [readSequence, if_pos (UInt32.lt_iff_toNat_lt.mpr hlt)]
  refine ⟨?_, rfl⟩
  rw [List.count_append, List.count_replicate_self, ← hgap]
  exact toNat_min_le _ _

theorem charged_add_neverDelivered_le {past : List UInt32}
    (hrun : ∀ e ∈ withPast past seqs, (∀ x ∈ e.1, x < e.2) ∨ e.2 ∈ e.1)
    (hwindow : ∀ e ∈ withPast past seqs, ∀ x ∈ e.1,
      x.toNat ≤ e.2.toNat + stampReorderTolerance.toNat)
    (hlast : lastSeq ∈ past) (hhighest : lastSeq.toNat = highest past) :
    charged (some lastSeq) seqs + neverDelivered past ≤ neverDelivered (past ++ seqs) := by
  induction seqs generalizing past lastSeq with
  | nil =>
    rw [List.append_nil, charged, Nat.zero_add]
  | cons seq seqs ih =>
    rw [withPast] at hrun hwindow
    obtain ⟨hrun, hruns⟩ := List.forall_mem_cons.mp hrun
    obtain ⟨hwindow, hwindows⟩ := List.forall_mem_cons.mp hwindow
    rw [charged, ← List.singleton_append, ← List.append_assoc]
    rcases hrun with hnew | (hcopy : seq ∈ past)
    · have hlt : lastSeq.toNat < seq.toNat := UInt32.lt_iff_toNat_lt.mp (hnew lastSeq hlast)
      obtain ⟨hcount, hnext⟩ := readSequence_of_lt hlt
      obtain ⟨hhighest', hleft⟩ := neverDelivered_concat_of_lt (hhighest ▸ hlt)
      have hrest := ih hruns hwindows (List.mem_append_right _ List.mem_cons_self) hhighest'.symm
      rw [hnext, Option.some_or]
      rw [← hhighest] at hleft
      omega
    · have hle : seq.toNat ≤ lastSeq.toNat := hhighest ▸ le_highest hcopy
      obtain ⟨hhighest', hleft⟩ := neverDelivered_concat_of_mem hcopy
      have hrest := ih hruns hwindows (List.mem_append_left _ hlast)
        (hhighest.trans hhighest'.symm)
      rw [readSequence_of_le hle (hwindow lastSeq hlast), Option.none_or, List.count_nil]
      rw [hleft] at hrest
      omega

theorem charged_le_neverDelivered (hrun : OneSenderRun seqs)
    (hwindow : InWindow seqs) : charged none seqs ≤ neverDelivered seqs := by
  cases seqs with
  | nil => exact Nat.zero_le _
  | cons seq seqs =>
    -- The first probe charges nothing, whatever its number is.
    have hfirst : charged none (seq :: seqs) = charged (some seq) seqs := Nat.zero_add _
    have hrest := charged_add_neverDelivered_le (List.forall_mem_cons.mp hrun).2
      (List.forall_mem_cons.mp hwindow).2 (List.mem_cons_self (a := seq))
      (show seq.toNat = highest [seq] from (Nat.zero_max _).symm)
    rw [List.nil_append, List.singleton_append] at hrest
    omega

end Sequences

namespace TelemetryCollector

section Losses

def seqOf (edgeID : EdgeID) (d : Delivery) : Option UInt32 :=
  match d.sample with
  | .ok (some sample) => if d.telemetryKey = edgeID then some sample.seq else none
  | _ => none

def lossValues (t : TelemetryCollector) (edgeID : EdgeID) (d : Delivery) : List ℚ :=
  match seqOf edgeID d with
  | some seq => (readSequence (t.stampLastSeq.lookup edgeID) seq).1
  | none => []

def lost (log1p : ℚ → ℚ) (edgeID : EdgeID) : TelemetryCollector → List Delivery → ℕ
  | _, [] => 0
  | t, d :: ds =>
    (t.lossValues edgeID d).count 1 + lost log1p edgeID (t.handleSTAMP log1p d).2 ds

/-- After a delivery the collector has observed its sample, if any, for the averages and the
sequence numbers. -/
theorem handleSTAMP_cases (log1p : ℚ → ℚ) (t : TelemetryCollector) (d : Delivery) :
    (∃ sample, d.sample = .ok (some sample) ∧
      (t.handleSTAMP log1p d).2.ewmas =
        (t.observe d.telemetryKey d.observationTime sample).ewmas ∧
      (t.handleSTAMP log1p d).2.stampLastSeq =
        (t.observe d.telemetryKey d.observationTime sample).stampLastSeq) ∨
      (∀ sample, d.sample ≠ .ok (some sample)) ∧ (t.handleSTAMP log1p d).2 = t := by
  unfold handleSTAMP
  cases d.sample with
  | error err => exact Or.inr ⟨nofun, rfl⟩
  | ok result =>
    cases result with
    | none => exact Or.inr ⟨nofun, rfl⟩
    | some sample =>
      cases d.insertLinkSample with
      | none => exact Or.inl ⟨sample, rfl, rfl, rfl⟩
      | some err => exact Or.inl ⟨sample, rfl, rfl, rfl⟩

theorem seqOf_eq_none (h : ∀ sample, d.sample ≠ .ok (some sample)) (edgeID : EdgeID) :
    seqOf edgeID d = none := by
  unfold seqOf
  split
  · next sample hsample => exact absurd hsample (h sample)
  · rfl

theorem lookup_handleSTAMP (log1p : ℚ → ℚ) (t : TelemetryCollector) (edgeID : EdgeID)
    (d : Delivery) :
    (t.handleSTAMP log1p d).2.stampLastSeq.lookup edgeID =
      match seqOf edgeID d with
      | some seq =>
        (readSequence (t.stampLastSeq.lookup edgeID) seq).2.or (t.stampLastSeq.lookup edgeID)
      | none => t.stampLastSeq.lookup edgeID := by
  rcases t.handleSTAMP_cases log1p d with ⟨sample, hsample, -, hlast⟩ | ⟨hnone, hsame⟩
  · rw [hlast, seqOf, hsample, observe]
    by_cases hedge : d.telemetryKey = edgeID
    · subst hedge
      simp only [if_true]
      cases (readSequence (t.stampLastSeq.lookup d.telemetryKey) sample.seq).2 with
      | none => rfl
      | some seq => exact AList.lookup_insert _
    · simp only [hedge, if_false]
      cases (readSequence (t.stampLastSeq.lookup d.telemetryKey) sample.seq).2 with
      | none => rfl
      | some seq => exact AList.lookup_insert_ne (Ne.symm hedge)
  · rw [hsame, seqOf_eq_none hnone]

theorem lost_eq_charged (edgeID : EdgeID) (t : TelemetryCollector) (ds : List Delivery) :
    lost log1p edgeID t ds =
      charged (t.stampLastSeq.lookup edgeID) (ds.filterMap (seqOf edgeID)) := by
  induction ds generalizing t with
  | nil => rfl
  | cons d ds ih =>
    rw [lost, ih, lookup_handleSTAMP, lossValues, List.filterMap_cons]
    cases seqOf edgeID d with
    | none => exact Nat.zero_add _
    | some seq => rfl

theorem filterMap_seqOf_probe (seqs : List UInt32) :
    (seqs.map fun seq => probe seq none).filterMap (seqOf "a:b-c:d") = seqs := by
  induction seqs with
  | nil => rfl
  | cons seq seqs ih =>
    obtain ⟨sample, hsample, hseq⟩ := exists_sample_probe seq none
    have hsome : seqOf "a:b-c:d" (probe seq none) = some seq := by
      rw [seqOf, hsample, ← hseq]
      rfl
    rw [List.map_cons, List.filterMap_cons_some hsome, ih]

end Losses

end TelemetryCollector

end Maeto.ControlPlane
