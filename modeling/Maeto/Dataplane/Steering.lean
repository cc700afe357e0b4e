import Maeto.Dataplane.Effects
import Maeto.Dataplane.Tables

/-!
# Steering by policy rules

Every colour of a tenant with a prefix to reach has a rule: packets that come in over
the VRF of the tenant and carry the mark of the colour are looked up in the table of
the colour. All these rules have the same priority, so the kernel tries them in the
order in which they were installed, which is the order of a loop over a map. The rule
of a colour whose mark is zero has no mark to match, so it takes the packets of every
colour that is installed after it.
-/

namespace Maeto.Dataplane

open Foundation Netip Nodesync GoMap AList Resource

section Lookup

structure Packet where
  iif : String
  mark : UInt32
  src : Addr

def Network.contains (n : Network) (a : Addr) : Bool :=
  (Prefix.prefixFrom a (n.net.bits.getD 0)).masked = n.net

def KernelRule.matches (r : KernelRule) (pkt : Packet) : Bool :=
  (r.iif = "" || r.iif = pkt.iif) && (r.mark = 0 || r.mark = pkt.mark) &&
    r.src.all fun n => n.contains pkt.src

def firstRule (rules : List KernelRule) (pkt : Packet) : Option KernelRule :=
  (rules.filter fun r => r.matches pkt).minOn? KernelRule.priority

theorem firstRule_eq_find? {rules : List KernelRule} {priority : ℤ}
    (h : ∀ r ∈ rules, r.priority = priority) (pkt : Packet) :
    firstRule rules pkt = rules.find? fun r => r.matches pkt := by
  have hfirst : ∀ (l : List KernelRule) (r : KernelRule), r.priority = priority →
      (∀ r' ∈ l, r'.priority = priority) → l.foldl (minOn KernelRule.priority) r = r := by
    intro l r hr hl
    induction l with
    | nil => rfl
    | cons r' l ih =>
      have hkeep : minOn KernelRule.priority r r' = r := by
        simp [minOn, hr, hl r' (by simp)]
      rw [List.foldl_cons, hkeep]
      exact ih fun r'' hr'' => hl r'' (List.mem_cons_of_mem _ hr'')
  have hall : ∀ r ∈ rules.filter fun r => r.matches pkt, r.priority = priority :=
    fun r hr => h r (List.mem_of_mem_filter hr)
  rw [firstRule, ← List.head?_filter]
  cases hmatch : rules.filter fun r => r.matches pkt with
  | nil => rfl
  | cons r l =>
    rw [hmatch] at hall
    rw [List.minOn?, hfirst l r (hall r (by simp)) fun r' hr' => hall r' (by simp [hr'])]
    rfl

end Lookup

section Install

theorem foldl_perform_rules (rs : List Resource) (st : Kernel × List Failure) :
    ((rs.map (addCall linuxNetlink)).foldl perform st).1.rules =
      (rs.filterMap Resource.kernelRule).foldl addRule st.1.rules := by
  induction rs generalizing st with
  | nil => rfl
  | cons r rs ih =>
    have hfirst : (perform st (addCall linuxNetlink r)).1.rules =
        r.kernelRule.elim st.1.rules (addRule st.1.rules) := by
      rw [← (addCall_step _ _).rules_eq]
      unfold perform
      split <;> simp_all
    rw [List.map_cons, List.foldl_cons, ih, hfirst, List.filterMap_cons]
    cases r.kernelRule <;> rfl

theorem kernelRule_eq_none {r : Resource} (h : r.kind ≠ .rule) : r.kernelRule = none := by
  cases r with
  | rule r => exact absurd rfl h
  | _ => rfl

theorem filterMap_byKinds (rs : List Resource) :
    (byKinds additionOrder rs).filterMap Resource.kernelRule =
      rs.filterMap Resource.kernelRule := by
  have hkind : ∀ kind : Kind, (rs.filter fun r => r.kind = kind).filterMap Resource.kernelRule =
      if kind = .rule then rs.filterMap Resource.kernelRule else [] := by
    intro kind
    rw [List.filterMap_filter]
    split_ifs with h
    · congr 1
      funext r
      by_cases hr : r.kind = .rule
      · simp [h, hr]
      · simp [h, hr, kernelRule_eq_none hr]
    · rw [List.filterMap_eq_nil_iff]
      intro r _
      by_cases hr : r.kind = kind
      · simp [hr, kernelRule_eq_none (hr ▸ h)]
      · simp [hr]
  simp [byKinds, additionOrder, hkind]

/-- The rules that are there after the resources of a map were added to a kernel
without rules, as far as a first match is concerned. -/
theorem find?_foldl_addRule (l acc : List KernelRule) (protocol : ℕ)
    (hl : ∀ r ∈ l, r.protocol = protocol) (hacc : ∀ r ∈ acc, r.protocol = protocol)
    (p : KernelRule → Bool) : (l.foldl addRule acc).find? p = (acc ++ l).find? p := by
  induction l generalizing acc with
  | nil => simp
  | cons r l ih =>
    have hr := hl r List.mem_cons_self
    have hl' : ∀ r' ∈ l, r'.protocol = protocol := fun r' h => hl r' (List.mem_cons_of_mem _ h)
    rw [List.foldl_cons, addRule]
    split_ifs with hany
    · rw [ih acc hl' hacc, List.find?_append, List.find?_append, List.find?_cons]
      obtain ⟨r', hmem, hsame⟩ := List.any_eq_true.mp hany
      have heq : r' = r := by
        obtain ⟨h₁, h₂, h₃, h₄, h₅⟩ := of_decide_eq_true hsame
        have h₆ := (hacc r' hmem).trans hr.symm
        cases r
        cases r'
        simp_all
      rw [heq] at hmem
      by_cases hp : p r
      · obtain ⟨a, ha⟩ := Option.isSome_iff_exists.mp (List.find?_isSome.mpr ⟨r, hmem, hp⟩)
        simp [ha]
      · simp [hp]
    · rw [ih (acc ++ [r]) hl' ?_, List.append_assoc, List.singleton_append]
      intro r' hr'
      rcases List.mem_append.mp hr' with h | h
      · exact hacc r' h
      · rw [List.mem_singleton.mp h, hr]

end Install

section Apply

variable {m : ResourceMap} {k : Kernel}

theorem diff_empty (ord : PassOrders) (m : ResourceMap) :
    (diff ord ∅ m).remove = [] ∧ (diff ord ∅ m).add = (m.range ord.add).map Prod.snd := by
  refine ⟨?_, ?_⟩
  · rw [List.eq_nil_iff_forall_not_mem]
    intro r hr
    obtain ⟨key, hkey, -⟩ := mem_diff_remove.mp hr
    cases hkey
  · have hkeys : keyDifference ord.add m ∅ = (m.range ord.add).map Prod.fst := by
      rw [keyDifference, List.filter_eq_self]
      intro key _
      simp
    have hlookup : ∀ e ∈ m.range ord.add, m.lookup e.1 = some e.2 :=
      fun e he => (mem_range _ _ _ _).mp he
    rw [diff, hkeys, List.filterMap_map, ← List.filterMap_eq_map]
    exact List.filterMap_congr hlookup

theorem mem_of_mem_foldl_addRule (l acc : List KernelRule) {r : KernelRule}
    (h : r ∈ l.foldl addRule acc) : r ∈ acc ∨ r ∈ l := by
  induction l generalizing acc with
  | nil => exact Or.inl h
  | cons r' l ih =>
    rcases ih _ h with h | h
    · unfold addRule at h
      split_ifs at h
      · exact Or.inl h
      · rcases List.mem_append.mp h with h | h
        · exact Or.inl h
        · exact Or.inr (List.mem_cons.mpr (Or.inl (List.mem_singleton.mp h)))
    · exact Or.inr (List.mem_cons_of_mem _ h)

/-- The rule that takes a packet after the resources of a map, whose rules have one
priority, were added to a kernel without rules: the first match in the order of the
loop over the map. -/
theorem firstRule_apply {priority : ℤ} (hrules : k.rules = []) (hqueue : k.queue = [])
    (hpriority : ∀ key r rule, m.lookup key = some r → r.kernelRule = some rule →
      rule.priority = priority) (ord : PassOrders) (pkt : Packet) :
    firstRule (apply linuxNetlink (diff ord ∅ m) k).state.rules pkt =
      ((m.range ord.add).find? fun e => e.2.kernelRule.any fun r => r.matches pkt).bind
        fun e => e.2.kernelRule := by
  have hstate : (apply linuxNetlink (diff ord ∅ m) k).state.rules =
      (((m.range ord.add).map Prod.snd).filterMap Resource.kernelRule).foldl addRule [] := by
    obtain ⟨hremove, hadd⟩ := diff_empty ord m
    have hbase : linuxNetlink.ensureClassificationBase k =
        (none, { k with classes := some (k.classes.getD ∅), queue := [] }) := by
      change Linux.ensureClassificationBase k = _
      unfold Linux.ensureClassificationBase Kernel.flush
      rw [hqueue]
      rfl
    unfold apply
    simp only [hbase, applyCalls, hremove, hadd]
    have hnothing : byKinds removalOrder [] = [] := rfl
    rw [List.foldl_append, foldl_perform_rules, filterMap_byKinds, hnothing, List.map_nil,
      List.foldl_nil, hrules]
  have hmem : ∀ rule ∈ ((m.range ord.add).map Prod.snd).filterMap Resource.kernelRule,
      ∃ key r, m.lookup key = some r ∧ r.kernelRule = some rule := by
    intro rule hrule
    obtain ⟨r, hr, hrule⟩ := List.mem_filterMap.mp hrule
    obtain ⟨⟨key, r⟩, he, rfl⟩ := List.mem_map.mp hr
    exact ⟨key, r, (mem_range _ _ _ _).mp he, hrule⟩
  have hsame : ∀ rule ∈ (((m.range ord.add).map Prod.snd).filterMap
      Resource.kernelRule).foldl addRule [], rule.priority = priority := by
    intro rule hrule
    rcases mem_of_mem_foldl_addRule _ _ hrule with h | h
    · cases h
    · obtain ⟨key, r, hr, hrule⟩ := hmem rule h
      exact hpriority key r rule hr hrule
  rw [hstate, firstRule_eq_find? hsame, find?_foldl_addRule _ [] maetoRouteProto]
  · rw [List.nil_append, List.find?_filterMap, List.find?_map, Option.bind_map]
    rfl
  · intro rule hrule
    obtain ⟨key, r, -, hrule⟩ := hmem rule hrule
    exact kernelRule_protocol hrule
  · intro rule hrule
    cases hrule

/-- Whatever the order of the loop, the rule that takes the packet has a property: some
rendered rule matches the packet, and every one that does has the property. -/
theorem forall_firstRule_iff {priority : ℤ} (hrules : k.rules = []) (hqueue : k.queue = [])
    (hpriority : ∀ key r rule, m.lookup key = some r → r.kernelRule = some rule →
      rule.priority = priority) (pkt : Packet) (P : KernelRule → Prop) :
    (∀ ord : PassOrders, ∃ rule,
        firstRule (apply linuxNetlink (diff ord ∅ m) k).state.rules pkt = some rule ∧ P rule) ↔
      (∃ key r rule, m.lookup key = some r ∧ r.kernelRule = some rule ∧ rule.matches pkt) ∧
        ∀ key r rule, m.lookup key = some r → r.kernelRule = some rule → rule.matches pkt →
          P rule := by
  have hloop := forall_find?_range_iff m
    (fun e => e.2.kernelRule.any fun r => r.matches pkt)
    (fun e => ∃ rule, e.2.kernelRule = some rule ∧ P rule)
  simp only [Option.any_eq_true, Prod.exists, Prod.forall] at hloop
  simp only [firstRule_apply hrules hqueue hpriority, Option.bind_eq_some_iff, Prod.exists]
  constructor
  · intro hall
    have hall' : ∀ o : RangeOrder, ∃ key r, (m.range o).find?
        (fun e => e.2.kernelRule.any fun r => r.matches pkt) = some (key, r) ∧
          ∃ rule, r.kernelRule = some rule ∧ P rule := by
      intro o
      obtain ⟨rule, ⟨key, r, hfind, hrule⟩, hP⟩ := hall ⟨.listed, .listed, o⟩
      exact ⟨key, r, hfind, rule, hrule, hP⟩
    obtain ⟨⟨key, r, hr, rule, hrule, hmatch⟩, hright⟩ := hloop.mp hall'
    refine ⟨⟨key, r, rule, hr, hrule, hmatch⟩, ?_⟩
    intro key r rule hr hrule hmatch
    obtain ⟨rule', hrule', hP⟩ := hright key r hr ⟨rule, hrule, hmatch⟩
    cases hrule.symm.trans hrule'
    exact hP
  · rintro ⟨⟨key, r, rule, hr, hrule, hmatch⟩, hright⟩ ord
    have hall := hloop.mpr ⟨⟨key, r, hr, rule, hrule, hmatch⟩, ?_⟩
    · obtain ⟨key, r, hfind, rule, hrule, hP⟩ := hall ord.add
      exact ⟨rule, ⟨key, r, hfind, hrule⟩, hP⟩
    · rintro key r hr ⟨rule, hrule, hmatch⟩
      exact ⟨rule, hrule, hright key r rule hr hrule hmatch⟩

end Apply

section Colors

def colorKernelRule (tenantID : String) (color : UInt64) : KernelRule where
  priority := 80
  src := none
  table := uint32OfInt (colorTableID (stringToID tenantID).toNat color)
  mark := color.toUInt32
  iif := vrfTableName tenantID
  protocol := maetoRouteProto

theorem uint32OfInt_intOfUInt64 (c : UInt64) : uint32OfInt (intOfUInt64 c) = c.toUInt32 := by
  apply UInt32.toNat_inj.mp
  have hint : intOfUInt64 c = Int.bmod c.toNat (2 ^ 64) := BitVec.toInt_eq_toNat_bmod _
  have hdvd : (2 : ℤ) ^ 32 ∣ ((2 ^ 64 : ℕ) : ℤ) := by decide
  rw [uint32OfInt, hint, ← Int.emod_emod_of_dvd _ hdvd, Int.bmod_emod, Int.emod_emod_of_dvd _ hdvd,
    UInt32.toNat_ofNat', UInt64.toNat_toUInt32]
  omega

theorem intOfUInt64_injective : Function.Injective intOfUInt64 := by
  intro c c' h
  exact UInt64.toBitVec_inj.mp (BitVec.eq_of_toInt_eq h)

theorem colorRule_kernelRule (tenantID : String) (color : UInt64) :
    (colorRule tenantID color).kernelRule = some (colorKernelRule tenantID color) := by
  simp only [colorRule, Resource.kernelRule, Linux.maetoRule, uint32OfInt_intOfUInt64,
    colorKernelRule]

theorem colorKernelRule_matches (t t' : String) (c c' : UInt64) (src : Addr) :
    (colorKernelRule t' c').matches ⟨vrfTableName t, c.toUInt32, src⟩ = true ↔
      t' = t ∧ (c'.toUInt32 = 0 ∨ c'.toUInt32 = c.toUInt32) := by
  have hne : vrfTableName t' ≠ "" := by
    intro h
    have := congrArg String.toList h
    simp [vrfTableName] at this
  have hinj : vrfTableName t' = vrfTableName t ↔ t' = t := String.append_right_inj _
  simp only [KernelRule.matches, colorKernelRule, Bool.and_eq_true, Bool.or_eq_true,
    decide_eq_true_eq, hne, hinj, false_or, Option.all_none, and_true]
  exact and_congr_right fun _ => or_congr decide_eq_true_iff decide_eq_true_iff

/-- The table of a rule is the table of a colour when the label of the colour has eight
bits and those of the two colours agree. -/
theorem colorKernelRule_table_iff (t : String) (c c' : UInt64) :
    ((colorKernelRule t c').table.toNat : ℤ) = colorTableID (stringToID t).toNat c ↔
      c.toNat % 2 ^ 40 < 2 ^ 8 ∧ c'.toNat % 2 ^ 8 = c.toNat % 2 ^ 40 := by
  have hlt := stringToID_lt t
  have hbits : (2 : ℕ) ^ vrfTableBits = 16777216 := by decide
  have htable : (colorKernelRule t c').table.toNat =
      c'.toNat % 2 ^ 8 * 2 ^ vrfTableBits + (stringToID t).toNat :=
    toNat_uint32OfInt_colorTableID hlt c'
  rw [htable, colorTableID_eq hlt, hbits]
  rw [hbits] at hlt
  have hc := c.toNat_lt
  rw [Int.bmod_def]
  split_ifs <;> omega

/-- The tenant has a segment list of the colour with a prefix to reach. -/
def Steers (t : TenantIntent) (c : UInt64) : Prop :=
  ∃ path ∈ t.installPaths, path.color = c ∧ path.prefixRoutes ≠ []

/-- No two tenants have the same VRF table. -/
def DistinctTables (pe : PEIntent) : Prop :=
  ∀ t ∈ pe.tenants, ∀ t' ∈ pe.tenants, stringToID t = stringToID t' → t = t'

variable {ords : RenderOrders} {pe : PEIntent} {m : ResourceMap}

theorem colorRule_key_injective {t t' : String} {c c' : UInt64}
    (hids : stringToID t = stringToID t' → t = t')
    (h : (colorRule t c).key = (colorRule t' c').key) : t = t' ∧ c = c' := by
  obtain ⟨-, hbody⟩ := key_eq_iff.mp h
  obtain ⟨-, -, htable, hmark⟩ := keyBody_rule (by simp) hbody
  refine ⟨hids ?_, intOfUInt64_injective hmark⟩
  have hlow := congrArg (· % (2 : ℤ) ^ vrfTableBits) htable
  simp only [colorTableID_emod (stringToID_lt _)] at hlow
  exact UInt32.toNat_inj.mp (by exact_mod_cast hlow)

theorem lookup_rule_iff (h : renderPEIntent ords pe = .ok m) (hdistinct : DistinctTables pe)
    (r : Rule) :
    (∃ key, m.lookup key = some (.rule r)) ↔
      ∃ tenantID t c, pe.tenants.lookup tenantID = some t ∧ Steers t c ∧
        .rule r = colorRule tenantID c := by
  obtain ⟨classes, hclasses, rfl⟩ := renderPEIntent_eq_ok h
  obtain ⟨collisions, hmem⟩ := mem_renderTenants ords pe
  have hlog : ∀ w ∈ classes ++ (renderTenants ords pe).map Prod.snd, w.kind = .rule →
      ∃ tenantID t c, pe.tenants.lookup tenantID = some t ∧ Steers t c ∧
        w = colorRule tenantID c := by
    intro w hw hkind
    rcases List.mem_append.mp hw with hw | hw
    · rw [hclasses w hw] at hkind
      cases hkind
    · obtain ⟨⟨tenantID, w⟩, hlog, rfl⟩ := List.mem_map.mp hw
      obtain ⟨t, ht, hround⟩ := (hmem tenantID w).mp hlog
      cases w with
      | rule r =>
        obtain ⟨path, hpath, hprefixes, heq⟩ := (tenantResource_of_mem hround).eq_colorRule
        exact ⟨tenantID, t, path.color, ht, ⟨path, hpath, rfl, hprefixes⟩, heq⟩
      | _ => cases hkind
  constructor
  · rintro ⟨key, hkey⟩
    exact hlog _ (of_lookup_collect hkey).1 rfl
  · rintro ⟨tenantID, t, c, ht, ⟨path, hpath, rfl, hprefixes⟩, heq⟩
    refine ⟨(colorRule tenantID path.color).key, ?_⟩
    rw [heq]
    apply lookup_collect_of_unique
    · refine List.mem_append_right _ (List.mem_map.mpr ⟨(tenantID, _), ?_, rfl⟩)
      exact (hmem _ _).mpr ⟨t, ht, colorRule_mem_tenantResources hpath hprefixes⟩
    · intro w hw hkey
      obtain ⟨tenantID', t', c', ht', -, rfl⟩ := hlog w hw (key_eq_iff.mp hkey).1
      have hids := hdistinct tenantID' (mem_iff.mpr ⟨_, ht'⟩)
        tenantID (mem_iff.mpr ⟨_, ht⟩)
      obtain ⟨rfl, rfl⟩ := colorRule_key_injective hids hkey
      rfl

end Colors

section Steering

variable {ords : RenderOrders} {pe : PEIntent} {m : ResourceMap} {k : Kernel}

theorem kernelRule_iff (h : renderPEIntent ords pe = .ok m) (hdistinct : DistinctTables pe)
    (rule : KernelRule) :
    (∃ key r, m.lookup key = some r ∧ r.kernelRule = some rule) ↔
      ∃ tenantID t c, pe.tenants.lookup tenantID = some t ∧ Steers t c ∧
        rule = colorKernelRule tenantID c := by
  constructor
  · rintro ⟨key, r, hr, hrule⟩
    cases r with
    | rule r =>
      obtain ⟨tenantID, t, c, ht, hc, heq⟩ := (lookup_rule_iff h hdistinct r).mp ⟨key, hr⟩
      rw [heq, colorRule_kernelRule] at hrule
      exact ⟨tenantID, t, c, ht, hc, (Option.some.inj hrule).symm⟩
    | _ => cases hrule
  · rintro ⟨tenantID, t, c, ht, hc, rfl⟩
    obtain ⟨key, hkey⟩ := (lookup_rule_iff h hdistinct _).mpr ⟨tenantID, t, c, ht, hc, rfl⟩
    exact ⟨key, _, hkey, colorRule_kernelRule tenantID c⟩

theorem tables_right_iff (tenantID : String) (c : UInt64) (S : UInt64 → Prop) :
    ((∃ c', S c' ∧ (c'.toUInt32 = 0 ∨ c'.toUInt32 = c.toUInt32)) ∧
      ∀ c', S c' → (c'.toUInt32 = 0 ∨ c'.toUInt32 = c.toUInt32) →
        ((colorKernelRule tenantID c').table.toNat : ℤ) =
          colorTableID (stringToID tenantID).toNat c) ↔
      c.toNat % 2 ^ 40 < 2 ^ 8 ∧ (∃ c', S c' ∧ c'.toUInt32 = c.toUInt32) ∧
        (c.toUInt32 = 0 ∨ ∀ c', S c' → c'.toUInt32 ≠ 0) := by
  have hzero : ∀ c : UInt64, c.toUInt32 = 0 ↔ c.toNat % 2 ^ 32 = 0 := by
    intro c
    rw [← UInt32.toNat_inj, UInt64.toNat_toUInt32]
    rfl
  have hsame : ∀ c c' : UInt64,
      c'.toUInt32 = c.toUInt32 ↔ c'.toNat % 2 ^ 32 = c.toNat % 2 ^ 32 := by
    intro c c'
    rw [← UInt32.toNat_inj, UInt64.toNat_toUInt32, UInt64.toNat_toUInt32]
  simp only [colorKernelRule_table_iff, ne_eq, hzero, hsame]
  constructor
  · rintro ⟨⟨c₀, hc₀, hmatch⟩, htables⟩
    obtain ⟨hlabel, heq⟩ := htables c₀ hc₀ hmatch
    refine ⟨hlabel, ⟨c₀, hc₀, by omega⟩, ?_⟩
    by_contra hnot
    rw [not_or, not_forall] at hnot
    obtain ⟨hne, c', hc'⟩ := hnot
    rw [Classical.not_imp, not_not] at hc'
    have := (htables c' hc'.1 (Or.inl hc'.2)).2
    omega
  · rintro ⟨hlabel, ⟨c₀, hc₀, hmark⟩, hzeros⟩
    refine ⟨⟨c₀, hc₀, Or.inr hmark⟩, ?_⟩
    intro c' hc' hmatch
    refine ⟨hlabel, ?_⟩
    rcases hmatch with hmatch | hmatch
    · rcases hzeros with hzeros | hzeros
      · omega
      · exact absurd hmatch (hzeros c' hc')
    · omega

/-- A packet of a colour is looked up in the table of the colour, in whatever order the
rules are installed, exactly when the label of the colour has eight bits, a segment list
with its mark has a prefix, and either the mark is zero or no such list has mark zero. -/
theorem steered_iff (h : renderPEIntent ords pe = .ok m) (hdistinct : DistinctTables pe)
    (hrules : k.rules = []) (hqueue : k.queue = []) {tenantID : String} {t : TenantIntent}
    (ht : pe.tenants.lookup tenantID = some t) (c : UInt64) (src : Addr) :
    (∀ ord : PassOrders, ∃ rule,
        firstRule (apply linuxNetlink (diff ord ∅ m) k).state.rules
            ⟨vrfTableName tenantID, c.toUInt32, src⟩ = some rule ∧
          (rule.table.toNat : ℤ) = colorTableID (stringToID tenantID).toNat c) ↔
      c.toNat % 2 ^ 40 < 2 ^ 8 ∧
        (∃ c', Steers t c' ∧ c'.toUInt32 = c.toUInt32) ∧
        (c.toUInt32 = 0 ∨ ∀ c', Steers t c' → c'.toUInt32 ≠ 0) := by
  have hpriority : ∀ key r rule, m.lookup key = some r → r.kernelRule = some rule →
      rule.priority = 80 := by
    intro key r rule hr hrule
    obtain ⟨_, _, _, -, -, rfl⟩ := (kernelRule_iff h hdistinct rule).mp ⟨key, r, hr, hrule⟩
    rfl
  rw [forall_firstRule_iff hrules hqueue hpriority, ← tables_right_iff]
  refine and_congr ⟨?_, ?_⟩ ⟨?_, ?_⟩
  · rintro ⟨key, r, rule, hr, hrule, hmatch⟩
    obtain ⟨_, t', c', ht', hc', rfl⟩ := (kernelRule_iff h hdistinct rule).mp ⟨key, r, hr, hrule⟩
    obtain ⟨rfl, hmark⟩ := (colorKernelRule_matches ..).mp hmatch
    cases ht.symm.trans ht'
    exact ⟨c', hc', hmark⟩
  · rintro ⟨c', hc', hmark⟩
    obtain ⟨key, r, hr, hrule⟩ :=
      (kernelRule_iff h hdistinct _).mpr ⟨tenantID, t, c', ht, hc', rfl⟩
    exact ⟨key, r, _, hr, hrule, (colorKernelRule_matches ..).mpr ⟨rfl, hmark⟩⟩
  · intro hright c' hc' hmark
    obtain ⟨key, r, hr, hrule⟩ :=
      (kernelRule_iff h hdistinct _).mpr ⟨tenantID, t, c', ht, hc', rfl⟩
    exact hright key r _ hr hrule ((colorKernelRule_matches ..).mpr ⟨rfl, hmark⟩)
  · intro hright key r rule hr hrule hmatch
    obtain ⟨_, t', c', ht', hc', rfl⟩ := (kernelRule_iff h hdistinct rule).mp ⟨key, r, hr, hrule⟩
    obtain ⟨rfl, hmark⟩ := (colorKernelRule_matches ..).mp hmatch
    cases ht.symm.trans ht'
    exact hright c' hc' hmark

def coloredTenant (colors : List UInt64) : PEIntent where
  nodeID := "pe1"
  tenants := (∅ : GoMap String TenantIntent).insert "1"
    { TenantIntent.empty with
      installPaths := colors.map fun color =>
        { tenantID := "1"
          prefixRoutes := [.prefixFrom (.v6 0xfd000000000200000000000000000000) 64]
          segments := [.v6 0xfc000000000200000000000000000000]
          color } }
  trafficClassIntent := []

theorem coloredTenant_distinctTables (colors : List UInt64) :
    DistinctTables (coloredTenant colors) := by
  have honly : ∀ t ∈ (coloredTenant colors).tenants, t = "1" := by
    intro t ht
    exact (mem_insert _).mp ht |>.resolve_right (notMem_empty t)
  intro t ht t' ht' _
  rw [honly t ht, honly t' ht']

theorem steered_coloredTenant_five :
    ∃ m, renderPEIntent .listed (coloredTenant [5]) = .ok m ∧
      ∀ ord : PassOrders, ∃ rule,
        firstRule (apply linuxNetlink (diff ord ∅ m) .started).state.rules
            ⟨vrfTableName "1", 5, .invalid⟩ = some rule ∧
          (rule.table.toNat : ℤ) = colorTableID (stringToID "1").toNat 5 := by
  cases hrender : renderPEIntent .listed (coloredTenant [5]) with
  | error _ =>
    have hok : (renderPEIntent .listed (coloredTenant [5])).isOk = true := by decide +kernel
    rw [hrender] at hok
    cases hok
  | ok m =>
    refine ⟨m, rfl, (steered_iff hrender (coloredTenant_distinctTables [5]) rfl rfl
      (lookup_insert _) 5 .invalid).mpr ⟨by decide, ?_, Or.inr ?_⟩⟩
    · exact ⟨5, ⟨_, List.mem_singleton_self _, rfl, List.cons_ne_nil _ _⟩, rfl⟩
    · rintro c' ⟨path, hpath, rfl, -⟩
      rw [List.mem_singleton.mp hpath]
      decide

/-- With the default class beside it, whose colour is zero, a packet of colour 5 is
looked up in the table of the default class. -/
theorem steered_by_default_class :
    ∃ m, renderPEIntent .listed (coloredTenant [0, 5]) = .ok m ∧
      firstRule (apply linuxNetlink (diff .listed ∅ m) .started).state.rules
          ⟨vrfTableName "1", 5, .invalid⟩ = some (colorKernelRule "1" 0) ∧
        ((colorKernelRule "1" 0).table.toNat : ℤ) ≠ colorTableID (stringToID "1").toNat 5 := by
  have hfirst : (renderPEIntent .listed (coloredTenant [0, 5])).map (fun m =>
      firstRule (apply linuxNetlink (diff .listed ∅ m) .started).state.rules
        ⟨vrfTableName "1", 5, .invalid⟩) = .ok (some (colorKernelRule "1" 0)) := by
    decide +kernel
  obtain ⟨m, hrender, hrule⟩ := Result.map_eq_ok.mp hfirst
  exact ⟨m, hrender, hrule, by decide +kernel⟩

end Steering

end Maeto.Dataplane
