import Maeto.Dataplane.Additions

/-!
# What an intent asks for

An intent asks for the resources that some order of the loops renders it to. When the tenants have
tables of their own, the order makes no difference to the keys (`Asks.mem`): the tables that one
tenant holds are never those of another. The resources of a well-formed intent fit the node it is
for and the kernel (`WellFormed.placed`), so all that is left to ask of them is that no two of
them have the same place in a routing table.
-/

namespace Maeto.Dataplane

open Foundation Netip Nodesync GoMap Result AList

def Asks (i : Intent) (y : Resource) : Prop :=
  ∃ ords desired key, renderIntent ords i = .ok desired ∧ desired.lookup key = some y

section Tenants

variable {tenantID : String} {t : TenantIntent} {collisions : GoMap ℤ String}

theorem mem_installPaths_collisions {table : ℤ}
    (h : table ∈ (installPaths tenantID t collisions).collisions) :
    table ∈ collisions ∨ table % 2 ^ vrfTableBits = (stringToID tenantID).toNat := by
  revert h
  refine installPaths_induction Or.inl ?_
  intro st path p hpath hp ih h
  have hstore : table ∈ st.collisions.insert
      (colorTableID (stringToID tenantID).toNat path.color) path.tenantID →
      table ∈ collisions ∨ table % 2 ^ vrfTableBits = (stringToID tenantID).toNat := by
    intro h
    rcases (mem_insert _).mp h with rfl | h
    · exact Or.inr (colorTableID_emod (stringToID_lt tenantID) _)
    · exact ih h
  unfold installPrefix at h
  dsimp only at h
  split at h
  · split_ifs at h
    · exact ih h
    · exact hstore h
  · exact hstore h

theorem installPaths_srRoutes (h : ∀ color,
    collisions.lookup (colorTableID (stringToID tenantID).toNat color) = none) :
    (installPaths tenantID t collisions).srRoutes = (installPaths tenantID t ∅).srRoutes := by
  let R : InstallState → InstallState → Prop := fun st st' =>
    (∀ color, st.collisions.lookup (colorTableID (stringToID tenantID).toNat color) =
      st'.collisions.lookup (colorTableID (stringToID tenantID).toNat color)) ∧
        st.srRoutes = st'.srRoutes
  have hstep : ∀ path p st st', R st st' →
      R (installPrefix (stringToID tenantID).toNat path st p)
        (installPrefix (stringToID tenantID).toNat path st' p) := by
    rintro path p st st' ⟨hlookup, hroutes⟩
    unfold installPrefix
    dsimp only
    rw [hlookup path.color, hroutes]
    have hstore : ∀ color, (st.collisions.insert
        (colorTableID (stringToID tenantID).toNat path.color) path.tenantID).lookup
          (colorTableID (stringToID tenantID).toNat color) = (st'.collisions.insert
        (colorTableID (stringToID tenantID).toNat path.color) path.tenantID).lookup
          (colorTableID (stringToID tenantID).toNat color) := by
      intro color
      rw [lookup_insert_eq, lookup_insert_eq, hlookup color]
    split
    · split_ifs
      · exact ⟨hlookup, rfl⟩
      · exact ⟨hstore, rfl⟩
    · exact ⟨hstore, rfl⟩
  have hrel : R (installPaths tenantID t collisions) (installPaths tenantID t ∅) := by
    refine List.foldl_rel (r := R) ⟨fun color => ?_, rfl⟩ ?_
    · rw [h color, lookup_empty]
    intro path _ st st' hst
    exact List.foldl_rel (r := R) hst fun p _ st st' => hstep path p st st'
  exact hrel.2

theorem mem_tenantResources_iff (ords : RenderOrders) (y : Resource) :
    y ∈ tenantResources ords tenantID t collisions ↔
      y = .vrf { name := vrfTableName tenantID, tableID := stringToID tenantID, index := 0 } ∨
      y ∈ (if t.dt46SID.isValid then
        [.sid
          { sidType := .dt46, sid := t.dt46SID, tableID := (stringToID tenantID).toNat, metric := 0,
            vrfTableID := 0 }] else []) ∨
      (∃ id p, t.portalIntents.lookup id = some p ∧ y ∈ renderPortal tenantID p) ∨
      y ∈ (installPaths tenantID t collisions).srRoutes ∨
      ∃ path ∈ t.installPaths, path.prefixRoutes ≠ [] ∧ colorRule tenantID path.color = y := by
  unfold tenantResources
  simp only [List.mem_cons, List.mem_append, List.mem_flatMap, List.mem_map, Prod.exists,
    mem_range, List.cons_append, or_assoc]
  refine or_congr_right (or_congr_right (or_congr_right (or_congr_right ⟨?_, ?_⟩)))
  · rintro ⟨c, u, hc, rfl⟩
    obtain ⟨path, hpath, rfl, hprefixes⟩ := (mem_uniqueColors c).mp (mem_iff.mpr ⟨u, hc⟩)
    exact ⟨path, hpath, hprefixes, rfl⟩
  · rintro ⟨path, hpath, hprefixes, rfl⟩
    obtain ⟨u, hu⟩ := mem_iff.mp ((mem_uniqueColors path.color).mpr
      ⟨path, hpath, rfl, hprefixes⟩)
    exact ⟨path.color, u, hu, rfl⟩

theorem mem_tenantResources_congr (ords : RenderOrders) (h : ∀ color,
    collisions.lookup (colorTableID (stringToID tenantID).toNat color) = none) (y : Resource) :
    y ∈ tenantResources ords tenantID t collisions ↔ y ∈ tenantResources .listed tenantID t ∅ := by
  rw [mem_tenantResources_iff, mem_tenantResources_iff, installPaths_srRoutes h]

theorem mem_foldl_tenantRound (ords : RenderOrders) (l : List (String × TenantIntent))
    (hl : (l.map fun e => stringToID e.1).Nodup) (st : GoMap ℤ String × List (String × Resource))
    (hst : ∀ e ∈ l, ∀ table ∈ st.1, table % 2 ^ vrfTableBits ≠ (stringToID e.1).toNat)
    (tenantID : String) (y : Resource) :
    (tenantID, y) ∈ (l.foldl (tenantRound ords) st).2 ↔
      (tenantID, y) ∈ st.2 ∨
        ∃ t, (tenantID, t) ∈ l ∧ y ∈ tenantResources .listed tenantID t ∅ := by
  induction l generalizing st with
  | nil => simp
  | cons e l ih =>
    obtain ⟨id, t⟩ := e
    rw [List.map_cons, List.nodup_cons] at hl
    have hfree : ∀ color,
        st.1.lookup (colorTableID (stringToID id).toNat color) = none := by
      intro color
      rw [lookup_eq_none]
      intro hmem
      exact hst (id, t) List.mem_cons_self _ hmem (colorTableID_emod (stringToID_lt id) color)
    rw [List.foldl_cons, ih hl.2, tenantRound, List.mem_append, or_assoc]
    · refine or_congr_right ?_
      simp only [List.mem_map, Prod.mk.injEq, mem_tenantResources_congr ords hfree,
        List.mem_cons]
      constructor
      · rintro (⟨y, hy, rfl, rfl⟩ | ⟨t', ht', hy⟩)
        · exact ⟨t, Or.inl ⟨rfl, rfl⟩, hy⟩
        · exact ⟨t', Or.inr ht', hy⟩
      · rintro ⟨t', ⟨rfl, rfl⟩ | ht', hy⟩
        · exact Or.inl ⟨y, hy, rfl, rfl⟩
        · exact Or.inr ⟨t', ht', hy⟩
    · intro e' he' table htable heq
      rcases mem_installPaths_collisions htable with htable | htable
      · exact hst e' (List.mem_cons_of_mem _ he') table htable heq
      · refine hl.1 (List.mem_map.mpr ⟨e', he', UInt32.toNat_inj.mp ?_⟩)
        exact_mod_cast heq.symm.trans htable

theorem mem_renderTenants_of_distinct {pe : PEIntent} (hdistinct : DistinctTables pe)
    (ords : RenderOrders) (tenantID : String) (y : Resource) :
    (tenantID, y) ∈ renderTenants ords pe ↔
      ∃ t, pe.tenants.lookup tenantID = some t ∧
        y ∈ tenantResources .listed tenantID t ∅ := by
  have hnodup : ((pe.tenants.range ords.tenants).map fun e => stringToID e.1).Nodup := by
    have hkeys := range_keys_nodup ords.tenants pe.tenants
    have hinj : ∀ id ∈ (pe.tenants.range ords.tenants).map Prod.fst,
        ∀ id' ∈ (pe.tenants.range ords.tenants).map Prod.fst,
          stringToID id = stringToID id' → id = id' := by
      intro id hid id' hid'
      exact hdistinct id ((mem_range_keys _ _ _).mp hid) id'
        ((mem_range_keys _ _ _).mp hid')
    have := List.Nodup.map_on hinj hkeys
    rwa [List.map_map] at this
  rw [renderTenants, mem_foldl_tenantRound ords _ hnodup]
  · simp [mem_range]
  · intro e _ table htable
    exact absurd htable (notMem_empty _)

end Tenants

section Orders

variable {i : Intent} {y : Resource} {ords : RenderOrders} {desired : ResourceMap}

theorem asks_of_lookup {key : String} (hrender : renderIntent ords i = .ok desired)
    (hy : desired.lookup key = some y) : Asks i y ∧ y.key = key :=
  ⟨⟨ords, desired, key, hrender, hy⟩, (renderIntent_lookup hrender hy).1⟩

theorem Asks.mem (h : Asks i y) (hdistinct : ∀ pe, i = .pe pe → DistinctTables pe)
    (hrender : renderIntent ords i = .ok desired) : y.key ∈ desired := by
  obtain ⟨ords', desired', key, hrender', hy⟩ := h
  cases i with
  | cpe cpe =>
    cases hrender.symm.trans hrender'
    rw [(renderIntent_lookup hrender hy).1]
    exact mem_iff.mpr ⟨y, hy⟩
  | pe pe =>
    obtain ⟨classes, hclasses, rfl⟩ := map_eq_ok.mp hrender
    obtain ⟨classes', hclasses', rfl⟩ := map_eq_ok.mp hrender'
    cases hclasses.symm.trans hclasses'
    refine (mem_collect _ _ _).mpr ⟨y, ?_, rfl⟩
    rcases List.mem_append.mp (of_lookup_collect hy).1 with hy | hy
    · exact List.mem_append_left _ hy
    · obtain ⟨⟨tenantID, y⟩, hlog, rfl⟩ := List.mem_map.mp hy
      refine List.mem_append_right _ (List.mem_map.mpr ⟨(tenantID, y), ?_, rfl⟩)
      have hdistinct := hdistinct pe rfl
      rw [mem_renderTenants_of_distinct hdistinct] at hlog ⊢
      exact hlog

end Orders

section WellFormed

def IsNetwork (p : Prefix) : Prop := ∃ n : Network, p = n.net

structure PEWellFormed (pe : PEIntent) : Prop where
  tables : DistinctTables pe
  sites : ∀ tenantID t, pe.tenants.lookup tenantID = some t →
    ∀ id p, t.portalIntents.lookup id = some p → IsNetwork p.sitePrefix
  prefixes : ∀ tenantID t, pe.tenants.lookup tenantID = some t →
    ∀ path ∈ t.installPaths, ∀ p ∈ path.prefixRoutes, IsNetwork p
  labels : LabelsBelow256 (.pe pe)
  codepoints : ∀ c ∈ pe.trafficClassIntent, ∀ dscp ∈ c.dscp, 0 ≤ dscp ∧ dscp < 255

def WellFormed : Intent → Prop
  | .cpe cpe => IsNetwork cpe.sitePrefix
  | .pe pe => PEWellFormed pe

variable {i : Intent} {y : Resource}

theorem WellFormed.tables (h : WellFormed i) : ∀ pe, i = .pe pe → DistinctTables pe := by
  rintro pe rfl
  exact PEWellFormed.tables h

theorem WellFormed.labels (h : WellFormed i) : LabelsBelow256 i := by
  cases i with
  | cpe cpe => trivial
  | pe pe => exact PEWellFormed.labels h

theorem renderClass_ok {c : PETrafficClassIntent} {dscps : List ℤ}
    (h : ∀ dscp ∈ dscps, dscp < 255) : ∃ rs, renderClass c dscps = .ok rs := by
  induction dscps with
  | nil => exact ⟨[], rfl⟩
  | cons dscp dscps ih =>
    obtain ⟨rs, hrs⟩ := ih fun d hd => h d (List.mem_cons_of_mem _ hd)
    rw [renderClass, if_neg (Int.not_le.mpr (h dscp List.mem_cons_self)), hrs]
    exact ⟨_, rfl⟩

theorem renderClasses_ok {cs : List PETrafficClassIntent}
    (h : ∀ c ∈ cs, ∀ dscp ∈ c.dscp, dscp < 255) : ∃ rs, renderClasses cs = .ok rs := by
  induction cs with
  | nil => exact ⟨[], rfl⟩
  | cons c cs ih =>
    obtain ⟨rs, hrs⟩ := ih fun c hc => h c (List.mem_cons_of_mem _ hc)
    obtain ⟨own, hown⟩ := renderClass_ok (h c List.mem_cons_self)
    rw [renderClasses, hown]
    exact ⟨_, by rw [hrs]; rfl⟩

theorem WellFormed.render (h : WellFormed i) (ords : RenderOrders) :
    ∃ desired, renderIntent ords i = .ok desired := by
  cases i with
  | cpe cpe =>
    obtain ⟨n, hn⟩ := h
    have hvalid : cpe.sitePrefix.isValid = true := by rw [hn]; exact n.valid
    change ∃ desired, renderCPEIntent cpe = .ok desired
    unfold renderCPEIntent
    simp only [hvalid, Bool.not_true, Bool.false_eq_true, if_false]
    split_ifs
    · exact ⟨_, rfl⟩
    · exact ⟨_, rfl⟩
  | pe pe =>
    obtain ⟨classes, hclasses⟩ := renderClasses_ok fun c hc dscp hdscp =>
      (PEWellFormed.codepoints h c hc dscp hdscp).2
    change ∃ desired, renderPEIntent ords pe = .ok desired
    rw [renderPEIntent, hclasses]
    exact ⟨_, rfl⟩

theorem Asks.intentResource (h : Asks i y) : IntentResource i y := by
  obtain ⟨ords, desired, key, hrender, hy⟩ := h
  exact (renderIntent_lookup hrender hy).2

theorem sized_codepoint {dscp : ℤ} (h : 0 ≤ dscp ∧ dscp < 255) (mark : UInt32) :
    (Resource.classification { classifier := uint32OfInt dscp, mark }).Sized := by
  have hnat : (uint32OfInt dscp).toNat = dscp.toNat := by
    rw [uint32OfInt, UInt32.toNat_ofNat']
    omega
  apply UInt32.toNat_inj.mp
  dsimp only
  rw [UInt8.toNat_toUInt32, UInt32.toNat_toUInt8, hnat]
  omega

theorem TenantResource.sized {pe : PEIntent} (hpe : PEWellFormed pe) {tenantID : String}
    {t : TenantIntent} (ht : pe.tenants.lookup tenantID = some t)
    (h : TenantResource tenantID t y) : y.Sized := by
  cases h with
  | vrf => trivial
  | sid => rfl
  | portal id p hid y hy =>
    rw [renderPortal, List.mem_pair] at hy
    rcases hy with rfl | rfl
    · trivial
    · obtain ⟨n, hn⟩ := hpe.sites tenantID t ht id p hid
      exact ⟨stringToID tenantID, n, rfl, hn⟩
  | srRoute path hpath p hp =>
    obtain ⟨n, hn⟩ := hpe.prefixes tenantID t ht path hpath p hp
    have hlabel := hpe.labels tenantID t ht path hpath
    exact ⟨_, n, colorTableID_of_lt (stringToID_lt tenantID) hlabel, hn⟩
  | rule path hpath hp =>
    have hlabel := hpe.labels tenantID t ht path hpath
    refine ⟨none, _, _, rfl, colorTableID_of_lt (stringToID_lt tenantID) hlabel,
      (?_ : _ = ((uint32OfInt (intOfUInt64 path.color)).toNat : ℤ))⟩
    change intOfUInt64 path.color = _
    rw [intOfUInt64_of_lt hlabel, uint32OfInt, UInt32.toNat_ofNat']
    omega

theorem WellFormed.sized (hwf : WellFormed i) (h : Asks i y) : y.Sized := by
  obtain ⟨ords, desired, key, hrender, hy⟩ := h
  cases i with
  | cpe cpe =>
    obtain ⟨n, hn⟩ := hwf
    have hintent := (renderIntent_lookup hrender hy).2
    cases hintent with
    | tunnel => trivial
    | tunnelDefault => exact ⟨100, .default6, rfl, rfl⟩
    | siteRule => exact ⟨some n, 100, 0, by rw [hn]; rfl, rfl, rfl⟩
  | pe pe =>
    obtain ⟨classes, hclasses, rfl⟩ := map_eq_ok.mp hrender
    rcases List.mem_append.mp (of_lookup_collect hy).1 with hy | hy
    · obtain ⟨c, hc, dscp, hdscp, rfl⟩ := mem_of_renderClasses hclasses hy
      exact sized_codepoint (PEWellFormed.codepoints hwf c hc dscp hdscp) _
    · obtain ⟨⟨tenantID, y⟩, hlog, rfl⟩ := List.mem_map.mp hy
      obtain ⟨collisions, hmem⟩ := mem_renderTenants ords pe
      obtain ⟨t, ht, hround⟩ := (hmem tenantID y).mp hlog
      exact (tenantResource_of_mem hround).sized hwf ht

/-- No two resources that are asked for have one place in a routing table. -/
def OnePlaceEach (i : Intent) : Prop :=
  ∀ y y', Asks i y → Asks i y' → y.slot = y'.slot → y.slot ≠ none → y.key = y'.key

theorem WellFormed.placed (hwf : WellFormed i) (h : OnePlaceEach i) :
    Placed i.nodeType (Asks i) where
  fitting := fun _ hy => hy.intentResource.fitting (Or.inl hwf.labels)
  sized := fun _ hy => hwf.sized hy
  plain := fun _ hy => hy.intentResource.plain
  slots := h

end WellFormed

end Maeto.Dataplane
