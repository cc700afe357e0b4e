import Maeto.ControlPlane.TenantLoad
import Maeto.Dataplane.Rendered

/-!
# The tables of the tenants

Every table that a tenant is rendered into has the VRF table of the tenant in its
low bits: the VRF, the SID and the prefix routes use that table, and the SR routes
and rules of a colour use it with the colour on top. The VRF table is a hash of
the tenant id, and the VRFs of all tenants are kept because their keys are the
tenant ids. Two tenants are therefore in separate tables exactly when the hashes
of their ids differ.

The kernel's table ids have 32 bits, so eight are left for the colour. Two classes
of a tenant are in separate tables exactly when the low eight bits of their labels
differ, and the labels that a tenant database may give have 64.
-/

namespace Maeto.Dataplane

open Foundation Nodesync

def Resource.routingTable : Resource → Option ℤ
  | .vrf v => some v.tableID.toNat
  | .sid s => some s.tableID
  | .route r => some r.table
  | .srRoute s => some s.table
  | .rule r => some r.table
  | .xfrm _ | .classification _ => none

theorem stringToID_lt (s : String) : (stringToID s).toNat < 2 ^ vrfTableBits := by
  have hspan : 0 < tableSpan := by decide
  have hlt := Nat.mod_lt (fnv1a64 (utf8 s)).toNat hspan
  have hsum : minTableID + tableSpan = 2 ^ vrfTableBits := by decide
  have hbits : (2 : ℕ) ^ vrfTableBits < 2 ^ 32 := by decide
  rw [stringToID, UInt32.toNat_ofNat']
  omega

variable {vrfTable : ℕ}

theorem colorTableID_eq (h : vrfTable < 2 ^ vrfTableBits) (color : UInt64) :
    colorTableID vrfTable color =
      Int.bmod ((color.toNat % 2 ^ 40 * 2 ^ vrfTableBits + vrfTable : ℕ) : ℤ) (2 ^ 64) := by
  have hbits : (2 : ℕ) ^ vrfTableBits = 16777216 := by decide
  have hcolor : (color.toBitVec <<< vrfTableBits).toNat =
      (color.toNat % 2 ^ 40) <<< vrfTableBits := by
    rw [BitVec.toNat_shiftLeft, UInt64.toNat_toBitVec, Nat.shiftLeft_eq, Nat.shiftLeft_eq, hbits]
    omega
  have htable : (BitVec.ofInt 64 vrfTable).toNat = vrfTable := by
    rw [BitVec.ofInt_natCast, BitVec.toNat_ofNat]
    omega
  rw [colorTableID, BitVec.toInt_eq_toNat_bmod, BitVec.toNat_or, hcolor, htable,
    ← Nat.shiftLeft_add_eq_or_of_lt h, Nat.shiftLeft_eq]

theorem colorTableID_emod (h : vrfTable < 2 ^ vrfTableBits) (color : UInt64) :
    colorTableID vrfTable color % 2 ^ vrfTableBits = vrfTable := by
  have hdvd : (2 : ℤ) ^ vrfTableBits ∣ ((2 ^ 64 : ℕ) : ℤ) := by decide
  rw [colorTableID_eq h, ← Int.emod_emod_of_dvd _ hdvd, Int.bmod_emod, Int.emod_emod_of_dvd _ hdvd]
  norm_cast
  rw [Nat.mul_add_mod_self_right, Nat.mod_eq_of_lt h]

theorem toNat_uint32OfInt_colorTableID (h : vrfTable < 2 ^ vrfTableBits) (color : UInt64) :
    (uint32OfInt (colorTableID vrfTable color)).toNat =
      color.toNat % 2 ^ 8 * 2 ^ vrfTableBits + vrfTable := by
  have hbits : (2 : ℕ) ^ vrfTableBits = 16777216 := by decide
  have hdvd : (2 : ℤ) ^ 32 ∣ ((2 ^ 64 : ℕ) : ℤ) := by decide
  rw [uint32OfInt, colorTableID_eq h, ← Int.emod_emod_of_dvd _ hdvd, Int.bmod_emod,
    Int.emod_emod_of_dvd _ hdvd, UInt32.toNat_ofNat', hbits]
  rw [hbits] at h
  omega

section Classes

open ControlPlane (Label parseTrafficClasses)

def classTable (tenantID : String) (label : Label) : UInt32 :=
  uint32OfInt (colorTableID (stringToID tenantID).toNat label)

theorem toNat_classTable (tenantID : String) (label : Label) :
    (classTable tenantID label).toNat =
      label.toNat % 2 ^ 8 * 2 ^ vrfTableBits + (stringToID tenantID).toNat :=
  toNat_uint32OfInt_colorTableID (stringToID_lt tenantID) label

theorem classTable_ne_of_stringToID_ne {t t' : String} (h : stringToID t ≠ stringToID t')
    (l l' : Label) : classTable t l ≠ classTable t' l' := by
  intro heq
  have hnat := congrArg UInt32.toNat heq
  rw [toNat_classTable, toNat_classTable] at hnat
  have hlow := congrArg (· % 2 ^ vrfTableBits) hnat
  simp only [Nat.mul_add_mod_self_right, Nat.mod_eq_of_lt (stringToID_lt _)] at hlow
  exact h (UInt32.toNat_inj.mp hlow)

theorem classTable_eq_iff (tenantID : String) (l l' : Label) :
    classTable tenantID l = classTable tenantID l' ↔ l.toNat % 2 ^ 8 = l'.toNat % 2 ^ 8 := by
  rw [← UInt32.toNat_inj, toNat_classTable, toNat_classTable, Nat.add_right_cancel_iff]
  exact Nat.mul_left_inj (by decide)

/-- Two classes of a tenant have tables of their own and marks of their own. -/
structure KeptApart (tenantID : String) (l l' : Label) : Prop where
  tables : classTable tenantID l ≠ classTable tenantID l'
  others : ∀ t', stringToID t' ≠ stringToID tenantID → ∀ other,
    classTable tenantID l ≠ classTable t' other ∧ classTable tenantID l' ≠ classTable t' other
  marks : l.toUInt32 ≠ l'.toUInt32

/-- Two classes of a tenant are kept apart exactly when the low eight bits of their labels
differ. -/
theorem keptApart_iff (tenantID : String) (l l' : Label) :
    KeptApart tenantID l l' ↔ l.toNat % 2 ^ 8 ≠ l'.toNat % 2 ^ 8 := by
  constructor
  · intro h
    exact fun heq => h.tables ((classTable_eq_iff tenantID l l').mpr heq)
  · intro hne
    refine ⟨fun heq => hne ((classTable_eq_iff tenantID l l').mp heq), ?_, ?_⟩
    · intro t' hids other
      exact ⟨classTable_ne_of_stringToID_ne hids.symm l other,
        classTable_ne_of_stringToID_ne hids.symm l' other⟩
    · intro heq
      have hnat := congrArg UInt32.toNat heq
      rw [UInt64.toNat_toUInt32, UInt64.toNat_toUInt32] at hnat
      omega

/-- A class of label 256 is accepted beside the default class, and has its table. -/
theorem classTable_256_shared :
    ∃ maps, parseTrafficClasses .listed
        [⟨"bulk", 256, 1, [10], (∅ : GoMap String ℚ).insert "latency" 1⟩] = .ok maps ∧
      (0 : Label) ∈ maps.byLabel ∧ (256 : Label) ∈ maps.byLabel ∧
      classTable "1" 256 = classTable "1" 0 := by
  refine ⟨_, rfl, ?_, ?_, ?_⟩
  · decide +kernel
  · decide +kernel
  · decide +kernel

end Classes

section Isolation

variable {ords : RenderOrders} {pe : PEIntent} {m : ResourceMap}

theorem TenantResource.routingTable_emod {tenantID : String} {t : TenantIntent} {r : Resource}
    (h : TenantResource tenantID t r) {n : ℤ} (hn : r.routingTable = some n) :
    n % 2 ^ vrfTableBits = (stringToID tenantID).toNat := by
  have hlt := stringToID_lt tenantID
  have hself : ((stringToID tenantID).toNat : ℤ) % 2 ^ vrfTableBits =
      (stringToID tenantID).toNat := by
    norm_cast
    exact Nat.mod_eq_of_lt hlt
  cases h with
  | vrf =>
    cases hn
    exact hself
  | sid =>
    cases hn
    exact hself
  | portal id p hid r hr =>
    rw [renderPortal, List.mem_pair] at hr
    rcases hr with rfl | rfl
    · cases hn
    · cases hn
      exact hself
  | srRoute path hpath p hp =>
    cases hn
    exact colorTableID_emod hlt _
  | rule path hpath hp =>
    cases hn
    exact colorTableID_emod hlt _

def UsesTable (ords : RenderOrders) (pe : PEIntent) (m : ResourceMap) (tenantID : String) (n : ℤ) :
    Prop :=
  ∃ r, (tenantID, r) ∈ renderTenants ords pe ∧ m.lookup r.key = some r ∧ r.routingTable = some n

theorem UsesTable.emod {tenantID : String} {n : ℤ} (h : UsesTable ords pe m tenantID n) :
    n % 2 ^ vrfTableBits = (stringToID tenantID).toNat := by
  obtain ⟨r, hr, -, hn⟩ := h
  obtain ⟨collisions, hmem⟩ := mem_renderTenants ords pe
  obtain ⟨t, -, ht⟩ := (hmem tenantID r).mp hr
  exact (tenantResource_of_mem ht).routingTable_emod hn

theorem usesTable_stringToID (h : renderPEIntent ords pe = .ok m) {t : String}
    (ht : t ∈ pe.tenants) : UsesTable ords pe m t (stringToID t).toNat := by
  obtain ⟨collisions, hmem⟩ := mem_renderTenants ords pe
  obtain ⟨intent, hintent⟩ := GoMap.mem_iff.mp ht
  have hvrf := (hmem t _).mpr ⟨intent, hintent, vrf_mem_tenantResources⟩
  obtain ⟨classes, hclasses, rfl⟩ := renderPEIntent_eq_ok h
  refine ⟨_, hvrf, ?_, rfl⟩
  apply GoMap.lookup_collect_of_unique
  · exact List.mem_append_right _ (List.mem_map.mpr ⟨_, hvrf, rfl⟩)
  · intro w hw hkey
    obtain ⟨hkind, hbody⟩ := Resource.key_eq_iff.mp hkey
    rcases List.mem_append.mp hw with hw | hw
    · rw [hclasses w hw] at hkind
      cases hkind
    · obtain ⟨⟨t', w⟩, hlog, rfl⟩ := List.mem_map.mp hw
      obtain ⟨intent', -, hround⟩ := (hmem t' w).mp hlog
      cases w with
      | vrf v =>
        have hv := (tenantResource_of_mem hround).eq_vrf
        have hname : v.name = vrfTableName t := Resource.keyBody_vrf hbody
        rw [hv] at hname
        have hid : t' = t := String.append_right_inj _ |>.mp hname
        rw [hv, hid]
      | _ => cases hkind

/-- Two tenants share no routing table exactly when the hashes of their ids, which
are their VRF tables, differ. -/
theorem tables_disjoint_iff (h : renderPEIntent ords pe = .ok m) {t₁ t₂ : String}
    (h₁ : t₁ ∈ pe.tenants) (h₂ : t₂ ∈ pe.tenants) :
    (∀ n, UsesTable ords pe m t₁ n → ¬ UsesTable ords pe m t₂ n) ↔
      stringToID t₁ ≠ stringToID t₂ := by
  constructor
  · intro hdisjoint heq
    have hmine := usesTable_stringToID h h₁
    have htheirs := usesTable_stringToID h h₂
    rw [← heq] at htheirs
    exact hdisjoint _ hmine htheirs
  · intro hids n hmine htheirs
    have heq := hmine.emod.symm.trans htheirs.emod
    exact hids (UInt32.toNat_inj.mp (by exact_mod_cast heq))

def twoTenants (t₁ t₂ : String) : PEIntent where
  nodeID := "pe1"
  tenants := ((∅ : GoMap String TenantIntent).insert t₁ .empty).insert t₂ .empty
  trafficClassIntent := []

theorem tables_disjoint_one_two :
    ∃ m, renderPEIntent .listed (twoTenants "1" "2") = .ok m ∧
      ∀ n, UsesTable .listed (twoTenants "1" "2") m "1" n →
        ¬ UsesTable .listed (twoTenants "1" "2") m "2" n := by
  refine ⟨_, rfl, ?_⟩
  exact (tables_disjoint_iff rfl (by decide +kernel) (by decide +kernel)).mpr (by decide +kernel)

/-- The ids 31687 and 44940 have the same hash, so both VRFs are bound to one
table. -/
theorem tables_shared_31687_44940 :
    ∃ m, renderPEIntent .listed (twoTenants "31687" "44940") = .ok m ∧
      UsesTable .listed (twoTenants "31687" "44940") m "31687" 676500 ∧
      UsesTable .listed (twoTenants "31687" "44940") m "44940" 676500 := by
  have h₁ : ((stringToID "31687").toNat : ℤ) = 676500 := by decide +kernel
  have h₂ : ((stringToID "44940").toNat : ℤ) = 676500 := by decide +kernel
  refine ⟨_, rfl, ?_, ?_⟩
  · rw [← h₁]
    exact usesTable_stringToID rfl (by decide +kernel)
  · rw [← h₂]
    exact usesTable_stringToID rfl (by decide +kernel)

end Isolation

end Maeto.Dataplane
