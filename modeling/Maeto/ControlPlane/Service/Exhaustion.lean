import Maeto.ControlPlane.Service.Allocations
import Maeto.Foundation.Marks

/-!
# How long new SIDs are found

A call for a new key looks at the next five places of the cursor and fails when the SIDs of
all of them are allocated. The function identifiers are meant to come in a full period, so
that none repeats before all 4095 were handed out. But the product in `permute` is taken in
sixteen bits and wraps: the places from 2111 on repeat those from 42 on, six times in a row.

Up to that place nothing repeats, so that the first 2111 calls are all served, whatever
locators they ask for. A locator that was asked for 2111 times then has no SID for the next
tenant, with nearly half of its function identifiers unused.
-/

namespace Maeto.ControlPlane

open Foundation Netip GoMap

section Identifiers

def functionIDs : List UInt16 :=
  (List.range Permute.n.toNat).map fun i => Permute.low + UInt16.ofNat i

def hextetAt48 (a : Addr) : BitVec 16 := a.as16.extractLsb' 64 16

theorem hextetAt48_withHextets (base : Prefix) (funcID : UInt16) :
    hextetAt48 (withHextets base 48 funcID) = funcID.toBitVec := by
  have hmask : ∀ i < 16, (~~~(0xffff#128 <<< 64)).getLsbD (64 + i) = false := by decide
  apply BitVec.eq_of_getLsbD_eq
  intro i hi
  have hshift : 112 - 8 * (48 / 8) = 64 := rfl
  have hi' : 64 + i < 128 := by omega
  rw [hextetAt48, withHextets, hshift, Addr.as16, BitVec.getLsbD_extractLsb', BitVec.getLsbD_or,
    BitVec.getLsbD_and, hmask i hi, BitVec.getLsbD_shiftLeft, Nat.add_sub_cancel_left,
    BitVec.getLsbD_ofNat]
  simp [hi, hi', hi.trans (show 16 < 128 by decide), BitVec.getLsbD]

def firstRepeat : ℕ := 2111

/-- The function identifiers before the first repeat are different, and `0xf007` is none of
them. -/
theorem distinctBelow_firstRepeat :
    Marks.distinctBelow (fun cursor => (permute (UInt16.ofNat cursor)).toNat) firstRepeat
      (1 <<< 0xf007) = true := by
  decide +kernel

theorem permute_injOn {i j : ℕ} (hi : i < firstRepeat) (hj : j < firstRepeat)
    (h : permute (UInt16.ofNat i) = permute (UInt16.ofNat j)) : i = j :=
  Marks.injOn_of_distinctBelow distinctBelow_firstRepeat hi hj (congrArg UInt16.toNat h)

theorem permute_ne_unused {i : ℕ} (hi : i < firstRepeat) : permute (UInt16.ofNat i) ≠ 0xf007 := by
  intro h
  refine Marks.testBit_of_distinctBelow distinctBelow_firstRepeat hi ?_
  rw [h]
  decide

theorem permute_firstRepeat :
    ∀ i < maxSIDCollisionChecks,
      permute (UInt16.ofNat (firstRepeat + i)) = permute (UInt16.ofNat (42 + i)) := by
  decide

end Identifiers

section Calls

def SIDKey.sidAt (k : SIDKey) (cursor : UInt16) : Addr :=
  withHextets k.locatorPrefix 48 (permute cursor)

/-- The database takes rows with the locator. -/
def SIDKey.Storable (k : SIDKey) : Prop :=
  k.locatorPrefix.isValid = true ∧ k.locatorPrefix.masked = k.locatorPrefix

instance (k : SIDKey) : Decidable k.Storable := inferInstanceAs (Decidable (_ ∧ _))

namespace SIDState

def empty : SIDState where
  sidAllocationMap := ∅
  sidTenantMap := ∅
  sidCursor := 0
  db := .empty

def request (s : SIDState) (k : SIDKey) : Except String Addr × SIDState :=
  getOrGenerateSID k.locatorPrefix k.tenantID k.sidType s

def Allocated (s : SIDState) (sid : Addr) : Prop := s.sidAllocationMap.getD sid false = true

instance (s : SIDState) (sid : Addr) : Decidable (s.Allocated sid) :=
  inferInstanceAs (Decidable (_ = true))

def allocatedOn (s : SIDState) (locatorPrefix : Prefix) : ℕ :=
  functionIDs.countP fun funcID => s.Allocated (withHextets locatorPrefix 48 funcID)

def Taken (s : SIDState) (k : SIDKey) (i : ℕ) : Prop :=
  s.Allocated (k.sidAt (s.sidCursor + UInt16.ofNat i))

/-- One of the places that a call looks at has a SID that is free. -/
def NextFree (s : SIDState) (k : SIDKey) : Prop :=
  ∃ i < maxSIDCollisionChecks, ¬ s.Taken k i

/-- The key is new and the locator is not full. -/
def HasRoom (s : SIDState) (k : SIDKey) : Prop :=
  s.sidTenantMap.lookup k.text = none ∧ s.allocatedOn k.locatorPrefix < functionIDs.length

def allocate (s : SIDState) (k : SIDKey) (cursor : UInt16) : SIDState where
  sidAllocationMap := s.sidAllocationMap.insert (k.sidAt cursor) true
  sidTenantMap := s.sidTenantMap.insert k.text (k.sidAt cursor)
  sidCursor := cursor + 1
  db :=
    { s.db with
      sidAllocations := s.db.sidAllocations ++ [k.row (k.sidAt cursor)]
      sidCursor := (cursor + 1).toNat }

structure Healthy (s : SIDState) : Prop where
  tracks : Tracks s.sidTenantMap s.db.sidAllocations
  allocated : ∀ row ∈ s.db.sidAllocations, s.Allocated row.sid
  outcomes : s.db.outcomes = []

theorem healthy_empty : empty.Healthy where
  tracks := by
    intro key sid
    exact iff_of_false (lookup_empty_ne key sid) fun ⟨_, hr, _⟩ => nomatch hr
  allocated := fun _ hrow => nomatch hrow
  outcomes := rfl

variable {s : SIDState} {k : SIDKey} {sid : Addr}

theorem getD_insert_true {m : GoMap Addr Bool} {sid' : Addr} :
    GoMap.getD (m.insert sid true) sid' false = true ↔ sid' = sid ∨ m.getD sid' false = true := by
  rw [getD_insert]
  split_ifs with h
  · exact iff_of_true rfl (Or.inl h)
  · exact (or_iff_right h).symm

theorem Healthy.allocate (h : s.Healthy) (hnew : s.sidTenantMap.lookup k.text = none)
    (cursor : UInt16) : (s.allocate k cursor).Healthy where
  tracks := h.tracks.append (k.tenantMapKey_row _) hnew
  allocated := by
    intro row hrow
    refine getD_insert_true.mpr ?_
    rcases List.mem_append.mp hrow with hold | hadded
    · exact Or.inr (h.allocated row hold)
    · rw [List.mem_singleton.mp hadded]
      exact Or.inl rfl
  outcomes := h.outcomes

theorem Healthy.createSIDAllocation (h : s.Healthy) (hk : k.Storable)
    (hnew : s.sidTenantMap.lookup k.text = none) (hfree : ¬ s.Allocated sid) :
    s.db.createSIDAllocation (k.row sid) =
      .ok { s.db with sidAllocations := s.db.sidAllocations ++ [k.row sid] } := by
  have hvalid : ¬ ¬ (k.row sid).locator.isValid = true := not_not.mpr hk.1
  have hmasked : ¬ (k.row sid).locator.masked ≠ (k.row sid).locator := not_not.mpr hk.2
  rw [Database.createSIDAllocation, if_neg hvalid, if_neg hmasked, if_neg]
  rw [List.any_eq_true]
  rintro ⟨r, hr, hsame⟩
  rcases of_decide_eq_true hsame with hsid | ⟨hlocator, htenant, htype⟩
  · have hallocated := h.allocated r hr
    rw [hsid] at hallocated
    exact hfree hallocated
  · -- The row of the same locator, tenant and type has the same text.
    refine h.tracks.notMem_of_lookup_eq_none hnew r hr ?_
    rw [← k.tenantMapKey_row sid, SIDAllocation.tenantMapKey, SIDAllocation.tenantMapKey,
      hlocator, htenant, htype]

theorem Healthy.inTx (h : s.Healthy) (hk : k.Storable)
    (hnew : s.sidTenantMap.lookup k.text = none) (hfree : ¬ s.Allocated sid)
    (cursor : ℤ) :
    (s.db.inTx fun db => (db.createSIDAllocation (k.row sid)).map (Database.setSIDCursor cursor)) =
      (none, { s.db with
        sidAllocations := s.db.sidAllocations ++ [k.row sid], sidCursor := cursor }) := by
  have hcall : s.db.call = (none, s.db) := by
    rw [Database.call, h.outcomes]
  rw [Database.inTx, hcall]
  simp only [h.createSIDAllocation hk hnew hfree]
  rfl

theorem add_ofNat_zero (cursor : UInt16) : cursor + UInt16.ofNat 0 = cursor :=
  UInt16.add_zero cursor

theorem add_one_add_ofNat (cursor : UInt16) (i : ℕ) :
    cursor + 1 + UInt16.ofNat i = cursor + UInt16.ofNat (i + 1) := by
  rw [UInt16.ofNat_add, UInt16.add_assoc, UInt16.add_comm 1]
  rfl

theorem taken_succ (i : ℕ) :
    Taken { s with sidCursor := s.sidCursor + 1 } k i ↔ s.Taken k (i + 1) := by
  rw [Taken, Taken, add_one_add_ofNat]
  rfl

theorem taken_zero : s.Taken k 0 ↔ s.Allocated (k.sidAt s.sidCursor) := by
  rw [Taken, add_ofNat_zero]

/-- A call either finds all places taken and only moves the cursor, or allocates the first
place that is free. -/
theorem Healthy.generateSID_cases (h : s.Healthy) (hk : k.Storable)
    (hnew : s.sidTenantMap.lookup k.text = none) (rounds : ℕ) :
    ((∀ i < rounds, s.Taken k i) ∧
      generateSID k.locatorPrefix k.tenantID k.sidType rounds s =
        (.error "couldn't generate SID: too many collisions, tried 5 times",
          { s with sidCursor := s.sidCursor + UInt16.ofNat rounds })) ∨
      ∃ i < rounds, (∀ j < i, s.Taken k j) ∧ ¬ s.Taken k i ∧
        generateSID k.locatorPrefix k.tenantID k.sidType rounds s =
          (.ok (k.sidAt (s.sidCursor + UInt16.ofNat i)),
            s.allocate k (s.sidCursor + UInt16.ofNat i)) := by
  induction rounds generalizing s with
  | zero =>
    refine Or.inl ⟨fun i hi => absurd hi (Nat.not_lt_zero i), ?_⟩
    rw [add_ofNat_zero]
    rfl
  | succ rounds ih =>
    rw [generateSID]
    split_ifs with htaken
    · have hzero : s.Taken k 0 := taken_zero.mpr htaken
      rcases @ih { s with sidCursor := s.sidCursor + 1 } ⟨h.tracks, h.allocated, h.outcomes⟩ hnew
        with ⟨hall, hgen⟩ | ⟨i, hi, hbefore, hfree, hgen⟩
      · refine Or.inl ⟨?_, ?_⟩
        · intro i hi
          cases i with
          | zero => exact hzero
          | succ i => exact (taken_succ i).mp (hall i (Nat.succ_lt_succ_iff.mp hi))
        · rw [hgen, add_one_add_ofNat]
      · refine Or.inr ⟨i + 1, Nat.succ_lt_succ hi, ?_,
          fun ht => hfree ((taken_succ i).mpr ht), ?_⟩
        · intro j hj
          cases j with
          | zero => exact hzero
          | succ j => exact (taken_succ j).mp (hbefore j (Nat.succ_lt_succ_iff.mp hj))
        · rw [hgen, add_one_add_ofNat]
          rfl
    · refine Or.inr ⟨0, Nat.succ_pos rounds, fun j hj => absurd hj (Nat.not_lt_zero j),
        fun ht => htaken (taken_zero.mp ht), ?_⟩
      have htx := h.inTx hk hnew htaken (s.sidCursor + 1).toNat
      rw [SIDKey.row] at htx
      rw [htx, add_ofNat_zero]
      rfl

theorem request_of_lookup_eq_none (hnew : s.sidTenantMap.lookup k.text = none) :
    s.request k =
      generateSID k.locatorPrefix k.tenantID k.sidType maxSIDCollisionChecks s := by
  rw [SIDKey.text] at hnew
  rw [request, getOrGenerateSID, hnew]

theorem request_of_lookup_eq_some (h : s.sidTenantMap.lookup k.text = some sid) :
    s.request k = (.ok sid, { s with sidAllocationMap := s.sidAllocationMap.insert sid true }) := by
  rw [SIDKey.text] at h
  rw [request, getOrGenerateSID, h]

theorem Healthy.isOk_request_iff (h : s.Healthy) (hk : k.Storable)
    (hnew : s.sidTenantMap.lookup k.text = none) : (s.request k).1.isOk = true ↔ s.NextFree k := by
  rw [request_of_lookup_eq_none hnew]
  rcases h.generateSID_cases hk hnew maxSIDCollisionChecks with
    ⟨hall, hgen⟩ | ⟨i, hi, -, hfree, hgen⟩
  · rw [hgen]
    exact iff_of_false Bool.false_ne_true fun ⟨i, hi, hfree⟩ => hfree (hall i hi)
  · rw [hgen]
    exact iff_of_true rfl ⟨i, hi, hfree⟩

theorem Healthy.allocated_insert_iff (h : s.Healthy) {sid' : Addr}
    (hknown : s.sidTenantMap.lookup k.text = some sid) :
    GoMap.getD (s.sidAllocationMap.insert sid true) sid' false = true ↔ s.Allocated sid' := by
  obtain ⟨row, hrow, -, rfl⟩ := (h.tracks _ _).mp hknown
  rw [getD_insert_true]
  exact or_iff_right_of_imp fun heq => heq ▸ h.allocated row hrow

theorem Healthy.request (h : s.Healthy) (hk : k.Storable) : (s.request k).2.Healthy := by
  cases hlookup : s.sidTenantMap.lookup k.text with
  | some sid =>
    rw [request_of_lookup_eq_some hlookup]
    exact ⟨h.tracks, fun row hrow =>
      (h.allocated_insert_iff hlookup).mpr (h.allocated row hrow), h.outcomes⟩
  | none =>
    rw [request_of_lookup_eq_none hlookup]
    rcases h.generateSID_cases hk hlookup maxSIDCollisionChecks with
      ⟨-, hgen⟩ | ⟨i, -, -, -, hgen⟩
    · rw [hgen]
      exact ⟨h.tracks, h.allocated, h.outcomes⟩
    · rw [hgen]
      exact h.allocate hlookup _

end SIDState

end Calls

section Early

namespace SIDState

variable {s : SIDState} {k : SIDKey}

def Drawn (s : SIDState) : Prop :=
  ∀ sid, s.Allocated sid →
    ∃ i < s.sidCursor.toNat, hextetAt48 sid = (permute (UInt16.ofNat i)).toBitVec

theorem drawn_empty : empty.Drawn := by
  intro sid hsid
  rw [Allocated, empty, getD_empty] at hsid
  cases hsid

theorem Drawn.not_taken_zero (h : s.Drawn) (hcursor : s.sidCursor.toNat < firstRepeat)
    (k : SIDKey) : ¬ s.Taken k 0 := by
  intro htaken
  obtain ⟨i, hi, hid⟩ := h _ (taken_zero.mp htaken)
  rw [SIDKey.sidAt, hextetAt48_withHextets] at hid
  have hsame : permute (UInt16.ofNat s.sidCursor.toNat) = permute (UInt16.ofNat i) := by
    rw [UInt16.ofNat_toNat]
    exact UInt16.toBitVec_inj.mp hid
  exact hi.ne (permute_injOn hcursor (hi.trans hcursor) hsame).symm

theorem Healthy.request_of_drawn (hs : s.Healthy) (h : s.Drawn)
    (hcursor : s.sidCursor.toNat < firstRepeat) (hk : k.Storable)
    (hnew : s.sidTenantMap.lookup k.text = none) :
    s.request k = (.ok (k.sidAt s.sidCursor), s.allocate k s.sidCursor) := by
  have hfree := h.not_taken_zero hcursor k
  rw [request_of_lookup_eq_none hnew]
  rcases hs.generateSID_cases hk hnew maxSIDCollisionChecks with
    ⟨hall, -⟩ | ⟨i, hi, hbefore, -, hgen⟩
  · exact absurd (hall 0 (by decide)) hfree
  · cases i with
    | zero =>
      rw [hgen, add_ofNat_zero]
    | succ i => exact absurd (hbefore 0 (Nat.succ_pos i)) hfree

theorem toNat_allocate_sidCursor (hcursor : s.sidCursor.toNat < firstRepeat) :
    (s.allocate k s.sidCursor).sidCursor.toNat = s.sidCursor.toNat + 1 := by
  have hbound : firstRepeat = 2111 := rfl
  rw [allocate, UInt16.toNat_add]
  exact Nat.mod_eq_of_lt (by simp only [UInt16.reduceToNat]; omega)

theorem Drawn.allocate (h : s.Drawn) (hcursor : s.sidCursor.toNat < firstRepeat) :
    (s.allocate k s.sidCursor).Drawn := by
  intro sid hsid
  rw [toNat_allocate_sidCursor hcursor]
  rcases getD_insert_true.mp hsid with rfl | hold
  · refine ⟨s.sidCursor.toNat, Nat.lt_succ_self _, ?_⟩
    rw [SIDKey.sidAt, hextetAt48_withHextets, UInt16.ofNat_toNat]
  · obtain ⟨i, hi, hid⟩ := h sid hold
    exact ⟨i, Nat.lt_succ_of_lt hi, hid⟩

theorem Healthy.drawn_request (hs : s.Healthy) (h : s.Drawn)
    (hcursor : s.sidCursor.toNat < firstRepeat) (hk : k.Storable) :
    (s.request k).2.Drawn ∧ (s.request k).2.sidCursor.toNat ≤ s.sidCursor.toNat + 1 := by
  cases hlookup : s.sidTenantMap.lookup k.text with
  | some sid =>
    rw [request_of_lookup_eq_some hlookup]
    exact ⟨fun sid' hsid => h sid' ((hs.allocated_insert_iff hlookup).mp hsid),
      Nat.le_succ _⟩
  | none =>
    rw [hs.request_of_drawn h hcursor hk hlookup]
    exact ⟨h.allocate hcursor, (toNat_allocate_sidCursor hcursor).le⟩

end SIDState

def SIDState.after (calls : List SIDKey) : SIDState :=
  calls.foldl (fun s k => (s.request k).2) .empty

theorem SIDState.after_concat (calls : List SIDKey) (k : SIDKey) :
    SIDState.after (calls ++ [k]) = ((SIDState.after calls).request k).2 := by
  rw [SIDState.after, List.foldl_append]
  rfl

theorem SIDState.healthy_after {calls : List SIDKey} (h : ∀ k ∈ calls, k.Storable) :
    (SIDState.after calls).Healthy := by
  induction calls using List.reverseRecOn with
  | nil => exact SIDState.healthy_empty
  | append_singleton calls k ih =>
    obtain ⟨hcalls, hk⟩ := List.forall_mem_append.mp h
    rw [SIDState.after_concat]
    exact (ih hcalls).request (hk k List.mem_cons_self)

theorem SIDState.drawn_after {calls : List SIDKey} (h : ∀ k ∈ calls, k.Storable)
    (hlen : calls.length ≤ firstRepeat) :
    (SIDState.after calls).Drawn ∧ (SIDState.after calls).sidCursor.toNat ≤ calls.length := by
  induction calls using List.reverseRecOn with
  | nil => exact ⟨SIDState.drawn_empty, le_rfl⟩
  | append_singleton calls k ih =>
    obtain ⟨hcalls, hk⟩ := List.forall_mem_append.mp h
    rw [List.length_append, List.length_singleton] at hlen ⊢
    obtain ⟨hdrawn, hcursor⟩ := ih hcalls (Nat.le_of_succ_le hlen)
    obtain ⟨hdrawn', hcursor'⟩ := (SIDState.healthy_after hcalls).drawn_request hdrawn
      (hcursor.trans_lt hlen) (hk k List.mem_cons_self)
    rw [SIDState.after_concat]
    exact ⟨hdrawn', hcursor'.trans (Nat.succ_le_succ hcursor)⟩

end Early

section Exhausted

structure Customers (locatorPrefix : Prefix) (keys : ℕ → SIDKey) : Prop where
  locator : ∀ i, (keys i).locatorPrefix = locatorPrefix
  storable : ∀ i, (keys i).Storable
  text : ∀ i j, (keys i).text = (keys j).text → i = j

variable {locatorPrefix : Prefix} {keys : ℕ → SIDKey}

structure SIDState.Filled (locatorPrefix : Prefix) (keys : ℕ → SIDKey) (n : ℕ) (s : SIDState) :
    Prop where
  sidCursor : s.sidCursor = UInt16.ofNat n
  allocated : ∀ i < n, s.Allocated (withHextets locatorPrefix 48 (permute (UInt16.ofNat i)))
  lookup : ∀ i, n ≤ i → s.sidTenantMap.lookup (keys i).text = none

theorem Customers.storable_range (h : Customers locatorPrefix keys) (n : ℕ) :
    ∀ k ∈ (List.range n).map keys, k.Storable := by
  rw [List.forall_mem_map]
  exact fun i _ => h.storable i

theorem Customers.filled (h : Customers locatorPrefix keys) {n : ℕ} (hn : n ≤ firstRepeat) :
    (SIDState.after ((List.range n).map keys)).Filled locatorPrefix keys n := by
  induction n with
  | zero => exact ⟨rfl, fun i hi => absurd hi (Nat.not_lt_zero i), fun _ _ => rfl⟩
  | succ n ih =>
    have hfilled := ih (Nat.le_of_succ_le hn)
    have hlen : ((List.range n).map keys).length = n := by simp
    obtain ⟨hdrawn, hcursor⟩ :=
      SIDState.drawn_after (h.storable_range n) (hlen.le.trans (Nat.le_of_succ_le hn))
    have hserved := (SIDState.healthy_after (h.storable_range n)).request_of_drawn hdrawn
      ((hcursor.trans hlen.le).trans_lt hn) (h.storable n) (hfilled.lookup n le_rfl)
    rw [List.range_succ, List.map_append, List.map_singleton, SIDState.after_concat, hserved]
    refine ⟨?_, ?_, ?_⟩
    · rw [SIDState.allocate, hfilled.sidCursor, UInt16.ofNat_add]
      rfl
    · intro i hi
      refine SIDState.getD_insert_true.mpr ?_
      rcases Nat.lt_succ_iff_lt_or_eq.mp hi with hlt | rfl
      · exact Or.inr (hfilled.allocated i hlt)
      · rw [SIDKey.sidAt, h.locator, hfilled.sidCursor]
        exact Or.inl rfl
    · intro i hi
      rw [SIDState.allocate, lookup_insert_eq, if_neg,
        hfilled.lookup i (Nat.le_of_succ_le hi)]
      intro htext
      exact (Nat.ne_of_gt hi) (h.text _ _ htext)

theorem Customers.exhausted (h : Customers locatorPrefix keys) :
    ¬ (SIDState.after ((List.range firstRepeat).map keys)).NextFree (keys firstRepeat) := by
  have hfilled := h.filled le_rfl
  rintro ⟨i, hi, hfree⟩
  refine hfree ?_
  have hi5 : i < 5 := hi
  rw [SIDState.Taken, SIDKey.sidAt, h.locator, hfilled.sidCursor, ← UInt16.ofNat_add,
    permute_firstRepeat i hi]
  exact hfilled.allocated _ (show 42 + i < 2111 by omega)

theorem Customers.hasRoom (h : Customers locatorPrefix keys) :
    (SIDState.after ((List.range firstRepeat).map keys)).HasRoom (keys firstRepeat) := by
  have hlen : ((List.range firstRepeat).map keys).length = firstRepeat := by simp
  obtain ⟨hdrawn, hcursor⟩ := SIDState.drawn_after (h.storable_range firstRepeat) hlen.le
  refine ⟨(h.filled le_rfl).lookup _ le_rfl, ?_⟩
  refine lt_of_le_of_ne List.countP_le_length ?_
  rw [SIDState.allocatedOn, Ne, List.countP_eq_length]
  intro hall
  have hunused := of_decide_eq_true (hall 0xf007 (by decide +kernel))
  obtain ⟨i, hi, hid⟩ := hdrawn _ hunused
  rw [hextetAt48_withHextets] at hid
  exact permute_ne_unused (hi.trans_le (hcursor.trans hlen.le)) (UInt16.toBitVec_inj.mp hid).symm

def numberedKey (i : ℕ) : SIDKey where
  locatorPrefix := .prefixFrom (.v6 0xfc000000000100000000000000000000) 48
  tenantID := String.ofList (Text.decimal i)
  sidType := .dt46

theorem customers_numberedKey : Customers (numberedKey 0).locatorPrefix numberedKey where
  locator := fun _ => rfl
  storable := fun _ => by
    show (numberedKey 0).Storable
    decide
  text := by
    intro i j htext
    have hmapped : ∀ i a, (numberedKey i).locatorPrefix.ip = .v6 a → ¬ Addr.is4In6 a := by
      intro i a ha
      cases ha
      decide
    obtain ⟨-, htenant, -⟩ := (SIDKey.text_eq_iff (hmapped i) (hmapped j)).mp htext
    exact Int.ofNat.inj (Text.decimal_injective (String.ofList_injective htenant))

end Exhausted

section Served

/-- A new key under a locator that is not full gets a SID. -/
def SIDState.ServesRoom (s : SIDState) (k : SIDKey) : Prop :=
  s.HasRoom k → (s.request k).1.isOk = true

/-- After any calls, a new key under a locator that is not full gets a SID exactly when one of
the next five places of the cursor is free there. In the first 2111 calls the next place is. -/
theorem servesRoom_iff (calls : List SIDKey) (hcalls : ∀ c ∈ calls, c.Storable) (k : SIDKey)
    (hk : k.Storable) :
    ((SIDState.after calls).ServesRoom k ↔
      ((SIDState.after calls).HasRoom k → (SIDState.after calls).NextFree k)) ∧
      (calls.length < firstRepeat → (SIDState.after calls).NextFree k) := by
  have hhealthy := SIDState.healthy_after hcalls
  refine ⟨forall_congr' fun hroom => hhealthy.isOk_request_iff hk hroom.1, ?_⟩
  intro hlen
  obtain ⟨hdrawn, hcursor⟩ := SIDState.drawn_after hcalls hlen.le
  exact ⟨0, by decide, hdrawn.not_taken_zero (hcursor.trans_lt hlen) k⟩

/-- The second tenant of a locator is served. -/
theorem second_tenant_served :
    (numberedKey 0).Storable ∧ (numberedKey 1).Storable ∧
      (SIDState.after [numberedKey 0]).ServesRoom (numberedKey 1) := by
  have hstorable : ∀ k ∈ [numberedKey 0], k.Storable := by decide
  have hserves := servesRoom_iff [numberedKey 0] hstorable (numberedKey 1) (by decide)
  exact ⟨by decide, by decide, hserves.1.mpr fun _ => hserves.2 (by decide)⟩

/-- The function identifier at place 2111 is that at place 42, and of 2112 tenants on one
locator the last gets no SID. -/
theorem last_of_2112_tenants :
    permute 2111 = permute 42 ∧
      ¬ (SIDState.after ((List.range 2111).map numberedKey)).ServesRoom (numberedKey 2111) := by
  refine ⟨by decide, ?_⟩
  intro hserves
  have hcustomers := customers_numberedKey
  have hhealthy := SIDState.healthy_after (hcustomers.storable_range firstRepeat)
  have hroom := hcustomers.hasRoom
  exact hcustomers.exhausted
    ((hhealthy.isOk_request_iff (hcustomers.storable _) hroom.1).mp (hserves hroom))

end Served

end Maeto.ControlPlane
